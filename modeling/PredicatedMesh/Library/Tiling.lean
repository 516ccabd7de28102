import Mathlib.Data.Int.Order.Basic
import Mathlib.Tactic

/-!
# Tilings of an interval of integers

A list of ranges tiles an interval when each range begins right after the previous one ends. Then
every integer of the interval is in a range, nothing else is, and no two ranges meet. The last two
facts do not depend on the order of the list, so they also hold of a list that tiles the interval
only after sorting. Together with the order they are also enough: sorted ranges that do not meet and
cover the interval tile it.
-/

namespace Tiling

/-- The ranges of the list, in order, tile the integers above `start` up to `finish`. -/
inductive Tiles : ℤ → List (ℤ × ℤ) → ℤ → Prop
  | nil (start : ℤ) : Tiles start [] start
  | cons {range : ℤ × ℤ} {ranges : List (ℤ × ℤ)} {finish : ℤ} :
      Tiles range.2 ranges finish → Tiles (range.1 - 1) (range :: ranges) finish

/-- Two ranges without a common integer. -/
def Separate (r s : ℤ × ℤ) : Prop := r.2 < s.1 ∨ s.2 < r.1

theorem Separate.symm {r s : ℤ × ℤ} (h : Separate r s) : Separate s r := Or.symm h

/-- The ranges are not empty. -/
def Inhabited (l : List (ℤ × ℤ)) : Prop := ∀ r ∈ l, r.1 ≤ r.2

theorem Tiles.le {start finish : ℤ} {l : List (ℤ × ℤ)} (h : Tiles start l finish)
    (hl : Inhabited l) : start ≤ finish := by
  induction h with
  | nil start => exact le_rfl
  | @cons range ranges finish h ih =>
    have hrange := hl range List.mem_cons_self
    have := ih fun r hr ↦ hl r (List.mem_cons_of_mem _ hr)
    omega

/-- **A tiling covers its interval and nothing else.** -/
theorem Tiles.mem_iff {start finish : ℤ} {l : List (ℤ × ℤ)} (h : Tiles start l finish)
    (hl : Inhabited l) (i : ℤ) :
    (∃ r ∈ l, r.1 ≤ i ∧ i ≤ r.2) ↔ start < i ∧ i ≤ finish := by
  induction h with
  | nil start =>
    constructor
    · rintro ⟨r, hr, -⟩
      exact absurd hr List.not_mem_nil
    · rintro ⟨h₁, h₂⟩
      omega
  | @cons range ranges finish h ih =>
    have hrange := hl range List.mem_cons_self
    have hl' : Inhabited ranges := fun r hr ↦ hl r (List.mem_cons_of_mem _ hr)
    have hle := h.le hl'
    simp only [List.mem_cons, exists_eq_or_imp]
    rw [ih hl']
    omega

/-- **The ranges of a tiling do not meet.** -/
theorem Tiles.pairwise {start finish : ℤ} {l : List (ℤ × ℤ)} (h : Tiles start l finish)
    (hl : Inhabited l) : l.Pairwise Separate := by
  induction h with
  | nil start => exact List.Pairwise.nil
  | @cons range ranges finish h ih =>
    have hl' : Inhabited ranges := fun r hr ↦ hl r (List.mem_cons_of_mem _ hr)
    refine List.Pairwise.cons (fun r hr ↦ Or.inl ?_) (ih hl')
    have hr' := hl' r hr
    have := ((h.mem_iff hl' r.1).mp ⟨r, hr, le_rfl, hr'⟩).1
    exact this

/-- What a tiling says survives a change of order. -/
theorem Tiles.of_perm {start finish : ℤ} {l m : List (ℤ × ℤ)} (h : Tiles start m finish)
    (hp : m.Perm l) (hl : Inhabited l) :
    (∀ i, (∃ r ∈ l, r.1 ≤ i ∧ i ≤ r.2) ↔ start < i ∧ i ≤ finish) ∧ l.Pairwise Separate := by
  have hm : Inhabited m := fun r hr ↦ hl r (hp.mem_iff.mp hr)
  refine ⟨fun i ↦ ?_, (hp.pairwise_iff Separate.symm).mp (h.pairwise hm)⟩
  rw [← h.mem_iff hm i]
  exact ⟨fun ⟨r, hr, hi⟩ ↦ ⟨r, hp.mem_iff.mpr hr, hi⟩, fun ⟨r, hr, hi⟩ ↦ ⟨r, hp.mem_iff.mp hr, hi⟩⟩

/-- **Sorted ranges that do not meet and cover an interval tile it.** -/
theorem tiles_of_covers {start finish : ℤ} {l : List (ℤ × ℤ)} (hl : Inhabited l)
    (hsorted : l.Pairwise fun r s ↦ r.1 ≤ s.1) (hseparate : l.Pairwise Separate)
    (hcover : ∀ i, (∃ r ∈ l, r.1 ≤ i ∧ i ≤ r.2) ↔ start < i ∧ i ≤ finish)
    (hle : start ≤ finish) : Tiles start l finish := by
  induction l generalizing start with
  | nil =>
    have hnone : ¬ (start < finish ∧ finish ≤ finish) := fun h ↦ by
      obtain ⟨r, hr, -⟩ := (hcover finish).mpr h
      exact absurd hr List.not_mem_nil
    obtain rfl : start = finish := by omega
    exact Tiles.nil start
  | cons range ranges ih =>
    obtain ⟨hfirst, hsorted⟩ := List.pairwise_cons.mp hsorted
    obtain ⟨hapart, hseparate⟩ := List.pairwise_cons.mp hseparate
    have hrange := hl range List.mem_cons_self
    have hl' : Inhabited ranges := fun r hr ↦ hl r (List.mem_cons_of_mem _ hr)
    have hbegin := (hcover range.1).mp ⟨range, List.mem_cons_self, le_rfl, hrange⟩
    have hend := (hcover range.2).mp ⟨range, List.mem_cons_self, hrange, le_rfl⟩
    -- whatever range the interval starts in, the first range of the list starts no later
    obtain ⟨r, hr, hstart⟩ := (hcover (start + 1)).mpr ⟨by omega, by omega⟩
    have hleast : range.1 ≤ r.1 := by
      rcases List.mem_cons.mp hr with rfl | hr
      · exact le_rfl
      · exact hfirst r hr
    obtain rfl : start = range.1 - 1 := by omega
    have hbeyond : ∀ r ∈ ranges, range.2 < r.1 := fun r hr ↦ by
      have hle := hfirst r hr
      have hinhabited := hl' r hr
      rcases hapart r hr with h | h
      · exact h
      · omega
    apply Tiles.cons
    refine ih hl' hsorted hseparate (fun i ↦ ⟨?_, ?_⟩) hend.2
    · rintro ⟨r, hr, hi⟩
      have hlt := hbeyond r hr
      have hle := ((hcover i).mp ⟨r, List.mem_cons_of_mem _ hr, hi⟩).2
      omega
    · rintro ⟨hlt, hi⟩
      obtain ⟨r, hr, hri⟩ := (hcover i).mpr ⟨by omega, hi⟩
      rcases List.mem_cons.mp hr with rfl | hr
      · omega
      · exact ⟨r, hr, hri⟩

end Tiling
