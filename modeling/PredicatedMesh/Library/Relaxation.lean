import Mathlib.Algebra.Order.Group.Int
import Mathlib.Order.ConditionallyCompleteLattice.Basic
import Mathlib.Data.Int.ConditionallyCompleteOrder
import Mathlib.Data.Fintype.Card
import Mathlib.Tactic

/-!
# Difference constraints and relaxation

A difference constraint asks that the value at one point exceed the value at another by at least a
weight. Relaxing a constraint raises the value it bounds to what it asks for, and a round relaxes
every constraint of a list once, each seeing the values its predecessors left.

Starting from zero, rounds stay below every nonnegative solution (`round_le`). If there is a
solution at all there is a least one, and each round settles a further point at its least value:
were the settled set to stay the same, lowering all the other points by one would give a smaller
solution (`exists_settled_of_not_all`). So as many rounds as there are points, less one, reach the
least solution (`satisfies_iterate`).
-/

namespace Relaxation

variable {ι : Type*} [DecidableEq ι]

/-- The value at `dst` must exceed the value at `src` by `weight`. -/
structure Constraint (ι : Type*) where
  src : ι
  dst : ι
  weight : ℤ

def Constraint.Holds (c : Constraint ι) (x : ι → ℤ) : Prop := x c.src + c.weight ≤ x c.dst

/-- All constraints hold. -/
def Satisfies (x : ι → ℤ) (cs : List (Constraint ι)) : Prop := ∀ c ∈ cs, c.Holds x

def relax (x : ι → ℤ) (c : Constraint ι) : ι → ℤ :=
  if x c.dst < x c.src + c.weight then Function.update x c.dst (x c.src + c.weight) else x

def round (cs : List (Constraint ι)) (x : ι → ℤ) : ι → ℤ := cs.foldl relax x

/-! ## One constraint and one round -/

theorem relax_of_holds {x : ι → ℤ} {c : Constraint ι} (h : c.Holds x) : relax x c = x := by
  rw [relax, if_neg (not_lt.mpr h)]

theorem le_relax (x : ι → ℤ) (c : Constraint ι) : x ≤ relax x c := by
  rw [relax]
  split
  · rename_i hlt
    exact le_update_iff.mpr ⟨hlt.le, fun _ _ ↦ le_rfl⟩
  · exact le_rfl

theorem relax_le {x y : ι → ℤ} {c : Constraint ι} (hxy : x ≤ y) (hc : c.Holds y) :
    relax x c ≤ y := by
  rw [relax]
  split
  · refine update_le_iff.mpr ⟨?_, fun i _ ↦ hxy i⟩
    exact (add_le_add_left (hxy c.src) _).trans hc
  · exact hxy

theorem le_relax_dst (x : ι → ℤ) (c : Constraint ι) : x c.src + c.weight ≤ relax x c c.dst := by
  rw [relax]
  split
  · rw [Function.update_self]
  · rename_i hge
    exact not_lt.mp hge

theorem le_round (cs : List (Constraint ι)) (x : ι → ℤ) : x ≤ round cs x := by
  induction cs generalizing x with
  | nil => exact le_rfl
  | cons c cs ih => exact (le_relax x c).trans (ih (relax x c))

theorem round_le {cs : List (Constraint ι)} {x y : ι → ℤ} (hxy : x ≤ y) (hy : Satisfies y cs) :
    round cs x ≤ y := by
  induction cs generalizing x with
  | nil => exact hxy
  | cons c cs ih =>
    exact ih (relax_le hxy (hy c List.mem_cons_self)) fun d hd ↦ hy d (List.mem_cons_of_mem c hd)

/-- A round does what every constraint asks for, as seen from the values it started with. -/
theorem le_round_dst {cs : List (Constraint ι)} {c : Constraint ι} (hc : c ∈ cs) (x : ι → ℤ) :
    x c.src + c.weight ≤ round cs x c.dst := by
  induction cs generalizing x with
  | nil => exact absurd hc List.not_mem_nil
  | cons d cs ih =>
    rcases List.mem_cons.mp hc with rfl | hc
    · exact (le_relax_dst x c).trans (le_round cs (relax x c) c.dst)
    · exact (add_le_add_left (le_relax x d c.src) _).trans (ih hc (relax x d))

theorem satisfies_of_round_eq {cs : List (Constraint ι)} {x : ι → ℤ} (h : round cs x = x) :
    Satisfies x cs := by
  intro c hc
  have := le_round_dst hc x
  rwa [h] at this

theorem zero_le_iterate (cs : List (Constraint ι)) (k : ℕ) : 0 ≤ (round cs)^[k] 0 := by
  induction k with
  | zero => exact le_rfl
  | succ k ih =>
    rw [Function.iterate_succ_apply']
    exact ih.trans (le_round cs _)

theorem iterate_le {cs : List (Constraint ι)} {y : ι → ℤ} (hpos : 0 ≤ y) (hy : Satisfies y cs)
    (k : ℕ) : (round cs)^[k] 0 ≤ y := by
  induction k with
  | zero => exact hpos
  | succ k ih =>
    rw [Function.iterate_succ_apply']
    exact round_le ih hy

/-! ## The least solution -/

/-- The nonnegative solutions. -/
def solutions (cs : List (Constraint ι)) : Set (ι → ℤ) := {y | 0 ≤ y ∧ Satisfies y cs}

omit [DecidableEq ι] in
/-- If there is a nonnegative solution, there is a least one. -/
theorem exists_isLeast {cs : List (Constraint ι)} (h : (solutions cs).Nonempty) :
    ∃ y, IsLeast (solutions cs) y := by
  have hbelow : ∀ i, BddBelow ((fun y : ι → ℤ ↦ y i) '' solutions cs) := fun i ↦
    ⟨0, by rintro _ ⟨y, hy, rfl⟩; exact hy.1 i⟩
  let least : ι → ℤ := fun i ↦ sInf ((fun y : ι → ℤ ↦ y i) '' solutions cs)
  have hle : ∀ y ∈ solutions cs, least ≤ y := fun y hy i ↦
    csInf_le (hbelow i) ⟨y, hy, rfl⟩
  have hattained : ∀ i, ∃ y ∈ solutions cs, y i = least i := fun i ↦
    Int.csInf_mem (h.image _) (hbelow i)
  refine ⟨least, ⟨fun i ↦ ?_, fun c hc ↦ ?_⟩, hle⟩
  · obtain ⟨y, hy, hyi⟩ := hattained i
    exact (hy.1 i).trans_eq hyi
  · -- the solution that attains the value at `dst` bounds the value at `src`
    obtain ⟨y, hy, hyi⟩ := hattained c.dst
    have hsrc := hle y hy c.src
    have hholds := hy.2 c hc
    calc least c.src + c.weight ≤ y c.src + c.weight := by
          gcongr
      _ ≤ y c.dst := hholds
      _ = least c.dst := hyi

section Settled

variable {cs : List (Constraint ι)} {y : ι → ℤ}

/-- The points whose value is final after `k` rounds. -/
def Settled (cs : List (Constraint ι)) (y : ι → ℤ) (k : ℕ) : Set ι := {i | (round cs)^[k] 0 i = y i}

theorem settled_mono (hy : IsLeast (solutions cs) y) (k : ℕ) :
    Settled cs y k ⊆ Settled cs y (k + 1) := by
  intro i hi
  have hge := le_round cs ((round cs)^[k] 0) i
  rw [← Function.iterate_succ_apply' (round cs) k 0, show (round cs)^[k] 0 i = y i from hi] at hge
  exact le_antisymm (iterate_le hy.1.1 hy.1.2 (k + 1) i) hge

/-- Points that are not settled in the next round can all be lowered by one, if the settled ones
have done what they ask for. -/
theorem lowered_mem_solutions (hy : IsLeast (solutions cs) y) {k : ℕ} {s : Set ι}
    [DecidablePred (· ∈ s)]
    (hs : s ⊆ Settled cs y k) (hs' : ∀ i ∉ s, (round cs)^[k + 1] 0 i ≠ y i) :
    (fun i ↦ if i ∈ s then y i else y i - 1) ∈ solutions cs := by
  have hlt : ∀ i ∉ s, (round cs)^[k + 1] 0 i < y i := fun i hi ↦
    lt_of_le_of_ne (iterate_le hy.1.1 hy.1.2 (k + 1) i) (hs' i hi)
  constructor
  · intro i
    have hpos := hy.1.1 i
    have hnonneg := zero_le_iterate cs (k + 1) i
    simp only [Pi.zero_apply] at hpos hnonneg ⊢
    split
    · exact hpos
    · rename_i hi
      have := hlt i hi
      omega
  · intro c hc
    have hholds := hy.1.2 c hc
    unfold Constraint.Holds at hholds ⊢
    by_cases hdst : c.dst ∈ s
    · simp only [if_pos hdst]
      split <;> omega
    · simp only [if_neg hdst]
      by_cases hsrc : c.src ∈ s
      · -- the round has raised `dst` to what the final value of `src` asks for
        rw [if_pos hsrc]
        have hsettled : (round cs)^[k] 0 c.src = y c.src := hs hsrc
        have hraised := le_round_dst hc ((round cs)^[k] 0)
        rw [hsettled, ← Function.iterate_succ_apply' (round cs) k 0] at hraised
        have := hlt c.dst hdst
        rw [← Nat.succ_eq_add_one] at this
        omega
      · rw [if_neg hsrc]
        omega

/-- **Each round settles a further point**, as long as there is one. -/
theorem exists_settled_of_not_all (hy : IsLeast (solutions cs) y) {k : ℕ}
    (hnot : ∃ i, i ∉ Settled cs y k) : ∃ i ∉ Settled cs y k, i ∈ Settled cs y (k + 1) := by
  classical
  by_contra! hstuck
  obtain ⟨i, hi⟩ := hnot
  have hmem := lowered_mem_solutions hy (k := k) (s := Settled cs y k) subset_rfl hstuck
  have hle := hy.2 hmem i
  simp only [if_neg hi] at hle
  omega

theorem settled_zero_nonempty (hy : IsLeast (solutions cs) y) [Nonempty ι] :
    (Settled cs y 0).Nonempty := by
  classical
  by_contra hempty
  rw [Set.not_nonempty_iff_eq_empty] at hempty
  have hlt : ∀ i, 0 < y i := fun i ↦ by
    have hpos : 0 ≤ y i := hy.1.1 i
    have hne : i ∉ Settled cs y 0 := hempty ▸ Set.notMem_empty i
    have hne' : (0 : ℤ) ≠ y i := hne
    omega
  -- all points can be lowered
  have hmem : (fun i ↦ y i - 1) ∈ solutions cs := by
    refine ⟨fun i ↦ ?_, fun c hc ↦ ?_⟩
    · have := hlt i
      simp only [Pi.zero_apply]
      omega
    · have hholds := hy.1.2 c hc
      simp only [Constraint.Holds] at hholds ⊢
      omega
  obtain ⟨i⟩ := ‹Nonempty ι›
  have hle := hy.2 hmem i
  simp only at hle
  omega

end Settled

/-! ## Termination -/

/-- After `k` rounds more than `k` points are settled, or all are. -/
theorem card_settled [Fintype ι] [Nonempty ι] {cs : List (Constraint ι)} {y : ι → ℤ}
    (hy : IsLeast (solutions cs) y) (k : ℕ) :
    (∀ i, i ∈ Settled cs y k) ∨ k < (Settled cs y k).ncard := by
  induction k with
  | zero => exact Or.inr ((Set.ncard_pos (Set.toFinite _)).mpr (settled_zero_nonempty hy))
  | succ k ih =>
    by_cases hall : ∀ i, i ∈ Settled cs y k
    · exact Or.inl fun i ↦ settled_mono hy k (hall i)
    · right
      have hcard := ih.resolve_left hall
      obtain ⟨i, hi, hi'⟩ := exists_settled_of_not_all hy (not_forall.mp hall)
      have hstrict : Settled cs y k ⊂ Settled cs y (k + 1) :=
        (Set.ssubset_iff_of_subset (settled_mono hy k)).mpr ⟨i, hi', hi⟩
      have := Set.ncard_lt_ncard hstrict (Set.toFinite _)
      omega

omit [DecidableEq ι] in
/-- A solution can be moved to be nonnegative. -/
theorem solutions_nonempty [Fintype ι] {cs : List (Constraint ι)} {x : ι → ℤ}
    (hx : Satisfies x cs) : (solutions cs).Nonempty := by
  refine ⟨fun i ↦ x i + ∑ j, |x j|, fun i ↦ ?_, fun c hc ↦ ?_⟩
  · have hle : |x i| ≤ ∑ j, |x j| :=
      Finset.single_le_sum (fun j _ ↦ abs_nonneg (x j)) (Finset.mem_univ i)
    have := neg_abs_le (x i)
    simp only [Pi.zero_apply]
    omega
  · have hholds := hx c hc
    simp only [Constraint.Holds] at hholds ⊢
    omega

/-- **Relaxation converges.** If the constraints have a solution, as many rounds as there are
points, less one, lead from zero to a solution. -/
theorem satisfies_iterate [Fintype ι] [Nonempty ι] {cs : List (Constraint ι)} {x : ι → ℤ}
    (hx : Satisfies x cs) : Satisfies ((round cs)^[Fintype.card ι - 1] 0) cs := by
  obtain ⟨y, hy⟩ := exists_isLeast (solutions_nonempty hx)
  have hall : ∀ i, i ∈ Settled cs y (Fintype.card ι - 1) := by
    rcases card_settled hy (Fintype.card ι - 1) with hall | hlt
    · exact hall
    · have hcard : (Set.univ : Set ι).ncard ≤ (Settled cs y (Fintype.card ι - 1)).ncard := by
        rw [Set.ncard_univ, Nat.card_eq_fintype_card]
        omega
      have huniv := Set.eq_of_subset_of_ncard_le (Set.subset_univ _) hcard
      exact fun i ↦ huniv ▸ Set.mem_univ i
  have heq : (round cs)^[Fintype.card ι - 1] 0 = y := funext hall
  rw [heq]
  exact hy.1.2

end Relaxation
