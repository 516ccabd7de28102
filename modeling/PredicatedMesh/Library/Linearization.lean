import Mathlib.Data.List.Nodup
import Mathlib.Tactic

/-!
# Orders that respect requirements

A list is a linearization of a relation of requirements when it has no repetition and everything in
it comes after what it requires. Dropping elements that nothing kept requires leaves a
linearization, and so does adding elements behind whose requirements are there already.

A run over a list is a fold, and `foldl_invariant` is its induction: what holds at the start and is
kept by every element, given how the list goes on from there, holds after every prefix.
-/

variable {α σ : Type*}

/-- Everything comes after what it requires, where `requires b a` says that `a` requires `b`. -/
structure Linearizes (requires : α → α → Prop) (order : List α) : Prop where
  nodup : order.Nodup
  earlier : ∀ before a after, order = before ++ a :: after → ∀ b, requires b a → b ∈ before

namespace Linearizes

variable {requires required : α → α → Prop} {order rest before after : List α} {a b : α}

theorem not_mem_before (h : Linearizes requires order) (horder : order = before ++ a :: after) :
    a ∉ before := by
  have hnodup := h.nodup
  rw [horder, List.nodup_append] at hnodup
  exact fun hmem ↦ hnodup.2.2 a hmem a List.mem_cons_self rfl

/-- What an element of a prefix requires is in that prefix. -/
theorem mem_of_requires (h : Linearizes requires order) (horder : order = before ++ after)
    (ha : a ∈ before) (hb : requires b a) : b ∈ before := by
  obtain ⟨first, last, rfl⟩ := List.append_of_mem ha
  have hmem := h.earlier first a (last ++ after) (by rw [horder, List.append_assoc]; rfl) b hb
  exact List.mem_append_left _ hmem

/-- Elements that nothing kept requires can be dropped. -/
theorem filter (h : Linearizes requires order) {p : α → Bool}
    (hkept : ∀ b a, p a = true → required b a → requires b a ∧ p b = true) :
    Linearizes required (order.filter p) where
  nodup := h.nodup.filter p
  earlier := by
    intro before a after horder b hb
    obtain ⟨first, last, rfl, rfl, hlast⟩ := List.filter_eq_append_iff.mp horder
    obtain ⟨skipped, rest, rfl, hskipped, ha, -⟩ := List.filter_eq_cons_iff.mp hlast
    obtain ⟨hrequires, hp⟩ := hkept b a ha hb
    have hmem := h.earlier (first ++ skipped) a rest (by rw [List.append_assoc]) b hrequires
    rcases List.mem_append.mp hmem with hmem | hmem
    · exact List.mem_filter.mpr ⟨hmem, hp⟩
    · exact absurd hp (hskipped b hmem)

/-- Elements can be added behind when what they require is there by then. -/
theorem append (h : Linearizes requires order)
    (hsame : ∀ a ∈ order, ∀ b, required b a → requires b a) (hnodup : rest.Nodup)
    (hdisjoint : ∀ a ∈ order, a ∉ rest)
    (hthere : ∀ before a after, rest = before ++ a :: after → ∀ b, required b a →
      b ∈ order ∨ b ∈ before) : Linearizes required (order ++ rest) where
  nodup := List.nodup_append.mpr
    ⟨h.nodup, hnodup, fun a ha b hb hab ↦ hdisjoint a ha (hab ▸ hb)⟩
  earlier := by
    intro before a after horder b hb
    rcases List.append_eq_append_iff.mp horder with ⟨middle, rfl, hrest⟩ | ⟨middle, rfl, hrest⟩
    · rcases hthere middle a after hrest b hb with hmem | hmem
      · exact List.mem_append_left _ hmem
      · exact List.mem_append_right _ hmem
    · cases middle with
      | nil =>
        rw [List.append_nil] at hthere
        rcases hthere [] a after hrest.symm b hb with hmem | hmem
        · exact hmem
        · cases hmem
      | cons head middle =>
        obtain ⟨rfl, -⟩ := List.cons.inj hrest
        exact h.earlier before a middle rfl b
          (hsame a (List.mem_append_right _ List.mem_cons_self) b hb)

end Linearizes

/-! ## Deciding -/

/-- The ways to split a list before an element are its positions. -/
theorem forall_split_iff {order : List α} {p : List α → α → Prop} :
    (∀ before a after, order = before ++ a :: after → p before a) ↔
      ∀ i, ∀ h : i < order.length, p (order.take i) order[i] := by
  constructor
  · intro h i hi
    refine h (order.take i) order[i] (order.drop (i + 1)) ?_
    rw [List.cons_getElem_drop_succ, List.take_append_drop]
  · rintro h before a after rfl
    have hi : before.length < (before ++ a :: after).length := by simp
    have hp := h before.length hi
    rwa [List.take_left, List.getElem_append_right le_rfl, getElem_congr_idx (Nat.sub_self _),
      List.getElem_cons_zero] at hp

instance [DecidableEq α] {requires : α → α → Prop} {order : List α}
    [∀ (before : List α) a, Decidable (∀ b, requires b a → b ∈ before)] :
    Decidable (Linearizes requires order) :=
  decidable_of_iff (order.Nodup ∧
      ∀ i, ∀ h : i < order.length, ∀ b, requires b order[i] → b ∈ order.take i)
    ⟨fun h ↦ ⟨h.1, forall_split_iff.mpr h.2⟩, fun h ↦ ⟨h.nodup, forall_split_iff.mp h.earlier⟩⟩

/-! ## Runs -/

/-- The induction for a run over a list: the invariant is about the part that has been run. -/
theorem foldl_invariant {step : σ → α → σ} {s : σ} {motive : List α → σ → Prop} {order : List α}
    (hstart : motive [] s)
    (hstep : ∀ before a after, order = before ++ a :: after → motive before (before.foldl step s) →
      motive (before ++ [a]) (step (before.foldl step s) a)) :
    ∀ before after, order = before ++ after → motive before (before.foldl step s) := by
  intro before
  induction before using List.reverseRecOn with
  | nil => exact fun _ _ ↦ hstart
  | append_singleton before a ih =>
    intro after horder
    rw [List.append_assoc, List.singleton_append] at horder
    rw [List.foldl_append, List.foldl_cons, List.foldl_nil]
    exact hstep before a after horder (ih (a :: after) horder)
