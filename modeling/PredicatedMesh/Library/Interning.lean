import Mathlib.Data.List.Dedup
import Mathlib.Tactic

/-!
# Numbering values as they turn up

A list of values is numbered by going through it: a value that is known keeps its number and a new
one gets the next. What matters afterwards is the list of the known values, in the order of their
numbers. It has every value once, and a number never changes when more values are numbered.
-/

namespace Interning

variable {κ : Type*} [DecidableEq κ]

/-- The known values, with the new ones among some more at the end. -/
def intern (known : List κ) : List κ → List κ
  | [] => known
  | value :: values => intern (if value ∈ known then known else known ++ [value]) values

variable {known values : List κ} {value : κ}

theorem prefix_intern : known <+: intern known values := by
  induction values generalizing known with
  | nil => exact List.prefix_refl known
  | cons value values ih =>
    rw [intern]
    refine List.IsPrefix.trans ?_ ih
    split
    · exact List.prefix_refl known
    · exact List.prefix_append known [value]

theorem mem_intern : value ∈ intern known values ↔ value ∈ known ∨ value ∈ values := by
  induction values generalizing known with
  | nil => simp [intern]
  | cons first values ih =>
    rw [intern, ih, List.mem_cons, ← or_assoc]
    split
    · rename_i hfirst
      constructor
      · rintro (h | h)
        · exact .inl (.inl h)
        · exact .inr h
      · rintro ((h | rfl) | h)
        · exact .inl h
        · exact .inl hfirst
        · exact .inr h
    · rw [List.mem_append, List.mem_singleton]

theorem nodup_intern (h : known.Nodup) : (intern known values).Nodup := by
  induction values generalizing known with
  | nil => exact h
  | cons value values ih =>
    rw [intern]
    apply ih
    split
    · exact h
    · rename_i hnew
      exact List.nodup_append.mpr ⟨h, List.nodup_singleton value, fun a ha b hb ↦ by
        rw [List.mem_singleton.mp hb]
        rintro rfl
        exact hnew ha⟩

/-- A number never changes. -/
theorem idxOf_intern (h : value ∈ known) :
    (intern known values).idxOf value = known.idxOf value := by
  have hprefix : known <+: intern known values := prefix_intern
  obtain ⟨more, hmore⟩ := hprefix
  rw [← hmore, List.idxOf_append_of_mem h]

/-- The numbers that are given are as many as there are distinct values. -/
theorem length_intern : (intern [] values).length = values.dedup.length := by
  apply List.Perm.length_eq
  rw [List.perm_ext_iff_of_nodup (nodup_intern List.nodup_nil) (List.nodup_dedup values)]
  intro value
  rw [mem_intern, List.mem_dedup]
  simp

theorem idxOf_lt_length_intern (h : value ∈ values) :
    (intern [] values).idxOf value < values.dedup.length := by
  rw [← length_intern]
  exact List.idxOf_lt_length_of_mem (mem_intern.mpr (.inr h))

/-- Looking a value up among the numbered values. -/
theorem find?_zipIdx (known : List κ) (value : κ) (start : ℕ) :
    (known.zipIdx start).find? (fun entry ↦ entry.1 == value)
      = if value ∈ known then some (value, start + known.idxOf value) else none := by
  induction known generalizing start with
  | nil => rfl
  | cons first known ih =>
    rw [List.zipIdx_cons, List.find?_cons]
    by_cases hfirst : first = value
    · subst hfirst
      simp
    · have hbeq : (first == value) = false := beq_false_of_ne hfirst
      simp only [hbeq, ih, List.mem_cons, Ne.symm hfirst, false_or, List.idxOf_cons_ne known hfirst]
      split
      · rw [Nat.succ_eq_add_one, Nat.add_right_comm, Nat.add_assoc]
      · rfl

end Interning
