import Mathlib.Tactic

/-!
# Machine integers that trap

The integers a machine type can hold are those between two bounds. An operation on them is the exact
operation of the integers, stored back into the type; where the result does not fit, or a division
has no result, the operation is undefined, and so is everything computed from it. Division truncates
toward zero.

A program of such operations is a computation in `Option`. That it returns says that none of its
intermediate results overflowed.
-/

namespace MachineInt

/-- The bounds of a machine type, which holds zero. -/
structure Bounds where
  lo : ℤ
  hi : ℤ
  lo_le_zero : lo ≤ 0
  zero_le_hi : 0 ≤ hi

namespace Bounds

variable (bounds : Bounds)

/-- The type can hold an integer. -/
def Has (x : ℤ) : Prop := bounds.lo ≤ x ∧ x ≤ bounds.hi

instance (x : ℤ) : Decidable (bounds.Has x) := inferInstanceAs (Decidable (_ ∧ _))

def store (x : ℤ) : Option ℤ := if bounds.Has x then some x else none

def add (a b : ℤ) : Option ℤ := bounds.store (a + b)

def sub (a b : ℤ) : Option ℤ := bounds.store (a - b)

def neg (a : ℤ) : Option ℤ := bounds.store (-a)

def mul (a b : ℤ) : Option ℤ := bounds.store (a * b)

def div (a b : ℤ) : Option ℤ := if b = 0 then none else bounds.store (a.tdiv b)

variable {bounds} {a b x : ℤ}

theorem store_of_has (h : bounds.Has x) : bounds.store x = some x := if_pos h

theorem add_of_has (h : bounds.Has (a + b)) : bounds.add a b = some (a + b) := store_of_has h

theorem sub_of_has (h : bounds.Has (a - b)) : bounds.sub a b = some (a - b) := store_of_has h

theorem neg_of_has (h : bounds.Has (-a)) : bounds.neg a = some (-a) := store_of_has h

theorem mul_of_has (h : bounds.Has (a * b)) : bounds.mul a b = some (a * b) := store_of_has h

/-- A quotient by a positive number lies between the dividend and zero. -/
theorem has_tdiv_of_pos (ha : bounds.Has a) (hb : 0 < b) : bounds.Has (a.tdiv b) := by
  have hlo := bounds.lo_le_zero
  have hhi := bounds.zero_le_hi
  rcases le_total 0 a with hsign | hsign
  · have hnonneg : 0 ≤ a.tdiv b := Int.tdiv_nonneg hsign hb.le
    have hle : a.tdiv b ≤ a := by
      rw [Int.tdiv_eq_ediv_of_nonneg hsign]
      exact Int.ediv_le_self b hsign
    exact ⟨hlo.trans hnonneg, hle.trans ha.2⟩
  · have hneg : a.tdiv b = -(-a / b) := by
      rw [← Int.tdiv_eq_ediv_of_nonneg (by omega), Int.neg_tdiv, neg_neg]
    have hnonneg : 0 ≤ -a / b := Int.ediv_nonneg (by omega) hb.le
    have hle : -a / b ≤ -a := Int.ediv_le_self b (by omega)
    rw [hneg]
    exact ⟨by have := ha.1; omega, by omega⟩

theorem div_of_pos (ha : bounds.Has a) (hb : 0 < b) : bounds.div a b = some (a.tdiv b) := by
  rw [div, if_neg hb.ne', store_of_has (has_tdiv_of_pos ha hb)]

/-- A quotient by a negative number fits when the opposite of the dividend does. -/
theorem div_of_neg (ha : bounds.Has (-a)) (hb : b < 0) : bounds.div a b = some (a.tdiv b) := by
  have hquotient : a.tdiv b = (-a).tdiv (-b) := by rw [Int.neg_tdiv, Int.tdiv_neg, neg_neg]
  rw [div, if_neg hb.ne, hquotient, store_of_has (has_tdiv_of_pos ha (by omega))]

end Bounds

/-! ## Conditions -/

/-- `&&`: the second condition is only evaluated after the first. -/
def both (first : Prop) [Decidable first] (second : Option Bool) : Option Bool :=
  if first then second else some false

/-- `||`: the second condition is only evaluated when the first fails. -/
def either (first second : Option Bool) : Option Bool :=
  first.bind fun holds ↦ if holds then some true else second

theorem both_eq_some {first second : Prop} [Decidable first] [Decidable second]
    {computed : Option Bool} (h : first → computed = some (decide second)) :
    both first computed = some (decide (first ∧ second)) := by
  rw [both]
  by_cases hfirst : first
  · rw [if_pos hfirst, h hfirst]
    simp [hfirst]
  · rw [if_neg hfirst]
    simp [hfirst]

theorem either_eq_some {first second : Prop} [Decidable first] [Decidable second]
    {computed computed' : Option Bool} (h : computed = some (decide first))
    (h' : computed' = some (decide second)) :
    either computed computed' = some (decide (first ∨ second)) := by
  rw [either, h, h', Option.bind_some]
  by_cases hfirst : first
  · simp [hfirst]
  · simp [hfirst]

/-! ## Comparing with a quotient -/

/-- A product passes a bound when a factor passes the quotient. -/
theorem tdiv_lt_iff {m a c : ℤ} (hm : 0 ≤ m) (hc : 0 < c) : m.tdiv c < a ↔ m < a * c := by
  rw [Int.tdiv_eq_ediv_of_nonneg hm, Int.ediv_lt_iff_lt_mul hc]

theorem lt_tdiv_neg_iff {m a c : ℤ} (hm : 0 ≤ m) (hc : c < 0) : a < m.tdiv c ↔ m < a * c := by
  have hquotient : m.tdiv c = -m.tdiv (-c) := by rw [Int.tdiv_neg, neg_neg]
  rw [hquotient, lt_neg, tdiv_lt_iff hm (by omega), neg_mul_neg]

theorem lt_neg_tdiv_iff {m a c : ℤ} (hm : m ≤ 0) (hc : 0 < c) : a < m.tdiv c ↔ a * c < m := by
  have hquotient : m.tdiv c = -(-m).tdiv c := by rw [Int.neg_tdiv, neg_neg]
  rw [hquotient, lt_neg, tdiv_lt_iff (by omega) hc, neg_mul, neg_lt_neg_iff]

end MachineInt
