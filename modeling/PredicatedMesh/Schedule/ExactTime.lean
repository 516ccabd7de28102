import PredicatedMesh.Library.MachineInt
import PredicatedMesh.Schedule.SignedTime

/-!
# Checked time is exact

The checked operations test their operands with the arithmetic they are there to protect, so the
tests must not overflow either. `Trapping` gives every operation again as the machine runs it: each
sum, difference, product and quotient has to fit its type, the quotients of the tests included, and
a condition is only evaluated where the source evaluates it. None of them traps, and each gives what
the operation on integers gives.

The operations on integers are then decided by one number, the exact result: it is stored when it
fits, and refused when it does not. Only a difference is refused more often. The source negates the
subtrahend and refuses the least integer, which has no opposite, before it does.
-/

namespace PredicatedMesh

open MachineInt

def int64 : Bounds := ⟨int64Min, int64Max, by decide, by decide⟩

def uint64 : Bounds := ⟨0, uint64Max, le_rfl, Int.natCast_nonneg _⟩

theorem int64_has {x : ℤ} : int64.Has x ↔ int64Min ≤ x ∧ x ≤ int64Max := Iff.rfl

theorem uint64_has {x : ℤ} : uint64.Has x ↔ 0 ≤ x ∧ x ≤ uint64Max := Iff.rfl

/-! ## As the machine runs them -/

namespace Trapping

/-- `return false` when a condition holds. -/
def refuse (condition : Option Bool) (rest : Option (Option ℤ)) : Option (Option ℤ) :=
  condition.bind fun holds ↦ if holds then some none else rest

def addSigned (lhs rhs : ℤ) : Option (Option ℤ) :=
  refuse (either
      (both (rhs > 0) ((int64.sub int64Max rhs).map fun bound ↦ decide (lhs > bound)))
      (both (rhs < 0) ((int64.sub int64Min rhs).map fun bound ↦ decide (lhs < bound))))
    ((int64.add lhs rhs).map some)

def subtractSigned (lhs rhs : ℤ) : Option (Option ℤ) :=
  if rhs = int64Min then some none
  else (int64.neg rhs).bind fun negated ↦ addSigned lhs negated

def mulSigned (lhs rhs : ℤ) : Option (Option ℤ) :=
  if lhs = 0 ∨ rhs = 0 then some (some 0)
  else if lhs = -1 ∧ rhs = int64Min then some none
  else if rhs = -1 ∧ lhs = int64Min then some none
  else
    refuse (both (lhs > 0 ∧ rhs > 0)
      ((int64.div int64Max rhs).map fun bound ↦ decide (lhs > bound))) <|
    refuse (both (lhs < 0 ∧ rhs < 0)
      ((int64.div int64Max rhs).map fun bound ↦ decide (lhs < bound))) <|
    refuse (both (lhs > 0 ∧ rhs < 0)
      ((int64.div int64Min lhs).map fun bound ↦ decide (rhs < bound))) <|
    refuse (both (lhs < 0 ∧ rhs > 0)
      ((int64.div int64Min rhs).map fun bound ↦ decide (lhs < bound))) <|
    (int64.mul lhs rhs).map some

def addUnsigned (lhs rhs : ℤ) : Option (Option ℤ) :=
  refuse ((uint64.sub uint64Max rhs).map fun bound ↦ decide (lhs > bound))
    ((uint64.add lhs rhs).map some)

def mulUnsigned (lhs rhs : ℤ) : Option (Option ℤ) :=
  refuse (both (lhs ≠ 0) ((uint64.div uint64Max lhs).map fun bound ↦ decide (rhs > bound)))
    ((uint64.mul lhs rhs).map some)

theorem refuse_eq {condition : Prop} [Decidable condition] {computed : Option Bool}
    {rest : Option (Option ℤ)} (h : computed = some (decide condition)) :
    refuse computed rest = if condition then some none else rest := by
  rw [refuse, h, Option.bind_some]
  by_cases hcondition : condition
  · simp [hcondition]
  · simp [hcondition]

end Trapping

/-! ## Sums and differences -/

variable {lhs rhs : ℤ}

/-- A sum is stored when it fits. -/
theorem addSigned_eq_ite (hlhs : int64.Has lhs) :
    addSigned lhs rhs = if int64.Has (lhs + rhs) then some (lhs + rhs) else none := by
  rw [int64_has] at hlhs
  rw [addSigned]
  by_cases hfits : int64.Has (lhs + rhs)
  · rw [if_pos hfits, if_neg]
    rw [int64_has] at hfits
    omega
  · rw [if_neg hfits, if_pos]
    rw [int64_has] at hfits
    omega

/-- A difference is stored when it fits and the subtrahend has an opposite. -/
theorem subtractSigned_eq_ite (hlhs : int64.Has lhs) :
    subtractSigned lhs rhs
      = if rhs ≠ int64Min ∧ int64.Has (lhs - rhs) then some (lhs - rhs) else none := by
  rw [subtractSigned]
  by_cases hmin : rhs = int64Min
  · rw [if_pos hmin, if_neg (fun h ↦ h.1 hmin)]
  · rw [if_neg hmin, addSigned_eq_ite hlhs, ← sub_eq_add_neg]
    simp [hmin]

theorem addSigned_of_has (hlhs : int64.Has lhs) (h : int64.Has (lhs + rhs)) :
    addSigned lhs rhs = some (lhs + rhs) := by
  rw [addSigned_eq_ite hlhs, if_pos h]

theorem subtractSigned_of_has (hlhs : int64.Has lhs) (hmin : rhs ≠ int64Min)
    (h : int64.Has (lhs - rhs)) : subtractSigned lhs rhs = some (lhs - rhs) := by
  rw [subtractSigned_eq_ite hlhs, if_pos ⟨hmin, h⟩]

theorem toSigned_of_le {value : ℕ} (h : (value : ℤ) ≤ int64Max) :
    toSigned value = some (value : ℤ) := by
  rw [toSigned, if_neg (not_lt.mpr h)]

theorem Trapping.addSigned_eq (hlhs : int64.Has lhs) (hrhs : int64.Has rhs) :
    Trapping.addSigned lhs rhs = some (PredicatedMesh.addSigned lhs rhs) := by
  have hpositive : rhs > 0 →
      ((int64.sub int64Max rhs).map fun bound ↦ decide (lhs > bound))
        = some (decide (lhs > int64Max - rhs)) := by
    intro hsign
    have hbound : int64.Has (int64Max - rhs) := by
      rw [int64_has, int64Min, int64Max] at *
      omega
    rw [Bounds.sub_of_has hbound, Option.map_some]
  have hnegative : rhs < 0 →
      ((int64.sub int64Min rhs).map fun bound ↦ decide (lhs < bound))
        = some (decide (lhs < int64Min - rhs)) := by
    intro hsign
    have hbound : int64.Has (int64Min - rhs) := by
      rw [int64_has, int64Min, int64Max] at *
      omega
    rw [Bounds.sub_of_has hbound, Option.map_some]
  rw [Trapping.addSigned,
    refuse_eq (either_eq_some (both_eq_some hpositive) (both_eq_some hnegative)),
    PredicatedMesh.addSigned]
  split
  · rfl
  · rename_i hfits
    have hsum : int64.Has (lhs + rhs) := by
      rw [int64_has] at *
      omega
    rw [Bounds.add_of_has hsum, Option.map_some]

theorem Trapping.subtractSigned_eq (hlhs : int64.Has lhs) (hrhs : int64.Has rhs) :
    Trapping.subtractSigned lhs rhs = some (PredicatedMesh.subtractSigned lhs rhs) := by
  rw [Trapping.subtractSigned, PredicatedMesh.subtractSigned]
  by_cases hmin : rhs = int64Min
  · rw [if_pos hmin, if_pos hmin]
  · have hneg : int64.Has (-rhs) := by
      rw [int64_has] at hrhs ⊢
      rw [int64Min, int64Max] at *
      omega
    rw [if_neg hmin, if_neg hmin, Bounds.neg_of_has hneg, Option.bind_some,
      Trapping.addSigned_eq hlhs hneg]

/-! ## Products -/

/-- The tests of a product, by the signs of its factors, are one: the product does not fit. -/
theorem mulSigned_tests (hlhs : lhs ≠ 0) (hrhs : rhs ≠ 0) :
    (lhs > 0 ∧ rhs > 0 ∧ lhs > int64Max.tdiv rhs) ∨ (lhs < 0 ∧ rhs < 0 ∧ lhs < int64Max.tdiv rhs) ∨
      (lhs > 0 ∧ rhs < 0 ∧ rhs < int64Min.tdiv lhs) ∨
      (lhs < 0 ∧ rhs > 0 ∧ lhs < int64Min.tdiv rhs) ↔
      ¬ int64.Has (lhs * rhs) := by
  have hmax : (0 : ℤ) ≤ int64Max := by decide
  have hmin : int64Min ≤ (0 : ℤ) := by decide
  rw [int64_has]
  rcases lt_or_gt_of_ne hlhs with hl | hl
  · rcases lt_or_gt_of_ne hrhs with hr | hr
    · have hpositive : 0 < lhs * rhs := mul_pos_of_neg_of_neg hl hr
      rw [lt_tdiv_neg_iff hmax hr]
      omega
    · have hnegative : lhs * rhs < 0 := mul_neg_of_neg_of_pos hl hr
      rw [lt_neg_tdiv_iff hmin hr]
      omega
  · rcases lt_or_gt_of_ne hrhs with hr | hr
    · have hnegative : lhs * rhs < 0 := mul_neg_of_pos_of_neg hl hr
      rw [lt_neg_tdiv_iff hmin hl, mul_comm rhs]
      omega
    · have hpositive : 0 < lhs * rhs := mul_pos hl hr
      rw [gt_iff_lt, gt_iff_lt, gt_iff_lt, tdiv_lt_iff hmax hr]
      omega

/-- A product is stored when it fits. -/
theorem mulSigned_eq_ite :
    mulSigned lhs rhs = if int64.Has (lhs * rhs) then some (lhs * rhs) else none := by
  rw [mulSigned]
  by_cases hzero : lhs = 0 ∨ rhs = 0
  · have hproduct : lhs * rhs = 0 := mul_eq_zero.mpr hzero
    have hfits : int64.Has 0 := by decide
    rw [if_pos hzero, hproduct, if_pos hfits]
  · rw [if_neg hzero]
    rw [not_or] at hzero
    have htests := mulSigned_tests hzero.1 hzero.2
    by_cases hfits : int64.Has (lhs * rhs)
    · have hnone := mt htests.mp (not_not.mpr hfits)
      rw [not_or, not_or, not_or] at hnone
      obtain ⟨hpp, hnn, hpn, hnp⟩ := hnone
      have hleft : ¬ (lhs = -1 ∧ rhs = int64Min) := by
        rintro ⟨rfl, rfl⟩
        exact absurd hfits (by decide)
      have hright : ¬ (rhs = -1 ∧ lhs = int64Min) := by
        rintro ⟨rfl, rfl⟩
        exact absurd hfits (by decide)
      rw [if_neg hleft, if_neg hright, if_neg hpp, if_neg hnn, if_neg hpn, if_neg hnp, if_pos hfits]
    · rw [if_neg hfits]
      split_ifs with hleft hright hpp hnn hpn hnp
      all_goals try rfl
      rcases htests.mpr hfits with h | h | h | h
      · exact absurd h hpp
      · exact absurd h hnn
      · exact absurd h hpn
      · exact absurd h hnp

theorem mulSigned_of_has (h : int64.Has (lhs * rhs)) : mulSigned lhs rhs = some (lhs * rhs) := by
  rw [mulSigned_eq_ite, if_pos h]

theorem Trapping.mulSigned_eq (lhs rhs : ℤ) :
    Trapping.mulSigned lhs rhs = some (PredicatedMesh.mulSigned lhs rhs) := by
  have hmax : int64.Has int64Max := by decide
  have hmaxNeg : int64.Has (-int64Max) := by decide
  have hmin : int64.Has int64Min := by decide
  have hpp : lhs > 0 ∧ rhs > 0 →
      ((int64.div int64Max rhs).map fun bound ↦ decide (lhs > bound))
        = some (decide (lhs > int64Max.tdiv rhs)) := by
    intro hsign
    rw [Bounds.div_of_pos hmax hsign.2, Option.map_some]
  have hnn : lhs < 0 ∧ rhs < 0 →
      ((int64.div int64Max rhs).map fun bound ↦ decide (lhs < bound))
        = some (decide (lhs < int64Max.tdiv rhs)) := by
    intro hsign
    rw [Bounds.div_of_neg hmaxNeg hsign.2, Option.map_some]
  have hpn : lhs > 0 ∧ rhs < 0 →
      ((int64.div int64Min lhs).map fun bound ↦ decide (rhs < bound))
        = some (decide (rhs < int64Min.tdiv lhs)) := by
    intro hsign
    rw [Bounds.div_of_pos hmin hsign.1, Option.map_some]
  have hnp : lhs < 0 ∧ rhs > 0 →
      ((int64.div int64Min rhs).map fun bound ↦ decide (lhs < bound))
        = some (decide (lhs < int64Min.tdiv rhs)) := by
    intro hsign
    rw [Bounds.div_of_pos hmin hsign.2, Option.map_some]
  rw [Trapping.mulSigned, refuse_eq (both_eq_some hpp), refuse_eq (both_eq_some hnn),
    refuse_eq (both_eq_some hpn), refuse_eq (both_eq_some hnp), PredicatedMesh.mulSigned]
  simp only [and_assoc]
  split_ifs with hzero hleft hright hpp hnn hpn hnp
  all_goals try rfl
  rw [not_or] at hzero
  have hfits : int64.Has (lhs * rhs) := by
    by_contra hno
    rcases (mulSigned_tests hzero.1 hzero.2).mpr hno with h | h | h | h
    · exact absurd h hpp
    · exact absurd h hnn
    · exact absurd h hpn
    · exact absurd h hnp
  rw [Bounds.mul_of_has hfits, Option.map_some]

/-! ## Unsigned time -/

theorem addUnsigned_eq_ite {lhs rhs : ℕ} (hrhs : rhs ≤ uint64Max) :
    addUnsigned lhs rhs = if lhs + rhs ≤ uint64Max then some (lhs + rhs) else none := by
  rw [addUnsigned]
  by_cases hfits : lhs + rhs ≤ uint64Max
  · rw [if_pos hfits, if_neg (by omega)]
  · rw [if_neg hfits, if_pos (by omega)]

theorem mulUnsigned_test {lhs rhs : ℕ} :
    (lhs ≠ 0 ∧ rhs > uint64Max / lhs) ↔ ¬ lhs * rhs ≤ uint64Max := by
  rcases Nat.eq_zero_or_pos lhs with rfl | hpos
  · simp
  · rw [gt_iff_lt, Nat.div_lt_iff_lt_mul hpos, mul_comm rhs, not_le]
    exact and_iff_right hpos.ne'

theorem mulUnsigned_eq_ite {lhs rhs : ℕ} :
    mulUnsigned lhs rhs = if lhs * rhs ≤ uint64Max then some (lhs * rhs) else none := by
  rw [mulUnsigned]
  by_cases hfits : lhs * rhs ≤ uint64Max
  · rw [if_pos hfits, if_neg (fun h ↦ mulUnsigned_test.mp h hfits)]
  · rw [if_neg hfits, if_pos (mulUnsigned_test.mpr hfits)]

theorem addUnsigned_of_le {lhs rhs : ℕ} (h : lhs + rhs ≤ uint64Max) :
    addUnsigned lhs rhs = some (lhs + rhs) := by
  rw [addUnsigned_eq_ite (by omega), if_pos h]

theorem mulUnsigned_of_le {lhs rhs : ℕ} (h : lhs * rhs ≤ uint64Max) :
    mulUnsigned lhs rhs = some (lhs * rhs) := by
  rw [mulUnsigned_eq_ite, if_pos h]

theorem Trapping.addUnsigned_eq {lhs rhs : ℕ} (hrhs : rhs ≤ uint64Max) :
    Trapping.addUnsigned lhs rhs
      = some ((PredicatedMesh.addUnsigned lhs rhs).map fun r : ℕ ↦ (r : ℤ)) := by
  have hbound : uint64.Has (uint64Max - rhs) := by
    rw [uint64_has]
    omega
  have hcondition : ((uint64.sub uint64Max rhs).map fun bound ↦ decide ((lhs : ℤ) > bound))
      = some (decide ((lhs : ℤ) > uint64Max - rhs)) := by
    rw [Bounds.sub_of_has hbound, Option.map_some]
  rw [Trapping.addUnsigned, refuse_eq hcondition, PredicatedMesh.addUnsigned]
  by_cases htest : lhs > uint64Max - rhs
  · rw [if_pos htest, if_pos (by omega)]
    rfl
  · have hsum : uint64.Has ((lhs : ℤ) + rhs) := by
      rw [uint64_has]
      omega
    rw [if_neg htest, if_neg (by omega), Bounds.add_of_has hsum]
    simp

theorem Trapping.mulUnsigned_eq (lhs rhs : ℕ) :
    Trapping.mulUnsigned lhs rhs
      = some ((PredicatedMesh.mulUnsigned lhs rhs).map fun r : ℕ ↦ (r : ℤ)) := by
  have hmax : uint64.Has (uint64Max : ℤ) := by decide
  have hcondition : (lhs : ℤ) ≠ 0 →
      ((uint64.div uint64Max lhs).map fun bound ↦ decide ((rhs : ℤ) > bound))
        = some (decide ((rhs : ℤ) > (uint64Max : ℤ).tdiv lhs)) := by
    intro hne
    rw [Bounds.div_of_pos hmax (by omega), Option.map_some]
  have htests : ((lhs : ℤ) ≠ 0 ∧ (rhs : ℤ) > (uint64Max : ℤ).tdiv lhs)
      ↔ (lhs ≠ 0 ∧ rhs > uint64Max / lhs) := by
    rw [← Int.ofNat_tdiv]
    omega
  rw [Trapping.mulUnsigned, refuse_eq (both_eq_some hcondition), PredicatedMesh.mulUnsigned]
  by_cases htest : lhs ≠ 0 ∧ rhs > uint64Max / lhs
  · rw [if_pos htest, if_pos (htests.mpr htest)]
    rfl
  · have hfits : lhs * rhs ≤ uint64Max := not_not.mp (mt mulUnsigned_test.mpr htest)
    have hproduct : uint64.Has ((lhs : ℤ) * rhs) := by
      rw [uint64_has]
      exact ⟨by positivity, by exact_mod_cast hfits⟩
    rw [if_neg htest, if_neg (mt htests.mp htest), Bounds.mul_of_has hproduct]
    simp

/-! ## Exactness -/

/-- **Checked time is exact.** No operation traps, and each stores its exact result when that fits
and refuses it when it does not, except that a difference is also refused for the least subtrahend.
-/
theorem checked_time_exact {a b : ℤ} (ha : int64.Has a) (hb : int64.Has b) {u v : ℕ}
    (hv : v ≤ uint64Max) :
    (Trapping.addSigned a b = some (addSigned a b) ∧
      addSigned a b = if int64.Has (a + b) then some (a + b) else none) ∧
    (Trapping.subtractSigned a b = some (subtractSigned a b) ∧
      subtractSigned a b
        = if b ≠ int64Min ∧ int64.Has (a - b) then some (a - b) else none) ∧
    (Trapping.mulSigned a b = some (mulSigned a b) ∧
      mulSigned a b = if int64.Has (a * b) then some (a * b) else none) ∧
    (Trapping.addUnsigned u v = some ((addUnsigned u v).map fun r : ℕ ↦ (r : ℤ)) ∧
      addUnsigned u v = if uint64.Has (u + v) then some (u + v) else none) ∧
    (Trapping.mulUnsigned u v = some ((mulUnsigned u v).map fun r : ℕ ↦ (r : ℤ)) ∧
      mulUnsigned u v = if uint64.Has (u * v) then some (u * v) else none) := by
  have hsum : uint64.Has ((u : ℤ) + v) ↔ u + v ≤ uint64Max := by
    rw [uint64_has]
    omega
  have hproduct : uint64.Has ((u : ℤ) * v) ↔ u * v ≤ uint64Max := by
    rw [uint64_has, ← Nat.cast_mul]
    omega
  refine ⟨⟨Trapping.addSigned_eq ha hb, addSigned_eq_ite ha⟩,
    ⟨Trapping.subtractSigned_eq ha hb, subtractSigned_eq_ite ha⟩,
    ⟨Trapping.mulSigned_eq a b, mulSigned_eq_ite⟩, ⟨Trapping.addUnsigned_eq hv, ?_⟩,
    ⟨Trapping.mulUnsigned_eq u v, ?_⟩⟩
  · simp only [hsum]
    exact addUnsigned_eq_ite hv
  · simp only [hproduct]
    exact mulUnsigned_eq_ite

/-- The least time minus itself is refused, and so is its square; the greatest unsigned time plus
zero is not. -/
theorem least_time_checked :
    subtractSigned int64Min int64Min = none ∧ mulSigned int64Min int64Min = none ∧
      addUnsigned uint64Max 0 = some uint64Max := by
  have hmin : int64.Has int64Min := by decide
  obtain ⟨-, ⟨-, hsub⟩, ⟨-, hmul⟩, ⟨-, hadd⟩, -⟩ :=
    checked_time_exact hmin hmin (u := uint64Max) (Nat.zero_le uint64Max)
  refine ⟨hsub.trans (by decide), hmul.trans (by decide), hadd.trans (by decide)⟩

/-- The difference of minus one and the least time is the greatest time, and is refused. -/
theorem difference_refused :
    int64.Has (-1) ∧ int64.Has int64Min ∧ int64.Has (-1 - int64Min) ∧
      Trapping.subtractSigned (-1) int64Min = some none := by
  decide

end PredicatedMesh
