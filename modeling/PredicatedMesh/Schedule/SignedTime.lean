import PredicatedMesh.Schedule.Staged

/-!
# Signed 64-bit time

A materialized schedule counts cycles and iterations with signed 64-bit integers, because the values
of a recurrence enter before iteration zero. Every operation tests its operands first, in the terms
of the source, and is only carried out when the test says that the result fits. Division in the
tests truncates toward zero.
-/

namespace PredicatedMesh

def int64Max : ℤ := 2 ^ 63 - 1

def int64Min : ℤ := -2 ^ 63

def addSigned (lhs rhs : ℤ) : Option ℤ :=
  if (rhs > 0 ∧ lhs > int64Max - rhs) ∨ (rhs < 0 ∧ lhs < int64Min - rhs) then none
  else some (lhs + rhs)

def subtractSigned (lhs rhs : ℤ) : Option ℤ :=
  if rhs = int64Min then none else addSigned lhs (-rhs)

def mulSigned (lhs rhs : ℤ) : Option ℤ :=
  if lhs = 0 ∨ rhs = 0 then some 0
  else if lhs = -1 ∧ rhs = int64Min then none
  else if rhs = -1 ∧ lhs = int64Min then none
  else if lhs > 0 ∧ rhs > 0 ∧ lhs > int64Max.tdiv rhs then none
  else if lhs < 0 ∧ rhs < 0 ∧ lhs < int64Max.tdiv rhs then none
  else if lhs > 0 ∧ rhs < 0 ∧ rhs < int64Min.tdiv lhs then none
  else if lhs < 0 ∧ rhs > 0 ∧ lhs < int64Min.tdiv rhs then none
  else some (lhs * rhs)

def addUnsigned (lhs rhs : ℕ) : Option ℕ :=
  if lhs > uint64Max - rhs then none else some (lhs + rhs)

def mulUnsigned (lhs rhs : ℕ) : Option ℕ :=
  if lhs ≠ 0 ∧ rhs > uint64Max / lhs then none else some (lhs * rhs)

/-- The difference of two unsigned integers, which wraps. -/
def subtractUnsigned (lhs rhs : ℕ) : ℕ := (lhs + 2 ^ 64 - rhs) % 2 ^ 64

/-- An unsigned integer as a signed one, if it fits. -/
def toSigned (value : ℕ) : Option ℤ := if (value : ℤ) > int64Max then none else some value

/-! ## What a result is -/

theorem addSigned_eq_some {lhs rhs r : ℤ} (h : addSigned lhs rhs = some r) : r = lhs + rhs := by
  rw [addSigned] at h
  split at h
  · cases h
  · exact (Option.some.inj h).symm

theorem subtractSigned_eq_some {lhs rhs r : ℤ} (h : subtractSigned lhs rhs = some r) :
    r = lhs - rhs := by
  rw [subtractSigned] at h
  split at h
  · cases h
  · rw [addSigned_eq_some h, sub_eq_add_neg]

theorem mulSigned_eq_some {lhs rhs r : ℤ} (h : mulSigned lhs rhs = some r) : r = lhs * rhs := by
  rw [mulSigned] at h
  split at h
  · rename_i hzero
    rw [← Option.some.inj h, eq_comm, mul_eq_zero]
    exact hzero
  · split_ifs at h
    exact (Option.some.inj h).symm

theorem addUnsigned_eq_some {lhs rhs r : ℕ} (h : addUnsigned lhs rhs = some r) :
    r = lhs + rhs := by
  rw [addUnsigned] at h
  split at h
  · cases h
  · exact (Option.some.inj h).symm

theorem mulUnsigned_eq_some {lhs rhs r : ℕ} (h : mulUnsigned lhs rhs = some r) :
    r = lhs * rhs := by
  rw [mulUnsigned] at h
  split at h
  · cases h
  · exact (Option.some.inj h).symm

theorem toSigned_eq_some {value : ℕ} {r : ℤ} (h : toSigned value = some r) : r = value := by
  rw [toSigned] at h
  split at h
  · cases h
  · exact (Option.some.inj h).symm

end PredicatedMesh
