import Mathlib.Tactic

/-!
# Values and dependences

The vocabulary the generic and the target dataflow graphs share: value types, the values that
enter a graph from outside, and the three kinds of dependence. A data or predicate dependence
delivers a value to one operand and, when it is loop-carried, says where the first iterations take
it from; a memory dependence only orders two accesses.
-/

namespace PredicatedMesh

/-! ## Value types -/

/-- The kinds of value an operation can produce. -/
inductive ValueKind
  | integer
  | predicate
  | float
  | void
  deriving DecidableEq, Repr

/-- A value kind with its width. -/
structure ValueType where
  /-- The kind. -/
  kind : ValueKind
  /-- The width in bits, zero for `void`. -/
  bitWidth : ℕ
  deriving DecidableEq, Repr

namespace ValueType

def integer (bits : ℕ) : ValueType := ⟨.integer, bits⟩

def predicate : ValueType := ⟨.predicate, 1⟩

def voidTy : ValueType := ⟨.void, 0⟩

def toString (type : ValueType) : String :=
  match type.kind with
  | .void => "void"
  | .predicate => "predicate"
  | .integer => "i" ++ ToString.toString type.bitWidth
  | .float => "f" ++ ToString.toString type.bitWidth

end ValueType

/-! ## Values from outside the graph -/

structure ExternalValue where
  id : ℕ
  type : ValueType
  name : String
  deriving DecidableEq, Repr

structure ConstantValue where
  id : ℕ
  type : ValueType
  bits : ℕ
  deriving DecidableEq, Repr

/-- An operand provider that is not a node. -/
inductive ExternalOperandBinding
  | externalValueRef (value : ℕ)
  | constantRef (value : ℕ)
  deriving DecidableEq, Repr

/-! ## Dependences -/

/-- The value a loop-carried edge delivers in place of a producer that never ran. -/
structure RecurrenceBoundaryValue where
  /-- The consumer iteration the value is for. -/
  iterationOffset : ℕ
  value : ExternalOperandBinding
  deriving DecidableEq, Repr

structure RecurrenceBoundary where
  values : List RecurrenceBoundaryValue
  deriving DecidableEq, Repr

inductive MemoryDepKind
  | raw
  | war
  | waw
  deriving DecidableEq, Repr

inductive EdgeKind
  | data
  | predicate
  | memory
  deriving DecidableEq, Repr

/-- What an edge carries. -/
inductive EdgeInfo
  | data (dstOperand : ℕ) (boundary : Option RecurrenceBoundary)
  | predicate (dstOperand : ℕ) (boundary : Option RecurrenceBoundary)
  | memory (dependence : MemoryDepKind)
  deriving DecidableEq, Repr

namespace EdgeInfo

def kind : EdgeInfo → EdgeKind
  | .data _ _ => .data
  | .predicate _ _ => .predicate
  | .memory _ => .memory

/-- The operand a value dependence feeds. -/
def dstOperand : EdgeInfo → Option ℕ
  | .data operand _ => some operand
  | .predicate operand _ => some operand
  | .memory _ => none

def boundary : EdgeInfo → Option RecurrenceBoundary
  | .data _ boundary => boundary
  | .predicate _ boundary => boundary
  | .memory _ => none

end EdgeInfo

end PredicatedMesh
