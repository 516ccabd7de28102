import PredicatedMesh.Frontend.MemoryAnalysis
import PredicatedMesh.Library.Scan

/-!
# Address lowering

A `getelementptr` of the loop becomes an addition of the object it is based on and of its offset in
words, with a multiplication for the scale and an addition for the constant part where there is a
dynamic index. Any other pointer operand is bound to the object it is based on, as an external
value. The rest of the loop body, and what may make it fail, is left out.

The lowering leaves out the instructions that only serve the exit condition. A value it has left out
is bound like one that comes from outside the loop.
-/

namespace PredicatedMesh.Frontend

/-! ## The state of the lowering -/

/-- What the passes before have found out about the instructions of the loop. -/
structure IfLoweringState where
  terminationSlice : ℕ → Bool
  predicateSlice : ℕ → Bool
  recurrenceBackedges : ℕ → Bool
  /-- The PHIs of the loop, and those that have become a recurrence or a select. -/
  phis : ℕ → Bool
  recurrences : ℕ → Bool
  selects : ℕ → Bool

namespace IfLoweringState

variable (state : IfLoweringState)

/-- The instructions of the exit condition that nothing else needs. -/
def shouldSkip (instruction : ℕ) : Bool :=
  state.terminationSlice instruction && !state.recurrenceBackedges instruction
    && !state.predicateSlice instruction

end IfLoweringState

inductive LLVMFrontendStatus
  | unsupportedNonAffineAddress
  | unsafeSpeculation
  deriving DecidableEq, Repr

/-- A rejection by the lowering, by the verifier of the finished graph, or an exception. -/
inductive LoweringFailure
  | failure (status : LLVMFrontendStatus) (message : String)
  | invalidGenericDFG
  | outOfRange
  deriving DecidableEq, Repr

/-! ## Address nodes -/

/-- What an operand is bound to, down to the values the address nodes take in. -/
inductive AddressTerm
  /-- An external value for an object. -/
  | object (root : PointerRoot)
  /-- An external value for a scalar. -/
  | external (value : Scalar)
  /-- The node or the recurrence of a scalar of the loop. -/
  | computed (value : Scalar)
  | constant (bits : BitVec 32)
  | add (lhs rhs : AddressTerm)
  | mul (lhs rhs : AddressTerm)
  deriving DecidableEq, Repr

def addressConstant (value : ℤ) : AddressTerm := .constant (BitVec.ofInt 32 value)

def Scalar.bitWidth : Scalar → ℕ
  | .constantInt bitWidth _ => bitWidth
  | .invariant _ bitWidth => bitWidth
  | .instruction _ bitWidth => bitWidth

/-- The provider of a scalar operand of an address node. A PHI that is no recurrence has none, and a
value of another width does not fit the operand; the graph is then not a valid one. -/
def provider (state : IfLoweringState) (value : Scalar) : Except LoweringFailure AddressTerm :=
  if value.bitWidth ≠ 32 then .error .invalidGenericDFG
  else
    match value with
    | .constantInt _ bits => .ok (.constant (BitVec.ofNat 32 bits))
    | .invariant .. => .ok (.external value)
    | .instruction id _ =>
      if state.phis id then
        if state.selects id || state.recurrences id then .ok (.computed value)
        else .error .invalidGenericDFG
      else if state.shouldSkip id then .ok (.external value)
      else .ok (.computed value)

/-- The address nodes of a `getelementptr`, as its access describes it. -/
def gepAddress (state : IfLoweringState) (access : LLVMMemoryAccessDescriptor) :
    Except LoweringFailure AddressTerm :=
  match access.dynamicIndex with
  | none => .ok (.add (.object access.base) (addressConstant access.gepConstantOffsetWords))
  | some index => do
    let dynamicProvider ← provider state index
    let scaledIndex :=
      if access.dynamicScaleWords ≠ 1 then
        .mul dynamicProvider (addressConstant access.dynamicScaleWords)
      else dynamicProvider
    let offsetIndex :=
      if access.gepConstantOffsetWords ≠ 0 then
        .add scaledIndex (addressConstant access.gepConstantOffsetWords)
      else scaledIndex
    return .add (.object access.base) offsetIndex

/-! ## The loop body -/

/-- The pointer operations and the memory instructions of the loop, in the order of its blocks. -/
structure LoopBody where
  state : IfLoweringState
  pointers : List Pointer
  instructions : List MemoryInstruction

/-- A pointer operation of the loop. A `getelementptr` has to be the address of an access. -/
def lowerPointer (state : IfLoweringState) (accesses : List LLVMMemoryAccessDescriptor)
    (pointer : Pointer) : Except LoweringFailure (List (Pointer × AddressTerm)) :=
  match pointer with
  | .gep (.inLoop id) .. =>
    if state.shouldSkip id then .ok []
    else
      match accesses.find? fun item ↦ item.address == pointer with
      | none => .error (.failure .unsupportedNonAffineAddress
          "GEP is not the address of a supported memory operation")
      | some access => do
        let address ← gepAddress state access
        return [(pointer, address)]
  | .cast (.inLoop id) _ =>
    if state.shouldSkip id then .ok []
    else .error (.failure .unsafeSpeculation "branch-local instruction is not safe to speculate")
  | _ => .ok []

/-- The provider of a pointer operand: its address nodes, or the object it is based on. -/
def pointerProvider (analyses : LLVMAnalyses) (nodes : List (Pointer × AddressTerm))
    (value : Pointer) : AddressTerm :=
  match nodes.lookup value with
  | some address => address
  | none => .object (analyses.getUnderlyingObject value)

/-- The addresses of the accesses, in their order. A load that has been left out has no node, and
looking it up is an exception. -/
def lowerAddresses (analyses : LLVMAnalyses) (body : LoopBody)
    (accesses : List LLVMMemoryAccessDescriptor) : Except LoweringFailure (List AddressTerm) := do
  let nodes ← body.pointers.mapM (lowerPointer body.state accesses)
  if body.instructions.any fun instruction ↦
      instruction.kind == .load && body.state.shouldSkip instruction.id then
    .error .outOfRange
  else
    return accesses.map fun access ↦ pointerProvider analyses nodes.flatten access.address

end PredicatedMesh.Frontend
