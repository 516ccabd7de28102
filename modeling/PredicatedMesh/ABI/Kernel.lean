import PredicatedMesh.IR.DFGBuilder

/-!
# Kernels and their invocations

Every external value of a graph is a scalar input of the kernel and every live-out one of its
outputs. An invocation gives each input a bit pattern, says how often the loop runs, and what the
scratchpad holds before. Binding a kernel to an invocation turns the inputs into constants and the
live-outs into words at the top of the scratchpad; the layout records which.
-/

namespace PredicatedMesh

/-! ## Signatures -/

structure KernelInputDesc where
  id : ℕ
  name : String
  type : ValueType
  deriving DecidableEq, Repr

structure KernelOutputDesc where
  id : ℕ
  name : String
  type : ValueType
  source : ℕ
  deriving DecidableEq, Repr

structure KernelSignature where
  kernelName : String
  scalarInputs : List KernelInputDesc
  scalarOutputs : List KernelOutputDesc
  requiresTripCount : Bool := true
  deriving DecidableEq, Repr

def inferSignature (dfg : DFG) : KernelSignature where
  kernelName := dfg.name
  scalarInputs := dfg.externalValues.map fun value ↦ ⟨value.id, value.name, value.type⟩
  scalarOutputs := dfg.liveOuts.map fun value ↦ ⟨value.id, value.name, value.type, value.source⟩

/-! ## Invocations -/

structure KernelScalarInputValue where
  id : ℕ
  bits : ℕ
  deriving DecidableEq, Repr

structure KernelInvocation where
  tripCount : ℕ
  scalarInputs : List KernelScalarInputValue
  /-- Addresses with the words they hold before the loop. -/
  scratchpadPreload : List (ℕ × ℕ)
  deriving DecidableEq, Repr

/-- One scalar input, after those whose ids have been seen. -/
def validateInput (signature : KernelSignature) (scalarWidthBits : ℕ) (seen : List ℕ)
    (input : KernelScalarInputValue) : Except String (List ℕ) :=
  if seen.contains input.id then .error "ABI_DUPLICATE_INPUT: duplicate scalar input"
  else
    match signature.scalarInputs.find? fun desc ↦ desc.id == input.id with
    | none => .error "ABI_UNKNOWN_INPUT: scalar input is not in the kernel signature"
    | some desc =>
      if desc.type.bitWidth < 64 ∧ input.bits >>> desc.type.bitWidth ≠ 0 then
        .error "ABI_INPUT_TYPE_MISMATCH: scalar value does not fit its declared width"
      else if desc.type.kind ≠ .integer ∧ desc.type.kind ≠ .predicate then
        .error "ABI_UNSUPPORTED_INPUT_TYPE: only integer and predicate inputs are supported"
      else if desc.type.kind = .integer ∧ desc.type.bitWidth ≠ scalarWidthBits then
        .error "ABI_UNSUPPORTED_INPUT_TYPE: scalar width does not match target data width"
      else if desc.type.kind = .predicate ∧ input.bits > 1 then
        .error "ABI_INPUT_TYPE_MISMATCH: predicate input must be zero or one"
      else .ok (input.id :: seen)

/-- One word of the preload, after those whose addresses have been seen. -/
def validatePreload (invocation : KernelInvocation) (scratchpadDepth : ℕ) (seen : List ℕ)
    (item : ℕ × ℕ) : Except String (List ℕ) :=
  if item.1 ≥ scratchpadDepth then
    .error "ABI_SCRATCHPAD_ADDRESS_OUT_OF_RANGE: preload address exceeds target SPM"
  else if seen.contains item.1 then
    if invocation.scratchpadPreload.any fun other ↦ other.1 == item.1 && other.2 != item.2 then
      .error "ABI_DUPLICATE_PRELOAD: address has conflicting values"
    else .ok seen
  else .ok (item.1 :: seen)

def validateInvocation (signature : KernelSignature) (invocation : KernelInvocation)
    (scratchpadDepth scalarWidthBits : ℕ) : Except String Unit := do
  if invocation.tripCount = 0 then
    .error "ABI_INVALID_TRIP_COUNT: trip count must be positive"
  let seen ← invocation.scalarInputs.foldlM (validateInput signature scalarWidthBits) []
  if seen.length ≠ signature.scalarInputs.length then
    .error "ABI_MISSING_INPUT: invocation does not bind every scalar input"
  let _ ← invocation.scratchpadPreload.foldlM (validatePreload invocation scratchpadDepth) []

/-! ## Layouts -/

structure KernelInputBinding where
  input : ℕ
  specializedConstant : ℕ
  deriving DecidableEq, Repr

structure KernelOutputBinding where
  output : ℕ
  scratchpadAddress : ℕ
  abiStoreNode : ℕ
  addressConstant : ℕ
  deriving DecidableEq, Repr

structure KernelABILayout where
  scratchpadDepth : ℕ
  userScratchpadLimit : ℕ
  outputRegionBase : ℕ
  inputs : List KernelInputBinding
  outputs : List KernelOutputBinding
  deriving DecidableEq, Repr

structure ABIBoundKernel where
  dfg : SourcedDFG
  signature : KernelSignature
  invocation : KernelInvocation
  layout : KernelABILayout
  deriving DecidableEq, Repr

/-- The stores that the binder adds are known by their labels. -/
def isABIOutputStore (source : Option SourceInfo) : Bool :=
  source.any fun info ↦ "abi.liveout.".toList.isPrefixOf info.label.toList

/-- The constant an address operand is bound to, where it is bound to one. -/
def DFG.constantAddress (dfg : DFG) (node : ℕ) : Option ℕ :=
  match dfg.externalBindings.find? fun item ↦ item.node == node && item.operand == 0 with
  | some ⟨_, _, .constantRef value⟩ => some value
  | _ => none

/-- A load or a store of the kernel itself. -/
def isUserAccess (entry : Node × Option SourceInfo) : Bool :=
  (entry.1.opcode == .load || entry.1.opcode == .store) && entry.1.memoryInfo.isSome
    && !isABIOutputStore entry.2

end PredicatedMesh
