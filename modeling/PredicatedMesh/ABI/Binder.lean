import PredicatedMesh.ABI.Verifier

/-!
# Binding a kernel to an invocation

`KernelABIBinder.bind` copies a graph through a builder. Every external value gets a constant with
the bits the invocation has for it, behind the constants of the graph, and every use of the value,
as an operand or as a boundary value, becomes a use of the constant. Every live-out gets a store to
a word of its own at the top of the scratchpad, in the order of the live-outs' ids, and a dependence
of that store on itself one iteration later.

The ids of the new constants and nodes are 32-bit numbers that follow the largest id in use.
-/

namespace PredicatedMesh

/-! ## Failures -/

inductive KernelABIBindingStatus
  | success
  | invalidSourceDFG
  | invalidInvocation
  | unsupportedInputType
  | unsupportedLiveOutType
  | scratchpadABIRegionConflict
  | scratchpadABICapacityExceeded
  | bindingFailure
  | verificationFailure
  deriving DecidableEq, Repr

/-- A failed binding with its one diagnostic. -/
structure KernelABIBindingFailure where
  status : KernelABIBindingStatus
  code : String
  message : String
  deriving DecidableEq, Repr

namespace KernelABIBinder

/-- An exception on the way is a failure of the binding. -/
def attempt {α : Type} (result : Except String α) : Except KernelABIBindingFailure α :=
  result.mapError fun message ↦ ⟨.bindingFailure, "ABI_BINDING_FAILED", message⟩

/-! ## Ids -/

/-- The id behind the ids in use. -/
def nextId (message : String) (ids : List ℕ) : Except String ℕ :=
  ids.foldlM (fun next id ↦
    if id = 2 ^ 32 - 1 then .error message else .ok (max next (id + 1))) 0

/-! ## Inputs -/

/-- A constant for one input. -/
def specializeInput (invocation : KernelInvocation) (constantStart : ℕ)
    (state : DFGBuilder × List (ℕ × ℕ)) (desc : KernelInputDesc) :
    Except String (DFGBuilder × List (ℕ × ℕ)) :=
  match invocation.scalarInputs.find? fun value ↦ value.id == desc.id with
  | none => .error "validated invocation lost a scalar input"
  | some input => do
    let id := (constantStart + state.2.length) % 2 ^ 32
    let builder ← state.1.importConstant ⟨id, desc.type, input.bits⟩
    return (builder, SortedMap.emplace Prod.fst (desc.id, id) state.2)

/-- An external value becomes its constant. -/
def specializeValue (specialized : List (ℕ × ℕ)) :
    ExternalOperandBinding → Except String ExternalOperandBinding
  | .externalValueRef value =>
    match SortedMap.lookup Prod.fst value specialized with
    | none => .error "boundary references an unknown specialized external"
    | some entry => .ok (.constantRef entry.2)
  | .constantRef value => .ok (.constantRef value)

def rewriteItem (specialized : List (ℕ × ℕ)) (item : RecurrenceBoundaryValue) :
    Except String RecurrenceBoundaryValue := do
  let value ← specializeValue specialized item.value
  return { item with value }

def rewriteBoundary (specialized : List (ℕ × ℕ)) :
    Option RecurrenceBoundary → Except String (Option RecurrenceBoundary)
  | none => .ok none
  | some boundary => do
    let values ← boundary.values.mapM (rewriteItem specialized)
    return some ⟨values⟩

def rewriteEdge (specialized : List (ℕ × ℕ)) (edge : Edge) : Except String Edge :=
  match edge.info with
  | .data operand boundary => do
    let boundary ← rewriteBoundary specialized boundary
    return { edge with info := .data operand boundary }
  | .predicate operand boundary => do
    let boundary ← rewriteBoundary specialized boundary
    return { edge with info := .predicate operand boundary }
  | .memory _ => .ok edge

def importEdge (specialized : List (ℕ × ℕ)) (builder : DFGBuilder) (edge : Edge) :
    Except String DFGBuilder := do
  let copy ← rewriteEdge specialized edge
  builder.importEdge copy

def bindOperand (specialized : List (ℕ × ℕ)) (builder : DFGBuilder) (binding : OperandBinding) :
    Except String DFGBuilder :=
  match binding.source with
  | .externalValueRef value =>
    match SortedMap.lookup Prod.fst value specialized with
    | none => .error "map::at"
    | some entry => builder.bindConstant binding.node binding.operand entry.2
  | .constantRef value => builder.bindConstant binding.node binding.operand value

/-! ## Outputs -/

/-- The counters of the free ids and the outputs so far. -/
structure OutputState where
  builder : DFGBuilder
  nextNode : ℕ
  nextConstant : ℕ
  outputs : List KernelOutputBinding

/-- The store of a live-out. -/
def outputStore (target : TargetModel) (id : ℕ) (type : ValueType) : Node where
  id := id
  opcode := .store
  resultType := .voidTy
  operandTypes := [.integer 32, type]
  icmpPredicate := none
  memoryInfo := some ⟨target.memory.widthBits, false⟩

def addStore (target : TargetModel) (outputBase : ℕ) (state : OutputState) (output : LiveOut) :
    Except String OutputState := do
  let address := outputBase + state.outputs.length
  let builder ← state.builder.importConstant ⟨state.nextConstant, .integer 32, address⟩
  let builder ← builder.importNode (outputStore target state.nextNode output.type)
    (some ⟨"abi.liveout." ++ toString output.id⟩)
  let builder ← builder.bindConstant state.nextNode 0 state.nextConstant
  let builder ← builder.addDataEdge output.source state.nextNode 1 0 none
  let builder ← builder.addMemoryEdge state.nextNode state.nextNode .waw 1
  return {
    builder := builder
    nextNode := (state.nextNode + 1) % 2 ^ 32
    nextConstant := (state.nextConstant + 1) % 2 ^ 32
    outputs := state.outputs ++ [⟨output.id, address, state.nextNode, state.nextConstant⟩] }

def addOutput (target : TargetModel) (outputBase : ℕ) (state : OutputState) (output : LiveOut) :
    Except KernelABIBindingFailure OutputState :=
  if output.type.kind ≠ .integer ∨ output.type.bitWidth ≠ target.memory.widthBits then
    .error ⟨.unsupportedLiveOutType, "ABI_UNSUPPORTED_LIVEOUT_TYPE",
      "V0 supports only i32 data live-outs"⟩
  else attempt (addStore target outputBase state output)

/-! ## The output region -/

def checkReservedMemoryAddress (dfg : DFG) (outputBase scratchpadDepth : ℕ)
    (entry : Node × Option SourceInfo) : Except KernelABIBindingFailure Unit :=
  if isUserAccess entry = false then .ok ()
  else
    match dfg.constantAddress entry.1.id with
    | none => .ok ()
    | some value => do
      let constant ← attempt (dfg.constant value)
      if constant.bits ≥ outputBase ∧ constant.bits < scratchpadDepth then
        .error ⟨.scratchpadABIRegionConflict, "ABI_RESERVED_OUTPUT_REGION_ACCESS",
          "a concrete Load/Store address accesses the ABI output region"⟩

def checkReservedMemoryAddresses (graph : SourcedDFG) (outputBase scratchpadDepth : ℕ) :
    Except KernelABIBindingFailure Unit :=
  graph.entries.forM (checkReservedMemoryAddress graph.dfg outputBase scratchpadDepth)

/-! ## Binding -/

/-- The graph as it is, up to its edges and bindings. -/
def copyValues (source : SourcedDFG) : Except String DFGBuilder := do
  let builder := DFGBuilder.create source.dfg.name
  let builder ← source.dfg.externalValues.foldlM DFGBuilder.importExternal builder
  let builder ← source.dfg.constants.foldlM DFGBuilder.importConstant builder
  let builder ← source.entries.foldlM (fun builder entry ↦ builder.importNode entry.1 entry.2)
    builder
  source.dfg.liveOuts.foldlM DFGBuilder.importLiveOut builder

/-- What the failures before the copy are. -/
def checkInvocation (source : SourcedDFG) (target : TargetModel) (invocation : KernelInvocation)
    (signature : KernelSignature) : Except KernelABIBindingFailure Unit := do
  if (signature.scalarInputs.map KernelInputDesc.name).Nodup then
    match validateInvocation signature invocation target.memory.depth target.memory.widthBits with
    | .error message => .error ⟨.invalidInvocation, "ABI_INVALID_INVOCATION", message⟩
    | .ok () =>
      if source.dfg.liveOuts.length > target.memory.depth then
        .error ⟨.scratchpadABICapacityExceeded, "ABI_OUTPUT_REGION_TOO_SMALL",
          "live-outs exceed target scratchpad depth"⟩
      else if invocation.scratchpadPreload.any fun item ↦
          item.1 ≥ target.memory.depth - source.dfg.liveOuts.length
            && source.dfg.liveOuts.length != 0 then
        .error ⟨.scratchpadABIRegionConflict, "ABI_SCRATCHPAD_PRELOAD_COLLISION",
          "scratchpad preload overlaps ABI output region"⟩
  else .error ⟨.invalidSourceDFG, "ABI_AMBIGUOUS_INPUT_NAME",
    "external value names must be unique"⟩

/-- The copy with its constants, its stores and its layout. -/
def bindGraph (source : SourcedDFG) (target : TargetModel) (invocation : KernelInvocation)
    (signature : KernelSignature) : Except KernelABIBindingFailure ABIBoundKernel := do
  let outputBase := target.memory.depth - source.dfg.liveOuts.length
  let builder ← attempt (copyValues source)
  let constantStart ← attempt (nextId "constant ID space exhausted"
    (source.dfg.constants.map ConstantValue.id))
  let (builder, specialized) ← attempt
    (signature.scalarInputs.foldlM (specializeInput invocation constantStart) (builder, []))
  let builder ← attempt (source.dfg.edges.foldlM (importEdge specialized) builder)
  let builder ← attempt (source.dfg.externalBindings.foldlM (bindOperand specialized) builder)
  let nextNode ← attempt (nextId "node ID space exhausted" (source.dfg.nodes.map Node.id))
  let nextConstant := (constantStart + specialized.length) % 2 ^ 32
  let sortedLiveOuts := source.dfg.liveOuts.insertionSort fun lhs rhs ↦ lhs.id ≤ rhs.id
  let state ← sortedLiveOuts.foldlM (addOutput target outputBase)
    ⟨builder, nextNode, nextConstant, []⟩
  return {
    dfg := state.builder.finish
    signature := signature
    invocation := invocation
    layout := {
      scratchpadDepth := target.memory.depth
      userScratchpadLimit := outputBase
      outputRegionBase := outputBase
      inputs := specialized.map fun entry ↦ ⟨entry.1, entry.2⟩
      outputs := state.outputs } }

def bind (source : SourcedDFG) (target : TargetModel) (invocation : KernelInvocation)
    (kernelName : String) : Except KernelABIBindingFailure ABIBoundKernel := do
  let sourceReport := DFGVerifier.verify source.dfg
  if sourceReport ≠ [] then
    .error ⟨.invalidSourceDFG, "ABI_INVALID_SOURCE_DFG", DFGVerifier.format sourceReport⟩
  let inferred := inferSignature source.dfg
  let signature := if kernelName = "" then inferred else { inferred with kernelName := kernelName }
  checkInvocation source target invocation signature
  let bound ← bindGraph source target invocation signature
  checkReservedMemoryAddresses bound.dfg bound.layout.outputRegionBase target.memory.depth
  let verification ← attempt (KernelABIVerifier.verify source target invocation bound)
  if verification ≠ [] then
    .error ⟨.verificationFailure, "ABI_FINAL_VERIFICATION_FAILED",
      KernelABIVerifier.format verification⟩
  return bound

end KernelABIBinder

end PredicatedMesh
