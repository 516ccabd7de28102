import PredicatedMesh.ABI.Kernel
import PredicatedMesh.IR.DFGVerifier
import PredicatedMesh.Target.Model

/-!
# Verifying a bound kernel

`KernelABIVerifier.verify` compares a bound kernel with the graph, the target and the invocation it
was bound for: the graph may only have gained constants and stores, every use of an external value
is a use of its constant, and every live-out has its word, its store and nothing else.
-/

namespace PredicatedMesh.KernelABIVerifier

open Scan

/-! ## Boundaries -/

/-- What a boundary value has become, where its external value has a constant. -/
def specializedValue (specialized : List (ℕ × ℕ)) :
    ExternalOperandBinding → Option ExternalOperandBinding
  | .externalValueRef value =>
    (SortedMap.lookup Prod.fst value specialized).map fun entry ↦ .constantRef entry.2
  | .constantRef value => some (.constantRef value)

def sameBoundary (specialized : List (ℕ × ℕ)) :
    Option RecurrenceBoundary → Option RecurrenceBoundary → Bool
  | none, none => true
  | some lhs, some rhs => lhs.values.length == rhs.values.length
      && (lhs.values.zip rhs.values).all fun pair ↦
        pair.1.iterationOffset == pair.2.iterationOffset
          && specializedValue specialized pair.1.value == some pair.2.value
  | _, _ => false

/-! ## The original graph -/

section Checks

variable (source : SourcedDFG) (target : TargetModel) (invocation : KernelInvocation)
  (bound : ABIBoundKernel)

def expectedOutputBase : ℕ :=
  if source.dfg.liveOuts.length > target.memory.depth then 0
  else target.memory.depth - source.dfg.liveOuts.length

def verifyInvocation : List String :=
  require ((DFGVerifier.verify source.dfg).isEmpty) "source DFG is invalid"
  ++ (let report := DFGVerifier.verify bound.dfg.dfg
      require report.isEmpty (DFGVerifier.format report))
  ++ require (decide (bound.signature
      = { inferSignature source.dfg with kernelName := bound.signature.kernelName }))
    "kernel signature does not match source DFG"
  ++ (match validateInvocation bound.signature invocation target.memory.depth
        target.memory.widthBits with
      | .ok () => []
      | .error message => [message])
  ++ require (bound.invocation.tripCount == invocation.tripCount)
    "bound invocation trip count differs from requested invocation"
  ++ require (bound.invocation.scalarInputs == invocation.scalarInputs)
    "bound invocation scalar inputs differ from requested invocation"
  ++ require (bound.invocation.scratchpadPreload == invocation.scratchpadPreload)
    "bound invocation scratchpad preload differs from requested invocation"

def verifyRegion : List String :=
  require (bound.dfg.dfg.name == source.dfg.name) "bound DFG name changed"
  ++ require (!(source.dfg.liveOuts.length > target.memory.depth))
    "source live-outs exceed target scratchpad depth"
  ++ require (bound.layout.scratchpadDepth == target.memory.depth)
    "ABI layout scratchpad depth does not match target"
  ++ require (bound.layout.userScratchpadLimit == expectedOutputBase source target
      && bound.layout.outputRegionBase == expectedOutputBase source target)
    "ABI layout output region is not derived from target depth and live-out count"

def verifyOriginals : List String :=
  (source.entries.flatMap fun entry ↦
    require (bound.dfg.findEntry entry.1.id == some entry) "original node was changed or removed")
  ++ (source.dfg.externalValues.flatMap fun value ↦
    require (bound.dfg.dfg.findExternal value.id == some value)
      "original external value was changed or removed")
  ++ (source.dfg.constants.flatMap fun value ↦
    require (bound.dfg.dfg.findConstant value.id == some value)
      "original constant was changed or removed")
  ++ source.dfg.liveOuts.flatMap fun output ↦
    require ((bound.dfg.dfg.liveOuts.find? fun other ↦ other.id == output.id) == some output)
      "original live-out was changed or removed"

/-! ## Inputs -/

def verifyInput (inputs : List (ℕ × ℕ)) (input : KernelInputBinding) : List String :=
  require (!SortedMap.contains Prod.fst input.input inputs) "duplicate ABI input binding"
  ++ match bound.dfg.dfg.findConstant input.specializedConstant with
  | none => ["specialized input constant is missing"]
  | some specialized =>
    match source.dfg.findExternal input.input with
    | none => ["ABI input binding references an unknown source external"]
    | some external =>
      require (specialized.type == external.type)
        "specialized input constant has the wrong type"
      ++ require ((invocation.scalarInputs.find? fun item ↦ item.id == input.input).any
          fun value ↦ specialized.bits == value.bits)
        "specialized input constant has the wrong invocation value"

/-- The constants of the inputs, where a later binding of an input replaces an earlier one. -/
def recordInput (inputs : List (ℕ × ℕ)) (input : KernelInputBinding) : List (ℕ × ℕ) :=
  SortedMap.emplace Prod.fst (input.input, input.specializedConstant)
    (SortedMap.erase Prod.fst input.input inputs)

def inputConstants : List (ℕ × ℕ) := bound.layout.inputs.foldl recordInput []

def verifyInputs : List (ℕ × ℕ) → List KernelInputBinding → List String
  | inputs, [] =>
    require (inputs.length == (source.dfg.externalValues.map ExternalValue.id).dedup.length)
      "not every source external has an ABI binding"
    ++ inputs.flatMap fun entry ↦ require (source.dfg.findExternal entry.1).isSome
      "ABI input binding references an unknown source external"
  | inputs, input :: rest =>
    verifyInput source invocation bound inputs input ++ verifyInputs (recordInput inputs input) rest

/-- A use of an external value has become a use of its constant. Without a constant the source
dereferences a null pointer; here both complaints are made. -/
def verifyUse (binding : OperandBinding) : List String :=
  match binding.source with
  | .constantRef _ => require (bound.dfg.dfg.externalBindings.contains binding)
      "original constant use was changed"
  | .externalValueRef value =>
    let found := bound.layout.inputs.find? fun item ↦ item.input == value
    require found.isSome "ordinary external use has no ABI binding"
    ++ require (((bound.dfg.dfg.externalBindings.find? fun candidate ↦
          candidate.node == binding.node && candidate.operand == binding.operand).any fun item ↦
        found.any fun input ↦ item.source == .constantRef input.specializedConstant))
      "ordinary external use was not rewritten to its specialized constant"

def verifyEdge (inputs : List (ℕ × ℕ)) (edge : Edge) : Except String (List String) :=
  match bound.dfg.dfg.findEdge edge.id with
  | none => .ok ["original edge was removed"]
  | some actual =>
    let topology := require (!(actual.src != edge.src || actual.dst != edge.dst
        || actual.distance != edge.distance || actual.kind != edge.kind))
      "original edge topology changed"
    match edge.info, actual.info with
    | .data operand boundary, .data operand' boundary' =>
      .ok (topology ++ require (operand == operand' && sameBoundary inputs boundary boundary')
        "data edge semantics changed")
    | .predicate operand boundary, .predicate operand' boundary' =>
      .ok (topology ++ require (operand == operand' && sameBoundary inputs boundary boundary')
        "predicate edge semantics changed")
    | .memory dependence, .memory dependence' =>
      .ok (topology ++ require (dependence == dependence') "memory edge dependence changed")
    | _, _ => .error "std::get: wrong index for variant"

/-! ## Outputs -/

def verifyOutputs : List String :=
  require (bound.layout.outputs.length == source.dfg.liveOuts.length)
    "ABI layout does not contain exactly one output binding per source live-out"
  ++ bound.layout.outputs.zipIdx.flatMap fun entry ↦
    require (!(((bound.layout.outputs.take entry.2).any fun item ↦ item.output == entry.1.output)
        || !(source.dfg.liveOuts.any fun output ↦ output.id == entry.1.output)))
      "ABI output binding has a duplicate or unknown live-out ID"
    ++ require (!(entry.2 != 0 && (bound.layout.outputs[entry.2 - 1]?).any fun item ↦
        decide (item.output ≥ entry.1.output)))
      "ABI output bindings are not sorted by LiveOutId"
    ++ require (entry.1.scratchpadAddress == bound.layout.outputRegionBase + entry.2)
      "ABI output address does not match sorted LiveOutId ordinal"

def storeNodes : List ℕ := bound.layout.outputs.map KernelOutputBinding.abiStoreNode

def verifyStores : List String :=
  ((repeats KernelOutputBinding.abiStoreNode [] bound.layout.outputs).map fun _ ↦
    "multiple ABI outputs reference the same Store node")
  ++ (let stores := bound.dfg.entries.filter fun entry ↦ isABIOutputStore entry.2
    (stores.flatMap fun entry ↦ require ((storeNodes bound).contains entry.1.id)
      "bound DFG contains an unbound ABI output Store")
    ++ require ((stores.map fun entry ↦ entry.1.id).dedup.length == bound.layout.outputs.length)
      "ABI layout does not account for every ABI output Store")

/-- The store of a live-out has its constant address, its value and its dependence on itself. -/
def verifyStoreWiring (output : LiveOut) (binding : KernelOutputBinding) (store : ℕ) :
    Except String (List String) := do
  let incoming ← ((bound.dfg.dfg.incoming store).getD []).mapM bound.dfg.dfg.edge
  let outgoing ← ((bound.dfg.dfg.outgoing store).getD []).mapM bound.dfg.dfg.edge
  let addressOk := bound.dfg.dfg.externalBindings.any fun item ↦
    item.node == store && item.operand == 0 && item.source == .constantRef binding.addressConstant
  let dataOk := incoming.any fun edge ↦
    edge.kind == .data && edge.src == output.source && edge.info.dstOperand == some 1
  let wawOk := outgoing.any fun edge ↦
    edge.src == store && edge.dst == store && edge.distance == 1 && edge.info == .memory .waw
  return require (addressOk && dataOk && wawOk)
    "ABI output Store has incorrect address, value edge, or self-WAW"

def verifyLiveOut (seen : List ℕ) (output : LiveOut) : Except String (List ℕ × List String) :=
  match bound.layout.outputs.find? fun item ↦ item.output == output.id with
  | none => .ok (seen, ["live-out has no ABI output binding"])
  | some binding => do
    let region := require (!(seen.contains binding.scratchpadAddress
        || decide (binding.scratchpadAddress ≥ bound.layout.scratchpadDepth)
        || decide (binding.scratchpadAddress < bound.layout.outputRegionBase)))
      "ABI output address is duplicate or outside reserved region"
    let seen := binding.scratchpadAddress :: seen
    match bound.dfg.findEntry binding.abiStoreNode with
    | none => .ok (seen, region ++ ["ABI live-out Store is missing"])
    | some (store, info) =>
      let marked := require (store.opcode == .store
          && info == some ⟨"abi.liveout." ++ toString output.id⟩)
        "ABI output node is not a provenance-marked Store"
      let address := match bound.dfg.dfg.findConstant binding.addressConstant with
        | none => ["ABI output address constant is missing"]
        | some constant => require (constant.type == ValueType.integer 32
            && constant.bits == binding.scratchpadAddress)
          "ABI output address constant has the wrong type or value"
      let wiring ← verifyStoreWiring bound output binding store.id
      .ok (seen, region ++ marked ++ address ++ wiring)

/-! ## The output region -/

def verifyPreload : List String :=
  invocation.scratchpadPreload.flatMap fun item ↦
    require (!(decide (item.1 ≥ bound.layout.outputRegionBase) && !bound.layout.outputs.isEmpty))
      "scratchpad preload collides with ABI output region"

def verifyAccess (entry : Node × Option SourceInfo) : Except String (List String) :=
  if isUserAccess entry = false then .ok []
  else
    match bound.dfg.dfg.constantAddress entry.1.id with
    | none => .ok []
    | some value => do
      let constant ← bound.dfg.dfg.constant value
      return require (!(!bound.layout.outputs.isEmpty
          && decide (constant.bits ≥ bound.layout.outputRegionBase)
          && decide (constant.bits < bound.layout.scratchpadDepth)))
        "concrete memory address accesses the ABI output region"

/-- The report; the kernel is accepted when it is empty. -/
def verify : Except String (List String) := do
  let edges ← Scan.each (verifyEdge bound (inputConstants bound)) source.dfg.edges
  let (_, liveOuts) ← Scan.loop (verifyLiveOut bound) [] source.dfg.liveOuts
  let accesses ← Scan.each (verifyAccess bound) bound.dfg.entries
  return verifyInvocation source target invocation bound
    ++ verifyRegion source target bound
    ++ verifyOriginals source bound
    ++ verifyInputs source invocation bound [] bound.layout.inputs
    ++ source.dfg.externalBindings.flatMap (verifyUse bound)
    ++ edges
    ++ verifyOutputs source bound
    ++ verifyStores bound
    ++ liveOuts
    ++ verifyPreload invocation bound
    ++ accesses

end Checks

/-- A formatted report. -/
def format (report : List String) : String :=
  (if report.isEmpty then "valid kernel ABI binding" else "invalid kernel ABI binding")
    ++ String.join (report.map fun diagnostic ↦ "\nABI: " ++ diagnostic)

end PredicatedMesh.KernelABIVerifier
