import PredicatedMesh.IR.DFG
import PredicatedMesh.Library.Scan
import PredicatedMesh.Target.DFG

/-!
# Verifying a target dataflow graph

`TargetDFGVerifier.verify` is the precondition of every back-end pass. It walks the graph once per
concern — ids, operand bindings, value types, nodes, edges, live-outs, cached adjacency — and
collects a diagnostic for each disagreement with the contract. Right after legalization it is also
given the generic graph, and looks up the nodes a target node comes from. An empty report is the
only thing the later passes look at, so what this module exports is the content of an empty report,
gathered in `TargetDFG.Verified`.
-/

namespace PredicatedMesh

open Scan

/-! ## Diagnostics -/

inductive TargetDFGDiagnosticCode
  | unknownNode
  | duplicateNode
  | duplicateEdge
  | duplicateExternal
  | duplicateConstant
  | duplicateLiveOut
  | adjacencyInconsistent
  | unknownEdgeSource
  | unknownEdgeDestination
  | unknownOperation
  | noCompatibleExecutionResource
  | executionClassMismatch
  | issueOccupancyMismatch
  | resultLatencyMismatch
  | producerOutputReadyMismatch
  | memoryAccessWidthMismatch
  | resultTypeMismatch
  | unsupportedType
  | operandIndexOutOfRange
  | missingProvider
  | duplicateProvider
  | dataEdgeInvalid
  | predicateEdgeInvalid
  | memoryEdgeInvalid
  | storeResultInvalid
  | loadResultInvalid
  | operationArityInvalid
  | operationOperandInvalid
  | bindingUnknownNode
  | bindingUnknownExternal
  | bindingUnknownConstant
  | bindingTypeMismatch
  | provenanceEmpty
  | provenanceUnknownGenericNode
  | liveOutUnknownNode
  | liveOutTypeMismatch
  deriving DecidableEq, Repr

def TargetDFGDiagnosticCode.toString : TargetDFGDiagnosticCode → String
  | .unknownNode => "TDFG_UNKNOWN_NODE"
  | .duplicateNode => "TDFG_DUPLICATE_NODE"
  | .duplicateEdge => "TDFG_DUPLICATE_EDGE"
  | .duplicateExternal => "TDFG_DUPLICATE_EXTERNAL"
  | .duplicateConstant => "TDFG_DUPLICATE_CONSTANT"
  | .duplicateLiveOut => "TDFG_DUPLICATE_LIVEOUT"
  | .adjacencyInconsistent => "TDFG_ADJACENCY_INCONSISTENT"
  | .unknownEdgeSource => "TDFG_UNKNOWN_EDGE_SOURCE"
  | .unknownEdgeDestination => "TDFG_UNKNOWN_EDGE_DESTINATION"
  | .unknownOperation => "TDFG_UNKNOWN_OPERATION"
  | .noCompatibleExecutionResource => "TDFG_NO_COMPATIBLE_EXECUTION_RESOURCE"
  | .executionClassMismatch => "TDFG_EXECUTION_CLASS_MISMATCH"
  | .issueOccupancyMismatch => "TDFG_ISSUE_OCCUPANCY_MISMATCH"
  | .resultLatencyMismatch => "TDFG_RESULT_LATENCY_MISMATCH"
  | .producerOutputReadyMismatch => "TDFG_PRODUCER_OUTPUT_READY_MISMATCH"
  | .memoryAccessWidthMismatch => "TDFG_MEMORY_ACCESS_WIDTH_MISMATCH"
  | .resultTypeMismatch => "TDFG_RESULT_TYPE_MISMATCH"
  | .unsupportedType => "TDFG_UNSUPPORTED_TYPE"
  | .operandIndexOutOfRange => "TDFG_OPERAND_INDEX_OUT_OF_RANGE"
  | .missingProvider => "TDFG_MISSING_PROVIDER"
  | .duplicateProvider => "TDFG_DUPLICATE_PROVIDER"
  | .dataEdgeInvalid => "TDFG_DATA_EDGE_INVALID"
  | .predicateEdgeInvalid => "TDFG_PREDICATE_EDGE_INVALID"
  | .memoryEdgeInvalid => "TDFG_MEMORY_EDGE_INVALID"
  | .storeResultInvalid => "TDFG_STORE_RESULT_INVALID"
  | .loadResultInvalid => "TDFG_LOAD_RESULT_INVALID"
  | .operationArityInvalid => "TDFG_OPERATION_ARITY_INVALID"
  | .operationOperandInvalid => "TDFG_OPERATION_OPERAND_INVALID"
  | .bindingUnknownNode => "TDFG_BINDING_UNKNOWN_NODE"
  | .bindingUnknownExternal => "TDFG_BINDING_UNKNOWN_EXTERNAL"
  | .bindingUnknownConstant => "TDFG_BINDING_UNKNOWN_CONSTANT"
  | .bindingTypeMismatch => "TDFG_BINDING_TYPE_MISMATCH"
  | .provenanceEmpty => "TDFG_PROVENANCE_EMPTY"
  | .provenanceUnknownGenericNode => "TDFG_PROVENANCE_UNKNOWN_GENERIC_NODE"
  | .liveOutUnknownNode => "TDFG_LIVEOUT_UNKNOWN_NODE"
  | .liveOutTypeMismatch => "TDFG_LIVEOUT_TYPE_MISMATCH"

structure TargetDFGDiagnostic where
  code : TargetDFGDiagnosticCode
  message : String
  node : Option TargetNodeId := none
  edge : Option TargetEdgeId := none
  operand : Option ℕ := none
  deriving DecidableEq, Repr

/-- One line of a formatted report. -/
def TargetDFGDiagnostic.format (diagnostic : TargetDFGDiagnostic) : String :=
  "\n" ++ diagnostic.code.toString
    ++ (diagnostic.node.elim "" fun node ↦ " node=%n" ++ toString node)
    ++ (diagnostic.edge.elim "" fun edge ↦ " edge=%e" ++ toString edge)
    ++ (diagnostic.operand.elim "" fun operand ↦ " operand=" ++ toString operand)
    ++ ": " ++ diagnostic.message

namespace TargetDFGVerifier

/-- A formatted report. -/
def format (report : List TargetDFGDiagnostic) : String :=
  (if report.isEmpty then "valid" else "invalid") ++ " Target DFG"
    ++ String.join (report.map TargetDFGDiagnostic.format)

/-! ## Roles and types -/

def isPredicate (type : ValueType) : Bool := type.kind == .predicate && type.bitWidth == 1

def isData (type : ValueType) : Bool := type.kind == .integer || type.kind == .float

def roleMatches (role : TargetOperandRole) (type : ValueType) : Bool :=
  match role with
  | .data => isData type
  | .predicate => isPredicate type
  | .address => type.kind == .integer

def resultRoleMatches (role : TargetResultRole) (type : ValueType) : Bool :=
  match role with
  | .data => isData type
  | .predicate => isPredicate type
  | .void => type == ValueType.voidTy

def isLoadLike (operation : TargetOperationDesc) : Bool :=
  operation.executionClass == .lsu && operation.resultRole == .data
    && operation.operands.map (·.role) == [.address]

def isStoreLike (operation : TargetOperationDesc) : Bool :=
  operation.executionClass == .lsu && operation.resultRole == .void
    && (operation.operands.map (·.role)).take 2 == [.address, .data]

/-! ## The checks -/

section Checks

variable (dfg : TargetDFG) (target : TargetModel)

/-- Every id is used once. -/
def checkIds : List TargetDFGDiagnostic :=
  ((repeats TargetNode.id [] dfg.nodes).map fun node ↦
    { code := .duplicateNode, message := "duplicate target node ID", node := some node.id })
  ++ ((repeats TargetEdge.id [] dfg.edges).map fun edge ↦
    { code := .duplicateEdge, message := "duplicate target edge ID", edge := some edge.id })
  ++ ((repeats ExternalValue.id [] dfg.externalValues).map fun _ ↦
    { code := .duplicateExternal, message := "duplicate target external value ID" })
  ++ ((repeats ConstantValue.id [] dfg.constants).map fun _ ↦
    { code := .duplicateConstant, message := "duplicate target constant ID" })
  ++ ((repeats TargetLiveOut.id [] dfg.liveOuts).map fun _ ↦
    { code := .duplicateLiveOut, message := "duplicate target live-out ID" })

/-- The type of the value a binding refers to, if there is such a value. -/
def bindingType : ExternalOperandBinding → Option ValueType
  | .externalValueRef id => (dfg.externalValues.find? fun value ↦ value.id == id).map (·.type)
  | .constantRef id => (dfg.constants.find? fun value ↦ value.id == id).map (·.type)

def unknownBinding (node : TargetNodeId) : ExternalOperandBinding → TargetDFGDiagnostic
  | .externalValueRef _ =>
    { code := .bindingUnknownExternal
      message := "binding references an unknown external value", node := some node }
  | .constantRef _ =>
    { code := .bindingUnknownConstant
      message := "binding references an unknown constant", node := some node }

def mistypedBinding (node : TargetNodeId) (operand : ℕ) :
    ExternalOperandBinding → TargetDFGDiagnostic
  | .externalValueRef _ =>
    { code := .bindingTypeMismatch
      message := "external binding type does not match operand type"
      node := some node, operand := some operand }
  | .constantRef _ =>
    { code := .bindingTypeMismatch
      message := "constant binding type does not match operand type"
      node := some node, operand := some operand }

def checkBinding (binding : TargetOperandBinding) : List TargetDFGDiagnostic :=
  match dfg.findNode binding.node with
  | none =>
    [{ code := .bindingUnknownNode, message := "binding references an unknown target node"
       node := some binding.node }]
  | some node =>
    match node.operandTypes[binding.operand]? with
    | none =>
      [{ code := .operandIndexOutOfRange
         message := "binding operand is outside the target operand list"
         node := some binding.node, operand := some binding.operand }]
    | some expected =>
      match bindingType dfg binding.source with
      | none => [unknownBinding binding.node binding.source]
      | some type =>
        require (type == expected) (mistypedBinding binding.node binding.operand binding.source)

/-- Whether a binding names an operand of an existing node, so that it counts as a provider. -/
def bindingProvides (binding : TargetOperandBinding) : Bool :=
  (dfg.findNode binding.node).any fun node ↦ binding.operand < node.operandTypes.length

/-- The operands that have a provider, with repetition. -/
def providers : List (TargetNodeId × ℕ) :=
  ((dfg.operandBindings.filter (bindingProvides dfg)).map fun binding ↦
    (binding.node, binding.operand))
  ++ dfg.edges.filterMap fun edge ↦ edge.info.dstOperand.map fun operand ↦ (edge.dst, operand)

def checkOperandProviders (node : TargetNode) (operand : ℕ) : List TargetDFGDiagnostic :=
  match (providers dfg).count (node.id, operand) with
  | 0 =>
    [{ code := .missingProvider, message := "Target operand has no provider"
       node := some node.id, operand := some operand }]
  | 1 => []
  | _ =>
    [{ code := .duplicateProvider, message := "Target operand has multiple providers"
       node := some node.id, operand := some operand }]

def checkValueTypes : List TargetDFGDiagnostic :=
  (dfg.externalValues.flatMap fun value ↦ require (target.supportsValueType value.type)
    { code := .unsupportedType
      message := "external value type is not supported by TargetModel" })
  ++ dfg.constants.flatMap fun value ↦ require (target.supportsValueType value.type)
    { code := .unsupportedType, message := "constant type is not supported by TargetModel" }

def checkOperand (operation : TargetOperationDesc) (node : TargetNode) (operand : ℕ)
    (type : ValueType) : List TargetDFGDiagnostic :=
  require (target.supportsValueType type)
    { code := .unsupportedType, message := "node operand type is not supported by TargetModel"
      node := some node.id, operand := some operand }
  ++ require (operation.operands[operand]?.any fun desc ↦ roleMatches desc.role type)
    { code := .operationOperandInvalid
      message := "node operand type does not satisfy TargetModel operand role"
      node := some node.id, operand := some operand }

/-- The nodes a target node comes from, if the generic graph is at hand. -/
def checkProvenance (generic : Option DFG) (node : TargetNode) : List TargetDFGDiagnostic :=
  match generic with
  | none => []
  | some generic =>
    node.genericOrigins.flatMap fun origin ↦ require (generic.containsNode origin)
      { code := .provenanceUnknownGenericNode
        message := "Target node provenance references unknown Generic node", node := some node.id }

/-- A node against the descriptor it names. -/
def checkNodeAgainst (generic : Option DFG) (operation : TargetOperationDesc) (node : TargetNode) :
    List TargetDFGDiagnostic :=
  require (target.isOperationExecutable operation)
    { code := .noCompatibleExecutionResource
      message := "target operation has no compatible execution resource", node := some node.id }
  ++ require (operation.executionClass == node.executionClass)
    { code := .executionClassMismatch
      message := "node execution class disagrees with TargetModel", node := some node.id }
  ++ require (operation.issueOccupancy == node.issueOccupancy)
    { code := .issueOccupancyMismatch
      message := "node issue occupancy disagrees with TargetModel", node := some node.id }
  ++ require (operation.resultLatency == node.resultLatency)
    { code := .resultLatencyMismatch
      message := "node result latency disagrees with TargetModel", node := some node.id }
  ++ require (operation.producerOutputReadyOffset == node.producerOutputReadyOffset)
    { code := .producerOutputReadyMismatch
      message := "node producer output readiness disagrees with TargetModel"
      node := some node.id }
  ++ require (operation.accessWidthBits == node.accessWidthBits)
    { code := .memoryAccessWidthMismatch
      message := "node memory access width disagrees with TargetModel", node := some node.id }
  ++ require (operation.resultType == node.resultType)
    { code := .resultTypeMismatch
      message := "node result type disagrees with TargetModel", node := some node.id }
  ++ require (resultRoleMatches operation.resultRole node.resultType)
    { code := .resultTypeMismatch
      message := "node result type does not satisfy TargetModel result role"
      node := some node.id }
  ++ require (!(isStoreLike operation && node.resultType != ValueType.voidTy))
    { code := .storeResultInvalid
      message := "target store-like operation must have void result", node := some node.id }
  ++ require (!(isLoadLike operation
      && (node.resultType == ValueType.voidTy || node.resultLatency.isNone)))
    { code := .loadResultInvalid
      message := "target load-like operation must have a value result and latency"
      node := some node.id }
  ++ require ((operation.operands.countP fun operand ↦ !operand.optional) ≤ node.operandTypes.length
      && node.operandTypes.length ≤ operation.operands.length)
    { code := .operationArityInvalid
      message := "target operation operand count disagrees with TargetModel descriptor"
      node := some node.id }
  ++ require (target.supportsValueType node.resultType)
    { code := .unsupportedType, message := "node result type is not supported by TargetModel"
      node := some node.id }
  ++ (node.operandTypes.zipIdx.flatMap fun entry ↦
    checkOperand target operation node entry.2 entry.1)
  ++ require (!node.genericOrigins.isEmpty)
    { code := .provenanceEmpty, message := "Target node must retain Generic provenance"
      node := some node.id }
  ++ checkProvenance generic node
  ++ (List.range node.operandTypes.length).flatMap (checkOperandProviders dfg node)

def checkNode (generic : Option DFG) (node : TargetNode) : List TargetDFGDiagnostic :=
  match target.findOperation node.operation with
  | none =>
    [{ code := .unknownOperation, message := "target operation is absent from TargetModel"
       node := some node.id }]
  | some operation => checkNodeAgainst dfg target generic operation node

/-- Whether an operand of the consumer may be fed by the producer's result. -/
def dataEdgeValid (src dst : TargetNode) (operand : ℕ) : Bool :=
  (dst.operandTypes[operand]?.any fun type ↦ src.resultType == type)
  && ((target.findOperation dst.operation).any fun dstOperation ↦
    dstOperation.operands[operand]?.all fun desc ↦ desc.role == .data || desc.role == .address)
  && (target.findOperation src.operation).any fun srcOperation ↦ srcOperation.resultRole == .data

def predicateEdgeValid (src dst : TargetNode) (operand : ℕ) : Bool :=
  (dst.operandTypes[operand]?.any isPredicate)
  && ((target.findOperation dst.operation).any fun dstOperation ↦
    dstOperation.operands[operand]?.all fun desc ↦ desc.role == .predicate)
  && (target.findOperation src.operation).any fun srcOperation ↦
    srcOperation.resultRole == .predicate

def memoryEdgeValid (src dst : TargetNode) (dependence : MemoryDepKind) : Bool :=
  let srcStore := (target.findOperation src.operation).any isStoreLike
  let srcLoad := (target.findOperation src.operation).any isLoadLike
  let dstStore := (target.findOperation dst.operation).any isStoreLike
  let dstLoad := (target.findOperation dst.operation).any isLoadLike
  match dependence with
  | .raw => srcStore && dstLoad
  | .war => srcLoad && dstStore
  | .waw => srcStore && dstStore

def checkEdge (edge : TargetEdge) : List TargetDFGDiagnostic :=
  match dfg.findNode edge.src, dfg.findNode edge.dst with
  | none, _ =>
    [{ code := .unknownEdgeSource, message := "edge source is unknown", edge := some edge.id }]
  | some _, none =>
    [{ code := .unknownEdgeDestination, message := "edge destination is unknown"
       edge := some edge.id }]
  | some src, some dst =>
    match edge.info with
    | .data operand _ => require (dataEdgeValid target src dst operand)
        { code := .dataEdgeInvalid
          message := "Target data edge has invalid source, operand, or type"
          node := some dst.id, edge := some edge.id, operand := some operand }
    | .predicate operand _ => require (predicateEdgeValid target src dst operand)
        { code := .predicateEdgeInvalid
          message := "Target predicate edge has invalid source or destination"
          node := some dst.id, edge := some edge.id, operand := some operand }
    | .memory dependence => require (memoryEdgeValid target src dst dependence)
        { code := .memoryEdgeInvalid
          message := "Target memory edge has invalid endpoint operations"
          node := some dst.id, edge := some edge.id }

def checkLiveOut (liveOut : TargetLiveOut) : List TargetDFGDiagnostic :=
  (match dfg.findNode liveOut.source with
    | none =>
      [{ code := .liveOutUnknownNode, message := "Target live-out references an unknown node" }]
    | some node => require (node.resultType == liveOut.type)
        { code := .liveOutTypeMismatch
          message := "Target live-out type does not match source result"
          node := some liveOut.source })
  ++ require (target.supportsValueType liveOut.type)
    { code := .unsupportedType, message := "live-out type is not supported by TargetModel"
      node := some liveOut.source }

/-- The cached adjacency of a node against the edge list. -/
def checkAdjacency (node : TargetNode) : List TargetDFGDiagnostic :=
  let known := dfg.edges.filter fun edge ↦ dfg.containsNode edge.src && dfg.containsNode edge.dst
  require
    (dfg.incoming node.id == some ((known.filter fun edge ↦ edge.dst == node.id).map (·.id))
      && dfg.outgoing node.id == some ((known.filter fun edge ↦ edge.src == node.id).map (·.id)))
    { code := .adjacencyInconsistent
      message := "cached Target DFG adjacency disagrees with edge endpoints", node := some node.id }

/-- The report; the graph is accepted when it is empty. -/
def verify (generic : Option DFG := none) : List TargetDFGDiagnostic :=
  checkIds dfg
  ++ dfg.operandBindings.flatMap (checkBinding dfg)
  ++ checkValueTypes dfg target
  ++ dfg.nodes.flatMap (checkNode dfg target generic)
  ++ dfg.edges.flatMap (checkEdge dfg target)
  ++ dfg.liveOuts.flatMap (checkLiveOut dfg target)
  ++ dfg.nodes.flatMap (checkAdjacency dfg)

end Checks

end TargetDFGVerifier

/-! ## What an empty report says -/

/-- A node agrees with the descriptor it names, in everything the back end reads. -/
structure TargetNode.Agrees (target : TargetModel) (node : TargetNode)
    (operation : TargetOperationDesc) : Prop where
  found : target.findOperation node.operation = some operation
  executable : target.isOperationExecutable operation = true
  executionClass : operation.executionClass = node.executionClass
  issueOccupancy : operation.issueOccupancy = node.issueOccupancy
  resultLatency : operation.resultLatency = node.resultLatency
  producerOutputReadyOffset :
    operation.producerOutputReadyOffset = node.producerOutputReadyOffset

/-- The facts later passes take from an accepted graph. -/
structure TargetDFG.Verified (dfg : TargetDFG) (target : TargetModel) : Prop where
  nodup_nodes : (dfg.nodes.map TargetNode.id).Nodup
  nodup_edges : (dfg.edges.map TargetEdge.id).Nodup
  nodup_liveOuts : (dfg.liveOuts.map TargetLiveOut.id).Nodup
  agrees : ∀ node ∈ dfg.nodes, ∃ operation, node.Agrees target operation
  endpoints : ∀ edge ∈ dfg.edges, ∃ src dst,
    dfg.findNode edge.src = some src ∧ dfg.findNode edge.dst = some dst
  valueEdge : ∀ edge ∈ dfg.edges, edge.kind ≠ .memory → ∃ src operation,
    dfg.findNode edge.src = some src ∧ target.findOperation src.operation = some operation ∧
      operation.resultRole ≠ .void
  liveOut : ∀ liveOut ∈ dfg.liveOuts, ∃ node, dfg.findNode liveOut.source = some node

namespace TargetDFGVerifier

variable {dfg : TargetDFG} {target : TargetModel}

theorem nodup_of_checkIds (h : checkIds dfg = []) :
    (dfg.nodes.map TargetNode.id).Nodup ∧ (dfg.edges.map TargetEdge.id).Nodup ∧
      (dfg.liveOuts.map TargetLiveOut.id).Nodup := by
  simp only [checkIds, List.append_eq_nil_iff, List.map_eq_nil_iff] at h
  obtain ⟨⟨⟨⟨hn, he⟩, -⟩, -⟩, hl⟩ := h
  exact ⟨nodup_of_repeats_eq_nil hn, nodup_of_repeats_eq_nil he, nodup_of_repeats_eq_nil hl⟩

theorem agrees_of_checkNode {generic : Option DFG} {node : TargetNode}
    (h : checkNode dfg target generic node = []) :
    ∃ operation, node.Agrees target operation := by
  unfold checkNode at h
  split at h
  · cases h
  · rename_i operation hfound
    simp only [checkNodeAgainst, List.append_eq_nil_iff, require_eq_nil_iff, beq_iff_eq,
      and_assoc] at h
    obtain ⟨hexec, hclass, hocc, hlat, hready, -⟩ := h
    exact ⟨operation, hfound, hexec, hclass, hocc, hlat, hready⟩

theorem endpoints_of_checkEdge {edge : TargetEdge} (h : checkEdge dfg target edge = []) :
    ∃ src dst, dfg.findNode edge.src = some src ∧ dfg.findNode edge.dst = some dst := by
  unfold checkEdge at h
  split at h
  · cases h
  · cases h
  · rename_i src dst hsrc hdst
    exact ⟨src, dst, hsrc, hdst⟩

/-- A value edge leaves an operation that produces a value. -/
theorem producer_of_checkEdge {edge : TargetEdge} (h : checkEdge dfg target edge = [])
    (hkind : edge.kind ≠ .memory) : ∃ src operation, dfg.findNode edge.src = some src ∧
      target.findOperation src.operation = some operation ∧ operation.resultRole ≠ .void := by
  unfold checkEdge at h
  split at h
  · cases h
  · cases h
  · rename_i src dst hsrc hdst
    cases hinfo : edge.info with
    | data operand boundary =>
      simp only [hinfo, require_eq_nil_iff, dataEdgeValid, Bool.and_eq_true, Option.any_eq_true,
        beq_iff_eq] at h
      obtain ⟨-, operation, hfound, hrole⟩ := h
      exact ⟨src, operation, hsrc, hfound, by simp [hrole]⟩
    | predicate operand boundary =>
      simp only [hinfo, require_eq_nil_iff, predicateEdgeValid, Bool.and_eq_true,
        Option.any_eq_true, beq_iff_eq] at h
      obtain ⟨-, operation, hfound, hrole⟩ := h
      exact ⟨src, operation, hsrc, hfound, by simp [hrole]⟩
    | memory dependence => exact absurd (TargetEdge.kind_eq_memory_iff.mpr ⟨_, hinfo⟩) hkind

theorem source_of_checkLiveOut {liveOut : TargetLiveOut}
    (h : checkLiveOut dfg target liveOut = []) :
    ∃ node, dfg.findNode liveOut.source = some node := by
  rw [checkLiveOut, List.append_eq_nil_iff] at h
  cases hfound : dfg.findNode liveOut.source with
  | none => simp [hfound] at h
  | some node => exact ⟨node, rfl⟩

/-- **The verifier's contract.** -/
theorem verified_of_verify {generic : Option DFG} (h : verify dfg target generic = []) :
    dfg.Verified target := by
  simp only [verify, List.append_eq_nil_iff, List.flatMap_eq_nil_iff] at h
  obtain ⟨⟨⟨⟨⟨⟨hids, -⟩, -⟩, hnodes⟩, hedges⟩, hlive⟩, -⟩ := h
  obtain ⟨hn, he, hl⟩ := nodup_of_checkIds hids
  exact
    { nodup_nodes := hn
      nodup_edges := he
      nodup_liveOuts := hl
      agrees := fun node hnode ↦ agrees_of_checkNode (hnodes node hnode)
      endpoints := fun edge hedge ↦ endpoints_of_checkEdge (hedges edge hedge)
      valueEdge := fun edge hedge ↦ producer_of_checkEdge (hedges edge hedge)
      liveOut := fun liveOut hmem ↦ source_of_checkLiveOut (hlive liveOut hmem) }

end TargetDFGVerifier

namespace TargetDFG.Verified

variable {dfg : TargetDFG} {target : TargetModel}

theorem findNode_of_mem (hv : dfg.Verified target) {node : TargetNode} (h : node ∈ dfg.nodes) :
    dfg.findNode node.id = some node :=
  find?_eq_some_of_nodup hv.nodup_nodes h

theorem findEdge_of_mem (hv : dfg.Verified target) {edge : TargetEdge} (h : edge ∈ dfg.edges) :
    dfg.findEdge edge.id = some edge :=
  find?_eq_some_of_nodup hv.nodup_edges h

theorem node_eq_of_id_eq (hv : dfg.Verified target) {a b : TargetNode} (ha : a ∈ dfg.nodes)
    (hb : b ∈ dfg.nodes) (hid : a.id = b.id) : a = b :=
  List.inj_on_of_nodup_map hv.nodup_nodes ha hb hid

theorem edge_eq_of_id_eq (hv : dfg.Verified target) {a b : TargetEdge} (ha : a ∈ dfg.edges)
    (hb : b ∈ dfg.edges) (hid : a.id = b.id) : a = b :=
  List.inj_on_of_nodup_map hv.nodup_edges ha hb hid

end TargetDFG.Verified

end PredicatedMesh
