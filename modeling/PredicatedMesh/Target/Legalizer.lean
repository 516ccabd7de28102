import PredicatedMesh.IR.DFGVerifier
import PredicatedMesh.Target.DFGVerifier

/-!
# Legalization

`TargetLegalizer.legalize` binds every node of a generic graph to one operation of the target
contract. A preflight looks at every value type and every node and collects what the target cannot
do; only a clean preflight is followed by the construction of the target graph, in which nodes and
edges are renumbered from zero in the order of the generic graph and everything an edge carries is
copied.
-/

namespace PredicatedMesh

open Scan

inductive LegalizationStatus
  | success
  | invalidGenericDFG
  | unsupportedType
  | unsupportedOperation
  | unsupportedComparePredicate
  | unsupportedMemoryAccessWidth
  | noCompatibleExecutionResource
  | targetContractError
  | internalError
  deriving DecidableEq, Repr

structure LegalizationDiagnostic where
  status : LegalizationStatus
  code : String
  message : String
  genericNode : Option ℕ := none
  deriving DecidableEq, Repr

/-- The target nodes each generic node became. -/
abbrev LegalizationMap := List (ℕ × List TargetNodeId)

structure TargetLegalizationResult where
  dfg : Option TargetDFG
  map : LegalizationMap
  diagnostics : List LegalizationDiagnostic
  deriving DecidableEq, Repr

def TargetLegalizationResult.ok (result : TargetLegalizationResult) : Bool :=
  result.dfg.isSome && result.diagnostics.isEmpty

namespace TargetLegalizer

/-! ## The preflight -/

/-- The operation of the contract that does what a node does, empty if there is none. -/
def operationFor (node : Node) : String :=
  match node.opcode with
  | .add => "ADD"
  | .sub => "SUB"
  | .mul => "MUL"
  | .and => "AND"
  | .or => "OR"
  | .xor => "XOR"
  | .shl => "SHL"
  | .lshr => "LSHR"
  | .ashr => "ASHR"
  | .select => "SELECT"
  | .load => "LOAD"
  | .store => "STORE"
  | .icmp =>
    match node.icmpPredicate with
    | none => ""
    | some .eq => "CMP_EQ"
    | some .ne => "CMP_NE"
    | some .ult => "CMP_ULT"
    | some .ule => "CMP_ULE"
    | some .ugt => "CMP_UGT"
    | some .uge => "CMP_UGE"
    | some .slt => "CMP_SLT"
    | some .sle => "CMP_SLE"
    | some .sgt => "CMP_SGT"
    | some .sge => "CMP_SGE"

def unsupportedType (message : String) (node : Option ℕ) : LegalizationDiagnostic :=
  { status := .unsupportedType, code := "TLEG_UNSUPPORTED_TYPE", message := message
    genericNode := node }

/-- A missing operation is a missing compare predicate when the node is a compare. -/
def unsupportedOperation (node : Node) (code message : String) : LegalizationDiagnostic :=
  if node.opcode = .icmp then
    { status := .unsupportedComparePredicate, code := "TLEG_UNSUPPORTED_ICMP_PREDICATE"
      message := message, genericNode := some node.id }
  else
    { status := .unsupportedOperation, code := code, message := message
      genericNode := some node.id }

def contractError (node : Node) (operation problem : String) : LegalizationDiagnostic :=
  { status := .targetContractError, code := "TLEG_INVALID_TARGET_OPERATION_DESC"
    message := "target operation " ++ operation ++ problem, genericNode := some node.id }

section Preflight

variable (target : TargetModel)

/-- Whether a memory operation accesses words of another width than the node. -/
def accessWidthUnsupported (node : Node) (operation : TargetOperationDesc) : Bool :=
  DFGVerifier.isMemoryOpcode node.opcode
  && match node.memoryInfo, operation.accessWidthBits with
    | some info, some width => info.accessWidthBits != width
    | _, _ => true

/-- Whether the operands and the result of the node have the roles of the operation. -/
def signatureMatches (node : Node) (operation : TargetOperationDesc) : Bool :=
  (node.operandTypes.zip operation.operands).all (fun operand ↦
    TargetDFGVerifier.roleMatches operand.2.role operand.1)
  && TargetDFGVerifier.resultRoleMatches operation.resultRole node.resultType

/-- The operation a node is bound to, or the first reason why there is none. -/
def planNode (node : Node) : Except LegalizationDiagnostic TargetOperationDesc :=
  if !(target.supportsValueType node.resultType
      && node.operandTypes.all target.supportsValueType) then
    .error (unsupportedType ("node " ++ node.opcode.toString
      ++ " uses a type unsupported by target")
      (some node.id))
  else
    let operationName := operationFor node
    if operationName = "" then
      .error (unsupportedOperation node "TLEG_UNSUPPORTED_OPCODE"
        ("target has no one-to-one operation for " ++ node.opcode.toString))
    else
      match target.findOperation operationName with
      | none =>
        .error (unsupportedOperation node "TLEG_MISSING_TARGET_OPERATION"
          ("target does not provide operation " ++ operationName))
      | some operation =>
        if !target.isOperationExecutable operation then
          .error
            { status := .noCompatibleExecutionResource
              code := "TLEG_NO_COMPATIBLE_EXECUTION_RESOURCE"
              message := "target operation " ++ operationName
                ++ " has no compatible execution resource"
              genericNode := some node.id }
        else if accessWidthUnsupported node operation then
          .error
            { status := .unsupportedMemoryAccessWidth
              code := "TLEG_UNSUPPORTED_MEMORY_ACCESS_WIDTH"
              message := "memory operation width is not supported by target"
              genericNode := some node.id }
        else if node.operandTypes.length < operation.operands.countP (fun operand ↦
            !operand.optional) ∨ node.operandTypes.length > operation.operands.length then
          .error (contractError node operationName " has an incompatible operand count")
        else if !signatureMatches node operation then
          .error (contractError node operationName
            " semantic signature does not match Generic DFG")
        else if operation.resultType ≠ node.resultType then
          .error (contractError node operationName " result type does not match Generic DFG")
        else .ok operation

/-- The diagnostic of a node without an operation. -/
def nodeDiagnostic (node : Node) : Option LegalizationDiagnostic :=
  match planNode target node with
  | .error diagnostic => some diagnostic
  | .ok _ => none

/-- Everything the target cannot do. -/
def preflight (generic : DFG) : List LegalizationDiagnostic :=
  (generic.externalValues.flatMap fun value ↦ require (target.supportsValueType value.type)
    (unsupportedType ("external value type " ++ value.type.toString
      ++ " is not supported by target") none))
  ++ (generic.constants.flatMap fun value ↦ require (target.supportsValueType value.type)
    (unsupportedType ("constant type " ++ value.type.toString
      ++ " is not supported by target") none))
  ++ generic.nodes.filterMap (nodeDiagnostic target)
  ++ generic.liveOuts.flatMap fun value ↦ require (target.supportsValueType value.type)
    (unsupportedType ("live-out type " ++ value.type.toString
      ++ " is not supported by target") (some value.source))

/-- The generic nodes with the operations they are bound to. -/
def plan (generic : DFG) : List (Node × TargetOperationDesc) :=
  generic.nodes.filterMap fun node ↦
    match planNode target node with
    | .error _ => none
    | .ok operation => some (node, operation)

end Preflight

/-! ## Construction -/

/-- The first target node a generic node became. -/
def targetOf (map : LegalizationMap) (id : ℕ) : Except String TargetNodeId :=
  match map.find? fun entry ↦ entry.1 == id with
  | some (_, node :: _) => .ok node
  | _ => .error "map::at"

def targetNode (item : (Node × TargetOperationDesc) × ℕ) : TargetNode :=
  let operation := item.1.2
  { id := item.2
    operation := operation.id
    executionClass := operation.executionClass
    resultType := item.1.1.resultType
    operandTypes := item.1.1.operandTypes
    issueOccupancy := operation.issueOccupancy
    resultLatency := operation.resultLatency
    genericOrigins := [item.1.1.id]
    producerOutputReadyOffset := operation.producerOutputReadyOffset
    accessWidthBits := operation.accessWidthBits }

def targetEdge (map : LegalizationMap) (item : Edge × ℕ) : Except String TargetEdge := do
  let src ← targetOf map item.1.src
  let dst ← targetOf map item.1.dst
  return ⟨item.2, src, dst, item.1.distance, item.1.info⟩

def targetBinding (map : LegalizationMap) (binding : OperandBinding) :
    Except String TargetOperandBinding := do
  let node ← targetOf map binding.node
  return ⟨node, binding.operand, binding.source⟩

def targetLiveOut (map : LegalizationMap) (liveOut : LiveOut) : Except String TargetLiveOut := do
  let source ← targetOf map liveOut.source
  return ⟨liveOut.id, liveOut.type, liveOut.name, source⟩

/-- The order the bindings are kept in. -/
def bindingLe (a b : TargetOperandBinding) : Prop :=
  a.node < b.node ∨ a.node = b.node ∧ a.operand ≤ b.operand

instance : DecidableRel bindingLe := fun a b ↦
  inferInstanceAs (Decidable (a.node < b.node ∨ a.node = b.node ∧ a.operand ≤ b.operand))

def materialize (generic : DFG) (target : TargetModel) (items : List (Node × TargetOperationDesc)) :
    Except String (TargetDFG × LegalizationMap) := do
  let nodes := items.zipIdx.map targetNode
  let map := items.zipIdx.map fun item ↦ (item.1.1.id, [item.2])
  let edges ← generic.edges.zipIdx.mapM (targetEdge map)
  let bindings ← generic.externalBindings.mapM (targetBinding map)
  let liveOuts ← generic.liveOuts.mapM (targetLiveOut map)
  let dfg : TargetDFG :=
    { name := generic.name
      targetName := target.name
      nodes := nodes
      edges := edges
      externalValues := generic.externalValues
      constants := generic.constants
      liveOuts := liveOuts
      operandBindings := bindings.insertionSort bindingLe
      incomingEdges := nodes.map fun node ↦
        (edges.filter fun edge ↦ edge.dst == node.id).map TargetEdge.id
      outgoingEdges := nodes.map fun node ↦
        (edges.filter fun edge ↦ edge.src == node.id).map TargetEdge.id }
  return (dfg, map)

def legalize (generic : DFG) (target : TargetModel) : Except String TargetLegalizationResult :=
  if !(DFGVerifier.verify generic).isEmpty then
    .ok
      { dfg := none, map := []
        diagnostics :=
          [{ status := .invalidGenericDFG, code := "TLEG_INVALID_GENERIC_DFG"
             message := DFGVerifier.format (DFGVerifier.verify generic) }] }
  else if !(preflight target generic).isEmpty then
    .ok { dfg := none, map := [], diagnostics := preflight target generic }
  else do
    let (dfg, map) ← materialize generic target (plan target generic)
    return { dfg := some dfg, map := map, diagnostics := [] }

/-! ## What a legalized graph keeps -/

/-- A target graph that has the constants of a generic graph, and edges that carry what edges of
the generic graph carry. -/
structure Keeps (generic : DFG) (dfg : TargetDFG) : Prop where
  constants_eq : dfg.constants = generic.constants
  edge : ∀ edge ∈ dfg.edges, ∃ origin ∈ generic.edges,
    edge.distance = origin.distance ∧ edge.info = origin.info

theorem keeps_of_materialize {generic : DFG} {target : TargetModel}
    {items : List (Node × TargetOperationDesc)} {dfg : TargetDFG} {map : LegalizationMap}
    (h : materialize generic target items = .ok (dfg, map)) : Keeps generic dfg := by
  obtain ⟨edges, hedges, h⟩ := bind_eq_ok.mp h
  obtain ⟨bindings, -, h⟩ := bind_eq_ok.mp h
  obtain ⟨liveOuts, -, h⟩ := bind_eq_ok.mp h
  obtain ⟨rfl, -⟩ := Prod.mk.inj (Except.ok.inj h)
  refine ⟨rfl, ?_⟩
  intro edge hedge
  obtain ⟨item, hitem, hcopied⟩ := exists_source_of_mem hedges hedge
  obtain ⟨src, -, hcopied⟩ := bind_eq_ok.mp hcopied
  obtain ⟨dst, -, hcopied⟩ := bind_eq_ok.mp hcopied
  obtain rfl := Except.ok.inj hcopied
  exact ⟨item.1, List.fst_mem_of_mem_zipIdx hitem, rfl, rfl⟩

/-- **Legalization accepts verified graphs only, and keeps what their edges carry.** -/
theorem keeps_of_legalize {generic : DFG} {target : TargetModel}
    {result : TargetLegalizationResult} {dfg : TargetDFG}
    (h : legalize generic target = .ok result) (hdfg : result.dfg = some dfg) :
    DFGVerifier.verify generic = [] ∧ Keeps generic dfg := by
  unfold legalize at h
  split at h
  · obtain rfl := Except.ok.inj h
    cases hdfg
  · rename_i hverified
    split at h
    · obtain rfl := Except.ok.inj h
      cases hdfg
    · obtain ⟨⟨built, map⟩, hbuilt, h⟩ := bind_eq_ok.mp h
      obtain rfl := Except.ok.inj h
      obtain rfl := Option.some.inj hdfg
      exact ⟨by simpa using hverified, keeps_of_materialize hbuilt⟩

end TargetLegalizer

end PredicatedMesh
