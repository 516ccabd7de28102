import PredicatedMesh.Mapping.VerifierSpec

/-!
# Staged mappings

A stage turns a modulo slot into a logical time: iteration zero of a node issues at
`stage * ii + issueSlot`, and iteration `k` exactly `k * ii` cycles later. The stage verifier asks
that these times satisfy every dependence with the separation its realization needs.

All arithmetic is on unsigned 64-bit integers behind explicit range checks. The checks are kept as
the source writes them, and each comes with the lemma that says what passing it means.
-/

namespace PredicatedMesh

open Scan

/-! ## Unsigned 64-bit arithmetic -/

/-- The largest unsigned 64-bit integer. -/
def uint64Max : ℕ := 2 ^ 64 - 1

/-- `lhs * multiplier + addend`, unless it does not fit. -/
def checkedMultiplyAdd (lhs multiplier addend : ℕ) : Option ℕ :=
  if multiplier ≠ 0 ∧ lhs > (uint64Max - addend) / multiplier then none
  else some (lhs * multiplier + addend)

theorem checkedMultiplyAdd_eq_some {lhs multiplier addend r : ℕ}
    (h : checkedMultiplyAdd lhs multiplier addend = some r) : r = lhs * multiplier + addend := by
  unfold checkedMultiplyAdd at h
  split at h
  · cases h
  · exact (Option.some.inj h).symm

/-! ## The staged mapping -/

structure NodeStage where
  node : TargetNodeId
  stage : ℕ
  deriving DecidableEq, Repr

/-- A modulo mapping with a pipeline stage for every node. The constructor sorts the stages by node
and rejects a node listed twice. -/
structure StagedMapping where
  modulo : ModuloMapping
  stages : List NodeStage
  /-- The stages are in the order of their nodes, one per node. -/
  sorted : (stages.map NodeStage.node).Pairwise (· < ·) := by decide

/-- The exceptions a logical time can raise. -/
inductive StagedError
  | overflowError (message : String)
  | outOfRange (message : String)
  deriving DecidableEq, Repr

namespace StagedMapping

variable (mapping : StagedMapping)

def stage (node : TargetNodeId) : Except StagedError ℕ :=
  match mapping.stages.find? fun entry ↦ entry.node == node with
  | none => .error (.outOfRange "staged mapping has no stage for target node")
  | some entry => .ok entry.stage

def logicalIssueTime (node : TargetNodeId) : Except StagedError ℕ :=
  match mapping.modulo.placement node with
  | .error message => .error (.outOfRange message)
  | .ok placement =>
    match mapping.stage node with
    | .error e => .error e
    | .ok stageValue =>
      let ii := mapping.modulo.ii
      if ii ≠ 0 ∧ stageValue > (uint64Max - placement.issueSlot) / ii then
        .error (.overflowError "staged mapping logical issue time overflows uint64")
      else if stageValue * ii > uint64Max - placement.issueSlot then
        .error (.overflowError "staged mapping logical issue time overflows uint64")
      else
        .ok (stageValue * ii + placement.issueSlot)

variable {mapping}

theorem logicalIssueTime_eq_ok {node : TargetNodeId} {time : ℕ}
    (h : mapping.logicalIssueTime node = .ok time) : ∃ placement stageValue,
      mapping.modulo.placement node = .ok placement ∧ mapping.stage node = .ok stageValue ∧
      time = stageValue * mapping.modulo.ii + placement.issueSlot := by
  unfold logicalIssueTime at h
  split at h
  · cases h
  · rename_i placement hplacement
    split at h
    · cases h
    · rename_i stageValue hstage
      simp only at h
      split at h
      · cases h
      · split at h
        · cases h
        · exact ⟨placement, stageValue, hplacement, hstage, (Except.ok.inj h).symm⟩

end StagedMapping

/-! ## The stage verifier -/

inductive StageAssignmentDiagnosticCode
  | invalidTargetDFG
  | invalidModuloMapping
  | unknownNode
  | missingStage
  | outputArithmeticOverflow
  | constraintViolation
  deriving DecidableEq, Repr

structure StageAssignmentDiagnostic where
  code : StageAssignmentDiagnosticCode
  message : String
  node : Option TargetNodeId := none
  edge : Option TargetEdgeId := none
  deriving DecidableEq, Repr

namespace StageAssignmentVerifier

def formatDiagnostic (diagnostic : StageAssignmentDiagnostic) : String :=
  "[stage] " ++ diagnostic.message
    ++ (diagnostic.node.elim "" fun node ↦ " node=" ++ toString node)
    ++ (diagnostic.edge.elim "" fun edge ↦ " edge=" ++ toString edge) ++ "\n"

def format (report : List StageAssignmentDiagnostic) : String :=
  String.join (report.map formatDiagnostic)

section Verify

variable (dfg : TargetDFG) (target : TargetModel) (mapping : StagedMapping)

/-- Every node has a stage and every stage has a node. -/
def checkStages : List StageAssignmentDiagnostic :=
  require (mapping.stages.length == dfg.nodes.length)
    { code := .missingStage
      message := "staged mapping must contain exactly one stage per TargetDFG node" }
  ++ (mapping.stages.flatMap fun entry ↦ require (dfg.containsNode entry.node)
    { code := .unknownNode, message := "staged mapping contains an unknown target node"
      node := some entry.node })
  ++ dfg.nodes.flatMap fun node ↦
    require (mapping.stages.any fun entry ↦ entry.node == node.id)
      { code := .missingStage, message := "TargetDFG node has no stage", node := some node.id }

def checkLogicalTime (node : TargetNode) : List StageAssignmentDiagnostic :=
  match mapping.logicalIssueTime node.id with
  | .ok _ => []
  | .error (.overflowError message) =>
    [{ code := .outputArithmeticOverflow, message := message, node := some node.id }]
  | .error (.outOfRange message) =>
    [{ code := .missingStage, message := message, node := some node.id }]

/-- The dependence constraint of one edge between the times of its endpoints. -/
def checkConstraint (edge : TargetEdge) (src dst : ℕ) (dependence : MappedDependence) :
    List StageAssignmentDiagnostic :=
  match checkedMultiplyAdd edge.distance mapping.modulo.ii dst with
  | none =>
    [{ code := .outputArithmeticOverflow, message := "logical dependence time overflows uint64"
       edge := some edge.id }]
  | some lhs =>
    if src > uint64Max - dependence.requiredSeparationCycles then
      [{ code := .outputArithmeticOverflow
         message := "dependence separation addition overflows uint64", edge := some edge.id }]
    else
      require (src + dependence.requiredSeparationCycles ≤ lhs)
        { code := .constraintViolation
          message := "staged logical-time dependence constraint is violated"
          edge := some edge.id }

def checkEdge (edge : TargetEdge) : Except String (List StageAssignmentDiagnostic) :=
  match mapping.logicalIssueTime edge.src, mapping.logicalIssueTime edge.dst with
  | .ok src, .ok dst =>
    match mapping.modulo.dependence edge.id with
    | .error e => .error e
    | .ok dependence => .ok (checkConstraint mapping edge src dst dependence)
  | _, _ => .error "map::at"

/-- The report; the stages are accepted when the verifier returns and the report is empty. -/
def verify : Except String (List StageAssignmentDiagnostic) :=
  stage (require (TargetDFGVerifier.verify dfg target).isEmpty
    { code := .invalidTargetDFG
      message := "TargetDFG precondition failed: "
        ++ TargetDFGVerifier.format (TargetDFGVerifier.verify dfg target) }) <|
  stage (require (dfg.targetName == target.name)
    { code := .invalidTargetDFG
      message := "TargetDFG target name does not match selected TargetModel" }) <|
  match ModuloMappingVerifier.verify dfg target mapping.modulo with
  | .error e => .error e
  | .ok moduloReport =>
    stage (require moduloReport.isEmpty
      { code := .invalidModuloMapping
        message := "ModuloMapping precondition failed: "
          ++ ModuloMappingVerifier.format moduloReport }) <|
    stage (checkStages dfg mapping) <|
    stage (dfg.nodes.flatMap (checkLogicalTime mapping)) <|
    stage (require (mapping.modulo.ii != 0)
      { code := .invalidModuloMapping, message := "modulo mapping II must be positive" }) <|
    each (checkEdge mapping) dfg.edges

end Verify

end StageAssignmentVerifier

/-! ## What an accepted staged mapping satisfies -/

/-- Every node has a logical time, and the times respect every dependence. -/
structure StagedMapping.Verified (dfg : TargetDFG) (target : TargetModel)
    (mapping : StagedMapping) : Prop where
  modulo : mapping.modulo.Verified dfg target
  times : ∀ node ∈ dfg.nodes, ∃ time, mapping.logicalIssueTime node.id = .ok time
  constraints : ∀ edge ∈ dfg.edges, ∃ src dst dependence,
    mapping.logicalIssueTime edge.src = .ok src ∧ mapping.logicalIssueTime edge.dst = .ok dst ∧
    mapping.modulo.dependence edge.id = .ok dependence ∧
    src + dependence.requiredSeparationCycles ≤ edge.distance * mapping.modulo.ii + dst

namespace StageAssignmentVerifier

variable {dfg : TargetDFG} {target : TargetModel} {mapping : StagedMapping}

theorem time_of_checkLogicalTime {node : TargetNode} (h : checkLogicalTime mapping node = []) :
    ∃ time, mapping.logicalIssueTime node.id = .ok time := by
  unfold checkLogicalTime at h
  split at h
  · rename_i time htime
    exact ⟨time, htime⟩
  · cases h
  · cases h

theorem le_of_checkConstraint {edge : TargetEdge} {src dst : ℕ} {dependence : MappedDependence}
    (h : checkConstraint mapping edge src dst dependence = []) :
    src + dependence.requiredSeparationCycles ≤ edge.distance * mapping.modulo.ii + dst := by
  unfold checkConstraint at h
  split at h
  · cases h
  · rename_i lhs hlhs
    split at h
    · cases h
    · rw [require_eq_nil_iff, decide_eq_true_eq] at h
      rwa [checkedMultiplyAdd_eq_some hlhs] at h

theorem constraint_of_checkEdge {edge : TargetEdge} (h : checkEdge mapping edge = .ok []) :
    ∃ src dst dependence, mapping.logicalIssueTime edge.src = .ok src ∧
      mapping.logicalIssueTime edge.dst = .ok dst ∧
      mapping.modulo.dependence edge.id = .ok dependence ∧
      src + dependence.requiredSeparationCycles ≤ edge.distance * mapping.modulo.ii + dst := by
  unfold checkEdge at h
  split at h
  · rename_i src dst hsrc hdst
    split at h
    · cases h
    · rename_i dependence hdep
      exact ⟨src, dst, dependence, hsrc, hdst, hdep, le_of_checkConstraint (Except.ok.inj h)⟩
  · cases h

/-- **The verifier's contract.** -/
theorem verified_of_verify (h : verify dfg target mapping = .ok []) :
    mapping.Verified dfg target := by
  simp only [verify, stage_eq_ok_nil_iff, require_eq_nil_iff, List.isEmpty_iff] at h
  obtain ⟨-, -, hrest⟩ := h
  split at hrest
  · cases hrest
  · rename_i moduloReport hmodulo
    simp only [stage_eq_ok_nil_iff, require_eq_nil_iff, List.isEmpty_iff,
      List.flatMap_eq_nil_iff] at hrest
    obtain ⟨rfl, -, htimes, -, hedges⟩ := hrest
    exact
      { modulo := ModuloMappingVerifier.verified_of_verify hmodulo
        times := fun node hnode ↦ time_of_checkLogicalTime (htimes node hnode)
        constraints := fun edge hedge ↦
          constraint_of_checkEdge (each_clean_iff.mp hedges edge hedge) }

end StageAssignmentVerifier

end PredicatedMesh
