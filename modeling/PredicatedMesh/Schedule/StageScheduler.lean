import PredicatedMesh.Schedule.SignedTime

/-!
# The stage scheduler

A modulo mapping fixes slots; the scheduler adds the stages. A dependence asks the stage of its
destination to exceed the stage of its source by a minimum, the separation less the slot difference,
in intervals, rounded up, less the distance. The scheduler starts from stage zero everywhere and
relaxes the constraints in the order of their edges, for as many rounds as there are nodes or until
a round changes nothing. A change in the last round is taken for a positive cycle, which is read off
the predecessors noted along the way; otherwise the stages are handed to the stage verifier.
-/

namespace PredicatedMesh

open Scan

/-! ## Results -/

inductive StageSchedulingStatus
  | success
  | invalidTargetDFG
  | invalidModuloMapping
  | infeasibleStageConstraints
  | arithmeticOverflow
  | verificationFailure
  | internalError
  deriving DecidableEq, Repr

inductive StageSchedulingDiagnosticCode
  | invalidTargetDFG
  | invalidModuloMapping
  | constraintArithmeticOverflow
  | infeasiblePositiveCycle
  | outputArithmeticOverflow
  | finalVerificationFailed
  | internalError
  deriving DecidableEq, Repr

structure StageSchedulingDiagnostic where
  code : StageSchedulingDiagnosticCode
  message : String
  node : Option TargetNodeId := none
  edge : Option TargetEdgeId := none
  deriving DecidableEq, Repr

/-- What an edge asks of the stages of its ends. -/
structure StageConstraint where
  edge : TargetEdgeId
  src : TargetNodeId
  dst : TargetNodeId
  minimumStageDelta : ℤ
  distance : ℕ
  requiredSeparationCycles : ℕ
  deriving DecidableEq, Repr

structure StageConstraintCycleWitness where
  nodes : List TargetNodeId
  edges : List TargetEdgeId
  totalMinimumStageDelta : ℤ
  deriving DecidableEq, Repr

structure StageSchedulingResult where
  status : StageSchedulingStatus := .internalError
  mapping : Option StagedMapping := none
  witness : Option StageConstraintCycleWitness := none
  diagnostics : List StageSchedulingDiagnostic := []

/-- The constructor of staged mappings: the stages are sorted by node, and a node listed twice is
rejected. -/
def StagedMapping.create (modulo : ModuloMapping) (stages : List NodeStage) :
    Except String StagedMapping :=
  let sortedStages := stages.insertionSort fun lhs rhs ↦ lhs.node ≤ rhs.node
  if h : (sortedStages.map NodeStage.node).Pairwise (· < ·) then .ok ⟨modulo, sortedStages, h⟩
  else .error "staged mapping contains duplicate node stage"

namespace StageScheduler

/-- How scheduling ends early: by an exception, or by returning a result. -/
inductive Stop
  | thrown (message : String)
  | returned (result : StageSchedulingResult)

def failed (status : StageSchedulingStatus) (diagnostic : StageSchedulingDiagnostic) :
    StageSchedulingResult := { status := status, diagnostics := [diagnostic] }

def returnFailure {α : Type} (status : StageSchedulingStatus)
    (diagnostic : StageSchedulingDiagnostic) : Except Stop α :=
  .error (.returned (failed status diagnostic))

def overflow {α : Type} (message : String) (node : Option TargetNodeId)
    (edge : Option TargetEdgeId) : Except Stop α :=
  returnFailure .arithmeticOverflow ⟨.constraintArithmeticOverflow, message, node, edge⟩

def checkedSignedAdd (lhs rhs : ℤ) : Option ℤ := addSigned lhs rhs

/-! ## Constraints -/

/-- The quotient rounded up. Division truncates toward zero. -/
def ceilDivSigned (numerator positiveDenominator : ℤ) : Except Stop ℤ :=
  if positiveDenominator ≤ 0 then
    .error (.thrown "signed ceil division requires a positive denominator")
  else
    let quotient := numerator.tdiv positiveDenominator
    let remainder := numerator.tmod positiveDenominator
    if remainder ≠ 0 ∧ numerator > 0 then
      if quotient = int64Max then overflow "signed ceil division overflows int64" none none
      else .ok (quotient + 1)
    else .ok quotient

/-- A lookup whose exception is caught: the mapping is to blame. -/
def lookup {α : Type} : Except String α → Except Stop α
  | .ok a => .ok a
  | .error message =>
    returnFailure .invalidModuloMapping ⟨.invalidModuloMapping, message, none, none⟩

def constraintFor (mapping : ModuloMapping) (edge : TargetEdge) : Except Stop StageConstraint := do
  let source ← lookup (mapping.placement edge.src)
  let destination ← lookup (mapping.placement edge.dst)
  let dependence ← lookup (mapping.dependence edge.id)
  let slotDifference : ℤ := destination.issueSlot - source.issueSlot
  let numerator : ℤ := dependence.requiredSeparationCycles - slotDifference
  let delta ← ceilDivSigned numerator mapping.ii
  if (edge.distance : ℤ) > delta ∧ delta < int64Min + edge.distance then
    overflow "stage constraint distance subtraction overflows int64" none (some edge.id)
  else
    return ⟨edge.id, edge.src, edge.dst, delta - edge.distance, edge.distance,
      dependence.requiredSeparationCycles⟩

/-! ## Relaxation -/

/-- The ids of the nodes in order; an index is a position among them. -/
def nodeIds (dfg : TargetDFG) : List TargetNodeId :=
  (dfg.nodes.map TargetNode.id).insertionSort (· ≤ ·)

def nodeIndex (nodes : List TargetNodeId) (id : TargetNodeId) : Option ℕ :=
  nodes.findIdx? fun node ↦ node == id

/-- The stages so far and where each came from. A round has changed something when `lastUpdated` is
set. -/
structure Relaxing where
  stages : List ℕ
  predecessor : List (Option ℕ)
  predecessorEdge : List (Option TargetEdgeId)
  lastUpdated : Option ℕ
  deriving DecidableEq, Repr

def relaxStep (nodes : List TargetNodeId) (state : Relaxing) (constraint : StageConstraint) :
    Except Stop Relaxing :=
  match nodeIndex nodes constraint.src, nodeIndex nodes constraint.dst with
  | some sourceIndex, some destinationIndex =>
    let stage := state.stages.getD sourceIndex 0
    if (stage : ℤ) > int64Max then
      overflow "stage relaxation overflows uint64" (some constraint.dst) (some constraint.edge)
    else
      match checkedSignedAdd stage constraint.minimumStageDelta with
      | none =>
        overflow "stage relaxation overflows int64" (some constraint.dst) (some constraint.edge)
      | some signedCandidate =>
        if signedCandidate > 0 ∧ signedCandidate.toNat > state.stages.getD destinationIndex 0 then
          .ok
            { stages := state.stages.set destinationIndex signedCandidate.toNat
              predecessor := state.predecessor.set destinationIndex (some sourceIndex)
              predecessorEdge := state.predecessorEdge.set destinationIndex (some constraint.edge)
              lastUpdated := some destinationIndex }
        else .ok state
  | _, _ => .error (.thrown "map::at")

def relaxRound (nodes : List TargetNodeId) (constraints : List StageConstraint) (state : Relaxing) :
    Except Stop Relaxing :=
  constraints.foldlM (relaxStep nodes) { state with lastUpdated := none }

/-- Relax for a number of rounds, or until a round changes nothing. The result names the node that
the last of all rounds still changed. -/
def relaxRounds (nodes : List TargetNodeId) (constraints : List StageConstraint) :
    ℕ → Relaxing → Except Stop (Option ℕ × Relaxing)
  | 0, state => .ok (none, state)
  | rounds + 1, state => do
    let state ← relaxRound nodes constraints state
    match state.lastUpdated with
    | none => return (none, state)
    | some updated =>
      if rounds = 0 then return (some updated, state)
      else relaxRounds nodes constraints rounds state

def initial (nodeCount : ℕ) : Relaxing :=
  ⟨List.replicate nodeCount 0, List.replicate nodeCount none, List.replicate nodeCount none, none⟩

/-- The constraints in the order of the edges of the graph, and what relaxing them led to. -/
def relax (dfg : TargetDFG) (mapping : ModuloMapping) :
    Except Stop (List StageConstraint × Option ℕ × Relaxing) := do
  let constraints ← dfg.edges.mapM (constraintFor mapping)
  let ordered := constraints.insertionSort fun lhs rhs ↦ lhs.edge ≤ rhs.edge
  let nodes := nodeIds dfg
  let relaxed ← relaxRounds nodes ordered nodes.length (initial nodes.length)
  return (constraints, relaxed)

/-! ## The witness -/

/-- Follow the predecessors back `count` times. -/
def followBack (state : Relaxing) : ℕ → ℕ → Option ℕ
  | 0, current => some current
  | count + 1, current =>
    match state.predecessor.getD current none, state.predecessorEdge.getD current none with
    | some previous, some _ => followBack state count previous
    | _, _ => none

/-- The cycle through a node, backwards: each node with the edge that enters it. The fuel is the
number of nodes that may be collected. -/
def collectCycle (state : Relaxing) (cycleStart : ℕ) : ℕ → ℕ → Option (List (ℕ × TargetEdgeId))
  | 0, _ => none
  | fuel + 1, current =>
    match state.predecessor.getD current none, state.predecessorEdge.getD current none with
    | some previous, some edge =>
      if previous = cycleStart then some [(current, edge)]
      else (collectCycle state cycleStart fuel previous).map fun rest ↦ (current, edge) :: rest
    | _, _ => none

/-- The sum of what the edges ask for. -/
def totalDelta (byEdge : List StageConstraint) (edges : List TargetEdgeId) : Option ℤ :=
  edges.foldlM (fun total edge ↦ do
    let found ← byEdge.find? fun constraint ↦ constraint.edge == edge
    checkedSignedAdd total found.minimumStageDelta) 0

def witnessFor (nodes : List TargetNodeId) (state : Relaxing) (updated : ℕ)
    (byEdge : List StageConstraint) : Option StageConstraintCycleWitness := do
  let cycleStart ← followBack state nodes.length updated
  let cycle ← collectCycle state cycleStart (nodes.length + 1) cycleStart
  let cycleNodes := cycle.map fun entry ↦ nodes.getD entry.1 0
  let cycleEdges := cycle.map Prod.snd
  let minimum ← cycleNodes.min?
  let rotateBy := cycleNodes.idxOf minimum
  let cycleNodes := cycleNodes.rotate rotateBy
  let cycleEdges := cycleEdges.rotate rotateBy
  let total ← totalDelta byEdge cycleEdges
  return ⟨cycleNodes, cycleEdges, total⟩

/-! ## Scheduling -/

/-- The staged mapping of the stages that relaxation ended with. -/
def staged (dfg : TargetDFG) (mapping : ModuloMapping) (state : Relaxing) :
    Except String StagedMapping :=
  StagedMapping.create mapping ((nodeIds dfg).zipWith NodeStage.mk state.stages)

/-- The last part: the stages are checked before they are returned. -/
def conclude (dfg : TargetDFG) (target : TargetModel) (mapping : ModuloMapping) (state : Relaxing) :
    StageSchedulingResult :=
  match staged dfg mapping state with
  | .error message => failed .internalError ⟨.internalError, message, none, none⟩
  | .ok staged =>
    -- the largest logical time is computed for the statistics, and may overflow
    match dfg.nodes.mapM fun node ↦ staged.logicalIssueTime node.id with
    | .error (.overflowError message) =>
      failed .arithmeticOverflow ⟨.outputArithmeticOverflow, message, none, none⟩
    | .error (.outOfRange message) =>
      failed .internalError ⟨.internalError, message, none, none⟩
    | .ok _ =>
      match StageAssignmentVerifier.verify dfg target staged with
      | .error message => failed .internalError ⟨.internalError, message, none, none⟩
      | .ok verification =>
        if !verification.isEmpty then
          failed .verificationFailure
            ⟨.finalVerificationFailed, StageAssignmentVerifier.format verification, none, none⟩
        else { status := .success, mapping := some staged }

def scheduleOrStop (dfg : TargetDFG) (target : TargetModel) (mapping : ModuloMapping) :
    Except Stop StageSchedulingResult :=
  let targetReport := TargetDFGVerifier.verify dfg target
  if !targetReport.isEmpty then
    returnFailure .invalidTargetDFG ⟨.invalidTargetDFG,
      "TargetDFG precondition failed: " ++ TargetDFGVerifier.format targetReport, none, none⟩
  else if dfg.targetName ≠ target.name then
    returnFailure .invalidTargetDFG ⟨.invalidTargetDFG,
      "TargetDFG target name does not match selected TargetModel", none, none⟩
  else if mapping.ii = 0 then
    returnFailure .invalidModuloMapping ⟨.invalidModuloMapping,
      "modulo mapping II must be at least one", none, none⟩
  else
    match ModuloMappingVerifier.verify dfg target mapping with
    | .error message => .error (.thrown message)
    | .ok moduloReport =>
      if !moduloReport.isEmpty then
        returnFailure .invalidModuloMapping ⟨.invalidModuloMapping,
          "ModuloMapping precondition failed: " ++ ModuloMappingVerifier.format moduloReport,
          none, none⟩
      else do
        let (constraints, infeasible, state) ← relax dfg mapping
        match infeasible with
        | some updated =>
          return { failed .infeasibleStageConstraints ⟨.infeasiblePositiveCycle,
              "positive stage-constraint cycle makes this mapping infeasible", none, none⟩ with
            witness := witnessFor (nodeIds dfg) state updated constraints }
        | none => return conclude dfg target mapping state

/-- The scheduler: a result, or an exception. -/
def schedule (dfg : TargetDFG) (target : TargetModel) (mapping : ModuloMapping) :
    Except String StageSchedulingResult :=
  match scheduleOrStop dfg target mapping with
  | .ok result => .ok result
  | .error (.returned result) => .ok result
  | .error (.thrown message) => .error message

end StageScheduler

end PredicatedMesh
