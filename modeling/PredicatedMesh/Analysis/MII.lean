import PredicatedMesh.Schedule.Staged

/-!
# The minimum initiation interval

The analyzer bounds the initiation interval from below before anything is mapped. The resource bound
compares the demand for units, in issue slots, with how many units there are: for the longest
operation, for all function units, for all load-store units and for each operation by itself. The
recurrence bound is the least interval for which the dependences, as difference constraints between
issue times, have a solution; it is found by bisection, and each candidate is decided by relaxing
the constraints for as many rounds as there are nodes.
-/

namespace PredicatedMesh

/-! ## Results -/

inductive MIIStatus
  | success
  | invalidTargetDFG
  | noCompatibleResource
  | unschedulableZeroDistanceCycle
  | targetContractError
  | internalError
  deriving DecidableEq, Repr

inductive MIIAnalysisDiagnosticCode
  | invalidTargetDFG
  | noCompatibleResource
  | zeroDistanceCycle
  | targetLatencyMissing
  | targetOccupancyInvalid
  | targetMemoryTimingMissing
  | arithmeticOverflow
  | internalError
  deriving DecidableEq, Repr

structure MIIAnalysisDiagnostic where
  code : MIIAnalysisDiagnosticCode
  message : String
  node : Option TargetNodeId := none
  edge : Option TargetEdgeId := none
  deriving DecidableEq, Repr

structure ResourceMIIBreakdown where
  selfOccupancyMII : ℕ := 1
  fuMII : ℕ := 1
  lsuMII : ℕ := 1
  perOperationMII : ℕ := 1
  deriving DecidableEq, Repr

/-- A cycle of dependences that needs a larger interval. -/
structure RecurrenceWitness where
  edges : List TargetEdgeId := []
  totalSeparation : ℕ := 0
  totalDistance : ℕ := 0
  deriving DecidableEq, Repr

structure MIIResult where
  status : MIIStatus := .success
  resourceMII : ℕ := 0
  recurrenceMII : ℕ := 0
  mii : ℕ := 0
  resourceBreakdown : ResourceMIIBreakdown := {}
  recurrenceWitness : Option RecurrenceWitness := none
  diagnostics : List MIIAnalysisDiagnostic := []
  deriving DecidableEq, Repr

structure RecurrenceConstraint where
  edge : TargetEdgeId
  src : TargetNodeId
  dst : TargetNodeId
  distance : ℕ
  intrinsicSeparation : ℕ
  deriving DecidableEq, Repr

namespace MIIAnalyzer

/-- How the analysis ends early: by an exception, or by returning a result. -/
inductive Stop
  | thrown (message : String)
  | returned (result : MIIResult)

/-- A diagnostic together with the status it sets. -/
structure Failure where
  status : MIIStatus
  diagnostic : MIIAnalysisDiagnostic
  deriving DecidableEq, Repr

/-- The result of an analysis that met failures: the last one decides the status. -/
def failed (result : MIIResult) (failures : List Failure) : MIIResult :=
  { result with
    status := (failures.getLast?.map Failure.status).getD result.status
    diagnostics := result.diagnostics ++ failures.map Failure.diagnostic }

def returnFailures {α : Type} (result : MIIResult) (failures : List Failure) : Except Stop α :=
  .error (.returned (failed result failures))

def overflow (message : String) (node : Option TargetNodeId)
    (edge : Option TargetEdgeId) : Failure :=
  ⟨.internalError, ⟨.arithmeticOverflow, message, node, edge⟩⟩

def checkedAdd (lhs rhs : ℕ) : Option ℕ :=
  if rhs > uint64Max - lhs then none else some (lhs + rhs)

def uint32Max : ℕ := 2 ^ 32 - 1

def ceilDivToMII (numerator denominator : ℕ) : Option ℕ :=
  if numerator = 0 then some 1
  else if denominator = 0 then none
  else
    let rounded := numerator / denominator + (if numerator % denominator = 0 then 0 else 1)
    if rounded > uint32Max then none else some rounded

/-! ## Demand -/

/-- The issue slots asked for, of each kind of unit and by each operation. -/
structure Demand where
  fu : ℕ := 0
  lsu : ℕ := 0
  selfOccupancy : ℕ := 1
  /-- In the order of the operations' names. -/
  perOperation : List (String × ℕ) := []
  deriving DecidableEq, Repr

def addPerOperation (name : String) (demand : ℕ) : List (String × ℕ) → Option (List (String × ℕ))
  | [] => (checkedAdd 0 demand).map fun total ↦ [(name, total)]
  | entry :: entries =>
    if name = entry.1 then
      (checkedAdd entry.2 demand).map fun total ↦ (name, total) :: entries
    else if name < entry.1 then
      (checkedAdd 0 demand).map fun total ↦ (name, total) :: entry :: entries
    else (addPerOperation name demand entries).map fun entries ↦ entry :: entries

/-- The demand of one node. -/
def countNode (target : TargetModel) (demand : Demand) (node : TargetNode) :
    Demand × List Failure :=
  if node.issueOccupancy = 0 then
    (demand, [⟨.targetContractError, ⟨.targetOccupancyInvalid,
      "target operation issue occupancy must be at least one", some node.id, none⟩⟩])
  else if (target.findOperation node.operation).isNone then
    (demand, [⟨.invalidTargetDFG, ⟨.invalidTargetDFG,
      "TargetDFG references an operation absent from TargetModel", some node.id, none⟩⟩])
  else
    match addPerOperation node.operation node.issueOccupancy demand.perOperation with
    | none => (demand, [overflow "operation demand overflowed uint64_t" (some node.id) none])
    | some perOperation =>
      let demand := { demand with
        perOperation := perOperation
        selfOccupancy := max demand.selfOccupancy node.issueOccupancy }
      match node.executionClass with
      | .fu =>
        match checkedAdd demand.fu node.issueOccupancy with
        | none => (demand, [overflow "FU demand overflowed uint64_t" (some node.id) none])
        | some fu => ({ demand with fu := fu }, [])
      | .lsu =>
        match checkedAdd demand.lsu node.issueOccupancy with
        | none => (demand, [overflow "LSU demand overflowed uint64_t" (some node.id) none])
        | some lsu => ({ demand with lsu := lsu }, [])

def countNodes (target : TargetModel) : Demand → List TargetNode → Demand × List Failure
  | demand, [] => (demand, [])
  | demand, node :: nodes =>
    let counted := countNode target demand node
    let rest := countNodes target counted.1 nodes
    (rest.1, counted.2 ++ rest.2)

/-- The largest bound of a single operation. An operation without a unit is passed over and
reported; a bound that does not fit ends the loop. -/
def perOperationBound (target : TargetModel) : ℕ → List (String × ℕ) →
    Except String (ℕ × List Failure)
  | bound, [] => .ok (bound, [])
  | bound, (name, demand) :: entries =>
    match target.findOperation name with
    | none => .error ("unknown target operation: " ++ name)
    | some operation =>
      let capacity := target.compatibleResourceCount operation
      if capacity = 0 then do
        let rest ← perOperationBound target bound entries
        return (rest.1, ⟨.noCompatibleResource, ⟨.noCompatibleResource,
          "target operation has no compatible execution resource", none, none⟩⟩ :: rest.2)
      else
        match ceilDivToMII demand capacity with
        | none =>
          .ok (bound, [overflow "per-operation MII does not fit uint32_t" none none])
        | some b => perOperationBound target (max bound b) entries

/-- The resource bounds. -/
def resourceBreakdown (dfg : TargetDFG) (target : TargetModel) :
    Except Stop ResourceMIIBreakdown := do
  let counted := countNodes target {} dfg.nodes
  let demand := counted.1
  let fuCapacity := target.executionResourceCount .fu
  let lsuCapacity := target.executionResourceCount .lsu
  if counted.2 ≠ [] then returnFailures {} counted.2
  else if (demand.fu > 0 ∧ fuCapacity = 0) ∨ (demand.lsu > 0 ∧ lsuCapacity = 0) then
    returnFailures {} [⟨.noCompatibleResource, ⟨.noCompatibleResource,
      "target has demand but no compatible execution resource", none, none⟩⟩]
  else
    match ceilDivToMII demand.selfOccupancy 1, ceilDivToMII demand.fu fuCapacity,
        ceilDivToMII demand.lsu lsuCapacity with
    | some selfBound, some fuBound, some lsuBound =>
      let breakdown : ResourceMIIBreakdown := ⟨max 1 selfBound, max 1 fuBound, max 1 lsuBound, 1⟩
      match perOperationBound target 1 demand.perOperation with
      | .error message => .error (.thrown message)
      | .ok (perOperation, failures) =>
        let breakdown := { breakdown with perOperationMII := perOperation }
        if failures ≠ [] then returnFailures { resourceBreakdown := breakdown } failures
        else .ok breakdown
    | _, _, _ => returnFailures {} [overflow "resource MII does not fit uint32_t" none none]

def resourceMII (breakdown : ResourceMIIBreakdown) : ℕ :=
  max 1 (max breakdown.selfOccupancyMII (max breakdown.fuMII
    (max breakdown.lsuMII breakdown.perOperationMII)))

/-! ## Constraints -/

/-- A constraint with the positions of its ends among the nodes, ordered by id. -/
structure IndexedConstraint where
  constraint : RecurrenceConstraint
  srcIndex : ℕ
  dstIndex : ℕ
  deriving DecidableEq, Repr

def nodeIndex (dfg : TargetDFG) (id : TargetNodeId) : Option ℕ :=
  dfg.nodesById.findIdx? fun node ↦ node.id == id

/-- How long the consumer of an edge has to wait at least, wherever it is placed. -/
def intrinsicSeparation (dfg : TargetDFG) (target : TargetModel) (edge : TargetEdge) :
    Except String (ℕ ⊕ Failure) :=
  match edge.info with
  | .memory dependence =>
    let separation := target.memoryDependenceSeparation dependence
    .ok (if separation = 0 then
      .inr ⟨.targetContractError, ⟨.targetMemoryTimingMissing,
        "memory dependence separation must be positive", none, some edge.id⟩⟩
    else .inl separation)
  | _ =>
    match dfg.findNode edge.src with
    | none => .error ("unknown target DFG node id: " ++ toString edge.src)
    | some producer =>
      match producer.resultLatency with
      | none => .ok (.inr ⟨.targetContractError, ⟨.targetLatencyMissing,
          "value edge producer has no target result latency", some edge.src, some edge.id⟩⟩)
      | some separation =>
        .ok (if separation = 0 then
          .inr ⟨.targetContractError, ⟨.targetLatencyMissing,
            "value edge producer result latency must be positive", some edge.src, some edge.id⟩⟩
        else .inl separation)

/-- The constraints of the edges and the sum of their separations. -/
def buildConstraints (dfg : TargetDFG) (target : TargetModel) : ℕ → List TargetEdge →
    Except String (List IndexedConstraint × ℕ × List Failure)
  | total, [] => .ok ([], total, [])
  | total, edge :: edges => do
    match ← intrinsicSeparation dfg target edge with
    | .inr failure =>
      let rest ← buildConstraints dfg target total edges
      return (rest.1, rest.2.1, failure :: rest.2.2)
    | .inl separation =>
      match nodeIndex dfg edge.src, nodeIndex dfg edge.dst with
      | some src, some dst =>
        let indexed : IndexedConstraint :=
          ⟨⟨edge.id, edge.src, edge.dst, edge.distance, separation⟩, src, dst⟩
        match checkedAdd total separation with
        | some total =>
          let rest ← buildConstraints dfg target total edges
          return (indexed :: rest.1, rest.2.1, rest.2.2)
        | none =>
          let rest ← buildConstraints dfg target total edges
          return (indexed :: rest.1, rest.2.1,
            overflow "recurrence separation sum overflowed uint64_t" none (some edge.id) ::
              rest.2.2)
      | _, _ =>
        let rest ← buildConstraints dfg target total edges
        return (rest.1, rest.2.1, ⟨.invalidTargetDFG, ⟨.invalidTargetDFG,
          "recurrence edge references an unknown node", none, some edge.id⟩⟩ :: rest.2.2)

/-! ## Feasibility -/

/-- The values so far and where each came from. -/
structure Relaxed where
  longest : List ℤ
  predecessorNode : List (Option ℕ)
  predecessorConstraint : List (Option ℕ)
  lastUpdated : Option ℕ
  deriving DecidableEq, Repr

def weight (ii : ℕ) (constraint : IndexedConstraint) : ℤ :=
  constraint.constraint.intrinsicSeparation - constraint.constraint.distance * ii

def relaxStep (ii : ℕ) (state : Relaxed) (indexed : IndexedConstraint × ℕ) : Relaxed :=
  let candidate := state.longest.getD indexed.1.srcIndex 0 + weight ii indexed.1
  if state.longest.getD indexed.1.dstIndex 0 < candidate then
    { longest := state.longest.set indexed.1.dstIndex candidate
      predecessorNode := state.predecessorNode.set indexed.1.dstIndex (some indexed.1.srcIndex)
      predecessorConstraint := state.predecessorConstraint.set indexed.1.dstIndex (some indexed.2)
      lastUpdated := some indexed.1.dstIndex }
  else state

def relaxRound (constraints : List IndexedConstraint) (ii : ℕ) (state : Relaxed) : Relaxed :=
  constraints.zipIdx.foldl (relaxStep ii) { state with lastUpdated := none }

/-- Relax for a number of rounds, or until a round changes nothing. -/
def relaxRounds (constraints : List IndexedConstraint) (ii : ℕ) : ℕ → Relaxed → Bool × Relaxed
  | 0, state => (false, state)
  | rounds + 1, state =>
    let state := relaxRound constraints ii state
    if state.lastUpdated.isNone then (true, state) else relaxRounds constraints ii rounds state

/-- Follow the predecessors back `count` times. -/
def followBack (state : Relaxed) : ℕ → ℕ → Option ℕ
  | 0, node => some node
  | count + 1, node => (state.predecessorNode.getD node none).bind (followBack state count)

/-- The constraints of the cycle through a node, from the node back to itself; the fuel is the
number of constraints that may be collected. -/
def collectCycle (state : Relaxed) (cycleNode : ℕ) : ℕ → ℕ → Option (List ℕ)
  | 0, _ => none
  | fuel + 1, current =>
    match state.predecessorConstraint.getD current none,
      state.predecessorNode.getD current none with
    | some constraint, some previous =>
      if previous = cycleNode then some [constraint]
      else (collectCycle state cycleNode fuel previous).map fun rest ↦ constraint :: rest
    | _, _ => none

def buildWitness (state : Relaxed) (constraints : List IndexedConstraint) (nodeCount : ℕ) :
    Option RecurrenceWitness := do
  let last ← state.lastUpdated
  let cycleNode ← followBack state nodeCount last
  let cycle ← collectCycle state cycleNode (nodeCount + 1) cycleNode
  let members := (cycle.filterMap fun index ↦ constraints[index]?.map IndexedConstraint.constraint)
    |>.insertionSort fun lhs rhs ↦ lhs.edge ≤ rhs.edge
  members.foldlM (fun witness member ↦ do
    let separation ← checkedAdd witness.totalSeparation member.intrinsicSeparation
    let distance ← checkedAdd witness.totalDistance member.distance
    return ⟨witness.edges ++ [member.edge], separation, distance⟩) ({} : RecurrenceWitness)

structure FeasibilityResult where
  feasible : Bool
  witness : Option RecurrenceWitness
  deriving DecidableEq, Repr

def evaluate (constraints : List IndexedConstraint) (nodeCount ii : ℕ) : FeasibilityResult :=
  let invalid := List.replicate nodeCount (none : Option ℕ)
  let relaxed := relaxRounds constraints ii nodeCount
    ⟨List.replicate nodeCount 0, invalid, invalid, none⟩
  ⟨relaxed.1, if relaxed.1 then none else buildWitness relaxed.2 constraints nodeCount⟩

/-- The least feasible interval between two bounds; the fuel is their difference. -/
def bisect (feasible : ℕ → Bool) : ℕ → ℕ → ℕ → ℕ
  | 0, low, _ => low
  | fuel + 1, low, high =>
    if low < high then
      let mid := low + (high - low) / 2
      if feasible mid then bisect feasible fuel low mid else bisect feasible fuel (mid + 1) high
    else low

/-! ## The analysis -/

/-- The recurrence bound of a list of constraints. -/
def recurrenceBound (result : MIIResult) (nodeCount : ℕ) (constraints : List IndexedConstraint)
    (totalOperationSeparation : ℕ) : Except Stop (ℕ × Option RecurrenceWitness) :=
  if constraints.isEmpty then .ok (1, none)
  else
    let zeroDistance := constraints.filter fun constraint ↦ constraint.constraint.distance == 0
    let zeroFeasibility := evaluate zeroDistance nodeCount 0
    if !zeroFeasibility.feasible then
      returnFailures { result with recurrenceWitness := zeroFeasibility.witness }
        [⟨.unschedulableZeroDistanceCycle, ⟨.zeroDistanceCycle,
          "directed zero-distance recurrence cycle has positive intrinsic separation", none,
          zeroFeasibility.witness.bind fun witness ↦ witness.edges.head?⟩⟩]
    else if totalOperationSeparation = 0 then
      returnFailures result [⟨.internalError, ⟨.internalError,
        "non-empty recurrence constraints have zero total separation", none, none⟩⟩]
    else if totalOperationSeparation > uint32Max then
      returnFailures result
        [overflow "recurrence MII upper bound does not fit uint32_t" none none]
    else
      let feasible := fun ii ↦ (evaluate constraints nodeCount ii).feasible
      let high := max 1 totalOperationSeparation
      if !feasible high then
        returnFailures result [⟨.internalError, ⟨.internalError,
          "recurrence feasibility remained unsatisfied at the safe upper bound", none, none⟩⟩]
      else
        let recurrenceMII := bisect feasible (high - 1) 1 high
        .ok (recurrenceMII, if recurrenceMII > 1 then
          (evaluate constraints nodeCount (recurrenceMII - 1)).witness else none)

def allDiagnosticsAreNoResource (report : List TargetDFGDiagnostic) : Bool :=
  !report.isEmpty && report.all fun diagnostic ↦ diagnostic.code == .noCompatibleExecutionResource

def analyzeOrStop (dfg : TargetDFG) (target : TargetModel) : Except Stop MIIResult := do
  let report := TargetDFGVerifier.verify dfg target
  if !report.isEmpty then
    let message := "TargetDFG precondition failed: " ++ TargetDFGVerifier.format report
    if allDiagnosticsAreNoResource report then
      returnFailures {} [⟨.noCompatibleResource, ⟨.noCompatibleResource, message, none, none⟩⟩]
    else returnFailures {} [⟨.invalidTargetDFG, ⟨.invalidTargetDFG, message, none, none⟩⟩]
  else if dfg.targetName ≠ target.name then
    returnFailures {} [⟨.invalidTargetDFG, ⟨.invalidTargetDFG,
      "TargetDFG target name does not match selected TargetModel", none, none⟩⟩]
  else do
    let breakdown ← resourceBreakdown dfg target
    let result : MIIResult :=
      { resourceBreakdown := breakdown, resourceMII := resourceMII breakdown }
    match buildConstraints dfg target 0 dfg.edgesById with
    | .error message => .error (.thrown message)
    | .ok (constraints, totalOperationSeparation, failures) =>
      if failures ≠ [] then returnFailures result failures
      else do
        let recurrence ← recurrenceBound result dfg.nodes.length constraints
          totalOperationSeparation
        let mii := max result.resourceMII recurrence.1
        return { result with
          recurrenceMII := recurrence.1
          recurrenceWitness := recurrence.2
          mii := if mii = 0 then 1 else mii }

/-- The analyzer: a result, or an exception. -/
def analyze (dfg : TargetDFG) (target : TargetModel) : Except String MIIResult :=
  match analyzeOrStop dfg target with
  | .ok result => .ok result
  | .error (.returned result) => .ok result
  | .error (.thrown message) => .error message

end MIIAnalyzer

end PredicatedMesh
