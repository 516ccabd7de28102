import PredicatedMesh.Schedule.MaterializedVerifier

/-!
# Building a materialized schedule

The materializer lists the streams and the boundary events of the loop, moves them so that the first
one happens in cycle zero or later, and looks for periods of `ii` cycles in which every stream has
an event and no boundary event falls. Those periods are the repetitions of the kernel; everything
before them is written out as the prologue and everything after them as the epilogue. The result is
handed to the verifier before it is returned.

Statistics of the result are not modelled.
-/

namespace PredicatedMesh

open Scan

inductive ScheduleMaterializationStatus
  | success
  | invalidTargetDFG
  | invalidRFAllocatedMapping
  | invalidTripCount
  | missingRecurrenceBoundaryValue
  | boundaryTypeMismatch
  | arithmeticOverflow
  | materializationBudgetExceeded
  | phaseFactorizationError
  | verificationFailure
  | internalError
  deriving DecidableEq, Repr

inductive ScheduleMaterializationDiagnosticCode
  | invalidTargetDFG
  | invalidRFMapping
  | invalidTripCount
  | boundaryValueMissing
  | timeArithmeticOverflow
  | explicitBoundaryBudgetExceeded
  | phaseFactorizationFailed
  | finalVerificationFailed
  | internalError
  deriving DecidableEq, Repr

/-- A failed materialization: its status and the diagnostic it stopped at. -/
structure ScheduleMaterializationFailure where
  status : ScheduleMaterializationStatus
  code : ScheduleMaterializationDiagnosticCode
  message : String
  edge : Option TargetEdgeId := none
  logicalIteration : Option ℤ := none
  deriving DecidableEq, Repr

namespace ScheduleMaterializer

/-! ## Exceptions and what they are reported as -/

def lengthError (message : String) : ScheduleMaterializationFailure :=
  { status := .materializationBudgetExceeded, code := .explicitBoundaryBudgetExceeded
    message := message }

def overflowError (message : String) : ScheduleMaterializationFailure :=
  { status := .arithmeticOverflow, code := .timeArithmeticOverflow, message := message }

/-- Every other exception. -/
def internalError (message : String) : ScheduleMaterializationFailure :=
  { status := .internalError, code := .internalError, message := message }

/-- The result of checked arithmetic, or the overflow exception. -/
def orOverflow {α : Type} (message : String) : Option α → Except ScheduleMaterializationFailure α
  | none => .error (overflowError message)
  | some a => .ok a

def orInternal {α : Type} : Except String α → Except ScheduleMaterializationFailure α
  | .error message => .error (internalError message)
  | .ok a => .ok a

/-! ## Streams and boundary events -/

structure PeriodicStream where
  event : MaterializedEvent
  firstLogicalTime : ℤ
  count : ℕ
  period : ℕ
  deriving DecidableEq, Repr

structure OneShot where
  event : MaterializedEvent
  logicalTime : ℤ
  deriving DecidableEq, Repr

def signedTime (mapping : StagedMapping) (node : TargetNodeId) :
    Except ScheduleMaterializationFailure ℤ :=
  match mapping.logicalIssueTime node with
  | .error (.overflowError message) => .error (overflowError message)
  | .error (.outOfRange message) => .error (internalError message)
  | .ok time => orOverflow "logical issue time does not fit signed 64-bit time" (toSigned time)

def domainFor (kind : EdgeKind) : NetworkDomain := if kind = .predicate then .predicate else .data

def boundaryValue (edge : TargetEdge) (offset : ℕ) : Option ExternalOperandBinding := do
  let boundary ← edge.info.boundary
  let value ← boundary.values.find? fun value ↦ value.iterationOffset == offset
  return value.value

/-- The last time of a stream. -/
def account (stream : PeriodicStream) : Except ScheduleMaterializationFailure ℤ :=
  if stream.count = 0 ∨ stream.period = 0 then
    .error (internalError "invalid periodic event stream")
  else
    orOverflow "periodic event stream exceeds signed 64-bit time" do
      let span ← mulSigned (stream.count - 1 : ℕ) stream.period
      addSigned stream.firstLogicalTime span

section Materialize

variable (dfg : TargetDFG) (target : TargetModel) (mapping : RFAllocatedMapping)
variable (request : ScheduleMaterializationRequest)

def nodeStream (node : TargetNode) : Except ScheduleMaterializationFailure PeriodicStream := do
  let first ← signedTime mapping.staged node.id
  let stream : PeriodicStream :=
    ⟨{ kind := .nodeIssue, node := some node.id, logicalIteration := 0 }, first, request.tripCount,
      mapping.staged.modulo.ii⟩
  let _ ← account stream
  return stream

/-- The stream of one hop of a route. -/
def linkStream (edge : TargetEdge) (firstBase : ℤ) (actionIndex : ℕ) (link : LinkStep) :
    Except ScheduleMaterializationFailure PeriodicStream := do
  let first ← orOverflow "link launch time overflows signed 64-bit time"
    (addSigned firstBase link.elapsedFromProducerIssue)
  let stream : PeriodicStream :=
    ⟨{ kind := .linkLaunch, edge := some edge.id, transportActionIndex := some actionIndex
       logicalIteration := -(edge.distance : ℤ), domain := some link.domain
       tile := some link.source, direction := some link.direction }, first, request.tripCount,
      mapping.staged.modulo.ii⟩
  let _ ← account stream
  return stream

def linkStreams (edge : TargetEdge) (firstBase : ℤ) :
    List (TransportAction × ℕ) → Except ScheduleMaterializationFailure (List PeriodicStream)
  | [] => .ok []
  | (.virtualHold _, _) :: actions => linkStreams edge firstBase actions
  | (.linkStep link, index) :: actions => do
    let stream ← linkStream mapping request edge firstBase index link
    let streams ← linkStreams edge firstBase actions
    return stream :: streams

/-- The injection of one boundary value, when its producer would have had it ready. -/
def boundaryShot (edge : TargetEdge) (offset : ℕ) :
    Except ScheduleMaterializationFailure OneShot := do
  match boundaryValue edge offset with
  | none =>
    .error
      { status := .missingRecurrenceBoundaryValue, code := .boundaryValueMissing
        message := "loop-carried edge is missing a boundary value", edge := some edge.id
        logicalIteration := some offset }
  | some value =>
    let source ← match dfg.findNode edge.src with
      | none => .error (internalError ("unknown target DFG node id: " ++ toString edge.src))
      | some source => .ok source
    let producer ← signedTime mapping.staged edge.src
    let negativeIteration ← orOverflow "boundary iteration overflows signed 64-bit time"
      (mulSigned (-1) (edge.distance - offset : ℕ))
    let iterationTime ← orOverflow "boundary producer time overflows signed 64-bit time"
      (mulSigned negativeIteration mapping.staged.modulo.ii)
    let readyOffset ← orOverflow "producer readiness offset overflows signed 64-bit time"
      (toSigned (source.producerOutputReadyOffset.getD 0))
    let ready ← orOverflow "boundary availability time overflows signed 64-bit time"
      ((addSigned producer iterationTime).bind fun ready ↦ addSigned ready readyOffset)
    let placement ← orInternal (mapping.staged.modulo.placement edge.src)
    return ⟨{ kind := .boundaryValueInject, edge := some edge.id
              domain := some (domainFor edge.kind), tile := some placement.tile
              logicalIteration := negativeIteration, consumerIterationOffset := some offset
              boundaryValue := some value }, ready⟩

def edgeEvents (edge : TargetEdge) :
    Except ScheduleMaterializationFailure (List PeriodicStream × List OneShot) :=
  if edge.kind = .memory then .ok ([], [])
  else do
    let dependence ← orInternal (mapping.staged.modulo.dependence edge.id)
    match dependence.transport with
    | none => .error (internalError "value edge has no transport plan")
    | some plan =>
      let sourceTime ← signedTime mapping.staged edge.src
      let distanceTime ← orOverflow "edge distance exceeds signed 64-bit time"
        (mulSigned edge.distance mapping.staged.modulo.ii)
      let firstBase ← orOverflow "producer pre-roll time overflows signed 64-bit time"
        (subtractSigned sourceTime distanceTime)
      let streams ← linkStreams mapping request edge firstBase plan.actions.zipIdx
      let shots ← (List.range (min request.tripCount edge.distance)).mapM
        (boundaryShot dfg mapping edge)
      return (streams, shots)

/-- The stream of the writes or of the reads of a segment. -/
def accessStream (edge : TargetEdge) (segment : StorageSegment) (write : Bool) (distanceTime : ℤ) :
    Except ScheduleMaterializationFailure PeriodicStream := do
  let baseTime ← orOverflow "RF event time overflows signed 64-bit time"
    ((toSigned (if write then segment.writeTime else segment.readTime)).bind fun base ↦
      subtractSigned base distanceTime)
  let allocation ← match mapping.allocationFor segment.id with
    | none => .error (internalError "storage segment has no physical register allocation")
    | some allocation => .ok allocation
  let stream : PeriodicStream :=
    ⟨{ kind := if write then .rfWrite else .rfRead, edge := some segment.edge
       segment := some segment.id, logicalIteration := -(edge.distance : ℤ)
       domain := some (if segment.domain = .predicate then .predicate else .data)
       tile := some segment.tile, physicalRegister := some allocation.reg }, baseTime,
      request.tripCount, mapping.staged.modulo.ii⟩
  let _ ← account stream
  return stream

def segmentStreams (segment : StorageSegment) :
    Except ScheduleMaterializationFailure (List PeriodicStream) :=
  match dfg.findEdge segment.edge with
  | none => .error (internalError ("unknown target DFG edge id: " ++ toString segment.edge))
  | some edge =>
    if edge.kind = .memory then
      .error (internalError "storage segment is attached to a memory edge")
    else do
      let distanceTime ← orOverflow "storage segment distance overflows signed 64-bit time"
        (mulSigned edge.distance mapping.staged.modulo.ii)
      let write ← accessStream mapping request edge segment true distanceTime
      let read ← accessStream mapping request edge segment false distanceTime
      return [write, read]

def liveOutShot (liveOut : TargetLiveOut) : Except ScheduleMaterializationFailure OneShot := do
  match dfg.findNode liveOut.source with
  | none => .error (internalError ("unknown target DFG node id: " ++ toString liveOut.source))
  | some node =>
    match node.resultLatency with
    | none => .error (internalError "live-out source has no result latency")
    | some latency =>
      let sourceTime ← signedTime mapping.staged liveOut.source
      let iterationTime ← orOverflow "live-out iteration time overflows signed 64-bit time"
        (mulSigned (request.tripCount - 1 : ℕ) mapping.staged.modulo.ii)
      let time ← orOverflow "live-out time overflows signed 64-bit time"
        ((addSigned sourceTime iterationTime).bind fun time ↦ addSigned time latency)
      return ⟨{ kind := .liveOutBoundaryUse, liveOut := some liveOut.id
                node := some liveOut.source
                logicalIteration := (request.tripCount - 1 : ℕ) }, time⟩

/-- Everything that happens, before it is moved to a time origin. -/
def events : Except ScheduleMaterializationFailure (List PeriodicStream × List OneShot) := do
  let nodes ← dfg.nodes.mapM (nodeStream mapping request)
  let edges ← dfg.edges.mapM (edgeEvents dfg mapping request)
  let segments ← mapping.storageRequirements.segments.mapM (segmentStreams dfg mapping request)
  let liveOuts ← dfg.liveOuts.mapM (liveOutShot dfg mapping request)
  return (nodes ++ (edges.map Prod.fst).flatten ++ segments.flatten,
    (edges.map Prod.snd).flatten ++ liveOuts)

/-! ## Time origin -/

def shifted (shift logical : ℤ) : Except ScheduleMaterializationFailure ℕ :=
  match addSigned logical shift with
  | none => .error (overflowError "time-origin shift overflows schedule cycle")
  | some value =>
    if value < 0 then .error (overflowError "time-origin shift overflows schedule cycle")
    else .ok value.toNat

/-- A stream or a boundary event with its cycle. -/
structure Timed (α : Type) where
  item : α
  cycle : ℕ

def shiftAll {α : Type} (time : α → ℤ) (message : String) (shift : ℤ) (items : List α) :
    Except ScheduleMaterializationFailure (List (Timed α)) :=
  items.mapM fun item ↦ do
    let cycle ← shifted shift (time item)
    let _ ← orOverflow message (toSigned cycle)
    return ⟨item, cycle⟩

/-- The shift of the time origin and the number of cycles. -/
def timeOrigin (streams : List PeriodicStream) (shots : List OneShot) :
    Except ScheduleMaterializationFailure (ℕ × ℕ) := do
  let tails ← streams.mapM account
  let times := shots.map OneShot.logicalTime
  let minLogical := ((streams.map PeriodicStream.firstLogicalTime) ++ times).foldl min int64Max
  let maxLogical := (tails ++ times).foldl max int64Min
  if minLogical = int64Max ∨ maxLogical = int64Min then
    .error (internalError "target DFG has no materializable events")
  else if minLogical = int64Min then
    .error (overflowError "time-origin shift overflows signed 64-bit time")
  else do
    let shift := if minLogical < 0 then -minLogical else 0
    let lastCycle ← shifted shift maxLogical
    if lastCycle = uint64Max then
      .error (overflowError "schedule cycle bound overflows uint64")
    else return (shift.toNat, lastCycle + 1)

/-! ## The kernel window -/

/-- The periods in which every stream has an event. -/
def commonPeriods (ii : ℕ) : List (Timed PeriodicStream) → ℕ → ℕ →
    Except ScheduleMaterializationFailure (ℕ × ℕ)
  | [], first, last => .ok (first, last)
  | stream :: streams, first, last => do
    let firstPeriod := stream.cycle / ii
    let lastPeriod ← orOverflow "periodic stream period range overflows uint64"
      (addUnsigned firstPeriod (stream.item.count - 1))
    commonPeriods ii streams (max first firstPeriod) (min last lastPeriod)

def hasOneShotInPeriod (ii : ℕ) (shots : List (Timed OneShot)) (period : ℕ) : Bool :=
  shots.any fun shot ↦ shot.cycle / ii == period

/-- Drop periods with a boundary event from the front; the fuel is the number of periods left. -/
def skipFront (busy : ℕ → Bool) (last : ℕ) : ℕ → ℕ → ℕ × ℕ
  | 0, first => (first, last)
  | fuel + 1, first =>
    if first ≤ last ∧ busy first then
      if first = uint64Max then (0, 0) else skipFront busy last fuel (first + 1)
    else (first, last)

/-- Drop periods with a boundary event from the back. -/
def skipBack (busy : ℕ → Bool) (first : ℕ) : ℕ → ℕ → ℕ × ℕ
  | 0, last => (first, last)
  | fuel + 1, last =>
    if first ≤ last ∧ busy last then
      if last = 0 then (1, 0) else skipBack busy first fuel (last - 1)
    else (first, last)

/-- The first and the last period of the kernel; there is none when the first is larger. -/
def kernelWindow (ii : ℕ) (streams : List (Timed PeriodicStream)) (shots : List (Timed OneShot)) :
    Except ScheduleMaterializationFailure (ℕ × ℕ) := do
  let common ← if streams.isEmpty then .ok (0, 0) else commonPeriods ii streams 0 uint64Max
  let busy := hasOneShotInPeriod ii shots
  let front := skipFront busy common.2 (common.2 + 1 - common.1) common.1
  let window := skipBack busy front.1 (front.2 + 1 - front.1) front.2
  if window.1 ≤ window.2 ∧ shots.any fun shot ↦
      window.1 ≤ shot.cycle / ii && shot.cycle / ii ≤ window.2 then
    .error
      { status := .phaseFactorizationError, code := .phaseFactorizationFailed
        message := "a one-shot event falls inside the repeating kernel range" }
  else .ok window

/-! ## Phases -/

/-- Where the phases lie: the kernel's periods, if there are any, and the number of cycles. Cycles
are 64 bits wide, and a difference of two of them wraps. -/
structure PhaseLayout where
  ii : ℕ
  hasKernel : Bool
  first : ℕ
  last : ℕ
  totalCycles : ℕ
  kernelRepeatCount : ℕ
  kernelStartCycle : ℕ
  kernelEndCycle : ℕ

namespace PhaseLayout

variable (layout : PhaseLayout)

def prologueCycles : ℕ :=
  if layout.hasKernel then layout.kernelStartCycle else layout.totalCycles

def epilogueCycles : ℕ :=
  if layout.hasKernel then subtractUnsigned layout.totalCycles layout.kernelEndCycle else 0

end PhaseLayout

def layoutOf (ii totalCycles : ℕ) (hasStreams : Bool) (window : ℕ × ℕ) :
    Except ScheduleMaterializationFailure PhaseLayout :=
  if hasStreams ∧ window.1 ≤ window.2 then do
    let repeatCount ← orOverflow "kernel repeat count overflows uint64"
      (addUnsigned (window.2 - window.1) 1)
    let kernelStart ← orOverflow "kernel cycle range overflows uint64" (mulUnsigned window.1 ii)
    let kernelEnd ← orOverflow "kernel cycle range overflows uint64"
      ((addUnsigned window.2 1).bind fun endPlusOne ↦ mulUnsigned endPlusOne ii)
    return ⟨ii, true, window.1, window.2, totalCycles, repeatCount, kernelStart, kernelEnd⟩
  else .ok ⟨ii, false, window.1, window.2, totalCycles, 0, 0, 0⟩

/-- The entries of a vector are indexed by pointer differences. -/
def maxVectorSize : ℕ := 2 ^ 63 - 1

/-- The cycles of a phase, as a vector. Memory is taken to suffice for every vector there can be. -/
def allocate (count : ℕ) : Except ScheduleMaterializationFailure Unit :=
  if count > maxVectorSize then
    .error (lengthError "cannot create std::vector larger than max_size()")
  else .ok ()

/-- An explicit event in its cycle of the prologue or of the epilogue, if it has one there. -/
def appendExplicit (layout : PhaseLayout) (event : MaterializedEvent) (cycle : ℕ) :
    Except ScheduleMaterializationFailure (ℕ × MaterializedEvent) :=
  if cycle < layout.prologueCycles then .ok (cycle, event)
  else
    let index := subtractUnsigned cycle layout.kernelEndCycle
    if index ≥ layout.epilogueCycles then
      .error (internalError "event falls outside materialized schedule")
    else .ok (layout.kernelEndCycle + index, event)

/-- An iteration of a stream outside the kernel. -/
def appendStreamInstance (layout : PhaseLayout) (stream : Timed PeriodicStream) (index : ℕ) :
    Except ScheduleMaterializationFailure (List (ℕ × MaterializedEvent)) := do
  let logical ← orOverflow "event iteration provenance overflows signed 64-bit"
    (addSigned stream.item.event.logicalIteration index)
  let cycle ← orOverflow "periodic event cycle overflows schedule"
    ((mulSigned index layout.ii).bind fun span ↦ addSigned stream.cycle span)
  if cycle < 0 then .error (overflowError "periodic event cycle overflows schedule")
  else if layout.hasKernel = false ∨ cycle < layout.kernelStartCycle
      ∨ cycle ≥ layout.kernelEndCycle then do
    let explicit ← appendExplicit layout { stream.item.event with logicalIteration := logical }
      cycle.toNat
    return [explicit]
  else return []

/-- The event of a stream in the kernel body, with its place in the period. -/
def kernelEvent (layout : PhaseLayout) (stream : Timed PeriodicStream) :
    Except ScheduleMaterializationFailure (List (ℕ × MaterializedEvent)) :=
  if layout.hasKernel then
    let kernelIndex := layout.first - stream.cycle / layout.ii
    if kernelIndex ≥ stream.item.count then
      .error (internalError "stream does not cover kernel begin")
    else do
      let cycle ← orOverflow "kernel event cycle overflows uint64"
        ((mulUnsigned kernelIndex layout.ii).bind fun offset ↦ addUnsigned stream.cycle offset)
      return [(cycle % layout.ii, { stream.item.event with
        logicalIteration := stream.item.event.logicalIteration + kernelIndex })]
  else .ok []

/-- How many iterations of a stream lie before and after the kernel. -/
def outsideKernel (layout : PhaseLayout) (stream : Timed PeriodicStream) :
    Except ScheduleMaterializationFailure (ℕ × ℕ) :=
  if layout.hasKernel then do
    let firstPeriod := stream.cycle / layout.ii
    let streamEnd ← orOverflow "periodic stream range overflows uint64"
      (addUnsigned firstPeriod stream.item.count)
    let kernelEnd ← orOverflow "periodic stream range overflows uint64" (addUnsigned layout.last 1)
    return (layout.first - firstPeriod, if streamEnd > kernelEnd then streamEnd - kernelEnd else 0)
  else .ok (stream.item.count, 0)

/-- The kernel events and the explicit events of every stream, within the budget of events. -/
def placeStreams (layout : PhaseLayout) (budget : ℕ) : ℕ → List (Timed PeriodicStream) →
    Except ScheduleMaterializationFailure
      (List (ℕ × MaterializedEvent) × List (ℕ × MaterializedEvent))
  | _, [] => .ok ([], [])
  | planned, stream :: streams => do
    let body ← kernelEvent layout stream
    let outside ← outsideKernel layout stream
    match (addUnsigned outside.1 outside.2).bind (addUnsigned planned) with
    | none => .error (lengthError "explicit periodic boundary event budget exceeded")
    | some planned =>
      if planned > budget then
        .error (lengthError "explicit periodic boundary event budget exceeded")
      else
        let before ← (List.range outside.1).mapM (appendStreamInstance layout stream)
        let after ← (if layout.hasKernel then
            List.range' (stream.item.count - outside.2) outside.2 else []).mapM
          (appendStreamInstance layout stream)
        let rest ← placeStreams layout budget planned streams
        return (body ++ rest.1, before.flatten ++ after.flatten ++ rest.2)

/-! ## Order within a cycle -/

def eventOrder : MaterializedEventKind → ℕ
  | .boundaryValueInject => 0
  | .rfRead => 1
  | .nodeIssue => 2
  | .linkLaunch => 3
  | .rfWrite => 4
  | .liveOutBoundaryUse => 5

/-- The ids an event is ordered by; a missing id counts as the largest. -/
def eventKey (event : MaterializedEvent) : List ℤ :=
  let id := fun id? : Option ℕ ↦ ((id?.getD (2 ^ 32 - 1) : ℕ) : ℤ)
  [eventOrder event.kind, id event.edge, id event.node, id event.segment,
    id event.transportActionIndex, event.logicalIteration]

def eventLess (lhs rhs : MaterializedEvent) : Bool := decide (eventKey lhs < eventKey rhs)

/-- The cycles `base, …, base + count - 1` with their events in order. -/
def bundles (base count : ℕ) (placed : List (ℕ × MaterializedEvent)) : List CycleBundle :=
  (List.range' base count).map fun cycle ↦
    ⟨((placed.filter fun item ↦ item.1 == cycle).map Prod.snd).insertionSort
      fun lhs rhs ↦ !eventLess rhs lhs⟩

def budgetExceeded (message : String) : ScheduleMaterializationFailure :=
  { status := .materializationBudgetExceeded, code := .explicitBoundaryBudgetExceeded
    message := message }

/-- The schedule before it is verified. -/
def build : Except ScheduleMaterializationFailure MaterializedSchedule := do
  let ii := mapping.staged.modulo.ii
  let all ← events dfg mapping request
  if all.2.length > request.budget.maxExplicitBoundaryEvents then
    .error (budgetExceeded "explicit boundary event budget exceeded")
  else do
    let origin ← timeOrigin all.1 all.2
    let streams ← shiftAll PeriodicStream.firstLogicalTime
      "shifted periodic event time exceeds signed range" origin.1 all.1
    let shots ← shiftAll OneShot.logicalTime "shifted one-shot event time exceeds signed range"
      origin.1 all.2
    let window ← kernelWindow ii streams shots
    let layout ← layoutOf ii origin.2 (!streams.isEmpty) window
    if layout.prologueCycles > request.budget.maxExplicitBoundaryCycles
        ∨ layout.epilogueCycles > request.budget.maxExplicitBoundaryCycles then
      .error (budgetExceeded "explicit prologue or epilogue cycle budget exceeded")
    else do
      let _ ← allocate layout.prologueCycles
      let _ ← allocate layout.epilogueCycles
      let placed ← placeStreams layout request.budget.maxExplicitBoundaryEvents shots.length streams
      let once ← shots.mapM fun shot ↦ appendExplicit layout shot.item.event shot.cycle
      let explicit := placed.2 ++ once
      return ⟨ii, request.tripCount, origin.1, origin.2,
        ⟨bundles 0 layout.prologueCycles explicit⟩,
        ⟨if layout.hasKernel then bundles 0 ii placed.1 else [], layout.kernelRepeatCount⟩,
        ⟨bundles layout.kernelEndCycle layout.epilogueCycles explicit⟩⟩

/-- The schedule, if it passes the verifier. -/
def buildVerified : Except ScheduleMaterializationFailure MaterializedSchedule := do
  let schedule ← build dfg mapping request
  match MaterializedScheduleVerifier.verify dfg target mapping request schedule with
  | .error message => .error (internalError message)
  | .ok [] => .ok schedule
  | .ok report =>
    .error { status := .verificationFailure, code := .finalVerificationFailed
             message := MaterializedScheduleVerifier.format report }

/-- The materializer. The outer error is an exception of a verifier run before any other work. -/
def materialize : Except String (Except ScheduleMaterializationFailure MaterializedSchedule) :=
  if request.tripCount = 0 then
    .ok (.error { status := .invalidTripCount, code := .invalidTripCount
                  message := "T011 requires a positive concrete trip count" })
  else if (request.tripCount : ℤ) > int64Max then
    .ok (.error (overflowError "trip count does not fit signed iteration provenance"))
  else if !(TargetDFGVerifier.verify dfg target).isEmpty then
    .ok (.error { status := .invalidTargetDFG, code := .invalidTargetDFG
                  message := TargetDFGVerifier.format (TargetDFGVerifier.verify dfg target) })
  else
    match RFAllocationVerifier.verify dfg target mapping with
    | .error message => .error message
    | .ok (diagnostic :: report) =>
      .ok (.error { status := .invalidRFAllocatedMapping, code := .invalidRFMapping
                    message := RFAllocationVerifier.format (diagnostic :: report) })
    | .ok [] =>
      if mapping.staged.modulo.ii = 0 then
        .ok (.error { status := .invalidRFAllocatedMapping, code := .invalidRFMapping
                      message := "RF allocated mapping has zero initiation interval" })
      else .ok (buildVerified dfg target mapping request)

end Materialize

end ScheduleMaterializer

end PredicatedMesh
