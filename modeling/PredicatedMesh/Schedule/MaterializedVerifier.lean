import PredicatedMesh.RegisterAllocation.Verifier
import PredicatedMesh.Schedule.Materialized

/-!
# Verifying a materialized schedule

The verifier recomputes the bounds of the schedule, checks every event against the stream it claims
to belong to, and records which iterations of which stream it has seen. A kernel event is looked at
once, in its first repetition, and recorded with the whole range of iterations it stands for. At the
end the ranges of each stream must tile the stream's iterations.

The source keeps the ranges, the boundary injections and the live-out uses it has seen in three
containers; here they are one list of records in the order they were made.
-/

namespace PredicatedMesh

open Scan

structure ScheduleMaterializationBudget where
  maxExplicitBoundaryCycles : ℕ := 1000000
  maxExplicitBoundaryEvents : ℕ := 1000000
  deriving DecidableEq, Repr

structure ScheduleMaterializationRequest where
  tripCount : ℕ
  budget : ScheduleMaterializationBudget := {}
  deriving DecidableEq, Repr

inductive MaterializedScheduleVerificationCode
  | invalidTargetDFG
  | invalidRFMapping
  | invalidTripCount
  | unknownEvent
  | duplicateEvent
  | missingEvent
  | wrongEventTime
  | wrongEventProvenance
  | memoryTransportEvent
  | kernelShapeInvalid
  | outputOverflow
  deriving DecidableEq, Repr

structure MaterializedScheduleDiagnostic where
  code : MaterializedScheduleVerificationCode
  message : String
  node : Option TargetNodeId := none
  edge : Option TargetEdgeId := none
  segment : Option StorageSegmentId := none
  deriving DecidableEq, Repr

def StagedError.what : StagedError → String
  | .overflowError message => message
  | .outOfRange message => message

/-- What the verifier has seen. -/
inductive EventRecord
  | range (key : PeriodicKey) (first last : ℤ)
  | boundary (edge : TargetEdgeId) (offset : ℕ)
  | liveOut (id : ℕ)
  deriving DecidableEq, Repr

namespace MaterializedScheduleVerifier

def format (report : List MaterializedScheduleDiagnostic) : String :=
  (if report.isEmpty then "valid" else "invalid") ++ " materialized schedule"
    ++ String.join (report.map fun diagnostic ↦
      "\n" ++ diagnostic.message
        ++ (diagnostic.node.elim "" fun node ↦ " node=" ++ toString node)
        ++ (diagnostic.edge.elim "" fun edge ↦ " edge=" ++ toString edge)
        ++ (diagnostic.segment.elim "" fun segment ↦ " segment=" ++ toString segment))

/-! ## Expected bounds -/

section Verify

variable (dfg : TargetDFG) (target : TargetModel) (mapping : RFAllocatedMapping)
variable (request : ScheduleMaterializationRequest) (schedule : MaterializedSchedule)

/-- The first and last time of a stream, if they fit. -/
def accountExpected (first : ℤ) (count : ℕ) : Option (ℤ × ℤ) :=
  if count = 0 ∨ ((count - 1 : ℕ) : ℤ) > int64Max then none
  else do
    let span ← mulSigned (count - 1 : ℕ) schedule.ii
    let last ← addSigned first span
    return (first, last)

def nodeSpan (node : TargetNode) : Except String (Option (ℤ × ℤ)) :=
  match mapping.staged.logicalIssueTime node.id with
  | .error e => .error e.what
  | .ok time => .ok do
    let nodeTime ← toSigned time
    accountExpected schedule nodeTime request.tripCount

/-- The time of the first iteration of an edge's producer. -/
def producerBase (edge : TargetEdge) (time : ℕ) : Option (ℤ × ℤ) := do
  let sourceTime ← toSigned time
  let distanceTime ← mulSigned edge.distance schedule.ii
  let firstBase ← subtractSigned sourceTime distanceTime
  return (sourceTime, firstBase)

def linkSpan (firstBase : ℤ) : TransportAction → List (Option (ℤ × ℤ))
  | .virtualHold _ => []
  | .linkStep link => [do
    let first ← addSigned firstBase link.elapsedFromProducerIssue
    accountExpected schedule first request.tripCount]

def boundarySpan (edge : TargetEdge) (sourceTime : ℤ) (readyOffset offset : ℕ) :
    Option (ℤ × ℤ) := do
  let negativeIteration ← mulSigned (-1) (edge.distance - offset : ℕ)
  let iterationTime ← mulSigned negativeIteration schedule.ii
  let boundaryTime ← addSigned sourceTime iterationTime
  let boundaryTime ← addSigned boundaryTime readyOffset
  return (boundaryTime, boundaryTime)

def edgeSpans (edge : TargetEdge) : Except String (List (Option (ℤ × ℤ))) :=
  if edge.kind = .memory then .ok []
  else
    match mapping.staged.modulo.dependence edge.id with
    | .error e => .error e
    | .ok dependence =>
      match dependence.transport with
      | none => .ok [none]
      | some plan =>
        match mapping.staged.logicalIssueTime edge.src with
        | .error e => .error e.what
        | .ok time =>
          match producerBase schedule edge time with
          | none => .ok [none]
          | some (sourceTime, firstBase) =>
            match dfg.findNode edge.src with
            | none => .error ("unknown target DFG node id: " ++ toString edge.src)
            | some src =>
              .ok (plan.actions.flatMap (linkSpan request schedule firstBase)
                ++ (List.range (min request.tripCount edge.distance)).map fun offset ↦
                  boundarySpan schedule edge sourceTime (src.producerOutputReadyOffset.getD 0)
                    offset)

def segmentSpans (segment : StorageSegment) : Except String (List (Option (ℤ × ℤ))) :=
  match dfg.findEdge segment.edge with
  | none => .error ("unknown target DFG edge id: " ++ toString segment.edge)
  | some edge =>
    let span := fun base : ℕ ↦ do
      let base ← toSigned base
      let distanceTime ← mulSigned edge.distance schedule.ii
      let first ← subtractSigned base distanceTime
      accountExpected schedule first request.tripCount
    .ok [span segment.writeTime, span segment.readTime]

def liveOutSpan (liveOut : TargetLiveOut) : Except String (Option (ℤ × ℤ)) :=
  match dfg.findNode liveOut.source with
  | none => .error ("unknown target DFG node id: " ++ toString liveOut.source)
  | some node =>
    match node.resultLatency with
    | none => .ok none
    | some latency =>
      match mapping.staged.logicalIssueTime liveOut.source with
      | .error e => .error e.what
      | .ok time => .ok do
        let sourceTime ← toSigned time
        let iterationTime ← mulSigned (request.tripCount - 1 : ℕ) schedule.ii
        let liveOutTime ← addSigned sourceTime iterationTime
        let liveOutTime ← addSigned liveOutTime latency
        return (liveOutTime, liveOutTime)

/-- The times of every stream and every boundary event; an entry is missing when it does not fit. -/
def expectedSpans : Except String (List (Option (ℤ × ℤ))) := do
  let nodes ← dfg.nodes.mapM (nodeSpan mapping request schedule)
  let edges ← dfg.edges.mapM (edgeSpans dfg mapping request schedule)
  let segments ← mapping.storageRequirements.segments.mapM (segmentSpans dfg request schedule)
  let liveOuts ← dfg.liveOuts.mapM (liveOutSpan dfg mapping request schedule)
  return nodes ++ edges.flatten ++ segments.flatten ++ liveOuts

def overflow (message : String) : MaterializedScheduleDiagnostic :=
  { code := .outputOverflow, message := message }

def shapeInvalid (message : String) : MaterializedScheduleDiagnostic :=
  { code := .kernelShapeInvalid, message := message }

/-- The time origin and the number of cycles against the expected bounds. -/
def checkBounds (spans : List (Option (ℤ × ℤ))) (next : Except String
    (List MaterializedScheduleDiagnostic)) : Except String (List MaterializedScheduleDiagnostic) :=
  let known := spans.filterMap id
  let minLogical := (known.map Prod.fst).foldl min int64Max
  let maxLogical := (known.map Prod.snd).foldl max int64Min
  stage (require (spans.all Option.isSome && minLogical != int64Max && maxLogical != int64Min
      && minLogical != int64Min)
    (overflow "expected materialized event bounds overflow signed time")) <|
  let shift := if minLogical < 0 then -minLogical else 0
  stage (require (maxLogical ≤ int64Max - shift && maxLogical + shift != uint64Max)
    (overflow "expected materialized cycle bound overflows uint64")) <|
  stage (require (schedule.timeOriginShift == shift
      && schedule.totalLogicalCycles == maxLogical + shift + 1)
    (shapeInvalid
      "schedule time origin or total cycle bound disagrees with semantic event streams"))
    next

/-- The sizes of the phases against the number of cycles. -/
def checkPhases : List MaterializedScheduleDiagnostic :=
  let kernelStart := schedule.prologue.cycles.length
  if schedule.kernel.repeatCount ≠ 0 ∧ schedule.ii > uint64Max / schedule.kernel.repeatCount then
    [overflow "kernel cycle count overflows uint64"]
  else
    let kernelCycles := schedule.kernel.repeatCount * schedule.ii
    require (kernelStart ≤ schedule.totalLogicalCycles
        && kernelCycles ≤ schedule.totalLogicalCycles - kernelStart
        && schedule.epilogue.cycles.length
          == schedule.totalLogicalCycles - kernelStart - kernelCycles)
      (shapeInvalid "phase cycle counts do not cover the declared finite schedule")

/-! ## One event -/

/-- Whether the check of an event ran to its end, where the event is recorded, and its report. -/
abbrev EventReport := Bool × List MaterializedScheduleDiagnostic

/-- The cycle of an iteration of a node. -/
def expectedCycle (node : TargetNodeId) (iteration : ℤ) : Except String (Option ℕ) :=
  match mapping.staged.logicalIssueTime node with
  | .error e => .error e.what
  | .ok time => .ok do
    let base ← toSigned time
    let shift ← toSigned schedule.timeOriginShift
    let delta ← mulSigned iteration schedule.ii
    let result ← addSigned base delta
    let result ← addSigned result shift
    if result < 0 then none else some result.toNat

/-- The cycle of an event `elapsed` after an iteration of a producer. -/
def expectedCycleForEdge (edge : TargetEdge) (elapsed : ℕ) (producerIteration : ℤ) :
    Except String (Option ℕ) :=
  match expectedCycle mapping schedule edge.src producerIteration with
  | .error e => .error e
  | .ok cycle? => .ok do
    let cycle ← cycle?
    let value ← addSigned cycle elapsed
    if value < 0 then none else some value.toNat

def provenance (message : String) (event : MaterializedEvent) : MaterializedScheduleDiagnostic :=
  { code := .wrongEventProvenance, message := message, edge := event.edge }

def verifyNodeIssue (event : MaterializedEvent) (cycle : ℕ) : Except String EventReport :=
  let invalid : MaterializedScheduleDiagnostic :=
    { code := .wrongEventProvenance
      message := "node issue event has invalid node or iteration", node := event.node }
  match event.node with
  | none => .ok (false, [invalid])
  | some node =>
    if dfg.containsNode node = false ∨ event.logicalIteration < 0
        ∨ event.logicalIteration.toNat ≥ request.tripCount then .ok (false, [invalid])
    else
      match expectedCycle mapping schedule node event.logicalIteration with
      | .error e => .error e
      | .ok expected => .ok (true, require (expected == some cycle)
        { code := .wrongEventTime
          message := "node issue time does not match its staged periodic stream"
          node := event.node })

/-- A link launch against the action it names. -/
def verifyLink (event : MaterializedEvent) (cycle : ℕ) (edge : TargetEdge) (link : LinkStep) :
    Except String EventReport :=
  match expectedCycleForEdge mapping schedule edge link.elapsedFromProducerIssue
      event.logicalIteration with
  | .error e => .error e
  | .ok expected => .ok (true,
    require (event.domain == some link.domain && event.tile == some link.source
        && event.direction == some link.direction)
      (provenance "link launch geometry or domain disagrees with the mapped action" event)
    ++ require (expected == some cycle)
      { code := .wrongEventTime, message := "link launch time does not match mapped route timing"
        edge := event.edge }
    ++ require (-(edge.distance : ℤ) ≤ event.logicalIteration
        && event.logicalIteration ≤ (request.tripCount : ℤ) - 1 - edge.distance)
      (provenance "link launch producer iteration is outside the finite loop" event))

def verifyLinkLaunch (event : MaterializedEvent) (cycle : ℕ) : Except String EventReport :=
  if event.edge = none ∧ event.segment = none then
    .ok (false, [{ code := .wrongEventProvenance
                   message := "periodic event lacks edge or storage provenance" }])
  else
    match event.edge.bind dfg.findEdge, event.transportActionIndex with
    | some edge, some action =>
      if edge.kind = .memory then
        .ok (false, [{ code := .memoryTransportEvent
                       message := "memory edge cannot produce a materialized link launch"
                       edge := event.edge }])
      else
        match mapping.staged.modulo.dependence edge.id with
        | .error e => .error e
        | .ok dependence =>
          match dependence.transport.bind fun plan ↦ plan.actions[action]? with
          | some (.linkStep link) => verifyLink mapping request schedule event cycle edge link
          | _ => .ok (false,
              [provenance "link launch action is not present in the mapped transport" event])
    | _, _ => .ok (false, [provenance "link launch references an invalid edge or action" event])

def rfDiagnostic (message : String) (segment : StorageSegment) : MaterializedScheduleDiagnostic :=
  { code := .wrongEventProvenance, message := message, edge := some segment.edge
    segment := some segment.id }

/-- The cycle of a register access: its time in iteration zero, moved. -/
def expectedAccess (base shift iteration : ℤ) : Option ℕ := do
  let producerDelta ← mulSigned iteration schedule.ii
  let expected ← addSigned base producerDelta
  let expected ← addSigned expected shift
  if expected < 0 then none else some expected.toNat

/-- The iteration and the time of a register access. -/
def verifyAccessTime (event : MaterializedEvent) (cycle : ℕ) (segment : StorageSegment)
    (edge : TargetEdge) : EventReport :=
  let outside := require (-(edge.distance : ℤ) ≤ event.logicalIteration
      && event.logicalIteration ≤ (request.tripCount : ℤ) - 1 - edge.distance)
    (rfDiagnostic "RF event producer iteration is outside the finite loop" segment)
  match toSigned (if event.kind = .rfWrite then segment.writeTime else segment.readTime),
      toSigned schedule.timeOriginShift with
  | some base, some shift => (true, outside
    ++ require (expectedAccess schedule base shift event.logicalIteration == some cycle)
      { code := .wrongEventTime
        message := "RF event time does not match storage lifetime stream"
        edge := some segment.edge, segment := some segment.id })
  | _, _ => (false, outside
    ++ [{ code := .outputOverflow, message := "RF event base time does not fit signed time"
          edge := some segment.edge, segment := some segment.id }])

/-- A register access against its segment. A lookup that fails is caught and reported, after what
was reported before. -/
def verifySegmentAccess (event : MaterializedEvent) (cycle : ℕ) (segment : StorageSegment) :
    EventReport :=
  let unknown : MaterializedScheduleDiagnostic :=
    { code := .wrongEventProvenance
      message := "RF event references an unknown storage segment", edge := event.edge
      segment := event.segment }
  let placed := require (event.edge == some segment.edge)
      { code := .wrongEventProvenance
        message := "RF event edge disagrees with its storage segment", edge := event.edge
        segment := some segment.id }
    ++ require (event.domain == some (if segment.domain = .predicate then .predicate else .data)
        && event.tile == some segment.tile)
      (rfDiagnostic "RF event tile or domain disagrees with its storage segment" segment)
  match event.physicalRegister, mapping.allocationFor segment.id with
  | some _, none => (false, placed ++ [unknown])
  | physicalRegister, allocation =>
    let register := placed
      ++ require (physicalRegister.isSome
          && physicalRegister == allocation.map StorageAllocation.reg)
        (rfDiagnostic "RF event physical register disagrees with allocation" segment)
    match dfg.findEdge segment.edge with
    | none => (false, register ++ [unknown])
    | some edge =>
      let timing := verifyAccessTime request schedule event cycle segment edge
      (timing.1, register ++ timing.2)

def verifyRFAccess (event : MaterializedEvent) (cycle : ℕ) : EventReport :=
  if event.edge = none ∧ event.segment = none then
    (false, [{ code := .wrongEventProvenance
               message := "periodic event lacks edge or storage provenance" }])
  else
    match event.segment with
    | none =>
      (false, [{ code := .wrongEventProvenance, message := "RF event lacks a storage segment" }])
    | some id =>
      match mapping.storageRequirements.segments.find? fun segment ↦ segment.id == id with
      | none =>
        (false, [{ code := .wrongEventProvenance
                   message := "RF event references an unknown storage segment"
                   edge := event.edge, segment := event.segment }])
      | some segment => verifySegmentAccess dfg mapping request schedule event cycle segment

def verifyPeriodic (event : MaterializedEvent) (cycle : ℕ) : Except String EventReport :=
  match event.kind with
  | .nodeIssue => verifyNodeIssue dfg mapping request schedule event cycle
  | .linkLaunch => verifyLinkLaunch dfg mapping request schedule event cycle
  | .rfRead | .rfWrite => .ok (verifyRFAccess dfg mapping request schedule event cycle)
  | .boundaryValueInject | .liveOutBoundaryUse =>
    .ok (false, [{ code := .unknownEvent, message := "unexpected event in periodic stream" }])

/-- A boundary injection against the edge it names. -/
def verifyInject (seen : List EventRecord) (event : MaterializedEvent) (cycle : ℕ)
    (edge : TargetEdge) (offset : ℕ) (value : ExternalOperandBinding)
    (boundary : RecurrenceBoundary) : Except String EventReport :=
  match mapping.staged.modulo.placement edge.src, dfg.findNode edge.src,
      expectedCycle mapping schedule edge.src event.logicalIteration with
  | .error e, _, _ => .error e
  | .ok _, none, _ => .error ("unknown target DFG node id: " ++ toString edge.src)
  | .ok _, some _, .error e => .error e
  | .ok placement, some source, .ok expected =>
    let ready := source.producerOutputReadyOffset.getD 0
    .ok (true,
      require ((boundary.values.find? fun entry ↦ entry.iterationOffset == offset).any
          fun entry ↦ entry.value == value)
        (provenance "boundary injection value disagrees with IR boundary" event)
      ++ require (event.domain == some (if edge.kind = .predicate then .predicate else .data)
          && event.tile == some placement.tile)
        (provenance "boundary injection source tile or domain is invalid" event)
      ++ require (expected.any fun expected ↦ expected ≤ uint64Max - ready
          && expected + ready == cycle)
        { code := .wrongEventTime
          message := "boundary injection time disagrees with producer readiness"
          edge := event.edge }
      ++ require (!seen.contains (.boundary edge.id offset))
        { code := .duplicateEvent, message := "recurrence boundary injection is duplicated"
          edge := event.edge })

def verifyBoundaryInject (seen : List EventRecord) (event : MaterializedEvent) (cycle : ℕ) :
    Except String EventReport :=
  match event.edge.bind dfg.findEdge, event.consumerIterationOffset, event.boundaryValue with
  | some edge, some offset, some value =>
    if edge.kind = .memory then
      .ok (false, [{ code := .memoryTransportEvent
                     message := "memory edge cannot produce a recurrence boundary injection"
                     edge := event.edge }])
    else if offset ≥ min request.tripCount edge.distance
        ∨ event.logicalIteration ≠ (offset : ℤ) - edge.distance then
      .ok (false, [provenance "boundary injection offset is invalid" event])
    else
      match edge.info.boundary with
      | none =>
        .ok (false, [{ code := .missingEvent
                       message := "boundary injection has no corresponding IR boundary"
                       edge := event.edge }])
      | some boundary =>
        verifyInject dfg mapping schedule seen event cycle edge offset value boundary
  | _, _, _ => .ok (false, [provenance "boundary injection lacks valid provenance" event])

/-- The cycle a live-out is used in, as the issue of its source and the latency. -/
def expectedUse (liveOut : TargetLiveOut) (node : TargetNode) : Except String (Option (ℕ × ℕ)) :=
  match node.resultLatency with
  | none => .ok none
  | some latency =>
    match expectedCycle mapping schedule liveOut.source ((request.tripCount - 1 : ℕ) : ℤ) with
    | .error e => .error e
    | .ok expected => .ok (expected.map fun issue ↦ (issue, latency))

def verifyLiveOutUse (seen : List EventRecord) (event : MaterializedEvent) (cycle : ℕ) :
    Except String EventReport :=
  match event.liveOut.bind fun id ↦ dfg.liveOuts.find? fun liveOut ↦ liveOut.id == id,
      event.node with
  | some liveOut, some eventNode =>
    match dfg.findNode liveOut.source with
    | none => .error ("unknown target DFG node id: " ++ toString liveOut.source)
    | some node =>
      match expectedUse mapping request schedule liveOut node with
      | .error e => .error e
      | .ok expected => .ok (true,
        require (expected.any (fun use ↦ use.1 ≤ uint64Max - use.2 && use.1 + use.2 == cycle)
            && eventNode == liveOut.source
            && event.logicalIteration == ((request.tripCount - 1 : ℕ) : ℤ))
          { code := .wrongEventTime, message := "live-out event time or source is invalid"
            node := some liveOut.source }
        ++ require (!seen.contains (.liveOut liveOut.id))
          { code := .duplicateEvent, message := "live-out boundary event is duplicated"
            node := some liveOut.source })
  | _, _ =>
    .ok (false, [{ code := .wrongEventProvenance
                   message := "live-out event lacks valid provenance", node := event.node }])

/-! ## The scan -/

/-- The record of an event. Missing fields count as zero, as they do in the source. -/
def recordOf (event : MaterializedEvent) (last : ℤ) : EventRecord :=
  match event.kind with
  | .nodeIssue => .range (.nodeIssue (event.node.getD 0)) event.logicalIteration last
  | .linkLaunch =>
    .range (.linkLaunch (event.edge.getD 0) (event.transportActionIndex.getD 0))
      event.logicalIteration last
  | .rfRead => .range (.rfRead (event.segment.getD 0)) event.logicalIteration last
  | .rfWrite => .range (.rfWrite (event.segment.getD 0)) event.logicalIteration last
  | .boundaryValueInject =>
    .boundary (event.edge.getD 0) (event.consumerIterationOffset.getD 0)
  | .liveOutBoundaryUse => .liveOut (event.liveOut.getD 0)

def verifyEvent (seen : List EventRecord) (event : MaterializedEvent) (cycle : ℕ) :
    Except String EventReport :=
  match event.kind with
  | .boundaryValueInject => verifyBoundaryInject dfg mapping request schedule seen event cycle
  | .liveOutBoundaryUse => verifyLiveOutUse dfg mapping request schedule seen event cycle
  | _ => verifyPeriodic dfg mapping request schedule event cycle

/-- An event outside the kernel. -/
def scanEvent (seen : List EventRecord) (item : ℕ × MaterializedEvent) :
    Except String (List EventRecord × List MaterializedScheduleDiagnostic) :=
  match verifyEvent dfg mapping request schedule seen item.2 item.1 with
  | .error e => .error e
  | .ok (recorded, report) =>
    .ok (if recorded then seen ++ [recordOf item.2 item.2.logicalIteration] else seen, report)

/-- An event of the kernel body, which stands for all its repetitions. -/
def scanKernelEvent (seen : List EventRecord) (item : ℕ × MaterializedEvent) :
    Except String (List EventRecord × List MaterializedScheduleDiagnostic) :=
  if item.2.kind = .boundaryValueInject ∨ item.2.kind = .liveOutBoundaryUse then
    .ok (seen, [{ code := .kernelShapeInvalid
                  message := "one-shot event appears in repeating kernel", node := item.2.node
                  edge := item.2.edge, segment := item.2.segment }])
  else
    match verifyPeriodic dfg mapping request schedule item.2 item.1 with
    | .error e => .error e
    | .ok (_, report) =>
      if schedule.kernel.repeatCount = 0 then .ok (seen, report)
      else
        match (toSigned (schedule.kernel.repeatCount - 1)).bind
            (addSigned item.2.logicalIteration) with
        | none =>
          .ok (seen, report ++ [overflow "kernel event iteration range overflows signed time"])
        | some rangeEnd => .ok (seen ++ [recordOf item.2 rangeEnd], report)

/-- Scan the events of consecutive cycles, as far as the cycle index fits. -/
def scanPhase (body : List EventRecord → ℕ × MaterializedEvent →
      Except String (List EventRecord × List MaterializedScheduleDiagnostic))
    (message : String) (seen : List EventRecord) (base : ℕ) (cycles : List CycleBundle) :
    Except String (List EventRecord × List MaterializedScheduleDiagnostic) :=
  let fitting := uint64Max - base + 1
  (loop body seen (timed base (cycles.take fitting))).map fun result ↦
    (result.1, result.2 ++ require (cycles.length ≤ fitting) (overflow message))

def scan : Except String (List EventRecord × List MaterializedScheduleDiagnostic) := do
  let kernelStart := schedule.prologue.cycles.length
  let kernelCycles := schedule.kernel.repeatCount * schedule.ii
  let prologue ← scanPhase (scanEvent dfg mapping request schedule)
    "schedule cycle index overflows uint64" [] 0 schedule.prologue.cycles
  let kernel ← scanPhase (scanKernelEvent dfg mapping request schedule)
    "kernel cycle index overflows uint64" prologue.1 kernelStart schedule.kernel.body
  let epilogue ← scanPhase (scanEvent dfg mapping request schedule)
    "schedule cycle index overflows uint64" kernel.1 (kernelStart + kernelCycles)
    schedule.epilogue.cycles
  return (epilogue.1, prologue.2 ++ kernel.2 ++ epilogue.2)

/-! ## Coverage -/

/-- Follow adjacent ranges from the end of one; the end of the last. -/
def followRanges : ℤ → List (ℤ × ℤ) → Option ℤ
  | finish, [] => some finish
  | finish, range :: ranges =>
    if range.1 ≤ finish then none
    else if finish = int64Max ∨ range.1 ≠ finish + 1 then none
    else followRanges range.2 ranges

/-- The order of pairs. -/
def rangeLe (lhs rhs : ℤ × ℤ) : Bool :=
  decide (lhs.1 < rhs.1) || lhs.1 == rhs.1 && decide (lhs.2 ≤ rhs.2)

def rangesCoverExactly (input : List (ℤ × ℤ)) (expectedFirst expectedLast : ℤ) : Bool :=
  match input.insertionSort fun lhs rhs ↦ rangeLe lhs rhs with
  | [] => false
  | range :: ranges =>
    range.1 == expectedFirst && followRanges range.2 ranges == some expectedLast

def rangeOf (key : PeriodicKey) : EventRecord → Option (ℤ × ℤ)
  | .range recorded first last => if recorded = key then some (first, last) else none
  | _ => none

/-- The ranges recorded for a stream. -/
def rangesOf (seen : List EventRecord) (key : PeriodicKey) : List (ℤ × ℤ) :=
  seen.filterMap (rangeOf key)

/-- The streams and their iterations. -/
def expectedEdgeRanges (edge : TargetEdge) : Except String (List (PeriodicKey × ℤ × ℤ)) :=
  if edge.kind = .memory then .ok []
  else
    match mapping.staged.modulo.dependence edge.id with
    | .error e => .error e
    | .ok dependence =>
      match dependence.transport with
      | none => .ok []
      | some plan =>
        .ok (plan.actions.zipIdx.filterMap fun action ↦
          match action.1 with
          | .linkStep _ => some (.linkLaunch edge.id action.2, -(edge.distance : ℤ),
              (request.tripCount : ℤ) - 1 - edge.distance)
          | .virtualHold _ => none)

def expectedSegmentRanges (segment : StorageSegment) :
    Except String (List (PeriodicKey × ℤ × ℤ)) :=
  match dfg.findEdge segment.edge with
  | none => .error ("unknown target DFG edge id: " ++ toString segment.edge)
  | some edge =>
    let range := (-(edge.distance : ℤ), (request.tripCount : ℤ) - 1 - edge.distance)
    .ok [(.rfWrite segment.id, range), (.rfRead segment.id, range)]

def expectedRanges : Except String (List (PeriodicKey × ℤ × ℤ)) := do
  let edges ← dfg.edges.mapM (expectedEdgeRanges mapping request)
  let segments ← mapping.storageRequirements.segments.mapM (expectedSegmentRanges dfg request)
  return (dfg.nodes.map fun node ↦ (.nodeIssue node.id, 0, (request.tripCount : ℤ) - 1))
    ++ edges.flatten ++ segments.flatten

/-- The place of a stream in a map keyed by kind, then ids. -/
def keyRank : PeriodicKey → ℕ × ℕ × ℕ
  | .rfRead segment => (1, segment, 0)
  | .nodeIssue node => (2, node, 0)
  | .linkLaunch edge action => (3, edge, action)
  | .rfWrite segment => (4, segment, 0)

def keyLe (lhs rhs : PeriodicKey) : Bool :=
  let l := keyRank lhs
  let r := keyRank rhs
  decide (l.1 < r.1) || l.1 == r.1 &&
  (decide (l.2.1 < r.2.1) || l.2.1 == r.2.1 && decide (l.2.2 ≤ r.2.2))

def missingStream (key : PeriodicKey) : MaterializedScheduleDiagnostic :=
  { code := .missingEvent, message := "periodic event stream is missing or duplicated"
    edge := match key with
      | .linkLaunch edge _ => some edge
      | _ => none
    segment := match key with
      | .rfRead segment => some segment
      | .rfWrite segment => some segment
      | _ => none }

def checkStreams (seen : List EventRecord) (expected : List (PeriodicKey × ℤ × ℤ)) :
    List MaterializedScheduleDiagnostic :=
  ((expected.insertionSort fun lhs rhs ↦ keyLe lhs.1 rhs.1).flatMap fun entry ↦
    require (rangesCoverExactly (rangesOf seen entry.1) entry.2.1 entry.2.2)
      (missingStream entry.1))
  ++ (seen.filterMap fun entry ↦
      match entry with
      | .range key _ _ => some key
      | _ => none).dedup.flatMap fun key ↦
    require (expected.any fun entry ↦ entry.1 == key)
      { code := .duplicateEvent
        message := "schedule contains an unexpected periodic event stream" }

def checkOneShots (seen : List EventRecord) : List MaterializedScheduleDiagnostic :=
  (dfg.edges.flatMap fun edge ↦
    if edge.kind = .memory then []
    else (List.range (min request.tripCount edge.distance)).flatMap fun offset ↦
      require (seen.contains (.boundary edge.id offset))
        { code := .missingEvent, message := "recurrence boundary injection is missing"
          edge := some edge.id })
  ++ dfg.liveOuts.flatMap fun liveOut ↦
    require (seen.contains (.liveOut liveOut.id))
      { code := .missingEvent, message := "live-out boundary event is missing"
        node := some liveOut.source }

def checkEvents : Except String (List MaterializedScheduleDiagnostic) := do
  let scanned ← scan dfg mapping request schedule
  let expected ← expectedRanges dfg mapping request
  return scanned.2 ++ checkStreams scanned.1 expected ++ checkOneShots dfg request scanned.1

/-- The report; the schedule is accepted when the verifier returns and the report is empty. -/
def verify : Except String (List MaterializedScheduleDiagnostic) :=
  stage (require (request.tripCount != 0)
    { code := .invalidTripCount, message := "trip count must be positive" }) <|
  stage (require ((request.tripCount : ℤ) ≤ int64Max)
    (overflow "trip count does not fit signed event provenance")) <|
  stage (require (TargetDFGVerifier.verify dfg target).isEmpty
    { code := .invalidTargetDFG
      message := TargetDFGVerifier.format (TargetDFGVerifier.verify dfg target) }) <|
  match RFAllocationVerifier.verify dfg target mapping with
  | .error e => .error e
  | .ok rfReport =>
    stage (require rfReport.isEmpty
      { code := .invalidRFMapping, message := RFAllocationVerifier.format rfReport }) <|
    stage (require (schedule.tripCount == request.tripCount
        && schedule.ii == mapping.staged.modulo.ii)
      { code := .invalidTripCount
        message := "materialized schedule metadata disagrees with request or mapping" }) <|
    stage (require (!(schedule.kernel.repeatCount == 0 && !schedule.kernel.body.isEmpty)
        && !(schedule.kernel.repeatCount != 0 && schedule.kernel.body.length != schedule.ii))
      (shapeInvalid
        "kernel body must be empty when not repeated and contain exactly II cycles otherwise")) <|
    stage (require (schedule.totalLogicalCycles != 0)
      (shapeInvalid "materialized schedule must contain at least one cycle")) <|
    match expectedSpans dfg mapping request schedule with
    | .error e => .error e
    | .ok spans =>
      checkBounds schedule spans <|
      stage (checkPhases schedule) (checkEvents dfg mapping request schedule)

end Verify

end MaterializedScheduleVerifier

end PredicatedMesh
