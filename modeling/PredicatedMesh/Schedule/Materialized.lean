import PredicatedMesh.RegisterAllocation.Storage
import PredicatedMesh.Schedule.SignedTime

/-!
# Materialized schedules

A materialized schedule is a finite list of cycles, each with the events that happen in it, in three
parts: a prologue, a kernel body that is run `repeatCount` times, and an epilogue. An event carries
the iteration it belongs to; in repetition `k` of the body that iteration is `k` larger.

`MaterializedSchedule.expansion` unrolls the kernel and pairs every event with its cycle. What it
should contain is said by `OccursAt`, which does not mention prologues or kernels: each node, each
link of a route and each access of a register is a stream with one event per iteration, `ii` cycles
apart, and the boundary events happen once.
-/

namespace PredicatedMesh

/-! ## Events -/

inductive MaterializedEventKind
  | boundaryValueInject
  | rfRead
  | nodeIssue
  | linkLaunch
  | rfWrite
  | liveOutBoundaryUse
  deriving DecidableEq, Repr

structure MaterializedEvent where
  kind : MaterializedEventKind
  logicalIteration : ℤ
  node : Option TargetNodeId := none
  edge : Option TargetEdgeId := none
  segment : Option StorageSegmentId := none
  liveOut : Option ℕ := none
  transportActionIndex : Option ℕ := none
  consumerIterationOffset : Option ℕ := none
  boundaryValue : Option ExternalOperandBinding := none
  domain : Option NetworkDomain := none
  tile : Option TileCoord := none
  direction : Option Direction := none
  physicalRegister : Option PhysicalRegister := none
  deriving DecidableEq, Repr

/-- The streams of events that repeat in every iteration. -/
inductive PeriodicKey
  | rfRead (segment : StorageSegmentId)
  | nodeIssue (node : TargetNodeId)
  | linkLaunch (edge : TargetEdgeId) (action : ℕ)
  | rfWrite (segment : StorageSegmentId)
  deriving DecidableEq, Repr

/-- What happens in an event, without the fields that merely repeat the mapping. -/
inductive EventName
  /-- An iteration of a stream. -/
  | periodic (key : PeriodicKey) (iteration : ℤ)
  | boundaryValueInject (edge : TargetEdgeId) (offset : ℕ)
  | liveOutBoundaryUse (liveOut : ℕ) (iteration : ℤ)
  deriving DecidableEq, Repr

namespace MaterializedEvent

/-- The name of an event, if it carries the fields its kind needs. -/
def name? (event : MaterializedEvent) : Option EventName :=
  match event.kind with
  | .rfRead => event.segment.map fun segment ↦ .periodic (.rfRead segment) event.logicalIteration
  | .nodeIssue => event.node.map fun node ↦ .periodic (.nodeIssue node) event.logicalIteration
  | .linkLaunch =>
    match event.edge, event.transportActionIndex with
    | some edge, some action => some (.periodic (.linkLaunch edge action) event.logicalIteration)
    | _, _ => none
  | .rfWrite => event.segment.map fun segment ↦ .periodic (.rfWrite segment) event.logicalIteration
  | .boundaryValueInject =>
    match event.edge, event.consumerIterationOffset with
    | some edge, some offset => some (.boundaryValueInject edge offset)
    | _, _ => none
  | .liveOutBoundaryUse =>
    event.liveOut.map fun liveOut ↦ .liveOutBoundaryUse liveOut event.logicalIteration

/-- The same event, `k` iterations later. -/
def advance (k : ℕ) (event : MaterializedEvent) : MaterializedEvent :=
  { event with logicalIteration := event.logicalIteration + k }

end MaterializedEvent

/-! ## Schedules -/

structure CycleBundle where
  events : List MaterializedEvent
  deriving DecidableEq, Repr

def CycleBundle.advance (k : ℕ) (bundle : CycleBundle) : CycleBundle :=
  ⟨bundle.events.map (MaterializedEvent.advance k)⟩

structure SchedulePhase where
  cycles : List CycleBundle
  deriving DecidableEq, Repr

structure RepeatingKernel where
  body : List CycleBundle
  repeatCount : ℕ
  deriving DecidableEq, Repr

structure MaterializedSchedule where
  ii : ℕ
  tripCount : ℕ
  timeOriginShift : ℕ
  totalLogicalCycles : ℕ
  prologue : SchedulePhase
  kernel : RepeatingKernel
  epilogue : SchedulePhase
  deriving DecidableEq, Repr

/-- The events of consecutive cycles, each with its cycle. -/
def timed (base : ℕ) (cycles : List CycleBundle) : List (ℕ × MaterializedEvent) :=
  (cycles.zipIdx base).flatMap fun bundle ↦ bundle.1.events.map fun event ↦ (bundle.2, event)

namespace MaterializedSchedule

/-- The cycles of the whole execution: prologue, every repetition of the kernel, epilogue. -/
def cycles (schedule : MaterializedSchedule) : List CycleBundle :=
  schedule.prologue.cycles
  ++ ((List.range schedule.kernel.repeatCount).flatMap fun k ↦
    schedule.kernel.body.map (CycleBundle.advance k))
  ++ schedule.epilogue.cycles

/-- Every event of the execution with its cycle. -/
def expansion (schedule : MaterializedSchedule) : List (ℕ × MaterializedEvent) :=
  timed 0 schedule.cycles

end MaterializedSchedule

/-! ## The events of a loop -/

section Events

variable (dfg : TargetDFG) (mapping : RFAllocatedMapping) (tripCount : ℕ)

/-- The streams: the time of iteration zero, relative to the first issue of iteration zero, and the
first and the last iteration. A value edge of distance `d` runs for the producer iterations its
consumers need, which begin `d` before the first and end `d` before the last. -/
inductive Stream : PeriodicKey → ℕ → ℤ → ℤ → Prop
  | nodeIssue {node : TargetNode} {time : ℕ} : node ∈ dfg.nodes →
      mapping.staged.logicalIssueTime node.id = .ok time →
      Stream (.nodeIssue node.id) time 0 (tripCount - 1)
  | linkLaunch {edge : TargetEdge} {dependence : MappedDependence} {plan : TransportPlan}
      {action : ℕ} {link : LinkStep} {time : ℕ} : edge ∈ dfg.edges → edge.kind ≠ .memory →
      mapping.staged.modulo.dependence edge.id = .ok dependence →
      dependence.transport = some plan → plan.actions[action]? = some (.linkStep link) →
      mapping.staged.logicalIssueTime edge.src = .ok time →
      Stream (.linkLaunch edge.id action) (time + link.elapsedFromProducerIssue) (-edge.distance)
        (tripCount - 1 - edge.distance)
  | rfWrite {segment : StorageSegment} {edge : TargetEdge} :
      segment ∈ mapping.storageRequirements.segments → edge ∈ dfg.edges →
      edge.id = segment.edge →
      Stream (.rfWrite segment.id) segment.writeTime (-edge.distance)
        (tripCount - 1 - edge.distance)
  | rfRead {segment : StorageSegment} {edge : TargetEdge} :
      segment ∈ mapping.storageRequirements.segments → edge ∈ dfg.edges →
      edge.id = segment.edge →
      Stream (.rfRead segment.id) segment.readTime (-edge.distance)
        (tripCount - 1 - edge.distance)

/-- The events of `tripCount` iterations and the cycles they happen in, when logical time zero is
cycle `shift`. -/
inductive OccursAt (shift : ℕ) : EventName → ℤ → Prop
  | periodic {key : PeriodicKey} {time : ℕ} {first last iteration : ℤ} :
      Stream dfg mapping tripCount key time first last → first ≤ iteration → iteration ≤ last →
      OccursAt shift (.periodic key iteration)
        (shift + time + iteration * mapping.staged.modulo.ii)
  | boundaryValueInject {edge : TargetEdge} {src : TargetNode} {time offset : ℕ} :
      edge ∈ dfg.edges → edge.kind ≠ .memory → offset < min tripCount edge.distance →
      dfg.findNode edge.src = some src → mapping.staged.logicalIssueTime edge.src = .ok time →
      OccursAt shift (.boundaryValueInject edge.id offset)
        (shift + time + ((offset : ℤ) - edge.distance) * mapping.staged.modulo.ii
          + src.producerOutputReadyOffset.getD 0)
  | liveOutBoundaryUse {liveOut : TargetLiveOut} {node : TargetNode} {time latency : ℕ} :
      liveOut ∈ dfg.liveOuts → dfg.findNode liveOut.source = some node →
      node.resultLatency = some latency →
      mapping.staged.logicalIssueTime liveOut.source = .ok time →
      OccursAt shift (.liveOutBoundaryUse liveOut.id (tripCount - 1))
        (shift + time + (tripCount - 1) * mapping.staged.modulo.ii + latency)

end Events

end PredicatedMesh
