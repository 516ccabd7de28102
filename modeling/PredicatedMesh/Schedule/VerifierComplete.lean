import PredicatedMesh.Schedule.Checked
import PredicatedMesh.Schedule.ExactTime
import PredicatedMesh.Schedule.Execution

/-!
# The verifier accepts exact schedules

`verify_exact` says that an accepted schedule has the events of the loop. Here is the other
direction: a schedule whose expansion has the events of the loop, each with the fields the mapping
gives it, is accepted, provided the times fit.

One more thing is needed, and it is no property of the schedule. For an event of an edge the
verifier first computes the cycle in which its producer issues the iteration the event belongs to,
and gives up when that cycle would lie before cycle zero. The value may leave the producer later
than it issues, so the origin of time, which is the first event, can be too late for that. This is
`TimesFit.issued`.

## Where the arithmetic is

Everything the verifier computes for an event lies between minus the time origin and the cycle of
the event, so a bound on the cycles and on the times of iteration zero is a bound on all of it.
-/

namespace PredicatedMesh

open Scan Tiling MaterializedScheduleVerifier

/-! ## Events with their fields -/

/-- A write or a read of a segment, at the register it is allocated. -/
def accessEvent (segment : StorageSegment) (allocation : StorageAllocation) (write : Bool)
    (iteration : ℤ) : MaterializedEvent :=
  { kind := if write then .rfWrite else .rfRead, edge := some segment.edge
    segment := some segment.id, logicalIteration := iteration
    domain := some (if segment.domain = .predicate then .predicate else .data)
    tile := some segment.tile, physicalRegister := some allocation.reg }

section Events

variable (dfg : TargetDFG) (mapping : RFAllocatedMapping) (tripCount : ℕ)

/-- The event of a name, with the fields the mapping gives it. -/
inductive EventFor : EventName → MaterializedEvent → Prop
  | nodeIssue {node : TargetNode} (iteration : ℤ) : node ∈ dfg.nodes →
      EventFor (.periodic (.nodeIssue node.id) iteration)
        { kind := .nodeIssue, node := some node.id, logicalIteration := iteration }
  | linkLaunch {edge : TargetEdge} {dependence : MappedDependence} {plan : TransportPlan}
      {action : ℕ} {link : LinkStep} (iteration : ℤ) : edge ∈ dfg.edges → edge.kind ≠ .memory →
      mapping.staged.modulo.dependence edge.id = .ok dependence →
      dependence.transport = some plan → plan.actions[action]? = some (.linkStep link) →
      EventFor (.periodic (.linkLaunch edge.id action) iteration)
        { kind := .linkLaunch, edge := some edge.id, transportActionIndex := some action
          logicalIteration := iteration, domain := some link.domain, tile := some link.source
          direction := some link.direction }
  | rfWrite {segment : StorageSegment} {allocation : StorageAllocation} (iteration : ℤ) :
      segment ∈ mapping.storageRequirements.segments →
      mapping.allocationFor segment.id = some allocation →
      EventFor (.periodic (.rfWrite segment.id) iteration)
        (accessEvent segment allocation true iteration)
  | rfRead {segment : StorageSegment} {allocation : StorageAllocation} (iteration : ℤ) :
      segment ∈ mapping.storageRequirements.segments →
      mapping.allocationFor segment.id = some allocation →
      EventFor (.periodic (.rfRead segment.id) iteration)
        (accessEvent segment allocation false iteration)
  | boundaryValueInject {edge : TargetEdge} {placement : NodePlacement} {offset : ℕ}
      {value : ExternalOperandBinding} : edge ∈ dfg.edges → edge.kind ≠ .memory →
      mapping.staged.modulo.placement edge.src = .ok placement →
      ScheduleMaterializer.boundaryValue edge offset = some value →
      EventFor (.boundaryValueInject edge.id offset)
        { kind := .boundaryValueInject, edge := some edge.id
          domain := some (ScheduleMaterializer.domainFor edge.kind), tile := some placement.tile
          logicalIteration := (offset : ℤ) - edge.distance, consumerIterationOffset := some offset
          boundaryValue := some value }
  | liveOutBoundaryUse {liveOut : TargetLiveOut} : liveOut ∈ dfg.liveOuts →
      EventFor (.liveOutBoundaryUse liveOut.id ((tripCount : ℤ) - 1))
        { kind := .liveOutBoundaryUse, liveOut := some liveOut.id, node := some liveOut.source
          logicalIteration := (tripCount : ℤ) - 1 }

end Events

section Inversion

variable {dfg : TargetDFG} {mapping : RFAllocatedMapping} {tripCount : ℕ}

theorem EventFor.name {name : EventName} {event : MaterializedEvent}
    (h : EventFor dfg mapping tripCount name event) : event.name? = some name := by
  rcases h with _ | _ | _ | _ | _ | _ <;> rfl

/-- Another iteration of a stream has the same fields. -/
theorem EventFor.at {key : PeriodicKey} {i : ℤ} {event : MaterializedEvent}
    (h : EventFor dfg mapping tripCount (.periodic key i) event) (j : ℤ) :
    EventFor dfg mapping tripCount (.periodic key j) { event with logicalIteration := j } := by
  rcases h with ⟨-, hnode⟩ | ⟨-, hedge, hkind, hdependence, hplan, haction⟩ | ⟨-, hmem, hentry⟩ |
    ⟨-, hmem, hentry⟩
  · exact EventFor.nodeIssue j hnode
  · exact EventFor.linkLaunch j hedge hkind hdependence hplan haction
  · exact EventFor.rfWrite j hmem hentry
  · exact EventFor.rfRead j hmem hentry

theorem Stream.of_nodeIssue {id : TargetNodeId} {time : ℕ} {first last : ℤ}
    (h : Stream dfg mapping tripCount (.nodeIssue id) time first last) :
    mapping.staged.logicalIssueTime id = .ok time ∧ first = 0 ∧ last = tripCount - 1 := by
  rcases h with ⟨-, htime⟩
  exact ⟨htime, rfl, rfl⟩

theorem Stream.of_linkLaunch {id : TargetEdgeId} {action time : ℕ} {first last : ℤ}
    (h : Stream dfg mapping tripCount (.linkLaunch id action) time first last) :
    ∃ edge dependence plan link issue, edge ∈ dfg.edges ∧ edge.id = id ∧ edge.kind ≠ .memory ∧
      mapping.staged.modulo.dependence edge.id = .ok dependence ∧
      dependence.transport = some plan ∧ plan.actions[action]? = some (.linkStep link) ∧
      mapping.staged.logicalIssueTime edge.src = .ok issue ∧
      time = issue + link.elapsedFromProducerIssue ∧ first = -edge.distance ∧
      last = tripCount - 1 - edge.distance := by
  rcases h with _ | ⟨hedge, hkind, hdependence, hplan, haction, htime⟩
  exact ⟨_, _, _, _, _, hedge, rfl, hkind, hdependence, hplan, haction, htime, rfl, rfl, rfl⟩

theorem Stream.of_access {id : StorageSegmentId} {time : ℕ} {first last : ℤ} {write : Bool}
    (h : Stream dfg mapping tripCount (if write then .rfWrite id else .rfRead id) time first last) :
    ∃ segment ∈ mapping.storageRequirements.segments, ∃ edge ∈ dfg.edges, segment.id = id ∧
      edge.id = segment.edge ∧ time = (if write then segment.writeTime else segment.readTime) ∧
      first = -edge.distance ∧ last = tripCount - 1 - edge.distance := by
  cases write with
  | true =>
    rcases h with _ | _ | ⟨hmem, hedge, hid⟩
    exact ⟨_, hmem, _, hedge, rfl, hid, rfl, rfl, rfl⟩
  | false =>
    rcases h with _ | _ | _ | ⟨hmem, hedge, hid⟩
    exact ⟨_, hmem, _, hedge, rfl, hid, rfl, rfl, rfl⟩

/-- Every stream has as many iterations as the loop. -/
theorem Stream.last_eq {key : PeriodicKey} {time : ℕ} {first last : ℤ}
    (h : Stream dfg mapping tripCount key time first last) : last = first + tripCount - 1 := by
  rcases h with _ | _ | _ | _
  all_goals omega

/-- The iterations of a stream are determined by its key. -/
theorem Stream.range_unique {target : TargetModel} (hv : dfg.Verified target)
    (hids : (mapping.storageRequirements.segments.map StorageSegment.id).Nodup)
    {key : PeriodicKey} {time time' : ℕ} {first last first' last' : ℤ}
    (h : Stream dfg mapping tripCount key time first last)
    (h' : Stream dfg mapping tripCount key time' first' last') :
    first = first' ∧ last = last' := by
  have haccess : ∀ (write : Bool) id,
      Stream dfg mapping tripCount (if write then .rfWrite id else .rfRead id) time first last →
      Stream dfg mapping tripCount (if write then .rfWrite id else .rfRead id) time' first' last' →
      first = first' ∧ last = last' := by
    intro write id h h'
    obtain ⟨segment, hmem, edge, hedge, hid, hedgeId, -, rfl, rfl⟩ := h.of_access
    obtain ⟨segment', hmem', edge', hedge', hid', hedgeId', -, rfl, rfl⟩ := h'.of_access
    obtain rfl := List.inj_on_of_nodup_map hids hmem hmem' (hid.trans hid'.symm)
    obtain rfl := hv.edge_eq_of_id_eq hedge hedge' (hedgeId.trans hedgeId'.symm)
    exact ⟨rfl, rfl⟩
  cases key with
  | nodeIssue id =>
    obtain ⟨-, rfl, rfl⟩ := h.of_nodeIssue
    obtain ⟨-, rfl, rfl⟩ := h'.of_nodeIssue
    exact ⟨rfl, rfl⟩
  | linkLaunch id action =>
    obtain ⟨edge, _, _, _, _, hedge, hid, -, -, -, -, -, -, rfl, rfl⟩ := h.of_linkLaunch
    obtain ⟨edge', _, _, _, _, hedge', hid', -, -, -, -, -, -, rfl, rfl⟩ := h'.of_linkLaunch
    obtain rfl := hv.edge_eq_of_id_eq hedge hedge' (hid.trans hid'.symm)
    exact ⟨rfl, rfl⟩
  | rfWrite id => exact haccess true id h h'
  | rfRead id => exact haccess false id h h'

theorem OccursAt.of_periodic {key : PeriodicKey} {iteration cycle : ℤ} {shift : ℕ}
    (h : OccursAt dfg mapping tripCount shift (.periodic key iteration) cycle) :
    ∃ time first last, Stream dfg mapping tripCount key time first last ∧ first ≤ iteration ∧
      iteration ≤ last ∧ cycle = shift + time + iteration * mapping.staged.modulo.ii := by
  rcases h with ⟨hstream, hfirst, hlast⟩
  exact ⟨_, _, _, hstream, hfirst, hlast, rfl⟩

theorem OccursAt.of_inject {id : TargetEdgeId} {offset shift : ℕ} {cycle : ℤ}
    (h : OccursAt dfg mapping tripCount shift (.boundaryValueInject id offset) cycle) :
    ∃ edge src time, edge ∈ dfg.edges ∧ edge.id = id ∧ edge.kind ≠ .memory ∧
      offset < min tripCount edge.distance ∧ dfg.findNode edge.src = some src ∧
      mapping.staged.logicalIssueTime edge.src = .ok time ∧
      cycle = shift + time + ((offset : ℤ) - edge.distance) * mapping.staged.modulo.ii
        + src.producerOutputReadyOffset.getD 0 := by
  rcases h with _ | ⟨hedge, hkind, hoffset, hsrc, htime⟩
  exact ⟨_, _, _, hedge, rfl, hkind, hoffset, hsrc, htime, rfl⟩

theorem OccursAt.of_liveOut {id shift : ℕ} {iteration cycle : ℤ}
    (h : OccursAt dfg mapping tripCount shift (.liveOutBoundaryUse id iteration) cycle) :
    ∃ liveOut node time latency, liveOut ∈ dfg.liveOuts ∧ liveOut.id = id ∧
      dfg.findNode liveOut.source = some node ∧ node.resultLatency = some latency ∧
      mapping.staged.logicalIssueTime liveOut.source = .ok time ∧ iteration = tripCount - 1 ∧
      cycle = shift + time + (tripCount - 1) * mapping.staged.modulo.ii + latency := by
  rcases h with _ | _ | ⟨hmem, hsrc, hlatency, htime⟩
  exact ⟨_, _, _, _, hmem, rfl, hsrc, hlatency, htime, rfl, rfl⟩

/-- Moving the origin moves every event. -/
theorem OccursAt.shift {name : EventName} {cycle : ℤ} {shift : ℕ}
    (h : OccursAt dfg mapping tripCount shift name cycle) (shift' : ℕ) :
    OccursAt dfg mapping tripCount shift' name (cycle - shift + shift') := by
  rcases h with ⟨hstream, hfirst, hlast⟩ | ⟨hedge, hkind, hoffset, hsrc, htime⟩ |
    ⟨hmem, hsrc, hlatency, htime⟩
  · convert OccursAt.periodic hstream hfirst hlast using 1
    ring
  · convert OccursAt.boundaryValueInject hedge hkind hoffset hsrc htime using 1
    ring
  · convert OccursAt.liveOutBoundaryUse hmem hsrc hlatency htime using 1
    ring

end Inversion

/-- A value leaves its producer in time for its consumer. -/
theorem StagedMapping.Verified.route {dfg : TargetDFG} {target : TargetModel}
    {mapping : StagedMapping} (h : mapping.Verified dfg target) {edge : TargetEdge}
    (hedge : edge ∈ dfg.edges) (hkind : edge.kind ≠ .memory) :
    ∃ producer ready placement dependence plan issue use,
      dfg.findNode edge.src = some producer ∧ producer.producerOutputReadyOffset = some ready ∧
      mapping.modulo.placement edge.src = .ok placement ∧
      mapping.modulo.dependence edge.id = .ok dependence ∧ dependence.transport = some plan ∧
      mapping.logicalIssueTime edge.src = .ok issue ∧ mapping.logicalIssueTime edge.dst = .ok use ∧
      issue + ready ≤ edge.distance * mapping.modulo.ii + use := by
  obtain ⟨producer, ready, src, dst, dependence, plan, srcIssue, dstIssue, hproducer, hready, hsrc,
    -, hdependence, hplan, ⟨issue, hissue, rfl⟩, ⟨use, huse, rfl⟩, hchain, hle⟩ :=
    h.carried hedge hkind 0
  refine ⟨producer, ready, src, dependence, plan, issue, use, hproducer, hready, hsrc, hdependence,
    hplan, hissue, huse, ?_⟩
  have harrives := hchain.time_le
  simp only [zero_mul, add_zero, zero_add] at harrives hle
  zify
  linarith

/-! ## Times that fit -/

/-- Every time fits, no producer issues before cycle zero, and every live-out has a time. -/
structure TimesFit (dfg : TargetDFG) (mapping : RFAllocatedMapping) (tripCount shift : ℕ) :
    Prop where
  nonneg : ∀ name cycle, OccursAt dfg mapping tripCount shift name cycle → 0 ≤ cycle
  lt : ∀ name cycle, OccursAt dfg mapping tripCount shift name cycle → cycle < int64Max
  time_le : ∀ key time first last, Stream dfg mapping tripCount key time first last →
    (time : ℤ) ≤ int64Max
  issued : ∀ edge ∈ dfg.edges, edge.kind ≠ .memory → ∀ time,
    mapping.staged.logicalIssueTime edge.src = .ok time →
      edge.distance * mapping.staged.modulo.ii ≤ shift + time
  timed : ∀ liveOut ∈ dfg.liveOuts, ∀ node, dfg.findNode liveOut.source = some node →
    node.resultLatency ≠ none

namespace TimesFit

variable {dfg : TargetDFG} {target : TargetModel} {mapping : RFAllocatedMapping}
variable {tripCount shift : ℕ}

/-- A node issues its first iteration in a cycle that fits. -/
theorem issue_lt (h : TimesFit dfg mapping tripCount shift) (hpos : tripCount ≠ 0)
    {node : TargetNode} (hnode : node ∈ dfg.nodes) {time : ℕ}
    (htime : mapping.staged.logicalIssueTime node.id = .ok time) :
    (shift : ℤ) + time < int64Max := by
  have hlt := h.lt _ _ (OccursAt.periodic (Stream.nodeIssue hnode htime) le_rfl (by omega))
  simpa using hlt

/-- The iterations take no longer than the schedule. -/
theorem span_lt (h : TimesFit dfg mapping tripCount shift) (hpos : tripCount ≠ 0)
    {node : TargetNode} (hnode : node ∈ dfg.nodes) {time : ℕ}
    (htime : mapping.staged.logicalIssueTime node.id = .ok time) :
    (shift : ℤ) + time + ((tripCount : ℤ) - 1) * mapping.staged.modulo.ii < int64Max :=
  h.lt _ _ (OccursAt.periodic (Stream.nodeIssue hnode htime) (by omega) le_rfl)

/-- The producer of a value edge issues in a cycle that fits. -/
theorem producer_lt (h : TimesFit dfg mapping tripCount shift) (hv : dfg.Verified target)
    (hpos : tripCount ≠ 0) {edge : TargetEdge} (hedge : edge ∈ dfg.edges) {time : ℕ}
    (htime : mapping.staged.logicalIssueTime edge.src = .ok time) :
    (shift : ℤ) + time < int64Max := by
  obtain ⟨src, -, hsrc, -⟩ := hv.endpoints edge hedge
  rw [← TargetDFG.findNode_id hsrc] at htime
  exact h.issue_lt hpos (TargetDFG.mem_of_findNode hsrc) htime

/-- The streams of an edge begin no further back than time reaches. -/
theorem distance_le (h : TimesFit dfg mapping tripCount shift) (hv : mapping.Verified dfg target)
    (hpos : tripCount ≠ 0) {edge : TargetEdge} (hedge : edge ∈ dfg.edges)
    (hkind : edge.kind ≠ .memory) : (edge.distance : ℤ) * mapping.staged.modulo.ii ≤ int64Max ∧
      (edge.distance : ℤ) ≤ int64Max := by
  obtain ⟨time, -, -, htime, -⟩ := hv.staged.constraints edge hedge
  have hissued := h.issued edge hedge hkind time htime
  have hproducer := h.producer_lt hv.staged.modulo.graph hpos hedge htime
  have hii : edge.distance ≤ edge.distance * mapping.staged.modulo.ii :=
    Nat.le_mul_of_pos_right _ hv.staged.ii_pos
  zify at hissued hii
  constructor
  · linarith
  · linarith

theorem first_le (h : TimesFit dfg mapping tripCount shift) (hv : mapping.Verified dfg target)
    (hpos : tripCount ≠ 0) {key : PeriodicKey} {time : ℕ} {first last : ℤ}
    (hstream : Stream dfg mapping tripCount key time first last) :
    -int64Max ≤ first ∧ first ≤ 0 := by
  have hmax : (0 : ℤ) ≤ int64Max := by decide
  have haccess : ∀ segment ∈ mapping.storageRequirements.segments, ∀ edge ∈ dfg.edges,
      edge.id = segment.edge → (edge.distance : ℤ) ≤ int64Max := by
    intro segment hmem edge hedge hid
    obtain ⟨edge', hedge', hkind, hsame⟩ :=
      StorageRequirementAnalysis.onValueEdges hv.requirements segment hmem
    obtain rfl := hv.staged.modulo.graph.edge_eq_of_id_eq hedge hedge' (hid.trans hsame)
    exact (h.distance_le hv hpos hedge hkind).2
  rcases hstream with _ | ⟨hedge, hkind, -, -, -, -⟩ | ⟨hmem, hedge, hid⟩ | ⟨hmem, hedge, hid⟩
  · omega
  · have hdistance := (h.distance_le hv hpos hedge hkind).2
    omega
  · have hdistance := haccess _ hmem _ hedge hid
    omega
  · have hdistance := haccess _ hmem _ hedge hid
    omega

end TimesFit

/-! ## One event -/

namespace MaterializedScheduleVerifier

variable {dfg : TargetDFG} {target : TargetModel} {mapping : RFAllocatedMapping}
variable {request : ScheduleMaterializationRequest} {schedule : MaterializedSchedule}

/-- The cycle in which a node issues an iteration is computed when it is not negative and fits. -/
theorem expectedCycle_eq (hii : schedule.ii = mapping.staged.modulo.ii) {node : TargetNodeId}
    {iteration : ℤ} {time cycle : ℕ} (htime : mapping.staged.logicalIssueTime node = .ok time)
    (hissue : (schedule.timeOriginShift : ℤ) + time ≤ int64Max)
    (hcycle : (cycle : ℤ)
      = schedule.timeOriginShift + time + iteration * mapping.staged.modulo.ii)
    (hle : (cycle : ℤ) ≤ int64Max) :
    expectedCycle mapping schedule node iteration = .ok (some cycle) := by
  have hmin : int64Min = -int64Max - 1 := by decide
  rw [← hii] at hcycle
  have hdelta : mulSigned iteration schedule.ii = some (iteration * schedule.ii) :=
    mulSigned_of_has (int64_has.mpr ⟨by omega, by omega⟩)
  have hresult : addSigned time (iteration * schedule.ii) = some (time + iteration * schedule.ii) :=
    addSigned_of_has (int64_has.mpr ⟨by omega, by omega⟩) (int64_has.mpr ⟨by omega, by omega⟩)
  have hshifted : addSigned (time + iteration * schedule.ii) schedule.timeOriginShift
      = some (cycle : ℤ) := by
    rw [addSigned_of_has (int64_has.mpr ⟨by omega, by omega⟩) (int64_has.mpr ⟨by omega, by omega⟩)]
    congr 1
    omega
  rw [expectedCycle, htime]
  simp only [toSigned_of_le (by omega : (time : ℤ) ≤ int64Max),
    toSigned_of_le (by omega : (schedule.timeOriginShift : ℤ) ≤ int64Max), hdelta, hresult,
    hshifted, Option.bind_eq_bind, Option.bind_some]
  simp

theorem expectedCycleForEdge_eq (hii : schedule.ii = mapping.staged.modulo.ii) {edge : TargetEdge}
    {iteration : ℤ} {time elapsed cycle : ℕ}
    (htime : mapping.staged.logicalIssueTime edge.src = .ok time)
    (hissue : (schedule.timeOriginShift : ℤ) + time ≤ int64Max)
    (hissued : 0 ≤ (schedule.timeOriginShift : ℤ) + time + iteration * mapping.staged.modulo.ii)
    (hcycle : (cycle : ℤ) = schedule.timeOriginShift + (time + elapsed : ℕ)
      + iteration * mapping.staged.modulo.ii)
    (hle : (cycle : ℤ) ≤ int64Max) :
    expectedCycleForEdge mapping schedule edge elapsed iteration = .ok (some cycle) := by
  obtain ⟨issue, hissueCycle⟩ := Int.eq_ofNat_of_zero_le hissued
  push_cast at hcycle
  have hmin : int64Min = -int64Max - 1 := by decide
  have hexpected := expectedCycle_eq hii htime hissue hissueCycle.symm (by omega)
  have hvalue : addSigned issue elapsed = some (cycle : ℤ) := by
    rw [addSigned_of_has (int64_has.mpr ⟨by omega, by omega⟩) (int64_has.mpr ⟨by omega, by omega⟩)]
    congr 1
    omega
  rw [expectedCycleForEdge, hexpected]
  simp [hvalue]

theorem verifyNodeIssue_eq (hii : schedule.ii = mapping.staged.modulo.ii)
    (hv : dfg.Verified target)
    (hfits : TimesFit dfg mapping request.tripCount schedule.timeOriginShift)
    (hpos : request.tripCount ≠ 0) {node : TargetNode} (hnode : node ∈ dfg.nodes) {iteration : ℤ}
    {cycle : ℕ} (hoccurs : OccursAt dfg mapping request.tripCount schedule.timeOriginShift
      (.periodic (.nodeIssue node.id) iteration) cycle) :
    verifyNodeIssue dfg mapping request schedule
      { kind := .nodeIssue, node := some node.id, logicalIteration := iteration } cycle
      = .ok (true, []) := by
  obtain ⟨time, first, last, hstream, hfirst, hlast, hcycle⟩ := hoccurs.of_periodic
  obtain ⟨htime, rfl, rfl⟩ := hstream.of_nodeIssue
  have hlt := hfits.lt _ _ hoccurs
  have hexpected := expectedCycle_eq hii htime (hfits.issue_lt hpos hnode htime).le hcycle hlt.le
  have hvalid : ¬ (dfg.containsNode node.id = false ∨ iteration < 0
      ∨ iteration.toNat ≥ request.tripCount) := by
    rw [TargetDFG.containsNode, hv.findNode_of_mem hnode]
    simp only [Option.isSome_some, Bool.true_eq_false, false_or]
    omega
  simp only [verifyNodeIssue, if_neg hvalid, hexpected]
  simp [require]

theorem verifyLinkLaunch_eq (hii : schedule.ii = mapping.staged.modulo.ii)
    (hv : dfg.Verified target)
    (hfits : TimesFit dfg mapping request.tripCount schedule.timeOriginShift)
    (hpos : request.tripCount ≠ 0) {edge : TargetEdge} {dependence : MappedDependence}
    {plan : TransportPlan} {action : ℕ} {link : LinkStep} (hedge : edge ∈ dfg.edges)
    (hkind : edge.kind ≠ .memory)
    (hdependence : mapping.staged.modulo.dependence edge.id = .ok dependence)
    (hplan : dependence.transport = some plan)
    (haction : plan.actions[action]? = some (.linkStep link)) {iteration : ℤ} {cycle : ℕ}
    (hoccurs : OccursAt dfg mapping request.tripCount schedule.timeOriginShift
      (.periodic (.linkLaunch edge.id action) iteration) cycle) :
    verifyLinkLaunch dfg mapping request schedule
      { kind := .linkLaunch, edge := some edge.id, transportActionIndex := some action
        logicalIteration := iteration, domain := some link.domain, tile := some link.source
        direction := some link.direction } cycle = .ok (true, []) := by
  obtain ⟨time, first, last, hstream, hfirst, hlast, hcycle⟩ := hoccurs.of_periodic
  obtain ⟨edge', dependence', plan', link', issue, hedge', hid, -, hdependence', hplan', haction',
    htime, rfl, rfl, rfl⟩ := hstream.of_linkLaunch
  obtain rfl := hv.edge_eq_of_id_eq hedge' hedge hid
  obtain rfl := Except.ok.inj (hdependence'.symm.trans hdependence)
  obtain rfl := Option.some.inj (hplan'.symm.trans hplan)
  obtain rfl : link' = link := by simpa [haction'] using haction
  -- the producer iteration begins in cycle zero or later
  have hissued : 0 ≤ (schedule.timeOriginShift : ℤ) + issue
      + iteration * mapping.staged.modulo.ii := by
    have hpre := hfits.issued edge' hedge hkind issue htime
    have hle := mul_le_mul_of_nonneg_right hfirst (Int.natCast_nonneg mapping.staged.modulo.ii)
    zify at hpre
    linarith
  have hexpected : expectedCycleForEdge mapping schedule edge' link'.elapsedFromProducerIssue
      iteration = .ok (some cycle) :=
    expectedCycleForEdge_eq hii htime (hfits.producer_lt hv hpos hedge htime).le hissued hcycle
      (hfits.lt _ _ hoccurs).le
  simp only [verifyLinkLaunch, Option.bind_some, hv.findEdge_of_mem hedge, if_neg hkind,
    hdependence, hplan, haction, verifyLink, hexpected]
  simp [require, hfirst, hlast]

theorem expectedAccess_eq {base shift iteration : ℤ} {cycle : ℕ}
    (hbase : 0 ≤ base ∧ base ≤ int64Max) (hshift : 0 ≤ shift ∧ shift ≤ int64Max)
    (hdelta : -int64Max ≤ iteration * schedule.ii)
    (hcycle : (cycle : ℤ) = shift + base + iteration * schedule.ii)
    (hle : (cycle : ℤ) ≤ int64Max) :
    expectedAccess schedule base shift iteration = some cycle := by
  have hmin : int64Min = -int64Max - 1 := by decide
  have hmul : mulSigned iteration schedule.ii = some (iteration * schedule.ii) :=
    mulSigned_of_has (int64_has.mpr ⟨by omega, by omega⟩)
  have hsum : addSigned base (iteration * schedule.ii) = some (base + iteration * schedule.ii) :=
    addSigned_of_has (int64_has.mpr ⟨by omega, by omega⟩) (int64_has.mpr ⟨by omega, by omega⟩)
  have hshifted : addSigned (base + iteration * schedule.ii) shift = some (cycle : ℤ) := by
    rw [addSigned_of_has (int64_has.mpr ⟨by omega, by omega⟩) (int64_has.mpr ⟨by omega, by omega⟩)]
    congr 1
    omega
  simp [expectedAccess, hmul, hsum, hshifted]

/-- A write or a read is checked against the time of its segment, whichever of the two it is. -/
theorem verifyRFAccess_eq (hii : schedule.ii = mapping.staged.modulo.ii)
    (hv : mapping.Verified dfg target)
    (hfits : TimesFit dfg mapping request.tripCount schedule.timeOriginShift)
    (hpos : request.tripCount ≠ 0) {segment : StorageSegment} {allocation : StorageAllocation}
    (hmem : segment ∈ mapping.storageRequirements.segments)
    (hentry : mapping.allocationFor segment.id = some allocation) {write : Bool} {iteration : ℤ}
    {cycle : ℕ} (hoccurs : OccursAt dfg mapping request.tripCount schedule.timeOriginShift
      (.periodic (if write then .rfWrite segment.id else .rfRead segment.id) iteration) cycle) :
    verifyRFAccess dfg mapping request schedule (accessEvent segment allocation write iteration)
      cycle = (true, []) := by
  have hgraph := hv.staged.modulo.graph
  have hids := StorageRequirementAnalysis.nodup_ids hv.requirements
  obtain ⟨time, first, last, hstream, hfirst, hlast, hcycle⟩ := hoccurs.of_periodic
  obtain ⟨segment', hmem', edge, hedge, hid, hedgeId, rfl, rfl, rfl⟩ := hstream.of_access
  obtain rfl := List.inj_on_of_nodup_map hids hmem' hmem hid
  have hlt := hfits.lt _ _ hoccurs
  have htime := hfits.time_le _ _ _ _ hstream
  -- the producer of the edge bounds how far back the iterations reach
  have hkind : edge.kind ≠ .memory := by
    obtain ⟨edge', hedge', hvalue, hsame⟩ :=
      StorageRequirementAnalysis.onValueEdges hv.requirements segment' hmem
    rwa [hgraph.edge_eq_of_id_eq hedge hedge' (hedgeId.trans hsame)]
  obtain ⟨issue, -, -, hissue, -⟩ := hv.staged.constraints edge hedge
  have hissued := hfits.issued edge hedge hkind issue hissue
  have hproducer := hfits.producer_lt hgraph hpos hedge hissue
  have hback := mul_le_mul_of_nonneg_right hfirst (Int.natCast_nonneg mapping.staged.modulo.ii)
  have hdelta : -int64Max ≤ iteration * schedule.ii := by
    rw [hii]
    zify at hissued
    linarith
  rw [← hii] at hcycle
  have hexpected := expectedAccess_eq ⟨Int.natCast_nonneg _, htime⟩
    ⟨Int.natCast_nonneg schedule.timeOriginShift, by omega⟩ hdelta hcycle hlt.le
  have hfound : mapping.storageRequirements.segments.find? (fun s ↦ s.id == segment'.id)
      = some segment' := find?_eq_some_of_nodup hids hmem
  have hbase : toSigned (if (if write then MaterializedEventKind.rfWrite else .rfRead) = .rfWrite
        then segment'.writeTime else segment'.readTime)
      = some ((if write then segment'.writeTime else segment'.readTime : ℕ) : ℤ) := by
    have hsame : (if (if write then MaterializedEventKind.rfWrite else .rfRead) = .rfWrite
        then segment'.writeTime else segment'.readTime)
        = if write then segment'.writeTime else segment'.readTime := by
      cases write <;> rfl
    rw [hsame, toSigned_of_le htime]
  simp only [verifyRFAccess, accessEvent, hfound, verifySegmentAccess, hentry, ← hedgeId,
    hgraph.findEdge_of_mem hedge, verifyAccessTime, hbase,
    toSigned_of_le (by omega : (schedule.timeOriginShift : ℤ) ≤ int64Max), hexpected]
  simp [require, hfirst, hlast]

/-- **An event of a stream passes its check.** -/
theorem verifyPeriodic_eq (hii : schedule.ii = mapping.staged.modulo.ii)
    (hv : mapping.Verified dfg target)
    (hfits : TimesFit dfg mapping request.tripCount schedule.timeOriginShift)
    (hpos : request.tripCount ≠ 0) {key : PeriodicKey} {iteration : ℤ} {event : MaterializedEvent}
    (hevent : EventFor dfg mapping request.tripCount (.periodic key iteration) event) {cycle : ℕ}
    (hoccurs : OccursAt dfg mapping request.tripCount schedule.timeOriginShift
      (.periodic key iteration) cycle) :
    verifyPeriodic dfg mapping request schedule event cycle = .ok (true, []) := by
  have hgraph := hv.staged.modulo.graph
  revert hoccurs
  rcases hevent with ⟨-, hnode⟩ | ⟨-, hedge, hkind, hdependence, hplan, haction⟩ |
    ⟨-, hmem, hentry⟩ | ⟨-, hmem, hentry⟩
  · exact verifyNodeIssue_eq hii hgraph hfits hpos hnode
  · exact verifyLinkLaunch_eq hii hgraph hfits hpos hedge hkind hdependence hplan haction
  · intro hoccurs
    exact congrArg Except.ok (@verifyRFAccess_eq _ _ _ _ _ hii hv hfits hpos _ _ hmem hentry true _
      _ hoccurs)
  · intro hoccurs
    exact congrArg Except.ok (@verifyRFAccess_eq _ _ _ _ _ hii hv hfits hpos _ _ hmem hentry false _
      _ hoccurs)

/-- An injection passes its check unless it has been recorded before. -/
theorem verifyBoundaryInject_eq (hii : schedule.ii = mapping.staged.modulo.ii)
    (hv : dfg.Verified target)
    (hfits : TimesFit dfg mapping request.tripCount schedule.timeOriginShift)
    (hpos : request.tripCount ≠ 0) {edge : TargetEdge} {placement : NodePlacement} {offset : ℕ}
    {value : ExternalOperandBinding} (hedge : edge ∈ dfg.edges) (hkind : edge.kind ≠ .memory)
    (hplacement : mapping.staged.modulo.placement edge.src = .ok placement)
    (hvalue : ScheduleMaterializer.boundaryValue edge offset = some value) {cycle : ℕ}
    (hoccurs : OccursAt dfg mapping request.tripCount schedule.timeOriginShift
      (.boundaryValueInject edge.id offset) cycle) {seen : List EventRecord}
    (hnew : .boundary edge.id offset ∉ seen) :
    verifyBoundaryInject dfg mapping request schedule seen
      { kind := .boundaryValueInject, edge := some edge.id
        domain := some (ScheduleMaterializer.domainFor edge.kind), tile := some placement.tile
        logicalIteration := (offset : ℤ) - edge.distance, consumerIterationOffset := some offset
        boundaryValue := some value } cycle = .ok (true, []) := by
  obtain ⟨edge', src, time, hedge', hid, -, hoffset, hsrc, htime, hcycle⟩ := hoccurs.of_inject
  obtain rfl := hv.edge_eq_of_id_eq hedge' hedge hid
  have hlt := hfits.lt _ _ hoccurs
  have hpre := hfits.issued edge' hedge hkind time htime
  have hissued : 0 ≤ (schedule.timeOriginShift : ℤ) + time
      + ((offset : ℤ) - edge'.distance) * mapping.staged.modulo.ii := by
    have hnonneg : (0 : ℤ) ≤ offset * mapping.staged.modulo.ii := by positivity
    zify at hpre
    linarith
  obtain ⟨issue, hissue⟩ := Int.eq_ofNat_of_zero_le hissued
  have hmax : (int64Max : ℤ) ≤ uint64Max := by decide
  have hexpected := expectedCycle_eq hii htime (hfits.producer_lt hv hpos hedge htime).le
    hissue.symm (by omega)
  have hsum : issue + src.producerOutputReadyOffset.getD 0 = cycle := by omega
  have hle : issue ≤ uint64Max - src.producerOutputReadyOffset.getD 0 := by omega
  obtain ⟨boundary, hboundary, hfind⟩ := Option.bind_eq_some_iff.mp hvalue
  obtain ⟨entry, hfound, hentry⟩ := Option.bind_eq_some_iff.mp hfind
  have hrange : ¬ (offset ≥ min request.tripCount edge'.distance
      ∨ (offset : ℤ) - edge'.distance ≠ (offset : ℤ) - edge'.distance) := by
    simp only [ne_eq, not_true_eq_false, or_false]
    omega
  simp only [verifyBoundaryInject, Option.bind_some, hv.findEdge_of_mem hedge, if_neg hkind,
    if_neg hrange, hboundary, verifyInject, hplacement, hsrc, hexpected, hfound]
  simp [require, hle, hsum, hnew, Option.some.inj hentry, ScheduleMaterializer.domainFor]

/-- The use of a live-out passes its check unless it has been recorded before. -/
theorem verifyLiveOutUse_eq (hii : schedule.ii = mapping.staged.modulo.ii)
    (hv : dfg.Verified target)
    (hfits : TimesFit dfg mapping request.tripCount schedule.timeOriginShift)
    (hpos : request.tripCount ≠ 0) {liveOut : TargetLiveOut} (hmem : liveOut ∈ dfg.liveOuts)
    {cycle : ℕ} (hoccurs : OccursAt dfg mapping request.tripCount schedule.timeOriginShift
      (.liveOutBoundaryUse liveOut.id ((request.tripCount : ℤ) - 1)) cycle)
    {seen : List EventRecord} (hnew : .liveOut liveOut.id ∉ seen) :
    verifyLiveOutUse dfg mapping request schedule seen
      { kind := .liveOutBoundaryUse, liveOut := some liveOut.id, node := some liveOut.source
        logicalIteration := (request.tripCount : ℤ) - 1 } cycle = .ok (true, []) := by
  obtain ⟨liveOut', node, time, latency, hmem', hid, hnode, hlatency, htime, -, hcycle⟩ :=
    hoccurs.of_liveOut
  obtain rfl := List.inj_on_of_nodup_map hv.nodup_liveOuts hmem' hmem hid
  have hlt := hfits.lt _ _ hoccurs
  have hsource := TargetDFG.findNode_id hnode
  have hcast : ((request.tripCount - 1 : ℕ) : ℤ) = (request.tripCount : ℤ) - 1 := by omega
  have hissued : 0 ≤ (schedule.timeOriginShift : ℤ) + time
      + ((request.tripCount - 1 : ℕ) : ℤ) * mapping.staged.modulo.ii := by positivity
  obtain ⟨issue, hissue⟩ := Int.eq_ofNat_of_zero_le hissued
  have hmax : (int64Max : ℤ) ≤ uint64Max := by decide
  have hstart := hfits.issue_lt hpos (TargetDFG.mem_of_findNode hnode) (hsource ▸ htime)
  rw [← hcast] at hcycle
  have hexpected := expectedCycle_eq hii htime hstart.le hissue.symm (by omega)
  have hsum : issue + latency = cycle := by omega
  have hle : issue ≤ uint64Max - latency := by omega
  have hfound : dfg.liveOuts.find? (fun l ↦ l.id == liveOut'.id) = some liveOut' :=
    find?_eq_some_of_nodup hv.nodup_liveOuts hmem
  simp only [verifyLiveOutUse, Option.bind_some, hfound, hnode, expectedUse, hlatency, hexpected]
  simp [require, hle, hsum, hnew, hcast]

/-! ## The walk -/

/-- The record of an event stands for the event alone. -/
theorem names_of_eventFor {item : ℕ × MaterializedEvent} {name : EventName} {tripCount : ℕ}
    (h : EventFor dfg mapping tripCount name item.2) :
    (explicitRecord item).names tripCount = [name] := by
  obtain ⟨cycle, event⟩ := item
  rcases h with _ | _ | _ | _ | _ | _
  all_goals simp [explicitRecord, recordOf, EventRecord.names]

/-- The events the mapping asks for, each in its cycle. -/
def Genuine (dfg : TargetDFG) (mapping : RFAllocatedMapping) (tripCount shift : ℕ)
    (item : ℕ × MaterializedEvent) : Prop :=
  ∃ name, EventFor dfg mapping tripCount name item.2 ∧
    OccursAt dfg mapping tripCount shift name item.1

/-- An event that is not an iteration of a stream is recorded once only. -/
def OneShotKind (event : MaterializedEvent) : Prop :=
  event.kind = .boundaryValueInject ∨ event.kind = .liveOutBoundaryUse

theorem kind_of_periodic {key : PeriodicKey} {iteration : ℤ} {event : MaterializedEvent}
    {tripCount : ℕ} (h : EventFor dfg mapping tripCount (.periodic key iteration) event) :
    ¬ OneShotKind event := by
  rcases h with _ | _ | _ | _
  all_goals simp [OneShotKind, accessEvent]

theorem record_ne_range {event : MaterializedEvent} (h : OneShotKind event) (finish : ℤ)
    (key : PeriodicKey) (first last : ℤ) : recordOf event finish ≠ .range key first last := by
  unfold recordOf
  rcases h with hkind | hkind
  all_goals simp [hkind]

theorem scanEvent_eq (hii : schedule.ii = mapping.staged.modulo.ii)
    (hv : mapping.Verified dfg target)
    (hfits : TimesFit dfg mapping request.tripCount schedule.timeOriginShift)
    (hpos : request.tripCount ≠ 0) {item : ℕ × MaterializedEvent}
    (hitem : Genuine dfg mapping request.tripCount schedule.timeOriginShift item)
    {seen : List EventRecord} (hnew : OneShotKind item.2 → explicitRecord item ∉ seen) :
    scanEvent dfg mapping request schedule seen item
      = .ok (seen ++ [explicitRecord item], []) := by
  have hgraph := hv.staged.modulo.graph
  obtain ⟨cycle, event⟩ := item
  obtain ⟨name, hevent, hoccurs⟩ := hitem
  suffices hchecked : verifyEvent dfg mapping request schedule seen event cycle
      = .ok (true, []) by
    rw [scanEvent, hchecked]
    rfl
  cases name with
  | periodic key iteration =>
    have hkind := kind_of_periodic hevent
    rw [OneShotKind, not_or] at hkind
    unfold verifyEvent
    split
    · exact absurd ‹_› hkind.1
    · exact absurd ‹_› hkind.2
    · exact verifyPeriodic_eq hii hv hfits hpos hevent hoccurs
  | boundaryValueInject id offset =>
    revert hnew hoccurs
    rcases hevent with _ | _ | _ | _ | ⟨hedge, hkind, hplacement, hvalue⟩
    intro hnew hoccurs
    exact verifyBoundaryInject_eq hii hgraph hfits hpos hedge hkind hplacement hvalue hoccurs
      (hnew (Or.inl rfl))
  | liveOutBoundaryUse id iteration =>
    revert hnew hoccurs
    rcases hevent with _ | _ | _ | _ | _ | ⟨hmem⟩
    intro hnew hoccurs
    exact verifyLiveOutUse_eq hii hgraph hfits hpos hmem hoccurs (hnew (Or.inr rfl))

/-- Genuine events with the same record have the same name. -/
theorem Genuine.name_eq {item other : ℕ × MaterializedEvent} {tripCount shift : ℕ}
    (h : Genuine dfg mapping tripCount shift item) (h' : Genuine dfg mapping tripCount shift other)
    (hsame : explicitRecord other = explicitRecord item) : other.2.name? = item.2.name? := by
  obtain ⟨name, hevent, -⟩ := h
  obtain ⟨name', hevent', -⟩ := h'
  have hnames := names_of_eventFor hevent'
  rw [hsame, names_of_eventFor hevent] at hnames
  obtain rfl : name = name' := by simpa using hnames
  rw [hevent.name, hevent'.name]

/-- Genuine events with different names are all recorded. -/
theorem loop_scanEvent_eq (hii : schedule.ii = mapping.staged.modulo.ii)
    (hv : mapping.Verified dfg target)
    (hfits : TimesFit dfg mapping request.tripCount schedule.timeOriginShift)
    (hpos : request.tripCount ≠ 0) {items : List (ℕ × MaterializedEvent)}
    (hitems : ∀ item ∈ items, Genuine dfg mapping request.tripCount schedule.timeOriginShift item)
    (hnodup : (items.map fun x ↦ x.2.name?).Nodup) {seen : List EventRecord}
    (hnew : ∀ item ∈ items, OneShotKind item.2 → explicitRecord item ∉ seen) :
    loop (scanEvent dfg mapping request schedule) seen items
      = .ok (seen ++ items.map explicitRecord, []) := by
  apply loop_of_log
  intro before item after hsplit
  have hmem : item ∈ items := by simp [hsplit]
  refine scanEvent_eq hii hv hfits hpos (hitems item hmem) fun hkind hrecorded ↦ ?_
  rcases List.mem_append.mp hrecorded with hrecorded | hrecorded
  · exact hnew item hmem hkind hrecorded
  · -- an event with the same record has the same name
    obtain ⟨other, hother, hsame⟩ := List.mem_map.mp hrecorded
    rw [hsplit, List.map_append, List.map_cons, List.nodup_append] at hnodup
    exact hnodup.2.2 _ (List.mem_map_of_mem hother) _ List.mem_cons_self
      ((hitems item hmem).name_eq (hitems other (by simp [hsplit, hother])) hsame)

theorem scanKernelEvent_eq (hii : schedule.ii = mapping.staged.modulo.ii)
    (hv : mapping.Verified dfg target)
    (hfits : TimesFit dfg mapping request.tripCount schedule.timeOriginShift)
    (hpos : request.tripCount ≠ 0) (hrepeat : schedule.kernel.repeatCount ≠ 0)
    {item : ℕ × MaterializedEvent} {key : PeriodicKey}
    (hevent : EventFor dfg mapping request.tripCount (.periodic key item.2.logicalIteration) item.2)
    (hoccurs : OccursAt dfg mapping request.tripCount schedule.timeOriginShift
      (.periodic key item.2.logicalIteration) item.1)
    (hfirst : int64Min ≤ item.2.logicalIteration)
    (hlast : item.2.logicalIteration + schedule.kernel.repeatCount - 1 ≤ int64Max)
    (hcount : (schedule.kernel.repeatCount : ℤ) ≤ int64Max)
    (seen : List EventRecord) : scanKernelEvent dfg mapping request schedule seen item
      = .ok (seen ++ [kernelRecord schedule item], []) := by
  have hchecked := verifyPeriodic_eq hii hv hfits hpos hevent hoccurs
  have hend : (toSigned (schedule.kernel.repeatCount - 1)).bind (addSigned item.2.logicalIteration)
      = some (item.2.logicalIteration + schedule.kernel.repeatCount - 1) := by
    rw [toSigned_of_le (by omega), Option.bind_some,
      addSigned_of_has (int64_has.mpr ⟨hfirst, by omega⟩) (int64_has.mpr ⟨by omega, by omega⟩)]
    congr 1
    omega
  have hkind := kind_of_periodic hevent
  rw [OneShotKind] at hkind
  rw [scanKernelEvent, if_neg hkind, hchecked]
  simp only [if_neg hrepeat, hend]
  rfl

theorem scanPhase_eq {body : List EventRecord → ℕ × MaterializedEvent →
      Except String (List EventRecord × List MaterializedScheduleDiagnostic)}
    (message : String) {seen seen' : List EventRecord} {base : ℕ} {cycles : List CycleBundle}
    (h : loop body seen (timed base cycles) = .ok (seen', []))
    (hlength : base + cycles.length ≤ uint64Max + 1) :
    scanPhase body message seen base cycles = .ok (seen', []) := by
  have hfits : cycles.length ≤ uint64Max - base + 1 := by omega
  rw [scanPhase, List.take_of_length_le hfits, h]
  simp [Except.map, hfits]

/-! ## The streams -/

/-- The verifier finds every stream, and only streams. -/
theorem expectedRanges_spec (hv : mapping.Verified dfg target) :
    ∃ expected, expectedRanges dfg mapping request = .ok expected ∧ ∀ entry ∈ expected, ∃ time,
      Stream dfg mapping request.tripCount entry.1 time entry.2.1 entry.2.2 := by
  have hgraph := hv.staged.modulo.graph
  have hedges : ∀ edge ∈ dfg.edges, ∃ ranges, expectedEdgeRanges mapping request edge = .ok ranges ∧
      ∀ entry ∈ ranges, ∃ time,
        Stream dfg mapping request.tripCount entry.1 time entry.2.1 entry.2.2 := by
    intro edge hedge
    obtain ⟨time, -, dependence, htime, -, hdependence, -⟩ := hv.staged.constraints edge hedge
    rw [expectedEdgeRanges]
    split
    · exact ⟨[], rfl, by simp⟩
    rename_i hkind
    rw [hdependence]
    simp only
    split
    · exact ⟨[], rfl, by simp⟩
    rename_i plan hplan
    refine ⟨_, rfl, fun entry hentry ↦ ?_⟩
    obtain ⟨⟨action, index⟩, haction, hsome⟩ := List.mem_filterMap.mp hentry
    cases action with
    | virtualHold hold => cases hsome
    | linkStep link =>
      obtain rfl := Option.some.inj hsome
      rw [List.mem_zipIdx_iff_getElem?] at haction
      exact ⟨_, Stream.linkLaunch hedge hkind hdependence hplan haction htime⟩
  have hsegments : ∀ segment ∈ mapping.storageRequirements.segments, ∃ ranges,
      expectedSegmentRanges dfg request segment = .ok ranges ∧ ∀ entry ∈ ranges, ∃ time,
        Stream dfg mapping request.tripCount entry.1 time entry.2.1 entry.2.2 := by
    intro segment hmem
    obtain ⟨edge, hedge, -, hid⟩ :=
      StorageRequirementAnalysis.onValueEdges hv.requirements segment hmem
    rw [expectedSegmentRanges, hid, hgraph.findEdge_of_mem hedge]
    refine ⟨_, rfl, fun entry hentry ↦ ?_⟩
    rcases List.mem_cons.mp hentry with rfl | hentry
    · exact ⟨_, Stream.rfWrite hmem hedge hid.symm⟩
    · rw [List.mem_singleton.mp hentry]
      exact ⟨_, Stream.rfRead hmem hedge hid.symm⟩
  obtain ⟨edgeRanges, hedgeRanges⟩ := exists_mapM fun edge hedge ↦
    (hedges edge hedge).imp fun _ h ↦ h.1
  obtain ⟨segmentRanges, hsegmentRanges⟩ := exists_mapM fun segment hmem ↦
    (hsegments segment hmem).imp fun _ h ↦ h.1
  refine ⟨_, bind_eq_ok.mpr ⟨edgeRanges, hedgeRanges, bind_eq_ok.mpr ⟨segmentRanges,
    hsegmentRanges, rfl⟩⟩, fun entry hentry ↦ ?_⟩
  rcases List.mem_append.mp hentry with hentry | hentry
  · rcases List.mem_append.mp hentry with hentry | hentry
    · obtain ⟨node, hnode, rfl⟩ := List.mem_map.mp hentry
      obtain ⟨time, htime⟩ := hv.staged.times node hnode
      exact ⟨time, Stream.nodeIssue hnode htime⟩
    · obtain ⟨ranges, hranges, hentry⟩ := List.mem_flatten.mp hentry
      obtain ⟨edge, hedge, hresult⟩ := exists_source_of_mem hedgeRanges hranges
      obtain ⟨ranges', hresult', hall⟩ := hedges edge hedge
      obtain rfl := Except.ok.inj (hresult.symm.trans hresult')
      exact hall entry hentry
  · obtain ⟨ranges, hranges, hentry⟩ := List.mem_flatten.mp hentry
    obtain ⟨segment, hmem, hresult⟩ := exists_source_of_mem hsegmentRanges hranges
    obtain ⟨ranges', hresult', hall⟩ := hsegments segment hmem
    obtain rfl := Except.ok.inj (hresult.symm.trans hresult')
    exact hall entry hentry

/-! ## Coverage -/

theorem followRanges_of_tiles {start finish : ℤ} {ranges : List (ℤ × ℤ)}
    (h : Tiles start ranges finish) (hranges : Inhabited ranges) (hmax : finish ≤ int64Max) :
    followRanges start ranges = some finish := by
  induction h with
  | nil start => rfl
  | @cons range ranges finish h ih =>
    have hrange := hranges range List.mem_cons_self
    have hrest : Inhabited ranges := fun r hr ↦ hranges r (List.mem_cons_of_mem _ hr)
    have hle := h.le hrest
    rw [followRanges, if_neg (by omega), if_neg (by omega)]
    exact ih hrest hmax

/-- Ranges that do not meet and cover the expected iterations pass the coverage test. -/
theorem rangesCoverExactly_of_covers {input : List (ℤ × ℤ)} {first last : ℤ}
    (hinput : Inhabited input) (hseparate : input.Pairwise Separate)
    (hcover : ∀ i, (∃ r ∈ input, r.1 ≤ i ∧ i ≤ r.2) ↔ first ≤ i ∧ i ≤ last) (hle : first ≤ last)
    (hmax : last ≤ int64Max) : rangesCoverExactly input first last = true := by
  have hperm := List.perm_insertionSort (fun lhs rhs ↦ rangeLe lhs rhs = true) input
  have hsorted : (input.insertionSort fun lhs rhs ↦ rangeLe lhs rhs = true).Pairwise
      fun r s ↦ r.1 ≤ s.1 := by
    have : Std.Total fun lhs rhs : ℤ × ℤ ↦ rangeLe lhs rhs = true := ⟨fun lhs rhs ↦ by
      simp only [rangeLe, Bool.or_eq_true, Bool.and_eq_true, decide_eq_true_eq, beq_iff_eq]
      omega⟩
    have : IsTrans (ℤ × ℤ) fun lhs rhs ↦ rangeLe lhs rhs = true := ⟨fun a b c ↦ by
      simp only [rangeLe, Bool.or_eq_true, Bool.and_eq_true, decide_eq_true_eq, beq_iff_eq]
      omega⟩
    refine (List.pairwise_insertionSort _ input).imp fun {r s} hrs ↦ ?_
    simp only [rangeLe, Bool.or_eq_true, Bool.and_eq_true, decide_eq_true_eq, beq_iff_eq] at hrs
    omega
  have htiles : Tiles (first - 1) (input.insertionSort fun lhs rhs ↦ rangeLe lhs rhs = true)
      last := by
    refine tiles_of_covers (fun r hr ↦ hinput r (hperm.mem_iff.mp hr)) hsorted
      ((hperm.pairwise_iff Separate.symm).mpr hseparate) (fun i ↦ ?_) (by omega)
    simp only [hperm.mem_iff]
    rw [hcover]
    omega
  have hinhabited : Inhabited (input.insertionSort fun lhs rhs ↦ rangeLe lhs rhs = true) :=
    fun r hr ↦ hinput r (hperm.mem_iff.mp hr)
  unfold rangesCoverExactly
  generalize (input.insertionSort fun lhs rhs ↦ rangeLe lhs rhs = true) = sorted at *
  generalize hstart : first - 1 = start at htiles
  rcases htiles with _ | @⟨range, ranges, _, hrest⟩
  · omega
  · have hfollow := followRanges_of_tiles hrest
      (fun r hr ↦ hinhabited r (List.mem_cons_of_mem _ hr)) hmax
    simp only [hfollow, Bool.and_eq_true, beq_iff_eq, and_true]
    omega

/-- The iterations in the ranges recorded for a stream are those whose names are recorded. -/
theorem exists_mem_rangesOf {seen : List EventRecord} {key : PeriodicKey} {i : ℤ}
    {tripCount : ℕ} : (∃ r ∈ rangesOf seen key, r.1 ≤ i ∧ i ≤ r.2) ↔
      .periodic key i ∈ seen.flatMap (EventRecord.names tripCount) := by
  rw [List.mem_flatMap]
  constructor
  · rintro ⟨range, hrange, hi⟩
    exact ⟨_, mem_rangesOf.mp hrange, mem_names_range.mpr ⟨rfl, hi⟩⟩
  · rintro ⟨entry, hentry, hname⟩
    rcases entry with ⟨recorded, first, last⟩ | _ | _
    · obtain ⟨rfl, hi⟩ := mem_names_range.mp hname
      exact ⟨(first, last), mem_rangesOf.mpr hentry, hi⟩
    · simp [EventRecord.names] at hname
    · simp [EventRecord.names] at hname

/-- The ranges recorded for a stream do not meet when no two records stand for one event. -/
theorem separate_rangesOf {seen : List EventRecord} {tripCount : ℕ}
    (hnodup : (seen.flatMap (EventRecord.names tripCount)).Nodup) (key : PeriodicKey)
    (hinhabited : Inhabited (rangesOf seen key)) : (rangesOf seen key).Pairwise Separate := by
  have hpairwise : (rangesOf seen key).Pairwise fun r s ↦
      ∀ i, ¬ ((r.1 ≤ i ∧ i ≤ r.2) ∧ s.1 ≤ i ∧ i ≤ s.2) := by
    rw [rangesOf, List.pairwise_filterMap]
    refine (List.nodup_flatMap.mp hnodup).2.imp fun {a b} hdisjoint r hr s hs i hi ↦ ?_
    have hrange : ∀ {entry : EventRecord} {range : ℤ × ℤ}, rangeOf key entry = some range →
        entry = .range key range.1 range.2 := by
      intro entry range hentry
      rcases entry with ⟨recorded, first, last⟩ | _ | _
      · simp only [rangeOf, Option.ite_none_right_eq_some, Option.some.injEq] at hentry
        obtain ⟨rfl, rfl⟩ := hentry
        rfl
      · cases hentry
      · cases hentry
    rw [hrange hr, hrange hs] at hdisjoint
    exact hdisjoint (mem_names_range.mpr ⟨rfl, hi.1⟩) (mem_names_range.mpr ⟨rfl, hi.2⟩)
  refine hpairwise.imp_of_mem fun {r s} hr hs hmeet ↦ ?_
  have hr := hinhabited r hr
  have hs := hinhabited s hs
  have hmax := hmeet (max r.1 s.1)
  rw [Separate]
  omega

end MaterializedScheduleVerifier

/-! ## The first and the last event -/

/-- The times of the events, relative to the first issue of iteration zero. -/
def EventTime (dfg : TargetDFG) (mapping : RFAllocatedMapping) (tripCount : ℕ) : Set ℤ :=
  {time | ∃ name, OccursAt dfg mapping tripCount 0 name time}

/-- Spans that begin and end with events and leave none out. -/
structure Spanning (dfg : TargetDFG) (mapping : RFAllocatedMapping) (tripCount : ℕ)
    (spans : List (ℤ × ℤ)) : Prop where
  occur : ∀ span ∈ spans,
    span.1 ∈ EventTime dfg mapping tripCount ∧ span.2 ∈ EventTime dfg mapping tripCount
  cover : ∀ time ∈ EventTime dfg mapping tripCount, ∃ span ∈ spans, span.1 ≤ time ∧ time ≤ span.2

section EventTime

variable {dfg : TargetDFG} {target : TargetModel} {mapping : RFAllocatedMapping}
variable {tripCount shift : ℕ}

theorem EventTime.of_occursAt {name : EventName} {cycle : ℤ}
    (h : OccursAt dfg mapping tripCount shift name cycle) :
    cycle - shift ∈ EventTime dfg mapping tripCount := by
  have hmoved := h.shift 0
  exact ⟨name, by simpa using hmoved⟩

theorem EventTime.occursAt {time : ℤ} (h : time ∈ EventTime dfg mapping tripCount) (shift : ℕ) :
    ∃ name, OccursAt dfg mapping tripCount shift name (time + shift) := by
  obtain ⟨name, hoccurs⟩ := h
  have hmoved := hoccurs.shift shift
  exact ⟨name, by simpa using hmoved⟩

/-- The first and the last iteration of a stream are events, and the others lie between them. -/
theorem Stream.spans {key : PeriodicKey} {time : ℕ} {first last : ℤ}
    (h : Stream dfg mapping tripCount key time first last) (hpos : tripCount ≠ 0) :
    time + first * mapping.staged.modulo.ii ∈ EventTime dfg mapping tripCount ∧
      time + last * mapping.staged.modulo.ii ∈ EventTime dfg mapping tripCount ∧
      ∀ i, first ≤ i → i ≤ last →
        time + first * mapping.staged.modulo.ii ≤ time + i * mapping.staged.modulo.ii ∧
        time + i * mapping.staged.modulo.ii ≤ time + last * mapping.staged.modulo.ii := by
  have hlast := h.last_eq
  have hii : (0 : ℤ) ≤ mapping.staged.modulo.ii := Int.natCast_nonneg _
  refine ⟨⟨.periodic key first, ?_⟩, ⟨.periodic key last, ?_⟩, fun i hfirst hi ↦ ⟨?_, ?_⟩⟩
  · have hoccurs : OccursAt dfg mapping tripCount 0 (.periodic key first) _ :=
      OccursAt.periodic h le_rfl (by omega)
    simpa using hoccurs
  · have hoccurs : OccursAt dfg mapping tripCount 0 (.periodic key last) _ :=
      OccursAt.periodic h (by omega) le_rfl
    simpa using hoccurs
  · exact add_le_add_right (mul_le_mul_of_nonneg_right hfirst hii) _
  · exact add_le_add_right (mul_le_mul_of_nonneg_right hi hii) _

/-- The time of an event fits. -/
theorem TimesFit.has (h : TimesFit dfg mapping tripCount shift)
    (hshift : (shift : ℤ) ≤ int64Max) {time : ℤ} (htime : time ∈ EventTime dfg mapping tripCount) :
    int64.Has time ∧ -(shift : ℤ) ≤ time ∧ time + shift < int64Max := by
  have hmin : int64Min = -int64Max - 1 := by decide
  obtain ⟨name, hoccurs⟩ := EventTime.occursAt htime shift
  have hnonneg := h.nonneg _ _ hoccurs
  have hlt := h.lt _ _ hoccurs
  exact ⟨int64_has.mpr ⟨by omega, by omega⟩, by omega, hlt⟩

/-- The least beginning is the first event, the greatest end the last. -/
theorem Spanning.extremes {spans : List (ℤ × ℤ)} (h : Spanning dfg mapping tripCount spans)
    (hne : spans ≠ []) (hfits : ∀ time ∈ EventTime dfg mapping tripCount,
      int64Min ≤ time ∧ time ≤ int64Max) :
    IsLeast (EventTime dfg mapping tripCount) ((spans.map Prod.fst).foldl min int64Max) ∧
      IsGreatest (EventTime dfg mapping tripCount)
        ((spans.map Prod.snd).foldl max int64Min) := by
  obtain ⟨hleast, hlower⟩ := foldl_min_isLeast (a := int64Max) (l := spans.map Prod.fst)
    (by simpa using hne) fun x hx ↦ by
      obtain ⟨span, hspan, rfl⟩ := List.mem_map.mp hx
      exact (hfits _ (h.occur span hspan).1).2
  obtain ⟨hgreatest, hupper⟩ := foldl_max_isGreatest (a := int64Min) (l := spans.map Prod.snd)
    (by simpa using hne) fun x hx ↦ by
      obtain ⟨span, hspan, rfl⟩ := List.mem_map.mp hx
      exact (hfits _ (h.occur span hspan).2).1
  refine ⟨⟨?_, fun time htime ↦ ?_⟩, ⟨?_, fun time htime ↦ ?_⟩⟩
  · obtain ⟨span, hspan, hsame⟩ := List.mem_map.mp hleast
    exact hsame ▸ (h.occur span hspan).1
  · obtain ⟨span, hspan, hle, -⟩ := h.cover time htime
    exact (hlower (List.mem_map_of_mem hspan)).trans hle
  · obtain ⟨span, hspan, hsame⟩ := List.mem_map.mp hgreatest
    exact hsame ▸ (h.occur span hspan).2
  · obtain ⟨span, hspan, -, hle⟩ := h.cover time htime
    exact hle.trans (hupper (List.mem_map_of_mem hspan))

end EventTime

/-- An accepted mapping, a number of iterations and an origin of time that fit. -/
structure Schedulable (dfg : TargetDFG) (target : TargetModel) (mapping : RFAllocatedMapping)
    (tripCount shift : ℕ) : Prop where
  verified : mapping.Verified dfg target
  fits : TimesFit dfg mapping tripCount shift
  shift_le : (shift : ℤ) ≤ int64Max
  pos : tripCount ≠ 0
  count_le : (tripCount : ℤ) ≤ int64Max

/-! ## Times that are computed

The verifier and the materializer compute the same times, each with its own code.
-/

namespace Schedulable

variable {dfg : TargetDFG} {target : TargetModel} {mapping : RFAllocatedMapping}
variable {tripCount shift : ℕ}

/-- The last time of a stream. -/
theorem streamEnd_eq (hs : Schedulable dfg target mapping tripCount shift) {key : PeriodicKey}
    {time : ℕ} {first last : ℤ} (hstream : Stream dfg mapping tripCount key time first last) :
    mulSigned (tripCount - 1 : ℕ) mapping.staged.modulo.ii
        = some (((tripCount - 1 : ℕ) : ℤ) * mapping.staged.modulo.ii) ∧
      addSigned (time + first * mapping.staged.modulo.ii)
          (((tripCount - 1 : ℕ) : ℤ) * mapping.staged.modulo.ii)
        = some (time + last * mapping.staged.modulo.ii) := by
  have ⟨hv, hfits, hshift, hpos, hcount⟩ := hs
  obtain ⟨hfirst, hlast, -⟩ := hstream.spans hpos
  obtain ⟨hhas, hlower, -⟩ := hfits.has hshift hfirst
  obtain ⟨hhas', -, hupper⟩ := hfits.has hshift hlast
  have hcast : ((tripCount - 1 : ℕ) : ℤ) = (tripCount : ℤ) - 1 := by omega
  have hend : (time : ℤ) + first * mapping.staged.modulo.ii
      + ((tripCount : ℤ) - 1) * mapping.staged.modulo.ii
        = time + last * mapping.staged.modulo.ii := by
    rw [hstream.last_eq]
    ring
  have hmin : int64Min ≤ 0 := by decide
  have hnonneg : (0 : ℤ) ≤ ((tripCount : ℤ) - 1) * mapping.staged.modulo.ii := by
    rw [← hcast]
    positivity
  rw [hcast, addSigned_of_has hhas (hend.symm ▸ hhas'), hend]
  exact ⟨mulSigned_of_has (int64_has.mpr ⟨by omega, by omega⟩), rfl⟩

/-- The issue of the producer of a value edge, and the time its first iteration is issued. -/
theorem producerBase_eq (hs : Schedulable dfg target mapping tripCount shift) {edge : TargetEdge}
    (hedge : edge ∈ dfg.edges) (hkind : edge.kind ≠ .memory) {issue : ℕ}
    (hissue : mapping.staged.logicalIssueTime edge.src = .ok issue) :
    (issue : ℤ) ≤ int64Max ∧
      mulSigned edge.distance mapping.staged.modulo.ii
        = some ((edge.distance : ℤ) * mapping.staged.modulo.ii) ∧
      subtractSigned issue ((edge.distance : ℤ) * mapping.staged.modulo.ii)
        = some (issue - (edge.distance : ℤ) * mapping.staged.modulo.ii) := by
  have ⟨hv, hfits, hshift, hpos, hcount⟩ := hs
  have hdistance := (hfits.distance_le hv hpos hedge hkind).1
  have hproducer := hfits.producer_lt hv.staged.modulo.graph hpos hedge hissue
  have hmin : int64Min = -int64Max - 1 := by decide
  have hnonneg : (0 : ℤ) ≤ (edge.distance : ℤ) * mapping.staged.modulo.ii := by positivity
  exact ⟨by omega, mulSigned_of_has (int64_has.mpr ⟨by omega, by omega⟩),
    subtractSigned_of_has (int64_has.mpr ⟨by omega, by omega⟩) (by omega)
      (int64_has.mpr ⟨by omega, by omega⟩)⟩

/-- The first time of a hop. -/
theorem linkTime_eq (hs : Schedulable dfg target mapping tripCount shift) {edge : TargetEdge}
    (hedge : edge ∈ dfg.edges) (hkind : edge.kind ≠ .memory) {issue : ℕ}
    (hissue : mapping.staged.logicalIssueTime edge.src = .ok issue) {elapsed action : ℕ} {last : ℤ}
    (hstream : Stream dfg mapping tripCount (.linkLaunch edge.id action) (issue + elapsed)
      (-edge.distance) last) :
    addSigned ((issue : ℤ) - edge.distance * mapping.staged.modulo.ii) elapsed
      = some ((issue + elapsed : ℕ) + -(edge.distance : ℤ) * mapping.staged.modulo.ii) := by
  have ⟨hv, hfits, hshift, hpos, hcount⟩ := hs
  have hdistance := (hfits.distance_le hv hpos hedge hkind).1
  have hproducer := hfits.producer_lt hv.staged.modulo.graph hpos hedge hissue
  have hmin : int64Min = -int64Max - 1 := by decide
  have hnonneg : (0 : ℤ) ≤ (edge.distance : ℤ) * mapping.staged.modulo.ii := by positivity
  have hfirst := (hfits.has hshift (hstream.spans hpos).1).1
  have hfirstTime : (issue : ℤ) - edge.distance * mapping.staged.modulo.ii + elapsed
      = (issue + elapsed : ℕ) + -(edge.distance : ℤ) * mapping.staged.modulo.ii := by
    push_cast
    ring
  rw [← hfirstTime]
  exact addSigned_of_has (int64_has.mpr ⟨by omega, by omega⟩) (hfirstTime ▸ hfirst)

/-- The time of an injection. -/
theorem injectTime_eq (hs : Schedulable dfg target mapping tripCount shift) {edge : TargetEdge}
    (hedge : edge ∈ dfg.edges) (hkind : edge.kind ≠ .memory) {issue ready offset : ℕ}
    (hoffset : offset < edge.distance)
    (hissue : mapping.staged.logicalIssueTime edge.src = .ok issue) {time : ℤ}
    (htime : time = issue + ((offset : ℤ) - edge.distance) * mapping.staged.modulo.ii + ready)
    (hmem : time ∈ EventTime dfg mapping tripCount) :
    mulSigned (-1) (edge.distance - offset : ℕ) = some ((offset : ℤ) - edge.distance) ∧
      mulSigned ((offset : ℤ) - edge.distance) mapping.staged.modulo.ii
        = some (((offset : ℤ) - edge.distance) * mapping.staged.modulo.ii) ∧
      addSigned issue (((offset : ℤ) - edge.distance) * mapping.staged.modulo.ii)
        = some (issue + ((offset : ℤ) - edge.distance) * mapping.staged.modulo.ii) ∧
      addSigned (issue + ((offset : ℤ) - edge.distance) * mapping.staged.modulo.ii) ready
        = some time := by
  have ⟨hv, hfits, hshift, hpos, hcount⟩ := hs
  obtain ⟨hdistance, hreach⟩ := hfits.distance_le hv hpos hedge hkind
  have hproducer := hfits.producer_lt hv.staged.modulo.graph hpos hedge hissue
  have hfit := (hfits.has hshift hmem).1
  have hmin : int64Min = -int64Max - 1 := by decide
  have hcast : ((edge.distance - offset : ℕ) : ℤ) = (edge.distance : ℤ) - offset := by omega
  have hnegative : -1 * ((edge.distance : ℤ) - offset) = (offset : ℤ) - edge.distance := by ring
  -- no further back than the first offset reaches
  have hlower : -((edge.distance : ℤ) * mapping.staged.modulo.ii)
      ≤ ((offset : ℤ) - edge.distance) * mapping.staged.modulo.ii := by
    have hback : (0 : ℤ) ≤ offset * mapping.staged.modulo.ii := by positivity
    linarith
  have hupper : ((offset : ℤ) - edge.distance) * mapping.staged.modulo.ii ≤ 0 :=
    mul_nonpos_of_nonpos_of_nonneg (by omega) (Int.natCast_nonneg _)
  refine ⟨?_, mulSigned_of_has (int64_has.mpr ⟨by omega, by omega⟩),
    addSigned_of_has (int64_has.mpr ⟨by omega, by omega⟩) (int64_has.mpr ⟨by omega, by omega⟩), ?_⟩
  · rw [hcast, ← hnegative]
    exact mulSigned_of_has (int64_has.mpr ⟨by omega, by omega⟩)
  · rw [addSigned_of_has (int64_has.mpr ⟨by omega, by omega⟩) (htime ▸ hfit), ← htime]

/-- The first time of the writes or of the reads of a segment. -/
theorem accessTime_eq (hs : Schedulable dfg target mapping tripCount shift) {edge : TargetEdge}
    (hedge : edge ∈ dfg.edges) (hkind : edge.kind ≠ .memory) {base : ℕ}
    (hbase : (base : ℤ) ≤ int64Max) :
    mulSigned edge.distance mapping.staged.modulo.ii
        = some ((edge.distance : ℤ) * mapping.staged.modulo.ii) ∧
      subtractSigned base ((edge.distance : ℤ) * mapping.staged.modulo.ii)
        = some (base + -(edge.distance : ℤ) * mapping.staged.modulo.ii) := by
  have hdistance := (hs.fits.distance_le hs.verified hs.pos hedge hkind).1
  have hmin : int64Min = -int64Max - 1 := by decide
  have hnonneg : (0 : ℤ) ≤ (edge.distance : ℤ) * mapping.staged.modulo.ii := by positivity
  refine ⟨mulSigned_of_has (int64_has.mpr ⟨by omega, by omega⟩), ?_⟩
  rw [subtractSigned_of_has (int64_has.mpr ⟨by omega, by omega⟩) (by omega)
    (int64_has.mpr ⟨by omega, by omega⟩)]
  congr 1
  ring

/-- The time of a live-out. -/
theorem liveOutTime_eq (hs : Schedulable dfg target mapping tripCount shift)
    {liveOut : TargetLiveOut} {node : TargetNode} {time latency : ℕ}
    (hnode : dfg.findNode liveOut.source = some node)
    (htime : mapping.staged.logicalIssueTime liveOut.source = .ok time) {use : ℤ}
    (huse : use = time + ((tripCount : ℤ) - 1) * mapping.staged.modulo.ii + latency)
    (hmem : use ∈ EventTime dfg mapping tripCount) :
    (time : ℤ) ≤ int64Max ∧
      mulSigned (tripCount - 1 : ℕ) mapping.staged.modulo.ii
        = some (((tripCount : ℤ) - 1) * mapping.staged.modulo.ii) ∧
      addSigned time (((tripCount : ℤ) - 1) * mapping.staged.modulo.ii)
        = some (time + ((tripCount : ℤ) - 1) * mapping.staged.modulo.ii) ∧
      addSigned (time + ((tripCount : ℤ) - 1) * mapping.staged.modulo.ii) latency = some use := by
  have ⟨hv, hfits, hshift, hpos, hcount⟩ := hs
  have hsource := TargetDFG.findNode_id hnode
  have hspan := hfits.span_lt hpos (TargetDFG.mem_of_findNode hnode) (hsource ▸ htime)
  have hfit := (hfits.has hshift hmem).1
  have hmin : int64Min = -int64Max - 1 := by decide
  have hcast : ((tripCount - 1 : ℕ) : ℤ) = (tripCount : ℤ) - 1 := by omega
  have hnonneg : (0 : ℤ) ≤ ((tripCount : ℤ) - 1) * mapping.staged.modulo.ii := by
    rw [← hcast]
    positivity
  refine ⟨by omega, ?_, addSigned_of_has (int64_has.mpr ⟨by omega, by omega⟩)
    (int64_has.mpr ⟨by omega, by omega⟩), ?_⟩
  · rw [hcast]
    exact mulSigned_of_has (int64_has.mpr ⟨by omega, by omega⟩)
  · rw [addSigned_of_has (int64_has.mpr ⟨by omega, by omega⟩) (huse ▸ hfit), ← huse]

end Schedulable

/-! ## The expected bounds -/

namespace MaterializedScheduleVerifier

variable {dfg : TargetDFG} {target : TargetModel} {mapping : RFAllocatedMapping}
variable {request : ScheduleMaterializationRequest} {schedule : MaterializedSchedule}

/-- Entries that are there, each from one event to another. -/
def Occurring (dfg : TargetDFG) (mapping : RFAllocatedMapping) (tripCount : ℕ)
    (entries : List (Option (ℤ × ℤ))) : Prop :=
  ∀ entry ∈ entries, ∃ span, entry = some span ∧
    span.1 ∈ EventTime dfg mapping tripCount ∧ span.2 ∈ EventTime dfg mapping tripCount

/-- The bounds of a stream. -/
theorem accountExpected_eq (hii : schedule.ii = mapping.staged.modulo.ii) {shift : ℕ}
    (hs : Schedulable dfg target mapping request.tripCount shift)
    {key : PeriodicKey} {time : ℕ} {first last : ℤ}
    (hstream : Stream dfg mapping request.tripCount key time first last) :
    accountExpected schedule (time + first * schedule.ii) request.tripCount
      = some (time + first * schedule.ii, time + last * schedule.ii) := by
  obtain ⟨hspan, hsum⟩ := hs.streamEnd_eq hstream
  have hpos := hs.pos
  have hcount := hs.count_le
  rw [← hii] at hspan hsum
  rw [accountExpected, if_neg (by omega), hspan]
  simp only [Option.bind_eq_bind, Option.bind_some, hsum]
  rfl

theorem nodeSpan_eq (hii : schedule.ii = mapping.staged.modulo.ii) {shift : ℕ}
    (hs : Schedulable dfg target mapping request.tripCount shift)
    {node : TargetNode} (hnode : node ∈ dfg.nodes) {time : ℕ}
    (htime : mapping.staged.logicalIssueTime node.id = .ok time) :
    nodeSpan mapping request schedule node
      = .ok (some ((time : ℤ), time + ((request.tripCount : ℤ) - 1) * schedule.ii)) := by
  have ⟨hv, hfits, hshift, hpos, hcount⟩ := hs
  have hstream : Stream dfg mapping request.tripCount _ _ _ _ := Stream.nodeIssue hnode htime
  have haccount := accountExpected_eq hii hs hstream
  rw [zero_mul, add_zero] at haccount
  rw [nodeSpan, htime]
  simp [toSigned_of_le (hfits.time_le _ _ _ _ hstream), haccount]

theorem producerBase_eq (hii : schedule.ii = mapping.staged.modulo.ii) {shift : ℕ}
    (hs : Schedulable dfg target mapping request.tripCount shift)
    {edge : TargetEdge} (hedge : edge ∈ dfg.edges) (hkind : edge.kind ≠ .memory) {issue : ℕ}
    (hissue : mapping.staged.logicalIssueTime edge.src = .ok issue) :
    producerBase schedule edge issue
      = some ((issue : ℤ), issue - (edge.distance : ℤ) * schedule.ii) := by
  obtain ⟨hle, hproduct, hdifference⟩ := hs.producerBase_eq hedge hkind hissue
  rw [← hii] at hproduct hdifference
  simp [producerBase, toSigned_of_le hle, hproduct, hdifference]

/-- The bounds of a hop. -/
theorem linkSpan_eq (hii : schedule.ii = mapping.staged.modulo.ii) {shift : ℕ}
    (hs : Schedulable dfg target mapping request.tripCount shift)
    {edge : TargetEdge} (hedge : edge ∈ dfg.edges) (hkind : edge.kind ≠ .memory) {issue : ℕ}
    (hissue : mapping.staged.logicalIssueTime edge.src = .ok issue) {link : LinkStep} {action : ℕ}
    {last : ℤ} (hstream : Stream dfg mapping request.tripCount (.linkLaunch edge.id action)
      (issue + link.elapsedFromProducerIssue) (-edge.distance) last) :
    linkSpan request schedule (issue - (edge.distance : ℤ) * schedule.ii) (.linkStep link)
      = [some ((issue + link.elapsedFromProducerIssue : ℕ) + -(edge.distance : ℤ) * schedule.ii,
        (issue + link.elapsedFromProducerIssue : ℕ) + last * schedule.ii)] := by
  have hsum := hs.linkTime_eq hedge hkind hissue hstream
  have haccount := accountExpected_eq hii hs hstream
  rw [← hii] at hsum
  simp only [linkSpan, hsum, haccount, Option.bind_eq_bind, Option.bind_some]

/-- An injection begins and ends in the cycle it happens in. -/
theorem boundarySpan_eq (hii : schedule.ii = mapping.staged.modulo.ii) {shift : ℕ}
    (hs : Schedulable dfg target mapping request.tripCount shift) {edge : TargetEdge}
    (hedge : edge ∈ dfg.edges)
    (hkind : edge.kind ≠ .memory) {issue ready offset : ℕ} (hoffset : offset < edge.distance)
    (hissue : mapping.staged.logicalIssueTime edge.src = .ok issue) {time : ℤ}
    (htime : time = issue + ((offset : ℤ) - edge.distance) * schedule.ii + ready)
    (hmem : time ∈ EventTime dfg mapping request.tripCount) :
    boundarySpan schedule edge issue ready offset = some (time, time) := by
  rw [hii] at htime
  obtain ⟨hiteration, hproduct, hsum, htotal⟩ :=
    hs.injectTime_eq hedge hkind hoffset hissue htime hmem
  rw [← hii] at hproduct hsum htotal
  simp only [boundarySpan, hiteration, hproduct, hsum, htotal, Option.bind_eq_bind,
    Option.bind_some]
  rfl

/-- The bounds of an edge: a span for every hop, and one for every injection. -/
theorem edgeSpans_eq (hii : schedule.ii = mapping.staged.modulo.ii) {shift : ℕ}
    (hs : Schedulable dfg target mapping request.tripCount shift)
    {edge : TargetEdge} (hedge : edge ∈ dfg.edges) :
    ∃ entries, edgeSpans dfg mapping request schedule edge = .ok entries ∧
      Occurring dfg mapping request.tripCount entries ∧
      (∀ action time first last,
        Stream dfg mapping request.tripCount (.linkLaunch edge.id action) time first last →
        some (time + first * schedule.ii, time + last * schedule.ii) ∈ entries) ∧
      ∀ offset time, OccursAt dfg mapping request.tripCount 0
        (.boundaryValueInject edge.id offset) time → some (time, time) ∈ entries := by
  have ⟨hv, hfits, hshift, hpos, hcount⟩ := hs
  have hgraph := hv.staged.modulo.graph
  rw [edgeSpans]
  split
  · rename_i hmemory
    refine ⟨[], rfl, by simp [Occurring], fun action time first last hstream ↦ ?_,
      fun offset time hoccurs ↦ ?_⟩
    · obtain ⟨edge', _, _, _, _, hedge', hid, hkind, -⟩ := hstream.of_linkLaunch
      exact absurd (hgraph.edge_eq_of_id_eq hedge' hedge hid ▸ hmemory) hkind
    · obtain ⟨edge', _, _, hedge', hid, hkind, -⟩ := hoccurs.of_inject
      exact absurd (hgraph.edge_eq_of_id_eq hedge' hedge hid ▸ hmemory) hkind
  rename_i hkind
  obtain ⟨src, -, -, dependence, plan, issue, -, hsrc, -, -, hdependence, hplan, hissue, -, -⟩ :=
    hv.staged.route hedge hkind
  -- a span for every hop
  have hlink : ∀ (action : ℕ) (link : LinkStep), plan.actions[action]? = some (.linkStep link) →
      Stream dfg mapping request.tripCount (.linkLaunch edge.id action)
        (issue + link.elapsedFromProducerIssue) (-edge.distance)
        (request.tripCount - 1 - edge.distance) := fun action link haction ↦
    Stream.linkLaunch hedge hkind hdependence hplan haction hissue
  have hinject : ∀ offset < min request.tripCount edge.distance,
      OccursAt dfg mapping request.tripCount 0 (.boundaryValueInject edge.id offset) _ :=
    fun offset hoffset ↦ OccursAt.boundaryValueInject hedge hkind hoffset hsrc hissue
  have hspan : ∀ offset < min request.tripCount edge.distance, ∀ time,
      OccursAt dfg mapping request.tripCount 0 (.boundaryValueInject edge.id offset) time →
      boundarySpan schedule edge issue (src.producerOutputReadyOffset.getD 0) offset
        = some (time, time) := by
    intro offset hoffset time hoccurs
    have hunique := hoccurs.cycle_unique hgraph
      (StorageRequirementAnalysis.nodup_ids hv.requirements) (hinject offset hoffset) rfl
    refine boundarySpan_eq hii hs hedge hkind (by omega) hissue ?_
      ⟨_, hoccurs⟩
    rw [hunique, hii]
    push_cast
    ring
  rw [hdependence]
  simp only [hplan, hissue, producerBase_eq hii hs hedge hkind hissue, hsrc]
  refine ⟨_, rfl, fun entry hentry ↦ ?_, fun action time first last hstream ↦ ?_,
    fun offset time hoccurs ↦ ?_⟩
  · rcases List.mem_append.mp hentry with hentry | hentry
    · obtain ⟨action, haction, hentry⟩ := List.mem_flatMap.mp hentry
      obtain ⟨index, hindex⟩ := List.mem_iff_getElem?.mp haction
      cases action with
      | virtualHold hold => cases hentry
      | linkStep link =>
        have hstream := hlink index link hindex
        obtain ⟨hfirst, hlast, -⟩ := hstream.spans hpos
        rw [linkSpan_eq hii hs hedge hkind hissue hstream,
          List.mem_singleton] at hentry
        rw [hii] at hentry
        exact ⟨_, hentry, hfirst, hlast⟩
    · obtain ⟨offset, hoffset, rfl⟩ := List.mem_map.mp hentry
      have hoccurs := hinject offset (List.mem_range.mp hoffset)
      exact ⟨_, hspan offset (List.mem_range.mp hoffset) _ hoccurs, ⟨_, hoccurs⟩, ⟨_, hoccurs⟩⟩
  · obtain ⟨edge', dependence', plan', link, issue', hedge', hid, -, hdependence', hplan', haction,
      hissue', rfl, rfl, rfl⟩ := hstream.of_linkLaunch
    obtain rfl := hgraph.edge_eq_of_id_eq hedge' hedge hid
    obtain rfl := Except.ok.inj (hdependence'.symm.trans hdependence)
    obtain rfl := Option.some.inj (hplan'.symm.trans hplan)
    obtain rfl := Except.ok.inj (hissue'.symm.trans hissue)
    refine List.mem_append_left _ (List.mem_flatMap.mpr
      ⟨.linkStep link, List.mem_of_getElem? haction, ?_⟩)
    rw [linkSpan_eq hii hs hedge hkind hissue hstream]
    exact List.mem_singleton_self _
  · obtain ⟨edge', _, _, hedge', hid, -, hoffset, -, -, -⟩ := hoccurs.of_inject
    obtain rfl := hgraph.edge_eq_of_id_eq hedge' hedge hid
    refine List.mem_append_right _ (List.mem_map.mpr ⟨offset, List.mem_range.mpr hoffset, ?_⟩)
    exact hspan offset hoffset time hoccurs

/-- The bounds of a segment: a span for its writes and one for its reads. -/
theorem segmentSpans_eq (hii : schedule.ii = mapping.staged.modulo.ii) {shift : ℕ}
    (hs : Schedulable dfg target mapping request.tripCount shift)
    {segment : StorageSegment} (hmem : segment ∈ mapping.storageRequirements.segments)
    {edge : TargetEdge} (hedge : edge ∈ dfg.edges) (hkind : edge.kind ≠ .memory)
    (hid : edge.id = segment.edge) :
    segmentSpans dfg request schedule segment = .ok
      [some ((segment.writeTime : ℤ) + -(edge.distance : ℤ) * schedule.ii,
        segment.writeTime + ((request.tripCount : ℤ) - 1 - edge.distance) * schedule.ii),
      some ((segment.readTime : ℤ) + -(edge.distance : ℤ) * schedule.ii,
        segment.readTime + ((request.tripCount : ℤ) - 1 - edge.distance) * schedule.ii)] := by
  have hwrite : Stream dfg mapping request.tripCount _ _ _ _ := Stream.rfWrite hmem hedge hid
  have hread : Stream dfg mapping request.tripCount _ _ _ _ := Stream.rfRead hmem hedge hid
  have hwriteTime := hs.fits.time_le _ _ _ _ hwrite
  have hreadTime := hs.fits.time_le _ _ _ _ hread
  obtain ⟨hproduct, hwriteBase⟩ := hs.accessTime_eq hedge hkind hwriteTime
  obtain ⟨-, hreadBase⟩ := hs.accessTime_eq hedge hkind hreadTime
  rw [← hii] at hproduct hwriteBase hreadBase
  rw [segmentSpans, ← hid, hs.verified.staged.modulo.graph.findEdge_of_mem hedge]
  simp only [toSigned_of_le hwriteTime, toSigned_of_le hreadTime, hproduct, hwriteBase, hreadBase,
    Option.bind_eq_bind, Option.bind_some, accountExpected_eq hii hs hwrite,
    accountExpected_eq hii hs hread]

theorem liveOutSpan_eq (hii : schedule.ii = mapping.staged.modulo.ii) {shift : ℕ}
    (hs : Schedulable dfg target mapping request.tripCount shift) {liveOut : TargetLiveOut}
    {node : TargetNode}
    {time latency : ℕ} (hnode : dfg.findNode liveOut.source = some node)
    (hlatency : node.resultLatency = some latency)
    (htime : mapping.staged.logicalIssueTime liveOut.source = .ok time) {use : ℤ}
    (huse : use = time + ((request.tripCount : ℤ) - 1) * schedule.ii + latency)
    (hmem : use ∈ EventTime dfg mapping request.tripCount) :
    liveOutSpan dfg mapping request schedule liveOut = .ok (some (use, use)) := by
  rw [hii] at huse
  obtain ⟨hle, hproduct, hsum, htotal⟩ := hs.liveOutTime_eq hnode htime huse hmem
  rw [← hii] at hproduct hsum htotal
  rw [liveOutSpan, hnode]
  simp only [hlatency, htime, toSigned_of_le hle, hproduct, hsum, htotal, Option.bind_eq_bind,
    Option.bind_some]
  rfl

/-- The bounds of the nodes. -/
theorem nodeSpans_spec (hii : schedule.ii = mapping.staged.modulo.ii) {shift : ℕ}
    (hs : Schedulable dfg target mapping request.tripCount shift) :
    ∃ entries, dfg.nodes.mapM (nodeSpan mapping request schedule) = .ok entries ∧
      Occurring dfg mapping request.tripCount entries ∧
      ∀ id time first last,
        Stream dfg mapping request.tripCount (.nodeIssue id) time first last →
        some (time + first * schedule.ii, time + last * schedule.ii) ∈ entries := by
  have hspan : ∀ node ∈ dfg.nodes, ∀ time, mapping.staged.logicalIssueTime node.id = .ok time →
      nodeSpan mapping request schedule node
        = .ok (some ((time : ℤ), time + ((request.tripCount : ℤ) - 1) * schedule.ii)) :=
    fun node hnode time htime ↦ nodeSpan_eq hii hs hnode htime
  obtain ⟨entries, hentries⟩ := exists_mapM fun node hnode ↦ by
    obtain ⟨time, htime⟩ := hs.verified.staged.times node hnode
    exact ⟨_, hspan node hnode time htime⟩
  refine ⟨entries, hentries, fun entry hentry ↦ ?_, fun id time first last hstream ↦ ?_⟩
  · obtain ⟨node, hnode, hresult⟩ := exists_source_of_mem hentries hentry
    obtain ⟨time, htime⟩ := hs.verified.staged.times node hnode
    obtain ⟨hfirst, hlast, -⟩ := (Stream.nodeIssue hnode htime).spans hs.pos
    rw [hspan node hnode time htime, Except.ok.injEq] at hresult
    rw [zero_mul, add_zero] at hfirst
    rw [← hii] at hlast
    exact ⟨_, hresult.symm, hfirst, hlast⟩
  · obtain ⟨-, rfl, rfl⟩ := hstream.of_nodeIssue
    rcases hstream with ⟨hnode, htime⟩
    obtain ⟨entry, hentry, hresult⟩ := exists_result_of_mem hentries hnode
    rw [hspan _ hnode time htime, Except.ok.injEq] at hresult
    rw [zero_mul, add_zero, hresult]
    exact hentry

/-- The bounds of the edges. -/
theorem allEdgeSpans_spec (hii : schedule.ii = mapping.staged.modulo.ii) {shift : ℕ}
    (hs : Schedulable dfg target mapping request.tripCount shift) :
    ∃ entries, dfg.edges.mapM (edgeSpans dfg mapping request schedule) = .ok entries ∧
      Occurring dfg mapping request.tripCount entries.flatten ∧
      (∀ id action time first last,
        Stream dfg mapping request.tripCount (.linkLaunch id action) time first last →
        some (time + first * schedule.ii, time + last * schedule.ii) ∈ entries.flatten) ∧
      ∀ id offset time, OccursAt dfg mapping request.tripCount 0
        (.boundaryValueInject id offset) time → some (time, time) ∈ entries.flatten := by
  obtain ⟨entries, hentries⟩ := exists_mapM fun edge hedge ↦
    (edgeSpans_eq hii hs hedge).imp fun _ h ↦ h.1
  have hresults : ∀ edge ∈ dfg.edges, ∃ own ∈ entries,
      (∀ action time first last,
        Stream dfg mapping request.tripCount (.linkLaunch edge.id action) time first last →
        some (time + first * schedule.ii, time + last * schedule.ii) ∈ own) ∧
      ∀ offset time, OccursAt dfg mapping request.tripCount 0
        (.boundaryValueInject edge.id offset) time → some (time, time) ∈ own := by
    intro edge hedge
    obtain ⟨own, hown, hresult⟩ := exists_result_of_mem hentries hedge
    obtain ⟨own', hresult', -, hlinks, hinjects⟩ := edgeSpans_eq hii hs hedge
    obtain rfl := Except.ok.inj (hresult.symm.trans hresult')
    exact ⟨own, hown, hlinks, hinjects⟩
  refine ⟨entries, hentries, fun entry hentry ↦ ?_, fun id action time first last hstream ↦ ?_,
    fun id offset time hoccurs ↦ ?_⟩
  · obtain ⟨own, hown, hentry⟩ := List.mem_flatten.mp hentry
    obtain ⟨edge, hedge, hresult⟩ := exists_source_of_mem hentries hown
    obtain ⟨own', hresult', hoccurring, -⟩ := edgeSpans_eq hii hs hedge
    obtain rfl := Except.ok.inj (hresult.symm.trans hresult')
    exact hoccurring entry hentry
  · obtain ⟨edge, _, _, _, _, hedge, rfl, -⟩ := hstream.of_linkLaunch
    obtain ⟨own, hown, hlinks, -⟩ := hresults edge hedge
    exact List.mem_flatten.mpr ⟨own, hown, hlinks _ _ _ _ hstream⟩
  · obtain ⟨edge, _, _, hedge, rfl, -⟩ := hoccurs.of_inject
    obtain ⟨own, hown, -, hinjects⟩ := hresults edge hedge
    exact List.mem_flatten.mpr ⟨own, hown, hinjects _ _ hoccurs⟩

/-- The bounds of the segments. -/
theorem allSegmentSpans_spec (hii : schedule.ii = mapping.staged.modulo.ii) {shift : ℕ}
    (hs : Schedulable dfg target mapping request.tripCount shift) :
    ∃ entries, mapping.storageRequirements.segments.mapM (segmentSpans dfg request schedule)
        = .ok entries ∧
      Occurring dfg mapping request.tripCount entries.flatten ∧
      ∀ (write : Bool) id time first last, Stream dfg mapping request.tripCount
        (if write then .rfWrite id else .rfRead id) time first last →
        some (time + first * schedule.ii, time + last * schedule.ii) ∈ entries.flatten := by
  have hsegments : ∀ segment ∈ mapping.storageRequirements.segments, ∃ edge ∈ dfg.edges,
      edge.kind ≠ .memory ∧ edge.id = segment.edge := fun segment hmem ↦ by
    obtain ⟨edge, hedge, hkind, hid⟩ :=
      StorageRequirementAnalysis.onValueEdges hs.verified.requirements segment hmem
    exact ⟨edge, hedge, hkind, hid.symm⟩
  obtain ⟨entries, hentries⟩ := exists_mapM fun segment hmem ↦ by
    obtain ⟨edge, hedge, hkind, hid⟩ := hsegments segment hmem
    exact ⟨_, segmentSpans_eq hii hs hmem hedge hkind hid⟩
  refine ⟨entries, hentries, fun entry hentry ↦ ?_, fun write id time first last hstream ↦ ?_⟩
  · obtain ⟨own, hown, hentry⟩ := List.mem_flatten.mp hentry
    obtain ⟨segment, hmem, hresult⟩ := exists_source_of_mem hentries hown
    obtain ⟨edge, hedge, hkind, hid⟩ := hsegments segment hmem
    obtain ⟨hwrite, hwriteLast, -⟩ := (Stream.rfWrite hmem hedge hid).spans hs.pos
    obtain ⟨hread, hreadLast, -⟩ := (Stream.rfRead hmem hedge hid).spans hs.pos
    rw [segmentSpans_eq hii hs hmem hedge hkind hid, Except.ok.injEq] at hresult
    rw [← hresult, hii] at hentry
    rcases List.mem_cons.mp hentry with rfl | hentry
    · exact ⟨_, rfl, hwrite, hwriteLast⟩
    · rw [List.mem_singleton.mp hentry]
      exact ⟨_, rfl, hread, hreadLast⟩
  · obtain ⟨segment, hmem, edge, hedge, rfl, hid, rfl, rfl, rfl⟩ := hstream.of_access
    obtain ⟨edge', hedge', hkind, hid'⟩ := hsegments segment hmem
    obtain rfl := hs.verified.staged.modulo.graph.edge_eq_of_id_eq hedge hedge'
      (hid.trans hid'.symm)
    obtain ⟨own, hown, hresult⟩ := exists_result_of_mem hentries hmem
    rw [segmentSpans_eq hii hs hmem hedge hkind hid, Except.ok.injEq] at hresult
    refine List.mem_flatten.mpr ⟨own, hown, ?_⟩
    rw [← hresult]
    cases write with
    | true => exact List.mem_cons_self
    | false => exact List.mem_cons_of_mem _ (List.mem_singleton_self _)

/-- The bounds of the live-outs. -/
theorem liveOutSpans_spec (hii : schedule.ii = mapping.staged.modulo.ii) {shift : ℕ}
    (hs : Schedulable dfg target mapping request.tripCount shift) :
    ∃ entries, dfg.liveOuts.mapM (liveOutSpan dfg mapping request schedule) = .ok entries ∧
      Occurring dfg mapping request.tripCount entries ∧
      ∀ id iteration time, OccursAt dfg mapping request.tripCount 0
        (.liveOutBoundaryUse id iteration) time → some (time, time) ∈ entries := by
  have hgraph := hs.verified.staged.modulo.graph
  have hspan : ∀ liveOut ∈ dfg.liveOuts, ∃ use,
      OccursAt dfg mapping request.tripCount 0
        (.liveOutBoundaryUse liveOut.id ((request.tripCount : ℤ) - 1)) use ∧
      liveOutSpan dfg mapping request schedule liveOut = .ok (some (use, use)) := by
    intro liveOut hmem
    obtain ⟨node, hnode⟩ := hgraph.liveOut liveOut hmem
    obtain ⟨latency, hlatency⟩ := Option.ne_none_iff_exists'.mp
      (hs.fits.timed liveOut hmem node hnode)
    obtain ⟨time, htime⟩ := hs.verified.staged.times node (TargetDFG.mem_of_findNode hnode)
    rw [TargetDFG.findNode_id hnode] at htime
    have hoccurs : OccursAt dfg mapping request.tripCount 0 _ _ :=
      OccursAt.liveOutBoundaryUse hmem hnode hlatency htime
    refine ⟨_, hoccurs, liveOutSpan_eq hii hs hnode hlatency htime ?_ ⟨_, hoccurs⟩⟩
    rw [hii]
    push_cast
    ring
  obtain ⟨entries, hentries⟩ := exists_mapM fun liveOut hmem ↦
    (hspan liveOut hmem).imp' (fun use ↦ some (use, use)) fun _ h ↦ h.2
  refine ⟨entries, hentries, fun entry hentry ↦ ?_, fun id iteration time hoccurs ↦ ?_⟩
  · obtain ⟨liveOut, hmem, hresult⟩ := exists_source_of_mem hentries hentry
    obtain ⟨use, hoccurs, huse⟩ := hspan liveOut hmem
    obtain rfl := Except.ok.inj (hresult.symm.trans huse)
    exact ⟨_, rfl, ⟨_, hoccurs⟩, ⟨_, hoccurs⟩⟩
  · obtain ⟨liveOut, _, _, _, hmem, rfl, -, -, -, rfl, -⟩ := hoccurs.of_liveOut
    obtain ⟨use, huse, hresult⟩ := hspan liveOut hmem
    obtain rfl := hoccurs.cycle_unique hgraph
      (StorageRequirementAnalysis.nodup_ids hs.verified.requirements) huse rfl
    obtain ⟨entry, hentry, hresult'⟩ := exists_result_of_mem hentries hmem
    obtain rfl := Except.ok.inj (hresult'.symm.trans hresult)
    exact hentry

/-- **The expected bounds** are there, and span the events of the loop. -/
theorem expectedSpans_spec (hii : schedule.ii = mapping.staged.modulo.ii) {shift : ℕ}
    (hs : Schedulable dfg target mapping request.tripCount shift) :
    ∃ entries, expectedSpans dfg mapping request schedule = .ok entries ∧
      entries.all Option.isSome = true ∧
      Spanning dfg mapping request.tripCount (entries.filterMap id) := by
  obtain ⟨nodes, hnodes, hnodesOccur, hissues⟩ := nodeSpans_spec hii hs
  obtain ⟨edges, hedges, hedgesOccur, hlinks, hinjects⟩ := allEdgeSpans_spec hii hs
  obtain ⟨segments, hsegments, hsegmentsOccur, haccesses⟩ := allSegmentSpans_spec hii hs
  obtain ⟨liveOuts, hliveOuts, hliveOutsOccur, huses⟩ := liveOutSpans_spec hii hs
  have hoccurring : Occurring dfg mapping request.tripCount
      (nodes ++ edges.flatten ++ segments.flatten ++ liveOuts) := by
    intro entry hentry
    simp only [List.mem_append] at hentry
    rcases hentry with ((hentry | hentry) | hentry) | hentry
    · exact hnodesOccur entry hentry
    · exact hedgesOccur entry hentry
    · exact hsegmentsOccur entry hentry
    · exact hliveOutsOccur entry hentry
  have hstreams : ∀ key time first last, Stream dfg mapping request.tripCount key time first last →
      some (time + first * schedule.ii, time + last * schedule.ii)
        ∈ nodes ++ edges.flatten ++ segments.flatten ++ liveOuts := by
    intro key time first last hstream
    simp only [List.mem_append]
    cases key with
    | nodeIssue id => exact .inl (.inl (.inl (hissues _ _ _ _ hstream)))
    | linkLaunch id action => exact .inl (.inl (.inr (hlinks _ _ _ _ _ hstream)))
    | rfWrite id => exact .inl (.inr (haccesses true _ _ _ _ hstream))
    | rfRead id => exact .inl (.inr (haccesses false _ _ _ _ hstream))
  have hcover : ∀ time ∈ EventTime dfg mapping request.tripCount, ∃ span : ℤ × ℤ,
      some span ∈ nodes ++ edges.flatten ++ segments.flatten ++ liveOuts ∧
        span.1 ≤ time ∧ time ≤ span.2 := by
    rintro time ⟨name, hoccurs⟩
    cases name with
    | periodic key iteration =>
      obtain ⟨base, first, last, hstream, hfirst, hlast, rfl⟩ := hoccurs.of_periodic
      have hbetween := (hstream.spans hs.pos).2.2 iteration hfirst hlast
      rw [← hii] at hbetween ⊢
      simp only [Nat.cast_zero, zero_add]
      exact ⟨_, hstreams _ _ _ _ hstream, hbetween⟩
    | boundaryValueInject id offset =>
      refine ⟨(time, time), ?_, le_rfl, le_rfl⟩
      simp only [List.mem_append]
      exact .inl (.inl (.inr (hinjects _ _ _ hoccurs)))
    | liveOutBoundaryUse id iteration =>
      refine ⟨(time, time), ?_, le_rfl, le_rfl⟩
      simp only [List.mem_append]
      exact .inr (huses _ _ _ hoccurs)
  refine ⟨_, bind_eq_ok.mpr ⟨nodes, hnodes, bind_eq_ok.mpr ⟨edges, hedges,
    bind_eq_ok.mpr ⟨segments, hsegments, bind_eq_ok.mpr ⟨liveOuts, hliveOuts, rfl⟩⟩⟩⟩, ?_, ?_, ?_⟩
  · rw [List.all_eq_true]
    intro entry hentry
    obtain ⟨span, rfl, -⟩ := hoccurring entry hentry
    rfl
  · intro span hspan
    obtain ⟨span', hsame, hends⟩ := hoccurring (some span) (by simpa using hspan)
    obtain rfl := Option.some.inj hsame
    exact hends
  · intro time htime
    obtain ⟨span, hspan, hbetween⟩ := hcover time htime
    exact ⟨span, by simpa using hspan, hbetween⟩

theorem checkBounds_eq {entries : List (Option (ℤ × ℤ))} (hall : entries.all Option.isSome = true)
    {first last : ℤ} (hfirst : ((entries.filterMap id).map Prod.fst).foldl min int64Max = first)
    (hlast : ((entries.filterMap id).map Prod.snd).foldl max int64Min = last)
    (hfits : int64Min < first ∧ first < int64Max ∧ int64Min < last)
    (hshift : (schedule.timeOriginShift : ℤ) = if first < 0 then -first else 0)
    (htotal : (schedule.totalLogicalCycles : ℤ) = last + schedule.timeOriginShift + 1)
    (hle : (schedule.totalLogicalCycles : ℤ) ≤ int64Max)
    (next : Except String (List MaterializedScheduleDiagnostic)) :
    checkBounds schedule entries next = next := by
  have hmax : (int64Max : ℤ) < uint64Max := by decide
  simp only [checkBounds, hfirst, hlast, hall, Bool.true_and, ← hshift]
  rw [stage_require, stage_require, stage_require]
  · simp only [BEq.rfl, Bool.true_and, beq_iff_eq]
    exact htotal
  · simp only [Bool.and_eq_true, decide_eq_true_eq, bne_iff_ne]
    omega
  · simp only [Bool.and_eq_true, bne_iff_ne]
    omega

end MaterializedScheduleVerifier

/-! ## The theorem -/

/-- A schedule of the events of the loop, each with its fields, between the first and the last. -/
structure MaterializedSchedule.Proper (dfg : TargetDFG) (mapping : RFAllocatedMapping)
    (tripCount : ℕ) (schedule : MaterializedSchedule) : Prop where
  tripCount_eq : schedule.tripCount = tripCount
  ii_eq : schedule.ii = mapping.staged.modulo.ii
  shape : schedule.KernelShape
  phases : MaterializedScheduleVerifier.checkPhases schedule = []
  exact : schedule.Exact dfg mapping tripCount
  explicit : ∀ item ∈ schedule.explicitEvents, ∃ name, EventFor dfg mapping tripCount name item.2
  kernel : ∀ item ∈ schedule.kernelEvents, ∃ key,
    EventFor dfg mapping tripCount (.periodic key item.2.logicalIteration) item.2
  shift_eq : ∀ time, IsLeast (EventTime dfg mapping tripCount) time →
    (schedule.timeOriginShift : ℤ) = if time < 0 then -time else 0
  total_eq : ∀ time, IsGreatest (EventTime dfg mapping tripCount) time →
    (schedule.totalLogicalCycles : ℤ) = time + schedule.timeOriginShift + 1

namespace MaterializedSchedule.Proper

variable {dfg : TargetDFG} {target : TargetModel} {mapping : RFAllocatedMapping}
variable {request : ScheduleMaterializationRequest} {schedule : MaterializedSchedule}

theorem genuine (hp : schedule.Proper dfg mapping request.tripCount) {item : ℕ × MaterializedEvent}
    (hitem : item ∈ schedule.explicitEvents) :
    Genuine dfg mapping request.tripCount schedule.timeOriginShift item := by
  obtain ⟨name, hevent⟩ := hp.explicit item hitem
  refine ⟨name, hevent, (hp.exact.mem_iff name item.1).mp ⟨item, ?_, hevent.name, rfl⟩⟩
  exact (mem_expansion_iff hp.shape).mpr (.inl hitem)

/-- Repetition `k` of a kernel event is an event of the loop. -/
theorem kernel_occursAt (hp : schedule.Proper dfg mapping request.tripCount)
    {item : ℕ × MaterializedEvent} (hitem : item ∈ schedule.kernelEvents) {key : PeriodicKey}
    (hevent : EventFor dfg mapping request.tripCount (.periodic key item.2.logicalIteration) item.2)
    {k : ℕ} (hk : k < schedule.kernel.repeatCount) :
    OccursAt dfg mapping request.tripCount schedule.timeOriginShift
      (.periodic key (item.2.logicalIteration + k)) (item.1 + k * schedule.ii : ℕ) := by
  refine (hp.exact.mem_iff _ _).mp ⟨later schedule.ii k item, ?_,
    (hevent.at (item.2.logicalIteration + k)).name, rfl⟩
  exact (mem_expansion_iff hp.shape).mpr (.inr ⟨k, hk, item, hitem, rfl⟩)

/-- The bounds the verifier expects are those of the schedule. -/
theorem bounds (hs : Schedulable dfg target mapping request.tripCount schedule.timeOriginShift)
    (hp : schedule.Proper dfg mapping request.tripCount) (hne : dfg.nodes ≠ []) :
    schedule.totalLogicalCycles ≠ 0 ∧ (schedule.totalLogicalCycles : ℤ) ≤ int64Max ∧
      ∃ entries, expectedSpans dfg mapping request schedule = .ok entries ∧
        ∀ next, checkBounds schedule entries next = next := by
  obtain ⟨entries, hentries, hall, hspanning⟩ := expectedSpans_spec hp.ii_eq hs
  -- there is an event, so there is a first and a last one
  obtain ⟨node, hnode⟩ := List.exists_mem_of_ne_nil _ hne
  obtain ⟨time, htime⟩ := hs.verified.staged.times node hnode
  obtain ⟨hissue, -, -⟩ := (Stream.nodeIssue hnode htime).spans hs.pos
  rw [zero_mul, add_zero] at hissue
  have hspans : entries.filterMap id ≠ [] := fun hnil ↦ by
    obtain ⟨span, hspan, -⟩ := hspanning.cover _ hissue
    rw [hnil] at hspan
    exact absurd hspan List.not_mem_nil
  obtain ⟨hleast, hgreatest⟩ := hspanning.extremes hspans fun t ht ↦
    int64_has.mp (hs.fits.has hs.shift_le ht).1
  have hshift := hp.shift_eq _ hleast
  have htotal := hp.total_eq _ hgreatest
  have hfirst := hs.fits.has hs.shift_le hleast.1
  have hlast := hs.fits.has hs.shift_le hgreatest.1
  have hbefore := hleast.2 hissue
  have hafter := hgreatest.2 hissue
  have hissued := (hs.fits.has hs.shift_le hissue).2.2
  have hmin : int64Min = -int64Max - 1 := by decide
  exact ⟨by omega, by omega, entries, hentries,
    checkBounds_eq hall rfl rfl ⟨by omega, by omega, by omega⟩ hshift htotal (by omega)⟩

/-- The phases cover the cycles. -/
theorem length_phases (hp : schedule.Proper dfg mapping request.tripCount) :
    schedule.prologue.cycles.length + schedule.kernel.repeatCount * schedule.ii
      + schedule.epilogue.cycles.length = schedule.totalLogicalCycles := by
  have h := hp.phases
  unfold checkPhases at h
  simp only at h
  split at h
  · cases h
  · simp only [require_eq_nil_iff, Bool.and_eq_true, decide_eq_true_eq, beq_iff_eq] at h
    omega

theorem repeatCount_le
    (hs : Schedulable dfg target mapping request.tripCount schedule.timeOriginShift)
    (hp : schedule.Proper dfg mapping request.tripCount) (hne : dfg.nodes ≠ []) :
    (schedule.kernel.repeatCount : ℤ) ≤ int64Max := by
  have htotal := (bounds hs hp hne).2.1
  have hphases := hp.length_phases
  have hii : schedule.kernel.repeatCount ≤ schedule.kernel.repeatCount * schedule.ii :=
    Nat.le_mul_of_pos_right _ (hp.ii_eq ▸ hs.verified.staged.ii_pos)
  omega

/-- The iterations of a kernel event fit. -/
theorem kernel_fits (hs : Schedulable dfg target mapping request.tripCount schedule.timeOriginShift)
    (hp : schedule.Proper dfg mapping request.tripCount) {item : ℕ × MaterializedEvent}
    (hitem : item ∈ schedule.kernelEvents) : int64Min ≤ item.2.logicalIteration ∧
      item.2.logicalIteration + schedule.kernel.repeatCount - 1 ≤ int64Max := by
  have hrepeat := repeatCount_ne_zero hp.shape hitem
  obtain ⟨key, hevent⟩ := hp.kernel item hitem
  -- the first and the last repetition are iterations of the stream
  obtain ⟨time, first, last, hstream, hfirst, -⟩ :=
    (hp.kernel_occursAt hitem hevent (Nat.pos_of_ne_zero hrepeat)).of_periodic
  obtain ⟨time', first', last', hstream', -, hlast', -⟩ :=
    (hp.kernel_occursAt hitem hevent (Nat.sub_one_lt hrepeat)).of_periodic
  have hreach := hs.fits.first_le hs.verified hs.pos hstream
  have hreach' := hs.fits.first_le hs.verified hs.pos hstream'
  have hend := hstream'.last_eq
  have hcount := hs.count_le
  have hmin : int64Min = -int64Max - 1 := by decide
  constructor
  · omega
  · omega

/-- **The walk** records every event and finds nothing. -/
theorem exists_scan (hs : Schedulable dfg target mapping request.tripCount schedule.timeOriginShift)
    (hp : schedule.Proper dfg mapping request.tripCount) (hne : dfg.nodes ≠ []) :
    ∃ seen, scan dfg mapping request schedule = .ok (seen, []) := by
  have ⟨hv, hfits, _, hpos, _⟩ := hs
  have hii := hp.ii_eq
  have htotal := (bounds hs hp hne).2.1
  have hphases := hp.length_phases
  have hmax : (int64Max : ℤ) < uint64Max := by decide
  have hnodup : (schedule.explicitEvents.map fun x ↦ x.2.name?).Nodup :=
    (List.nodup_append.mp
      ((MaterializedSchedule.names_perm_events hp.shape).nodup_iff.mp hp.exact.nodup)).1
  have hsplit := hnodup
  rw [MaterializedSchedule.explicitEvents, List.map_append, List.nodup_append] at hsplit
  have hmem : ∀ item ∈ timed 0 schedule.prologue.cycles, item ∈ schedule.explicitEvents :=
    fun item hitem ↦ List.mem_append_left _ hitem
  have hmem' : ∀ item ∈ timed schedule.kernelEnd schedule.epilogue.cycles,
      item ∈ schedule.explicitEvents := fun item hitem ↦ List.mem_append_right _ hitem
  have hprologue : loop (scanEvent dfg mapping request schedule) []
      (timed 0 schedule.prologue.cycles)
      = .ok ([] ++ (timed 0 schedule.prologue.cycles).map explicitRecord, []) :=
    loop_scanEvent_eq hii hv hfits hpos (fun item hitem ↦ hp.genuine (hmem item hitem)) hsplit.1
      (by simp)
  have hkernel : loop (scanKernelEvent dfg mapping request schedule)
      ([] ++ (timed 0 schedule.prologue.cycles).map explicitRecord) schedule.kernelEvents
      = .ok (([] ++ (timed 0 schedule.prologue.cycles).map explicitRecord)
        ++ schedule.kernelEvents.map (kernelRecord schedule), []) := by
    apply loop_of_log
    intro before item after hbefore
    have hitem : item ∈ schedule.kernelEvents := by simp [hbefore]
    have hrepeat := repeatCount_ne_zero hp.shape hitem
    obtain ⟨key, hevent⟩ := hp.kernel item hitem
    have hoccurs := hp.kernel_occursAt hitem hevent (Nat.pos_of_ne_zero hrepeat)
    simp only [Nat.cast_zero, add_zero, zero_mul] at hoccurs
    obtain ⟨hfirst, hlast⟩ := kernel_fits hs hp hitem
    exact scanKernelEvent_eq hii hv hfits hpos hrepeat hevent hoccurs hfirst hlast
      (repeatCount_le hs hp hne) _
  have hepilogue : loop (scanEvent dfg mapping request schedule)
      (([] ++ (timed 0 schedule.prologue.cycles).map explicitRecord)
        ++ schedule.kernelEvents.map (kernelRecord schedule))
      (timed schedule.kernelEnd schedule.epilogue.cycles)
      = .ok (([] ++ (timed 0 schedule.prologue.cycles).map explicitRecord)
        ++ schedule.kernelEvents.map (kernelRecord schedule)
        ++ (timed schedule.kernelEnd schedule.epilogue.cycles).map explicitRecord, []) := by
    refine loop_scanEvent_eq hii hv hfits hpos (fun item hitem ↦ hp.genuine (hmem' item hitem))
      hsplit.2.1 fun item hitem hkind hrecorded ↦ ?_
    simp only [List.nil_append, List.mem_append, List.mem_map] at hrecorded
    rcases hrecorded with ⟨other, hother, hsame⟩ | ⟨other, hother, hsame⟩
    · -- the prologue has no event of that name
      have hname := (hp.genuine (hmem' item hitem)).name_eq (hp.genuine (hmem other hother)) hsame
      exact hsplit.2.2 _ (List.mem_map_of_mem hother) _ (List.mem_map_of_mem hitem) hname
    · -- the record of a kernel event is a range
      obtain ⟨key, hevent⟩ := hp.kernel other hother
      have hother := kind_of_periodic hevent
      rw [OneShotKind, not_or] at hother
      obtain ⟨key, hrange⟩ := recordOf_range
        (other.2.logicalIteration + schedule.kernel.repeatCount - 1) hother.1 hother.2
      rw [kernelRecord, hrange] at hsame
      exact record_ne_range hkind _ _ _ _ hsame.symm
  have hbody : schedule.kernel.body.length ≤ schedule.kernel.repeatCount * schedule.ii := by
    by_cases hrepeat : schedule.kernel.repeatCount = 0
    · simp [hp.shape.1 hrepeat]
    · rw [hp.shape.2 hrepeat]
      exact Nat.le_mul_of_pos_left _ (Nat.pos_of_ne_zero hrepeat)
  have hfirst := scanPhase_eq "schedule cycle index overflows uint64" hprologue
    (by omega)
  have hsecond := scanPhase_eq "kernel cycle index overflows uint64" hkernel (by omega)
  have hthird := scanPhase_eq "schedule cycle index overflows uint64" hepilogue
    (by rw [MaterializedSchedule.kernelEnd]; omega)
  exact ⟨_, bind_eq_ok.mpr ⟨_, hfirst, bind_eq_ok.mpr ⟨_, hsecond, bind_eq_ok.mpr ⟨_, hthird,
    rfl⟩⟩⟩⟩

/-- The records of a proper schedule pass the last checks. -/
theorem checkEvents_eq
    (hs : Schedulable dfg target mapping request.tripCount schedule.timeOriginShift)
    (hp : schedule.Proper dfg mapping request.tripCount) (hne : dfg.nodes ≠ []) :
    checkEvents dfg mapping request schedule = .ok [] := by
  have hgraph := hs.verified.staged.modulo.graph
  have hids := StorageRequirementAnalysis.nodup_ids hs.verified.requirements
  obtain ⟨seen, hscan⟩ := exists_scan hs hp hne
  obtain ⟨expected, hexpected, hstreams⟩ := @expectedRanges_spec _ _ _ request hs.verified
  have hscanned := scanned_of_scan hp.shape hp.ii_eq hs.pos hscan
  have hperm := hscanned.names_perm hp.shape
  have hnodup : (seen.flatMap (EventRecord.names request.tripCount)).Nodup :=
    (hperm.nodup_iff.mp hp.exact.nodup).of_map some
  -- what is recorded is what happens
  have hrecorded : ∀ name : EventName,
      name ∈ seen.flatMap (EventRecord.names request.tripCount) ↔ ∃ cycle,
        OccursAt dfg mapping request.tripCount schedule.timeOriginShift name cycle := by
    intro name
    have hname : (∃ x ∈ schedule.expansion, x.2.name? = some name) ↔
        name ∈ seen.flatMap (EventRecord.names request.tripCount) := by
      rw [← List.mem_map, hperm.mem_iff, List.mem_map]
      simp
    rw [← hname]
    constructor
    · rintro ⟨x, hx, hxname⟩
      exact ⟨x.1, (hp.exact.mem_iff name x.1).mp ⟨x, hx, hxname, rfl⟩⟩
    · rintro ⟨cycle, hoccurs⟩
      obtain ⟨x, hx, hxname, -⟩ := (hp.exact.mem_iff name cycle).mpr hoccurs
      exact ⟨x, hx, hxname⟩
  have hcovers : checkStreams seen expected = [] := by
    simp only [checkStreams, List.append_eq_nil_iff, List.flatMap_eq_nil_iff, require_eq_nil_iff,
      List.mem_insertionSort, List.mem_dedup, List.any_eq_true, beq_iff_eq]
    constructor
    · rintro ⟨key, first, last⟩ hentry
      obtain ⟨time, hstream⟩ := hstreams _ hentry
      have hinhabited : Inhabited (rangesOf seen key) :=
        fun r hr ↦ hscanned.le hp.shape (mem_rangesOf.mp hr)
      have hreach := hs.fits.first_le hs.verified hs.pos hstream
      have hlast := hstream.last_eq
      have hpos := hs.pos
      have hcount := hs.count_le
      refine rangesCoverExactly_of_covers hinhabited (separate_rangesOf hnodup key hinhabited)
        (fun i ↦ ?_) (by omega) (by omega)
      rw [exists_mem_rangesOf, hrecorded]
      constructor
      · rintro ⟨cycle, hoccurs⟩
        obtain ⟨time', first', last', hstream', hfirst, hlast, -⟩ := hoccurs.of_periodic
        obtain ⟨rfl, rfl⟩ := hstream.range_unique hgraph hids hstream'
        exact ⟨hfirst, hlast⟩
      · rintro ⟨hfirst, hlast⟩
        exact ⟨_, OccursAt.periodic hstream hfirst hlast⟩
    · intro key hkey
      obtain ⟨record, hrecord, hsome⟩ := List.mem_filterMap.mp hkey
      rcases record with ⟨recorded, first, last⟩ | _ | _
      · obtain rfl := Option.some.inj hsome
        have hle := hscanned.le hp.shape hrecord
        obtain ⟨cycle, hoccurs⟩ := (hrecorded (.periodic recorded first)).mp
          (List.mem_flatMap.mpr ⟨_, hrecord, mem_names_range.mpr ⟨rfl, le_rfl, hle⟩⟩)
        obtain ⟨time, first', last', hstream, -⟩ := hoccurs.of_periodic
        exact ⟨_, expected_of_stream hgraph hexpected hstream, rfl⟩
      · cases hsome
      · cases hsome
  have hshots : checkOneShots dfg request seen = [] := by
    rw [checkOneShots, List.append_eq_nil_iff, List.flatMap_eq_nil_iff, List.flatMap_eq_nil_iff]
    constructor
    · intro edge hedge
      split
      · rfl
      rename_i hkind
      rw [List.flatMap_eq_nil_iff]
      intro offset hoffset
      obtain ⟨src, _, _, _, _, time, _, hsrc, -, -, -, -, htime, -⟩ :=
        hs.verified.staged.route hedge hkind
      have hname := (hrecorded (.boundaryValueInject edge.id offset)).mpr
        ⟨_, OccursAt.boundaryValueInject hedge hkind (List.mem_range.mp hoffset) hsrc htime⟩
      obtain ⟨record, hrecord, hname⟩ := List.mem_flatMap.mp hname
      rw [require_eq_nil_iff, List.contains_eq_mem, decide_eq_true_eq]
      rcases record with _ | ⟨edge', offset'⟩ | _
      · simp [EventRecord.names] at hname
      · obtain ⟨rfl, rfl⟩ := EventName.boundaryValueInject.inj (List.mem_singleton.mp hname)
        exact hrecord
      · simp [EventRecord.names] at hname
    · intro liveOut hmem
      obtain ⟨node, hnode⟩ := hgraph.liveOut liveOut hmem
      obtain ⟨latency, hlatency⟩ := Option.ne_none_iff_exists'.mp
        (hs.fits.timed liveOut hmem node hnode)
      obtain ⟨time, htime⟩ := hs.verified.staged.times node (TargetDFG.mem_of_findNode hnode)
      rw [TargetDFG.findNode_id hnode] at htime
      have hname := (hrecorded (.liveOutBoundaryUse liveOut.id (request.tripCount - 1))).mpr
        ⟨_, OccursAt.liveOutBoundaryUse hmem hnode hlatency htime⟩
      obtain ⟨record, hrecord, hname⟩ := List.mem_flatMap.mp hname
      rw [require_eq_nil_iff, List.contains_eq_mem, decide_eq_true_eq]
      rcases record with _ | _ | id
      · simp [EventRecord.names] at hname
      · simp [EventRecord.names] at hname
      · obtain ⟨rfl, -⟩ := EventName.liveOutBoundaryUse.inj (List.mem_singleton.mp hname)
        exact hrecord
  refine bind_eq_ok.mpr ⟨_, hscan, bind_eq_ok.mpr ⟨_, hexpected, ?_⟩⟩
  simp [hcovers, hshots, pure, Except.pure]

end MaterializedSchedule.Proper

/-- **The verifier accepts proper schedules.** -/
theorem MaterializedScheduleVerifier.verify_of_proper {dfg : TargetDFG} {target : TargetModel}
    {mapping : RFAllocatedMapping} {request : ScheduleMaterializationRequest}
    {schedule : MaterializedSchedule} (hgraph : TargetDFGVerifier.verify dfg target = [])
    (hrf : RFAllocationVerifier.verify dfg target mapping = .ok []) (hne : dfg.nodes ≠ [])
    (hs : Schedulable dfg target mapping request.tripCount schedule.timeOriginShift)
    (hp : schedule.Proper dfg mapping request.tripCount) :
    verify dfg target mapping request schedule = .ok [] := by
  obtain ⟨htotal, -, entries, hentries, hbounds⟩ := hp.bounds hs hne
  have hpos := hs.pos
  have hcount := hs.count_le
  have hshape := hp.shape
  rw [verify, stage_require, stage_require, stage_require, hrf]
  · simp only
    rw [stage_require, stage_require, stage_require, stage_require, hentries]
    · simp only [hbounds]
      rw [hp.phases]
      exact hp.checkEvents_eq hs hne
    · simpa using htotal
    · by_cases hrepeat : schedule.kernel.repeatCount = 0
      · simp [hrepeat, hshape.1 hrepeat]
      · simp [hrepeat, hshape.2 hrepeat]
    · simp [hp.tripCount_eq, hp.ii_eq]
    · rfl
  · simp [hgraph]
  · simpa using hcount
  · simpa using hpos

end PredicatedMesh
