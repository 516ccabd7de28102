import PredicatedMesh.Schedule.Placement

/-!
# When materialization succeeds

For an accepted mapping, times that fit, all boundary values and budgets that suffice,
materialization succeeds but for four reasons, of which two are oversights. The last period of the
kernel is a whole period even when nothing happens at its end, so its end may lie after the last
cycle of the schedule, and then the length of the epilogue is a difference that wraps. And the
verifier wants the producer of every injected value to issue in cycle zero or later, while the
origin of time is the first event, which may be the injection itself, when the producer takes
several cycles.
-/

namespace PredicatedMesh

open Scan

/-! ## The origin of time -/

/-- The least shift of the time origin with which no event happens before cycle zero. -/
noncomputable def originShift (dfg : TargetDFG) (mapping : RFAllocatedMapping) (tripCount : ℕ) :
    ℕ :=
  sInf {shift | ∀ name cycle, OccursAt dfg mapping tripCount shift name cycle → 0 ≤ cycle}

section Origin

variable {dfg : TargetDFG} {target : TargetModel} {mapping : RFAllocatedMapping} {tripCount : ℕ}

/-- Nothing happens further back than the longest distance, and one period for a live-out. -/
theorem exists_shift (dfg : TargetDFG) (mapping : RFAllocatedMapping) (tripCount : ℕ) :
    ∃ shift : ℕ, ∀ name cycle, OccursAt dfg mapping tripCount shift name cycle → 0 ≤ cycle := by
  obtain ⟨furthest, hfurthest⟩ := (dfg.edges.map TargetEdge.distance).toFinset.exists_le
  have hdistance : ∀ edge ∈ dfg.edges, (edge.distance : ℤ) ≤ furthest := fun edge hedge ↦ by
    exact_mod_cast hfurthest _ (List.mem_toFinset.mpr (List.mem_map_of_mem hedge))
  have hback : ∀ iteration : ℤ, -(furthest + 1 : ℤ) ≤ iteration →
      0 ≤ (((furthest + 1) * mapping.staged.modulo.ii : ℕ) : ℤ)
        + iteration * mapping.staged.modulo.ii := by
    intro iteration hle
    have hnonneg : 0 ≤ ((furthest + 1 : ℤ) + iteration) * (mapping.staged.modulo.ii : ℤ) :=
      mul_nonneg (by omega) (Int.natCast_nonneg _)
    push_cast
    linarith
  refine ⟨(furthest + 1) * mapping.staged.modulo.ii, fun name cycle hoccurs ↦ ?_⟩
  rcases hoccurs with @⟨key, time, first, last, iteration, hstream, hfirst, -⟩ |
    @⟨edge, src, time, offset, hedge, -, -, -, -⟩ | @⟨liveOut, node, time, latency, -, -, -, -⟩
  · have hle : -(furthest + 1 : ℤ) ≤ iteration := by
      rcases hstream with _ | ⟨hedge, -, -, -, -, -⟩ | ⟨-, hedge, -⟩ | ⟨-, hedge, -⟩
      · omega
      all_goals
        have h := hdistance _ hedge
        omega
    have h := hback iteration hle
    linarith [Int.natCast_nonneg time]
  · have hle := hdistance edge hedge
    have h := hback ((offset : ℤ) - edge.distance) (by omega)
    linarith [Int.natCast_nonneg time, Int.natCast_nonneg (src.producerOutputReadyOffset.getD 0)]
  · have h := hback ((tripCount : ℤ) - 1) (by omega)
    linarith [Int.natCast_nonneg time, Int.natCast_nonneg latency]

/-- With the origin moved, nothing happens before cycle zero. -/
theorem originShift_spec {name : EventName} {cycle : ℤ}
    (h : OccursAt dfg mapping tripCount (originShift dfg mapping tripCount) name cycle) :
    0 ≤ cycle :=
  Nat.sInf_mem (exists_shift dfg mapping tripCount) name cycle h

/-- The origin is moved by as much as the first event lies before it. -/
theorem originShift_eq {time : ℤ} (h : IsLeast (EventTime dfg mapping tripCount) time) :
    (originShift dfg mapping tripCount : ℤ) = if time < 0 then -time else 0 := by
  obtain ⟨name, hoccurs⟩ := EventTime.occursAt h.1 (originShift dfg mapping tripCount)
  have hnonneg := originShift_spec hoccurs
  have hle : originShift dfg mapping tripCount ≤ (-time).toNat := by
    refine Nat.sInf_le fun name cycle hoccurs ↦ ?_
    have hlower := h.2 (EventTime.of_occursAt hoccurs)
    omega
  split
  · omega
  · omega

end Origin

/-! ## What is asked for, and when it is delivered -/

/-- A request that should be met: an accepted mapping, at least one iteration, times and cycles that
fit, all boundary values, and budgets for the cycles of the schedule and for the events outside the
kernel. The number of cycles is one more than the last cycle, and has to fit as well. -/
structure Requested (dfg : TargetDFG) (target : TargetModel) (mapping : RFAllocatedMapping)
    (request : ScheduleMaterializationRequest) : Prop where
  allocated : RFAllocationVerifier.verify dfg target mapping = .ok []
  pos : request.tripCount ≠ 0
  time_le : ∀ key time first last, Stream dfg mapping request.tripCount key time first last →
    (time : ℤ) ≤ int64Max
  cycle_lt : ∀ name cycle, OccursAt dfg mapping request.tripCount
    (originShift dfg mapping request.tripCount) name cycle → cycle < int64Max
  values : ∀ edge ∈ dfg.edges, edge.kind ≠ .memory →
    ∀ offset < min request.tripCount edge.distance,
      (ScheduleMaterializer.boundaryValue edge offset).isSome
  cycles : ∀ name cycle, OccursAt dfg mapping request.tripCount
    (originShift dfg mapping request.tripCount) name cycle →
      cycle < request.budget.maxExplicitBoundaryCycles
  events : ∀ names : List EventName, names.Nodup → (∀ name ∈ names, ∃ cycle : ℕ,
    OccursAt dfg mapping request.tripCount (originShift dfg mapping request.tripCount) name cycle ∧
      ¬ KernelPeriod dfg mapping request.tripCount (originShift dfg mapping request.tripCount)
        (cycle / mapping.staged.modulo.ii)) →
    names.length ≤ request.budget.maxExplicitBoundaryEvents
  budget_le : request.budget.maxExplicitBoundaryEvents ≤ uint64Max

/-- What materialization needs besides: a node, producers that issue what they leave behind before
the first iteration in cycle zero or later, kernel periods that end no later than the schedule, and
a latency for every live-out. -/
structure Materializable (dfg : TargetDFG) (mapping : RFAllocatedMapping) (tripCount : ℕ) :
    Prop where
  nodes : dfg.nodes ≠ []
  issued : ∀ edge ∈ dfg.edges, edge.kind ≠ .memory → ∀ time,
    mapping.staged.logicalIssueTime edge.src = .ok time →
      edge.distance * mapping.staged.modulo.ii ≤ originShift dfg mapping tripCount + time
  ended : ∀ period, KernelPeriod dfg mapping tripCount (originShift dfg mapping tripCount) period →
    ∃ name cycle, OccursAt dfg mapping tripCount (originShift dfg mapping tripCount) name cycle ∧
      ((period : ℤ) + 1) * mapping.staged.modulo.ii ≤ cycle + 1
  timed : ∀ liveOut ∈ dfg.liveOuts, ∀ node, dfg.findNode liveOut.source = some node →
    node.resultLatency ≠ none

section Events

variable {dfg : TargetDFG} {target : TargetModel} {mapping : RFAllocatedMapping}
variable {tripCount shift : ℕ}

/-- Something happens only when there is a node. -/
theorem nodes_ne_nil_of_occursAt (hv : dfg.Verified target) {name : EventName} {cycle : ℤ}
    (h : OccursAt dfg mapping tripCount shift name cycle) : dfg.nodes ≠ [] := by
  have hedge : ∀ edge ∈ dfg.edges, dfg.nodes ≠ [] := fun edge hedge ↦ by
    obtain ⟨src, -, hsrc, -⟩ := hv.endpoints edge hedge
    exact List.ne_nil_of_mem (TargetDFG.mem_of_findNode hsrc)
  rcases h with ⟨hstream, -, -⟩ | ⟨hmem, -, -, -, -⟩ | ⟨-, hnode, -, -⟩
  · rcases hstream with ⟨hnode, -⟩ | ⟨hmem, -, -, -, -, -⟩ | ⟨-, hmem, -⟩ | ⟨-, hmem, -⟩
    · exact List.ne_nil_of_mem hnode
    all_goals exact hedge _ hmem
  · exact hedge _ hmem
  · exact List.ne_nil_of_mem (TargetDFG.mem_of_findNode hnode)

end Events

namespace Requested

variable {dfg : TargetDFG} {target : TargetModel} {mapping : RFAllocatedMapping}
variable {request : ScheduleMaterializationRequest}

theorem verified (h : Requested dfg target mapping request) : mapping.Verified dfg target :=
  RFAllocationVerifier.verified_of_verify h.allocated

theorem shift_lt (h : Requested dfg target mapping request) (hne : dfg.nodes ≠ []) :
    (originShift dfg mapping request.tripCount : ℤ) < int64Max := by
  obtain ⟨node, hnode⟩ := List.exists_mem_of_ne_nil _ hne
  obtain ⟨time, htime⟩ := h.verified.staged.times node hnode
  have hpos := h.pos
  have hissue := h.cycle_lt _ _ (OccursAt.periodic (Stream.nodeIssue hnode htime) le_rfl (by omega))
  omega

/-- The times of the events fit. -/
theorem time_mem (h : Requested dfg target mapping request) :
    ∀ time ∈ EventTime dfg mapping request.tripCount, int64Min ≤ time ∧ time ≤ int64Max := by
  intro time htime
  obtain ⟨name, hoccurs⟩ := EventTime.occursAt htime (originShift dfg mapping request.tripCount)
  have hshift := h.shift_lt (nodes_ne_nil_of_occursAt h.verified.staged.modulo.graph hoccurs)
  have hnonneg := originShift_spec hoccurs
  have hlt := h.cycle_lt _ _ hoccurs
  have hmin : int64Min = -int64Max - 1 := by decide
  omega

/-- The times fit when a request that should be met can be. -/
theorem schedulable (h : Requested dfg target mapping request)
    (hm : Materializable dfg mapping request.tripCount) :
    Schedulable dfg target mapping request.tripCount
      (originShift dfg mapping request.tripCount) := by
  have hfits : TimesFit dfg mapping request.tripCount
      (originShift dfg mapping request.tripCount) :=
    { nonneg := fun name cycle hoccurs ↦ originShift_spec hoccurs
      lt := h.cycle_lt
      time_le := h.time_le
      issued := hm.issued
      timed := hm.timed }
  refine ⟨h.verified, hfits, (h.shift_lt hm.nodes).le, h.pos, ?_⟩
  -- the last iteration begins in a cycle that fits
  obtain ⟨node, hnode⟩ := List.exists_mem_of_ne_nil _ hm.nodes
  obtain ⟨time, htime⟩ := h.verified.staged.times node hnode
  have hspan := hfits.span_lt h.pos hnode htime
  have hpos := h.pos
  have hii := h.verified.staged.ii_pos
  have hperiods : (request.tripCount - 1 : ℤ)
      ≤ (request.tripCount - 1 : ℤ) * mapping.staged.modulo.ii :=
    le_mul_of_one_le_right (by omega) (by omega)
  omega

end Requested

/-! ## What a schedule is built from -/

namespace ScheduleMaterializer

/-- What the materializer works out before it writes events: what happens, moved to the origin of
time, the kernel window and the layout of the phases. -/
structure Plan (dfg : TargetDFG) (mapping : RFAllocatedMapping)
    (request : ScheduleMaterializationRequest) where
  all : List PeriodicStream × List OneShot
  origin : ℕ × ℕ
  streams : List (Timed PeriodicStream)
  shots : List (Timed OneShot)
  window : ℕ × ℕ
  layout : PhaseLayout
  events_eq : events dfg mapping request = .ok all
  origin_eq : timeOrigin all.1 all.2 = .ok origin
  streams_eq : shiftAll PeriodicStream.firstLogicalTime
    "shifted periodic event time exceeds signed range" origin.1 all.1 = .ok streams
  shots_eq : shiftAll OneShot.logicalTime "shifted one-shot event time exceeds signed range"
    origin.1 all.2 = .ok shots
  window_eq : kernelWindow mapping.staged.modulo.ii streams shots = .ok window
  layout_eq : layoutOf mapping.staged.modulo.ii origin.2 (!streams.isEmpty) window = .ok layout

/-- What happens has been listed and moved to the origin of time. -/
theorem listed_of_shiftAll {dfg : TargetDFG} {mapping : RFAllocatedMapping}
    {request : ScheduleMaterializationRequest} (hpos : request.tripCount ≠ 0) {shift : ℕ}
    {all : List PeriodicStream × List OneShot} (hall : events dfg mapping request = .ok all)
    {streams : List (Timed PeriodicStream)} {shots : List (Timed OneShot)}
    {message message' : String}
    (hstreams : shiftAll PeriodicStream.firstLogicalTime message shift all.1 = .ok streams)
    (hshots : shiftAll OneShot.logicalTime message' shift all.2 = .ok shots) :
    Listed dfg mapping request.tripCount shift streams shots := by
  obtain ⟨hcarries, hcarriesOnce⟩ := events_spec hpos hall
  constructor
  · refine forall₂_trans (fun key item stream hcarries hmoved ↦ ?_) hcarries
      (shiftAll_spec hstreams)
    obtain ⟨rfl, hcycle⟩ := hmoved
    exact ⟨hcarries, hcycle⟩
  · refine forall₂_trans (fun name item shot hcarries hmoved ↦ ?_) hcarriesOnce
      (shiftAll_spec hshots)
    obtain ⟨rfl, hcycle⟩ := hmoved
    exact ⟨hcarries, hcycle⟩

/-- A built schedule was built from a plan. -/
theorem exists_plan {dfg : TargetDFG} {mapping : RFAllocatedMapping}
    {request : ScheduleMaterializationRequest} {schedule : MaterializedSchedule}
    (h : build dfg mapping request = .ok schedule) : ∃ plan : Plan dfg mapping request,
      schedule.ii = mapping.staged.modulo.ii ∧ schedule.timeOriginShift = plan.origin.1 ∧
        schedule.totalLogicalCycles = plan.origin.2 ∧
        schedule.prologue.cycles.length = plan.layout.prologueCycles ∧
        schedule.kernel.repeatCount = plan.layout.kernelRepeatCount := by
  unfold build at h
  obtain ⟨all, hevents, h⟩ := bind_eq_ok.mp h
  split at h
  · cases h
  obtain ⟨origin, horigin, h⟩ := bind_eq_ok.mp h
  obtain ⟨streams, hstreams, h⟩ := bind_eq_ok.mp h
  obtain ⟨shots, hshots, h⟩ := bind_eq_ok.mp h
  obtain ⟨window, hwindow, h⟩ := bind_eq_ok.mp h
  obtain ⟨layout, hlayout, h⟩ := bind_eq_ok.mp h
  split at h
  · cases h
  obtain ⟨-, -, h⟩ := bind_eq_ok.mp h
  obtain ⟨-, -, h⟩ := bind_eq_ok.mp h
  obtain ⟨placed, -, h⟩ := bind_eq_ok.mp h
  obtain ⟨once, -, h⟩ := bind_eq_ok.mp h
  obtain rfl := Except.ok.inj h
  exact ⟨⟨all, origin, streams, shots, window, layout, hevents, horigin, hstreams, hshots, hwindow,
    hlayout⟩, rfl, rfl, rfl, length_bundles 0 _ _, rfl⟩

namespace Plan

variable {dfg : TargetDFG} {target : TargetModel} {mapping : RFAllocatedMapping}
variable {request : ScheduleMaterializationRequest} (plan : Plan dfg mapping request)

theorem listed (hpos : request.tripCount ≠ 0) :
    Listed dfg mapping request.tripCount plan.origin.1 plan.streams plan.shots :=
  listed_of_shiftAll hpos plan.events_eq plan.streams_eq plan.shots_eq

/-- The origin and the end of time are those of the events, of which there is at least one. -/
theorem origin_spec (h : Requested dfg target mapping request) :
    dfg.nodes ≠ [] ∧ plan.origin.1 = originShift dfg mapping request.tripCount ∧
      (∀ time, IsLeast (EventTime dfg mapping request.tripCount) time →
        (plan.origin.1 : ℤ) = if time < 0 then -time else 0) ∧
      (∀ time, IsGreatest (EventTime dfg mapping request.tripCount) time →
        (plan.origin.2 : ℤ) = time + plan.origin.1 + 1) ∧
      ∃ time, IsGreatest (EventTime dfg mapping request.tripCount) time := by
  obtain ⟨hstreams, hshots⟩ := events_spec h.pos plan.events_eq
  have hspanning := spanning h.verified h.pos hstreams hshots
  obtain ⟨hne, hfirst, hlast⟩ := timeOrigin_spec hspanning h.time_mem plan.origin_eq
  obtain ⟨hleast, hgreatest⟩ := hspanning.extremes hne h.time_mem
  obtain ⟨name, hoccurs⟩ := hleast.1
  refine ⟨nodes_ne_nil_of_occursAt h.verified.staged.modulo.graph hoccurs, ?_, hfirst, hlast, _,
    hgreatest⟩
  zify
  rw [hfirst _ hleast, originShift_eq hleast]

/-- The cycles end with the last event. -/
theorem lt_cycles (h : Requested dfg target mapping request) {name : EventName} {cycle : ℤ}
    (hoccurs : OccursAt dfg mapping request.tripCount
      (originShift dfg mapping request.tripCount) name cycle) : cycle < (plan.origin.2 : ℤ) := by
  obtain ⟨-, hshift, -, hlast, time, hgreatest⟩ := plan.origin_spec h
  have hle := hgreatest.2 (EventTime.of_occursAt hoccurs)
  rw [hlast _ hgreatest, hshift]
  omega

theorem exists_last (h : Requested dfg target mapping request) : ∃ name cycle,
    OccursAt dfg mapping request.tripCount (originShift dfg mapping request.tripCount) name cycle ∧
      cycle + 1 = (plan.origin.2 : ℤ) := by
  obtain ⟨-, hshift, -, hlast, time, hgreatest⟩ := plan.origin_spec h
  obtain ⟨name, hoccurs⟩ :=
    EventTime.occursAt hgreatest.1 (originShift dfg mapping request.tripCount)
  exact ⟨name, _, hoccurs, by rw [hlast _ hgreatest, hshift]⟩

/-- There is a stream when there is a node. -/
theorem streams_ne_nil (h : Requested dfg target mapping request) : plan.streams ≠ [] := by
  obtain ⟨hne, -⟩ := plan.origin_spec h
  obtain ⟨node, hnode⟩ := List.exists_mem_of_ne_nil _ hne
  obtain ⟨time, htime⟩ := h.verified.staged.times node hnode
  obtain ⟨stream, hmem, -⟩ :=
    (plan.listed h.pos).exists_stream h.verified (Stream.nodeIssue hnode htime)
  exact List.ne_nil_of_mem hmem

/-- The window holds the kernel periods. -/
theorem mem_window_iff (h : Requested dfg target mapping request) (p : ℕ) :
    plan.window.1 ≤ p ∧ p ≤ plan.window.2 ↔ KernelPeriod dfg mapping request.tripCount
      (originShift dfg mapping request.tripCount) p := by
  have hlisted := plan.listed h.pos
  obtain ⟨-, hshift, -⟩ := plan.origin_spec h
  rw [hshift] at hlisted
  exact hlisted.mem_kernelWindow_iff h.verified h.pos h.cycle_lt (plan.streams_ne_nil h)
    plan.window_eq p

/-- The kernel of the layout is the window. -/
theorem layout_spec (h : Requested dfg target mapping request) :
    plan.layout.ii = mapping.staged.modulo.ii ∧ plan.layout.totalCycles = plan.origin.2 ∧
      (plan.layout.hasKernel = true ↔ plan.window.1 ≤ plan.window.2) ∧
      (plan.layout.hasKernel = true → plan.layout.first = plan.window.1 ∧
        plan.layout.last = plan.window.2 ∧
        plan.layout.kernelRepeatCount = plan.window.2 - plan.window.1 + 1 ∧
        plan.layout.kernelStartCycle = plan.window.1 * mapping.staged.modulo.ii ∧
        plan.layout.kernelEndCycle = (plan.window.2 + 1) * mapping.staged.modulo.ii) ∧
      (plan.layout.hasKernel = false →
        plan.layout.kernelRepeatCount = 0 ∧ plan.layout.kernelEndCycle = 0) := by
  obtain ⟨hii, htotal, hkernel, hsome, hnone⟩ := layoutOf_spec plan.layout_eq
  refine ⟨hii, htotal, ?_, hsome, hnone⟩
  have hne := plan.streams_ne_nil h
  simp [hkernel, hne]

end Plan

end ScheduleMaterializer

/-! ## What success needs -/

section Success

variable {dfg : TargetDFG} {target : TargetModel} {mapping : RFAllocatedMapping}
variable {request : ScheduleMaterializationRequest} {schedule : MaterializedSchedule}

/-- The graph of an accepted mapping is an accepted one. -/
theorem RFAllocationVerifier.graph_of_verify (h : verify dfg target mapping = .ok []) :
    TargetDFGVerifier.verify dfg target = [] := by
  rw [verify, stage_eq_ok_nil_iff] at h
  simpa using h.1

/-- In an accepted schedule the producer of an injected value issues in cycle zero or later. -/
theorem MaterializedScheduleVerifier.Accepted.issued
    (h : Accepted dfg target mapping request schedule) {edge : TargetEdge}
    (hedge : edge ∈ dfg.edges) (hkind : edge.kind ≠ .memory) {time : ℕ}
    (htime : mapping.staged.logicalIssueTime edge.src = .ok time) :
    edge.distance * mapping.staged.modulo.ii ≤ schedule.timeOriginShift + time := by
  by_cases hdistance : edge.distance = 0
  · simp [hdistance]
  have hpos := h.tripCount_ne_zero
  obtain ⟨src, -, hsrc, -⟩ := h.graph.endpoints edge hedge
  -- the first injection of the edge has been checked
  obtain ⟨x, hx, hname, -⟩ := (h.exact.mem_iff _ _).mpr
    (OccursAt.boundaryValueInject hedge hkind (by omega : 0 < min request.tripCount edge.distance)
      hsrc htime)
  have hinject := MaterializedEvent.kind_of_inject hname
  rcases (MaterializedSchedule.mem_expansion_iff h.shape).mp hx with hx | ⟨k, -, item, hitem, rfl⟩
  · obtain ⟨seen, recorded, hchecked⟩ := h.explicit_checked hx
    rw [verifyEvent, hinject] at hchecked
    obtain ⟨-, id, offset, hid, hoffset, -, -, other, hother, rfl, time', htime', hnonneg⟩ :=
      verifyBoundaryInject_clean h.ii_eq hchecked
    simp only [MaterializedEvent.name?, hinject, hid, hoffset, Option.some.injEq,
      EventName.boundaryValueInject.injEq] at hname
    obtain ⟨hsame, rfl⟩ := hname
    obtain rfl := List.inj_on_of_nodup_map h.graph.nodup_edges hother hedge hsame
    obtain rfl := Except.ok.inj (htime.symm.trans htime')
    rw [Nat.cast_zero, zero_sub] at hnonneg
    zify
    linarith
  · exact absurd hinject (h.kernel_checked hitem).1

/-- The kernel of an accepted schedule ends no later than the schedule. -/
theorem MaterializedScheduleVerifier.Accepted.kernelEnd_le
    (h : Accepted dfg target mapping request schedule) :
    schedule.kernelEnd ≤ schedule.totalLogicalCycles := by
  have hphases := h.phases
  unfold checkPhases at hphases
  simp only at hphases
  split at hphases
  · cases hphases
  · simp only [require_eq_nil_iff, Bool.and_eq_true, decide_eq_true_eq, beq_iff_eq] at hphases
    rw [MaterializedSchedule.kernelEnd]
    omega

/-- A listed live-out has a latency. -/
theorem ScheduleMaterializer.timed_of_events {all : List PeriodicStream × List OneShot}
    (h : events dfg mapping request = .ok all) {liveOut : TargetLiveOut}
    (hmem : liveOut ∈ dfg.liveOuts) {node : TargetNode}
    (hnode : dfg.findNode liveOut.source = some node) : node.resultLatency ≠ none := by
  obtain ⟨nodes, -, h⟩ := bind_eq_ok.mp h
  obtain ⟨edges, -, h⟩ := bind_eq_ok.mp h
  obtain ⟨segments, -, h⟩ := bind_eq_ok.mp h
  obtain ⟨liveOuts, hliveOuts, h⟩ := bind_eq_ok.mp h
  obtain ⟨shot, -, hshot⟩ := exists_result_of_mem hliveOuts hmem
  intro hnone
  simp [liveOutShot, hnode, hnone] at hshot

/-- **What success needs**: a request that is met is one that can be. -/
theorem Requested.materializable (h : Requested dfg target mapping request)
    (hschedule : ScheduleMaterializer.materialize dfg target mapping request
      = .ok (.ok schedule)) : Materializable dfg mapping request.tripCount := by
  obtain ⟨hbuild, hverify⟩ := ScheduleMaterializer.materialize_eq_ok hschedule
  have haccepted := MaterializedScheduleVerifier.accepted_of_verify hverify
  obtain ⟨plan, hii, hmoved, htotal, hprologue, hrepeat⟩ :=
    ScheduleMaterializer.exists_plan hbuild
  obtain ⟨hne, hshift, -⟩ := plan.origin_spec h
  refine ⟨hne, fun edge hedge hkind time htime ↦ ?_, fun period hperiod ↦ ?_,
    fun liveOut hmem node hnode ↦ ScheduleMaterializer.timed_of_events plan.events_eq hmem hnode⟩
  · have hissued := haccepted.issued hedge hkind htime
    rwa [hmoved, hshift] at hissued
  · -- the kernel of the plan reaches the end of the period, and the schedule is no shorter
    obtain ⟨hfirst, hlast⟩ := (plan.mem_window_iff h period).mpr hperiod
    obtain ⟨-, -, hkernel, hsome, -⟩ := plan.layout_spec h
    have hkernel := hkernel.mpr (hfirst.trans hlast)
    obtain ⟨-, -, hcount, hstart, -⟩ := hsome hkernel
    have hend := haccepted.kernelEnd_le
    rw [MaterializedSchedule.kernelEnd, hprologue, hrepeat, hii, htotal,
      ScheduleMaterializer.PhaseLayout.prologueCycles, if_pos hkernel, hcount, hstart,
      ← Nat.add_mul] at hend
    obtain ⟨name, cycle, hoccurs, hcycle⟩ := plan.exists_last h
    refine ⟨name, cycle, hoccurs, ?_⟩
    rw [hcycle]
    have hle : (period + 1) * mapping.staged.modulo.ii ≤ plan.origin.2 :=
      (Nat.mul_le_mul_right _ (by omega)).trans hend
    exact_mod_cast hle

end Success

/-! ## What success takes -/

namespace ScheduleMaterializer

variable {dfg : TargetDFG} {target : TargetModel} {mapping : RFAllocatedMapping}
variable {request : ScheduleMaterializationRequest}

/-- **There is a plan** for a request that can be met. -/
theorem exists_plan_of_materializable (h : Requested dfg target mapping request)
    (hm : Materializable dfg mapping request.tripCount) : Nonempty (Plan dfg mapping request) := by
  have hs := h.schedulable hm
  obtain ⟨all, hall⟩ := exists_events hs h.values
  obtain ⟨hstreams, hshots⟩ := events_spec h.pos hall
  have hspanning := spanning h.verified h.pos hstreams hshots
  obtain ⟨node, hnode⟩ := List.exists_mem_of_ne_nil _ hm.nodes
  obtain ⟨time, htime⟩ := h.verified.staged.times node hnode
  have hstream := @Stream.nodeIssue dfg mapping request.tripCount _ _ hnode htime
  have hspans : spans all.1 all.2 ≠ [] := by
    obtain ⟨span, hspan, -⟩ := hspanning.cover _ (hstream.spans h.pos).1
    exact List.ne_nil_of_mem hspan
  obtain ⟨origin, horigin⟩ :=
    exists_timeOrigin hs hstreams hspanning hspans fun time htime ↦ originShift_eq htime
  obtain ⟨-, hfirst, -⟩ := timeOrigin_spec hspanning h.time_mem horigin
  have hshift : origin.1 = originShift dfg mapping request.tripCount := by
    obtain ⟨hleast, -⟩ := hspanning.extremes hspans h.time_mem
    zify
    rw [hfirst _ hleast, originShift_eq hleast]
  -- every listed time is that of an event, and is moved to a cycle that fits
  have hmoved : ∀ span ∈ spans all.1 all.2,
      int64.Has span.1 ∧ 0 ≤ span.1 + origin.1 ∧ span.1 + origin.1 ≤ int64Max := by
    intro span hspan
    obtain ⟨hhas, hlower, hupper⟩ := hs.fits.has hs.shift_le (hspanning.occur span hspan).1
    rw [hshift]
    exact ⟨hhas, by omega, by omega⟩
  obtain ⟨streams, hstreams⟩ := exists_shiftAll fun stream hmem ↦
    hmoved _ (List.mem_append_left _ (List.mem_map_of_mem hmem))
  obtain ⟨shots, hshots⟩ := exists_shiftAll fun shot hmem ↦
    hmoved _ (List.mem_append_right _ (List.mem_map_of_mem hmem))
  have hlisted := listed_of_shiftAll h.pos hall hstreams hshots
  rw [hshift] at hlisted
  have hne : streams ≠ [] := by
    obtain ⟨stream, hmem, -⟩ := hlisted.exists_stream h.verified hstream
    exact List.ne_nil_of_mem hmem
  obtain ⟨window, hwindow⟩ := hlisted.exists_kernelWindow h.verified h.pos h.cycle_lt hne
  obtain ⟨layout, hlayout⟩ := @exists_layoutOf _ origin.2 (!streams.isEmpty) window
    h.verified.staged.ii_pos fun _ hle ↦ by
      obtain ⟨name, cycle, hoccurs, hend⟩ := hm.ended window.2
        ((hlisted.mem_kernelWindow_iff h.verified h.pos h.cycle_lt hne hwindow _).mp ⟨hle, le_rfl⟩)
      have hlt := h.cycle_lt _ _ hoccurs
      have hmax : (int64Max : ℤ) ≤ uint64Max := by decide
      zify
      omega
  exact ⟨⟨all, origin, streams, shots, window, layout, hall, horigin, hstreams, hshots, hwindow,
    hlayout⟩⟩

namespace Plan

variable (plan : Plan dfg mapping request)

theorem schedulable (h : Requested dfg target mapping request)
    (hm : Materializable dfg mapping request.tripCount) :
    Schedulable dfg target mapping request.tripCount plan.origin.1 := by
  rw [(plan.origin_spec h).2.1]
  exact h.schedulable hm

/-- The last event is in a cycle that fits, and within the budget. -/
theorem cycles_le (h : Requested dfg target mapping request) :
    (plan.origin.2 : ℤ) ≤ int64Max ∧
      plan.origin.2 ≤ request.budget.maxExplicitBoundaryCycles := by
  obtain ⟨name, cycle, hoccurs, hlast⟩ := plan.exists_last h
  have hlt := h.cycle_lt _ _ hoccurs
  have hbudget := h.cycles _ _ hoccurs
  omega

/-- The layout covers what happens in the kernel periods, and ends with the schedule. -/
theorem sound (h : Requested dfg target mapping request)
    (hm : Materializable dfg mapping request.tripCount) :
    plan.layout.Sound mapping.staged.modulo.ii plan.origin.2 plan.streams plan.shots := by
  obtain ⟨hii, htotal, hkernel, hsome, hnone⟩ := plan.layout_spec h
  have hfree := fun p ↦ kernelWindow_spec (plan.streams_ne_nil h)
    ((plan.listed h.pos).fits h.pos h.verified.staged.ii_pos fun name cycle hoccurs ↦
      (plan.schedulable h hm).fits.lt name cycle hoccurs).1
    ((plan.listed h.pos).fits h.pos h.verified.staged.ii_pos fun name cycle hoccurs ↦
      (plan.schedulable h hm).fits.lt name cycle hoccurs).2 plan.window_eq p
  refine ⟨hii, htotal, fun hlayout ↦ ?_, hnone, fun hlayout stream hstream ↦ ?_,
    fun hlayout shot hshot ↦ ?_⟩
  · have hle := hkernel.mp hlayout
    obtain ⟨hfirst, hlast, hcount, hstart, hend⟩ := hsome hlayout
    refine ⟨by omega, by rw [hcount, hfirst, hlast], by rw [hstart, hfirst],
      by rw [hend, hlast], ?_⟩
    obtain ⟨name, cycle, hoccurs, hcycle⟩ :=
      hm.ended plan.window.2 ((plan.mem_window_iff h _).mp ⟨hle, le_rfl⟩)
    have hlt := plan.lt_cycles h hoccurs
    rw [hend]
    zify
    omega
  · have hle := hkernel.mp hlayout
    obtain ⟨hfirst, hlast, -⟩ := hsome hlayout
    rw [hfirst, hlast]
    exact ⟨((hfree _).mp ⟨le_rfl, hle⟩).1 stream hstream,
      ((hfree _).mp ⟨hle, le_rfl⟩).1 stream hstream⟩
  · obtain ⟨hfirst, hlast, -⟩ := hsome hlayout
    by_contra hinside
    rw [not_or, not_lt, not_lt, hfirst, hlast] at hinside
    have hbusy := ((hfree _).mp hinside).2
    rw [hasOneShotInPeriod_iff.mpr ⟨shot, hshot, rfl⟩] at hbusy
    cases hbusy

/-- The schedule of a plan. -/
def schedule : MaterializedSchedule :=
  scheduleOf plan.layout request.tripCount plan.origin.1 plan.streams plan.shots

theorem proper (h : Requested dfg target mapping request)
    (hm : Materializable dfg mapping request.tripCount) :
    plan.schedule.Proper dfg mapping request.tripCount := by
  obtain ⟨-, hshift, hfirst, hlast, -⟩ := plan.origin_spec h
  have hcycles := (plan.cycles_le h).1
  have hmax : (int64Max : ℤ) < 2 ^ 64 := by decide
  refine ScheduleMaterializer.proper (plan.schedulable h hm) (plan.sound h hm) (by omega)
    (plan.listed h.pos) hfirst hlast fun name cycle hoccurs ↦ ?_
  rw [hshift] at hoccurs
  exact plan.lt_cycles h hoccurs

/-- What is written out is within the budget of events. -/
theorem length_written_le (h : Requested dfg target mapping request)
    (hm : Materializable dfg mapping request.tripCount) :
    (written plan.layout plan.streams plan.shots).length
      ≤ request.budget.maxExplicitBoundaryEvents := by
  have hp := plan.proper h hm
  have hsound := plan.sound h hm
  obtain ⟨-, hshift, -⟩ := plan.origin_spec h
  have hcycles := (plan.cycles_le h).1
  have hmax : (int64Max : ℤ) < 2 ^ 64 := by decide
  have hwritten := fun item ↦ @written_outside _ _ _ _ _ _ _ _ _ (plan.schedulable h hm) hsound
    (plan.listed h.pos) (fun name cycle hoccurs ↦ plan.lt_cycles h (hshift ▸ hoccurs)) item
  have hperm : plan.schedule.explicitEvents.Perm (written plan.layout plan.streams plan.shots) :=
    explicitEvents_perm hsound (by omega) hwritten
  -- the names of what is written out, each with its cycle
  obtain ⟨names, hnames⟩ := exists_forall₂ (R := fun name (item : ℕ × MaterializedEvent) ↦
      item.2.name? = some name ∧ OccursAt dfg mapping request.tripCount plan.origin.1 name item.1)
    fun item hitem ↦ by
      obtain ⟨name, hevent, hoccurs⟩ := hp.genuine (hperm.mem_iff.mpr hitem)
      exact ⟨name, hevent.name, hoccurs⟩
  have hsome := map_eq_of_forall₂ (f := some) (g := fun item : ℕ × MaterializedEvent ↦
    item.2.name?) (fun name item h ↦ h.1.symm) hnames
  have hnodup : names.Nodup := by
    have hall := hp.exact.nodup
    rw [(MaterializedSchedule.names_perm_events hp.shape).nodup_iff] at hall
    have hexplicit := hall.of_append_left
    rw [(hperm.map _).nodup_iff, ← hsome] at hexplicit
    exact hexplicit.of_map
  rw [← hnames.length_eq]
  refine h.events names hnodup fun name hname ↦ ?_
  obtain ⟨item, hitem, -, hoccurs⟩ := exists_of_forall₂ hnames name hname
  refine ⟨item.1, hshift ▸ hoccurs, fun hperiod ↦ ?_⟩
  -- a cycle outside the kernel is not in a kernel period
  obtain ⟨hfirst, hlast⟩ := (plan.mem_window_iff h (item.1 / mapping.staged.modulo.ii)).mpr
    (by exact_mod_cast hperiod)
  obtain ⟨-, -, hkernel, hwindow, -⟩ := plan.layout_spec h
  have hkernel := hkernel.mpr (hfirst.trans hlast)
  obtain ⟨-, -, -, hstart, hend⟩ := hwindow hkernel
  have hii := h.verified.staged.ii_pos
  rcases (hwritten item hitem).1 with hbefore | ⟨-, hafter⟩
  · rw [PhaseLayout.prologueCycles, if_pos hkernel, hstart, ← Nat.div_lt_iff_lt_mul hii] at hbefore
    omega
  · rw [hend, ← Nat.le_div_iff_mul_le hii] at hafter
    omega

/-- **The schedule of a plan is built**: no check stops it and no difference wraps. -/
theorem build_eq (h : Requested dfg target mapping request)
    (hm : Materializable dfg mapping request.tripCount) :
    build dfg mapping request = .ok plan.schedule := by
  have hs := plan.schedulable h hm
  have hsound := plan.sound h hm
  have hlisted := plan.listed h.pos
  obtain ⟨-, hshift, -⟩ := plan.origin_spec h
  obtain ⟨hcycles, hcyclesBudget⟩ := plan.cycles_le h
  have hmax : int64Max < 2 ^ 64 := by decide
  have hsize : int64Max ≤ maxVectorSize := by decide
  have hlt : ∀ name cycle, OccursAt dfg mapping request.tripCount plan.origin.1 name cycle →
      cycle < (plan.origin.2 : ℤ) := fun name cycle hoccurs ↦ plan.lt_cycles h (hshift ▸ hoccurs)
  obtain ⟨hphases, -⟩ := hsound.phases_eq (by omega)
  -- what is written out is planned for
  have hwritten := plan.length_written_le h hm
  have hlength : (written plan.layout plan.streams plan.shots).length = plan.shots.length
      + (plan.streams.map fun stream ↦
          plan.layout.before stream + plan.layout.after stream).sum := by
    simp [written, explicitItems, List.length_flatMap, Nat.add_comm]
  have hshots : plan.all.2.length = plan.shots.length :=
    (shiftAll_spec plan.shots_eq).length_eq
  have hplaced : placeStreams plan.layout request.budget.maxExplicitBoundaryEvents
      plan.shots.length plan.streams
        = .ok (plan.streams.flatMap (kernelItems plan.layout mapping.staged.modulo.ii),
          plan.streams.flatMap (explicitItems plan.layout mapping.staged.modulo.ii)) := by
    refine placeStreams_eq hs hsound (by omega) hlt h.budget_le (fun stream hstream ↦ ?_)
      (by omega)
    obtain ⟨key, -, hplaced⟩ := exists_of_forall₂ hlisted.streams.flip stream hstream
    exact ⟨hstream, key, hplaced⟩
  have honce : (plan.shots.mapM fun shot ↦ appendExplicit plan.layout shot.item.event shot.cycle)
      = .ok (plan.shots.map fun shot ↦ (shot.cycle, shot.item.event)) := by
    refine mapM_eq_map fun shot hshot ↦ ?_
    obtain ⟨name, -, hplaced⟩ := exists_of_forall₂ hlisted.shots.flip shot hshot
    have hcycle : shot.cycle < plan.origin.2 := by exact_mod_cast hlt _ _ hplaced.occursAt
    exact appendExplicit_eq hsound (by omega)
      (hsound.outside_shot h.verified.staged.ii_pos hshot hcycle) hcycle _
  refine bind_eq_ok.mpr ⟨plan.all, plan.events_eq, ?_⟩
  rw [if_neg (by omega)]
  refine bind_eq_ok.mpr ⟨_, plan.origin_eq, bind_eq_ok.mpr ⟨_, plan.streams_eq, bind_eq_ok.mpr
    ⟨_, plan.shots_eq, bind_eq_ok.mpr ⟨_, plan.window_eq, bind_eq_ok.mpr
    ⟨_, plan.layout_eq, ?_⟩⟩⟩⟩⟩
  rw [if_neg (by omega)]
  refine bind_eq_ok.mpr ⟨(), if_neg (by omega), bind_eq_ok.mpr ⟨(), if_neg (by omega),
    bind_eq_ok.mpr ⟨_, hplaced, bind_eq_ok.mpr ⟨_, honce, ?_⟩⟩⟩⟩
  rw [schedule, scheduleOf, written, hsound.ii_eq, hsound.totalCycles_eq]
  rfl

end Plan

/-- **When materialization succeeds.** For a request that should be met, the materializer returns a
schedule exactly when there is a node, no producer has to issue before cycle zero, no kernel period
ends after the last event, and every live-out has a latency. The kernel of the schedule then ends no
later than the schedule, so the length of the epilogue does not wrap. -/
theorem materialize_succeeds_iff (dfg : TargetDFG) (target : TargetModel)
    (mapping : RFAllocatedMapping) (request : ScheduleMaterializationRequest)
    (h : Requested dfg target mapping request) :
    (∃ schedule, materialize dfg target mapping request = .ok (.ok schedule) ∧
      schedule.kernelEnd ≤ schedule.totalLogicalCycles) ↔
        Materializable dfg mapping request.tripCount := by
  constructor
  · rintro ⟨schedule, hschedule, -⟩
    exact h.materializable hschedule
  · intro hm
    obtain ⟨plan⟩ := exists_plan_of_materializable h hm
    have hp := plan.proper h hm
    have hs := plan.schedulable h hm
    have hgraph : TargetDFGVerifier.verify dfg target = [] :=
      RFAllocationVerifier.graph_of_verify h.allocated
    have hverify := MaterializedScheduleVerifier.verify_of_proper hgraph h.allocated hm.nodes hs hp
    refine ⟨plan.schedule, ?_,
      (MaterializedScheduleVerifier.accepted_of_verify hverify).kernelEnd_le⟩
    have hpos := h.pos
    have hcount := hs.count_le
    have hii := h.verified.staged.ii_pos
    unfold materialize
    rw [if_neg hpos, if_neg (by omega), hgraph, h.allocated]
    simp only [List.isEmpty_nil, Bool.not_true, Bool.false_eq_true, if_false]
    rw [if_neg (by omega), buildVerified, plan.build_eq h hm]
    exact congrArg Except.ok (bind_eq_ok.mpr ⟨plan.schedule, rfl, by rw [hverify]⟩)

end ScheduleMaterializer

/-! ### Three iterations of the delay line -/

theorem delayLineSchedule_checked : MaterializedScheduleVerifier.Accepted delayLineDFG shippedTarget
    delayLineAllocated { tripCount := 3 } delayLineSchedule :=
  MaterializedScheduleVerifier.accepted_of_verify
    (ScheduleMaterializer.materialize_eq_ok delayLineSchedule_materialized).2

theorem delayLine_occursAt {name : EventName} {cycle : ℤ}
    (h : OccursAt delayLineDFG delayLineAllocated 3 2 name cycle) :
    (0 ≤ cycle ∧ cycle < 9) ∧
      some name ∈ delayLineSchedule.expansion.map fun x ↦ x.2.name? := by
  obtain ⟨x, hx, hname, rfl⟩ := (delayLineSchedule_checked.exact.mem_iff name cycle).mpr h
  have hlt : ∀ x ∈ delayLineSchedule.expansion, x.1 < 9 := by decide +kernel
  exact ⟨⟨Int.natCast_nonneg _, by exact_mod_cast hlt x hx⟩, List.mem_map.mpr ⟨x, hx, hname⟩⟩

/-- The injection before the first iteration is the first event. -/
theorem originShift_delayLine : originShift delayLineDFG delayLineAllocated 3 = 2 := by
  refine le_antisymm (Nat.sInf_le fun name cycle hoccurs ↦ (delayLine_occursAt hoccurs).1.1) ?_
  have hfirst : ∃ x ∈ delayLineSchedule.expansion,
      x.2.name? = some (.boundaryValueInject 0 0) ∧ x.1 = 0 := by decide +kernel
  obtain ⟨x, hx, hname, hzero⟩ := hfirst
  have hoccurs := (delayLineSchedule_checked.exact.mem_iff _ x.1).mp ⟨x, hx, hname, rfl⟩
  have hnonneg := originShift_spec
    (hoccurs.shift (originShift delayLineDFG delayLineAllocated 3))
  have hshift : delayLineSchedule.timeOriginShift = 2 := rfl
  omega

theorem delayLine_requested :
    Requested delayLineDFG shippedTarget delayLineAllocated { tripCount := 3 } := by
  have hdistance : ∀ edge ∈ delayLineDFG.edges, edge.distance ≤ 2 := by decide
  constructor
  · exact (accepts_iff _).mp delayLineAllocated_accepted
  · decide
  · -- every stream has an iteration zero
    intro key time first last hstream
    have hfirst : first ≤ 0 ∧ -2 ≤ first := by
      rcases hstream with _ | ⟨hedge, -, -, -, -, -⟩ | ⟨-, hedge, -⟩ | ⟨-, hedge, -⟩
      · omega
      all_goals
        have hle := hdistance _ hedge
        omega
    have hlast := hstream.last_eq
    dsimp only at hlast
    have hoccurs := delayLine_occursAt (OccursAt.periodic hstream hfirst.1 (by omega))
    have hmax : (9 : ℤ) ≤ int64Max := by decide
    omega
  · intro name cycle hoccurs
    rw [originShift_delayLine] at hoccurs
    have hmax : (9 : ℤ) ≤ int64Max := by decide
    exact (delayLine_occursAt hoccurs).1.2.trans_le hmax
  · decide
  · intro name cycle hoccurs
    rw [originShift_delayLine] at hoccurs
    have hlt := (delayLine_occursAt hoccurs).1.2
    dsimp only
    omega
  · intro names hnodup hnames
    have hsubset : names.map some ⊆ delayLineSchedule.expansion.map fun x ↦ x.2.name? := by
      intro entry hentry
      obtain ⟨name, hname, rfl⟩ := List.mem_map.mp hentry
      obtain ⟨cycle, hoccurs, -⟩ := hnames name hname
      rw [originShift_delayLine] at hoccurs
      exact (delayLine_occursAt hoccurs).2
    have hlength :=
      (List.subperm_of_subset (hnodup.map (Option.some_injective _)) hsubset).length_le
    have hbound : delayLineSchedule.expansion.length ≤ 1000000 := by decide +kernel
    rw [List.length_map, List.length_map] at hlength
    exact hlength.trans hbound
  · decide

/-- The delay line's three iterations can be scheduled. -/
theorem delayLine_materializable :
    Requested delayLineDFG shippedTarget delayLineAllocated { tripCount := 3 } ∧
      Materializable delayLineDFG delayLineAllocated 3 :=
  ⟨delayLine_requested,
    (ScheduleMaterializer.materialize_succeeds_iff _ shippedTarget _ { tripCount := 3 }
      delayLine_requested).mp ⟨delayLineSchedule, delayLineSchedule_materialized, by decide⟩⟩

/-! ### A node on its own

With an interval of two, nothing happens in the last cycle of the last period, in which the kernel
ends. -/

def lonePassDFG : TargetDFG where
  name := "lone_pass"
  targetName := "cgra_v3_shared4p"
  nodes := [passNode 0]
  edges := []
  externalValues := []
  constants := [⟨0, ValueType.integer 32, 7⟩]
  liveOuts := []
  operandBindings := [⟨0, 0, .constantRef 0⟩]
  incomingEdges := [[]]
  outgoingEdges := [[]]

def lonePassAllocated : RFAllocatedMapping where
  staged :=
    { modulo :=
        { targetName := "cgra_v3_shared4p"
          ii := 2
          placements := [⟨0, ⟨0, 0⟩, 0⟩]
          dependences := [] }
      stages := [⟨0, 0⟩] }
  storageRequirements := ⟨2, []⟩
  allocations := []

theorem lonePass_stream {key : PeriodicKey} {time : ℕ} {first last : ℤ}
    (h : Stream lonePassDFG lonePassAllocated 3 key time first last) :
    key = .nodeIssue 0 ∧ time = 0 ∧ first = 0 ∧ last = 2 := by
  rcases h with ⟨hnode, htime⟩ | ⟨hedge, -, -, -, -, -⟩ | ⟨-, hedge, -⟩ | ⟨-, hedge, -⟩
  · obtain rfl := List.mem_singleton.mp hnode
    exact ⟨rfl, (Except.ok.inj htime).symm, rfl, rfl⟩
  all_goals exact absurd hedge List.not_mem_nil

theorem lonePass_occursAt {shift : ℕ} {name : EventName} {cycle : ℤ}
    (h : OccursAt lonePassDFG lonePassAllocated 3 shift name cycle) :
    name ∈ [EventName.periodic (.nodeIssue 0) 0, .periodic (.nodeIssue 0) 1,
        .periodic (.nodeIssue 0) 2] ∧ (shift : ℤ) ≤ cycle ∧ cycle ≤ shift + 4 := by
  rcases h with @⟨key, time, first, last, iteration, hstream, hfirst, hlast⟩ |
    ⟨hedge, -, -, -, -⟩ | ⟨hliveOut, -, -, -⟩
  · obtain ⟨rfl, rfl, rfl, rfl⟩ := lonePass_stream hstream
    have hii : (lonePassAllocated.staged.modulo.ii : ℤ) = 2 := rfl
    have hiteration : iteration = 0 ∨ iteration = 1 ∨ iteration = 2 := by omega
    refine ⟨by simpa using hiteration, ?_, ?_⟩
    · rw [hii]
      omega
    · rw [hii]
      omega
  · exact absurd hedge List.not_mem_nil
  · exact absurd hliveOut List.not_mem_nil

theorem lonePass_requested :
    Requested lonePassDFG shippedTarget lonePassAllocated { tripCount := 3 } := by
  have hshift : originShift lonePassDFG lonePassAllocated 3 = 0 :=
    Nat.le_zero.mp (Nat.sInf_le fun name cycle hoccurs ↦ (lonePass_occursAt hoccurs).2.1)
  constructor
  · decide +kernel
  · decide
  · intro key time first last hstream
    obtain ⟨-, rfl, -⟩ := lonePass_stream hstream
    decide
  · intro name cycle hoccurs
    rw [hshift] at hoccurs
    have hmax : (4 : ℤ) < int64Max := by decide
    exact ((lonePass_occursAt hoccurs).2.2.trans (by simp)).trans_lt hmax
  · exact fun edge hedge ↦ absurd hedge List.not_mem_nil
  · intro name cycle hoccurs
    rw [hshift] at hoccurs
    have hle := (lonePass_occursAt hoccurs).2.2
    dsimp only
    omega
  · intro names hnodup hnames
    have hlength := (List.subperm_of_subset hnodup fun name hname ↦ by
      obtain ⟨cycle, hoccurs, -⟩ := hnames name hname
      exact (lonePass_occursAt hoccurs).1).length_le
    exact hlength.trans (by decide)
  · decide

/-- Three iterations of a node on its own have five cycles and a kernel of six, and are refused for
an epilogue of minus one cycle. -/
theorem lonePass_refused :
    Requested lonePassDFG shippedTarget lonePassAllocated { tripCount := 3 } ∧
      ScheduleMaterializer.materialize lonePassDFG shippedTarget lonePassAllocated
          { tripCount := 3 }
        = .ok (.error (ScheduleMaterializer.budgetExceeded
            "explicit prologue or epilogue cycle budget exceeded")) ∧
      (ScheduleMaterializer.layoutOf 2 5 true (0, 2)).map
        ScheduleMaterializer.PhaseLayout.epilogueCycles = .ok (2 ^ 64 - 1) :=
  ⟨lonePass_requested, by decide +kernel, by decide⟩

end PredicatedMesh
