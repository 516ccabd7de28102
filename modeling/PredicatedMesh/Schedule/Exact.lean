import PredicatedMesh.Library.Tiling
import PredicatedMesh.RegisterAllocation.Soundness
import PredicatedMesh.Schedule.Materializer

/-!
# A verified schedule has exactly the events of the loop

The verifier sees a kernel event once and records the iterations of all its repetitions. Unrolling
the kernel turns the records back into events: the names of the expansion are, up to order, the
names the records stand for (`names_perm`). Two records never stand for the same event, because the
ranges of a stream tile its iterations and boundary events are recorded once; and every event of the
loop has a record, because the verifier asks for it at the end.

The cycle of an event is a function of its name. A kernel event is at the right cycle in its first
repetition, and each further repetition is one interval and one iteration later.
-/

namespace PredicatedMesh

open Scan Tiling

/-! ## Unrolling -/

/-- An event of the kernel body in repetition `k`. -/
def later (ii k : ℕ) (item : ℕ × MaterializedEvent) : ℕ × MaterializedEvent :=
  (item.1 + k * ii, item.2.advance k)

theorem timed_append (base : ℕ) (l m : List CycleBundle) :
    timed base (l ++ m) = timed base l ++ timed (base + l.length) m := by
  rw [timed, List.zipIdx_append, List.flatMap_append]
  rfl

theorem timed_cons (base : ℕ) (bundle : CycleBundle) (l : List CycleBundle) :
    timed base (bundle :: l) = bundle.events.map (fun event ↦ (base, event))
      ++ timed (base + 1) l := by
  rw [timed, List.zipIdx_cons, List.flatMap_cons]
  rfl

/-- One repetition of the kernel. -/
theorem timed_advance (base ii k : ℕ) (body : List CycleBundle) :
    timed (base + k * ii) (body.map (CycleBundle.advance k))
      = (timed base body).map (later ii k) := by
  induction body generalizing base with
  | nil => rfl
  | cons bundle body ih =>
    rw [List.map_cons, timed_cons, timed_cons, List.map_append, ← ih,
      show base + k * ii + 1 = base + 1 + k * ii from by omega]
    simp [CycleBundle.advance, later]

theorem timed_repeat {ii : ℕ} {body : List CycleBundle} (hbody : body.length = ii) (base r : ℕ) :
    timed base ((List.range r).flatMap fun k ↦ body.map (CycleBundle.advance k))
      = (List.range r).flatMap fun k ↦ (timed base body).map (later ii k) := by
  induction r with
  | zero => rfl
  | succ r ih =>
    have hlength : ((List.range r).flatMap fun k ↦ body.map (CycleBundle.advance k)).length
        = r * ii := by
      simp [List.length_flatMap, hbody]
    rw [List.range_succ, List.flatMap_append, List.flatMap_append, timed_append, ih, hlength,
      List.flatMap_singleton, List.flatMap_singleton, timed_advance]

namespace MaterializedSchedule

variable (schedule : MaterializedSchedule)

/-- The first cycle of the epilogue. -/
def kernelEnd : ℕ :=
  schedule.prologue.cycles.length + schedule.kernel.repeatCount * schedule.ii

/-- The events written out, outside the kernel. -/
def explicitEvents : List (ℕ × MaterializedEvent) :=
  timed 0 schedule.prologue.cycles ++ timed schedule.kernelEnd schedule.epilogue.cycles

/-- The events of the kernel body in its first repetition. -/
def kernelEvents : List (ℕ × MaterializedEvent) :=
  timed schedule.prologue.cycles.length schedule.kernel.body

/-- The kernel has one cycle for each of the interval, unless it is never run. -/
def KernelShape : Prop :=
  (schedule.kernel.repeatCount = 0 → schedule.kernel.body = []) ∧
    (schedule.kernel.repeatCount ≠ 0 → schedule.kernel.body.length = schedule.ii)

variable {schedule}

theorem expansion_eq (h : schedule.KernelShape) : schedule.expansion
    = timed 0 schedule.prologue.cycles
      ++ ((List.range schedule.kernel.repeatCount).flatMap fun k ↦
        schedule.kernelEvents.map (later schedule.ii k))
      ++ timed schedule.kernelEnd schedule.epilogue.cycles := by
  by_cases hr : schedule.kernel.repeatCount = 0
  · simp [expansion, cycles, kernelEnd, hr, timed_append]
  · rw [expansion, cycles, timed_append, timed_append, timed_repeat (h.2 hr), Nat.zero_add,
      List.length_append, kernelEvents]
    congr 2
    simp [kernelEnd, List.length_flatMap, h.2 hr]

theorem mem_expansion_iff (h : schedule.KernelShape) {x : ℕ × MaterializedEvent} :
    x ∈ schedule.expansion ↔ x ∈ schedule.explicitEvents ∨
      ∃ k < schedule.kernel.repeatCount, ∃ item ∈ schedule.kernelEvents,
        later schedule.ii k item = x := by
  rw [expansion_eq h, explicitEvents, List.mem_append, List.mem_append, List.mem_append,
    List.mem_flatMap]
  simp only [List.mem_range, List.mem_map]
  exact or_right_comm

/-- The order of the events does not matter, and the kernel's may be taken event by event. -/
theorem expansion_perm (h : schedule.KernelShape) : schedule.expansion.Perm
    (schedule.explicitEvents ++ schedule.kernelEvents.flatMap fun x ↦
      (List.range schedule.kernel.repeatCount).map fun k ↦ later schedule.ii k x) := by
  have hswap : ((List.range schedule.kernel.repeatCount).flatMap fun k ↦
        schedule.kernelEvents.map fun x ↦ later schedule.ii k x).Perm
      (schedule.kernelEvents.flatMap fun x ↦
        (List.range schedule.kernel.repeatCount).map fun k ↦ later schedule.ii k x) := by
    rw [← Multiset.coe_eq_coe]
    simpa using Multiset.bind_map_comm (List.range schedule.kernel.repeatCount : Multiset ℕ)
      (schedule.kernelEvents : Multiset (ℕ × MaterializedEvent))
      (f := fun k x ↦ later schedule.ii k x)
  rw [expansion_eq h, explicitEvents]
  refine ((hswap.append_left _).append_right _).trans ?_
  rw [List.append_assoc, List.append_assoc]
  exact List.perm_append_comm.append_left _

theorem names_perm_events (h : schedule.KernelShape) :
    (schedule.expansion.map fun x ↦ x.2.name?).Perm
      ((schedule.explicitEvents.map fun x ↦ x.2.name?)
        ++ schedule.kernelEvents.flatMap fun x ↦
          (List.range schedule.kernel.repeatCount).map fun k ↦ (x.2.advance k).name?) := by
  have hnames := (expansion_perm h).map fun x ↦ x.2.name?
  rw [List.map_append, List.map_flatMap] at hnames
  simpa only [List.map_map, Function.comp_def, later] using hnames

end MaterializedSchedule

/-! ## What the check of one event says -/

section Events

variable (dfg : TargetDFG) (mapping : RFAllocatedMapping) (tripCount : ℕ)

/-- The cycle an event with this name has. For an iteration of a stream this is `OccursAt` without
the bounds on the iteration. -/
def EventName.HappensAt (shift : ℕ) : EventName → ℤ → Prop
  | .periodic key iteration, cycle => ∃ time first last,
      Stream dfg mapping tripCount key time first last ∧
        cycle = shift + time + iteration * mapping.staged.modulo.ii
  | name, cycle => OccursAt dfg mapping tripCount shift name cycle

/-- The names a record stands for. -/
def EventRecord.names : EventRecord → List EventName
  | .range key first last =>
    (List.range (last + 1 - first).toNat).map fun k : ℕ ↦ .periodic key (first + k)
  | .boundary edge offset => [.boundaryValueInject edge offset]
  | .liveOut id => [.liveOutBoundaryUse id (tripCount - 1)]

end Events

namespace MaterializedScheduleVerifier

variable {dfg : TargetDFG} {target : TargetModel} {mapping : RFAllocatedMapping}
variable {request : ScheduleMaterializationRequest} {schedule : MaterializedSchedule}

theorem expectedCycle_eq_some {node : TargetNodeId} {iteration : ℤ} {cycle : ℕ}
    (h : expectedCycle mapping schedule node iteration = .ok (some cycle)) :
    ∃ time, mapping.staged.logicalIssueTime node = .ok time ∧
      (cycle : ℤ) = schedule.timeOriginShift + time + iteration * schedule.ii := by
  rw [expectedCycle] at h
  split at h
  · cases h
  · rename_i time htime
    simp only [Except.ok.injEq, Option.bind_eq_bind, Option.bind_eq_some_iff] at h
    obtain ⟨base, hbase, shift, hshift, delta, hdelta, result, hresult, result', hresult',
      hcycle⟩ :=
      h
    rw [toSigned_eq_some hbase] at hresult
    rw [toSigned_eq_some hshift] at hresult'
    rw [mulSigned_eq_some hdelta] at hresult
    have hsum := addSigned_eq_some hresult'
    rw [addSigned_eq_some hresult] at hsum
    split at hcycle
    · cases hcycle
    · refine ⟨time, htime, ?_⟩
      rw [← Option.some.inj hcycle]
      omega

/-- A node issue is an iteration of its node's stream. -/
theorem verifyNodeIssue_clean {event : MaterializedEvent} {cycle : ℕ} {recorded : Bool}
    (hii : schedule.ii = mapping.staged.modulo.ii)
    (h : verifyNodeIssue dfg mapping request schedule event cycle = .ok (recorded, [])) :
    recorded = true ∧ ∃ node ∈ dfg.nodes, event.node = some node.id ∧ ∃ time,
      mapping.staged.logicalIssueTime node.id = .ok time ∧
      (cycle : ℤ) = schedule.timeOriginShift + time
        + event.logicalIteration * mapping.staged.modulo.ii := by
  unfold verifyNodeIssue at h
  split at h
  · simp at h
  · rename_i id hid
    split at h
    · simp at h
    · rename_i hvalid
      split at h
      · cases h
      · rename_i expected hexpected
        simp only [Except.ok.injEq, Prod.mk.injEq, require_eq_nil_iff, beq_iff_eq] at h
        obtain ⟨hrecorded, rfl⟩ := h
        obtain ⟨time, htime, hcycle⟩ := expectedCycle_eq_some hexpected
        have hcontains : dfg.containsNode id = true := by
          cases hc : dfg.containsNode id
          · exact absurd (Or.inl hc) hvalid
          · rfl
        obtain ⟨node, hnode⟩ := Option.isSome_iff_exists.mp hcontains
        obtain rfl := TargetDFG.findNode_id hnode
        exact ⟨hrecorded.symm, node, TargetDFG.mem_of_findNode hnode, hid, time, htime,
          hii ▸ hcycle⟩

/-- What a checked link launch is: an iteration of a hop of the route of a value edge. -/
structure Launch (dfg : TargetDFG) (mapping : RFAllocatedMapping)
    (request : ScheduleMaterializationRequest) (schedule : MaterializedSchedule)
    (event : MaterializedEvent) (cycle : ℕ) (edge : TargetEdge) (dependence : MappedDependence)
    (plan : TransportPlan) (action : ℕ) (link : LinkStep) (time : ℕ) : Prop where
  mem : edge ∈ dfg.edges
  kind : edge.kind ≠ .memory
  edge_eq : event.edge = some edge.id
  action_eq : event.transportActionIndex = some action
  dependence_eq : mapping.staged.modulo.dependence edge.id = .ok dependence
  transport_eq : dependence.transport = some plan
  link_eq : plan.actions[action]? = some (.linkStep link)
  time_eq : mapping.staged.logicalIssueTime edge.src = .ok time
  cycle_eq : (cycle : ℤ) = schedule.timeOriginShift + (time + link.elapsedFromProducerIssue : ℕ)
    + event.logicalIteration * mapping.staged.modulo.ii
  first_le : -(edge.distance : ℤ) ≤ event.logicalIteration
  le_last : event.logicalIteration ≤ (request.tripCount : ℤ) - 1 - edge.distance

theorem verifyLinkLaunch_clean {event : MaterializedEvent} {cycle : ℕ} {recorded : Bool}
    (hii : schedule.ii = mapping.staged.modulo.ii)
    (h : verifyLinkLaunch dfg mapping request schedule event cycle = .ok (recorded, [])) :
    recorded = true ∧ ∃ edge dependence plan action link time,
      Launch dfg mapping request schedule event cycle edge dependence plan action link time := by
  unfold verifyLinkLaunch at h
  split at h
  · simp at h
  split at h
  · rename_i edge action hedge haction
    split at h
    · simp at h
    rename_i hkind
    split at h
    · cases h
    rename_i dependence hdependence
    split at h
    · rename_i link hlink
      obtain ⟨plan, hplan, hlink⟩ := Option.bind_eq_some_iff.mp hlink
      obtain ⟨id, hid, hfound⟩ := Option.bind_eq_some_iff.mp hedge
      obtain rfl := TargetDFG.findEdge_id hfound
      have hmem := TargetDFG.mem_of_findEdge hfound
      unfold verifyLink at h
      split at h
      · cases h
      · rename_i expected hexpected
        simp only [Except.ok.injEq, Prod.mk.injEq, List.append_eq_nil_iff, require_eq_nil_iff,
          Bool.and_eq_true, decide_eq_true_eq, beq_iff_eq] at h
        obtain ⟨hrecorded, ⟨-, rfl⟩, hfirst, hlast⟩ := h
        rw [expectedCycleForEdge] at hexpected
        split at hexpected
        · cases hexpected
        · rename_i issue hissue
          simp only [Except.ok.injEq, Option.bind_eq_bind, Option.bind_eq_some_iff] at hexpected
          obtain ⟨issueCycle, rfl, value, hvalue, hcycle⟩ := hexpected
          obtain ⟨time, htime, hissueCycle⟩ := expectedCycle_eq_some hissue
          have hsum := addSigned_eq_some hvalue
          split at hcycle
          · cases hcycle
          · refine ⟨hrecorded.symm, edge, dependence, plan, action, link, time, hmem, hkind, hid,
              haction, hdependence, hplan, hlink, htime, ?_, hfirst, hlast⟩
            rw [← Option.some.inj hcycle, ← hii]
            push_cast
            omega
    · simp at h
  · simp at h

/-- What a checked register access is: an iteration of the writes or of the reads of a segment, at
the register it is allocated. -/
structure Access (dfg : TargetDFG) (mapping : RFAllocatedMapping)
    (request : ScheduleMaterializationRequest) (schedule : MaterializedSchedule)
    (event : MaterializedEvent) (cycle : ℕ) (segment : StorageSegment) (edge : TargetEdge)
    (allocation : StorageAllocation) : Prop where
  found : mapping.storageRequirements.segments.find? (fun s ↦ s.id == segment.id) = some segment
  mem : edge ∈ dfg.edges
  edge_id : edge.id = segment.edge
  segment_eq : event.segment = some segment.id
  edge_eq : event.edge = some segment.edge
  allocation_eq : mapping.allocationFor segment.id = some allocation
  register_eq : event.physicalRegister = some allocation.reg
  tile_eq : event.tile = some segment.tile
  cycle_eq : (cycle : ℤ) = schedule.timeOriginShift
    + (if event.kind = .rfWrite then segment.writeTime else segment.readTime : ℕ)
    + event.logicalIteration * mapping.staged.modulo.ii
  first_le : -(edge.distance : ℤ) ≤ event.logicalIteration

theorem Access.segment_mem {event : MaterializedEvent} {cycle : ℕ} {segment : StorageSegment}
    {edge : TargetEdge} {allocation : StorageAllocation}
    (h : Access dfg mapping request schedule event cycle segment edge allocation) :
    segment ∈ mapping.storageRequirements.segments := List.mem_of_find?_eq_some h.found

theorem verifyRFAccess_clean {event : MaterializedEvent} {cycle : ℕ} {recorded : Bool}
    (hii : schedule.ii = mapping.staged.modulo.ii)
    (h : verifyRFAccess dfg mapping request schedule event cycle = (recorded, [])) :
    recorded = true ∧ ∃ segment edge allocation,
      Access dfg mapping request schedule event cycle segment edge allocation := by
  unfold verifyRFAccess at h
  split at h
  · simp at h
  split at h
  · simp at h
  rename_i id hid
  split at h
  · simp at h
  rename_i segment hsegment
  obtain rfl : segment.id = id := by simpa using List.find?_some hsegment
  unfold verifySegmentAccess at h
  simp only at h
  split at h
  · simp at h
  split at h
  · simp at h
  rename_i edge hedge
  simp only [Prod.mk.injEq, List.append_eq_nil_iff, require_eq_nil_iff, Bool.and_eq_true,
    beq_iff_eq] at h
  obtain ⟨hrecorded, ⟨⟨hevent, -, htile⟩, hsome, hregister⟩, htiming⟩ := h
  obtain ⟨register, hregister'⟩ := Option.isSome_iff_exists.mp hsome
  rw [hregister', eq_comm, Option.map_eq_some_iff] at hregister
  obtain ⟨allocation, hallocation, rfl⟩ := hregister
  unfold verifyAccessTime at hrecorded htiming
  simp only at hrecorded htiming
  split at htiming
  · rename_i base shift hbase hshift
    simp only [hbase, hshift] at hrecorded
    simp only [List.append_eq_nil_iff, require_eq_nil_iff, Bool.and_eq_true, decide_eq_true_eq,
      beq_iff_eq] at htiming
    obtain ⟨⟨hfirst, -⟩, hexpected⟩ := htiming
    simp only [expectedAccess, Option.bind_eq_bind, Option.bind_eq_some_iff] at hexpected
    obtain ⟨delta, hdelta, sum, hsum, sum', hsum', hcycle⟩ := hexpected
    rw [toSigned_eq_some hbase, mulSigned_eq_some hdelta] at hsum
    rw [toSigned_eq_some hshift] at hsum'
    have htotal := addSigned_eq_some hsum'
    rw [addSigned_eq_some hsum] at htotal
    split at hcycle
    · cases hcycle
    · refine ⟨hrecorded.symm, segment, edge, allocation, hsegment, TargetDFG.mem_of_findEdge hedge,
        TargetDFG.findEdge_id hedge, hid, hevent, hallocation, hregister', htile, ?_, hfirst⟩
      rw [← Option.some.inj hcycle, ← hii]
      omega
  · simp at htiming

theorem verifyBoundaryInject_clean {seen : List EventRecord} {event : MaterializedEvent} {cycle : ℕ}
    {recorded : Bool} (hii : schedule.ii = mapping.staged.modulo.ii)
    (h : verifyBoundaryInject dfg mapping request schedule seen event cycle = .ok (recorded, [])) :
    recorded = true ∧ ∃ edge offset, event.edge = some edge ∧
      event.consumerIterationOffset = some offset ∧ EventRecord.boundary edge offset ∉ seen ∧
      OccursAt dfg mapping request.tripCount schedule.timeOriginShift
        (.boundaryValueInject edge offset) cycle ∧
      ∃ e ∈ dfg.edges, e.id = edge ∧ ∃ time, mapping.staged.logicalIssueTime e.src = .ok time ∧
        (0 : ℤ) ≤ schedule.timeOriginShift + time
          + ((offset : ℤ) - e.distance) * mapping.staged.modulo.ii := by
  unfold verifyBoundaryInject at h
  split at h
  · rename_i edge offset value hedge hoffset hvalue
    obtain ⟨id, hid, hfound⟩ := Option.bind_eq_some_iff.mp hedge
    obtain rfl := TargetDFG.findEdge_id hfound
    split at h
    · simp at h
    rename_i hkind
    split at h
    · simp at h
    rename_i hrange
    rw [not_or, not_le, not_not] at hrange
    split at h
    · simp at h
    unfold verifyInject at h
    split at h
    · cases h
    · cases h
    · cases h
    · rename_i placement source expected hplacement hsource hexpected
      simp only [Except.ok.injEq, Prod.mk.injEq, List.append_eq_nil_iff, require_eq_nil_iff,
        Option.any_eq_true, Bool.and_eq_true, beq_iff_eq, Bool.not_eq_true',
        List.contains_eq_mem, decide_eq_false_iff_not] at h
      obtain ⟨hrecorded, ⟨-, issue, rfl, -, rfl⟩, hnew⟩ := h
      obtain ⟨time, htime, hissue⟩ := expectedCycle_eq_some hexpected
      rw [hrange.2] at hissue
      refine ⟨hrecorded.symm, edge.id, offset, hid, hoffset, hnew, ?_, edge,
        TargetDFG.mem_of_findEdge hfound, rfl, time, htime, ?_⟩
      · have hoccurs : OccursAt dfg mapping request.tripCount schedule.timeOriginShift
            (.boundaryValueInject edge.id offset) _ := OccursAt.boundaryValueInject
          (TargetDFG.mem_of_findEdge hfound) hkind hrange.1 hsource htime
        rw [← hii, ← hissue] at hoccurs
        exact_mod_cast hoccurs
      · rw [← hii, ← hissue]
        exact Int.natCast_nonneg _
  · simp at h

theorem verifyLiveOutUse_clean {seen : List EventRecord} {event : MaterializedEvent} {cycle : ℕ}
    {recorded : Bool} (hii : schedule.ii = mapping.staged.modulo.ii) (hpos : request.tripCount ≠ 0)
    (h : verifyLiveOutUse dfg mapping request schedule seen event cycle = .ok (recorded, [])) :
    recorded = true ∧ ∃ id, event.liveOut = some id ∧
      event.logicalIteration = (request.tripCount : ℤ) - 1 ∧ EventRecord.liveOut id ∉ seen ∧
      OccursAt dfg mapping request.tripCount schedule.timeOriginShift
        (.liveOutBoundaryUse id (request.tripCount - 1)) cycle := by
  have hcast : ((request.tripCount - 1 : ℕ) : ℤ) = (request.tripCount : ℤ) - 1 := by omega
  unfold verifyLiveOutUse at h
  split at h
  · rename_i liveOut eventNode hliveOut hnode
    obtain ⟨id, hid, hfound⟩ := Option.bind_eq_some_iff.mp hliveOut
    obtain rfl : liveOut.id = id := by simpa using List.find?_some hfound
    split at h
    · cases h
    rename_i node hsource
    split at h
    · cases h
    rename_i expected hexpected
    simp only [Except.ok.injEq, Prod.mk.injEq, List.append_eq_nil_iff, require_eq_nil_iff,
      Option.any_eq_true, Bool.and_eq_true, beq_iff_eq, Bool.not_eq_true', List.contains_eq_mem,
      decide_eq_false_iff_not] at h
    obtain ⟨hrecorded, ⟨⟨⟨use, rfl, -, rfl⟩, -⟩, hiteration⟩, hnew⟩ := h
    unfold expectedUse at hexpected
    split at hexpected
    · cases hexpected
    rename_i latency hlatency
    split at hexpected
    · cases hexpected
    rename_i issue hissue
    rw [Except.ok.injEq, Option.map_eq_some_iff] at hexpected
    obtain ⟨issueCycle, rfl, rfl⟩ := hexpected
    obtain ⟨time, htime, hissueCycle⟩ := expectedCycle_eq_some hissue
    refine ⟨hrecorded.symm, liveOut.id, hid, hiteration.trans hcast, hnew, ?_⟩
    have hoccurs : OccursAt dfg mapping request.tripCount schedule.timeOriginShift
        (.liveOutBoundaryUse liveOut.id (request.tripCount - 1)) _ := OccursAt.liveOutBoundaryUse
      (List.mem_of_find?_eq_some hfound) hsource hlatency htime
    rw [hcast] at hissueCycle
    rw [← hii, ← hissueCycle] at hoccurs
    exact_mod_cast hoccurs
  · simp at h

/-! ## What the scan says -/

/-- An event and its repetitions agree with the record made for them. -/
structure Faithful (dfg : TargetDFG) (mapping : RFAllocatedMapping) (tripCount : ℕ)
    (schedule : MaterializedSchedule) (item : ℕ × MaterializedEvent) (repetitions : ℕ)
    (entry : EventRecord) : Prop where
  names : (List.range repetitions).map (fun k ↦ (item.2.advance k).name?)
    = (entry.names tripCount).map some
  happens : ∀ k < repetitions, ∀ name, (item.2.advance k).name? = some name →
    name.HappensAt dfg mapping tripCount schedule.timeOriginShift (item.1 + k * schedule.ii : ℕ)

/-- A checked event of a stream is faithful to a record of as many iterations as it is repeated. -/
theorem faithful_of_stream {item : ℕ × MaterializedEvent} {key : PeriodicKey} {time : ℕ}
    {first last : ℤ} (hii : schedule.ii = mapping.staged.modulo.ii)
    (hname : ∀ k : ℕ, (item.2.advance k).name?
      = some (.periodic key (item.2.logicalIteration + k)))
    (hstream : Stream dfg mapping request.tripCount key time first last)
    (hcycle : (item.1 : ℤ) = schedule.timeOriginShift + time
      + item.2.logicalIteration * mapping.staged.modulo.ii) {repetitions : ℕ} {finish : ℤ}
    (hfinish : finish + 1 = item.2.logicalIteration + repetitions) :
    Faithful dfg mapping request.tripCount schedule item repetitions
      (.range key item.2.logicalIteration finish) := by
  constructor
  · have hcount : (finish + 1 - item.2.logicalIteration).toNat = repetitions := by omega
    simp [EventRecord.names, hcount, hname]
  · intro k hk name hk'
    rw [hname, Option.some.injEq] at hk'
    subst hk'
    refine ⟨time, first, last, hstream, ?_⟩
    rw [← hii] at hcycle ⊢
    push_cast
    rw [hcycle]
    ring

/-- **A checked event of a stream**, whatever its kind. -/
theorem verifyPeriodic_clean {event : MaterializedEvent} {cycle : ℕ} {recorded : Bool}
    (hii : schedule.ii = mapping.staged.modulo.ii)
    (h : verifyPeriodic dfg mapping request schedule event cycle = .ok (recorded, [])) :
    recorded = true ∧ ∀ (repetitions : ℕ) (finish : ℤ),
      finish + 1 = event.logicalIteration + repetitions →
      Faithful dfg mapping request.tripCount schedule (cycle, event) repetitions
        (recordOf event finish) := by
  unfold verifyPeriodic at h
  cases hkind : event.kind with
  | nodeIssue =>
    simp only [hkind] at h
    obtain ⟨hrecorded, node, hmem, hnode, time, htime, hcycle⟩ := verifyNodeIssue_clean hii h
    refine ⟨hrecorded, fun repetitions finish hfinish ↦ ?_⟩
    rw [recordOf, hkind, hnode]
    refine faithful_of_stream hii (fun k ↦ ?_) (Stream.nodeIssue hmem htime) hcycle hfinish
    simp [MaterializedEvent.name?, MaterializedEvent.advance, hkind, hnode]
  | linkLaunch =>
    simp only [hkind] at h
    obtain ⟨hrecorded, edge, dependence, plan, action, link, time, hlaunch⟩ :=
      verifyLinkLaunch_clean hii h
    have hstream : Stream dfg mapping request.tripCount (.linkLaunch edge.id action) _ _ _ :=
      Stream.linkLaunch hlaunch.mem hlaunch.kind hlaunch.dependence_eq hlaunch.transport_eq
        hlaunch.link_eq hlaunch.time_eq
    refine ⟨hrecorded, fun repetitions finish hfinish ↦ ?_⟩
    rw [recordOf, hkind, hlaunch.edge_eq, hlaunch.action_eq]
    refine faithful_of_stream hii (fun k ↦ ?_) hstream hlaunch.cycle_eq hfinish
    simp [MaterializedEvent.name?, MaterializedEvent.advance, hkind, hlaunch.edge_eq,
      hlaunch.action_eq]
  | rfRead =>
    simp only [hkind, Except.ok.injEq] at h
    obtain ⟨hrecorded, segment, edge, allocation, haccess⟩ := verifyRFAccess_clean hii h
    have hcycle := haccess.cycle_eq
    rw [hkind, if_neg (by decide)] at hcycle
    refine ⟨hrecorded, fun repetitions finish hfinish ↦ ?_⟩
    rw [recordOf, hkind, haccess.segment_eq]
    refine faithful_of_stream hii (fun k ↦ ?_)
      (Stream.rfRead haccess.segment_mem haccess.mem haccess.edge_id) hcycle hfinish
    simp [MaterializedEvent.name?, MaterializedEvent.advance, hkind, haccess.segment_eq]
  | rfWrite =>
    simp only [hkind, Except.ok.injEq] at h
    obtain ⟨hrecorded, segment, edge, allocation, haccess⟩ := verifyRFAccess_clean hii h
    have hcycle := haccess.cycle_eq
    rw [hkind, if_pos rfl] at hcycle
    refine ⟨hrecorded, fun repetitions finish hfinish ↦ ?_⟩
    rw [recordOf, hkind, haccess.segment_eq]
    refine faithful_of_stream hii (fun k ↦ ?_)
      (Stream.rfWrite haccess.segment_mem haccess.mem haccess.edge_id) hcycle hfinish
    simp [MaterializedEvent.name?, MaterializedEvent.advance, hkind, haccess.segment_eq]
  | boundaryValueInject => simp [hkind] at h
  | liveOutBoundaryUse => simp [hkind] at h

/-- Only ranges are recorded twice. -/
def OnceOnly (seen : List EventRecord) : Prop :=
  seen.Pairwise fun a b ↦ a = b → ∃ key first last, a = .range key first last

theorem OnceOnly.append {seen : List EventRecord} {entry : EventRecord} (h : OnceOnly seen)
    (hnew : entry ∈ seen → ∃ key first last, entry = .range key first last) :
    OnceOnly (seen ++ [entry]) := by
  refine List.pairwise_append.mpr ⟨h, List.pairwise_singleton _ _, ?_⟩
  rintro a ha b hb rfl
  rw [List.mem_singleton] at hb
  subst hb
  exact hnew ha

theorem recordOf_range {event : MaterializedEvent} (last : ℤ)
    (h : event.kind ≠ .boundaryValueInject) (h' : event.kind ≠ .liveOutBoundaryUse) :
    ∃ key, recordOf event last = .range key event.logicalIteration last := by
  unfold recordOf
  cases hkind : event.kind with
  | boundaryValueInject => exact absurd hkind h
  | liveOutBoundaryUse => exact absurd hkind h'
  | nodeIssue => exact ⟨_, rfl⟩
  | linkLaunch => exact ⟨_, rfl⟩
  | rfRead => exact ⟨_, rfl⟩
  | rfWrite => exact ⟨_, rfl⟩

theorem recordOf_eq_range {event : MaterializedEvent} {finish first last : ℤ} {key : PeriodicKey}
    (h : recordOf event finish = .range key first last) :
    event.logicalIteration = first ∧ finish = last := by
  unfold recordOf at h
  split at h
  all_goals first
    | exact ⟨(EventRecord.range.inj h).2.1, (EventRecord.range.inj h).2.2⟩
    | cases h

@[simp] theorem advance_zero (event : MaterializedEvent) : event.advance 0 = event := by
  simp [MaterializedEvent.advance]

/-- An event that is not repeated is faithful to its record if its name and cycle are right. -/
theorem faithful_of_occursAt {item : ℕ × MaterializedEvent} {entry : EventRecord} {name : EventName}
    (hname : item.2.name? = some name) (hentry : entry.names request.tripCount = [name])
    (hhappens : name.HappensAt dfg mapping request.tripCount schedule.timeOriginShift item.1) :
    Faithful dfg mapping request.tripCount schedule item 1 entry := by
  constructor
  · simp [hname, hentry]
  · intro k hk name' hname'
    obtain rfl : k = 0 := by omega
    rw [advance_zero, hname, Option.some.injEq] at hname'
    subst hname'
    simpa using hhappens

/-- **One explicit event.** -/
theorem scanEvent_clean {seen seen' : List EventRecord} {item : ℕ × MaterializedEvent}
    (hii : schedule.ii = mapping.staged.modulo.ii) (hpos : request.tripCount ≠ 0)
    (h : scanEvent dfg mapping request schedule seen item = .ok (seen', [])) :
    seen' = seen ++ [recordOf item.2 item.2.logicalIteration] ∧
      Faithful dfg mapping request.tripCount schedule item 1
        (recordOf item.2 item.2.logicalIteration) ∧ (OnceOnly seen → OnceOnly seen') := by
  unfold scanEvent at h
  split at h
  · cases h
  rename_i recorded report hevent
  obtain ⟨hseen, rfl⟩ := Prod.mk.inj (Except.ok.inj h)
  -- it is enough that the check ran to its end, and that a boundary event is new
  suffices hclean : recorded = true ∧ Faithful dfg mapping request.tripCount schedule item 1
        (recordOf item.2 item.2.logicalIteration) ∧
      (recordOf item.2 item.2.logicalIteration ∈ seen →
        ∃ key first last, recordOf item.2 item.2.logicalIteration = .range key first last) by
    obtain ⟨rfl, hfaithful, hnew⟩ := hclean
    rw [if_pos rfl] at hseen
    subst hseen
    exact ⟨rfl, hfaithful, fun honce ↦ honce.append hnew⟩
  unfold verifyEvent at hevent
  split at hevent
  · rename_i hkind
    obtain ⟨hrecorded, edge, offset, hedge, hoffset, hnew, hoccurs, -⟩ :=
      verifyBoundaryInject_clean hii hevent
    have hrecord : recordOf item.2 item.2.logicalIteration = .boundary edge offset := by
      simp [recordOf, hkind, hedge, hoffset]
    rw [hrecord]
    refine ⟨hrecorded, faithful_of_occursAt ?_ rfl hoccurs, fun hmem ↦ absurd hmem hnew⟩
    simp [MaterializedEvent.name?, hkind, hedge, hoffset]
  · rename_i hkind
    obtain ⟨hrecorded, id, hid, hiteration, hnew, hoccurs⟩ :=
      verifyLiveOutUse_clean hii hpos hevent
    have hrecord : recordOf item.2 item.2.logicalIteration = .liveOut id := by
      simp [recordOf, hkind, hid]
    rw [hrecord]
    refine ⟨hrecorded, faithful_of_occursAt ?_ rfl hoccurs, fun hmem ↦ absurd hmem hnew⟩
    simp [MaterializedEvent.name?, hkind, hid, hiteration]
  · rename_i hkind hkind'
    obtain ⟨hrecorded, hfaithful⟩ := verifyPeriodic_clean hii hevent
    refine ⟨hrecorded, hfaithful 1 _ (by simp), fun _ ↦ ?_⟩
    obtain ⟨key, hkey⟩ := recordOf_range item.2.logicalIteration hkind hkind'
    exact ⟨key, _, _, hkey⟩

/-- The record of an explicit event. -/
def explicitRecord (item : ℕ × MaterializedEvent) : EventRecord :=
  recordOf item.2 item.2.logicalIteration

/-- The record of a kernel event. -/
def kernelRecord (schedule : MaterializedSchedule) (item : ℕ × MaterializedEvent) : EventRecord :=
  recordOf item.2 (item.2.logicalIteration + schedule.kernel.repeatCount - 1)

/-- **One kernel event.** -/
theorem scanKernelEvent_clean {seen seen' : List EventRecord} {item : ℕ × MaterializedEvent}
    (hii : schedule.ii = mapping.staged.modulo.ii) (hrepeat : schedule.kernel.repeatCount ≠ 0)
    (h : scanKernelEvent dfg mapping request schedule seen item = .ok (seen', [])) :
    seen' = seen ++ [kernelRecord schedule item] ∧
      Faithful dfg mapping request.tripCount schedule item schedule.kernel.repeatCount
        (kernelRecord schedule item) ∧ (OnceOnly seen → OnceOnly seen') := by
  unfold scanKernelEvent at h
  split at h
  · simp at h
  rename_i hkind
  rw [not_or] at hkind
  split at h
  · cases h
  rename_i recorded report hperiodic
  split at h
  · simp at h
  rename_i rangeEnd hrange
  simp only [Except.ok.injEq, Prod.mk.injEq] at h
  obtain ⟨rfl, rfl⟩ := h
  obtain ⟨delta, hdelta, hsum⟩ := Option.bind_eq_some_iff.mp hrange
  obtain rfl : rangeEnd = item.2.logicalIteration + schedule.kernel.repeatCount - 1 := by
    rw [addSigned_eq_some hsum, toSigned_eq_some hdelta]
    omega
  obtain ⟨-, hfaithful⟩ := verifyPeriodic_clean hii hperiodic
  refine ⟨rfl, hfaithful _ _ (by omega), fun honce ↦ honce.append fun _ ↦ ?_⟩
  obtain ⟨key, hkey⟩ := recordOf_range
    (item.2.logicalIteration + schedule.kernel.repeatCount - 1) hkind.1 hkind.2
  exact ⟨key, _, _, hkey⟩

theorem scanPhase_clean {body : List EventRecord → ℕ × MaterializedEvent →
      Except String (List EventRecord × List MaterializedScheduleDiagnostic)}
    {message : String} {seen seen' : List EventRecord} {base : ℕ} {cycles : List CycleBundle}
    (h : scanPhase body message seen base cycles = .ok (seen', [])) :
    loop body seen (timed base cycles) = .ok (seen', []) := by
  obtain ⟨⟨later, report⟩, hloop, hresult⟩ := map_eq_ok.mp h
  simp only [Prod.mk.injEq, List.append_eq_nil_iff, require_eq_nil_iff,
    decide_eq_true_eq] at hresult
  obtain ⟨rfl, rfl, hlength⟩ := hresult
  rwa [List.take_of_length_le hlength] at hloop

/-- What a clean scan has established about its records. -/
structure Scanned (dfg : TargetDFG) (mapping : RFAllocatedMapping)
    (request : ScheduleMaterializationRequest) (schedule : MaterializedSchedule)
    (seen : List EventRecord) : Prop where
  perm : seen.Perm (schedule.explicitEvents.map explicitRecord
    ++ schedule.kernelEvents.map (kernelRecord schedule))
  explicit : ∀ item ∈ schedule.explicitEvents,
    Faithful dfg mapping request.tripCount schedule item 1 (explicitRecord item)
  kernel : ∀ item ∈ schedule.kernelEvents, Faithful dfg mapping request.tripCount schedule item
    schedule.kernel.repeatCount (kernelRecord schedule item)
  once : OnceOnly seen

theorem repeatCount_ne_zero (hshape : schedule.KernelShape) {item : ℕ × MaterializedEvent}
    (hmem : item ∈ schedule.kernelEvents) : schedule.kernel.repeatCount ≠ 0 := by
  intro hzero
  rw [MaterializedSchedule.kernelEvents, hshape.1 hzero] at hmem
  exact absurd hmem List.not_mem_nil

theorem kernel_loop_clean {seen seen' : List EventRecord} (hshape : schedule.KernelShape)
    (hii : schedule.ii = mapping.staged.modulo.ii)
    (h : loop (scanKernelEvent dfg mapping request schedule) seen schedule.kernelEvents
      = .ok (seen', [])) :
    seen' = seen ++ schedule.kernelEvents.map (kernelRecord schedule) ∧
      (∀ item ∈ schedule.kernelEvents, Faithful dfg mapping request.tripCount schedule item
        schedule.kernel.repeatCount (kernelRecord schedule item)) ∧
      (OnceOnly seen → OnceOnly seen') := by
  by_cases hrepeat : schedule.kernel.repeatCount = 0
  · have hempty : schedule.kernelEvents = [] := by
      rw [MaterializedSchedule.kernelEvents, hshape.1 hrepeat]
      rfl
    rw [hempty] at h ⊢
    obtain ⟨rfl, -⟩ := Prod.mk.inj (Except.ok.inj h)
    simp
  · exact loop_log (fun s item s' hs ↦ scanKernelEvent_clean hii hrepeat hs) h

theorem scanned_of_scan {seen : List EventRecord} (hshape : schedule.KernelShape)
    (hii : schedule.ii = mapping.staged.modulo.ii) (hpos : request.tripCount ≠ 0)
    (h : scan dfg mapping request schedule = .ok (seen, [])) :
    Scanned dfg mapping request schedule seen := by
  unfold scan at h
  obtain ⟨⟨seen₁, report₁⟩, hprologue, h⟩ := bind_eq_ok.mp h
  obtain ⟨⟨seen₂, report₂⟩, hkernel, h⟩ := bind_eq_ok.mp h
  obtain ⟨⟨seen₃, report₃⟩, hepilogue, h⟩ := bind_eq_ok.mp h
  simp only [pure, Except.pure, Except.ok.injEq, Prod.mk.injEq, List.append_eq_nil_iff] at h
  obtain ⟨rfl, ⟨rfl, rfl⟩, rfl⟩ := h
  obtain ⟨rfl, hfaithful₁, honce₁⟩ := loop_log (f := explicitRecord)
    (fun s item s' hs ↦ scanEvent_clean hii hpos hs) (scanPhase_clean hprologue)
  obtain ⟨rfl, hfaithful₂, honce₂⟩ := kernel_loop_clean hshape hii (scanPhase_clean hkernel)
  obtain ⟨rfl, hfaithful₃, honce₃⟩ := loop_log (f := explicitRecord)
    (fun s item s' hs ↦ scanEvent_clean hii hpos hs) (scanPhase_clean hepilogue)
  refine ⟨?_, ?_, hfaithful₂, honce₃ (honce₂ (honce₁ List.Pairwise.nil))⟩
  · rw [MaterializedSchedule.explicitEvents, List.map_append, List.nil_append, List.append_assoc,
      List.append_assoc]
    exact List.perm_append_comm.append_left _
  · intro item hitem
    rcases List.mem_append.mp hitem with hitem | hitem
    · exact hfaithful₁ item hitem
    · exact hfaithful₃ item hitem

/-- Recorded ranges are not empty. -/
theorem Scanned.le {seen : List EventRecord} (h : Scanned dfg mapping request schedule seen)
    (hshape : schedule.KernelShape) {key : PeriodicKey} {first last : ℤ}
    (hmem : .range key first last ∈ seen) : first ≤ last := by
  rcases List.mem_append.mp (h.perm.mem_iff.mp hmem) with hmem | hmem
  · obtain ⟨item, -, hitem⟩ := List.mem_map.mp hmem
    obtain ⟨hfirst, hlast⟩ := recordOf_eq_range hitem
    exact (hfirst.symm.trans hlast).le
  · obtain ⟨item, hmem, hitem⟩ := List.mem_map.mp hmem
    obtain ⟨hfirst, hlast⟩ := recordOf_eq_range hitem
    have hrepeat := repeatCount_ne_zero hshape hmem
    omega

/-- **The names of the expansion are the names the records stand for.** -/
theorem Scanned.names_perm {seen : List EventRecord} (h : Scanned dfg mapping request schedule seen)
    (hshape : schedule.KernelShape) : (schedule.expansion.map fun x ↦ x.2.name?).Perm
      ((seen.flatMap (EventRecord.names request.tripCount)).map some) := by
  have hrecords := h.perm.flatMap_right
    fun entry ↦ (EventRecord.names request.tripCount entry).map some
  rw [List.map_flatMap]
  refine (MaterializedSchedule.names_perm_events hshape).trans (List.Perm.trans ?_ hrecords.symm)
  rw [List.flatMap_append, List.flatMap_map, List.flatMap_map]
  refine List.Perm.append (List.Perm.of_eq ?_) (List.Perm.of_eq ?_)
  · have hnames : ∀ item ∈ schedule.explicitEvents, [item.2.name?]
        = ((explicitRecord item).names request.tripCount).map some := fun item hitem ↦ by
      simpa using (h.explicit item hitem).names
    rw [← List.flatMap_pure_eq_map]
    exact List.flatMap_congr hnames
  · exact List.flatMap_congr fun item hitem ↦ (h.kernel item hitem).names

/-- Every event of the expansion happens when its name says. -/
theorem Scanned.happensAt {seen : List EventRecord} (h : Scanned dfg mapping request schedule seen)
    (hshape : schedule.KernelShape) {cycle : ℕ} {event : MaterializedEvent}
    (hmem : (cycle, event) ∈ schedule.expansion) {name : EventName}
    (hname : event.name? = some name) :
    name.HappensAt dfg mapping request.tripCount schedule.timeOriginShift cycle := by
  rcases (MaterializedSchedule.mem_expansion_iff hshape).mp hmem with hmem | ⟨k, hk, item, hitem,
    heq⟩
  · have hhappens := (h.explicit _ hmem).happens 0 zero_lt_one name (by simpa using hname)
    simpa using hhappens
  · obtain ⟨hcycle, hevent⟩ := Prod.mk.inj heq
    rw [← hcycle]
    exact (h.kernel item hitem).happens k hk name (hevent ▸ hname)

/-! ## Coverage -/

theorem tiles_of_followRanges {start finish : ℤ} {ranges : List (ℤ × ℤ)}
    (h : followRanges start ranges = some finish) : Tiles start ranges finish := by
  induction ranges generalizing start with
  | nil =>
    rw [← Option.some.inj h]
    exact Tiles.nil start
  | cons range ranges ih =>
    rw [followRanges] at h
    split_ifs at h with hle hgap
    obtain rfl : start = range.1 - 1 := by omega
    exact Tiles.cons (ih h)

/-- Ranges that pass the coverage test tile the expected iterations, in some order. -/
theorem rangesCoverExactly_spec {input : List (ℤ × ℤ)} {first last : ℤ} (hinput : Inhabited input)
    (h : rangesCoverExactly input first last = true) :
    (∀ i, (∃ r ∈ input, r.1 ≤ i ∧ i ≤ r.2) ↔ first ≤ i ∧ i ≤ last) ∧ input.Pairwise Separate := by
  have hperm := List.perm_insertionSort (fun lhs rhs ↦ rangeLe lhs rhs = true) input
  unfold rangesCoverExactly at h
  split at h
  · cases h
  · rename_i range ranges hsorted
    rw [Bool.and_eq_true, beq_iff_eq, beq_iff_eq] at h
    obtain ⟨rfl, hfollow⟩ := h
    rw [hsorted] at hperm
    obtain ⟨hmem, hpairwise⟩ := (Tiles.cons (tiles_of_followRanges hfollow)).of_perm hperm hinput
    exact ⟨fun i ↦ (hmem i).trans (by omega), hpairwise⟩

theorem mem_rangesOf {seen : List EventRecord} {key : PeriodicKey} {range : ℤ × ℤ} :
    range ∈ rangesOf seen key ↔ .range key range.1 range.2 ∈ seen := by
  rw [rangesOf, List.mem_filterMap]
  constructor
  · rintro ⟨entry, hentry, hrange⟩
    cases entry with
    | range recorded first last =>
      simp only [rangeOf, Option.ite_none_right_eq_some, Option.some.injEq] at hrange
      obtain ⟨rfl, rfl⟩ := hrange
      exact hentry
    | boundary edge offset => cases hrange
    | liveOut id => cases hrange
  · intro hmem
    exact ⟨_, hmem, by simp [rangeOf]⟩

/-- The records and the streams agree. -/
structure Covered (seen : List EventRecord) (expected : List (PeriodicKey × ℤ × ℤ)) : Prop where
  covers : ∀ entry ∈ expected,
    rangesCoverExactly (rangesOf seen entry.1) entry.2.1 entry.2.2 = true
  known : ∀ key first last, .range key first last ∈ seen → ∃ entry ∈ expected, entry.1 = key

theorem covered_of_checkStreams {seen : List EventRecord} {expected : List (PeriodicKey × ℤ × ℤ)}
    (h : checkStreams seen expected = []) : Covered seen expected := by
  simp only [checkStreams, List.append_eq_nil_iff, List.flatMap_eq_nil_iff, require_eq_nil_iff,
    List.mem_insertionSort, List.mem_dedup, List.any_eq_true, beq_iff_eq] at h
  refine ⟨h.1, fun key first last hmem ↦ h.2 key (List.mem_filterMap.mpr ⟨_, hmem, rfl⟩)⟩

/-- A name a range record stands for. -/
theorem mem_names_range {key key' : PeriodicKey} {first last i : ℤ} {tripCount : ℕ} :
    .periodic key' i ∈ (EventRecord.range key first last).names tripCount ↔
      key' = key ∧ first ≤ i ∧ i ≤ last := by
  simp only [EventRecord.names, List.mem_map, List.mem_range, EventName.periodic.injEq]
  constructor
  · rintro ⟨k, hk, rfl, rfl⟩
    exact ⟨rfl, by omega, by omega⟩
  · rintro ⟨rfl, hfirst, hlast⟩
    exact ⟨(i - first).toNat, by omega, rfl, by omega⟩

/-- The iterations of a stream that are recorded are those it has. -/
theorem Scanned.mem_names_iff {seen : List EventRecord} {expected : List (PeriodicKey × ℤ × ℤ)}
    (h : Scanned dfg mapping request schedule seen) (hshape : schedule.KernelShape)
    (hcovered : Covered seen expected) {key : PeriodicKey} {first last i : ℤ}
    (hmem : (key, first, last) ∈ expected) :
    .periodic key i ∈ seen.flatMap (EventRecord.names request.tripCount) ↔
      first ≤ i ∧ i ≤ last := by
  have hinhabited : Inhabited (rangesOf seen key) := fun r hr ↦ h.le hshape (mem_rangesOf.mp hr)
  rw [← (rangesCoverExactly_spec hinhabited (hcovered.covers _ hmem)).1 i, List.mem_flatMap]
  constructor
  · rintro ⟨entry, hentry, hname⟩
    cases entry with
    | range recorded first last =>
      obtain ⟨rfl, hi⟩ := mem_names_range.mp hname
      exact ⟨(first, last), mem_rangesOf.mpr hentry, hi⟩
    | boundary edge offset => simp [EventRecord.names] at hname
    | liveOut id => simp [EventRecord.names] at hname
  · rintro ⟨range, hrange, hi⟩
    exact ⟨_, mem_rangesOf.mp hrange, mem_names_range.mpr ⟨rfl, hi⟩⟩

/-- **No two records stand for the same event.** -/
theorem Scanned.nodup_names {seen : List EventRecord} {expected : List (PeriodicKey × ℤ × ℤ)}
    (h : Scanned dfg mapping request schedule seen) (hshape : schedule.KernelShape)
    (hcovered : Covered seen expected) :
    (seen.flatMap (EventRecord.names request.tripCount)).Nodup := by
  rw [List.nodup_flatMap]
  refine ⟨fun entry _ ↦ ?_, List.pairwise_of_forall_sublist fun {a b} hab name ha hb ↦ ?_⟩
  · cases entry with
    | range key first last =>
      refine List.Nodup.map (fun k l hkl ↦ ?_) List.nodup_range
      have := (EventName.periodic.inj hkl).2
      omega
    | boundary edge offset => exact List.nodup_singleton _
    | liveOut id => exact List.nodup_singleton _
  · have honce := h.once.forall_sublist hab
    cases name with
    | periodic key i =>
      cases a with
      | range keyA firstA lastA =>
        cases b with
        | range keyB firstB lastB =>
          obtain ⟨rfl, hiA⟩ := mem_names_range.mp ha
          obtain ⟨rfl, hiB⟩ := mem_names_range.mp hb
          -- both ranges are ranges of one stream, which do not meet
          obtain ⟨entry, hentry, rfl⟩ :=
            hcovered.known key firstA lastA (hab.subset List.mem_cons_self)
          have hinhabited : Inhabited (rangesOf seen entry.1) :=
            fun r hr ↦ h.le hshape (mem_rangesOf.mp hr)
          obtain ⟨-, hseparate⟩ :=
            rangesCoverExactly_spec hinhabited (hcovered.covers entry hentry)
          have hsub : [(firstA, lastA), (firstB, lastB)].Sublist (rangesOf seen entry.1) := by
            simpa [rangesOf, rangeOf] using hab.filterMap (rangeOf entry.1)
          rcases hseparate.forall_sublist hsub with hlt | hlt
          · simp only at hlt
            omega
          · simp only at hlt
            omega
        | boundary edge offset => simp [EventRecord.names] at hb
        | liveOut id => simp [EventRecord.names] at hb
      | boundary edge offset => simp [EventRecord.names] at ha
      | liveOut id => simp [EventRecord.names] at ha
    | boundaryValueInject edge offset =>
      have hrecord : ∀ entry : EventRecord, .boundaryValueInject edge offset
          ∈ entry.names request.tripCount → entry = .boundary edge offset := fun entry hentry ↦ by
        cases entry <;> simp_all [EventRecord.names]
      obtain ⟨key, first, last, hrange⟩ := honce ((hrecord a ha).trans (hrecord b hb).symm)
      rw [hrecord a ha] at hrange
      cases hrange
    | liveOutBoundaryUse id iteration =>
      have hrecord : ∀ entry : EventRecord, .liveOutBoundaryUse id iteration
          ∈ entry.names request.tripCount → entry = .liveOut id := fun entry hentry ↦ by
        cases entry <;> simp_all [EventRecord.names]
      obtain ⟨key, first, last, hrange⟩ := honce ((hrecord a ha).trans (hrecord b hb).symm)
      rw [hrecord a ha] at hrange
      cases hrange

/-! ## Streams -/

/-- Every stream of the loop is expected, with its own first and last iteration. -/
theorem expected_of_stream {expected : List (PeriodicKey × ℤ × ℤ)} (hv : dfg.Verified target)
    (h : expectedRanges dfg mapping request = .ok expected) {key : PeriodicKey} {time : ℕ}
    {first last : ℤ} (hstream : Stream dfg mapping request.tripCount key time first last) :
    (key, first, last) ∈ expected := by
  obtain ⟨edgeRanges, hedges, h⟩ := bind_eq_ok.mp h
  obtain ⟨segmentRanges, hsegments, h⟩ := bind_eq_ok.mp h
  rw [← Except.ok.inj h]
  have hsegment : ∀ segment ∈ mapping.storageRequirements.segments, ∀ edge ∈ dfg.edges,
      edge.id = segment.edge → ∀ key' ∈ [PeriodicKey.rfWrite segment.id, .rfRead segment.id],
      (key', -(edge.distance : ℤ), (request.tripCount : ℤ) - 1 - edge.distance)
        ∈ segmentRanges.flatten := by
    intro segment hmem edge hedge hid key' hkey
    obtain ⟨ranges, hranges, hvalue⟩ := exists_result_of_mem hsegments hmem
    rw [expectedSegmentRanges, ← hid, hv.findEdge_of_mem hedge] at hvalue
    refine List.mem_flatten.mpr ⟨ranges, hranges, ?_⟩
    rw [← Except.ok.inj hvalue]
    simpa using hkey
  cases hstream with
  | nodeIssue hnode htime =>
    refine List.mem_append_left _ (List.mem_append_left _ ?_)
    exact List.mem_map.mpr ⟨_, hnode, rfl⟩
  | @linkLaunch edge dependence plan action link time hedge hkind hdependence hplan haction htime =>
    obtain ⟨ranges, hranges, hvalue⟩ := exists_result_of_mem hedges hedge
    rw [expectedEdgeRanges, if_neg hkind, hdependence] at hvalue
    simp only [hplan, Except.ok.injEq] at hvalue
    refine List.mem_append_left _ (List.mem_append_right _ ?_)
    refine List.mem_flatten.mpr ⟨ranges, hranges, ?_⟩
    rw [← hvalue]
    refine List.mem_filterMap.mpr ⟨(.linkStep link, action), ?_, rfl⟩
    exact List.mem_zipIdx_iff_getElem?.mpr haction
  | rfWrite hmem hedge hid =>
    exact List.mem_append_right _ (hsegment _ hmem _ hedge hid _ (by simp))
  | rfRead hmem hedge hid =>
    exact List.mem_append_right _ (hsegment _ hmem _ hedge hid _ (by simp))

end MaterializedScheduleVerifier

section Functional

variable {dfg : TargetDFG} {target : TargetModel} {mapping : RFAllocatedMapping} {tripCount : ℕ}

/-- The time of a stream is determined by its key. -/
theorem Stream.time_unique (hv : dfg.Verified target)
    (hids : (mapping.storageRequirements.segments.map StorageSegment.id).Nodup)
    {key key' : PeriodicKey} {time time' : ℕ} {first last first' last' : ℤ}
    (h : Stream dfg mapping tripCount key time first last)
    (h' : Stream dfg mapping tripCount key' time' first' last') (hkey : key = key') :
    time = time' := by
  have hsegment : ∀ a ∈ mapping.storageRequirements.segments,
      ∀ b ∈ mapping.storageRequirements.segments, a.id = b.id → a = b :=
    fun a ha b hb ↦ List.inj_on_of_nodup_map hids ha hb
  -- streams of different kinds have different keys
  cases h with
  | nodeIssue hnode htime =>
    cases h' with
    | nodeIssue hnode' htime' =>
      rw [PeriodicKey.nodeIssue.injEq] at hkey
      rw [hkey, htime', Except.ok.injEq] at htime
      exact htime.symm
    | _ => cases hkey
  | linkLaunch hedge hkind hdependence hplan haction htime =>
    cases h' with
    | linkLaunch hedge' hkind' hdependence' hplan' haction' htime' =>
      rw [PeriodicKey.linkLaunch.injEq] at hkey
      obtain ⟨hid, rfl⟩ := hkey
      obtain rfl := hv.edge_eq_of_id_eq hedge hedge' hid
      rw [hdependence', Except.ok.injEq] at hdependence
      subst hdependence
      rw [hplan', Option.some.injEq] at hplan
      subst hplan
      rw [haction', Option.some.injEq, TransportAction.linkStep.injEq] at haction
      rw [htime', Except.ok.injEq] at htime
      rw [haction, htime]
    | _ => cases hkey
  | rfWrite hmem hedge hid =>
    cases h' with
    | rfWrite hmem' hedge' hid' =>
      rw [PeriodicKey.rfWrite.injEq] at hkey
      rw [hsegment _ hmem _ hmem' hkey]
    | _ => cases hkey
  | rfRead hmem hedge hid =>
    cases h' with
    | rfRead hmem' hedge' hid' =>
      rw [PeriodicKey.rfRead.injEq] at hkey
      rw [hsegment _ hmem _ hmem' hkey]
    | _ => cases hkey

theorem OccursAt.cycle_unique (hv : dfg.Verified target)
    (hids : (mapping.storageRequirements.segments.map StorageSegment.id).Nodup) {shift : ℕ}
    {name name' : EventName} {cycle cycle' : ℤ}
    (h : OccursAt dfg mapping tripCount shift name cycle)
    (h' : OccursAt dfg mapping tripCount shift name' cycle') (hname : name = name') :
    cycle = cycle' := by
  cases h with
  | periodic hstream hfirst hlast =>
    cases h' with
    | periodic hstream' hfirst' hlast' =>
      obtain ⟨hkey, rfl⟩ := EventName.periodic.inj hname
      rw [hstream.time_unique hv hids hstream' hkey]
    | _ => cases hname
  | boundaryValueInject hedge hkind hoffset hsrc htime =>
    cases h' with
    | boundaryValueInject hedge' hkind' hoffset' hsrc' htime' =>
      obtain ⟨hid, rfl⟩ := EventName.boundaryValueInject.inj hname
      obtain rfl := hv.edge_eq_of_id_eq hedge hedge' hid
      rw [hsrc', Option.some.injEq] at hsrc
      rw [htime', Except.ok.injEq] at htime
      rw [hsrc, htime]
    | _ => cases hname
  | liveOutBoundaryUse hmem hsrc hlatency htime =>
    cases h' with
    | liveOutBoundaryUse hmem' hsrc' hlatency' htime' =>
      obtain ⟨hid, -⟩ := EventName.liveOutBoundaryUse.inj hname
      obtain rfl := List.inj_on_of_nodup_map hv.nodup_liveOuts hmem hmem' hid
      rw [hsrc', Option.some.injEq] at hsrc
      subst hsrc
      rw [hlatency', Option.some.injEq] at hlatency
      rw [htime', Except.ok.injEq] at htime
      rw [hlatency, htime]
    | _ => cases hname

/-- **An event happens in one cycle only.** -/
theorem EventName.HappensAt.unique (hv : dfg.Verified target)
    (hids : (mapping.storageRequirements.segments.map StorageSegment.id).Nodup) {shift : ℕ}
    {name : EventName} {cycle cycle' : ℤ}
    (h : name.HappensAt dfg mapping tripCount shift cycle)
    (h' : name.HappensAt dfg mapping tripCount shift cycle') : cycle = cycle' := by
  cases name with
  | periodic key iteration =>
    obtain ⟨time, first, last, hstream, rfl⟩ := h
    obtain ⟨time', first', last', hstream', rfl⟩ := h'
    rw [hstream.time_unique hv hids hstream' rfl]
  | boundaryValueInject edge offset => exact OccursAt.cycle_unique hv hids h h' rfl
  | liveOutBoundaryUse id iteration => exact OccursAt.cycle_unique hv hids h h' rfl

theorem happensAt_of_occursAt {shift : ℕ} {name : EventName} {cycle : ℤ}
    (h : OccursAt dfg mapping tripCount shift name cycle) :
    name.HappensAt dfg mapping tripCount shift cycle := by
  cases h with
  | periodic hstream hfirst hlast => exact ⟨_, _, _, hstream, rfl⟩
  | boundaryValueInject hedge hkind hoffset hsrc htime =>
    exact OccursAt.boundaryValueInject hedge hkind hoffset hsrc htime
  | liveOutBoundaryUse hmem hsrc hlatency htime =>
    exact OccursAt.liveOutBoundaryUse hmem hsrc hlatency htime

end Functional

/-! ## The theorem -/

/-- The expansion of a schedule has the events of the loop, each once, and no others. -/
structure MaterializedSchedule.Exact (dfg : TargetDFG) (mapping : RFAllocatedMapping)
    (tripCount : ℕ) (schedule : MaterializedSchedule) : Prop where
  /-- Every event has a name. -/
  named : ∀ x ∈ schedule.expansion, ∃ name, x.2.name? = some name
  /-- No two events have the same name. -/
  nodup : (schedule.expansion.map fun x ↦ x.2.name?).Nodup
  /-- The events and their cycles are those of the loop. -/
  mem_iff : ∀ (name : EventName) (cycle : ℤ),
    (∃ x ∈ schedule.expansion, x.2.name? = some name ∧ (x.1 : ℤ) = cycle) ↔
      OccursAt dfg mapping tripCount schedule.timeOriginShift name cycle
  /-- The cycles are as many as the schedule says. -/
  length_cycles : schedule.cycles.length = schedule.totalLogicalCycles

namespace MaterializedScheduleVerifier

variable {dfg : TargetDFG} {target : TargetModel} {mapping : RFAllocatedMapping}
variable {request : ScheduleMaterializationRequest} {schedule : MaterializedSchedule}

/-- What the verifier accepts, before the events are looked at. -/
structure Accepted (dfg : TargetDFG) (target : TargetModel) (mapping : RFAllocatedMapping)
    (request : ScheduleMaterializationRequest) (schedule : MaterializedSchedule) : Prop where
  tripCount_ne_zero : request.tripCount ≠ 0
  graph : dfg.Verified target
  allocated : mapping.Verified dfg target
  ii_eq : schedule.ii = mapping.staged.modulo.ii
  shape : schedule.KernelShape
  phases : checkPhases schedule = []
  events : checkEvents dfg mapping request schedule = .ok []

theorem accepted_of_verify (h : verify dfg target mapping request schedule = .ok []) :
    Accepted dfg target mapping request schedule := by
  simp only [verify, stage_eq_ok_nil_iff, require_eq_nil_iff] at h
  obtain ⟨hpos, -, hgraph, h⟩ := h
  split at h
  · cases h
  rename_i rfReport hrf
  simp only [stage_eq_ok_nil_iff, require_eq_nil_iff, List.isEmpty_iff, Bool.and_eq_true,
    beq_iff_eq] at h
  obtain ⟨rfl, ⟨-, hii⟩, hshape, -, h⟩ := h
  split at h
  · cases h
  simp only [checkBounds, stage_eq_ok_nil_iff] at h
  obtain ⟨-, -, -, hphases, hevents⟩ := h
  refine ⟨by simpa using hpos, TargetDFGVerifier.verified_of_verify (by simpa using hgraph),
    RFAllocationVerifier.verified_of_verify hrf, hii, ⟨fun hzero ↦ ?_, fun hne ↦ ?_⟩, hphases,
    hevents⟩
  · simpa [hzero] using hshape.1
  · simpa [hne] using hshape.2

theorem length_cycles_of_checkPhases (hshape : schedule.KernelShape)
    (h : checkPhases schedule = []) : schedule.cycles.length = schedule.totalLogicalCycles := by
  have hlength : schedule.cycles.length = schedule.prologue.cycles.length
      + schedule.kernel.repeatCount * schedule.ii + schedule.epilogue.cycles.length := by
    by_cases hr : schedule.kernel.repeatCount = 0
    · simp [MaterializedSchedule.cycles, hr]
    · simp [MaterializedSchedule.cycles, List.length_flatMap, hshape.2 hr, Nat.add_assoc]
  unfold checkPhases at h
  simp only at h
  split at h
  · cases h
  · simp only [require_eq_nil_iff, Bool.and_eq_true, decide_eq_true_eq, beq_iff_eq] at h
    omega

/-- An accepted schedule has every boundary event of the loop. -/
theorem mem_of_checkOneShots {seen : List EventRecord} (h : checkOneShots dfg request seen = []) :
    (∀ edge ∈ dfg.edges, edge.kind ≠ .memory → ∀ offset < min request.tripCount edge.distance,
      .boundary edge.id offset ∈ seen) ∧ ∀ liveOut ∈ dfg.liveOuts, .liveOut liveOut.id ∈ seen := by
  rw [checkOneShots, List.append_eq_nil_iff, List.flatMap_eq_nil_iff, List.flatMap_eq_nil_iff] at h
  constructor
  · intro edge hedge hkind offset hoffset
    have hchecks := h.1 edge hedge
    rw [if_neg hkind, List.flatMap_eq_nil_iff] at hchecks
    simpa using hchecks offset (List.mem_range.mpr hoffset)
  · intro liveOut hmem
    simpa using h.2 liveOut hmem

/-- **The verifier accepts only exact schedules.** -/
theorem Accepted.exact (h : Accepted dfg target mapping request schedule) :
    schedule.Exact dfg mapping request.tripCount := by
  have hids := StorageRequirementAnalysis.nodup_ids h.allocated.requirements
  obtain ⟨⟨seen, report⟩, hscan, hrest⟩ := bind_eq_ok.mp h.events
  obtain ⟨expected, hexpected, hrest⟩ := bind_eq_ok.mp hrest
  simp only [pure, Except.pure, Except.ok.injEq, List.append_eq_nil_iff] at hrest
  obtain ⟨⟨rfl, hstreams⟩, hshots⟩ := hrest
  have hscanned := scanned_of_scan h.shape h.ii_eq h.tripCount_ne_zero hscan
  have hcovered := covered_of_checkStreams hstreams
  have hperm := hscanned.names_perm h.shape
  have hname : ∀ name : EventName, (∃ x ∈ schedule.expansion, x.2.name? = some name) ↔
      name ∈ seen.flatMap (EventRecord.names request.tripCount) := by
    intro name
    rw [← List.mem_map, hperm.mem_iff, List.mem_map]
    simp
  refine ⟨fun x hx ↦ ?_, ?_, fun name cycle ↦ ⟨?_, fun hoccurs ↦ ?_⟩,
    length_cycles_of_checkPhases h.shape h.phases⟩
  · obtain ⟨name, -, hx⟩ := List.mem_map.mp (hperm.mem_iff.mp (List.mem_map_of_mem hx))
    exact ⟨name, hx.symm⟩
  · rw [hperm.nodup_iff]
    exact (hscanned.nodup_names h.shape hcovered).map (Option.some_injective _)
  · rintro ⟨x, hx, hxname, rfl⟩
    have hhappens := hscanned.happensAt h.shape hx hxname
    cases name with
    | periodic key iteration =>
      obtain ⟨time, first, last, hstream, hcycle⟩ := hhappens
      rw [hcycle]
      have hmem := (hname _).mp ⟨x, hx, hxname⟩
      rw [hscanned.mem_names_iff h.shape hcovered (expected_of_stream h.graph hexpected hstream)]
        at hmem
      exact OccursAt.periodic hstream hmem.1 hmem.2
    | boundaryValueInject edge offset => exact hhappens
    | liveOutBoundaryUse id iteration => exact hhappens
  · -- the event is recorded, and an event of the expansion with its name has its cycle
    have hrecorded : name ∈ seen.flatMap (EventRecord.names request.tripCount) := by
      cases hoccurs with
      | periodic hstream hfirst hlast =>
        rw [hscanned.mem_names_iff h.shape hcovered (expected_of_stream h.graph hexpected hstream)]
        exact ⟨hfirst, hlast⟩
      | boundaryValueInject hedge hkind hoffset hsrc htime =>
        exact List.mem_flatMap.mpr
          ⟨_, (mem_of_checkOneShots hshots).1 _ hedge hkind _ hoffset, List.mem_singleton_self _⟩
      | liveOutBoundaryUse hmem hsrc hlatency htime =>
        exact List.mem_flatMap.mpr
          ⟨_, (mem_of_checkOneShots hshots).2 _ hmem, List.mem_singleton_self _⟩
    obtain ⟨x, hx, hxname⟩ := (hname name).mpr hrecorded
    refine ⟨x, hx, hxname, ?_⟩
    exact (hscanned.happensAt h.shape hx hxname).unique h.graph hids
      (happensAt_of_occursAt hoccurs)

end MaterializedScheduleVerifier

/-- A schedule the materializer returns has been built and verified. -/
theorem ScheduleMaterializer.materialize_eq_ok {dfg : TargetDFG} {target : TargetModel}
    {mapping : RFAllocatedMapping} {request : ScheduleMaterializationRequest}
    {schedule : MaterializedSchedule}
    (h : ScheduleMaterializer.materialize dfg target mapping request = .ok (.ok schedule)) :
    build dfg mapping request = .ok schedule ∧
      MaterializedScheduleVerifier.verify dfg target mapping request schedule = .ok [] := by
  unfold materialize at h
  split at h
  · simp at h
  split at h
  · simp at h
  split at h
  · simp at h
  split at h
  · cases h
  · simp at h
  split at h
  · simp at h
  rw [Except.ok.injEq, buildVerified, bind_eq_ok] at h
  obtain ⟨built, hbuilt, h⟩ := h
  split at h
  · cases h
  · rename_i hverify
    obtain rfl := Except.ok.inj h
    exact ⟨hbuilt, hverify⟩
  · cases h

/-- **Materialization is exact.** For a schedule the verifier accepts, and in particular for every
schedule the materializer returns, unrolling the kernel gives exactly the events of `tripCount`
iterations: every iteration of every node, of every hop of a route and of every write and read of a
register, in the iterations the loop needs, the boundary injections and the live-out uses, each once
and in its cycle, and no other event. -/
theorem MaterializedScheduleVerifier.verify_exact (dfg : TargetDFG) (target : TargetModel)
    (mapping : RFAllocatedMapping) (request : ScheduleMaterializationRequest)
    (schedule : MaterializedSchedule)
    (h : accepts (verify dfg target mapping request schedule) = true ∨
      ScheduleMaterializer.materialize dfg target mapping request = .ok (.ok schedule)) :
    schedule.Exact dfg mapping request.tripCount := by
  have hverify : verify dfg target mapping request schedule = .ok [] := by
    rcases h with h | h
    · exact (accepts_iff _).mp h
    · exact (ScheduleMaterializer.materialize_eq_ok h).2
  exact (accepted_of_verify hverify).exact

/-! ### Three iterations of the delay line -/

/-- The schedule of the delay line for three iterations: the kernel runs twice. -/
def delayLineSchedule : MaterializedSchedule :=
  let link := fun (action : ℕ) (col : ℕ) (iteration : ℤ) ↦
    ({ kind := .linkLaunch, logicalIteration := iteration, edge := some 0
       transportActionIndex := some action, domain := some .data, tile := some ⟨0, col⟩
       direction := some .east } : MaterializedEvent)
  let issue := fun (node : ℕ) (iteration : ℤ) ↦
    ({ kind := .nodeIssue, logicalIteration := iteration, node := some node } : MaterializedEvent)
  let access := fun (kind : MaterializedEventKind) (iteration : ℤ) ↦
    ({ kind := kind, logicalIteration := iteration, edge := some 0, segment := some 0
       domain := some .data, tile := some ⟨0, 2⟩
       physicalRegister := some ⟨⟨0, 2⟩, "data_rf", 0⟩ } : MaterializedEvent)
  let inject : MaterializedEvent :=
    { kind := .boundaryValueInject, logicalIteration := -1, edge := some 0
      consumerIterationOffset := some 0, boundaryValue := some (.constantRef 1)
      domain := some .data, tile := some ⟨0, 0⟩ }
  { ii := 2
    tripCount := 3
    timeOriginShift := 2
    totalLogicalCycles := 9
    prologue := ⟨[⟨[inject, link 0 0 (-1)]⟩, ⟨[link 1 1 (-1)]⟩]⟩
    kernel :=
      ⟨[⟨[issue 0 0, link 0 0 0, access .rfWrite (-1)]⟩,
        ⟨[access .rfRead (-1), issue 1 0, link 1 1 0]⟩], 2⟩
    epilogue :=
      ⟨[⟨[issue 0 2, access .rfWrite 1]⟩, ⟨[access .rfRead 1, issue 1 2]⟩,
        ⟨[{ kind := .liveOutBoundaryUse, logicalIteration := 2, node := some 1
            liveOut := some 0 }]⟩]⟩ }

theorem delayLineSchedule_materialized : ScheduleMaterializer.materialize delayLineDFG shippedTarget
    delayLineAllocated { tripCount := 3 } = .ok (.ok delayLineSchedule) := by
  decide +kernel

/-- The delay line's schedule is exact. -/
theorem delayLineSchedule_exact :
    ScheduleMaterializer.materialize delayLineDFG shippedTarget delayLineAllocated
        { tripCount := 3 } = .ok (.ok delayLineSchedule) ∧
      delayLineSchedule.Exact delayLineDFG delayLineAllocated 3 :=
  ⟨delayLineSchedule_materialized,
    MaterializedScheduleVerifier.verify_exact _ shippedTarget _ { tripCount := 3 } _
      (Or.inr delayLineSchedule_materialized)⟩

end PredicatedMesh
