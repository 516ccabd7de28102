import PredicatedMesh.Lowering.Lowerer
import PredicatedMesh.Schedule.Checked

/-!
# When the kernel means the same in every repetition

The kernel body is lowered once, with the iterations of its first repetition, and run
`repeatCount` times. Lowering looks at an iteration in one place only: a value whose producer has
not run yet, because the loop has only just begun, is taken from the constant memory
(`Lowerer.boundaryProvider`). So the body is right in every repetition if that choice does not
change from one to the next.

For the first hop of a route it never does: the injection of a boundary value happens in the cycle
its first hop is launched, and the materializer keeps injections out of the kernel. A register
write comes later than that, by the length of the route and the time on hold, and nothing keeps it
out of the kernel. `Lowerer.kernelUniform_iff` says exactly when the kernel is nevertheless uniform,
and `delayLine_kernel_reseeded` is a loop for which it is not: the register is written with the
boundary constant in both repetitions.
-/

namespace PredicatedMesh

open Scan MaterializedScheduleVerifier

/-! ## Kernel events -/

section Accepted

variable {dfg : TargetDFG} {target : TargetModel} {mapping : RFAllocatedMapping}
variable {request : ScheduleMaterializationRequest} {schedule : MaterializedSchedule}

/-- No boundary value is injected in the cycles of the first repetition. -/
theorem MaterializedScheduleVerifier.Accepted.not_inject_in_kernel
    (h : Accepted dfg target mapping request schedule)
    (hrepeat : schedule.kernel.repeatCount ≠ 0) {edge : TargetEdgeId} {offset : ℕ} {cycle : ℤ}
    (hoccurs : OccursAt dfg mapping request.tripCount schedule.timeOriginShift
      (.boundaryValueInject edge offset) cycle) :
    cycle < schedule.prologue.cycles.length ∨
      schedule.prologue.cycles.length + schedule.ii ≤ cycle := by
  obtain ⟨x, hx, hname, rfl⟩ := (h.exact.mem_iff _ _).mpr hoccurs
  rcases (MaterializedSchedule.mem_expansion_iff h.shape).mp hx with hx | ⟨k, -, item, hitem, rfl⟩
  · rcases List.mem_append.mp hx with hx | hx
    · have := lt_of_mem_timed hx
      omega
    · have hbounds := lt_of_mem_timed hx
      have hle : schedule.ii ≤ schedule.kernel.repeatCount * schedule.ii :=
        Nat.le_mul_of_pos_left _ (Nat.pos_of_ne_zero hrepeat)
      rw [MaterializedSchedule.kernelEnd] at hbounds
      omega
  · -- the kernel holds no injection
    have hkind := (h.kernel_checked hitem).1
    exact absurd (MaterializedEvent.kind_of_inject hname) hkind

/-- The first hop of a route leaves when the producer's result is ready. -/
theorem StagedMapping.Verified.first_hop {staged : StagedMapping}
    (h : staged.Verified dfg target) {edge : TargetEdge} (hedge : edge ∈ dfg.edges)
    (hkind : edge.kind ≠ .memory) {dependence : MappedDependence}
    (hdependence : staged.modulo.dependence edge.id = .ok dependence) {plan : TransportPlan}
    (hplan : dependence.transport = some plan) {link : LinkStep}
    (hlink : plan.actions[0]? = some (.linkStep link)) :
    ∃ producer, dfg.findNode edge.src = some producer ∧
      producer.producerOutputReadyOffset = some link.elapsedFromProducerIssue := by
  obtain ⟨table, -, hrealized⟩ := h.modulo.reserved
  obtain ⟨dependence', hd⟩ := hrealized edge hedge
  rw [ModuloMapping.dependence_of_entries hd.entries, Except.ok.injEq] at hdependence
  subst hdependence
  obtain ⟨producer, ready, src, dst, plan', route, hproducer, hready, hplan', -, hrouted⟩ :=
    hd.value hkind
  obtain rfl : plan = plan' := Option.some.inj (hplan.symm.trans hplan')
  have hchain := hrouted.chain 0
  obtain ⟨first, rest, hactions⟩ := List.exists_cons_of_ne_nil hrouted.nonempty
  rw [hactions, List.getElem?_cons_zero, Option.some.injEq] at hlink
  rw [hactions, hlink] at hchain
  cases hchain with
  | link hsource hlaunch hneighbor hrest =>
    refine ⟨producer, hproducer, hready.trans ?_⟩
    rw [Option.some.injEq]
    omega

/-- **The kernel launches no boundary value**: the first hop of a route has a producer iteration
that runs. -/
theorem MaterializedScheduleVerifier.Accepted.first_hop_nonneg
    (h : Accepted dfg target mapping request schedule) {item : ℕ × MaterializedEvent}
    (hitem : item ∈ schedule.kernelEvents) {edge : TargetEdge} {dependence : MappedDependence}
    {plan : TransportPlan} {link : LinkStep} {time : ℕ}
    (hlaunch : Launch dfg mapping request schedule item.2 item.1 edge dependence plan 0 link time) :
    0 ≤ item.2.logicalIteration := by
  by_contra! hneg
  obtain ⟨producer, hproducer, hready⟩ := h.allocated.staged.first_hop hlaunch.mem hlaunch.kind
    hlaunch.dependence_eq hlaunch.transport_eq hlaunch.link_eq
  -- the injection of the same iteration would fall into the same cycle
  obtain ⟨offset, hoffset⟩ : ∃ offset : ℕ, (offset : ℤ) = item.2.logicalIteration + edge.distance :=
    ⟨(item.2.logicalIteration + edge.distance).toNat, by have := hlaunch.first_le; omega⟩
  have hlt : offset < min request.tripCount edge.distance := by
    have := hlaunch.le_last
    omega
  have hinject : OccursAt dfg mapping request.tripCount schedule.timeOriginShift
      (.boundaryValueInject edge.id offset) _ :=
    OccursAt.boundaryValueInject hlaunch.mem hlaunch.kind hlt hproducer hlaunch.time_eq
  have hoffset' : (offset : ℤ) - edge.distance = item.2.logicalIteration := by omega
  have hcycle := hlaunch.cycle_eq
  have hbounds := h.kernel_cycle hitem
  rw [hready, hoffset'] at hinject
  have hsame : (schedule.timeOriginShift : ℤ) + time
      + item.2.logicalIteration * mapping.staged.modulo.ii + link.elapsedFromProducerIssue
      = item.1 := by
    rw [hcycle]
    push_cast
    ring
  rw [Option.getD_some, hsame] at hinject
  have := h.not_inject_in_kernel (repeatCount_ne_zero h.shape hitem) hinject
  omega

end Accepted

/-! ## What the materializer puts into the kernel -/

namespace ScheduleMaterializer

variable {dfg : TargetDFG} {mapping : RFAllocatedMapping}
variable {request : ScheduleMaterializationRequest}

theorem accessStream_event {edge : TargetEdge} {segment : StorageSegment} {write : Bool}
    {distanceTime : ℤ} {stream : PeriodicStream}
    (h : accessStream mapping request edge segment write distanceTime = .ok stream) :
    stream.event.kind = (if write then .rfWrite else .rfRead) ∧
      stream.event.segment = some segment.id := by
  unfold accessStream at h
  obtain ⟨base, -, h⟩ := bind_eq_ok.mp h
  cases hallocation : mapping.allocationFor segment.id with
  | none =>
    rw [hallocation] at h
    cases h
  | some allocation =>
    rw [hallocation] at h
    obtain ⟨allocation, -, h⟩ := bind_eq_ok.mp h
    obtain ⟨last, -, h⟩ := bind_eq_ok.mp h
    simp only [pure, Except.pure, Except.ok.injEq] at h
    subst h
    exact ⟨rfl, rfl⟩

/-- Every segment has a stream of writes. -/
theorem exists_writeStream {all : List PeriodicStream × List OneShot}
    (h : events dfg mapping request = .ok all) {segment : StorageSegment}
    (hmem : segment ∈ mapping.storageRequirements.segments) :
    ∃ stream ∈ all.1, stream.event.kind = .rfWrite ∧ stream.event.segment = some segment.id := by
  unfold events at h
  obtain ⟨nodes, -, h⟩ := bind_eq_ok.mp h
  obtain ⟨edges, -, h⟩ := bind_eq_ok.mp h
  obtain ⟨segments, hsegments, h⟩ := bind_eq_ok.mp h
  obtain ⟨liveOuts, -, h⟩ := bind_eq_ok.mp h
  obtain ⟨streams, hstreams, hsegment⟩ := exists_result_of_mem hsegments hmem
  unfold segmentStreams at hsegment
  split at hsegment
  · cases hsegment
  split at hsegment
  · cases hsegment
  obtain ⟨distanceTime, -, hsegment⟩ := bind_eq_ok.mp hsegment
  obtain ⟨write, hwrite, hsegment⟩ := bind_eq_ok.mp hsegment
  obtain ⟨read, -, hsegment⟩ := bind_eq_ok.mp hsegment
  simp only [pure, Except.pure, Except.ok.injEq] at h hsegment
  subst h hsegment
  refine ⟨write, ?_, accessStream_event hwrite⟩
  exact List.mem_append_right _ (List.mem_flatten.mpr ⟨_, hstreams, List.mem_cons_self⟩)

theorem exists_timed {α : Type} {time : α → ℤ} {message : String} {shift : ℤ} {items : List α}
    {timed : List (Timed α)} (h : shiftAll time message shift items = .ok timed) {item : α}
    (hmem : item ∈ items) : ∃ t ∈ timed, t.item = item := by
  obtain ⟨t, ht, hitem⟩ := exists_result_of_mem h hmem
  obtain ⟨cycle, -, hitem⟩ := bind_eq_ok.mp hitem
  obtain ⟨signed, -, hitem⟩ := bind_eq_ok.mp hitem
  simp only [pure, Except.pure, Except.ok.injEq] at hitem
  exact ⟨t, ht, by rw [← hitem]⟩

theorem kernelEvent_eq_ok {layout : PhaseLayout} (hkernel : layout.hasKernel = true)
    {stream : Timed PeriodicStream} {body : List (ℕ × MaterializedEvent)}
    (h : kernelEvent layout stream = .ok body) :
    ∃ cycle iteration, body = [(cycle % layout.ii,
      { stream.item.event with logicalIteration := iteration })] := by
  unfold kernelEvent at h
  rw [if_pos hkernel] at h
  simp only at h
  split at h
  · cases h
  · obtain ⟨cycle, -, h⟩ := bind_eq_ok.mp h
    simp only [pure, Except.pure, Except.ok.injEq] at h
    exact ⟨cycle, _, h.symm⟩

/-- Every stream has an event in the body. -/
theorem exists_kernelEvent {layout : PhaseLayout} (hkernel : layout.hasKernel = true)
    {budget planned : ℕ} {streams : List (Timed PeriodicStream)}
    {placed : List (ℕ × MaterializedEvent) × List (ℕ × MaterializedEvent)}
    (h : placeStreams layout budget planned streams = .ok placed) {stream : Timed PeriodicStream}
    (hmem : stream ∈ streams) :
    ∃ cycle iteration, (cycle % layout.ii,
      { stream.item.event with logicalIteration := iteration }) ∈ placed.1 := by
  induction streams generalizing planned placed with
  | nil => exact absurd hmem List.not_mem_nil
  | cons first streams ih =>
    rw [placeStreams] at h
    obtain ⟨body, hbody, h⟩ := bind_eq_ok.mp h
    obtain ⟨outside, -, h⟩ := bind_eq_ok.mp h
    split at h
    · cases h
    split at h
    · cases h
    obtain ⟨before, -, h⟩ := bind_eq_ok.mp h
    obtain ⟨after, -, h⟩ := bind_eq_ok.mp h
    obtain ⟨rest, hrest, h⟩ := bind_eq_ok.mp h
    simp only [pure, Except.pure, Except.ok.injEq] at h
    subst h
    rcases List.mem_cons.mp hmem with rfl | hmem
    · obtain ⟨cycle, iteration, rfl⟩ := kernelEvent_eq_ok hkernel hbody
      exact ⟨cycle, iteration, List.mem_append_left _ (List.mem_singleton_self _)⟩
    · obtain ⟨cycle, iteration, hplaced⟩ := ih hrest hmem
      exact ⟨cycle, iteration, List.mem_append_right _ hplaced⟩

/-- A placed event is in the cycle it was placed in. -/
theorem mem_timed_bundles {base count : ℕ} {placed : List (ℕ × MaterializedEvent)} {cycle : ℕ}
    {event : MaterializedEvent} (hcycle : cycle < count) (hmem : (cycle, event) ∈ placed) :
    (base + cycle, event) ∈ timed base (bundles 0 count placed) := by
  have hget : (List.range' 0 count)[base + cycle - base]? = some cycle := by
    rw [Nat.add_sub_cancel_left, List.getElem?_range' hcycle, Nat.zero_add, Nat.one_mul]
  rw [mem_timed_iff, bundles, List.getElem?_map, hget]
  refine ⟨_, rfl, Nat.le_add_right _ _, ?_⟩
  rw [List.mem_insertionSort, List.mem_map]
  exact ⟨_, List.mem_filter.mpr ⟨hmem, beq_self_eq_true _⟩, rfl⟩

theorem layoutOf_eq_ok {ii totalCycles : ℕ} {hasStreams : Bool} {window : ℕ × ℕ}
    {layout : PhaseLayout} (h : layoutOf ii totalCycles hasStreams window = .ok layout) :
    layout.ii = ii ∧ (layout.kernelRepeatCount ≠ 0 → layout.hasKernel = true) := by
  unfold layoutOf at h
  split at h
  · obtain ⟨repeatCount, -, h⟩ := bind_eq_ok.mp h
    obtain ⟨kernelStart, -, h⟩ := bind_eq_ok.mp h
    obtain ⟨kernelEnd, -, h⟩ := bind_eq_ok.mp h
    simp only [pure, Except.pure, Except.ok.injEq] at h
    subst h
    exact ⟨rfl, fun _ ↦ rfl⟩
  · rw [Except.ok.injEq] at h
    subst h
    exact ⟨rfl, fun h ↦ absurd rfl h⟩

/-- **Every segment is written in the kernel**, if there is one. -/
theorem exists_kernel_write {schedule : MaterializedSchedule}
    (h : build dfg mapping request = .ok schedule) (hii : 0 < mapping.staged.modulo.ii)
    (hrepeat : schedule.kernel.repeatCount ≠ 0) {segment : StorageSegment}
    (hmem : segment ∈ mapping.storageRequirements.segments) :
    ∃ item ∈ schedule.kernelEvents, item.2.kind = .rfWrite ∧ item.2.segment = some segment.id := by
  unfold build at h
  obtain ⟨all, hall, h⟩ := bind_eq_ok.mp h
  split at h
  · cases h
  obtain ⟨origin, -, h⟩ := bind_eq_ok.mp h
  obtain ⟨streams, hstreams, h⟩ := bind_eq_ok.mp h
  obtain ⟨shots, -, h⟩ := bind_eq_ok.mp h
  obtain ⟨window, -, h⟩ := bind_eq_ok.mp h
  obtain ⟨layout, hlayout, h⟩ := bind_eq_ok.mp h
  split at h
  · cases h
  obtain ⟨_, -, h⟩ := bind_eq_ok.mp h
  obtain ⟨_, -, h⟩ := bind_eq_ok.mp h
  obtain ⟨placed, hplaced, h⟩ := bind_eq_ok.mp h
  obtain ⟨once, -, h⟩ := bind_eq_ok.mp h
  simp only [pure, Except.pure, Except.ok.injEq] at h
  subst h
  obtain ⟨hlayoutII, hkernel⟩ := layoutOf_eq_ok hlayout
  have hkernel := hkernel hrepeat
  obtain ⟨stream, hstream, hkind, hsegment⟩ := exists_writeStream hall hmem
  obtain ⟨t, ht, rfl⟩ := exists_timed hstreams hstream
  obtain ⟨cycle, iteration, hbody⟩ := exists_kernelEvent hkernel hplaced ht
  rw [hlayoutII] at hbody
  have hitem : (layout.prologueCycles + cycle % mapping.staged.modulo.ii, _)
      ∈ timed layout.prologueCycles _ := mem_timed_bundles (Nat.mod_lt cycle hii) hbody
  refine ⟨(layout.prologueCycles + cycle % mapping.staged.modulo.ii,
    { t.item.event with logicalIteration := iteration }), ?_, hkind, hsegment⟩
  rw [MaterializedSchedule.kernelEvents, if_pos hkernel]
  simpa [bundles] using hitem

end ScheduleMaterializer

/-! ## What lowering reads of an iteration -/

namespace Lowerer

variable {dfg : TargetDFG} {target : TargetModel} {mapping : RFAllocatedMapping}
variable {image : ConstantImage} {edge : TargetEdge}

theorem boundaryProvider_of_nonneg {i : ℤ} (h : 0 ≤ i) :
    boundaryProvider dfg image edge i = .ok none := by
  rw [boundaryProvider, boundaryConstantFor, if_pos (Or.inl h)]
  rfl

/-- A producer that has not run is never taken for one that has. -/
theorem boundaryProvider_ne_none {i : ℤ} (hneg : i < 0) (hdistance : edge.distance ≠ 0) :
    boundaryProvider dfg image edge i ≠ .ok none := by
  intro h
  obtain ⟨constant?, hconstant, h⟩ := bind_eq_ok.mp h
  cases constant? with
  | some id =>
    obtain ⟨address, -, h⟩ := bind_eq_ok.mp h
    cases h
  | none =>
    unfold boundaryConstantFor at hconstant
    rw [if_neg (by omega)] at hconstant
    simp only at hconstant
    split at hconstant
    · cases hconstant
    split at hconstant <;> cases hconstant

/-- How looking for a boundary constant can fail. -/
theorem boundaryProvider_status {i : ℤ} {error : LoweringError}
    (h : boundaryProvider dfg image edge i = .error error) :
    error.status ≠ .unsupportedOperationLowering := by
  unfold boundaryProvider at h
  cases hconstant : boundaryConstantFor edge i with
  | error e =>
    rw [hconstant] at h
    obtain rfl : e = error := Except.error.inj h
    unfold boundaryConstantFor at hconstant
    split at hconstant
    · cases hconstant
    simp only at hconstant
    split at hconstant
    · obtain rfl := Except.error.inj hconstant
      simp
    split at hconstant
    · obtain rfl := Except.error.inj hconstant
      simp
    · obtain rfl := Except.error.inj hconstant
      simp
    · cases hconstant
  | ok constant? =>
    rw [hconstant] at h
    cases constant? with
    | none => cases h
    | some id =>
      change (image.address id >>= fun address ↦ pure (some (address, _))) = _ at h
      unfold ConstantImage.address at h
      split at h
      · obtain rfl := Except.error.inj h
        simp
      · cases h

/-- A list of calls is not empty and does not begin with a constant address. -/
def StartsWithWrite (lowered : Lowered) : Prop :=
  ∃ call rest, lowered.calls = call :: rest ∧ ∀ address, call ≠ .constant address

theorem StartsWithWrite.ne_fail {lowered : Lowered} (h : StartsWithWrite lowered)
    (error : LoweringError) : lowered ≠ Lowered.fail error := by
  rintro rfl
  obtain ⟨call, rest, hcalls, -⟩ := h
  cases hcalls

theorem StartsWithWrite.ne_constant {lowered : Lowered} (h : StartsWithWrite lowered) (address : ℕ)
    (rest : Lowered) : lowered ≠ Lowered.call (.constant address) rest := by
  rintro rfl
  obtain ⟨call, rest', hcalls, hne⟩ := h
  exact hne address (List.cons.inj hcalls).1.symm

theorem call_ne_fail (call : BuilderCall) (rest : Lowered) (error : LoweringError) :
    Lowered.call call rest ≠ Lowered.fail error := by
  intro h
  cases congrArg Lowered.calls h

theorem call_injective (call call' : BuilderCall) (rest rest' : Lowered)
    (h : Lowered.call call rest = Lowered.call call' rest') : call = call' ∧ rest = rest' := by
  obtain ⟨hcalls, herror⟩ := Lowered.mk.inj h
  obtain ⟨hcall, hrest⟩ := List.cons.inj hcalls
  exact ⟨hcall, Lowered.ext hrest herror⟩

theorem fail_injective : Function.Injective Lowered.fail := by
  intro error error' h
  exact Option.some.inj (congrArg Lowered.error h)

/-- Going on with a result shows the result, if going on makes a call that shows it. -/
theorem bind_injective {rest : String → Lowered} (hrest : ∀ s, StartsWithWrite (rest s))
    (hinjective : Function.Injective rest) :
    Function.Injective fun result : Except LoweringError String ↦ Lowered.bind result rest := by
  intro result result' h
  cases result with
  | error error =>
    cases result' with
    | error error' => rw [fail_injective h]
    | ok source' => exact absurd h.symm ((hrest source').ne_fail error)
  | ok source =>
    cases result' with
    | error error' => exact absurd h ((hrest source).ne_fail error')
    | ok source' => rw [hinjective h]

/-- Lowering from the producer shows which provider it found, if what follows shows its source. -/
theorem boundaryProvider_eq_of_lowerFromProducer {i j : ℤ}
    {fallback : Except LoweringError String} {rest : Bool → String → Lowered}
    (hrest : ∀ b s, StartsWithWrite (rest b s)) (hinjective : ∀ b, Function.Injective (rest b))
    (hfallback : ∀ error, fallback = .error error → error.status = .unsupportedOperationLowering)
    (h : lowerFromProducer dfg image edge i fallback rest
      = lowerFromProducer dfg image edge j fallback rest) :
    boundaryProvider dfg image edge i = boundaryProvider dfg image edge j := by
  have hfail : ∀ i error, boundaryProvider dfg image edge i = .error error →
      Lowered.bind fallback (rest false) ≠ Lowered.fail error := by
    intro i error hprovider hsame
    cases hresult : fallback with
    | error error' =>
      rw [hresult] at hsame
      rw [← fail_injective hsame] at hprovider
      exact boundaryProvider_status hprovider (hfallback error' hresult)
    | ok source =>
      rw [hresult] at hsame
      exact (hrest false source).ne_fail error hsame
  have hconstant : ∀ address lowered,
      Lowered.bind fallback (rest false) ≠ Lowered.call (.constant address) lowered := by
    intro address lowered
    cases fallback with
    | error error => exact (call_ne_fail _ _ _).symm
    | ok source => exact (hrest false source).ne_constant address lowered
  -- a failure, no provider and a provider make different first calls
  unfold lowerFromProducer at h
  cases hi : boundaryProvider dfg image edge i with
  | error error =>
    rw [hi] at h
    cases hj : boundaryProvider dfg image edge j with
    | error error' =>
      rw [hj] at h
      rw [fail_injective h]
    | ok boundary? =>
      rw [hj] at h
      cases boundary? with
      | none => exact absurd h.symm (hfail i error hi)
      | some boundary => exact absurd h.symm (call_ne_fail _ _ _)
  | ok boundary? =>
    rw [hi] at h
    cases hj : boundaryProvider dfg image edge j with
    | error error' =>
      rw [hj] at h
      cases boundary? with
      | none => exact absurd h (hfail j error' hj)
      | some boundary => exact absurd h (call_ne_fail _ _ _)
    | ok boundary?' =>
      rw [hj] at h
      cases boundary? with
      | none =>
        cases boundary?' with
        | none => rfl
        | some boundary' => exact absurd h (hconstant _ _)
      | some boundary =>
        cases boundary?' with
        | none => exact absurd h.symm (hconstant _ _)
        | some boundary' =>
          obtain ⟨haddress, hbind⟩ := call_injective _ _ _ _ h
          have hsource := bind_injective (hrest true) (hinjective true) hbind
          rw [Prod.ext (BuilderCall.constant.inj haddress) hsource]

/-- What remains to be done for a write when its source is known. -/
def writeCall (segment : StorageSegment) (allocation : StorageAllocation)
    (isBoundaryInstance : Bool)
    (source : String) : Lowered :=
  let port := if isBoundaryInstance then
    allocation.boundaryWritePort.getD allocation.writePort else allocation.writePort
  if segment.domain = .data then
    Lowered.call (.dataWrite port allocation.reg.index source) Lowered.nothing
  else Lowered.call (.predicateWrite port allocation.reg.index source) Lowered.nothing

theorem writeCall_startsWithWrite (segment : StorageSegment) (allocation : StorageAllocation)
    (b : Bool) (source : String) : StartsWithWrite (writeCall segment allocation b source) := by
  by_cases hdomain : segment.domain = .data
  · simp only [writeCall, if_pos hdomain]
    exact ⟨_, _, rfl, fun address h ↦ BuilderCall.noConfusion h⟩
  · simp only [writeCall, if_neg hdomain]
    exact ⟨_, _, rfl, fun address h ↦ BuilderCall.noConfusion h⟩

theorem writeCall_injective (segment : StorageSegment) (allocation : StorageAllocation) (b : Bool) :
    Function.Injective (writeCall segment allocation b) := by
  intro source source' h
  by_cases hdomain : segment.domain = .data
  · simpa [writeCall, hdomain, Lowered.call, Lowered.nothing] using h
  · simpa [writeCall, hdomain, Lowered.call, Lowered.nothing] using h

section Verified

variable {request : ScheduleMaterializationRequest} {schedule : MaterializedSchedule}

/-- The result of a producer is missing only if its operation has none. -/
theorem producerSource_status (hv : dfg.Verified target) (hedge : edge ∈ dfg.edges)
    {error : LoweringError} (h : producerSource dfg target edge = .error error) :
    error.status = .unsupportedOperationLowering := by
  obtain ⟨node, -, hnode, -⟩ := hv.endpoints edge hedge
  obtain ⟨operation, hagrees⟩ := hv.agrees node (TargetDFG.mem_of_findNode hnode)
  rw [producerSource, hnode] at h
  simp only [hagrees.found] at h
  unfold resultSource at h
  split at h
  · cases h
  · cases h
  · cases h
  · obtain rfl := Except.error.inj h
    rfl

theorem writeSource_status (hv : mapping.Verified dfg target) (hedge : edge ∈ dfg.edges)
    {segment : StorageSegment} {error : LoweringError}
    (h : writeSource dfg target mapping edge segment = .error error) :
    error.status = .unsupportedOperationLowering := by
  obtain ⟨src, dst, dependence, -, -, hdependence, -⟩ := hv.staged.constraints edge hedge
  rw [writeSource, hdependence] at h
  simp only [ofString, bind, Except.bind] at h
  split at h
  · split at h
    · cases h
    · exact producerSource_status hv.staged.modulo.graph hedge h
  · split at h
    · cases h
    · exact producerSource_status hv.staged.modulo.graph hedge h

/-- A checked write is lowered from its producer or from a boundary constant. -/
theorem calls_rfWrite (hv : dfg.Verified target) {event : MaterializedEvent} {cycle : ℕ}
    {segment : StorageSegment} {allocation : StorageAllocation} (hkind : event.kind = .rfWrite)
    (haccess : Access dfg mapping request schedule event cycle segment edge allocation) :
    calls dfg target mapping image event
      = lowerFromProducer dfg image edge event.logicalIteration
        (writeSource dfg target mapping edge segment) (writeCall segment allocation) := by
  have hfound := hv.findEdge_of_mem haccess.mem
  rw [haccess.edge_id] at hfound
  unfold calls
  simp only [hkind]
  rw [if_neg (by simp [haccess.tile_eq])]
  unfold lowerRFWrite
  simp only [haccess.segment_eq, haccess.register_eq, haccess.edge_eq, haccess.found, hfound]
  congr 1
  funext isBoundaryInstance source
  rw [allocationFor, haccess.allocation_eq]
  rfl

end Verified

/-! ## Uniform kernels -/

/-- What lowering asks of the builders for a kernel event in repetition `k`. -/
def lowerRepetition (dfg : TargetDFG) (target : TargetModel) (mapping : RFAllocatedMapping)
    (image : ConstantImage) (event : MaterializedEvent) (k : ℕ) : Except LoweringError Lowered :=
  (resolve mapping (event.advance k)).map (calls dfg target mapping image)

/-- Every event of the kernel body asks for the same control fields in every repetition: those it
asks for in the first, which are the ones that are encoded. -/
def KernelUniform (dfg : TargetDFG) (target : TargetModel) (mapping : RFAllocatedMapping)
    (image : ConstantImage) (schedule : MaterializedSchedule) : Prop :=
  ∀ bundle ∈ schedule.kernel.body, ∀ event ∈ bundle.events, ∀ k < schedule.kernel.repeatCount,
    lowerRepetition dfg target mapping image event k
      = lowerRepetition dfg target mapping image event 0

/-- The writes of a segment are seeded alike: iteration zero is written no later than in the first
repetition; or there is one repetition only; or iteration zero is written after the last one, and
the writes before it, one in each repetition, all find the same boundary constant. -/
def SeededAlike (dfg : TargetDFG) (image : ConstantImage) (schedule : MaterializedSchedule)
    (edge : TargetEdge) (segment : StorageSegment) : Prop :=
  let start := schedule.prologue.cycles.length
  let write := schedule.timeOriginShift + segment.writeTime
  let ahead := (write - start) / schedule.ii
  write < start + schedule.ii ∨ schedule.kernel.repeatCount = 1 ∨
    (start + schedule.kernel.repeatCount * schedule.ii ≤ write ∧
      ∀ k < schedule.kernel.repeatCount, boundaryProvider dfg image edge (k - ahead)
        = boundaryProvider dfg image edge (-ahead))

section Uniform

variable {request : ScheduleMaterializationRequest} {schedule : MaterializedSchedule}

theorem mem_kernelEvents_of_mem {bundle : CycleBundle} (hbundle : bundle ∈ schedule.kernel.body)
    {event : MaterializedEvent} (hevent : event ∈ bundle.events) :
    ∃ cycle, (cycle, event) ∈ schedule.kernelEvents := by
  obtain ⟨index, hindex⟩ := List.mem_iff_getElem?.mp hbundle
  refine ⟨schedule.prologue.cycles.length + index, mem_timed_iff.mpr ⟨bundle, ?_, ?_, hevent⟩⟩
  · simpa using hindex
  · exact Nat.le_add_right _ _

/-- Where the first repetition stands: iteration zero of a write is in it or before it exactly if
the iteration of the event is not negative. -/
theorem kernel_write_iteration (h : Accepted dfg target mapping request schedule)
    {item : ℕ × MaterializedEvent} (hitem : item ∈ schedule.kernelEvents)
    (hkind : item.2.kind = .rfWrite) {segment : StorageSegment} {allocation : StorageAllocation}
    (haccess : Access dfg mapping request schedule item.2 item.1 segment edge allocation) :
    (0 ≤ item.2.logicalIteration ∧ schedule.timeOriginShift + segment.writeTime
        < schedule.prologue.cycles.length + schedule.ii) ∨
      ∃ ahead : ℕ, 0 < ahead ∧ item.2.logicalIteration = -ahead ∧
        (schedule.timeOriginShift + segment.writeTime - schedule.prologue.cycles.length)
          / schedule.ii = ahead ∧
        schedule.prologue.cycles.length + ahead * schedule.ii
          ≤ schedule.timeOriginShift + segment.writeTime ∧
        schedule.timeOriginShift + segment.writeTime
          < schedule.prologue.cycles.length + (ahead + 1) * schedule.ii := by
  have hii : 0 < schedule.ii := h.ii_eq ▸ h.allocated.staged.ii_pos
  have hbounds := h.kernel_cycle hitem
  have hcycle := haccess.cycle_eq
  rw [hkind, if_pos rfl, ← h.ii_eq] at hcycle
  rcases le_or_gt 0 item.2.logicalIteration with hnonneg | hneg
  · left
    have : 0 ≤ item.2.logicalIteration * schedule.ii := by positivity
    exact ⟨hnonneg, by omega⟩
  · right
    obtain ⟨ahead, hahead⟩ : ∃ ahead : ℕ, item.2.logicalIteration = -ahead :=
      ⟨item.2.logicalIteration.natAbs, by omega⟩
    rw [hahead] at hcycle
    have hwrite : schedule.timeOriginShift + segment.writeTime = item.1 + ahead * schedule.ii := by
      zify
      linarith
    have hsplit : schedule.timeOriginShift + segment.writeTime - schedule.prologue.cycles.length
        = item.1 - schedule.prologue.cycles.length + schedule.ii * ahead := by
      rw [hwrite, mul_comm]
      omega
    refine ⟨ahead, by omega, hahead, ?_, ?_, ?_⟩
    · rw [hsplit, Nat.add_mul_div_left _ _ hii, Nat.div_eq_of_lt (by omega), Nat.zero_add]
    · omega
    · rw [add_mul]
      omega

/-- A first hop and a write are lowered alike in two iterations that have the same provider. -/
theorem lowerFromProducer_congr {i j : ℤ} {fallback : Except LoweringError String}
    {rest : Bool → String → Lowered}
    (h : boundaryProvider dfg image edge i = boundaryProvider dfg image edge j) :
    lowerFromProducer dfg image edge i fallback rest
      = lowerFromProducer dfg image edge j fallback rest := by
  rw [lowerFromProducer, lowerFromProducer, h]

/-- Later hops do not look at the iteration, and the first hop of a kernel event has a producer. -/
theorem calls_linkLaunch_advance (h : Accepted dfg target mapping request schedule)
    {item : ℕ × MaterializedEvent} (hitem : item ∈ schedule.kernelEvents)
    (hkind : item.2.kind = .linkLaunch) {dependence : MappedDependence} {plan : TransportPlan}
    {action : ℕ} {link : LinkStep} {time : ℕ}
    (hlaunch : Launch dfg mapping request schedule item.2 item.1 edge dependence plan action link
      time) (k : ℕ) :
    calls dfg target mapping image (item.2.advance k) = calls dfg target mapping image item.2 := by
  unfold calls MaterializedEvent.advance
  simp only [hkind]
  split
  · rfl
  unfold lowerLinkLaunch
  simp only
  split
  · rename_i edgeId direction domain index hedge hdirection hdomain hindex
    obtain rfl : edge.id = edgeId := Option.some.inj (hlaunch.edge_eq.symm.trans hedge)
    obtain rfl : action = index := Option.some.inj (hlaunch.action_eq.symm.trans hindex)
    simp only [h.graph.findEdge_of_mem hlaunch.mem, if_neg hlaunch.kind, hlaunch.dependence_eq,
      ofString, Lowered.bind, hlaunch.transport_eq]
    split
    · rfl
    split
    · rename_i hzero
      subst hzero
      have hnonneg := h.first_hop_nonneg hitem hlaunch
      refine lowerFromProducer_congr ?_
      rw [boundaryProvider_of_nonneg hnonneg, boundaryProvider_of_nonneg (by omega)]
    · rfl
  · rfl

/-- Repetition `k` of a checked write. -/
theorem Access.advance {event : MaterializedEvent} {cycle : ℕ} {segment : StorageSegment}
    {allocation : StorageAllocation} (hii : schedule.ii = mapping.staged.modulo.ii)
    (h : Access dfg mapping request schedule event cycle segment edge allocation) (k : ℕ) :
    Access dfg mapping request schedule (event.advance k) (cycle + k * schedule.ii) segment edge
      allocation := by
  refine ⟨h.found, h.mem, h.edge_id, h.segment_eq, h.edge_eq, h.allocation_eq, h.register_eq,
    h.tile_eq, ?_, ?_⟩
  · change ((cycle + k * schedule.ii : ℕ) : ℤ) = schedule.timeOriginShift
      + (if event.kind = .rfWrite then segment.writeTime else segment.readTime : ℕ)
      + (event.logicalIteration + k) * mapping.staged.modulo.ii
    rw [Nat.cast_add, Nat.cast_mul, h.cycle_eq, hii]
    ring
  · have := h.first_le
    simp only [MaterializedEvent.advance]
    omega

/-- The repetitions of a write are lowered alike if and only if they have the same provider. -/
theorem calls_rfWrite_advance_iff (h : Accepted dfg target mapping request schedule)
    {item : ℕ × MaterializedEvent} (hkind : item.2.kind = .rfWrite) {segment : StorageSegment}
    {allocation : StorageAllocation}
    (haccess : Access dfg mapping request schedule item.2 item.1 segment edge allocation) (k : ℕ) :
    calls dfg target mapping image (item.2.advance k) = calls dfg target mapping image item.2 ↔
      boundaryProvider dfg image edge (item.2.logicalIteration + k)
        = boundaryProvider dfg image edge item.2.logicalIteration := by
  have hkind' : (item.2.advance k).kind = .rfWrite := hkind
  rw [calls_rfWrite h.graph hkind haccess,
    calls_rfWrite h.graph hkind' (Access.advance h.ii_eq haccess k)]
  constructor
  · exact boundaryProvider_eq_of_lowerFromProducer (writeCall_startsWithWrite segment allocation)
      (writeCall_injective segment allocation)
      fun error ↦ writeSource_status h.allocated haccess.mem
  · exact lowerFromProducer_congr

/-- The repetitions of a write have the same provider if and only if the segment is seeded alike. -/
theorem provider_uniform_iff (h : Accepted dfg target mapping request schedule)
    {item : ℕ × MaterializedEvent} (hitem : item ∈ schedule.kernelEvents)
    (hkind : item.2.kind = .rfWrite) {segment : StorageSegment} {allocation : StorageAllocation}
    (haccess : Access dfg mapping request schedule item.2 item.1 segment edge allocation) :
    (∀ k < schedule.kernel.repeatCount,
      boundaryProvider dfg image edge (item.2.logicalIteration + k)
        = boundaryProvider dfg image edge item.2.logicalIteration) ↔
      SeededAlike dfg image schedule edge segment := by
  have hrepeat := repeatCount_ne_zero h.shape hitem
  unfold SeededAlike
  rcases kernel_write_iteration h hitem hkind haccess with
    ⟨hnonneg, hwrite⟩ | ⟨ahead, hpos, hiteration, hdiv, hle, hlt⟩
  · refine ⟨fun _ ↦ Or.inl hwrite, fun _ k _ ↦ ?_⟩
    rw [boundaryProvider_of_nonneg hnonneg, boundaryProvider_of_nonneg (by omega)]
  · have hdistance : edge.distance ≠ 0 := by
      have := haccess.first_le
      omega
    simp only [hdiv, hiteration]
    constructor
    · intro huniform
      refine Or.inr ((eq_or_ne schedule.kernel.repeatCount 1).imp_right fun hne ↦ ⟨?_, ?_⟩)
      · -- otherwise iteration zero is written in a later repetition, and not from a constant
        by_contra! hlast
        have hahead : ahead < schedule.kernel.repeatCount := by
          by_contra! hge
          have := Nat.mul_le_mul_right schedule.ii hge
          omega
        have hzero := huniform ahead hahead
        rw [boundaryProvider_of_nonneg (by omega)] at hzero
        exact boundaryProvider_ne_none (by omega) hdistance hzero.symm
      · intro k hk
        rw [← huniform k hk]
        congr 1
        ring
    · rintro (hwrite | hone | ⟨-, huniform⟩) k hk
      · have : schedule.ii ≤ ahead * schedule.ii := Nat.le_mul_of_pos_left _ hpos
        omega
      · obtain rfl : k = 0 := by omega
        simp
      · rw [← huniform k hk]
        congr 1
        ring

theorem lowerRepetition_of_ne_nodeIssue {event : MaterializedEvent} (h : event.kind ≠ .nodeIssue)
    (k : ℕ) : lowerRepetition dfg target mapping image event k
      = .ok (calls dfg target mapping image (event.advance k)) := by
  unfold lowerRepetition resolve MaterializedEvent.advance
  simp only
  split
  · rename_i hkind _ _
    exact absurd hkind h
  · rfl

/-- A node issue does not look at the iteration. -/
theorem lowerRepetition_nodeIssue {event : MaterializedEvent} (h : event.kind = .nodeIssue)
    (k : ℕ) :
    lowerRepetition dfg target mapping image event k
      = lowerRepetition dfg target mapping image event 0 := by
  unfold lowerRepetition resolve MaterializedEvent.advance
  simp only [h]
  split
  · split
    · rfl
    · simp only [Except.map, calls]
      rfl
  · simp only [Except.map, calls]
    rfl

end Uniform

/-- **When the kernel is uniform.** A kernel event asks for the same fields in every repetition if
and only if every storage segment of the mapping is seeded alike. -/
theorem kernelUniform_iff (dfg : TargetDFG) (target : TargetModel) (mapping : RFAllocatedMapping)
    (request : ScheduleMaterializationRequest) (schedule : MaterializedSchedule)
    (image : ConstantImage)
    (h : ScheduleMaterializer.materialize dfg target mapping request = .ok (.ok schedule))
    (hrepeat : 1 ≤ schedule.kernel.repeatCount) :
    KernelUniform dfg target mapping image schedule ↔
      ∀ segment ∈ mapping.storageRequirements.segments, ∀ edge ∈ dfg.edges,
        edge.id = segment.edge → SeededAlike dfg image schedule edge segment := by
  obtain ⟨hbuild, hverify⟩ := ScheduleMaterializer.materialize_eq_ok h
  have haccepted := accepted_of_verify hverify
  have hids := StorageRequirementAnalysis.nodup_ids haccepted.allocated.requirements
  constructor
  · intro huniform segment hsegment edge hedge hid
    obtain ⟨item, hitem, hkind, hitemSegment⟩ := ScheduleMaterializer.exists_kernel_write hbuild
      haccepted.allocated.staged.ii_pos (by omega) hsegment
    obtain ⟨-, -, recorded, hperiodic⟩ := haccepted.kernel_checked hitem
    simp only [verifyPeriodic, hkind, Except.ok.injEq] at hperiodic
    obtain ⟨-, segment', edge', allocation, haccess⟩ :=
      verifyRFAccess_clean haccepted.ii_eq hperiodic
    -- the checked access is an access of this segment
    have hsame : segment'.id = segment.id :=
      Option.some.inj (haccess.segment_eq.symm.trans hitemSegment)
    obtain rfl := List.inj_on_of_nodup_map hids haccess.segment_mem hsegment hsame
    obtain rfl := haccepted.graph.edge_eq_of_id_eq haccess.mem hedge
      (haccess.edge_id.trans hid.symm)
    rw [← provider_uniform_iff haccepted hitem hkind haccess]
    intro k hk
    rw [← calls_rfWrite_advance_iff haccepted hkind haccess k]
    obtain ⟨bundle, hbundle, -, hevent⟩ := mem_timed_iff.mp hitem
    have hlowered := huniform bundle (List.mem_of_getElem? hbundle) item.2 hevent k hk
    have hne : item.2.kind ≠ .nodeIssue := by simp [hkind]
    rw [lowerRepetition_of_ne_nodeIssue hne, lowerRepetition_of_ne_nodeIssue hne, advance_zero,
      Except.ok.injEq] at hlowered
    exact hlowered
  · intro hseeded bundle hbundle event hevent k hk
    obtain ⟨cycle, hitem⟩ := mem_kernelEvents_of_mem hbundle hevent
    obtain ⟨hinject, hliveOut, recorded, hperiodic⟩ := haccepted.kernel_checked hitem
    by_cases hissue : event.kind = .nodeIssue
    · exact lowerRepetition_nodeIssue hissue k
    rw [lowerRepetition_of_ne_nodeIssue hissue, lowerRepetition_of_ne_nodeIssue hissue,
      advance_zero, Except.ok.injEq]
    cases hkind : event.kind with
    | boundaryValueInject => exact absurd hkind hinject
    | liveOutBoundaryUse => exact absurd hkind hliveOut
    | nodeIssue => exact absurd hkind hissue
    | rfRead => simp [calls, MaterializedEvent.advance, hkind]
    | linkLaunch =>
      simp only [verifyPeriodic, hkind] at hperiodic
      obtain ⟨-, edge, dependence, plan, action, link, time, hlaunch⟩ :=
        verifyLinkLaunch_clean haccepted.ii_eq hperiodic
      exact calls_linkLaunch_advance haccepted hitem hkind hlaunch k
    | rfWrite =>
      simp only [verifyPeriodic, hkind, Except.ok.injEq] at hperiodic
      obtain ⟨-, segment, edge, allocation, haccess⟩ :=
        verifyRFAccess_clean haccepted.ii_eq hperiodic
      have hprovider := (provider_uniform_iff haccepted hitem hkind haccess).mpr
        (hseeded segment haccess.segment_mem edge haccess.mem haccess.edge_id) k hk
      have hitemKind : (cycle, event).2.kind = .rfWrite := hkind
      exact (calls_rfWrite_advance_iff haccepted hitemKind haccess k).mpr hprovider

/-! ## Controls of a uniform kernel -/

theorem resolve_advance (mapping : RFAllocatedMapping) (event : MaterializedEvent) (k : ℕ) :
    resolve mapping (event.advance k)
      = (resolve mapping event).map (MaterializedEvent.advance k) := by
  unfold resolve MaterializedEvent.advance
  simp only
  split
  · split <;> rfl
  · rfl

/-- Events that ask for the same fields are lowered alike, whatever has been lowered before. -/
theorem lowerEvent_advance {event : MaterializedEvent} {k : ℕ}
    (h : lowerRepetition dfg target mapping image event k
      = lowerRepetition dfg target mapping image event 0) (builders : List TileBuilder) :
    lowerEvent dfg target mapping image builders (event.advance k)
      = lowerEvent dfg target mapping image builders event := by
  rw [lowerRepetition, lowerRepetition, advance_zero, resolve_advance] at h
  unfold lowerEvent
  rw [resolve_advance]
  cases hresolve : resolve mapping event with
  | error error => rfl
  | ok resolved =>
    rw [hresolve] at h
    have hcalls : calls dfg target mapping image (resolved.advance k)
        = calls dfg target mapping image resolved := Except.ok.inj h
    have hevent : Lowerer.event dfg target mapping image (resolved.advance k)
        = Lowerer.event dfg target mapping image resolved := by
      funext builder
      rw [Lowerer.event, Lowerer.event, hcalls]
    simp only [Except.map, bind, Except.bind, hevent]
    rfl

/-- **A uniform kernel needs to be lowered only once**: every repetition of a cycle of its body has
the same controls. -/
theorem KernelUniform.lowerCycle_advance {schedule : MaterializedSchedule}
    (h : KernelUniform dfg target mapping image schedule) {bundle : CycleBundle}
    (hbundle : bundle ∈ schedule.kernel.body) {k : ℕ} (hk : k < schedule.kernel.repeatCount) :
    lowerCycle dfg target mapping image (bundle.advance k)
      = lowerCycle dfg target mapping image bundle := by
  have hfold : ∀ (events : List MaterializedEvent), (∀ event ∈ events, event ∈ bundle.events) →
      ∀ builders, (events.map (MaterializedEvent.advance k)).foldlM
          (lowerEvent dfg target mapping image) builders
        = events.foldlM (lowerEvent dfg target mapping image) builders := by
    intro events hevents
    induction events with
    | nil => exact fun _ ↦ rfl
    | cons event events ih =>
      intro builders
      have hevent := h bundle hbundle event (hevents event List.mem_cons_self) k hk
      rw [List.map_cons, List.foldlM_cons, List.foldlM_cons, lowerEvent_advance hevent]
      congr 1
      funext builders'
      exact ih (fun e he ↦ hevents e (List.mem_cons_of_mem _ he)) builders'
  rw [lowerCycle, lowerCycle, CycleBundle.advance, hfold _ fun _ he ↦ he]

end Lowerer

/-! ### The delay line, seeded again in every iteration -/

/-- The constants of the delay line. -/
def delayLineImage : ConstantImage := ⟨[⟨0, 0, 7⟩, ⟨1, 1, 5⟩]⟩

/-- The delay line's kernel runs twice. Its register write is lowered from the boundary constant,
for iteration `-1`, and in the second repetition it should come from the link, for iteration `0`. -/
theorem delayLine_kernel_reseeded :
    ConstantAllocator.allocate delayLineDFG shippedTarget = .ok delayLineImage ∧
    ScheduleMaterializer.materialize delayLineDFG shippedTarget delayLineAllocated
        { tripCount := 3 } = .ok (.ok delayLineSchedule) ∧
      1 ≤ delayLineSchedule.kernel.repeatCount ∧
      ¬ Lowerer.KernelUniform delayLineDFG shippedTarget delayLineAllocated delayLineImage
        delayLineSchedule := by
  refine ⟨by decide +kernel, delayLineSchedule_materialized, by decide, ?_⟩
  unfold Lowerer.KernelUniform
  decide +kernel

/-- The segment of the delay line is not seeded alike. -/
theorem delayLine_not_seededAlike :
    ScheduleMaterializer.materialize delayLineDFG shippedTarget delayLineAllocated
        { tripCount := 3 } = .ok (.ok delayLineSchedule) ∧
      1 ≤ delayLineSchedule.kernel.repeatCount ∧
      ¬ ∀ segment ∈ delayLineAllocated.storageRequirements.segments, ∀ edge ∈ delayLineDFG.edges,
        edge.id = segment.edge →
          Lowerer.SeededAlike delayLineDFG delayLineImage delayLineSchedule edge segment := by
  refine ⟨delayLineSchedule_materialized, by decide, ?_⟩
  rw [← Lowerer.kernelUniform_iff delayLineDFG shippedTarget delayLineAllocated { tripCount := 3 }
    delayLineSchedule delayLineImage delayLineSchedule_materialized (by decide)]
  unfold Lowerer.KernelUniform
  decide +kernel

end PredicatedMesh
