import PredicatedMesh.Library.Periodic
import PredicatedMesh.Schedule.Staged
import PredicatedMesh.Target.Shipped

/-!
# The infinite execution of a staged mapping

A staged mapping describes one loop body; running the loop issues iteration `k` of every node
`k * ii` cycles after iteration zero. This module states that execution in absolute time, for every
iteration in `ℤ`, and shows that what the verifiers check once per modulo slot holds in every cycle
of it: no unit and no link is ever asked for twice, and every value is carried without a gap from
its producer to its consumer, in time.

The verifiers reserve a resource *at a slot*. Two instances that meet in a cycle meet at its
residue, so they reserve the same resource id, and an id has one owner; that settles which node or
edge it is. Within one node or one route the reserved ids are pairwise different, and that settles
the offset or the action, and with it the iteration.
-/

namespace PredicatedMesh

open Scan ModuloMappingVerifier

namespace StagedMapping

variable (mapping : StagedMapping)

/-- Iteration `k` of a node issues in a cycle. -/
def IssuesAt (node : TargetNodeId) (k cycle : ℤ) : Prop :=
  ∃ time : ℕ, mapping.logicalIssueTime node = .ok time ∧ cycle = time + k * mapping.modulo.ii

/-- Iteration `k` of a node keeps a unit busy in a cycle: it issues on that unit, at most
`issueOccupancy - 1` cycles earlier. -/
def Occupies (node : TargetNode) (k : ℤ) (executionClass : TargetExecutionClass)
    (tile : TileCoord) (cycle : ℤ) : Prop :=
  node.executionClass = executionClass ∧
  (∃ placement, mapping.modulo.placement node.id = .ok placement ∧ placement.tile = tile) ∧
  ∃ issue, mapping.IssuesAt node.id k issue ∧ issue ≤ cycle ∧ cycle < issue + node.issueOccupancy

/-- Action number `action` of the plan of `edge`, in iteration `k`, is a launch onto a directed link
of a network in a cycle. -/
def LaunchesAt (edge : TargetEdge) (action : ℕ) (k : ℤ) (domain : NetworkDomain)
    (source : TileCoord) (direction : Direction) (cycle : ℤ) : Prop :=
  ∃ dependence plan link issue, mapping.modulo.dependence edge.id = .ok dependence ∧
    dependence.transport = some plan ∧ plan.actions[action]? = some (.linkStep link) ∧
    link.domain = domain ∧ link.source = source ∧ link.direction = direction ∧
    mapping.IssuesAt edge.src k issue ∧ cycle = issue + link.elapsedFromProducerIssue

/-- Iteration `k` of a value edge is carried from its producer, from the cycle its result is ready,
to its consumer, and arrives no later than the consumer issues. -/
def Carried (dfg : TargetDFG) (target : TargetModel) (edge : TargetEdge) (k : ℤ) : Prop :=
  ∃ producer ready src dst dependence plan srcIssue dstIssue,
    dfg.findNode edge.src = some producer ∧ producer.producerOutputReadyOffset = some ready ∧
    mapping.modulo.placement edge.src = .ok src ∧ mapping.modulo.placement edge.dst = .ok dst ∧
    mapping.modulo.dependence edge.id = .ok dependence ∧ dependence.transport = some plan ∧
    mapping.IssuesAt edge.src k srcIssue ∧ mapping.IssuesAt edge.dst (k + edge.distance) dstIssue ∧
    TransportChain target target.interconnect.hopLatency srcIssue src.tile (srcIssue + ready)
      plan.actions dst.tile (srcIssue + dependence.requiredSeparationCycles) ∧
    srcIssue + dependence.requiredSeparationCycles ≤ dstIssue

variable {mapping} {dfg : TargetDFG} {target : TargetModel}

/-! ## Issue times and slots -/

theorem IssuesAt.unique {node : TargetNodeId} {k c c' : ℤ} (h : mapping.IssuesAt node k c)
    (h' : mapping.IssuesAt node k c') : c = c' := by
  obtain ⟨t, ht, rfl⟩ := h
  obtain ⟨t', ht', rfl⟩ := h'
  rw [ht, Except.ok.injEq] at ht'
  rw [ht']

theorem IssuesAt.iteration_unique (hii : 0 < mapping.modulo.ii) {node : TargetNodeId}
    {k k' c : ℤ} (h : mapping.IssuesAt node k c) (h' : mapping.IssuesAt node k' c) : k = k' := by
  obtain ⟨t, ht, rfl⟩ := h
  obtain ⟨t', ht', hc⟩ := h'
  rw [ht, Except.ok.injEq] at ht'
  subst ht'
  exact Periodic.iteration_eq (by exact_mod_cast hii) hc

/-- The residue of a cycle `offset` after an issue is the slot the verifier computes for it. -/
theorem IssuesAt.slot {node : TargetNodeId} {k issue : ℤ} {placement : NodePlacement}
    (h : mapping.IssuesAt node k issue)
    (hplacement : mapping.modulo.placement node = .ok placement) (offset : ℕ) :
    (issue + offset) % mapping.modulo.ii
      = ((placement.issueSlot + offset) % mapping.modulo.ii : ℕ) := by
  obtain ⟨time, htime, rfl⟩ := h
  obtain ⟨placement', stageValue, hp, -, rfl⟩ := logicalIssueTime_eq_ok htime
  rw [hplacement, Except.ok.injEq] at hp
  subst hp
  push_cast
  exact Periodic.emod_add_mul _ _ _ _ _

theorem Verified.ii_pos (h : mapping.Verified dfg target) : 0 < mapping.modulo.ii :=
  h.modulo.ii_pos

theorem Verified.issuesAt (h : mapping.Verified dfg target) {node : TargetNode}
    (hnode : node ∈ dfg.nodes) (k : ℤ) : ∃ issue, mapping.IssuesAt node.id k issue := by
  obtain ⟨time, htime⟩ := h.times node hnode
  exact ⟨_, time, htime, rfl⟩

/-! ## Units -/

/-- The resource id behind an occupied cycle: it is in the node's footprint, at the position of the
offset since the issue. -/
theorem Occupies.resource {table : ResourceReservationTable} {node : TargetNode}
    {placement : NodePlacement} {operation : TargetOperationDesc} {footprint : List ResourceId}
    (hplaced : mapping.modulo.Placed target table node placement operation footprint)
    (hagrees : node.Agrees target operation) {k : ℤ} {executionClass : TargetExecutionClass}
    {tile : TileCoord} {cycle : ℤ} (h : mapping.Occupies node k executionClass tile cycle) :
    ∃ offset, ∃ hlt : offset < footprint.length, mapping.IssuesAt node.id k (cycle - offset) ∧
      ∃ slot : ℕ, (slot : ℤ) = cycle % mapping.modulo.ii ∧
        (resourceModel target mapping.modulo).findResource
          (ModuloResourceModel.unitResource executionClass tile slot)
            = some (footprint.get ⟨offset, hlt⟩) := by
  obtain ⟨hclass, ⟨placement', hp, htile⟩, issue, hissue, hle, hlt⟩ := h
  have hplacement := ModuloMapping.placement_of_entries hplaced.entries
  rw [hplacement, Except.ok.injEq] at hp
  subst hp
  obtain ⟨offset, hoffset⟩ : ∃ offset : ℕ, cycle = issue + offset :=
    ⟨(cycle - issue).toNat, by omega⟩
  have hbound : offset < footprint.length := by
    rw [hplaced.length, hagrees.issueOccupancy]
    omega
  refine ⟨offset, hbound, ?_, (placement.issueSlot + offset) % mapping.modulo.ii, ?_, ?_⟩
  · rwa [hoffset, add_sub_cancel_right]
  · rw [hoffset, hissue.slot hplacement offset]
  · have hid := hplaced.ids offset hbound
    rwa [hagrees.executionClass, hclass, htile] at hid

/-- **No unit is occupied twice.** -/
theorem Verified.unit_exclusive (h : mapping.Verified dfg target) {n m : TargetNode}
    (hn : n ∈ dfg.nodes) (hm : m ∈ dfg.nodes) {k l cycle : ℤ}
    {executionClass : TargetExecutionClass} {tile : TileCoord}
    (hocc : mapping.Occupies n k executionClass tile cycle)
    (hocc' : mapping.Occupies m l executionClass tile cycle) : n = m ∧ k = l := by
  obtain ⟨table, hplaced, -⟩ := h.modulo.reserved
  obtain ⟨p, o, f, hp⟩ := hplaced n hn
  obtain ⟨p', o', f', hp'⟩ := hplaced m hm
  obtain ⟨op, hagrees⟩ := h.modulo.graph.agrees n hn
  obtain ⟨op', hagrees'⟩ := h.modulo.graph.agrees m hm
  obtain rfl : op = o := Option.some.inj (hagrees.found.symm.trans hp.found)
  obtain rfl : op' = o' := Option.some.inj (hagrees'.found.symm.trans hp'.found)
  obtain ⟨i, hi, hissue, slot, hslot, hid⟩ := hocc.resource hp hagrees
  obtain ⟨j, hj, hissue', slot', hslot', hid'⟩ := hocc'.resource hp' hagrees'
  -- the two instances meet at one slot of one unit, hence at one resource id
  obtain rfl : slot = slot' := by
    have : (slot : ℤ) = slot' := hslot.trans hslot'.symm
    exact_mod_cast this
  have hsame : f.get ⟨i, hi⟩ = f'.get ⟨j, hj⟩ := Option.some.inj (hid.symm.trans hid')
  have howner := hp.owns.owner_eq hp'.owns (List.get_mem f ⟨i, hi⟩)
    (hsame ▸ List.get_mem f' ⟨j, hj⟩)
  obtain rfl : n = m := h.modulo.graph.node_eq_of_id_eq hn hm (by simpa using howner)
  have hlen : f.length = f'.length := by
    rw [hp.length, hp'.length, Option.some.inj (hp.found.symm.trans hp'.found)]
  have hij : i = j := by
    have hi' : i < f'.length := hlen ▸ hi
    have hclass : op = op' := Option.some.inj (hp.found.symm.trans hp'.found)
    subst hclass
    have htile : p = p' := by
      have := hp.entries.symm.trans hp'.entries
      simpa using this
    subst htile
    have hfi : f'.get ⟨i, hi'⟩ = f'.get ⟨j, hj⟩ :=
      (Option.some.inj ((hp'.ids i hi').symm.trans (hp.ids i hi))).trans hsame
    simpa using hp'.nodup.injective_get hfi
  subst hij
  exact ⟨rfl, hissue.iteration_unique h.ii_pos hissue'⟩

/-! ## Links -/

/-- The resource id behind a launch is owned by its edge. -/
theorem LaunchesAt.resource {table : ResourceReservationTable} {edge : TargetEdge}
    {dependence : MappedDependence}
    (hrealized : mapping.modulo.Realized dfg target table edge dependence) {ready : ℕ}
    {src dst : NodePlacement} {plan : TransportPlan} {route : List ResourceId}
    (hplan : dependence.transport = some plan)
    (hrouted : mapping.modulo.Routed target table edge ready src dst plan route) {action : ℕ}
    {k : ℤ} {domain : NetworkDomain} {source : TileCoord} {direction : Direction} {cycle : ℤ}
    (h : mapping.LaunchesAt edge action k domain source direction cycle) :
    ∃ link, plan.actions[action]? = some (.linkStep link) ∧
      mapping.IssuesAt edge.src k (cycle - link.elapsedFromProducerIssue) ∧
      ∃ slot : ℕ, (slot : ℤ) = cycle % mapping.modulo.ii ∧
        mapping.modulo.launchResource plan src link = .link domain source direction slot := by
  obtain ⟨dependence', plan', link, issue, hd, hp, haction, hdomain, rfl, rfl, hissue, rfl⟩ := h
  rw [ModuloMapping.dependence_of_entries hrealized.entries, Except.ok.injEq] at hd
  subst hd
  obtain rfl : plan = plan' := Option.some.inj (hplan.symm.trans hp)
  refine ⟨link, haction, by rwa [add_sub_cancel_right],
    (src.issueSlot + link.elapsedFromProducerIssue) % mapping.modulo.ii, ?_, ?_⟩
  · exact (hissue.slot (ModuloMapping.placement_of_entries hrouted.srcEntries)
      link.elapsedFromProducerIssue).symm
  · have hmem : TransportAction.linkStep link ∈ plan.actions := List.mem_of_getElem? haction
    have hplanDomain : plan.domain = domain := (hrouted.domains _ hmem).symm.trans hdomain
    rw [ModuloMapping.launchResource, hplanDomain]

/-- A launch belongs to a value edge: only those have plans. -/
theorem LaunchesAt.kind_ne_memory {table : ResourceReservationTable} {edge : TargetEdge}
    {dependence : MappedDependence}
    (hrealized : mapping.modulo.Realized dfg target table edge dependence) {action : ℕ} {k : ℤ}
    {domain : NetworkDomain} {source : TileCoord} {direction : Direction} {cycle : ℤ}
    (h : mapping.LaunchesAt edge action k domain source direction cycle) :
    edge.kind ≠ .memory := by
  obtain ⟨dependence', plan, link, issue, hd, hp, -⟩ := h
  rw [ModuloMapping.dependence_of_entries hrealized.entries, Except.ok.injEq] at hd
  subst hd
  intro hkind
  obtain ⟨kind, hinfo⟩ := TargetEdge.kind_eq_memory_iff.mp hkind
  rw [(hrealized.memory kind hinfo).1] at hp
  cases hp

/-- **No link is launched twice.** -/
theorem Verified.link_exclusive (h : mapping.Verified dfg target) {e e' : TargetEdge}
    (he : e ∈ dfg.edges) (he' : e' ∈ dfg.edges) {a a' : ℕ} {k k' cycle : ℤ}
    {domain : NetworkDomain} {source : TileCoord} {direction : Direction}
    (hl : mapping.LaunchesAt e a k domain source direction cycle)
    (hl' : mapping.LaunchesAt e' a' k' domain source direction cycle) :
    e = e' ∧ a = a' ∧ k = k' := by
  obtain ⟨table, -, hrealized⟩ := h.modulo.reserved
  obtain ⟨d, hd⟩ := hrealized e he
  obtain ⟨d', hd'⟩ := hrealized e' he'
  obtain ⟨-, ready, src, dst, plan, route, -, -, hplan, -, hrouted⟩ :=
    hd.value (hl.kind_ne_memory hd)
  obtain ⟨-, ready', src', dst', plan', route', -, -, hplan', -, hrouted'⟩ :=
    hd'.value (hl'.kind_ne_memory hd')
  obtain ⟨link, haction, hissue, slot, hslot, hres⟩ := hl.resource hd hplan hrouted
  obtain ⟨link', haction', hissue', slot', hslot', hres'⟩ := hl'.resource hd' hplan' hrouted'
  obtain rfl : slot = slot' := by
    have : (slot : ℤ) = slot' := hslot.trans hslot'.symm
    exact_mod_cast this
  -- one link at one slot is one resource id, and it has one owner
  obtain ⟨r, hr, hfound⟩ := hrouted.launches link (List.mem_of_getElem? haction)
  obtain ⟨r', hr', hfound'⟩ := hrouted'.launches link' (List.mem_of_getElem? haction')
  rw [hres] at hfound
  rw [hres', hfound, Option.some.injEq] at hfound'
  subst hfound'
  have howner := hrouted.owns.owner_eq hrouted'.owns hr hr'
  obtain rfl : e = e' := h.modulo.graph.edge_eq_of_id_eq he he' (by simpa using howner)
  obtain rfl : d = d' := by
    have := hd.entries.symm.trans hd'.entries
    simpa using this
  obtain rfl : plan = plan' := Option.some.inj (hplan.symm.trans hplan')
  obtain rfl : src = src' := by
    have := hrouted.srcEntries.symm.trans hrouted'.srcEntries
    simpa using this
  -- within the route the launches are pairwise different
  have hindex : a = a' := by
    have hlt := (List.getElem?_eq_some_iff.mp haction)
    have hlt' := (List.getElem?_eq_some_iff.mp haction')
    obtain ⟨ha, hga⟩ := hlt
    obtain ⟨ha', hga'⟩ := hlt'
    have hpair := List.pairwise_iff_getElem.mp hrouted.distinct
    rcases lt_trichotomy a a' with hlt | heq | hgt
    · exact absurd (hres.trans hres'.symm) (hpair a a' ha ha' hlt link link' hga hga')
    · exact heq
    · exact absurd (hres'.trans hres.symm) (hpair a' a ha' ha hgt link' link hga' hga)
  subst hindex
  rw [haction, Option.some.injEq, TransportAction.linkStep.injEq] at haction'
  subst haction'
  exact ⟨rfl, rfl, hissue.iteration_unique h.ii_pos hissue'⟩

/-! ## Continuity -/

/-- **Every value arrives.** -/
theorem Verified.carried (h : mapping.Verified dfg target) {edge : TargetEdge}
    (hedge : edge ∈ dfg.edges) (hkind : edge.kind ≠ .memory) (k : ℤ) :
    mapping.Carried dfg target edge k := by
  obtain ⟨table, -, hrealized⟩ := h.modulo.reserved
  obtain ⟨dependence, hd⟩ := hrealized edge hedge
  obtain ⟨producer, ready, src, dst, plan, route, hproducer, hready, hplan, hsep, hrouted⟩ :=
    hd.value hkind
  obtain ⟨srcTime, dstTime, dependence', hsrc, hdst, hdep, hle⟩ := h.constraints edge hedge
  have hentry := ModuloMapping.dependence_of_entries hd.entries
  rw [hentry, Except.ok.injEq] at hdep
  subst hdep
  refine ⟨producer, ready, src, dst, dependence, plan, srcTime + k * mapping.modulo.ii,
    dstTime + (k + edge.distance) * mapping.modulo.ii, hproducer, hready,
    ModuloMapping.placement_of_entries hrouted.srcEntries,
    ModuloMapping.placement_of_entries hrouted.dstEntries, hentry, hplan, ⟨srcTime, hsrc, rfl⟩,
    ⟨dstTime, hdst, rfl⟩, ?_, ?_⟩
  · rw [hsep]
    exact hrouted.chain _
  · have hle' : (srcTime : ℤ) + dependence.requiredSeparationCycles
        ≤ edge.distance * mapping.modulo.ii + dstTime := by exact_mod_cast hle
    linarith

end StagedMapping

/-! ## The execution theorem -/

/-- **Modulo verification is absolute.** For a staged mapping the stage verifier accepts, every node
issues at `stage * ii + issueSlot` and then every `ii` cycles; in that execution no functional unit
and no load-store unit is busy with two instances in one cycle, no directed link is launched by two
instances in one cycle, and every value dependence is carried without a gap and in time. -/
theorem StageAssignmentVerifier.verify_sound_absolute (dfg : TargetDFG) (target : TargetModel)
    (mapping : StagedMapping)
    (h : accepts (StageAssignmentVerifier.verify dfg target mapping) = true) :
    (∀ node ∈ dfg.nodes, ∃ placement stage, mapping.modulo.placement node.id = .ok placement ∧
      mapping.stage node.id = .ok stage ∧
      ∀ k : ℤ, mapping.IssuesAt node.id k
        (stage * mapping.modulo.ii + placement.issueSlot + k * mapping.modulo.ii)) ∧
    (∀ n ∈ dfg.nodes, ∀ m ∈ dfg.nodes, ∀ (k l cycle : ℤ) (executionClass : TargetExecutionClass)
      (tile : TileCoord), mapping.Occupies n k executionClass tile cycle →
      mapping.Occupies m l executionClass tile cycle → n = m ∧ k = l) ∧
    (∀ e ∈ dfg.edges, ∀ e' ∈ dfg.edges, ∀ (a a' : ℕ) (k k' cycle : ℤ) (domain : NetworkDomain)
      (source : TileCoord) (direction : Direction),
      mapping.LaunchesAt e a k domain source direction cycle →
      mapping.LaunchesAt e' a' k' domain source direction cycle → e = e' ∧ a = a' ∧ k = k') ∧
    ∀ e ∈ dfg.edges, e.kind ≠ .memory → ∀ k : ℤ, mapping.Carried dfg target e k := by
  have hv := StageAssignmentVerifier.verified_of_verify ((accepts_iff _).mp h)
  refine ⟨fun node hnode ↦ ?_, ?_, ?_, ?_⟩
  · obtain ⟨time, htime⟩ := hv.times node hnode
    obtain ⟨placement, stage, hp, hs, rfl⟩ := StagedMapping.logicalIssueTime_eq_ok htime
    exact ⟨placement, stage, hp, hs, fun k ↦ ⟨_, htime, by push_cast; ring⟩⟩
  · exact fun n hn m hm k l cycle c t ho ho' ↦ hv.unit_exclusive hn hm ho ho'
  · exact fun e he e' he' a a' k k' cycle d s dir hl hl' ↦ hv.link_exclusive he he' hl hl'
  · exact fun e he hkind k ↦ hv.carried he hkind k

/-! ### A delay line

Two nodes on the shipped array: the second repeats, one iteration later, what the first produces.
The value takes two hops, so with an interval of two it is in flight for a whole iteration. -/

/-- A node that forwards its operand. -/
def passNode (id : TargetNodeId) : TargetNode where
  id := id
  operation := "PASS"
  executionClass := .fu
  resultType := ValueType.integer 32
  operandTypes := [ValueType.integer 32]
  issueOccupancy := 1
  resultLatency := some 1
  genericOrigins := [id]
  producerOutputReadyOffset := some 0
  accessWidthBits := none

def delayLineDFG : TargetDFG where
  name := "delay_line"
  targetName := "cgra_v3_shared4p"
  nodes := [passNode 0, passNode 1]
  edges := [⟨0, 0, 1, 1, .data 0 (some ⟨[⟨0, .constantRef 1⟩]⟩)⟩]
  externalValues := []
  constants := [⟨0, ValueType.integer 32, 7⟩, ⟨1, ValueType.integer 32, 5⟩]
  liveOuts := [⟨0, ValueType.integer 32, "out", 1⟩]
  operandBindings := [⟨0, 0, .constantRef 0⟩]
  incomingEdges := [[], [0]]
  outgoingEdges := [[0], []]

def delayLinePlan : TransportPlan where
  edge := 0
  domain := .data
  actions := [.linkStep ⟨.data, ⟨0, 0⟩, .east, 0⟩, .linkStep ⟨.data, ⟨0, 1⟩, .east, 1⟩]
  requiredSeparationCycles := 2

def delayLineStaged : StagedMapping where
  modulo :=
    { targetName := "cgra_v3_shared4p"
      ii := 2
      placements := [⟨0, ⟨0, 0⟩, 0⟩, ⟨1, ⟨0, 2⟩, 1⟩]
      dependences := [⟨0, .data, 2, some delayLinePlan⟩] }
  stages := [⟨0, 0⟩, ⟨1, 0⟩]

theorem delayLineStaged_accepted :
    accepts (StageAssignmentVerifier.verify delayLineDFG shippedTarget delayLineStaged) = true := by
  decide +kernel

/-- The delay line's only value edge is carried in every iteration. -/
theorem delayLine_carried :
    accepts (StageAssignmentVerifier.verify delayLineDFG shippedTarget delayLineStaged) = true ∧
      ∀ k : ℤ, delayLineStaged.Carried delayLineDFG shippedTarget
        ⟨0, 0, 1, 1, .data 0 (some ⟨[⟨0, .constantRef 1⟩]⟩)⟩ k :=
  ⟨delayLineStaged_accepted,
    (StageAssignmentVerifier.verify_sound_absolute _ _ _ delayLineStaged_accepted).2.2.2 _
      (by decide) (by decide)⟩

/-! ### A ring

Two nodes feed each other, one of them the value of the iteration before. A turn takes two cycles,
so the interval is two at least. -/

/-- Two nodes that pass a value around, one iteration a turn. -/
def ringDFG : TargetDFG where
  name := "ring"
  targetName := "cgra_v3_shared4p"
  nodes := [passNode 0, passNode 1]
  edges := [⟨0, 0, 1, 0, .data 0 none⟩, ⟨1, 1, 0, 1, .data 0 (some ⟨[⟨0, .constantRef 0⟩]⟩)⟩]
  externalValues := []
  constants := [⟨0, ValueType.integer 32, 7⟩]
  liveOuts := [⟨0, ValueType.integer 32, "out", 1⟩]
  operandBindings := []
  incomingEdges := [[1], [0]]
  outgoingEdges := [[0], [1]]

/-- The nodes of the ring on two neighbouring tiles, in the given slots. -/
def ringMapping (ii first second : ℕ) : ModuloMapping where
  targetName := "cgra_v3_shared4p"
  ii := ii
  placements := [⟨0, ⟨0, 0⟩, first⟩, ⟨1, ⟨0, 1⟩, second⟩]
  dependences :=
    [⟨0, .data, 1, some
        { edge := 0
          domain := .data
          actions := [.linkStep ⟨.data, ⟨0, 0⟩, .east, 0⟩]
          requiredSeparationCycles := 1 }⟩,
      ⟨1, .data, 1, some
        { edge := 1
          domain := .data
          actions := [.linkStep ⟨.data, ⟨0, 1⟩, .west, 0⟩]
          requiredSeparationCycles := 1 }⟩]

/-- The second node issues in the slot after the first one's, which is in the next stage. -/
def ringStaged : StagedMapping where
  modulo := ringMapping 2 1 0
  stages := [⟨0, 0⟩, ⟨1, 1⟩]

theorem ringStaged_accepted :
    accepts (StageAssignmentVerifier.verify ringDFG shippedTarget ringStaged) = true := by
  decide +kernel

end PredicatedMesh
