import PredicatedMesh.Mapping.MapperRollback
import PredicatedMesh.Mapping.RouteSoundness

/-!
# What a partial mapping holds

The reservation table of the mapper is never read back to find out what is placed: placements,
dependences and table are kept side by side. `Consistent` says that they agree. Every resource that
has an owner belongs to the footprint of a placed node or to the route of a realized dependence, and
these are all the owners there are; since the table has one owner for each resource, footprints and
routes are disjoint.

Placing a node keeps this because its footprint was free, and realizing an edge keeps it because the
route search only returns routes whose links are free.
-/

namespace PredicatedMesh

namespace ModuloMapper

variable {ctx : Context}

/-! ## The links of a plan -/

/-- The links of a plan are the resources it travels over. -/
theorem routeResources_of_travels {plan : TransportPlan} {producer : NodePlacement}
    {ready elapsed : ℕ} {actions : List TransportAction} {resources : List ResourceId}
    {tile : TileCoord} (hslot : producer.issueSlot < ctx.ii) (hnodup : resources.Nodup)
    (h : Travels ctx.resources plan.domain producer ready actions resources tile elapsed) :
    routeResources ctx { plan with actions := actions } producer = .ok resources := by
  induction h with
  | start => rfl
  | @link _ links tile' _ elapsed' direction resource _ _ hresource ih =>
    rw [List.nodup_append_comm, List.singleton_append, List.nodup_cons] at hnodup
    have hadvance : ModuloTimeDomain.advance ctx.ii producer.issueSlot elapsed'
        = .ok ((producer.issueSlot + elapsed') % ctx.ii) :=
      ModuloTimeDomain.advance_eq_ok_iff.mpr ⟨hslot, rfl⟩
    rw [routeResources, List.foldlM_append]
    refine Scan.bind_eq_ok.mpr ⟨links, ih hnodup.2, ?_⟩
    rw [List.foldlM_cons]
    refine Scan.bind_eq_ok.mpr ⟨links ++ [resource], ?_, rfl⟩
    have hlink : ctx.resources.linkResource plan.domain tile' direction
        ((producer.issueSlot + elapsed') % ctx.ii) = .ok (some resource) :=
      (ModuloResourceModel.linkResource_of_advance hadvance).trans (congrArg Except.ok hresource)
    simp only [hadvance, hlink]
    exact if_neg hnodup.1
  | @hold _ links _ _ _ _ _ ih =>
    rw [routeResources, List.foldlM_append]
    exact Scan.bind_eq_ok.mpr ⟨links, ih hnodup, rfl⟩

/-! ## Who holds what -/

/-- A placed node holds its footprint, a realized dependence holds the links of its transport. -/
inductive Holds (ctx : Context) (placements : List NodePlacement)
    (dependences : List MappedDependence) : ReservationOwner → List ResourceId → Prop
  | node {placement : NodePlacement} {node : TargetNode} {footprint : List ResourceId} :
      placement ∈ placements →
      ctx.dfg.findNode placement.node = some node →
      ctx.resources.operationFootprint node placement.tile placement.issueSlot = .ok footprint →
        Holds ctx placements dependences ⟨.node, placement.node⟩ footprint
  | edge {dependence : MappedDependence} {edge : TargetEdge} {plan : TransportPlan}
      {producer : NodePlacement} {links : List ResourceId} :
      dependence ∈ dependences →
      dependence.transport = some plan →
      ctx.dfg.findEdge dependence.edge = some edge →
      producer ∈ placements →
      producer.node = edge.src →
      routeResources ctx plan producer = .ok links →
        Holds ctx placements dependences ⟨.edge, dependence.edge⟩ links

/-- What more is placed and realized takes nothing away. -/
theorem Holds.mono {placements placements' : List NodePlacement}
    {dependences dependences' : List MappedDependence} (hplacements : placements ⊆ placements')
    (hdependences : dependences ⊆ dependences') {owner : ReservationOwner}
    {resources : List ResourceId} (h : Holds ctx placements dependences owner resources) :
    Holds ctx placements' dependences' owner resources := by
  rcases h with ⟨hmem, hnode, hfootprint⟩ | ⟨hmem, hplan, hedge, hproducer, hsrc, hlinks⟩
  · exact .node (hplacements hmem) hnode hfootprint
  · exact .edge (hdependences hmem) hplan hedge (hplacements hproducer) hsrc hlinks

/-- The dependence of an edge whose ends are placed: the contract's separation for a memory
dependence, a plan that takes the value from the producer to the consumer for a value. -/
structure WellRealized (ctx : Context) (placements : List NodePlacement) (edge : TargetEdge)
    (dependence : MappedDependence) : Prop where
  kind : dependence.kind = edge.kind
  src : ∃ producer ∈ placements, producer.node = edge.src
  dst : ∃ consumer ∈ placements, consumer.node = edge.dst
  memory : ∀ kind, edge.info = .memory kind → dependence.transport = none ∧
    dependence.requiredSeparationCycles = ctx.target.memoryDependenceSeparation kind
  value : edge.kind ≠ .memory → ∃ plan, dependence.transport = some plan ∧
    dependence.requiredSeparationCycles = plan.requiredSeparationCycles ∧ plan.edge = edge.id ∧
    plan.domain = ModuloRouteSearch.requestedDomain edge ∧
    (ctx.target.network plan.domain).hopLatency ≠ 0 ∧
    ∃ node ready, ctx.dfg.findNode edge.src = some node ∧
      node.producerOutputReadyOffset = some ready ∧
      ∀ producer ∈ placements, producer.node = edge.src →
      ∀ consumer ∈ placements, consumer.node = edge.dst →
        producer.issueSlot < ctx.ii ∧ (producer.tile = consumer.tile → plan.actions ≠ []) ∧
        ∃ links, links.Nodup ∧ Travels ctx.resources plan.domain producer ready plan.actions links
          consumer.tile plan.requiredSeparationCycles

/-- A dependence stays well realized when other nodes are placed. -/
theorem WellRealized.mono {placements placements' : List NodePlacement} {edge : TargetEdge}
    {dependence : MappedDependence} (h : WellRealized ctx placements edge dependence)
    (hsubset : placements ⊆ placements')
    (hold : ∀ placement ∈ placements', (∃ other ∈ placements, other.node = placement.node) →
      placement ∈ placements) : WellRealized ctx placements' edge dependence where
  kind := h.kind
  src := by
    obtain ⟨producer, hmem, hsrc⟩ := h.src
    exact ⟨producer, hsubset hmem, hsrc⟩
  dst := by
    obtain ⟨consumer, hmem, hdst⟩ := h.dst
    exact ⟨consumer, hsubset hmem, hdst⟩
  memory := h.memory
  value hkind := by
    obtain ⟨plan, hplan, hcycles, hedge, hdomain, hhop, node, ready, hnode, hready, htravels⟩ :=
      h.value hkind
    obtain ⟨src, hsrcMem, hsrc⟩ := h.src
    obtain ⟨dst, hdstMem, hdst⟩ := h.dst
    refine ⟨plan, hplan, hcycles, hedge, hdomain, hhop, node, ready, hnode, hready, ?_⟩
    intro producer hproducer hproducerNode consumer hconsumer hconsumerNode
    exact htravels producer (hold producer hproducer ⟨src, hsrcMem, hsrc.trans hproducerNode.symm⟩)
      hproducerNode consumer (hold consumer hconsumer ⟨dst, hdstMem, hdst.trans hconsumerNode.symm⟩)
      hconsumerNode

/-- Placements, dependences and reservations agree. -/
structure Consistent (ctx : Context) (p : PartialMapping) : Prop where
  placements : SortedMap.Sorted NodePlacement.node p.placements
  dependences : SortedMap.Sorted MappedDependence.edge p.dependences
  placed : ∀ placement ∈ p.placements, ∃ node footprint,
    ctx.dfg.findNode placement.node = some node ∧
    ctx.resources.operationFootprint node placement.tile placement.issueSlot = .ok footprint
  realized : ∀ dependence ∈ p.dependences, ∃ edge,
    ctx.dfg.findEdge dependence.edge = some edge ∧ WellRealized ctx p.placements edge dependence
  size : p.reservations.owners.length = ctx.resources.resourceCount
  owned : ∀ (resource : ResourceId) (owner : ReservationOwner),
    p.reservations.owners[resource]? = some (some owner) ↔
      ∃ resources, Holds ctx p.placements p.dependences owner resources ∧ resource ∈ resources

namespace Consistent

variable {p q : PartialMapping}

/-- Different owners hold different resources. -/
theorem disjoint (h : Consistent ctx p) {a b : ReservationOwner} {l m : List ResourceId}
    (ha : Holds ctx p.placements p.dependences a l) (hb : Holds ctx p.placements p.dependences b m)
    (hne : a ≠ b) : l.Disjoint m := by
  intro resource hl hm
  have hownerA := (h.owned resource a).mpr ⟨l, ha, hl⟩
  have hownerB := (h.owned resource b).mpr ⟨m, hb, hm⟩
  exact hne (Option.some.inj (Option.some.inj (hownerA.symm.trans hownerB)))

/-- One placement for a node. -/
theorem unique (h : Consistent ctx p) {a b : NodePlacement} (ha : a ∈ p.placements)
    (hb : b ∈ p.placements) (hnode : a.node = b.node) : a = b :=
  List.inj_on_of_nodup_map h.placements.nodup ha hb hnode

/-- Before anything is placed. -/
theorem start : Consistent ctx (ModuloMapper.start ctx) where
  placements := .nil
  dependences := .nil
  placed := List.forall_mem_nil _
  realized := List.forall_mem_nil _
  size := ResourceReservationTable.length_empty _
  owned resource owner := by
    constructor
    · intro h
      rw [ModuloMapper.start, ResourceReservationTable.empty] at h
      obtain ⟨hlt, hnone⟩ := List.getElem?_eq_some_iff.mp h
      rw [List.getElem_replicate] at hnone
      cases hnone
    · rintro ⟨resources, hholds, -⟩
      rcases hholds with ⟨hmem, -, -⟩ | ⟨hmem, -, -, -, -, -⟩
      · exact absurd hmem List.not_mem_nil
      · exact absurd hmem List.not_mem_nil

/-! ## Placing a node -/

theorem mem_place {node : TargetNodeId} {tile : TileCoord} {slot : ℕ}
    {later : ResourceReservationTable} (hnode : p.hasPlacement node = false)
    {placement : NodePlacement} :
    placement ∈ (p.place ⟨node, tile, slot⟩ later).placements ↔
      placement = ⟨node, tile, slot⟩ ∨ placement ∈ p.placements :=
  @SortedMap.mem_emplace _ _ _ NodePlacement.node ⟨node, tile, slot⟩ _ _ hnode

/-- **Placing a node keeps the parts in agreement.** -/
theorem place (h : Consistent ctx p) {node : TargetNodeId} {tile : TileCoord} {slot : ℕ}
    {footprint : List ResourceId} (hnode : p.hasPlacement node = false)
    (hplaces : Places ctx p node tile slot footprint q) : Consistent ctx q := by
  rcases hplaces with ⟨hfound, hfootprint, htry⟩
  rename_i targetNode later
  obtain ⟨-, hreserve⟩ := ResourceReservationTable.tryReserve_eq_some_iff.mp htry
  obtain ⟨⟨-, hfree⟩, hlater⟩ := ResourceReservationTable.reserve_eq_some_iff.mp hreserve
  have hmem := @mem_place p node tile slot later hnode
  have hsubset : p.placements ⊆ (p.place ⟨node, tile, slot⟩ later).placements :=
    fun placement hplacement ↦ hmem.mpr (.inr hplacement)
  have hfresh : ∀ placement ∈ p.placements, placement.node ≠ node :=
    SortedMap.contains_eq_false_iff.mp hnode
  -- a node that was placed before has no other placement now
  have hold : ∀ placement ∈ (p.place ⟨node, tile, slot⟩ later).placements,
      (∃ other ∈ p.placements, other.node = placement.node) → placement ∈ p.placements := by
    rintro placement hplacement ⟨other, hother, hsame⟩
    rcases hmem.mp hplacement with rfl | hplacement
    · exact absurd hsame (hfresh other hother)
    · exact hplacement
  refine ⟨h.placements.emplace hnode, h.dependences, ?_, ?_, ?_, ?_⟩
  · intro placement hplacement
    rcases hmem.mp hplacement with rfl | hplacement
    · exact ⟨targetNode, footprint, hfound, hfootprint⟩
    · exact h.placed placement hplacement
  · intro dependence hdependence
    obtain ⟨edge, hedge, hrealized⟩ := h.realized dependence hdependence
    exact ⟨edge, hedge, hrealized.mono hsubset hold⟩
  · exact (ResourceReservationTable.reserve_spec hreserve).1.trans h.size
  · intro resource owner
    rw [PartialMapping.place, hlater]
    constructor
    · intro howner
      split at howner
      · rename_i hresource
        obtain rfl := Option.some.inj (Option.some.inj howner)
        exact ⟨footprint, .node (hmem.mpr (.inl rfl)) hfound hfootprint, hresource⟩
      · obtain ⟨resources, hholds, hresource⟩ := (h.owned resource owner).mp howner
        exact ⟨resources, hholds.mono hsubset (List.Subset.refl _), hresource⟩
    · rintro ⟨resources, hholds, hresource⟩
      have hkeeps : (∃ resources, Holds ctx p.placements p.dependences owner resources ∧
          resource ∈ resources) →
          (if resource ∈ footprint then some (some ⟨.node, node⟩)
            else p.reservations.owners[resource]?) = some (some owner) := by
        intro hheld
        have howner := (h.owned resource owner).mpr hheld
        rw [if_neg, howner]
        intro hclash
        rw [hfree resource hclash] at howner
        cases howner
      rcases hholds with @⟨placement, found, footprint', hplacement, hfound', hfootprint'⟩ |
        @⟨dependence, edge, plan, producer, links, hdependence, hplan, hedge, hproducer, hsrc,
          hlinks⟩
      · rcases hmem.mp hplacement with rfl | hplacement
        · obtain rfl := Option.some.inj (hfound.symm.trans hfound')
          obtain rfl := Except.ok.inj (hfootprint.symm.trans hfootprint')
          exact if_pos hresource
        · exact hkeeps ⟨_, .node hplacement hfound' hfootprint', hresource⟩
      · obtain ⟨edge', hedge', hrealized⟩ := h.realized dependence hdependence
        obtain rfl := Option.some.inj (hedge.symm.trans hedge')
        obtain ⟨placement, hplacement, hnode'⟩ := hrealized.src
        have hproducer' := hold producer hproducer ⟨placement, hplacement, hnode'.trans hsrc.symm⟩
        exact hkeeps ⟨_, .edge hdependence hplan hedge hproducer' hsrc hlinks, hresource⟩

/-! ## Realizing an edge -/

theorem mem_placements {node : TargetNodeId} {placement : NodePlacement}
    (h : p.placement node = some placement) : placement ∈ p.placements ∧ placement.node = node :=
  SortedMap.lookup_eq_some h

/-- What a successful route search hands to the mapper. -/
theorem found_of_routeSearch (h : Consistent ctx p) (hii : ctx.ii ≠ 0) {edge : TargetEdge}
    (hedge : ctx.dfg.findEdge edge.id = some edge) {producer consumer : NodePlacement}
    {route : RouteSearchResult} (hroute : routeSearch ctx p edge producer consumer = .ok route)
    (hstatus : route.status = .success) : ∃ domain ready plan links,
      ModuloRouteSearch.Admitted ctx.dfg ctx.target ctx.resources ⟨edge.id, producer, consumer⟩ edge
        domain ready ∧ route.plan = some plan ∧
      ModuloRouteSearch.Found (ModuloRouteSearch.requestContext ctx.target ctx.resources
        p.reservations ⟨edge.id, producer, consumer⟩ ctx.routeOptions domain ready) plan links := by
  obtain ⟨route', hroute', hsuccess⟩ :=
    @ModuloRouteSearch.search_returns ctx.dfg ctx.target ctx.resources
      ⟨edge.id, producer, consumer⟩ p.reservations ctx.routeOptions hii rfl h.size
  obtain rfl := Except.ok.inj (hroute.symm.trans hroute')
  obtain ⟨edge', domain, ready, plan, links, hadmitted, hplan, hfound⟩ := hsuccess hstatus
  obtain rfl := Option.some.inj (hedge.symm.trans hadmitted.found)
  exact ⟨domain, ready, plan, links, hadmitted, hplan, hfound⟩

/-- **A route that was found can be reserved.** -/
theorem reserves (h : Consistent ctx p) (hii : ctx.ii ≠ 0) {edge : TargetEdge}
    (hedge : ctx.dfg.findEdge edge.id = some edge) {producer consumer : NodePlacement}
    {route : RouteSearchResult} (hroute : routeSearch ctx p edge producer consumer = .ok route)
    (hstatus : route.status = .success) : ∃ plan links later, route.plan = some plan ∧
      routeResources ctx plan producer = .ok links ∧
      p.reservations.tryReserve links ⟨.edge, edge.id⟩
        = (some ⟨⟨.edge, edge.id⟩, links⟩, later) := by
  obtain ⟨domain, ready, plan, links, hadmitted, hplan, hfound⟩ :=
    h.found_of_routeSearch hii hedge hroute hstatus
  obtain ⟨later, hlater⟩ : ∃ later, p.reservations.reserve links ⟨.edge, edge.id⟩ = some later :=
    ResourceReservationTable.exists_reserve_iff.mpr ⟨hfound.nodup, hfound.free⟩
  have htravels := hfound.travels
  rw [← hfound.domain] at htravels
  exact ⟨plan, links, later, hplan,
    routeResources_of_travels hadmitted.slot_lt hfound.nodup htravels,
    ResourceReservationTable.tryReserve_eq_some_iff.mpr ⟨rfl, hlater⟩⟩

theorem mem_realize {edge : TargetEdge} {cycles : ℕ} {transport : Option TransportPlan}
    {later : ResourceReservationTable} (hfresh : p.hasDependence edge.id = false)
    {dependence : MappedDependence} :
    dependence ∈ (p.realize edge cycles transport later).dependences ↔
      dependence = ⟨edge.id, edge.kind, cycles, transport⟩ ∨ dependence ∈ p.dependences :=
  @SortedMap.mem_emplace _ _ _ MappedDependence.edge ⟨edge.id, edge.kind, cycles, transport⟩ _ _
    hfresh

/-- A dependence that was just realized. -/
theorem wellRealized (h : Consistent ctx p) (hii : ctx.ii ≠ 0) {edge : TargetEdge}
    (hedge : ctx.dfg.findEdge edge.id = some edge) (hsrc : p.hasPlacement edge.src = true)
    (hdst : p.hasPlacement edge.dst = true) {reservation : Option ReservationDelta}
    (hrealizes : Realizes ctx p edge reservation q) : ∃ cycles transport later,
      WellRealized ctx p.placements edge ⟨edge.id, edge.kind, cycles, transport⟩ ∧
      q = p.realize edge cycles transport later ∧
      ((transport = none ∧ later = p.reservations) ∨ ∃ plan producer links,
        transport = some plan ∧ producer ∈ p.placements ∧ producer.node = edge.src ∧
        routeResources ctx plan producer = .ok links ∧
        p.reservations.reserve links ⟨.edge, edge.id⟩ = some later) := by
  have hends : (∃ producer ∈ p.placements, producer.node = edge.src) ∧
      ∃ consumer ∈ p.placements, consumer.node = edge.dst :=
    ⟨SortedMap.contains_iff.mp hsrc, SortedMap.contains_iff.mp hdst⟩
  rcases hrealizes with @⟨kind, hinfo⟩ | @⟨producer, consumer, route, plan, links, later, hkind,
    hproducer, hconsumer, hroute, hstatus, hplan, hlinks, htry⟩
  · refine ⟨_, _, _, ⟨rfl, hends.1, hends.2, fun kind' hkind' ↦ ?_, fun hvalue ↦ ?_⟩, rfl,
      .inl ⟨rfl, rfl⟩⟩
    · obtain rfl := EdgeInfo.memory.inj (hinfo.symm.trans hkind')
      exact ⟨rfl, rfl⟩
    · exact absurd (TargetEdge.kind_eq_memory_iff.mpr ⟨kind, hinfo⟩) hvalue
  · obtain ⟨domain, ready, plan', links', hadmitted, hplan', hfound⟩ :=
      h.found_of_routeSearch hii hedge hroute hstatus
    obtain rfl := Option.some.inj (hplan.symm.trans hplan')
    obtain ⟨node, hnode, hready⟩ := hadmitted.ready_eq
    obtain ⟨hproducerMem, hproducerNode⟩ := mem_placements hproducer
    obtain ⟨hconsumerMem, hconsumerNode⟩ := mem_placements hconsumer
    obtain ⟨-, hreserve⟩ := ResourceReservationTable.tryReserve_eq_some_iff.mp htry
    refine ⟨_, _, _, ⟨rfl, hends.1, hends.2, fun kind' hkind' ↦ ?_, fun _ ↦ ?_⟩, rfl,
      .inr ⟨plan, producer, links, rfl, hproducerMem, hproducerNode, hlinks, hreserve⟩⟩
    · exact absurd (TargetEdge.kind_eq_memory_iff.mpr ⟨kind', hkind'⟩) hkind
    · have hdomain : plan.domain = domain := hfound.domain
      refine ⟨plan, rfl, rfl, hfound.edge, hdomain.trans hadmitted.domain_eq, ?_, node, ready,
        hnode, hready, ?_⟩
      · rw [hdomain]
        exact hadmitted.hopLatency_ne
      · intro a ha haNode b hb hbNode
        obtain rfl := h.unique ha hproducerMem (haNode.trans hproducerNode.symm)
        obtain rfl := h.unique hb hconsumerMem (hbNode.trans hconsumerNode.symm)
        refine ⟨hadmitted.slot_lt, hfound.waits, links', hfound.nodup, ?_⟩
        rw [hdomain]
        exact hfound.travels

/-- Recording a well realized dependence, with the links of its plan reserved, keeps the parts in
agreement. -/
theorem keeps (h : Consistent ctx p) {edge : TargetEdge}
    (hedge : ctx.dfg.findEdge edge.id = some edge) (hfresh : p.hasDependence edge.id = false)
    {cycles : ℕ} {transport : Option TransportPlan} {later : ResourceReservationTable}
    (hwell : WellRealized ctx p.placements edge ⟨edge.id, edge.kind, cycles, transport⟩)
    (htable : (transport = none ∧ later = p.reservations) ∨ ∃ plan producer links,
      transport = some plan ∧ producer ∈ p.placements ∧ producer.node = edge.src ∧
      routeResources ctx plan producer = .ok links ∧
      p.reservations.reserve links ⟨.edge, edge.id⟩ = some later) :
    Consistent ctx (p.realize edge cycles transport later) := by
  have hmem := @mem_realize p edge cycles transport later hfresh
  have hsubset : p.dependences ⊆ (p.realize edge cycles transport later).dependences :=
    fun dependence hdependence ↦ hmem.mpr (.inr hdependence)
  -- what was held before is held still, and only the new dependence holds more
  have hholds : ∀ owner resources, Holds ctx p.placements
      (p.realize edge cycles transport later).dependences owner resources ↔
      Holds ctx p.placements p.dependences owner resources ∨
        (owner = ⟨.edge, edge.id⟩ ∧ ∃ plan producer, transport = some plan ∧
          producer ∈ p.placements ∧ producer.node = edge.src ∧
          routeResources ctx plan producer = .ok resources) := by
    intro owner resources
    constructor
    · intro hnow
      rcases hnow with ⟨hplacement, hnode, hfootprint⟩ |
        @⟨dependence, edge', plan, producer, links, hdependence, hplan, hedge', hproducer, hnode,
          hlinks⟩
      · exact .inl (.node hplacement hnode hfootprint)
      · rcases hmem.mp hdependence with rfl | hdependence
        · obtain rfl := Option.some.inj (hedge.symm.trans hedge')
          exact .inr ⟨rfl, plan, producer, hplan, hproducer, hnode, hlinks⟩
        · exact .inl (.edge hdependence hplan hedge' hproducer hnode hlinks)
    · rintro (hbefore | ⟨rfl, plan, producer, hplan, hproducer, hnode, hlinks⟩)
      · exact hbefore.mono (List.Subset.refl _) hsubset
      · exact .edge (hmem.mpr (.inl rfl)) hplan hedge hproducer hnode hlinks
  have howned : later.owners.length = ctx.resources.resourceCount ∧
      ∀ (resource : ResourceId) (owner : ReservationOwner),
        later.owners[resource]? = some (some owner) ↔ ∃ resources,
          Holds ctx p.placements (p.realize edge cycles transport later).dependences owner
            resources ∧ resource ∈ resources := by
    simp only [hholds]
    rcases htable with ⟨rfl, rfl⟩ | ⟨plan, producer, links, rfl, hproducer, hnode, hlinks, hreserve⟩
    · refine ⟨h.size, fun resource owner ↦ ?_⟩
      rw [h.owned]
      simp
    · obtain ⟨⟨-, hfree⟩, hlater⟩ := ResourceReservationTable.reserve_eq_some_iff.mp hreserve
      refine ⟨(ResourceReservationTable.reserve_spec hreserve).1.trans h.size, ?_⟩
      intro resource owner
      rw [hlater]
      constructor
      · intro howner
        split at howner
        · rename_i hresource
          obtain rfl := Option.some.inj (Option.some.inj howner)
          exact ⟨links, .inr ⟨rfl, plan, producer, rfl, hproducer, hnode, hlinks⟩, hresource⟩
        · obtain ⟨resources, hheld, hresource⟩ := (h.owned resource owner).mp howner
          exact ⟨resources, .inl hheld, hresource⟩
      · rintro ⟨resources, hheld | ⟨rfl, plan', producer', hplan', hproducer', hnode', hlinks'⟩,
          hresource⟩
        · have howner := (h.owned resource owner).mpr ⟨resources, hheld, hresource⟩
          rw [if_neg, howner]
          intro hclash
          rw [hfree resource hclash] at howner
          cases howner
        · obtain rfl := Option.some.inj hplan'
          obtain rfl := h.unique hproducer hproducer' (hnode.trans hnode'.symm)
          obtain rfl := Except.ok.inj (hlinks.symm.trans hlinks')
          exact if_pos hresource
  refine ⟨h.placements, h.dependences.emplace hfresh, h.placed, ?_, howned.1, howned.2⟩
  intro dependence hdependence
  rcases hmem.mp hdependence with rfl | hdependence
  · exact ⟨edge, hedge, hwell⟩
  · exact h.realized dependence hdependence

/-- **Realizing an edge keeps the parts in agreement.** -/
theorem realize (h : Consistent ctx p) (hii : ctx.ii ≠ 0) {edge : TargetEdge}
    (hedge : ctx.dfg.findEdge edge.id = some edge) (hfresh : p.hasDependence edge.id = false)
    (hsrc : p.hasPlacement edge.src = true) (hdst : p.hasPlacement edge.dst = true)
    {reservation : Option ReservationDelta} (hrealizes : Realizes ctx p edge reservation q) :
    Consistent ctx q := by
  obtain ⟨cycles, transport, later, hwell, rfl, htable⟩ :=
    h.wellRealized hii hedge hsrc hdst hrealizes
  exact h.keeps hedge hfresh hwell htable

/-- An edge that can be realized: its ends are placed and it has no dependence yet. -/
structure Due (ctx : Context) (p : PartialMapping) (id : TargetEdgeId) : Prop where
  src : ∀ edge, ctx.dfg.findEdge id = some edge → p.hasPlacement edge.src = true
  dst : ∀ edge, ctx.dfg.findEdge id = some edge → p.hasPlacement edge.dst = true
  fresh : p.hasDependence id = false

theorem hasDependence_of_realizes {edge : TargetEdge} {reservation : Option ReservationDelta}
    (hfresh : p.hasDependence edge.id = false) (hrealizes : Realizes ctx p edge reservation q)
    (id : TargetEdgeId) :
    q.hasDependence id = true ↔ p.hasDependence id = true ∨ id = edge.id := by
  obtain ⟨dependence, hid, hdependences⟩ := hrealizes.dependences_eq
  have hkey : SortedMap.contains MappedDependence.edge dependence.edge p.dependences = false := by
    rw [hid]
    exact hfresh
  rw [PartialMapping.hasDependence, PartialMapping.hasDependence, hdependences,
    SortedMap.contains_iff, SortedMap.contains_iff]
  constructor
  · rintro ⟨d, hd, rfl⟩
    rcases (SortedMap.mem_emplace hkey).mp hd with rfl | hd
    · exact .inr hid
    · exact .inl ⟨d, hd, rfl⟩
  · rintro (⟨d, hd, rfl⟩ | rfl)
    · exact ⟨d, (SortedMap.mem_emplace hkey).mpr (.inr hd), rfl⟩
    · exact ⟨dependence, (SortedMap.mem_emplace hkey).mpr (.inl rfl), hid⟩

/-- Realizing edges one after the other. -/
theorem realizeAll (h : Consistent ctx p) (hii : ctx.ii ≠ 0) {ids : List TargetEdgeId}
    {reservations : List ReservationDelta} (hall : RealizesAll ctx ids p reservations q)
    (hnodup : ids.Nodup) (hdue : ∀ id ∈ ids, Due ctx p id) :
    Consistent ctx q ∧ ∀ id, q.hasDependence id = true ↔ p.hasDependence id = true ∨ id ∈ ids := by
  induction hall with
  | nil p => exact ⟨h, fun id ↦ by simp⟩
  | @cons id ids edge p q r reservation reservations hedge hone _ ih =>
    rw [List.nodup_cons] at hnodup
    rw [List.forall_mem_cons] at hdue
    obtain ⟨hsrc, hdst, hfresh⟩ := hdue.1
    obtain rfl := TargetDFG.findEdge_id hedge
    have hconsistent := h.realize hii hedge hfresh (hsrc edge hedge) (hdst edge hedge) hone
    have hdependence := hasDependence_of_realizes hfresh hone
    have hplacement : ∀ node, q.hasPlacement node = p.hasPlacement node := by
      intro node
      rw [PartialMapping.hasPlacement, hone.placements_eq, PartialMapping.hasPlacement]
    have hdue' : ∀ id ∈ ids, Due ctx q id := by
      intro id hid
      obtain ⟨hsrc', hdst', hfresh'⟩ := hdue.2 id hid
      refine ⟨fun e he ↦ ?_, fun e he ↦ ?_, ?_⟩
      · rw [hplacement]
        exact hsrc' e he
      · rw [hplacement]
        exact hdst' e he
      · rw [← Bool.not_eq_true, hdependence, not_or, hfresh']
        refine ⟨Bool.false_ne_true, ?_⟩
        rintro rfl
        exact hnodup.1 hid
    obtain ⟨hr, hlater⟩ := ih hconsistent hnodup.2 hdue'
    refine ⟨hr, fun other ↦ ?_⟩
    rw [hlater, hdependence, List.mem_cons, or_assoc]

end Consistent

/-! ## Between two candidates -/

/-- A partial mapping between two candidates: its parts agree, and exactly the edges whose ends are
both placed are realized. -/
structure Accounted (ctx : Context) (p : PartialMapping) : Prop extends Consistent ctx p where
  closed : ∀ edge ∈ ctx.dfg.edges, p.hasDependence edge.id = true ↔
    p.hasPlacement edge.src = true ∧ p.hasPlacement edge.dst = true

namespace Accounted

variable {p q placed : PartialMapping} {node : TargetNodeId} {tile : TileCoord} {slot : ℕ}
  {footprint : List ResourceId}

theorem start : Accounted ctx (ModuloMapper.start ctx) where
  toConsistent := .start
  closed _ _ := by
    simp [ModuloMapper.start, PartialMapping.hasDependence, PartialMapping.hasPlacement,
      SortedMap.contains]

theorem hasPlacement_of_places (hnode : p.hasPlacement node = false)
    (hplaces : Places ctx p node tile slot footprint placed) (other : TargetNodeId) :
    placed.hasPlacement other = true ↔ p.hasPlacement other = true ∨ other = node := by
  rcases hplaces with ⟨-, -, -⟩
  rw [PartialMapping.hasPlacement, PartialMapping.hasPlacement, SortedMap.contains_iff,
    SortedMap.contains_iff]
  constructor
  · rintro ⟨placement, hplacement, rfl⟩
    rcases (Consistent.mem_place hnode).mp hplacement with rfl | hplacement
    · exact .inr rfl
    · exact .inl ⟨placement, hplacement, rfl⟩
  · rintro (⟨placement, hplacement, rfl⟩ | rfl)
    · exact ⟨placement, (Consistent.mem_place hnode).mpr (.inr hplacement), rfl⟩
    · exact ⟨⟨other, tile, slot⟩, (Consistent.mem_place hnode).mpr (.inl rfl), rfl⟩

theorem dependences_of_places (hplaces : Places ctx p node tile slot footprint placed) :
    placed.dependences = p.dependences := by
  rcases hplaces with ⟨-, -, -⟩
  rfl

/-- The edges a placement closes are due. -/
theorem due_of_closedEdges (hids : (ctx.dfg.edges.map TargetEdge.id).Nodup) {id : TargetEdgeId}
    (hid : id ∈ closedEdges ctx placed node) : Consistent.Due ctx placed id := by
  obtain ⟨edge, hedge, rfl, -, hsrc, hdst, hfresh⟩ := mem_closedEdges.mp hid
  have hfind : ctx.dfg.findEdge edge.id = some edge := Scan.find?_eq_some_of_nodup hids hedge
  refine ⟨fun other hother ↦ ?_, fun other hother ↦ ?_, hfresh⟩
  · obtain rfl := Option.some.inj (hfind.symm.trans hother)
    exact hsrc
  · obtain rfl := Option.some.inj (hfind.symm.trans hother)
    exact hdst

/-- Within a candidate: the node is placed and some of the edges this closes are realized. -/
theorem within (h : Accounted ctx p) (hids : (ctx.dfg.edges.map TargetEdge.id).Nodup)
    (hii : ctx.ii ≠ 0) (hnode : p.hasPlacement node = false)
    (hplaces : Places ctx p node tile slot footprint placed) {before after : List TargetEdgeId}
    (hclosed : closedEdges ctx placed node = before ++ after)
    {reservations : List ReservationDelta} (hall : RealizesAll ctx before placed reservations q) :
    Consistent ctx q ∧
      ∀ id, q.hasDependence id = true ↔ p.hasDependence id = true ∨ id ∈ before := by
  have hnodup : (before ++ after).Nodup := hclosed ▸ nodup_closedEdges hids placed node
  have hdue : ∀ id ∈ before, Consistent.Due ctx placed id := by
    intro id hid
    apply due_of_closedEdges hids
    rw [hclosed]
    exact List.mem_append_left after hid
  obtain ⟨hconsistent, hdependence⟩ :=
    (h.toConsistent.place hnode hplaces).realizeAll hii hall hnodup.of_append_left hdue
  refine ⟨hconsistent, fun id ↦ ?_⟩
  rw [hdependence, PartialMapping.hasDependence, dependences_of_places hplaces]
  rfl

/-- **A candidate that stands leaves everything accounted for.** -/
theorem extend (h : Accounted ctx p) (hids : (ctx.dfg.edges.map TargetEdge.id).Nodup)
    (hii : ctx.ii ≠ 0) (hnode : p.hasPlacement node = false)
    (hextends : Extends ctx p node tile slot q) :
    Accounted ctx q ∧ q.placements.length = p.placements.length + 1 := by
  obtain ⟨footprint, placed, reservations, hplaces, hall⟩ := hextends
  obtain ⟨hconsistent, hdependence⟩ :=
    h.within hids hii hnode hplaces (List.append_nil _).symm hall
  have hplacement : ∀ other, q.hasPlacement other = true ↔
      p.hasPlacement other = true ∨ other = node := by
    intro other
    rw [← hasPlacement_of_places hnode hplaces, PartialMapping.hasPlacement, hall.placements_eq]
    rfl
  refine ⟨⟨hconsistent, fun edge hedge ↦ ?_⟩, ?_⟩
  · rw [hdependence, hplacement, hplacement]
    constructor
    · rintro (hbefore | hnow)
      · obtain ⟨hsrc, hdst⟩ := (h.closed edge hedge).mp hbefore
        exact ⟨.inl hsrc, .inl hdst⟩
      · have hdue := due_of_closedEdges hids hnow
        have hfind := Scan.find?_eq_some_of_nodup hids hedge
        exact ⟨(hasPlacement_of_places hnode hplaces _).mp (hdue.src edge hfind),
          (hasPlacement_of_places hnode hplaces _).mp (hdue.dst edge hfind)⟩
    · rintro ⟨hsrc, hdst⟩
      by_cases hbefore : p.hasDependence edge.id = true
      · exact .inl hbefore
      · -- the edge was open before, so it is one of those the node closes
        right
        rw [mem_closedEdges]
        refine ⟨edge, hedge, rfl, ?_, (hasPlacement_of_places hnode hplaces _).mpr hsrc,
          (hasPlacement_of_places hnode hplaces _).mpr hdst, ?_⟩
        · rw [h.closed edge hedge] at hbefore
          rcases hsrc with hsrc | hsrc
          · rcases hdst with hdst | hdst
            · exact absurd ⟨hsrc, hdst⟩ hbefore
            · exact .inr hdst
          · exact .inl hsrc
        · rw [PartialMapping.hasDependence, dependences_of_places hplaces, ← Bool.not_eq_true]
          exact hbefore
  · rw [hall.placements_eq]
    rcases hplaces with ⟨-, -, -⟩
    exact (@SortedMap.perm_emplace _ _ _ NodePlacement.node ⟨node, tile, slot⟩ _ hnode).length_eq

end Accounted

end ModuloMapper

end PredicatedMesh
