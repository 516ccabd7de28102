import PredicatedMesh.Mapping.MapperConsistency
import PredicatedMesh.Mapping.TransportAcceptance

/-!
# A complete mapping is accepted

When every node is placed, the parts of an accounted partial mapping are a whole mapping: each edge
has its dependence, the builder refuses nothing, and the verifier has nothing to report. The
verifier rebuilds the reservations from an empty table, owner by owner. Since different owners hold
different resources, each of them finds its resources free: `Rebuilds` is the invariant of both of
its loops, with the owners that are still to come.
-/

namespace PredicatedMesh

namespace ModuloMapper

variable {ctx : Context} {p : PartialMapping}

/-! ## Complete partial mappings -/

/-- The placements and the dependences as a mapping. -/
def PartialMapping.toMapping (ctx : Context) (p : PartialMapping) : ModuloMapping where
  targetName := ctx.dfg.targetName
  ii := ctx.ii
  placements := p.placements
  dependences := p.dependences

/-- What is known of a context before the search: its graph is verified for its target, and the
interval is not zero. -/
structure Context.Checked (ctx : Context) : Prop where
  verified : TargetDFGVerifier.verify ctx.dfg ctx.target = []
  targetName : ctx.dfg.targetName = ctx.target.name
  ii_ne : ctx.ii ≠ 0

theorem Context.Checked.graph (h : ctx.Checked) : ctx.dfg.Verified ctx.target :=
  TargetDFGVerifier.verified_of_verify h.verified

/-- Only nodes of the graph are placed. -/
theorem Consistent.placements_subset (h : Consistent ctx p) :
    p.placements.map NodePlacement.node ⊆ ctx.dfg.nodes.map TargetNode.id := by
  intro id hid
  obtain ⟨placement, hplacement, rfl⟩ := List.mem_map.mp hid
  obtain ⟨node, -, hnode, -⟩ := h.placed placement hplacement
  rw [← TargetDFG.findNode_id hnode]
  exact List.mem_map_of_mem (TargetDFG.mem_of_findNode hnode)

/-- An accounted partial mapping that places every node. -/
structure Whole (ctx : Context) (p : PartialMapping) : Prop extends Accounted ctx p,
    Context.Checked ctx where
  mapped : allNodesMapped ctx p = true

/-- What a node or an edge of the graph will hold in the table. -/
def nodeOwner (node : TargetNode) : ReservationOwner := ⟨.node, node.id⟩

def edgeOwner (edge : TargetEdge) : ReservationOwner := ⟨.edge, edge.id⟩

namespace Whole

/-- The placed nodes are the nodes of the graph. -/
theorem perm_nodes (h : Whole ctx p) :
    (p.placements.map NodePlacement.node).Perm (ctx.dfg.nodes.map TargetNode.id) := by
  apply (List.subperm_of_subset h.placements.nodup h.placements_subset).perm_of_length_le
  have hlength : p.placements.length = ctx.dfg.nodes.length := beq_iff_eq.mp h.mapped
  rw [List.length_map, List.length_map, hlength]

theorem hasPlacement (h : Whole ctx p) {id : TargetNodeId} {node : TargetNode}
    (hnode : ctx.dfg.findNode id = some node) : p.hasPlacement id = true := by
  obtain rfl := TargetDFG.findNode_id hnode
  have hmem := h.perm_nodes.mem_iff.mpr (List.mem_map_of_mem (TargetDFG.mem_of_findNode hnode))
  exact SortedMap.contains_iff.mpr (List.mem_map.mp hmem)

theorem hasDependence (h : Whole ctx p) {edge : TargetEdge} (hedge : edge ∈ ctx.dfg.edges) :
    p.hasDependence edge.id = true := by
  obtain ⟨src, dst, hsrc, hdst⟩ := h.graph.endpoints edge hedge
  exact (h.closed edge hedge).mpr ⟨h.hasPlacement hsrc, h.hasPlacement hdst⟩

/-- The realized edges are the edges of the graph. -/
theorem perm_edges (h : Whole ctx p) :
    (p.dependences.map MappedDependence.edge).Perm (ctx.dfg.edges.map TargetEdge.id) := by
  rw [List.perm_ext_iff_of_nodup h.dependences.nodup h.graph.nodup_edges]
  intro id
  rw [List.mem_map, List.mem_map]
  constructor
  · rintro ⟨dependence, hdependence, rfl⟩
    obtain ⟨edge, hedge, -⟩ := h.realized dependence hdependence
    exact ⟨edge, TargetDFG.mem_of_findEdge hedge, TargetDFG.findEdge_id hedge⟩
  · rintro ⟨edge, hedge, rfl⟩
    exact SortedMap.contains_iff.mp (h.hasDependence hedge)

end Whole

/-! ## Building the mapping -/

/-- Every action of a plan that travels is on the network of the plan, and every hold takes time. -/
theorem checkAction_of_travels {model : ModuloResourceModel} {plan : TransportPlan}
    {producer : NodePlacement} {ready elapsed : ℕ} {actions : List TransportAction}
    {links : List ResourceId} {tile : TileCoord}
    (h : Travels model plan.domain producer ready actions links tile elapsed) :
    ∀ action ∈ actions, ModuloMappingBuilder.checkAction plan action = .ok () := by
  induction h with
  | start => exact List.forall_mem_nil _
  | link _ _ _ ih =>
    rw [List.forall_mem_append, List.forall_mem_singleton]
    refine ⟨ih, ?_⟩
    simp only [ModuloMappingBuilder.checkAction, TransportAction.domain, ne_eq, not_true_eq_false,
      if_false]
  | hold _ hlt ih =>
    rw [List.forall_mem_append, List.forall_mem_singleton]
    refine ⟨ih, ?_⟩
    simp only [ModuloMappingBuilder.checkAction, TransportAction.domain, ne_eq, not_true_eq_false,
      if_false, not_le.mpr hlt]

namespace Whole

/-- The builder takes the placements as they are, in whatever order. -/
theorem place_eq (h : Whole ctx p) {l : List NodePlacement} (hperm : l.Perm p.placements) :
    l.foldlM (ModuloMappingBuilder.place ctx.dfg ctx.ii) [] = .ok l := by
  apply Scan.foldlM_eq_self
  intro before placement after hsplit
  have hmem : placement ∈ p.placements := by
    rw [← hperm.mem_iff, hsplit]
    exact List.mem_append_right _ List.mem_cons_self
  obtain ⟨node, footprint, hnode, hfootprint⟩ := h.placed placement hmem
  have hknown : ctx.dfg.containsNode placement.node = true := by
    rw [TargetDFG.containsNode, hnode, Option.isSome_some]
  have hslot : ¬ placement.issueSlot ≥ ctx.ii := by
    obtain ⟨operation, hoperation, -⟩ := h.graph.agrees node (TargetDFG.mem_of_findNode hnode)
    exact not_le.mpr (ModuloResourceModel.operationFootprint_spec hoperation hfootprint).1
  have hfresh : (before.any fun value ↦ value.node == placement.node) = false := by
    have hnodup := (hperm.map NodePlacement.node).nodup_iff.mpr h.placements.nodup
    rw [hsplit, List.map_append, List.map_cons, List.nodup_middle, List.nodup_cons] at hnodup
    rw [List.any_eq_false]
    intro value hvalue hsame
    rw [beq_iff_eq] at hsame
    exact hnodup.1 (List.mem_append_left _ (hsame ▸ List.mem_map_of_mem hvalue))
  simp only [ModuloMappingBuilder.place, if_neg hslot, hknown, hfresh, Bool.not_true,
    Bool.false_eq_true, if_false]

/-- An entry whose key is not among those before it. -/
theorem fresh_dependence (h : Whole ctx p) {l before after : List MappedDependence}
    {dependence : MappedDependence} (hperm : l.Perm p.dependences)
    (hsplit : l = before ++ dependence :: after) :
    (before.any fun value ↦ value.edge == dependence.edge) = false := by
  have hnodup := (hperm.map MappedDependence.edge).nodup_iff.mpr h.dependences.nodup
  rw [hsplit, List.map_append, List.map_cons, List.nodup_middle, List.nodup_cons] at hnodup
  rw [List.any_eq_false]
  intro value hvalue hsame
  rw [beq_iff_eq] at hsame
  exact hnodup.1 (List.mem_append_left _ (hsame ▸ List.mem_map_of_mem hvalue))

/-- The dependences a builder is given are realized. -/
theorem realized_of_split (h : Whole ctx p) {l before after : List MappedDependence}
    {dependence : MappedDependence} (hperm : l.Perm p.dependences)
    (hsplit : l = before ++ dependence :: after) : ∃ edge,
      ctx.dfg.findEdge dependence.edge = some edge ∧
        WellRealized ctx p.placements edge dependence := by
  apply h.realized
  rw [← hperm.mem_iff, hsplit]
  exact List.mem_append_right _ List.mem_cons_self

/-- A memory dependence is recorded by its separation. -/
theorem setMemorySeparation_eq (h : Whole ctx p) {l before after : List MappedDependence}
    {dependence : MappedDependence} (hperm : l.Perm p.dependences)
    (hsplit : l = before ++ dependence :: after) (hnone : dependence.transport = none) :
    ModuloMappingBuilder.setMemorySeparation ctx.dfg before dependence.edge
      dependence.requiredSeparationCycles = .ok (before ++ [dependence]) := by
  have hfresh := h.fresh_dependence hperm hsplit
  obtain ⟨edge, hedge, hrealized⟩ := h.realized_of_split hperm hsplit
  have hkind : edge.kind = .memory := by
    by_contra hvalue
    obtain ⟨plan, hplan, -⟩ := hrealized.value hvalue
    rw [hnone] at hplan
    cases hplan
  rcases dependence with ⟨id, kind, cycles, transport⟩
  obtain rfl : kind = .memory := hrealized.kind.trans hkind
  obtain rfl : transport = none := hnone
  simp only [ModuloMappingBuilder.setMemorySeparation, hedge, hfresh, hkind, ne_eq,
    not_true_eq_false, if_false, Bool.false_eq_true]

/-- The dependence of a value is recorded by its plan. -/
theorem setTransport_eq (h : Whole ctx p) {l before after : List MappedDependence}
    {dependence : MappedDependence} (hperm : l.Perm p.dependences)
    (hsplit : l = before ++ dependence :: after) {transport : TransportPlan}
    (htransport : dependence.transport = some transport) :
    ModuloMappingBuilder.setTransport ctx.dfg before dependence.edge transport
      = .ok (before ++ [dependence]) := by
  have hfresh := h.fresh_dependence hperm hsplit
  obtain ⟨edge, hedge, hrealized⟩ := h.realized_of_split hperm hsplit
  have hkind : edge.kind ≠ .memory := by
    intro hmemory
    obtain ⟨memoryKind, hinfo⟩ := TargetEdge.kind_eq_memory_iff.mp hmemory
    rw [(hrealized.memory memoryKind hinfo).1] at htransport
    cases htransport
  obtain ⟨plan, hplan, hcycles, hplanEdge, hdomain, -, _, _, -, -, htravels⟩ :=
    hrealized.value hkind
  obtain ⟨producer, hproducer, hsrc⟩ := hrealized.src
  obtain ⟨consumer, hconsumer, hdst⟩ := hrealized.dst
  obtain ⟨-, -, links, -, htravel⟩ := htravels producer hproducer hsrc consumer hconsumer hdst
  have hactions : plan.actions.forM (ModuloMappingBuilder.checkAction plan) = .ok () :=
    Scan.forM_eq_ok (checkAction_of_travels htravel)
  have hid : plan.edge = dependence.edge := hplanEdge.trans (TargetDFG.findEdge_id hedge)
  obtain rfl := Option.some.inj (hplan.symm.trans htransport)
  rcases dependence with ⟨id, kind, cycles, transport⟩
  obtain rfl : kind = edge.kind := hrealized.kind
  obtain rfl : transport = some plan := hplan
  obtain rfl : cycles = plan.requiredSeparationCycles := hcycles
  simp only at hid hedge hfresh
  simp only [ModuloMappingBuilder.setTransport, hedge, hfresh, hkind, hdomain, hid, hactions,
    ne_eq, not_true_eq_false, if_false, Bool.false_eq_true]

/-- The builder has everything, however it was listed. -/
theorem finish_eq (h : Whole ctx p) {l : List NodePlacement} {m : List MappedDependence}
    (hl : l.Perm p.placements) (hm : m.Perm p.dependences) :
    ModuloMappingBuilder.finish ctx.dfg ctx.ii l m = .ok (p.toMapping ctx) := by
  have hnodes : l.length = ctx.dfg.nodes.length := by
    have hlength := h.perm_nodes.length_eq
    rwa [List.length_map, List.length_map, ← hl.length_eq] at hlength
  have hedges : m.length = ctx.dfg.edges.length := by
    have hlength := h.perm_edges.length_eq
    rwa [List.length_map, List.length_map, ← hm.length_eq] at hlength
  have hlengths : ¬ (l.length ≠ ctx.dfg.nodes.length ∨ m.length ≠ ctx.dfg.edges.length) := by
    rintro (hne | hne)
    · exact hne hnodes
    · exact hne hedges
  rw [ModuloMappingBuilder.finish, if_neg hlengths, h.placements.insertionSort_eq hl,
    h.dependences.insertionSort_eq hm, PartialMapping.toMapping]

/-- **A whole partial mapping is a mapping.** -/
theorem materialize_eq (h : Whole ctx p) : materialize ctx p = .ok (p.toMapping ctx) := by
  rw [materialize]
  refine Scan.bind_eq_ok.mpr ⟨_, h.place_eq (.refl _),
    Scan.bind_eq_ok.mpr ⟨_, Scan.foldlM_eq_self ?_, h.finish_eq (.refl _) (.refl _)⟩⟩
  intro before dependence after hsplit
  split
  · rename_i transport htransport
    exact h.setTransport_eq (.refl _) hsplit htransport
  · rename_i hnone
    exact h.setMemorySeparation_eq (.refl _) hsplit hnone

end Whole

/-! ## Rebuilding the reservations -/

/-- A table that is rebuilt: what has an owner is held by it, and the owners still to come have
nothing yet. -/
structure Rebuilds (ctx : Context) (p : PartialMapping) (pending : List ReservationOwner)
    (table : ResourceReservationTable) : Prop where
  nodup : pending.Nodup
  size : table.owners.length = ctx.resources.resourceCount
  owned : ∀ (resource : ResourceId) (owner : ReservationOwner),
    table.owners[resource]? = some (some owner) → owner ∉ pending ∧
      ∃ resources, Holds ctx p.placements p.dependences owner resources ∧ resource ∈ resources

namespace Rebuilds

variable {owner : ReservationOwner} {pending : List ReservationOwner}
  {table : ResourceReservationTable} {resources : List ResourceId}

theorem start (hnodup : pending.Nodup) : Rebuilds ctx p pending (.empty ctx.resources) where
  nodup := hnodup
  size := ResourceReservationTable.length_empty _
  owned resource owner howner := by
    rw [ResourceReservationTable.empty] at howner
    obtain ⟨hlt, hnone⟩ := List.getElem?_eq_some_iff.mp howner
    rw [List.getElem_replicate] at hnone
    cases hnone

/-- An owner that holds no resource. -/
theorem skip (h : Rebuilds ctx p (owner :: pending) table) : Rebuilds ctx p pending table where
  nodup := (List.nodup_cons.mp h.nodup).2
  size := h.size
  owned resource other howner := by
    obtain ⟨hpending, hheld⟩ := h.owned resource other howner
    exact ⟨fun hmem ↦ hpending (List.mem_cons_of_mem _ hmem), hheld⟩

/-- **The next owner finds its resources free.** -/
theorem free (h : Rebuilds ctx p (owner :: pending) table) (hconsistent : Consistent ctx p)
    (hholds : Holds ctx p.placements p.dependences owner resources) :
    ∀ resource ∈ resources, table.owners[resource]? = some none := by
  intro resource hresource
  have howner := (hconsistent.owned resource owner).mpr ⟨resources, hholds, hresource⟩
  have hlt : (resource : ℕ) < table.owners.length := by
    rw [h.size, ← hconsistent.size]
    exact (List.getElem?_eq_some_iff.mp howner).1
  rw [List.getElem?_eq_getElem hlt]
  rcases hother : table.owners[resource] with _ | other
  · rfl
  · have htable : table.owners[resource]? = some (some other) := by
      rw [List.getElem?_eq_getElem hlt, hother]
    obtain ⟨hpending, resources', hholds', hresource'⟩ := h.owned resource other htable
    have hne : owner ≠ other := by
      rintro rfl
      exact hpending List.mem_cons_self
    exact absurd hresource' (hconsistent.disjoint hholds hholds' hne hresource)

theorem reserve (h : Rebuilds ctx p (owner :: pending) table) (hconsistent : Consistent ctx p)
    (hholds : Holds ctx p.placements p.dependences owner resources) (hresources : resources.Nodup) :
    ∃ later, table.reserve resources owner = some later ∧ Rebuilds ctx p pending later := by
  obtain ⟨later, hlater⟩ := ResourceReservationTable.exists_reserve_iff.mpr
    ⟨hresources, h.free hconsistent hholds⟩
  refine ⟨later, hlater, h.skip.nodup,
    (ResourceReservationTable.reserve_spec hlater).1.trans h.size, ?_⟩
  intro resource other howner
  rw [(ResourceReservationTable.reserve_eq_some_iff.mp hlater).2] at howner
  split at howner
  · rename_i hresource
    obtain rfl := Option.some.inj (Option.some.inj howner)
    exact ⟨(List.nodup_cons.mp h.nodup).1, resources, hholds, hresource⟩
  · exact h.skip.owned resource other howner

end Rebuilds

/-! ## Verifying the mapping -/

namespace Whole

open ModuloMappingVerifier

theorem placementEntries_eq (h : Whole ctx p) {placement : NodePlacement}
    (hplacement : placement ∈ p.placements) :
    (p.toMapping ctx).placementEntries placement.node = [placement] :=
  Scan.filter_eq_singleton_of_nodup h.placements.nodup hplacement

theorem dependenceEntries_eq (h : Whole ctx p) {dependence : MappedDependence}
    (hdependence : dependence ∈ p.dependences) :
    (p.toMapping ctx).dependenceEntries dependence.edge = [dependence] :=
  Scan.filter_eq_singleton_of_nodup h.dependences.nodup hdependence

theorem checkPlacementEntries_eq (h : Whole ctx p) :
    checkPlacementEntries ctx.dfg (p.toMapping ctx) = [] := by
  rw [checkPlacementEntries, List.flatMap_eq_nil_iff]
  intro id hid
  rw [List.mem_insertionSort, List.mem_dedup] at hid
  obtain ⟨placement, hplacement, rfl⟩ := List.mem_map.mp hid
  obtain ⟨node, -, hnode, -⟩ := h.placed placement hplacement
  rw [h.placementEntries_eq hplacement, TargetDFG.containsNode, hnode]
  rfl

theorem checkDependenceEntries_eq (h : Whole ctx p) :
    checkDependenceEntries ctx.dfg (p.toMapping ctx) = [] := by
  rw [checkDependenceEntries, List.flatMap_eq_nil_iff]
  intro id hid
  rw [List.mem_insertionSort, List.mem_dedup] at hid
  obtain ⟨dependence, hdependence, rfl⟩ := List.mem_map.mp hid
  obtain ⟨edge, hedge, -⟩ := h.realized dependence hdependence
  rw [h.dependenceEntries_eq hdependence, TargetDFG.containsEdge, hedge]
  rfl

theorem exists_placement (h : Whole ctx p) {node : TargetNode} (hnode : node ∈ ctx.dfg.nodes) :
    ∃ placement ∈ p.placements, placement.node = node.id :=
  List.mem_map.mp (h.perm_nodes.mem_iff.mpr (List.mem_map_of_mem hnode))

theorem exists_dependence (h : Whole ctx p) {edge : TargetEdge} (hedge : edge ∈ ctx.dfg.edges) :
    ∃ dependence ∈ p.dependences, dependence.edge = edge.id :=
  List.mem_map.mp (h.perm_edges.mem_iff.mpr (List.mem_map_of_mem hedge))

theorem checkMissingEntries_eq (h : Whole ctx p) :
    checkMissingEntries ctx.dfg (p.toMapping ctx) = [] := by
  rw [checkMissingEntries, List.append_eq_nil_iff, List.flatMap_eq_nil_iff,
    List.flatMap_eq_nil_iff]
  constructor
  · intro node hnode
    obtain ⟨placement, hplacement, hid⟩ := h.exists_placement (TargetDFG.mem_nodesById.mp hnode)
    rw [← hid, h.placementEntries_eq hplacement]
    rfl
  · intro edge hedge
    obtain ⟨dependence, hdependence, hid⟩ :=
      h.exists_dependence (TargetDFG.mem_edgesById.mp hedge)
    rw [← hid, h.dependenceEntries_eq hdependence]
    rfl

/-- **The node step.** -/
theorem checkPlacement_eq (h : Whole ctx p) {node : TargetNode} (hmem : node ∈ ctx.dfg.nodes)
    {pending : List ReservationOwner} {table : ResourceReservationTable}
    (htable : Rebuilds ctx p (nodeOwner node :: pending) table) : ∃ later,
      checkPlacement ctx.target (p.toMapping ctx) table node = .ok (later, []) ∧
        Rebuilds ctx p pending later := by
  obtain ⟨placement, hplacement, hid⟩ := h.exists_placement hmem
  obtain ⟨found, footprint, hfound, hfootprint⟩ := h.placed placement hplacement
  have hnode : ctx.dfg.findNode placement.node = some node := by
    rw [hid]
    exact Scan.find?_eq_some_of_nodup h.graph.nodup_nodes hmem
  obtain rfl := Option.some.inj (hfound.symm.trans hnode)
  obtain ⟨operation, hoperation, -⟩ := h.graph.agrees found hmem
  obtain ⟨hslot, -, hdistinct, -⟩ :=
    ModuloResourceModel.operationFootprint_spec hoperation hfootprint
  have hholds : Holds ctx p.placements p.dependences (nodeOwner found) footprint := by
    rw [nodeOwner, ← hid]
    exact .node hplacement hfound hfootprint
  obtain ⟨later, hlater, hrebuilds⟩ := htable.reserve h.toConsistent hholds hdistinct
  have hsupports := ModuloResourceModel.supportsOperation_of_footprint hfootprint
  obtain ⟨hrow, hcol⟩ := ModuloResourceModel.inRange_of_supportsOperation hsupports
  have htile : ¬ (placement.tile.row ≥ ctx.target.array.rows ∨
      placement.tile.col ≥ ctx.target.array.cols) := by
    rintro (hout | hout)
    · exact absurd hrow (not_lt.mpr hout)
    · exact absurd hcol (not_lt.mpr hout)
  have hcan : table.canReserve [] footprint = true := by
    rw [ResourceReservationTable.canReserve_iff]
    exact ⟨hdistinct, fun resource hresource ↦
      ⟨htable.free h.toConsistent hholds resource hresource, List.not_mem_nil⟩⟩
  have hreserve : reserveFootprint ctx.target (p.toMapping ctx) table found footprint
      = (later, []) := by
    rw [reserveFootprint, if_pos hcan]
    rw [nodeOwner] at hlater
    rw [hlater]
  refine ⟨later, ?_, hrebuilds⟩
  have hslot' : ¬ placement.issueSlot ≥ (p.toMapping ctx).ii := not_le.mpr hslot
  rw [checkPlacement, ← hid, h.placementEntries_eq hplacement]
  simp only [if_neg htile, if_neg hslot']
  rw [show (resourceModel ctx.target (p.toMapping ctx)) = ctx.resources from rfl, hsupports,
    hfootprint]
  exact congrArg Except.ok hreserve

/-- A memory dependence takes no resource. -/
theorem checkDependence_memory (h : Whole ctx p) {edge : TargetEdge}
    {dependence : MappedDependence} (hdependence : dependence ∈ p.dependences)
    (hid : dependence.edge = edge.id) (hrealized : WellRealized ctx p.placements edge dependence)
    {kind : MemoryDepKind} (hinfo : edge.info = .memory kind) (table : ResourceReservationTable) :
    checkDependence ctx.dfg ctx.target (p.toMapping ctx) table edge = .ok (table, []) := by
  obtain ⟨htransport, hcycles⟩ := hrealized.memory kind hinfo
  have hcheck : checkMemoryDependence ctx.target edge dependence kind = [] := by
    rw [checkMemoryDependence, htransport, hcycles]
    simp
  rw [checkDependence, ← hid, h.dependenceEntries_eq hdependence]
  simp only [hrealized.kind, ne_eq, not_true_eq_false, if_false, hinfo, hcheck]

/-- The value step. -/
theorem checkDependence_value (h : Whole ctx p) {edge : TargetEdge} (hedge : edge ∈ ctx.dfg.edges)
    {dependence : MappedDependence} (hdependence : dependence ∈ p.dependences)
    (hid : dependence.edge = edge.id) (hrealized : WellRealized ctx p.placements edge dependence)
    (hkind : edge.kind ≠ .memory) {pending : List ReservationOwner}
    {table : ResourceReservationTable}
    (htable : Rebuilds ctx p (edgeOwner edge :: pending) table) : ∃ later,
      checkDependence ctx.dfg ctx.target (p.toMapping ctx) table edge = .ok (later, []) ∧
        Rebuilds ctx p pending later := by
  obtain ⟨plan, hplan, hcycles, hplanEdge, hdomain, hhop, node, ready, hnode, hready, htravels⟩ :=
    hrealized.value hkind
  obtain ⟨producer, hproducer, hsrc⟩ := hrealized.src
  obtain ⟨consumer, hconsumer, hdst⟩ := hrealized.dst
  obtain ⟨hslot, hwaits, links, hdistinct, htravel⟩ :=
    htravels producer hproducer hsrc consumer hconsumer hdst
  have hfind : ctx.dfg.findEdge dependence.edge = some edge := by
    rw [hid]
    exact Scan.find?_eq_some_of_nodup h.graph.nodup_edges hedge
  have hholds : Holds ctx p.placements p.dependences (edgeOwner edge) links := by
    rw [edgeOwner, ← hid]
    exact .edge hdependence hplan hfind hproducer hsrc
      (routeResources_of_travels hslot hdistinct htravel)
  obtain ⟨later, hlater, hrebuilds⟩ := htable.reserve h.toConsistent hholds hdistinct
  have hfree := htable.free h.toConsistent hholds
  have hvalue : verifyValueTransport ctx.dfg ctx.target (p.toMapping ctx) edge dependence producer
      consumer table = .ok (later, []) :=
    verifyValueTransport_of_travels hplan hcycles hplanEdge hdomain hnode hready hhop hslot hwaits
      htravel hdistinct hfree hlater
  refine ⟨later, ?_, hrebuilds⟩
  have hproducers := h.placementEntries_eq hproducer
  have hconsumers := h.placementEntries_eq hconsumer
  rw [hsrc] at hproducers
  rw [hdst] at hconsumers
  rw [checkDependence, ← hid, h.dependenceEntries_eq hdependence]
  simp only [hrealized.kind, ne_eq, not_true_eq_false, if_false, hproducers, hconsumers, hvalue]
  split
  · rename_i kind hinfo
    exact absurd (TargetEdge.kind_eq_memory_iff.mpr ⟨kind, hinfo⟩) hkind
  · rfl

/-- **The edge step.** -/
theorem checkDependence_eq (h : Whole ctx p) {edge : TargetEdge} (hedge : edge ∈ ctx.dfg.edges)
    {pending : List ReservationOwner} {table : ResourceReservationTable}
    (htable : Rebuilds ctx p (edgeOwner edge :: pending) table) : ∃ later,
      checkDependence ctx.dfg ctx.target (p.toMapping ctx) table edge = .ok (later, []) ∧
        Rebuilds ctx p pending later := by
  obtain ⟨dependence, hdependence, hid⟩ := h.exists_dependence hedge
  obtain ⟨found, hfound, hrealized⟩ := h.realized dependence hdependence
  have hfind : ctx.dfg.findEdge dependence.edge = some edge := by
    rw [hid]
    exact Scan.find?_eq_some_of_nodup h.graph.nodup_edges hedge
  obtain rfl := Option.some.inj (hfound.symm.trans hfind)
  by_cases hkind : found.kind = .memory
  · obtain ⟨kind, hinfo⟩ := TargetEdge.kind_eq_memory_iff.mp hkind
    exact ⟨table, h.checkDependence_memory hdependence hid hrealized hinfo table, htable.skip⟩
  · exact h.checkDependence_value hedge hdependence hid hrealized hkind htable

/-- Nodes and edges own resources under different names. -/
theorem nodup_owners (h : Whole ctx p) :
    (ctx.dfg.nodesById.map nodeOwner ++ ctx.dfg.edgesById.map edgeOwner).Nodup := by
  have hnodes : (ctx.dfg.nodesById.map TargetNode.id).Nodup :=
    (TargetDFG.nodesById_perm.map _).nodup_iff.mpr h.graph.nodup_nodes
  have hedges : (ctx.dfg.edgesById.map TargetEdge.id).Nodup :=
    (TargetDFG.edgesById_perm.map _).nodup_iff.mpr h.graph.nodup_edges
  have hnodeOwner : ctx.dfg.nodesById.map nodeOwner
      = (ctx.dfg.nodesById.map TargetNode.id).map (ReservationOwner.mk .node) := by
    rw [List.map_map]
    rfl
  have hedgeOwner : ctx.dfg.edgesById.map edgeOwner
      = (ctx.dfg.edgesById.map TargetEdge.id).map (ReservationOwner.mk .edge) := by
    rw [List.map_map]
    rfl
  rw [hnodeOwner, hedgeOwner, List.nodup_append]
  refine ⟨hnodes.map fun a b hab ↦ (ReservationOwner.mk.inj hab).2,
    hedges.map fun a b hab ↦ (ReservationOwner.mk.inj hab).2, ?_⟩
  intro a ha b hb hab
  obtain ⟨node, -, rfl⟩ := List.mem_map.mp ha
  obtain ⟨edge, -, rfl⟩ := List.mem_map.mp hb
  cases (ReservationOwner.mk.inj hab).1

/-- The two loops over the graph report nothing. -/
theorem verifyReservations_eq (h : Whole ctx p) :
    verifyReservations ctx.dfg ctx.target (p.toMapping ctx) = .ok [] := by
  obtain ⟨placed, hnodes, hplaced⟩ := Scan.exists_loop_clean
    (I := fun nodes table ↦
      Rebuilds ctx p (nodes.map nodeOwner ++ ctx.dfg.edgesById.map edgeOwner) table)
    (fun node hnode _ _ htable ↦ h.checkPlacement_eq (TargetDFG.mem_nodesById.mp hnode) htable)
    (.start h.nodup_owners)
  obtain ⟨realized, hedges, -⟩ := Scan.exists_loop_clean
    (I := fun edges table ↦ Rebuilds ctx p (edges.map edgeOwner) table)
    (fun edge hedge _ _ htable ↦ h.checkDependence_eq (TargetDFG.mem_edgesById.mp hedge) htable)
    hplaced
  rw [verifyReservations]
  rw [show resourceModel ctx.target (p.toMapping ctx) = ctx.resources from rfl, hnodes]
  simp only [hedges, List.append_nil]

/-- **A whole partial mapping is accepted.** -/
theorem verify_eq (h : Whole ctx p) :
    ModuloMappingVerifier.verify ctx.dfg ctx.target (p.toMapping ctx) = .ok [] := by
  have hname : (ctx.dfg.targetName == ctx.target.name) = true := beq_iff_eq.mpr h.targetName
  have hii : ((p.toMapping ctx).ii != 0) = true := bne_iff_ne.mpr h.ii_ne
  have hmapping : ((p.toMapping ctx).targetName == ctx.target.name) = true :=
    beq_iff_eq.mpr h.targetName
  rw [ModuloMappingVerifier.verify, checkPreconditions, h.verified, hname, hii, hmapping]
  simp only [Scan.stage_eq_ok_nil_iff, Scan.require_eq_nil_iff, List.isEmpty_nil, true_and]
  rw [h.verifyReservations_eq, h.checkPlacementEntries_eq, h.checkDependenceEntries_eq,
    h.checkMissingEntries_eq]
  rfl

end Whole

end ModuloMapper

end PredicatedMesh
