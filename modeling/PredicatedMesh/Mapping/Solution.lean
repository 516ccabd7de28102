import PredicatedMesh.Mapping.MapperAcceptance

/-!
# What a mapping is a solution of

The problem the mapping searches solve can be said without mappings. Every node gets a place; every
resource has at most one owner; a node owns its footprint, and a dependence that carries a value
owns the links of some plan that brings the value from its producer to its consumer (`Divides`). An
accepted mapping is such a division of the resources (`divides_of_verify`), whatever plans it uses.

Times are counted in 32 bits. A plan that takes longer cannot be written down, so the plans are
asked to arrive in time (`InTime`).
-/

namespace PredicatedMesh

open Scan
open ModuloRouteSearch (uint32Max requestedDomain)

/-- A plan, over these links, that brings the value of a dependence from its producer to its
consumer. -/
structure Delivers (dfg : TargetDFG) (model : ModuloResourceModel) (edge : TargetEdge)
    (producer consumer : NodePlacement) (links : List ResourceId) : Prop where
  hopLatency_pos : 0 < (model.target.network (requestedDomain edge)).hopLatency
  nodup : links.Nodup
  plan : ∃ node ready actions elapsed, dfg.findNode edge.src = some node ∧
    node.producerOutputReadyOffset = some ready ∧ actions ≠ [] ∧ elapsed ≤ uint32Max ∧
    Travels model (requestedDomain edge) producer ready actions links consumer.tile elapsed

/-- Every node has a place, and the resources are divided among the nodes and the dependences that
carry values. -/
structure Divides (dfg : TargetDFG) (model : ModuloResourceModel)
    (place : TargetNodeId → NodePlacement) (table : ResourceReservationTable) : Prop where
  node : ∀ node ∈ dfg.nodes, (place node.id).node = node.id ∧ ∃ footprint,
    model.operationFootprint node (place node.id).tile (place node.id).issueSlot = .ok footprint ∧
      table.Owns ⟨.node, node.id⟩ footprint
  edge : ∀ edge ∈ dfg.edges, edge.kind ≠ .memory → ∃ links,
    Delivers dfg model edge (place edge.src) (place edge.dst) links ∧
      table.Owns ⟨.edge, edge.id⟩ links

/-- Every plan of a mapping arrives within 32 bits. -/
def ModuloMapping.InTime (mapping : ModuloMapping) : Prop :=
  ∀ dependence ∈ mapping.dependences, ∀ plan, dependence.transport = some plan →
    plan.requiredSeparationCycles ≤ uint32Max

/-- The place a mapping gives a node. -/
def ModuloMapping.placeOf (mapping : ModuloMapping) (id : TargetNodeId) : NodePlacement :=
  (mapping.placements.find? fun placement ↦ placement.node == id).getD ⟨id, ⟨0, 0⟩, 0⟩

theorem ModuloMapping.placeOf_eq {mapping : ModuloMapping} {id : TargetNodeId}
    {placement : NodePlacement} (h : mapping.placementEntries id = [placement]) :
    mapping.placeOf id = placement ∧ placement.node = id := by
  have hfind : mapping.placements.find? (fun p ↦ p.node == id) = some placement := by
    rw [← List.head?_filter]
    exact congrArg List.head? h
  refine ⟨?_, by simpa using List.find?_some hfind⟩
  rw [ModuloMapping.placeOf, hfind]
  rfl

namespace ModuloMappingVerifier

variable {dfg : TargetDFG} {target : TargetModel} {mapping : ModuloMapping}
  {table later : ResourceReservationTable}

theorem requestedDomain_eq (edge : TargetEdge) :
    expectedDomain edge.kind = requestedDomain edge := by
  rw [requestedDomain]
  rcases edge.kind with _ | _ | _
  · rfl
  · rfl
  · rfl

/-- The plan of a clean edge step carries the value over links that are the edge's from then on. -/
theorem delivers_of_checkDependence {edge : TargetEdge} {dependence : MappedDependence}
    {src dst : NodePlacement} (hintime : mapping.InTime)
    (hentries : mapping.dependenceEntries edge.id = [dependence])
    (hsrc : mapping.placementEntries edge.src = [src])
    (hdst : mapping.placementEntries edge.dst = [dst]) (hvalue : edge.kind ≠ .memory)
    (h : checkDependence dfg target mapping table edge = .ok (later, [])) : ∃ links,
      Delivers dfg (resourceModel target mapping) edge src dst links ∧
        later.Owns ⟨.edge, edge.id⟩ links := by
  have hmem : dependence ∈ mapping.dependences := by
    have hself : dependence ∈ mapping.dependenceEntries edge.id := by
      rw [hentries]
      exact List.mem_singleton_self _
    exact (List.mem_filter.mp hself).1
  obtain ⟨plan, producer, ready, available, hplan, -, hdomain, hproducer, hready, hhop, hwalk,
    hfinish⟩ := verifyValueTransport_walks
      (verifyValueTransport_of_checkDependence hentries hsrc hdst hvalue h)
  obtain ⟨hmoves, htile, helapsed, -, -, -, howns⟩ := finishTransport_clean hfinish
  rw [requestedDomain_eq] at hdomain
  obtain ⟨htravels, hnodup⟩ := @travels_of_walk
    (transportContext target mapping table edge plan src ready) [] plan.actions
    ⟨src.tile, ready, []⟩ available 0 (TargetModel.network_eq target plan.domain ▸ rfl) .start
    .nil hwalk
  rw [List.nil_append, htile, helapsed] at htravels
  have hactions : plan.actions ≠ [] := by
    intro hnil
    rw [hnil] at htravels
    exact hmoves ⟨hnil, htravels.tile_eq_of_nil.symm⟩
  refine ⟨available.routeResources, ⟨?_, hnodup, ?_⟩, howns⟩
  · rw [show (resourceModel target mapping).target = target from rfl, TargetModel.network_eq]
    exact hhop
  · rw [show (transportContext target mapping table edge plan src ready).domain
      = requestedDomain edge from hdomain] at htravels
    exact ⟨producer, ready, plan.actions, plan.requiredSeparationCycles, hproducer, hready,
      hactions, hintime dependence hmem plan hplan, htravels⟩

/-- What the preconditions of an accepted mapping are. -/
theorem preconditions_of_verify (h : verify dfg target mapping = .ok []) :
    TargetDFGVerifier.verify dfg target = [] ∧ dfg.targetName = target.name ∧ mapping.ii ≠ 0 ∧
      mapping.targetName = target.name ∧ verifyReservations dfg target mapping = .ok [] ∧
      checkMissingEntries dfg mapping = [] := by
  simp only [verify, checkPreconditions, stage_eq_ok_nil_iff, require_eq_nil_iff,
    List.isEmpty_iff, bne_iff_ne, beq_iff_eq] at h
  obtain ⟨hreport, hname, hii, hmapping, hrest⟩ := h
  split at hrest
  · cases hrest
  · rename_i report hres
    simp only [Except.ok.injEq, List.append_eq_nil_iff] at hrest
    obtain ⟨⟨-, hmissing⟩, rfl⟩ := hrest
    exact ⟨hreport, hname, hii, hmapping, hres, hmissing⟩

/-- **An accepted mapping divides the resources.** -/
theorem divides_of_verify (hintime : mapping.InTime) (h : verify dfg target mapping = .ok []) :
    ∃ table, Divides dfg (resourceModel target mapping) mapping.placeOf table := by
  obtain ⟨hreport, -, -, -, hres, hmissing⟩ := preconditions_of_verify h
  have hgraph := TargetDFGVerifier.verified_of_verify hreport
  obtain ⟨hplaced, hrealized⟩ := entries_of_checkMissingEntries hmissing
  obtain ⟨table, hnodes, hedges⟩ := @exists_table_of_verifyReservations dfg target mapping
    (fun node table ↦ (mapping.placeOf node.id).node = node.id ∧ ∃ footprint,
      (resourceModel target mapping).operationFootprint node (mapping.placeOf node.id).tile
        (mapping.placeOf node.id).issueSlot = .ok footprint ∧
          table.Owns ⟨.node, node.id⟩ footprint)
    (fun edge table ↦ edge.kind ≠ .memory → ∃ links,
      Delivers dfg (resourceModel target mapping) edge (mapping.placeOf edge.src)
        (mapping.placeOf edge.dst) links ∧ table.Owns ⟨.edge, edge.id⟩ links)
    (fun node a b ⟨hid, footprint, hfootprint, howns⟩ hext ↦
      ⟨hid, footprint, hfootprint, howns.mono hext⟩)
    (fun edge a b hdelivers hext hvalue ↦ by
      obtain ⟨links, hlinks, howns⟩ := hdelivers hvalue
      exact ⟨links, hlinks, howns.mono hext⟩)
    (fun node hmem a b hsize hstep ↦ by
      obtain ⟨placement, hentries⟩ := hplaced node hmem
      obtain ⟨operation, hagrees⟩ := hgraph.agrees node hmem
      obtain ⟨footprint, hfootprint, hreserve⟩ :=
        checkPlacement_reserves hentries hagrees.found hsize hstep
      obtain ⟨hlater, hext, howns⟩ := ResourceReservationTable.reserve_spec hreserve
      obtain ⟨hplace, hid⟩ := ModuloMapping.placeOf_eq hentries
      rw [hplace]
      exact ⟨hlater.trans hsize, hext, hid, footprint, hfootprint, howns⟩)
    (fun edge hmem a b hstep ↦ by
      obtain ⟨dependence, hentries⟩ := hrealized edge hmem
      obtain ⟨src, dst, hsrc, hdst⟩ := endpoints_placed hgraph hplaced hmem
      obtain ⟨hext, -⟩ := checkDependence_clean hentries hsrc hdst hstep
      rw [(ModuloMapping.placeOf_eq hsrc).1, (ModuloMapping.placeOf_eq hdst).1]
      exact ⟨hext, fun hvalue ↦
        delivers_of_checkDependence hintime hentries hsrc hdst hvalue hstep⟩)
    hres
  exact ⟨table, hnodes, hedges⟩

end ModuloMappingVerifier

end PredicatedMesh
