import PredicatedMesh.Mapping.OracleRoutes
import PredicatedMesh.Mapping.Solution

/-!
# A complete choice of the oracle

Between two edges the oracle has routes for the edges before, and the links of these routes are
reserved on top of the footprints of the placed nodes (`Realizes`). Once every edge is realized the
choice is whole: the mapping that is built from it is the one the verifier accepts, provided that
anything can be accepted for this graph (`Ready`). This is the mapper's argument about whole partial
mappings, at a partial mapping with these placements and reservations.
-/

namespace PredicatedMesh

open Backtracking

namespace ExactModuloOracle

open ModuloRouteSearch (requestedDomain OnArray uint32Max)
open ModuloMapper (Consistent Whole WellRealized Holds PartialMapping)

section Choice

variable (dfg : TargetDFG) (target : TargetModel) (ii : ℕ)

/-- The oracle's choices as partial mappings of the mapper. -/
def mapperContext : ModuloMapper.Context := ⟨dfg, target, {}, ii⟩

/-- What a mapping needs of the graph and the target, whatever it chooses. -/
structure Ready : Prop where
  targetName : dfg.targetName = target.name
  value : ∀ edge ∈ dfg.edges, edge.kind ≠ .memory →
    0 < (target.network (requestedDomain edge)).hopLatency ∧
      ∃ node ready, dfg.findNode edge.src = some node ∧
        node.producerOutputReadyOffset = some ready

/-- When the value of an edge is ready, as the oracle reads it. -/
def readyAt (node : TargetNode) : ℕ := node.producerOutputReadyOffset.getD 0

/-- The routes of some edges: their plans and the table with their links reserved. -/
inductive Realizes (placements : List NodePlacement) (before : ResourceReservationTable) :
    List TargetEdge → List (TargetEdgeId × TransportPlan) → ResourceReservationTable → Prop
  | nil : Realizes placements before [] [] before
  | memory {done : List TargetEdge} {transports : List (TargetEdgeId × TransportPlan)}
      {table : ResourceReservationTable} {edge : TargetEdge} :
      Realizes placements before done transports table →
      edge.kind = .memory →
        Realizes placements before (done ++ [edge]) transports table
  | value {done : List TargetEdge} {transports : List (TargetEdgeId × TransportPlan)}
      {table later : ResourceReservationTable} {edge : TargetEdge} {node : TargetNode}
      {producer consumer : NodePlacement} {route : TransportPlan × List ResourceId} :
      Realizes placements before done transports table →
      edge.kind ≠ .memory →
      SortedMap.lookup NodePlacement.node edge.src placements = some producer →
      SortedMap.lookup NodePlacement.node edge.dst placements = some consumer →
      dfg.findNode edge.src = some node →
      Offered (routeContext target ii edge (readyAt node) producer consumer) table route →
      table.reserve route.2 ⟨.edge, edge.id⟩ = some later →
        Realizes placements before (done ++ [edge])
          (SortedMap.emplace Prod.fst (edge.id, route.1) transports) later

/-- The dependence that is recorded for an edge. -/
def dependenceOf (transports : List (TargetEdgeId × TransportPlan)) (edge : TargetEdge) :
    Option MappedDependence :=
  match edge.info with
  | .memory kind => some ⟨edge.id, .memory, target.memoryDependenceSeparation kind, none⟩
  | _ => (SortedMap.lookup Prod.fst edge.id transports).map fun entry ↦
      ⟨edge.id, edge.kind, entry.2.requiredSeparationCycles, some entry.2⟩

end Choice

variable {dfg : TargetDFG} {target : TargetModel} {ii : ℕ} {placements : List NodePlacement}
  {before table : ResourceReservationTable} {done : List TargetEdge}
  {transports : List (TargetEdgeId × TransportPlan)}

theorem domainFor_eq (edge : TargetEdge) : domainFor edge.kind = requestedDomain edge := by
  rw [requestedDomain]
  rcases edge.kind with _ | _ | _
  · rfl
  · rfl
  · rfl

theorem dependenceOf_memory {edge : TargetEdge} {kind : MemoryDepKind}
    (hinfo : edge.info = .memory kind) : dependenceOf target transports edge
      = some ⟨edge.id, .memory, target.memoryDependenceSeparation kind, none⟩ := by
  rw [dependenceOf, hinfo]

theorem dependenceOf_value {edge : TargetEdge} (hvalue : edge.kind ≠ .memory) :
    dependenceOf target transports edge
      = (SortedMap.lookup Prod.fst edge.id transports).map fun entry ↦
        ⟨edge.id, edge.kind, entry.2.requiredSeparationCycles, some entry.2⟩ := by
  rw [dependenceOf]
  split
  · rename_i kind hinfo
    exact absurd (TargetEdge.kind_eq_memory_iff.mpr ⟨kind, hinfo⟩) hvalue
  · rfl

/-! ## Between two edges -/

/-- The placements of all nodes, and a table that holds their footprints. -/
structure Placed (dfg : TargetDFG) (target : TargetModel) (ii : ℕ)
    (placements : List NodePlacement) (before : ResourceReservationTable) : Prop where
  consistent : Consistent (mapperContext dfg target ii) ⟨placements, [], before⟩
  perm : (placements.map NodePlacement.node).Perm (dfg.nodes.map TargetNode.id)

theorem Placed.exists_lookup (h : Placed dfg target ii placements before) {id : TargetNodeId}
    {node : TargetNode} (hnode : dfg.findNode id = some node) : ∃ placement,
      SortedMap.lookup NodePlacement.node id placements = some placement ∧
        placement ∈ placements ∧ placement.node = id := by
  have hmem : id ∈ placements.map NodePlacement.node := by
    rw [h.perm.mem_iff, ← TargetDFG.findNode_id hnode]
    exact List.mem_map_of_mem (TargetDFG.mem_of_findNode hnode)
  obtain ⟨placement, hplacement, rfl⟩ := List.mem_map.mp hmem
  exact ⟨placement, h.consistent.placements.lookup_of_mem hplacement, hplacement, rfl⟩

/-- Before the first edge only nodes own resources. -/
theorem Placed.kind_of_owner (h : Placed dfg target ii placements before) {resource : ResourceId}
    {owner : ReservationOwner} (howner : before.owners[resource]? = some (some owner)) :
    owner.kind = .node := by
  obtain ⟨resources, hholds, -⟩ := (h.consistent.owned resource owner).mp howner
  rcases hholds with ⟨-, -, -⟩ | ⟨hmem, -, -, -, -, -⟩
  · rfl
  · exact absurd hmem List.not_mem_nil

namespace Realizes

/-- The plans belong to edges that are done. -/
theorem keys_subset (h : Realizes dfg target ii placements before done transports table)
    (hnodup : (done.map TargetEdge.id).Nodup) :
    transports.map Prod.fst ⊆ done.map TargetEdge.id := by
  induction h with
  | nil => exact List.nil_subset _
  | memory _ _ ih =>
    rw [List.map_append] at hnodup ⊢
    exact List.subset_append_of_subset_left _ (ih (List.nodup_append.mp hnodup).1)
  | @value done transports table later edge _ _ _ route hbefore _ _ _ _ _ _ ih =>
    rw [List.map_append] at hnodup ⊢
    have hkeys := ih (List.nodup_append.mp hnodup).1
    intro id hid
    obtain ⟨entry, hentry, rfl⟩ := List.mem_map.mp hid
    by_cases hfresh : SortedMap.contains Prod.fst edge.id transports = false
    · rcases (@SortedMap.mem_emplace _ _ _ Prod.fst (edge.id, route.1) _ _ hfresh).mp hentry
        with rfl | hentry
      · exact List.mem_append_right _ (List.mem_singleton_self _)
      · exact List.mem_append_left _ (hkeys (List.mem_map_of_mem hentry))
    · rw [SortedMap.emplace, if_pos (by simpa using hfresh)] at hentry
      exact List.mem_append_left _ (hkeys (List.mem_map_of_mem hentry))

/-- An edge that is not done has no plan yet. -/
theorem fresh (h : Realizes dfg target ii placements before done transports table)
    {edge : TargetEdge} {edges : List TargetEdge}
    (hnodup : ((done ++ edge :: edges).map TargetEdge.id).Nodup) :
    SortedMap.contains Prod.fst edge.id transports = false := by
  rw [List.map_append, List.map_cons, List.nodup_middle, List.nodup_cons] at hnodup
  have hdone : (done.map TargetEdge.id).Nodup := (List.nodup_append.mp hnodup.2).1
  rw [SortedMap.contains_eq_false_iff]
  intro entry hentry hkey
  have hmem := h.keys_subset hdone (List.mem_map_of_mem hentry)
  rw [hkey] at hmem
  exact hnodup.1 (List.mem_append_left _ hmem)

/-- Whoever has a resource had it before, or is an edge that is done. -/
theorem owner (h : Realizes dfg target ii placements before done transports table)
    {resource : ResourceId} {owner : ReservationOwner}
    (howner : table.owners[resource]? = some (some owner)) :
    before.owners[resource]? = some (some owner) ∨
      ∃ edge ∈ done, owner = ⟨.edge, edge.id⟩ := by
  induction h with
  | nil => exact .inl howner
  | memory _ _ ih =>
    rcases ih howner with hold | ⟨edge, hedge, rfl⟩
    · exact .inl hold
    · exact .inr ⟨edge, List.mem_append_left _ hedge, rfl⟩
  | @value _ _ _ _ edge _ _ _ _ _ _ _ _ _ _ hreserve ih =>
    rw [(ResourceReservationTable.reserve_eq_some_iff.mp hreserve).2] at howner
    split at howner
    · obtain rfl := Option.some.inj (Option.some.inj howner)
      exact .inr ⟨edge, List.mem_append_right _ (List.mem_singleton_self _), rfl⟩
    · rcases ih howner with hold | ⟨edge, hedge, rfl⟩
      · exact .inl hold
      · exact .inr ⟨edge, List.mem_append_left _ hedge, rfl⟩

theorem size (h : Realizes dfg target ii placements before done transports table) :
    table.owners.length = before.owners.length := by
  induction h with
  | nil => rfl
  | memory _ _ ih => exact ih
  | value _ _ _ _ _ _ hreserve ih =>
    exact (ResourceReservationTable.reserve_spec hreserve).1.trans ih

/-- The plans arrive in time if the values of the graph are ready in time. -/
theorem inTime (h : Realizes dfg target ii placements before done transports table)
    (hready : ∀ node ∈ dfg.nodes, readyAt node ≤ uint32Max) :
    ∀ entry ∈ transports, entry.2.requiredSeparationCycles ≤ uint32Max := by
  induction h with
  | nil => exact List.forall_mem_nil _
  | memory _ _ ih => exact ih
  | @value _ transports _ _ edge node _ _ route _ _ _ _ hnode hoffered _ ih =>
    intro entry hentry
    by_cases hfresh : SortedMap.contains Prod.fst edge.id transports = false
    · rcases (@SortedMap.mem_emplace _ _ _ Prod.fst (edge.id, route.1) _ _ hfresh).mp hentry
        with rfl | hentry
      · apply hoffered.inTime
        exact hready node (TargetDFG.mem_of_findNode hnode)
      · exact ih entry hentry
    · rw [SortedMap.emplace, if_pos (by simpa using hfresh)] at hentry
      exact ih entry hentry

/-- The dependences of the edges that are done do not change when one more is realized. -/
theorem dependenceOf_emplace {edge other : TargetEdge} {plan : TransportPlan}
    (hfresh : SortedMap.contains Prod.fst edge.id transports = false) (hne : edge.id ≠ other.id) :
    dependenceOf target (SortedMap.emplace Prod.fst (edge.id, plan) transports) other
      = dependenceOf target transports other := by
  have hlookup := @SortedMap.lookup_emplace _ _ _ Prod.fst (edge.id, plan) other.id transports
    hfresh
  rw [if_neg hne] at hlookup
  simp only [dependenceOf, hlookup]

/-- The dependences that are recorded for the edges that are done. -/
structure Recorded (target : TargetModel) (done : List TargetEdge)
    (transports : List (TargetEdgeId × TransportPlan)) (dependences : List MappedDependence) :
    Prop where
  perm : (dependences.map MappedDependence.edge).Perm (done.map TargetEdge.id)
  source : ∀ dependence ∈ dependences, ∃ edge ∈ done, edge.id = dependence.edge ∧
    dependenceOf target transports edge = some dependence

theorem Recorded.fresh {dependences : List MappedDependence} {edge : TargetEdge}
    {edges : List TargetEdge} (h : Recorded target done transports dependences)
    (hnodup : ((done ++ edge :: edges).map TargetEdge.id).Nodup) :
    SortedMap.contains MappedDependence.edge edge.id dependences = false := by
  rw [List.map_append, List.map_cons, List.nodup_middle, List.nodup_cons] at hnodup
  rw [SortedMap.contains_eq_false_iff]
  intro dependence hdependence hkey
  have hmem := h.perm.subset (List.mem_map_of_mem hdependence)
  rw [hkey] at hmem
  exact hnodup.1 (List.mem_append_left _ hmem)

/-- One more edge is done. -/
theorem Recorded.record {dependences : List MappedDependence} {dependence : MappedDependence}
    {edge : TargetEdge} {later : List (TargetEdgeId × TransportPlan)}
    (h : Recorded target done transports dependences) (hid : dependence.edge = edge.id)
    (hfresh : SortedMap.contains MappedDependence.edge dependence.edge dependences = false)
    (hof : dependenceOf target later edge = some dependence)
    (hkeep : ∀ other ∈ done,
      dependenceOf target later other = dependenceOf target transports other) :
    Recorded target (done ++ [edge]) later
      (SortedMap.emplace MappedDependence.edge dependence dependences) where
  perm := by
    apply ((SortedMap.perm_emplace hfresh).map MappedDependence.edge).trans
    rw [List.map_cons, List.map_append, List.map_cons, List.map_nil, hid]
    exact (h.perm.cons _).trans (List.perm_append_singleton _ _).symm
  source other hother := by
    rcases (SortedMap.mem_emplace hfresh).mp hother with rfl | hother
    · exact ⟨edge, List.mem_append_right _ (List.mem_singleton_self _), hid.symm, hof⟩
    · obtain ⟨e, he, heid, heof⟩ := h.source other hother
      exact ⟨e, List.mem_append_left _ he, heid, (hkeep e he).trans heof⟩

/-- The dependence of a plan that was offered takes the value where it is needed. -/
theorem wellRealized_of_offered {edge : TargetEdge} {node : TargetNode}
    {producer consumer : NodePlacement} {route : TransportPlan × List ResourceId}
    (hplaced : Placed dfg target ii placements before) (hgraph : dfg.Verified target)
    (hready : Ready dfg target) (hedge : edge ∈ dfg.edges) (hvalue : edge.kind ≠ .memory)
    (hproducer : producer ∈ placements) (hproducerNode : producer.node = edge.src)
    (hconsumer : consumer ∈ placements) (hconsumerNode : consumer.node = edge.dst)
    (hnode : dfg.findNode edge.src = some node)
    (hoffered :
      Offered (routeContext target ii edge (readyAt node) producer consumer) table route) :
    WellRealized (mapperContext dfg target ii) placements edge
        ⟨edge.id, edge.kind, route.1.requiredSeparationCycles, some route.1⟩ ∧
      ModuloMapper.routeResources (mapperContext dfg target ii) route.1 producer = .ok route.2 := by
  obtain ⟨hhop, node', ready, hnode', hreadyOffset⟩ := hready.value edge hedge hvalue
  obtain rfl := Option.some.inj (hnode.symm.trans hnode')
  have hreadyAt : readyAt node = ready := by
    rw [readyAt, hreadyOffset, Option.getD_some]
  have hdomain : route.1.domain = requestedDomain edge := hoffered.domain.trans (domainFor_eq edge)
  have hslot : producer.issueSlot < ii := by
    obtain ⟨placed, footprint, hfound, hfootprint⟩ := hplaced.consistent.placed producer hproducer
    obtain ⟨operation, hagrees⟩ := hgraph.agrees placed (TargetDFG.mem_of_findNode hfound)
    exact (ModuloResourceModel.operationFootprint_spec hagrees.found hfootprint).1
  have htravels := hoffered.travels
  rw [← hoffered.domain] at htravels
  refine ⟨?_, @ModuloMapper.routeResources_of_travels (mapperContext dfg target ii) route.1
    producer (readyAt node) _ route.1.actions route.2 _ hslot hoffered.nodup htravels⟩
  refine
    { kind := rfl
      src := ⟨producer, hproducer, hproducerNode⟩
      dst := ⟨consumer, hconsumer, hconsumerNode⟩
      memory := fun kind hkind ↦ absurd (TargetEdge.kind_eq_memory_iff.mpr ⟨kind, hkind⟩) hvalue
      value := fun _ ↦ ⟨route.1, rfl, rfl, hoffered.edge, hdomain, ?_, node, ready, hnode,
        hreadyOffset, ?_⟩ }
  · rw [hdomain]
    exact hhop.ne'
  · intro a ha haNode b hb hbNode
    obtain rfl := hplaced.consistent.unique ha hproducer (haNode.trans hproducerNode.symm)
    obtain rfl := hplaced.consistent.unique hb hconsumer (hbNode.trans hconsumerNode.symm)
    rw [hreadyAt] at htravels
    exact ⟨hslot, fun _ ↦ hoffered.nonempty, route.2, hoffered.nodup, htravels⟩

/-- **The choices so far are a consistent partial mapping.** -/
theorem consistent (hplaced : Placed dfg target ii placements before)
    (hgraph : dfg.Verified target) (hready : Ready dfg target)
    (h : Realizes dfg target ii placements before done transports table) {edges : List TargetEdge}
    (hsplit : dfg.edges = done ++ edges) : ∃ dependences,
      Consistent (mapperContext dfg target ii) ⟨placements, dependences, table⟩ ∧
        Recorded target done transports dependences := by
  induction h generalizing edges with
  | nil => exact ⟨[], hplaced.consistent, .refl _, List.forall_mem_nil _⟩
  | @memory done transports table edge hbefore hmemory ih =>
    rw [List.append_assoc, List.singleton_append] at hsplit
    obtain ⟨dependences, hconsistent, hrecorded⟩ := ih hsplit
    have hedge : edge ∈ dfg.edges := by
      rw [hsplit]
      exact List.mem_append_right _ List.mem_cons_self
    obtain ⟨src, dst, hsrc, hdst⟩ := hgraph.endpoints edge hedge
    obtain ⟨producer, -, hproducer, hproducerNode⟩ := hplaced.exists_lookup hsrc
    obtain ⟨consumer, -, hconsumer, hconsumerNode⟩ := hplaced.exists_lookup hdst
    obtain ⟨kind, hinfo⟩ := TargetEdge.kind_eq_memory_iff.mp hmemory
    have hnodup := hgraph.nodup_edges
    rw [hsplit] at hnodup
    have hfresh := hrecorded.fresh hnodup
    have hwell : WellRealized (mapperContext dfg target ii) placements edge
        ⟨edge.id, edge.kind, target.memoryDependenceSeparation kind, none⟩ :=
      { kind := rfl
        src := ⟨producer, hproducer, hproducerNode⟩
        dst := ⟨consumer, hconsumer, hconsumerNode⟩
        memory := fun kind' hkind' ↦ by
          obtain rfl := EdgeInfo.memory.inj (hinfo.symm.trans hkind')
          exact ⟨rfl, rfl⟩
        value := fun hvalue ↦ absurd hmemory hvalue }
    refine ⟨_, hconsistent.keeps (hgraph.findEdge_of_mem hedge) hfresh hwell (.inl ⟨rfl, rfl⟩),
      hrecorded.record rfl hfresh ?_ fun _ _ ↦ rfl⟩
    rw [dependenceOf_memory hinfo, hmemory]
  | @value done transports table later edge node producer consumer route hbefore hvalue hproducer
      hconsumer hnode hoffered hreserve ih =>
    rw [List.append_assoc, List.singleton_append] at hsplit
    obtain ⟨dependences, hconsistent, hrecorded⟩ := ih hsplit
    have hedge : edge ∈ dfg.edges := by
      rw [hsplit]
      exact List.mem_append_right _ List.mem_cons_self
    have hnodup := hgraph.nodup_edges
    rw [hsplit] at hnodup
    have hfreshPlan := hbefore.fresh hnodup
    have hfresh := hrecorded.fresh hnodup
    obtain ⟨hproducerMem, hproducerNode⟩ := SortedMap.lookup_eq_some hproducer
    obtain ⟨hconsumerMem, hconsumerNode⟩ := SortedMap.lookup_eq_some hconsumer
    obtain ⟨hwell, hlinks⟩ := wellRealized_of_offered hplaced hgraph hready hedge hvalue
      hproducerMem hproducerNode hconsumerMem hconsumerNode hnode hoffered
    refine ⟨_, hconsistent.keeps (hgraph.findEdge_of_mem hedge) hfresh hwell
      (.inr ⟨route.1, producer, route.2, rfl, hproducerMem, hproducerNode, hlinks, hreserve⟩),
      hrecorded.record rfl hfresh ?_ fun other hother ↦ dependenceOf_emplace hfreshPlan ?_⟩
    · have hlookup := @SortedMap.lookup_emplace _ _ _ Prod.fst (edge.id, route.1) edge.id
        transports hfreshPlan
      rw [if_pos rfl] at hlookup
      rw [dependenceOf_value hvalue, hlookup, Option.map_some]
    · intro hsame
      rw [List.map_append, List.map_cons, List.nodup_middle, List.nodup_cons] at hnodup
      exact hnodup.1 (List.mem_append_left _ (hsame ▸ List.mem_map_of_mem hother))

end Realizes

end ExactModuloOracle

end PredicatedMesh
