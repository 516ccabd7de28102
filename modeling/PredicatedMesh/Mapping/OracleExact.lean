import PredicatedMesh.Mapping.OracleLeaves
import PredicatedMesh.Schedule.Execution

/-!
# The oracle is exact

The oracle asks four questions inside one another: whether a complete choice is accepted, whether
the remaining edges have routes, whether the remaining nodes have places, and whether there is a
mapping at all. Each is settled by the combinators of the search, so the answer of the whole is
right in both directions.

A search below a partial choice looks for a division of the resources that agrees with what is
chosen already (`Extendable`). A division owns every link of its plans, the routes that are
enumerated take only links of such a plan, and so the division is still there for the edges that
follow.
-/

namespace PredicatedMesh

open Backtracking

namespace ExactModuloOracle

open ModuloRouteSearch (requestedDomain OnArray uint32Max)
open ModuloMapper (Consistent Whole Accounted PartialMapping)

variable {dfg : TargetDFG} {target : TargetModel} {ii : ℕ} {placements : List NodePlacement}
  {before : ResourceReservationTable}

/-! ## Complete choices -/

/-- Recording a dependence that is known. -/
def record (dfg : TargetDFG) (realized : List MappedDependence) (dependence : MappedDependence) :
    Except String (List MappedDependence) :=
  match dependence.transport with
  | some plan => ModuloMappingBuilder.setTransport dfg realized dependence.edge plan
  | none => ModuloMappingBuilder.setMemorySeparation dfg realized dependence.edge
      dependence.requiredSeparationCycles

/-- What the oracle records for an edge is its dependence. -/
theorem record_dependenceOf {transports : List (TargetEdgeId × TransportPlan)} {edge : TargetEdge}
    {dependence : MappedDependence} (h : dependenceOf target transports edge = some dependence)
    (realized : List MappedDependence) :
    (match edge.info with
      | .memory kind => ModuloMappingBuilder.setMemorySeparation dfg realized edge.id
          (target.memoryDependenceSeparation kind)
      | _ => do
        let plan ← transportAt transports edge.id
        ModuloMappingBuilder.setTransport dfg realized edge.id plan)
      = record dfg realized dependence := by
  by_cases hkind : edge.kind = .memory
  · obtain ⟨kind, hinfo⟩ := TargetEdge.kind_eq_memory_iff.mp hkind
    rw [dependenceOf_memory hinfo] at h
    obtain rfl := Option.some.inj h
    rw [hinfo]
    rfl
  · rw [dependenceOf_value hkind] at h
    obtain ⟨entry, hentry, rfl⟩ := Option.map_eq_some_iff.mp h
    have hat : transportAt transports edge.id = .ok entry.2 := by
      rw [transportAt, hentry]
    split
    · rename_i kind hinfo
      exact absurd (TargetEdge.kind_eq_memory_iff.mpr ⟨kind, hinfo⟩) hkind
    · rw [hat]
      rfl

/-- The mapping of a whole partial mapping is built from its plans. -/
theorem candidate_eq {p : PartialMapping} {transports : List (TargetEdgeId × TransportPlan)}
    (h : Whole (mapperContext dfg target ii) p)
    (hdependences : ∀ dependence ∈ p.dependences, ∃ edge ∈ dfg.edges, edge.id = dependence.edge ∧
      dependenceOf target transports edge = some dependence) :
    candidate dfg target ii p.placements transports
      = .ok (p.toMapping (mapperContext dfg target ii)) := by
  have hplacements := h.placements.perm_map_lookup h.perm_nodes ⟨0, ⟨0, 0⟩, 0⟩
  have hrealized := h.dependences.perm_map_lookup h.perm_edges ⟨0, .data, 0, none⟩
  rw [candidate]
  refine Scan.bind_eq_ok.mpr ⟨_, ?_, Scan.bind_eq_ok.mpr ⟨_, ?_, h.finish_eq hplacements hrealized⟩⟩
  · rw [← h.place_eq hplacements, List.foldlM_map]
    refine Scan.foldlM_congr (fun placed node hnode ↦ ?_) []
    obtain ⟨placement, hplacement, hid⟩ := h.exists_placement hnode
    have hlookup := h.placements.lookup_of_mem hplacement
    rw [hid] at hlookup
    have hat : placementAt p.placements node.id = .ok placement := by
      rw [placementAt, hlookup]
    rw [hlookup, Option.getD_some, hat, ← hid]
    rfl
  · have hrecord := Scan.foldlM_eq_self (f := record dfg)
      (l := dfg.edges.map fun edge ↦
        (SortedMap.lookup MappedDependence.edge edge.id p.dependences).getD ⟨0, .data, 0, none⟩)
      (fun before dependence after hsplit ↦ by
        rw [record]
        split
        · rename_i plan hplan
          exact h.setTransport_eq hrealized hsplit hplan
        · rename_i hnone
          exact h.setMemorySeparation_eq hrealized hsplit hnone)
    rw [List.foldlM_map] at hrecord
    refine (Scan.foldlM_congr (fun realized edge hedge ↦ ?_) []).trans hrecord
    obtain ⟨dependence, hdependence, hid⟩ := h.exists_dependence hedge
    have hlookup := h.dependences.lookup_of_mem hdependence
    rw [hid] at hlookup
    obtain ⟨other, hother, hotherId, hof⟩ := hdependences dependence hdependence
    obtain rfl := h.graph.edge_eq_of_id_eq hother hedge (hotherId.trans hid)
    rw [hlookup, Option.getD_some]
    exact record_dependenceOf hof realized

/-- An answer the verifier accepts. -/
def Answered (dfg : TargetDFG) (target : TargetModel) (ii : ℕ) (answer : Option ModuloMapping) :
    Prop :=
  ∃ mapping, answer = some mapping ∧ mapping.ii = ii ∧
    ((∀ node ∈ dfg.nodes, readyAt node ≤ uint32Max) → mapping.InTime) ∧
      ModuloMappingVerifier.verify dfg target mapping = .ok []

/-- The plans that are recorded are among the plans that were taken. -/
theorem plans_of_record {transports : List (TargetEdgeId × TransportPlan)}
    {realized later : List MappedDependence} {edge : TargetEdge}
    (hplans : ∀ dependence ∈ realized, ∀ plan, dependence.transport = some plan →
      ∃ entry ∈ transports, entry.2 = plan)
    (h : (match edge.info with
      | .memory kind => ModuloMappingBuilder.setMemorySeparation dfg realized edge.id
          (target.memoryDependenceSeparation kind)
      | _ => do
        let plan ← transportAt transports edge.id
        ModuloMappingBuilder.setTransport dfg realized edge.id plan) = .ok later) :
    ∀ dependence ∈ later, ∀ plan, dependence.transport = some plan →
      ∃ entry ∈ transports, entry.2 = plan := by
  intro dependence hdependence plan hplan
  split at h
  · rw [ModuloMappingBuilder.setMemorySeparation] at h
    split at h
    · cases h
    · split_ifs at h
      obtain rfl := Except.ok.inj h
      rcases List.mem_append.mp hdependence with hold | hnew
      · exact hplans dependence hold plan hplan
      · obtain rfl := List.mem_singleton.mp hnew
        cases hplan
  · obtain ⟨taken, htaken, h⟩ := Scan.bind_eq_ok.mp h
    rw [ModuloMappingBuilder.setTransport] at h
    split at h
    · cases h
    · split_ifs at h
      split at h
      · cases h
      · obtain rfl := Except.ok.inj h
        rcases List.mem_append.mp hdependence with hold | hnew
        · exact hplans dependence hold plan hplan
        · obtain rfl := List.mem_singleton.mp hnew
          obtain rfl := Option.some.inj hplan
          rw [transportAt] at htaken
          split at htaken
          · cases htaken
          · rename_i entry hlookup
            obtain rfl := Except.ok.inj htaken
            exact ⟨entry, (SortedMap.lookup_eq_some hlookup).1, rfl⟩

/-- The mapping of a choice has the interval, and its plans are those that were taken. -/
theorem candidate_spec {transports : List (TargetEdgeId × TransportPlan)} {mapping : ModuloMapping}
    (h : candidate dfg target ii placements transports = .ok mapping) : mapping.ii = ii ∧
      ∀ dependence ∈ mapping.dependences, ∀ plan, dependence.transport = some plan →
        ∃ entry ∈ transports, entry.2 = plan := by
  obtain ⟨placed, -, h⟩ := Scan.bind_eq_ok.mp h
  obtain ⟨realized, hrealized, h⟩ := Scan.bind_eq_ok.mp h
  rw [ModuloMappingBuilder.finish] at h
  split at h
  · cases h
  · obtain rfl := Except.ok.inj h
    have hplans := Scan.foldlM_invariant (fun _ _ _ _ ↦ plans_of_record) (List.forall_mem_nil _)
      hrealized
    exact ⟨rfl, fun dependence hdependence ↦ hplans dependence
      ((List.mem_insertionSort _).mp hdependence)⟩

/-- **A complete choice is accepted if anything can be.** -/
theorem settles_accept (hplaced : Placed dfg target ii placements before)
    (hverified : TargetDFGVerifier.verify dfg target = []) (hii : ii ≠ 0) {s : RealizeState}
    (hrealizes : Realizes dfg target ii placements before dfg.edges s.transports s.reservations) :
    Settles (accept dfg target ii placements) s (Ready dfg target)
      fun t ↦ Answered dfg target ii t.answer := by
  have hgraph := TargetDFGVerifier.verified_of_verify hverified
  have hready : Ready dfg target → ∃ mapping,
      candidate dfg target ii placements s.transports = .ok mapping ∧
        ModuloMappingVerifier.verify dfg target mapping = .ok [] := by
    intro hready
    obtain ⟨dependences, hconsistent, hperm, hdependences⟩ :=
      hrealizes.consistent hplaced hgraph hready (List.append_nil _).symm
    have hall : ∀ edge ∈ dfg.edges, SortedMap.contains MappedDependence.edge edge.id dependences
        = true := by
      intro edge hedge
      rw [SortedMap.contains_iff]
      exact List.mem_map.mp (hperm.mem_iff.mpr (List.mem_map_of_mem hedge))
    have hends : ∀ edge ∈ dfg.edges,
        SortedMap.contains NodePlacement.node edge.src placements = true ∧
          SortedMap.contains NodePlacement.node edge.dst placements = true := by
      intro edge hedge
      obtain ⟨src, dst, hsrc, hdst⟩ := hgraph.endpoints edge hedge
      obtain ⟨producer, -, hproducer, hproducerNode⟩ := hplaced.exists_lookup hsrc
      obtain ⟨consumer, -, hconsumer, hconsumerNode⟩ := hplaced.exists_lookup hdst
      exact ⟨SortedMap.contains_iff.mpr ⟨producer, hproducer, hproducerNode⟩,
        SortedMap.contains_iff.mpr ⟨consumer, hconsumer, hconsumerNode⟩⟩
    have hlength : placements.length = dfg.nodes.length := by
      have hlength := hplaced.perm.length_eq
      rwa [List.length_map, List.length_map] at hlength
    have hwhole : Whole (mapperContext dfg target ii) ⟨placements, dependences, s.reservations⟩ :=
      { toConsistent := hconsistent
        closed := fun edge hedge ↦ iff_of_true (hall edge hedge) (hends edge hedge)
        verified := hverified
        targetName := hready.targetName
        ii_ne := hii
        mapped := beq_iff_eq.mpr hlength }
    exact ⟨_, candidate_eq hwhole hdependences, hwhole.verify_eq⟩
  rcases hcandidate : candidate dfg target ii placements s.transports with what | mapping
  · refine .inr ⟨?_, fun h ↦ ?_⟩
    · simp only [accept, hcandidate]
    · obtain ⟨mapping, hmapping, -⟩ := hready h
      rw [hcandidate] at hmapping
      cases hmapping
  · by_cases hverify : ModuloMappingVerifier.verify dfg target mapping = .ok []
    · obtain ⟨hii', hplans⟩ := candidate_spec hcandidate
      refine .inl ⟨{ s with answer := some mapping }, ?_, mapping, rfl, hii', ?_, hverify⟩
      · simp only [accept, hcandidate, hverify]
      · intro hready dependence hdependence plan hplan
        obtain ⟨entry, hentry, rfl⟩ := hplans dependence hdependence plan hplan
        exact hrealizes.inTime hready entry hentry
    · refine .inr ⟨?_, fun h ↦ ?_⟩
      · simp only [accept, hcandidate]
      · obtain ⟨mapping', hmapping, hclean⟩ := hready h
        obtain rfl := Except.ok.inj (hcandidate.symm.trans hmapping)
        exact hverify hclean

/-! ## The remaining edges -/

/-- The resources can still be divided so that these edges own the links of a plan each. -/
structure Routable (dfg : TargetDFG) (target : TargetModel) (ii : ℕ)
    (placements : List NodePlacement) (edges : List TargetEdge)
    (reservations : ResourceReservationTable) : Prop where
  ready : Ready dfg target
  divided : ∃ table, reservations.Extends table ∧ ∀ edge ∈ edges, edge.kind ≠ .memory →
    ∃ producer ∈ placements, producer.node = edge.src ∧
    ∃ consumer ∈ placements, consumer.node = edge.dst ∧
    ∃ links, Delivers dfg ⟨target, ii⟩ edge producer consumer links ∧
      table.Owns ⟨.edge, edge.id⟩ links

theorem Routable.tail {edge : TargetEdge} {edges : List TargetEdge}
    {reservations : ResourceReservationTable}
    (h : Routable dfg target ii placements (edge :: edges) reservations) :
    Routable dfg target ii placements edges reservations := by
  obtain ⟨hready, table, hextends, hedges⟩ := h
  exact ⟨hready, table, hextends, fun other hother ↦ hedges other (List.mem_cons_of_mem _ hother)⟩

/-- Reserving some of the links an edge may own leaves the other edges theirs. -/
theorem extends_of_reserve {table later division : ResourceReservationTable}
    {links : List ResourceId} {owner : ReservationOwner} {route : List ResourceId}
    (hextends : table.Extends division) (howns : division.Owns owner links)
    (hsubset : route ⊆ links)
    (hreserve : table.reserve route owner = some later) : later.Extends division := by
  intro resource other hother
  rw [(ResourceReservationTable.reserve_eq_some_iff.mp hreserve).2] at hother
  split at hother
  · rename_i hmem
    obtain rfl := Option.some.inj (Option.some.inj hother)
    exact howns resource (hsubset hmem)
  · exact hextends resource other hother

section Edges

variable {s : RealizeState} {done edges : List TargetEdge} {edge : TargetEdge}
  {route : TransportPlan × List ResourceId}

theorem takeRoute_eq_some {delta : ReservationDelta} {entered : RealizeState}
    (h : takeRoute edge route s = some (delta, entered)) :
    s.reservations.tryReserve route.2 ⟨.edge, edge.id⟩ = (some delta, entered.reservations) ∧
      entered = { s with
        reservations := entered.reservations
        transports := SortedMap.emplace Prod.fst (edge.id, route.1) s.transports } := by
  rw [takeRoute] at h
  rcases htry : s.reservations.tryReserve route.2 ⟨.edge, edge.id⟩ with ⟨_ | taken, later⟩
  · rw [htry] at h
    cases h
  · rw [htry] at h
    obtain ⟨rfl, rfl⟩ := Prod.mk.inj (Option.some.inj h)
    exact ⟨rfl, rfl⟩

/-- Leaving a route takes back what entering it has changed. -/
theorem leaveRoute_takeRoute (hfresh : SortedMap.contains Prod.fst edge.id s.transports = false)
    {delta : ReservationDelta} {entered : RealizeState}
    (h : takeRoute edge route s = some (delta, entered)) :
    leaveRoute edge delta entered = .ok s := by
  obtain ⟨htry, hentered⟩ := takeRoute_eq_some h
  have herase := @SortedMap.erase_emplace _ _ _ Prod.fst (edge.id, route.1) s.transports hfresh
  rw [hentered, leaveRoute]
  simp only [ResourceReservationTable.undo_tryReserve htry, herase]

theorem exists_takeRoute {later : ResourceReservationTable}
    (h : s.reservations.reserve route.2 ⟨.edge, edge.id⟩ = some later) :
    takeRoute edge route s ≠ none := by
  rw [takeRoute, ResourceReservationTable.tryReserve_eq_some_iff.mpr ⟨rfl, h⟩]
  exact Option.some_ne_none _

/-- What the routes of an edge rely on once every node is placed. -/
theorem valid_routeContext (hplaced : Placed dfg target ii placements before)
    (hgraph : dfg.Verified target)
    (hrealizes : Realizes dfg target ii placements before done s.transports s.reservations)
    {producer consumer : NodePlacement} (hproducer : producer ∈ placements) (ready : ℕ) :
    (routeContext target ii edge ready producer consumer).Valid s.reservations := by
  obtain ⟨node, footprint, hnode, hfootprint⟩ := hplaced.consistent.placed producer hproducer
  obtain ⟨operation, hagrees⟩ := hgraph.agrees node (TargetDFG.mem_of_findNode hnode)
  exact
    { producer := ModuloResourceModel.inRange_of_supportsOperation
        (ModuloResourceModel.supportsOperation_of_footprint hfootprint)
      slot_lt := (ModuloResourceModel.operationFootprint_spec hagrees.found hfootprint).1
      known := hrealizes.size.trans hplaced.consistent.size }

/-- Before an edge is realized nothing belongs to it. -/
theorem free_of_extends (hplaced : Placed dfg target ii placements before)
    (hrealizes : Realizes dfg target ii placements before done s.transports s.reservations)
    (hnodup : ((done ++ edge :: edges).map TargetEdge.id).Nodup)
    {division : ResourceReservationTable} (hextends : s.reservations.Extends division)
    {links : List ResourceId} (howns : division.Owns ⟨.edge, edge.id⟩ links)
    (hlt : ∀ resource ∈ links, resource < s.reservations.owners.length) :
    ∀ resource ∈ links, s.reservations.owners[resource]? = some none := by
  intro resource hresource
  have hin := hlt resource hresource
  rw [List.getElem?_eq_getElem hin]
  rcases hown : s.reservations.owners[resource] with _ | owner
  · rfl
  · have howner : s.reservations.owners[resource]? = some (some owner) := by
      rw [List.getElem?_eq_getElem hin, hown]
    have hsame := (hextends resource owner howner).symm.trans (howns resource hresource)
    obtain rfl := Option.some.inj (Option.some.inj hsame)
    rcases hrealizes.owner howner with hbefore | ⟨other, hother, hid⟩
    · -- before the first edge only nodes own resources
      cases hplaced.kind_of_owner hbefore
    · rw [List.map_append, List.map_cons, List.nodup_middle, List.nodup_cons] at hnodup
      refine absurd (List.mem_append_left _ ?_) hnodup.1
      rw [(ReservationOwner.mk.inj hid).2]
      exact List.mem_map_of_mem hother

/-- With its ends placed, an edge that carries a value is realized by one of its routes. -/
theorem realizeEdges_value (hvalue : edge.kind ≠ .memory) {node : TargetNode}
    {producer consumer : NodePlacement}
    (hproducer : SortedMap.lookup NodePlacement.node edge.src placements = some producer)
    (hconsumer : SortedMap.lookup NodePlacement.node edge.dst placements = some consumer)
    (hnode : dfg.findNode edge.src = some node) :
    realizeEdges dfg target ii placements (edge :: edges) s
      = routeCandidates (routeContext target ii edge (readyAt node) producer consumer)
        (fun route ↦ within (takeRoute edge route) (leaveRoute edge)
          (realizeEdges dfg target ii placements edges)) s := by
  rw [realizeEdges, if_neg hvalue]
  simp only [placementAt, hproducer, hconsumer, hnode, readyAt]

/-- **The search over the edges settles whether the resources can still be divided.** -/
theorem settles_realizeEdges (hplaced : Placed dfg target ii placements before)
    (hverified : TargetDFGVerifier.verify dfg target = []) (hii : ii ≠ 0)
    (hrealizes : Realizes dfg target ii placements before done s.transports s.reservations)
    (hsplit : dfg.edges = done ++ edges) :
    Settles (realizeEdges dfg target ii placements edges) s
      (Routable dfg target ii placements edges s.reservations)
      fun t ↦ Answered dfg target ii t.answer := by
  have hgraph := TargetDFGVerifier.verified_of_verify hverified
  induction edges generalizing done s with
  | nil =>
    rw [List.append_nil] at hsplit
    rw [← hsplit] at hrealizes
    exact (settles_accept hplaced hverified hii hrealizes).mono Routable.ready
  | cons edge edges ih =>
    have hsplit' : dfg.edges = (done ++ [edge]) ++ edges := by
      rw [hsplit, List.append_assoc, List.singleton_append]
    by_cases hmemory : edge.kind = .memory
    · rw [realizeEdges, if_pos hmemory]
      exact (ih (hrealizes.memory hmemory) hsplit').mono Routable.tail
    have hedge : edge ∈ dfg.edges := by
      rw [hsplit]
      exact List.mem_append_right _ List.mem_cons_self
    have hnodup := hgraph.nodup_edges
    rw [hsplit] at hnodup
    have hfresh := hrealizes.fresh hnodup
    obtain ⟨node, dst, hnode, hdst⟩ := hgraph.endpoints edge hedge
    obtain ⟨producer, hproducer, hproducerMem, hproducerNode⟩ := hplaced.exists_lookup hnode
    obtain ⟨consumer, hconsumer, hconsumerMem, hconsumerNode⟩ := hplaced.exists_lookup hdst
    have hvalid : (routeContext target ii edge (readyAt node) producer consumer).Valid
        s.reservations :=
      valid_routeContext hplaced hgraph hrealizes hproducerMem (readyAt node)
    -- a route that is taken leaves the search over the edges after it
    have hconsume : ∀ route, Offered (routeContext target ii edge (readyAt node) producer consumer)
        s.reservations route →
        Settles (within (takeRoute edge route) (leaveRoute edge)
          (realizeEdges dfg target ii placements edges)) s
          (∃ later, s.reservations.reserve route.2 ⟨.edge, edge.id⟩ = some later ∧
            Routable dfg target ii placements edges later)
          fun t ↦ Answered dfg target ii t.answer := by
      intro route hoffered
      refine settles_within (fun delta entered ↦ leaveRoute_takeRoute hfresh) ?_ ?_
      · rintro hnone ⟨later, hreserve, -⟩
        exact exists_takeRoute hreserve hnone
      · intro delta entered henter
        obtain ⟨htry, hentered⟩ := takeRoute_eq_some henter
        obtain ⟨-, hreserve⟩ := ResourceReservationTable.tryReserve_eq_some_iff.mp htry
        have hnext := hrealizes.value hmemory hproducer hconsumer hnode hoffered hreserve
        have htransports : entered.transports
            = SortedMap.emplace Prod.fst (edge.id, route.1) s.transports := by
          rw [hentered]
        rw [← htransports] at hnext
        refine (ih hnext hsplit').mono ?_
        rintro ⟨later, hlater, hroutable⟩
        obtain rfl := Option.some.inj (hreserve.symm.trans hlater)
        exact hroutable
    have hroutes := settles_routeCandidates hvalid hconsume
    refine (hroutes.mono ?_).congr (realizeEdges_value hmemory hproducer hconsumer hnode)
    -- the plan of a division is no better than one that is offered
    rintro ⟨hready, division, hextends, hedges⟩
    obtain ⟨a, ha, haNode, b, hb, hbNode, links, hdelivers, howns⟩ :=
      hedges edge List.mem_cons_self hmemory
    obtain rfl := hplaced.consistent.unique ha hproducerMem (haNode.trans hproducerNode.symm)
    obtain rfl := hplaced.consistent.unique hb hconsumerMem (hbNode.trans hconsumerNode.symm)
    obtain ⟨node', ready, actions, elapsed, hnode', hreadyOffset, hactions, hfits, htravels⟩ :=
      hdelivers.plan
    obtain rfl := Option.some.inj (hnode.symm.trans hnode')
    have hreadyAt : readyAt node = ready := by
      rw [readyAt, hreadyOffset, Option.getD_some]
    rw [← domainFor_eq, ← hreadyAt] at htravels
    have hhop := hdelivers.hopLatency_pos
    rw [← domainFor_eq] at hhop
    have hlt : ∀ resource ∈ links, resource < s.reservations.owners.length := by
      intro resource hresource
      rw [hvalid.known]
      exact htravels.resource_lt resource hresource
    obtain ⟨state, hrun, route, hoffer, hsubset⟩ := leads_of_travels hvalid hactions htravels hhop
      hdelivers.nodup (free_of_extends hplaced hrealizes hnodup hextends howns hlt) hfits
    have hoffered := ((Route.start hvalid).run hvalid hrun).offered hoffer
    obtain ⟨later, hreserve⟩ := ResourceReservationTable.exists_reserve_iff.mpr
      ⟨hoffered.nodup, hoffered.free⟩
    refine ⟨state, hrun, route, hoffer, later, hreserve, hready, division, ?_, ?_⟩
    · exact extends_of_reserve hextends howns hsubset hreserve
    · exact fun other hother ↦ hedges other (List.mem_cons_of_mem _ hother)

end Edges

/-! ## The remaining nodes -/

/-- The resources can still be divided in a way that gives the placed nodes their places. -/
structure Extendable (dfg : TargetDFG) (target : TargetModel) (ii : ℕ)
    (placements : List NodePlacement) (reservations : ResourceReservationTable) : Prop where
  targetName : dfg.targetName = target.name
  divided : ∃ place table, Divides dfg ⟨target, ii⟩ place table ∧
    (∀ placement ∈ placements, placement = place placement.node) ∧ reservations.Extends table

section Nodes

variable {s : SearchState} {nodes : List TargetNode} {node : TargetNode} {tile : TileCoord}
  {slot : ℕ} {footprint : List ResourceId}

/-- What the search over the nodes keeps: the placements are consistent, and these nodes are left.
-/
structure Pending (dfg : TargetDFG) (target : TargetModel) (ii : ℕ) (nodes : List TargetNode)
    (s : SearchState) : Prop where
  consistent : Consistent (mapperContext dfg target ii) ⟨s.placements, [], s.reservations⟩
  split : ∃ done, dfg.nodes = done ++ nodes ∧
    (s.placements.map NodePlacement.node).Perm (done.map TargetNode.id)

theorem takePlace_eq_some {delta : ReservationDelta} {entered : SearchState}
    (h : takePlace node tile slot footprint s = some (delta, entered)) :
    s.reservations.tryReserve footprint ⟨.node, node.id⟩ = (some delta, entered.reservations) ∧
      entered = { s with
        reservations := entered.reservations
        placements :=
          SortedMap.emplace NodePlacement.node ⟨node.id, tile, slot⟩ s.placements } := by
  rw [takePlace] at h
  rcases htry : s.reservations.tryReserve footprint ⟨.node, node.id⟩ with ⟨_ | taken, later⟩
  · rw [htry] at h
    cases h
  · rw [htry] at h
    obtain ⟨rfl, rfl⟩ := Prod.mk.inj (Option.some.inj h)
    exact ⟨rfl, rfl⟩

/-- Leaving a place takes back what entering it has changed. -/
theorem leavePlace_takePlace
    (hfresh : SortedMap.contains NodePlacement.node node.id s.placements = false)
    {delta : ReservationDelta} {entered : SearchState}
    (h : takePlace node tile slot footprint s = some (delta, entered)) :
    leavePlace node delta entered = .ok s := by
  obtain ⟨htry, hentered⟩ := takePlace_eq_some h
  have herase := @SortedMap.erase_emplace _ _ _ NodePlacement.node ⟨node.id, tile, slot⟩
    s.placements
    hfresh
  rw [hentered, leavePlace]
  simp only [ResourceReservationTable.undo_tryReserve htry, herase]

/-- A node that is left is not placed. -/
theorem Pending.fresh (h : Pending dfg target ii (node :: nodes) s)
    (hgraph : dfg.Verified target) :
    SortedMap.contains NodePlacement.node node.id s.placements = false := by
  obtain ⟨done, hsplit, hperm⟩ := h.split
  have hnodup := hgraph.nodup_nodes
  rw [hsplit, List.map_append, List.map_cons, List.nodup_middle, List.nodup_cons] at hnodup
  rw [SortedMap.contains_eq_false_iff]
  intro placement hplacement hkey
  have hmem := hperm.subset (List.mem_map_of_mem hplacement)
  rw [hkey] at hmem
  exact hnodup.1 (List.mem_append_left _ hmem)

/-- Placing a node leaves one node less. -/
theorem Pending.take (h : Pending dfg target ii (node :: nodes) s) (hgraph : dfg.Verified target)
    (hfootprint : (⟨target, ii⟩ : ModuloResourceModel).operationFootprint node tile slot
      = .ok footprint)
    {delta : ReservationDelta} {entered : SearchState}
    (hentered : takePlace node tile slot footprint s = some (delta, entered)) :
    Pending dfg target ii nodes entered := by
  have hfresh := h.fresh hgraph
  obtain ⟨done, hsplit, hperm⟩ := h.split
  obtain ⟨htry, heq⟩ := takePlace_eq_some hentered
  have hnode : node ∈ dfg.nodes := by
    rw [hsplit]
    exact List.mem_append_right _ List.mem_cons_self
  obtain ⟨rfl, -⟩ := ResourceReservationTable.tryReserve_eq_some_iff.mp htry
  have hplaces : ModuloMapper.Places (mapperContext dfg target ii)
    ⟨s.placements, [], s.reservations⟩
      node.id tile slot footprint _ :=
    .place (hgraph.findNode_of_mem hnode) hfootprint htry
  have hplaced := h.consistent.place hfresh hplaces
  have hplacements : entered.placements
      = SortedMap.emplace NodePlacement.node ⟨node.id, tile, slot⟩ s.placements := by
    rw [heq]
  refine ⟨?_, done ++ [node], ?_, ?_⟩
  · rw [hplacements]
    exact hplaced
  · rw [hsplit, List.append_assoc, List.singleton_append]
  · rw [hplacements]
    have hemplace := (@SortedMap.perm_emplace _ _ _ NodePlacement.node ⟨node.id, tile, slot⟩ _
      hfresh).map NodePlacement.node
    refine hemplace.trans ?_
    rw [List.map_cons, List.map_append, List.map_cons, List.map_nil]
    exact (hperm.cons _).trans (List.perm_append_singleton _ _).symm

/-- The footprint of a division is free as long as its node is not placed. -/
theorem Pending.free (h : Pending dfg target ii (node :: nodes) s) (hgraph : dfg.Verified target)
    {division : ResourceReservationTable} (hextends : s.reservations.Extends division)
    (howns : division.Owns ⟨.node, node.id⟩ footprint)
    (hlt : ∀ resource ∈ footprint, resource < s.reservations.owners.length) :
    ∀ resource ∈ footprint, s.reservations.owners[resource]? = some none := by
  intro resource hresource
  have hin := hlt resource hresource
  rw [List.getElem?_eq_getElem hin]
  rcases hown : s.reservations.owners[resource] with _ | owner
  · rfl
  · have howner : s.reservations.owners[resource]? = some (some owner) := by
      rw [List.getElem?_eq_getElem hin, hown]
    have hsame := (hextends resource owner howner).symm.trans (howns resource hresource)
    obtain rfl := Option.some.inj (Option.some.inj hsame)
    obtain ⟨resources, hholds, -⟩ := (h.consistent.owned resource _).mp howner
    generalize hwho : (⟨.node, node.id⟩ : ReservationOwner) = who at hholds
    rcases hholds with @⟨placement, _, _, hmem, -, -⟩ | ⟨hmem, -, -, -, -, -⟩
    · exact absurd (ReservationOwner.mk.inj hwho).2.symm
        (SortedMap.contains_eq_false_iff.mp (h.fresh hgraph) placement hmem)
    · exact absurd hmem List.not_mem_nil

/-- Once every node is placed, the division gives each edge its links. -/
theorem Extendable.routable (h : Extendable dfg target ii placements before)
    (hplaced : Placed dfg target ii placements before) (hgraph : dfg.Verified target) :
    Routable dfg target ii placements dfg.edges before := by
  obtain ⟨hname, place, table, hdivides, hagrees, hextends⟩ := h
  have hends : ∀ edge ∈ dfg.edges, place edge.src ∈ placements ∧ (place edge.src).node = edge.src ∧
      place edge.dst ∈ placements ∧ (place edge.dst).node = edge.dst := by
    intro edge hedge
    obtain ⟨src, dst, hsrc, hdst⟩ := hgraph.endpoints edge hedge
    obtain ⟨producer, -, hproducer, hproducerNode⟩ := hplaced.exists_lookup hsrc
    obtain ⟨consumer, -, hconsumer, hconsumerNode⟩ := hplaced.exists_lookup hdst
    have hproducerPlace := hagrees producer hproducer
    have hconsumerPlace := hagrees consumer hconsumer
    rw [hproducerNode] at hproducerPlace
    rw [hconsumerNode] at hconsumerPlace
    rw [← hproducerPlace, ← hconsumerPlace]
    exact ⟨hproducer, hproducerNode, hconsumer, hconsumerNode⟩
  refine ⟨⟨hname, fun edge hedge hvalue ↦ ?_⟩, table, hextends, fun edge hedge hvalue ↦ ?_⟩
  · obtain ⟨links, hdelivers, -⟩ := hdivides.edge edge hedge hvalue
    obtain ⟨node, ready, -, -, hnode, hready, -⟩ := hdelivers.plan
    exact ⟨hdelivers.hopLatency_pos, node, ready, hnode, hready⟩
  · obtain ⟨links, hdelivers, howns⟩ := hdivides.edge edge hedge hvalue
    obtain ⟨hsrc, hsrcNode, hdst, hdstNode⟩ := hends edge hedge
    exact ⟨_, hsrc, hsrcNode, _, hdst, hdstNode, links, hdelivers, howns⟩

theorem settles_realizeAll (hpending : Pending dfg target ii [] s)
    (hverified : TargetDFGVerifier.verify dfg target = []) (hii : ii ≠ 0) :
    Settles (realizeAll dfg target ii) s (Extendable dfg target ii s.placements s.reservations)
      fun t ↦ Answered dfg target ii t.answer := by
  have hgraph := TargetDFGVerifier.verified_of_verify hverified
  obtain ⟨done, hsplit, hperm⟩ := hpending.split
  rw [List.append_nil] at hsplit
  rw [← hsplit] at hperm
  have hplaced : Placed dfg target ii s.placements s.reservations := ⟨hpending.consistent, hperm⟩
  have hedges : Settles (realizeEdges dfg target ii s.placements dfg.edges)
      ⟨s.reservations, [], s.answer⟩
      (Routable dfg target ii s.placements dfg.edges s.reservations)
      fun t ↦ Answered dfg target ii t.answer :=
    settles_realizeEdges hplaced hverified hii .nil rfl
  rcases hedges with ⟨later, hlater, hanswer⟩ | ⟨hlater, hnone⟩
  · refine .inl ⟨{ s with reservations := later.reservations, answer := later.answer }, ?_, hanswer⟩
    rw [realizeAll, hlater]
  · refine .inr ⟨?_, fun h ↦ hnone (h.routable hplaced hgraph)⟩
    rw [realizeAll, hlater]

theorem mem_places {operation : String} {place : TileCoord × ℕ} :
    place ∈ places target ii operation ↔
      target.tileSupportsOperation place.1.row place.1.col operation = true ∧ place.2 < ii := by
  rw [places, List.mem_flatMap]
  constructor
  · rintro ⟨tile, htile, hplace⟩
    rw [List.mem_insertionSort, TargetModel.compatibleTiles, List.mem_filter] at htile
    obtain ⟨slot, hslot, rfl⟩ := List.mem_map.mp hplace
    exact ⟨htile.2, List.mem_range.mp hslot⟩
  · rintro ⟨hsupports, hslot⟩
    refine ⟨(place.1.row, place.1.col), ?_, ?_⟩
    · rw [List.mem_insertionSort, TargetModel.compatibleTiles, List.mem_filter]
      obtain ⟨hrow, hcol⟩ := TargetModel.tileSupportsOperation_inRange hsupports
      exact ⟨TargetModel.mem_tiles_iff.mpr ⟨hrow, hcol⟩, hsupports⟩
    · exact List.mem_map.mpr ⟨place.2, List.mem_range.mpr hslot, rfl⟩

/-- A place that has a footprint is tried. -/
theorem mem_places_of_footprint (hgraph : dfg.Verified target) (hnode : node ∈ dfg.nodes)
    (hfootprint : (⟨target, ii⟩ : ModuloResourceModel).operationFootprint node tile slot
      = .ok footprint) : (tile, slot) ∈ places target ii node.operation := by
  obtain ⟨operation, hagrees⟩ := hgraph.agrees node hnode
  have hsupports := ModuloResourceModel.supportsOperation_of_footprint hfootprint
  obtain ⟨hslot, -⟩ := ModuloResourceModel.operationFootprint_spec hagrees.found hfootprint
  rw [mem_places]
  refine ⟨?_, hslot⟩
  rw [ModuloResourceModel.supportsOperation] at hsupports
  split at hsupports
  · cases hsupports
  · rw [hagrees.found] at hsupports
    have hid : operation.id = node.operation := TargetModel.findOperation_id hagrees.found
    rw [← hid]
    exact hsupports

/-- **The search over the nodes settles whether a choice can be completed.** -/
theorem settles_searchPlacements (hverified : TargetDFGVerifier.verify dfg target = [])
    (hii : ii ≠ 0) (hpending : Pending dfg target ii nodes s) :
    Settles (searchPlacements dfg target ii nodes) s
      (Extendable dfg target ii s.placements s.reservations)
      fun t ↦ Answered dfg target ii t.answer := by
  have hgraph := TargetDFGVerifier.verified_of_verify hverified
  induction nodes generalizing s with
  | nil => exact settles_realizeAll hpending hverified hii
  | cons node nodes ih =>
    have hfresh := hpending.fresh hgraph
    have hnode : node ∈ dfg.nodes := by
      obtain ⟨done, hsplit, -⟩ := hpending.split
      rw [hsplit]
      exact List.mem_append_right _ List.mem_cons_self
    -- each place settles whether its footprint is free and the rest can be placed around it
    have hplaces : Settles (searchPlacements dfg target ii (node :: nodes)) s
        (∃ place ∈ places target ii node.operation, ∃ footprint later,
          (⟨target, ii⟩ : ModuloResourceModel).operationFootprint node place.1 place.2
            = .ok footprint ∧
          s.reservations.reserve footprint ⟨.node, node.id⟩ = some later ∧
          Extendable dfg target ii
            (SortedMap.emplace NodePlacement.node ⟨node.id, place.1, place.2⟩ s.placements) later)
        fun t ↦ Answered dfg target ii t.answer := by
      rw [searchPlacements]
      apply settles_anyOf
      rintro ⟨tile, slot⟩ -
      rcases hfootprint : (⟨target, ii⟩ : ModuloResourceModel).operationFootprint node tile slot
        with what | footprint
      · refine settles_fail ?_
        rintro ⟨footprint, later, hok, -⟩
        cases hok
      · refine settles_within (fun delta entered ↦ leavePlace_takePlace hfresh) ?_ ?_
        · rintro hnone ⟨footprint', later, hok, hreserve, -⟩
          obtain rfl := Except.ok.inj hok
          rw [takePlace, ResourceReservationTable.tryReserve_eq_some_iff.mpr ⟨rfl, hreserve⟩]
            at hnone
          cases hnone
        · intro delta entered henter
          refine (ih (hpending.take hgraph hfootprint henter)).mono ?_
          rintro ⟨footprint', later, hok, hlater, hextendable⟩
          obtain rfl := Except.ok.inj hok
          obtain ⟨htry, hentered⟩ := takePlace_eq_some henter
          obtain ⟨-, hreserve⟩ := ResourceReservationTable.tryReserve_eq_some_iff.mp htry
          obtain rfl := Option.some.inj (hreserve.symm.trans hlater)
          rw [hentered]
          exact hextendable
    apply hplaces.mono
    -- the place a division gives the node is tried, and its footprint is free
    rintro ⟨hname, place, division, hdivides, hagrees, hextends⟩
    obtain ⟨hid, footprint, hfootprint, howns⟩ := hdivides.node node hnode
    obtain ⟨operation, hoperation⟩ := hgraph.agrees node hnode
    obtain ⟨-, -, hdistinct, -, hids⟩ :=
      ModuloResourceModel.operationFootprint_spec hoperation.found hfootprint
    have hlt : ∀ resource ∈ footprint, resource < s.reservations.owners.length := by
      intro resource hmem
      obtain ⟨i, hi⟩ := List.mem_iff_get.mp hmem
      rw [hpending.consistent.size, ← hi]
      exact ModuloResourceModel.findResource_lt (hids i.1 i.2)
    obtain ⟨later, hreserve⟩ := ResourceReservationTable.exists_reserve_iff.mpr
      ⟨hdistinct, hpending.free hgraph hextends howns hlt⟩
    refine ⟨((place node.id).tile, (place node.id).issueSlot),
      mem_places_of_footprint hgraph hnode hfootprint, footprint, later, hfootprint, hreserve,
      hname, place, division, hdivides, ?_,
      extends_of_reserve hextends howns (List.Subset.refl _) hreserve⟩
    intro placement hplacement
    rcases (@SortedMap.mem_emplace _ _ _ NodePlacement.node
      ⟨node.id, (place node.id).tile, (place node.id).issueSlot⟩ _ _ hfresh).mp hplacement
        with rfl | hplacement
    · conv_rhs => rw [show (⟨node.id, (place node.id).tile, (place node.id).issueSlot⟩ :
        NodePlacement).node = node.id from rfl]
      rcases hplace : place node.id with ⟨id, tile, slot⟩
      rw [hplace] at hid
      obtain rfl : id = node.id := hid
      rfl
    · exact hagrees placement hplacement

end Nodes

/-! ## The oracle -/

/-- What an accepted mapping divides the resources by extends the empty choice. -/
theorem extendable_of_verify {mapping : ModuloMapping} (hii : mapping.ii = ii)
    (hintime : mapping.InTime)
    (hverify : ModuloMappingVerifier.verify dfg target mapping = .ok []) :
    Extendable dfg target ii [] (.empty ⟨target, ii⟩) := by
  obtain ⟨-, hname, -⟩ := ModuloMappingVerifier.preconditions_of_verify hverify
  obtain ⟨table, hdivides⟩ := ModuloMappingVerifier.divides_of_verify hintime hverify
  subst hii
  refine ⟨hname, _, table, hdivides, List.forall_mem_nil _, ?_⟩
  intro resource owner howner
  rw [ResourceReservationTable.empty] at howner
  obtain ⟨hlt, hnone⟩ := List.getElem?_eq_some_iff.mp howner
  rw [List.getElem_replicate] at hnone
  cases hnone

/-- The search of a verified graph finds a mapping, or there is none. -/
theorem settles_search (hverified : TargetDFGVerifier.verify dfg target = []) (hii : ii ≠ 0) :
    Settles (searchPlacements dfg target ii dfg.nodes) ⟨.empty ⟨target, ii⟩, [], none⟩
      (∃ mapping : ModuloMapping, mapping.ii = ii ∧ mapping.InTime ∧
        ModuloMappingVerifier.verify dfg target mapping = .ok [])
      fun t ↦ Answered dfg target ii t.answer := by
  have hpending : Pending dfg target ii dfg.nodes ⟨.empty ⟨target, ii⟩, [], none⟩ :=
    ⟨Consistent.start, [], rfl, .nil⟩
  refine (settles_searchPlacements hverified hii hpending).mono ?_
  rintro ⟨mapping, hmapping, hintime, hverify⟩
  exact extendable_of_verify hmapping hintime hverify

/-- Some mapping with this interval is accepted, whatever its placements and plans are. -/
def Mappable (dfg : TargetDFG) (target : TargetModel) (ii : ℕ) : Prop :=
  ∃ mapping : ModuloMapping, mapping.ii = ii ∧ mapping.InTime ∧
    ModuloMappingVerifier.verify dfg target mapping = .ok []

theorem ne_zero_of_supported {options : ExactOracleOptions}
    (h : isUnsupported dfg target ii options = false) : ii ≠ 0 := by
  rintro rfl
  simp [isUnsupported] at h

theorem solve_unsupported {options : ExactOracleOptions}
    (h : isUnsupported dfg target ii options = true) :
    solve dfg target ii options = .ok { status := .unsupportedOracleSize } :=
  if_pos h

/-- A graph the verifier refuses is not searched. -/
theorem solve_refused {options : ExactOracleOptions}
    (hsize : isUnsupported dfg target ii options = false)
    (hrefused : TargetDFGVerifier.verify dfg target ≠ []) :
    solve dfg target ii options = .ok { status := .invalidInput } := by
  have hreport : (!(TargetDFGVerifier.verify dfg target).isEmpty) = true := by
    rw [Bool.not_eq_true', Bool.eq_false_iff]
    exact fun h ↦ hrefused (List.isEmpty_iff.mp h)
  rw [solve, if_neg (by rw [hsize]; exact Bool.false_ne_true), if_pos hreport]

/-- A graph the verifier accepts is searched, and the search is right. -/
theorem solve_searched {options : ExactOracleOptions}
    (hsize : isUnsupported dfg target ii options = false)
    (hverified : TargetDFGVerifier.verify dfg target = []) :
    (∃ answer, Answered dfg target ii answer ∧
      solve dfg target ii options = .ok { status := .feasible, mapping := answer }) ∨
    (¬ Mappable dfg target ii ∧
      solve dfg target ii options = .ok { status := .infeasible, mapping := none }) := by
  have hsearch : ¬ isUnsupported dfg target ii options = true := by
    rw [hsize]
    exact Bool.false_ne_true
  have hreport : ¬ (!(TargetDFGVerifier.verify dfg target).isEmpty) = true := by
    rw [hverified]
    exact Bool.noConfusion
  rcases settles_search hverified (ne_zero_of_supported hsize) with
    ⟨later, hlater, hanswer⟩ | ⟨hlater, hnone⟩
  · refine .inl ⟨later.answer, hanswer, ?_⟩
    rw [solve, if_neg hsearch, if_neg hreport, hlater]
  · refine .inr ⟨hnone, ?_⟩
    rw [solve, if_neg hsearch, if_neg hreport, hlater]

/-- **The oracle is exact.** It always returns. Within the size options and on a graph the verifier
accepts, it finds a mapping exactly when there is one with this interval, whatever routes that
mapping uses; what it finds is accepted, and otherwise it returns no mapping. -/
theorem solve_exact (dfg : TargetDFG) (target : TargetModel) (ii : ℕ)
    (options : ExactOracleOptions) : ∃ result, solve dfg target ii options = .ok result ∧
      (result.status = .unsupportedOracleSize ↔ isUnsupported dfg target ii options = true) ∧
      (result.status = .invalidInput ↔ isUnsupported dfg target ii options = false ∧
        TargetDFGVerifier.verify dfg target ≠ []) ∧
      (isUnsupported dfg target ii options = false →
        (∃ mapping : ModuloMapping, mapping.ii = ii ∧ mapping.InTime ∧
          ModuloMappingVerifier.verify dfg target mapping = .ok []) → result.status = .feasible) ∧
      (result.status = .feasible → ∃ mapping, result.mapping = some mapping ∧ mapping.ii = ii ∧
        ModuloMappingVerifier.verify dfg target mapping = .ok []) ∧
      (result.status ≠ .feasible → result.mapping = none) := by
  rcases hsize : isUnsupported dfg target ii options with _ | _
  · by_cases hverified : TargetDFGVerifier.verify dfg target = []
    · rcases solve_searched hsize hverified with ⟨answer, hanswer, hrun⟩ | ⟨hnone, hrun⟩
      · obtain ⟨mapping, hmapping, hinterval, -, hclean⟩ := hanswer
        exact ⟨_, hrun, iff_of_false ExactOracleStatus.noConfusion Bool.false_ne_true,
          iff_of_false ExactOracleStatus.noConfusion fun h ↦ h.2 hverified, fun _ _ ↦ rfl,
          fun _ ↦ ⟨mapping, hmapping, hinterval, hclean⟩, fun h ↦ absurd rfl h⟩
      · exact ⟨_, hrun, iff_of_false ExactOracleStatus.noConfusion Bool.false_ne_true,
          iff_of_false ExactOracleStatus.noConfusion fun h ↦ h.2 hverified,
          fun _ h ↦ absurd h hnone, ExactOracleStatus.noConfusion, fun _ ↦ rfl⟩
    · refine ⟨_, solve_refused hsize hverified,
        iff_of_false ExactOracleStatus.noConfusion Bool.false_ne_true,
        iff_of_true rfl ⟨rfl, hverified⟩, ?_, ExactOracleStatus.noConfusion, fun _ ↦ rfl⟩
      rintro - ⟨mapping, -, -, hverify⟩
      exact absurd (ModuloMappingVerifier.preconditions_of_verify hverify).1 hverified
  · exact ⟨_, solve_unsupported hsize, iff_of_true rfl rfl,
      iff_of_false ExactOracleStatus.noConfusion fun h ↦ Bool.noConfusion h.1, Bool.noConfusion,
      ExactOracleStatus.noConfusion, fun _ ↦ rfl⟩

/-- **Within the size options the oracle decides whether there is a mapping.** It is feasible if and
only if some mapping with this interval is accepted, the mapping it returns is accepted, and
otherwise it is infeasible, unless the graph itself is refused. That values are ready within 32 bits
is the type of the field. -/
theorem feasible_iff (dfg : TargetDFG) (target : TargetModel) (ii : ℕ)
    (options : ExactOracleOptions) (hsize : isUnsupported dfg target ii options = false)
    (hready : ∀ node ∈ dfg.nodes, readyAt node ≤ uint32Max) :
    ∃ result, solve dfg target ii options = .ok result ∧
      (result.status = .feasible ↔ ∃ mapping : ModuloMapping, mapping.ii = ii ∧ mapping.InTime ∧
        ModuloMappingVerifier.verify dfg target mapping = .ok []) ∧
      (result.status = .feasible ↔ result.mapping.isSome = true) ∧
      (∀ mapping, result.mapping = some mapping → mapping.ii = ii ∧
        ModuloMappingVerifier.verify dfg target mapping = .ok []) ∧
      (result.status = .invalidInput ↔ TargetDFGVerifier.verify dfg target ≠ []) ∧
      (result.status = .infeasible ↔ TargetDFGVerifier.verify dfg target = [] ∧
        ¬ ∃ mapping : ModuloMapping, mapping.ii = ii ∧ mapping.InTime ∧
          ModuloMappingVerifier.verify dfg target mapping = .ok []) := by
  by_cases hverified : TargetDFGVerifier.verify dfg target = []
  · rcases solve_searched hsize hverified with ⟨answer, hanswer, hrun⟩ | ⟨hnone, hrun⟩
    · obtain ⟨mapping, rfl, hinterval, hintime, hclean⟩ := hanswer
      have hmappable : Mappable dfg target ii := ⟨mapping, hinterval, hintime hready, hclean⟩
      refine ⟨_, hrun, iff_of_true rfl hmappable, iff_of_true rfl rfl, ?_,
        iff_of_false ExactOracleStatus.noConfusion (not_not_intro hverified),
        iff_of_false ExactOracleStatus.noConfusion fun h ↦ h.2 hmappable⟩
      rintro _ ⟨⟩
      exact ⟨hinterval, hclean⟩
    · refine ⟨_, hrun, iff_of_false ExactOracleStatus.noConfusion hnone,
        iff_of_false ExactOracleStatus.noConfusion Bool.noConfusion, ?_,
        iff_of_false ExactOracleStatus.noConfusion (not_not_intro hverified),
        iff_of_true rfl ⟨hverified, hnone⟩⟩
      rintro _ ⟨⟩
  · have hnone : ¬ Mappable dfg target ii := by
      rintro ⟨mapping, -, -, hclean⟩
      exact hverified (ModuloMappingVerifier.preconditions_of_verify hclean).1
    refine ⟨_, solve_refused hsize hverified, iff_of_false ExactOracleStatus.noConfusion hnone,
      iff_of_false ExactOracleStatus.noConfusion Bool.noConfusion, ?_, iff_of_true rfl hverified,
      iff_of_false ExactOracleStatus.noConfusion fun h ↦ hverified h.1⟩
    rintro _ ⟨⟩

/-! ### The delay line

Its two nodes fit the options once the whole array may be searched. -/

/-- The options, for an array of sixteen tiles. -/
def wholeArray : ExactOracleOptions := { maxTiles := 16 }

/-- The oracle finds a mapping of the delay line, with interval two. -/
theorem delayLine_feasible : ∃ result mapping,
    solve delayLineDFG shippedTarget 2 wholeArray = .ok result ∧ result.status = .feasible ∧
      result.mapping = some mapping ∧ mapping.ii = 2 ∧
      ModuloMappingVerifier.verify delayLineDFG shippedTarget mapping = .ok [] := by
  have haccepted : ModuloMappingVerifier.verify delayLineDFG shippedTarget delayLineStaged.modulo
      = .ok [] := (Scan.accepts_iff _).mp (by decide +kernel)
  have hintime : delayLineStaged.modulo.InTime := by
    simp [ModuloMapping.InTime, delayLineStaged, delayLinePlan, uint32Max]
  obtain ⟨result, hrun, hfeasible, hsome, hmapping, -⟩ := feasible_iff delayLineDFG shippedTarget 2
    wholeArray (by decide) (by decide)
  have hstatus := hfeasible.mpr ⟨delayLineStaged.modulo, rfl, hintime, haccepted⟩
  obtain ⟨mapping, hreturned⟩ := Option.isSome_iff_exists.mp (hsome.mp hstatus)
  exact ⟨result, mapping, hrun, hstatus, hreturned, hmapping mapping hreturned⟩

/-- The delay line with an operation the target does not have. -/
def unknownOperationDFG : TargetDFG :=
  { delayLineDFG with nodes := [passNode 0, { passNode 1 with operation := "ROTATE" }] }

/-- A graph that is refused is within the size options, and the oracle says neither that it is
feasible nor that it is infeasible. -/
theorem unknown_operation_invalid :
    isUnsupported unknownOperationDFG shippedTarget 2 wholeArray = false ∧
      ∃ result, solve unknownOperationDFG shippedTarget 2 wholeArray = .ok result ∧
        result.status ≠ .feasible ∧ result.status ≠ .infeasible := by
  have hsize : isUnsupported unknownOperationDFG shippedTarget 2 wholeArray = false := by decide
  have hrefused : TargetDFGVerifier.verify unknownOperationDFG shippedTarget ≠ [] := by decide
  exact ⟨hsize, _, solve_refused hsize hrefused, ExactOracleStatus.noConfusion,
    ExactOracleStatus.noConfusion⟩

end ExactModuloOracle

end PredicatedMesh
