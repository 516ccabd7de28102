import PredicatedMesh.Mapping.ModuloMapper

/-!
# Candidates as transactions

A candidate adds one placement with its footprint and then, edge after edge, dependences with the
links of their routes. Any of these steps may fail. What was added up to there is described by two
relations on partial mappings, `Places` for the node and `RealizesAll` for the edges, and the delta
of the candidate records precisely the steps that were made, so `rollback` leads back to the partial
mapping the candidate was tried in.

A search is a tree of candidates. `attempt_next`, `attempt_done` and `search_leaves` carry the
rollback of one candidate through the loop over the candidates and through the recursion: whatever
the outcome is, only a success leaves anything behind.
-/

namespace PredicatedMesh

namespace ModuloMapper

/-! ## Counters -/

/-- A counter that is only raised below its limit. -/
def CountsTo (limit before after : ℕ) : Prop := before ≤ after ∧ (after = before ∨ after ≤ limit)

theorem CountsTo.refl (limit n : ℕ) : CountsTo limit n n := ⟨le_rfl, .inl rfl⟩

theorem CountsTo.trans {limit a b c : ℕ} (hab : CountsTo limit a b) (hbc : CountsTo limit b c) :
    CountsTo limit a c := by
  rcases hab with ⟨hab, rfl | hb⟩
  · exact hbc
  · rcases hbc with ⟨hbc, rfl | hc⟩
    · exact ⟨hab, .inr hb⟩
    · exact ⟨hab.trans hbc, .inr hc⟩

theorem CountsTo.succ {limit n : ℕ} (h : ¬ n ≥ limit) : CountsTo limit n (n + 1) :=
  ⟨Nat.le_succ n, .inr (not_le.mp h)⟩

/-- A stretch of a search counts within the limits. -/
structure Spends (limits : SearchLimits) (before after : ModuloMapperStats) : Prop where
  nodeCandidateAttempts : CountsTo limits.nodeCandidateAttempts before.nodeCandidateAttempts
    after.nodeCandidateAttempts
  backtracks : CountsTo limits.backtracks before.backtracks after.backtracks
  routeSearchCalls : CountsTo limits.routeSearchCalls before.routeSearchCalls
    after.routeSearchCalls

theorem Spends.refl (limits : SearchLimits) (stats : ModuloMapperStats) :
    Spends limits stats stats :=
  ⟨.refl _ _, .refl _ _, .refl _ _⟩

theorem Spends.trans {limits : SearchLimits} {a b c : ModuloMapperStats} (hab : Spends limits a b)
    (hbc : Spends limits b c) : Spends limits a c :=
  ⟨hab.1.trans hbc.1, hab.2.trans hbc.2, hab.3.trans hbc.3⟩

/-! ## What a candidate adds -/

section Steps

variable (ctx : Context)

/-- The route search for an edge whose ends are placed. -/
def routeSearch (p : PartialMapping) (edge : TargetEdge) (producer consumer : NodePlacement) :
    Except String RouteSearchResult :=
  ModuloRouteSearch.search ctx.dfg ctx.target ctx.resources p.reservations
    ⟨edge.id, producer, consumer⟩ ctx.routeOptions

/-- An edge is realized, with the links that were reserved for it. -/
inductive Realizes (p : PartialMapping) (edge : TargetEdge) :
    Option ReservationDelta → PartialMapping → Prop
  | memory {kind : MemoryDepKind} :
      edge.info = .memory kind →
        Realizes p edge none
          (p.realize edge (ctx.target.memoryDependenceSeparation kind) none p.reservations)
  | routed {producer consumer : NodePlacement} {route : RouteSearchResult} {plan : TransportPlan}
      {resources : List ResourceId} {later : ResourceReservationTable} :
      edge.kind ≠ .memory →
      p.placement edge.src = some producer →
      p.placement edge.dst = some consumer →
      routeSearch ctx p edge producer consumer = .ok route →
      route.status = .success →
      route.plan = some plan →
      routeResources ctx plan producer = .ok resources →
      p.reservations.tryReserve resources ⟨.edge, edge.id⟩
        = (some ⟨⟨.edge, edge.id⟩, resources⟩, later) →
        Realizes p edge (some ⟨⟨.edge, edge.id⟩, resources⟩)
          (p.realize edge plan.requiredSeparationCycles (some plan) later)

/-- Edges are realized one after the other. -/
inductive RealizesAll :
    List TargetEdgeId → PartialMapping → List ReservationDelta → PartialMapping → Prop
  | nil (p : PartialMapping) : RealizesAll [] p [] p
  | cons {id : TargetEdgeId} {ids : List TargetEdgeId} {edge : TargetEdge}
      {p q r : PartialMapping} {reservation : Option ReservationDelta}
      {reservations : List ReservationDelta} :
      ctx.dfg.findEdge id = some edge →
      Realizes ctx p edge reservation q →
      RealizesAll ids q reservations r →
        RealizesAll (id :: ids) p (reservation.toList ++ reservations) r

/-- A node is placed, with the footprint that was reserved for it. -/
inductive Places (p : PartialMapping) (node : TargetNodeId) (tile : TileCoord) (slot : ℕ) :
    List ResourceId → PartialMapping → Prop
  | place {targetNode : TargetNode} {footprint : List ResourceId}
      {later : ResourceReservationTable} :
      ctx.dfg.findNode node = some targetNode →
      ctx.resources.operationFootprint targetNode tile slot = .ok footprint →
      p.reservations.tryReserve footprint ⟨.node, node⟩
        = (some ⟨⟨.node, node⟩, footprint⟩, later) →
        Places p node tile slot footprint (p.place ⟨node, tile, slot⟩ later)

/-- A node is placed and the edges this closes are realized. -/
def Extends (p : PartialMapping) (node : TargetNodeId) (tile : TileCoord) (slot : ℕ)
    (q : PartialMapping) : Prop :=
  ∃ footprint placed reservations, Places ctx p node tile slot footprint placed ∧
    RealizesAll ctx (closedEdges ctx placed node) placed reservations q

/-! ## What stops a candidate -/

/-- The search has looked at every way the edge could go. -/
def Unroutable (p : PartialMapping) (edge : TargetEdge) : Prop :=
  ∃ producer consumer route, p.placement edge.src = some producer ∧
    p.placement edge.dst = some consumer ∧
    routeSearch ctx p edge producer consumer = .ok route ∧ route.status = .noPath

/-- A node cannot stand at a place: the tile cannot execute it at that slot, its units are taken, or
an edge that its placement closes has no route. -/
inductive Blocked (p : PartialMapping) (node : TargetNodeId) (tile : TileCoord) (slot : ℕ) : Prop
  | footprint {targetNode : TargetNode} {what : String} :
      ctx.dfg.findNode node = some targetNode →
      ctx.resources.operationFootprint targetNode tile slot = .error what →
        Blocked p node tile slot
  | conflict {targetNode : TargetNode} {footprint : List ResourceId} :
      ctx.dfg.findNode node = some targetNode →
      ctx.resources.operationFootprint targetNode tile slot = .ok footprint →
      (p.reservations.tryReserve footprint ⟨.node, node⟩).1 = none →
        Blocked p node tile slot
  | noPath {footprint : List ResourceId} {placed q : PartialMapping}
      {before after : List TargetEdgeId} {id : TargetEdgeId} {edge : TargetEdge}
      {reservations : List ReservationDelta} :
      Places ctx p node tile slot footprint placed →
      closedEdges ctx placed node = before ++ id :: after →
      RealizesAll ctx before placed reservations q →
      ctx.dfg.findEdge id = some edge →
      Unroutable ctx q edge →
        Blocked p node tile slot

end Steps

variable {ctx : Context} {limits : SearchLimits} {s s' : MappingSearchState}
  {delta delta' : CandidateDelta}
  {outcome : SearchOutcome}

/-! ## Realizing edges -/

/-- What a candidate records of an edge. -/
def CandidateDelta.add (delta : CandidateDelta) (ids : List TargetEdgeId)
    (reservations : List ReservationDelta) : CandidateDelta :=
  { delta with
    edges := delta.edges ++ ids
    edgeReservations := delta.edgeReservations ++ reservations }

/-- The outcomes that leave a candidate before it is complete. -/
def Stops (outcome : SearchOutcome) : Prop :=
  outcome = .exhausted ∨ outcome = .perIIBudgetExceeded ∨ outcome = .routeBudgetExceeded
    ∨ outcome = .internalError

theorem Stops.ne_success (h : Stops outcome) : outcome ≠ .success := by
  rcases h with rfl | rfl | rfl | rfl <;> nofun

theorem placementAt_eq_ok {p : PartialMapping} {id : TargetNodeId} {placement : NodePlacement} :
    p.placementAt id = .ok placement ↔ p.placement id = some placement := by
  rw [PartialMapping.placementAt]
  rcases p.placement id with _ | found
  · simp
  · simp

theorem edgeAt_eq_ok {id : TargetEdgeId} {edge : TargetEdge} :
    edgeAt ctx id = .ok edge ↔ ctx.dfg.findEdge id = some edge := by
  rw [edgeAt]
  rcases ctx.dfg.findEdge id with _ | found
  · simp
  · simp

theorem nodeAt_eq_ok {id : TargetNodeId} {node : TargetNode} :
    nodeAt ctx id = .ok node ↔ ctx.dfg.findNode id = some node := by
  rw [nodeAt]
  rcases ctx.dfg.findNode id with _ | found
  · simp
  · simp

/-- A route that was found is reserved and recorded, or nothing is. -/
theorem reserveRoute_cases {edge : TargetEdge} {producer : NodePlacement} {plan : TransportPlan}
    (h : reserveRoute ctx edge producer plan delta s = .ok (outcome, delta', s')) :
    s'.stats = s.stats ∧
      ((outcome = .success ∧ ∃ resources later, routeResources ctx plan producer = .ok resources ∧
          s.reservations.tryReserve resources ⟨.edge, edge.id⟩
            = (some ⟨⟨.edge, edge.id⟩, resources⟩, later) ∧
          s'.toPartialMapping = s.realize edge plan.requiredSeparationCycles (some plan) later ∧
          delta' = delta.add [edge.id] [⟨⟨.edge, edge.id⟩, resources⟩]) ∨
        (outcome = .internalError ∧ delta' = delta ∧
          s'.toPartialMapping = s.toPartialMapping)) := by
  rw [reserveRoute] at h
  split at h
  · cases h
  · rename_i resources hresources
    split at h
    · simp only [Except.ok.injEq, Prod.mk.injEq] at h
      obtain ⟨rfl, rfl, rfl⟩ := h
      exact ⟨rfl, .inr ⟨rfl, rfl, rfl⟩⟩
    · rename_i reservation later htry
      simp only [Except.ok.injEq, Prod.mk.injEq] at h
      obtain ⟨rfl, rfl, rfl⟩ := h
      obtain ⟨rfl, -⟩ := ResourceReservationTable.tryReserve_eq_some_iff.mp htry
      exact ⟨rfl, .inl ⟨rfl, resources, later, hresources, htry, rfl, rfl⟩⟩

theorem routeEdge_cases {edge : TargetEdge} {producer consumer : NodePlacement}
    (hkind : edge.kind ≠ .memory) (hproducer : s.placement edge.src = some producer)
    (hconsumer : s.placement edge.dst = some consumer)
    (h : routeEdge ctx limits edge producer consumer delta s = .ok (outcome, delta', s')) :
    Spends limits s.stats s'.stats ∧
      ((outcome = .success ∧ ∃ reservation,
          Realizes ctx s.toPartialMapping edge reservation s'.toPartialMapping ∧
            delta' = delta.add [edge.id] reservation.toList) ∨
        (Stops outcome ∧ delta' = delta ∧ s'.toPartialMapping = s.toPartialMapping ∧
          (outcome = .exhausted → Unroutable ctx s.toPartialMapping edge))) := by
  rw [routeEdge] at h
  split at h
  · simp only [Except.ok.injEq, Prod.mk.injEq] at h
    obtain ⟨rfl, rfl, rfl⟩ := h
    exact ⟨.refl _ _, .inr ⟨.inr (.inl rfl), rfl, rfl, nofun⟩⟩
  · rename_i hcalls
    simp only at h
    split at h
    · cases h
    · rename_i route hroute
      have hspends : Spends limits s.stats
          { s.stats with routeSearchCalls := s.stats.routeSearchCalls + 1 } :=
        ⟨.refl _ _, .refl _ _, .succ hcalls⟩
      rw [settleRoute] at h
      split at h
      · rename_i hstatus
        simp only [Except.ok.injEq, Prod.mk.injEq] at h
        obtain ⟨rfl, rfl, rfl⟩ := h
        exact ⟨hspends, .inr ⟨.inl rfl, rfl, rfl,
          fun _ ↦ ⟨producer, consumer, route, hproducer, hconsumer, hroute, hstatus⟩⟩⟩
      · simp only [Except.ok.injEq, Prod.mk.injEq] at h
        obtain ⟨rfl, rfl, rfl⟩ := h
        exact ⟨hspends, .inr ⟨.inr (.inr (.inl rfl)), rfl, rfl, nofun⟩⟩
      · simp only [Except.ok.injEq, Prod.mk.injEq] at h
        obtain ⟨rfl, rfl, rfl⟩ := h
        exact ⟨hspends, .inr ⟨.inr (.inr (.inr rfl)), rfl, rfl, nofun⟩⟩
      · rename_i plan hstatus hplan
        obtain ⟨hstats, hcases⟩ := reserveRoute_cases h
        refine ⟨hstats ▸ hspends, ?_⟩
        rcases hcases with ⟨rfl, resources, later, hresources, htry, hp, rfl⟩ | ⟨rfl, rfl, hp⟩
        · refine .inl ⟨rfl, some ⟨⟨.edge, edge.id⟩, resources⟩, ?_, rfl⟩
          rw [hp]
          exact .routed hkind hproducer hconsumer hroute hstatus hplan hresources htry
        · exact .inr ⟨.inr (.inr (.inr rfl)), rfl, hp, nofun⟩
      · simp only [Except.ok.injEq, Prod.mk.injEq] at h
        obtain ⟨rfl, rfl, rfl⟩ := h
        exact ⟨hspends, .inr ⟨.inr (.inr (.inr rfl)), rfl, rfl, nofun⟩⟩

/-- One edge is realized, or nothing has changed. -/
theorem realizeEdge_cases {id : TargetEdgeId}
    (h : realizeEdge ctx limits delta s id = .ok (outcome, delta', s')) :
    Spends limits s.stats s'.stats ∧ ∃ edge, ctx.dfg.findEdge id = some edge ∧
      ((outcome = .success ∧ ∃ reservation,
          Realizes ctx s.toPartialMapping edge reservation s'.toPartialMapping ∧
            delta' = delta.add [id] reservation.toList) ∨
        (Stops outcome ∧ delta' = delta ∧ s'.toPartialMapping = s.toPartialMapping ∧
          (outcome = .exhausted → Unroutable ctx s.toPartialMapping edge))) := by
  rw [realizeEdge] at h
  obtain ⟨edge, hedge, hrest⟩ := Scan.bind_eq_ok.mp h
  obtain ⟨producer, hproducer, hrest⟩ := Scan.bind_eq_ok.mp hrest
  obtain ⟨consumer, hconsumer, hrest⟩ := Scan.bind_eq_ok.mp hrest
  rw [edgeAt_eq_ok] at hedge
  rw [placementAt_eq_ok] at hproducer hconsumer
  clear h
  obtain rfl := TargetDFG.findEdge_id hedge
  split at hrest
  · rename_i kind hkind
    simp only [pure, Except.pure, Except.ok.injEq, Prod.mk.injEq] at hrest
    obtain ⟨rfl, rfl, rfl⟩ := hrest
    exact ⟨.refl _ _, edge, hedge, .inl ⟨rfl, none, .memory hkind, by simp [CandidateDelta.add]⟩⟩
  · rename_i hinfo
    have hkind : edge.kind ≠ .memory := by
      intro hmemory
      obtain ⟨kind, hkind⟩ := TargetEdge.kind_eq_memory_iff.mp hmemory
      exact hinfo kind hkind
    obtain ⟨hspends, hcases⟩ := routeEdge_cases hkind hproducer hconsumer hrest
    exact ⟨hspends, edge, hedge, hcases⟩

@[simp] theorem CandidateDelta.add_nil (delta : CandidateDelta) : delta.add [] [] = delta := by
  simp [CandidateDelta.add]

theorem CandidateDelta.add_add (delta : CandidateDelta) (ids ids' : List TargetEdgeId)
    (reservations reservations' : List ReservationDelta) :
    (delta.add ids reservations).add ids' reservations'
      = delta.add (ids ++ ids') (reservations ++ reservations') := by
  simp [CandidateDelta.add]

/-- The edges before the first that stops the candidate are realized. -/
theorem realizeEdges_cases {ids : List TargetEdgeId}
    (h : realizeEdges ctx limits ids delta s = .ok (outcome, delta', s')) :
    Spends limits s.stats s'.stats ∧ ∃ before after reservations, ids = before ++ after ∧
      RealizesAll ctx before s.toPartialMapping reservations s'.toPartialMapping ∧
      delta' = delta.add before reservations ∧
      ((outcome = .success ∧ after = []) ∨
        (Stops outcome ∧ ∃ id rest edge, after = id :: rest ∧ ctx.dfg.findEdge id = some edge ∧
          (outcome = .exhausted → Unroutable ctx s'.toPartialMapping edge))) := by
  induction ids generalizing delta s with
  | nil =>
    simp only [realizeEdges, Except.ok.injEq, Prod.mk.injEq] at h
    obtain ⟨rfl, rfl, rfl⟩ := h
    exact ⟨.refl _ _, [], [], [], rfl, .nil _, by simp, .inl ⟨rfl, rfl⟩⟩
  | cons id ids ih =>
    rw [realizeEdges] at h
    split at h
    · cases h
    · rename_i delta₁ s₁ hone
      obtain ⟨hspends, edge, hedge, hcases⟩ := realizeEdge_cases hone
      rcases hcases with ⟨-, reservation, hrealizes, rfl⟩ | ⟨hstops, -⟩
      · obtain ⟨hspends', before, after, reservations, rfl, hall, rfl, hend⟩ := ih h
        exact ⟨hspends.trans hspends', id :: before, after, reservation.toList ++ reservations, rfl,
          .cons hedge hrealizes hall, CandidateDelta.add_add _ _ _ _ _, hend⟩
      · exact absurd rfl hstops.ne_success
    · rename_i hne hone
      simp only [Except.ok.injEq, Prod.mk.injEq] at h
      obtain ⟨rfl, rfl, rfl⟩ := h
      obtain ⟨hspends, edge, hedge, hcases⟩ := realizeEdge_cases hone
      rcases hcases with ⟨rfl, -⟩ | ⟨hstops, rfl, hp, hexhausted⟩
      · exact (hne rfl).elim
      · rw [← hp] at hexhausted
        refine ⟨hspends, [], id :: ids, [], rfl, ?_, by simp, .inr ⟨hstops, id, ids, edge, rfl,
          hedge, hexhausted⟩⟩
        rw [hp]
        exact .nil _

/-! ## Trying a candidate -/

/-- What a candidate has done when it returns: nothing, or its node is placed, some of the edges
this closes are realized, and its delta lists what was reserved and recorded. -/
theorem tryCandidate_cases {node : TargetNodeId} {candidate : Candidate}
    (h : tryCandidate ctx limits node candidate {} s = .ok (outcome, delta, s')) :
    Spends limits s.stats s'.stats ∧
      ((outcome = .exhausted ∧ delta = {} ∧ s'.toPartialMapping = s.toPartialMapping ∧
          Blocked ctx s.toPartialMapping node candidate.tile candidate.slot) ∨
        ∃ footprint placed before after reservations,
          Places ctx s.toPartialMapping node candidate.tile candidate.slot footprint placed ∧
          closedEdges ctx placed node = before ++ after ∧
          RealizesAll ctx before placed reservations s'.toPartialMapping ∧
          delta = ⟨node, ⟨⟨.node, node⟩, footprint⟩, before, reservations⟩ ∧
          ((outcome = .success ∧ after = []) ∨
            (Stops outcome ∧ (outcome = .exhausted →
              Blocked ctx s.toPartialMapping node candidate.tile candidate.slot)))) := by
  rw [tryCandidate] at h
  obtain ⟨targetNode, hnode, hrest⟩ := Scan.bind_eq_ok.mp h
  rw [nodeAt_eq_ok] at hnode
  clear h
  split at hrest
  · rename_i hfootprint
    simp only [pure, Except.pure, Except.ok.injEq, Prod.mk.injEq] at hrest
    obtain ⟨rfl, rfl, rfl⟩ := hrest
    exact ⟨.refl _ _, .inl ⟨rfl, rfl, rfl, .footprint hnode hfootprint⟩⟩
  · rename_i footprint hfootprint
    split at hrest
    · rename_i htry
      simp only [pure, Except.pure, Except.ok.injEq, Prod.mk.injEq] at hrest
      obtain ⟨rfl, rfl, rfl⟩ := hrest
      exact ⟨.refl _ _, .inl ⟨rfl, rfl, rfl, .conflict hnode hfootprint (by rw [htry])⟩⟩
    · rename_i reservation later htry
      obtain ⟨rfl, -⟩ := ResourceReservationTable.tryReserve_eq_some_iff.mp htry
      have hplaces := Places.place hnode hfootprint htry
      obtain ⟨hspends, before, after, reservations, hids, hall, rfl, hend⟩ :=
        realizeEdges_cases hrest
      refine ⟨hspends, .inr ⟨footprint, _, before, after, reservations, hplaces, hids, hall,
        by simp [CandidateDelta.add], ?_⟩⟩
      rcases hend with ⟨rfl, rfl⟩ | ⟨hstops, id, rest, edge, rfl, hedge, hexhausted⟩
      · exact .inl ⟨rfl, rfl⟩
      · exact .inr ⟨hstops, fun ho ↦ .noPath hplaces hids hall hedge (hexhausted ho)⟩

/-! ## Taking a candidate back -/

theorem undo_of_tryReserve {table later : ResourceReservationTable} {resources : List ResourceId}
    {owner : ReservationOwner} {reservation : ReservationDelta}
    (h : table.tryReserve resources owner = (some reservation, later)) :
    undo later reservation = .ok table := by
  rw [undo, ResourceReservationTable.undo_tryReserve h]

/-- Erasing goes past the erasing of other keys. -/
theorem foldl_erase_comm (id : TargetEdgeId) (ids : List TargetEdgeId)
    (dependences : List MappedDependence) :
    ids.foldl (fun dependences id ↦ SortedMap.erase MappedDependence.edge id dependences)
        (SortedMap.erase MappedDependence.edge id dependences)
      = SortedMap.erase MappedDependence.edge id (ids.foldl (fun dependences id ↦
          SortedMap.erase MappedDependence.edge id dependences) dependences) := by
  induction ids generalizing dependences with
  | nil => rfl
  | cons head ids ih => rw [List.foldl_cons, List.foldl_cons, SortedMap.erase_comm, ih]

/-- An edge is realized once, for itself. -/
theorem Realizes.dependences_eq {p q : PartialMapping} {edge : TargetEdge}
    {reservation : Option ReservationDelta} (h : Realizes ctx p edge reservation q) :
    ∃ dependence : MappedDependence, dependence.edge = edge.id ∧
      q.dependences = SortedMap.emplace MappedDependence.edge dependence p.dependences := by
  rcases h with _ | _
  · exact ⟨_, rfl, rfl⟩
  · exact ⟨_, rfl, rfl⟩

theorem Realizes.placements_eq {p q : PartialMapping} {edge : TargetEdge}
    {reservation : Option ReservationDelta} (h : Realizes ctx p edge reservation q) :
    q.placements = p.placements := by
  rcases h with _ | _
  · rfl
  · rfl

theorem Realizes.undo {p q : PartialMapping} {edge : TargetEdge}
    {reservation : Option ReservationDelta} (h : Realizes ctx p edge reservation q) :
    reservation.toList.reverse.foldlM ModuloMapper.undo q.reservations = .ok p.reservations := by
  rcases h with _ | ⟨_, _, _, _, _, _, _, htry⟩
  · rfl
  · exact Scan.bind_eq_ok.mpr ⟨_, undo_of_tryReserve htry, rfl⟩

theorem RealizesAll.placements_eq {ids : List TargetEdgeId} {p q : PartialMapping}
    {reservations : List ReservationDelta} (h : RealizesAll ctx ids p reservations q) :
    q.placements = p.placements := by
  induction h with
  | nil => rfl
  | cons _ hone _ ih => exact ih.trans hone.placements_eq

/-- Erasing the edges that were realized gives back the dependences there were before. -/
theorem RealizesAll.erase {ids : List TargetEdgeId} {p q : PartialMapping}
    {reservations : List ReservationDelta} (h : RealizesAll ctx ids p reservations q)
    (hnodup : ids.Nodup) (hfresh : ∀ id ∈ ids, p.hasDependence id = false) :
    ids.foldl (fun dependences id ↦ SortedMap.erase MappedDependence.edge id dependences)
      q.dependences = p.dependences := by
  induction h with
  | nil => rfl
  | @cons id ids edge p q r _ _ hedge hone _ ih =>
    rw [List.nodup_cons] at hnodup
    rw [List.forall_mem_cons] at hfresh
    obtain rfl := TargetDFG.findEdge_id hedge
    obtain ⟨dependence, hid, hdependences⟩ := hone.dependences_eq
    have hkey : SortedMap.contains MappedDependence.edge dependence.edge p.dependences = false := by
      rw [hid]
      exact hfresh.1
    have hlater : ∀ id ∈ ids, q.hasDependence id = false := by
      intro id hmem
      rw [PartialMapping.hasDependence, hdependences, SortedMap.contains_eq_false_iff]
      intro d hd
      rcases (SortedMap.mem_emplace hkey).mp hd with rfl | hd
      · rw [hid]
        rintro rfl
        exact hnodup.1 hmem
      · exact SortedMap.contains_eq_false_iff.mp (hfresh.2 id hmem) d hd
    rw [List.foldl_cons, foldl_erase_comm, ih hnodup.2 hlater, hdependences, ← hid,
      SortedMap.erase_emplace hkey]

/-- Undoing the reservations of the edges, the latest first, gives back the table. -/
theorem RealizesAll.undo {ids : List TargetEdgeId} {p q : PartialMapping}
    {reservations : List ReservationDelta} (h : RealizesAll ctx ids p reservations q) :
    reservations.reverse.foldlM ModuloMapper.undo q.reservations = .ok p.reservations := by
  induction h with
  | nil => rfl
  | cons _ hone _ ih =>
    rw [List.reverse_append, List.foldlM_append]
    exact Scan.bind_eq_ok.mpr ⟨_, ih, hone.undo⟩

theorem footprint_ne_nil {node : TargetNode} {tile : TileCoord} {slot : ℕ}
    {footprint : List ResourceId}
    (h : ctx.resources.operationFootprint node tile slot = .ok footprint) : footprint ≠ [] := by
  rcases hop : ctx.resources.target.findOperation node.operation with _ | operation
  · rw [ModuloResourceModel.operationFootprint, hop] at h
    cases h
  · obtain ⟨-, hpos, -, hlength, -⟩ := ModuloResourceModel.operationFootprint_spec hop h
    rintro rfl
    rw [List.length_nil] at hlength
    omega

/-- **A candidate can be taken back.** Whatever part of it was done, rolling back its delta gives
the partial mapping it was tried in. -/
theorem rollback_eq {node : TargetNodeId} {tile : TileCoord} {slot : ℕ}
    {footprint : List ResourceId} {p placed : PartialMapping} {ids : List TargetEdgeId}
    {reservations : List ReservationDelta} (hnode : p.hasPlacement node = false)
    (hplaces : Places ctx p node tile slot footprint placed)
    (hall : RealizesAll ctx ids placed reservations s.toPartialMapping) (hnodup : ids.Nodup)
    (hfresh : ∀ id ∈ ids, placed.hasDependence id = false) :
    rollback ⟨node, ⟨⟨.node, node⟩, footprint⟩, ids, reservations⟩ s
      = .ok { s with toPartialMapping := p } := by
  rcases hplaces with ⟨_, hfootprint, htry⟩
  have hempty : footprint.isEmpty = false := by
    rw [List.isEmpty_eq_false_iff]
    exact footprint_ne_nil hfootprint
  have hdependences := hall.erase hnodup hfresh
  have hundo := hall.undo
  have hplacements : SortedMap.erase NodePlacement.node node s.placements = p.placements := by
    rw [hall.placements_eq]
    exact @SortedMap.erase_emplace _ _ _ NodePlacement.node ⟨node, tile, slot⟩ _ hnode
  rw [rollback]
  refine Scan.bind_eq_ok.mpr ⟨_, hundo, ?_⟩
  simp only [hempty, Bool.false_eq_true, if_false, hdependences, hplacements]
  exact Scan.bind_eq_ok.mpr ⟨_, undo_of_tryReserve htry, rfl⟩

/-! ## One candidate -/

theorem nodup_closedEdges (hids : (ctx.dfg.edges.map TargetEdge.id).Nodup) (p : PartialMapping)
    (node : TargetNodeId) : (closedEdges ctx p node).Nodup := by
  rw [closedEdges, (List.perm_insertionSort _ _).nodup_iff]
  exact hids.sublist ((List.filter_sublist.trans List.filter_sublist).map TargetEdge.id)

theorem mem_closedEdges {p : PartialMapping} {node : TargetNodeId} {id : TargetEdgeId} :
    id ∈ closedEdges ctx p node ↔ ∃ edge ∈ ctx.dfg.edges, edge.id = id ∧
      (edge.src = node ∨ edge.dst = node) ∧ p.hasPlacement edge.src = true ∧
      p.hasPlacement edge.dst = true ∧ p.hasDependence edge.id = false := by
  simp only [closedEdges, edgesAt, List.mem_insertionSort, List.mem_map, List.mem_filter,
    Bool.or_eq_true, Bool.and_eq_true, beq_iff_eq, Bool.not_eq_true']
  constructor
  · rintro ⟨edge, ⟨⟨hmem, hend⟩, ⟨hsrc, hdst⟩, hfresh⟩, rfl⟩
    exact ⟨edge, hmem, rfl, hend, hsrc, hdst, hfresh⟩
  · rintro ⟨edge, hmem, rfl, hend, hsrc, hdst, hfresh⟩
    exact ⟨edge, ⟨⟨hmem, hend⟩, ⟨hsrc, hdst⟩, hfresh⟩, rfl⟩

/-- What a search or a candidate leaves behind: its counters are within the limits, and unless it
succeeds the partial mapping is what it was. -/
structure Leaves (limits : SearchLimits) (s : MappingSearchState) (outcome : SearchOutcome)
    (s' : MappingSearchState) : Prop where
  spends : Spends limits s.stats s'.stats
  restored : outcome ≠ .success → s'.toPartialMapping = s.toPartialMapping
  notAborted : outcome ≠ .postMappingAbort

theorem Leaves.of_eq {limits : SearchLimits} (hstats : s'.stats = s.stats)
    (hp : s'.toPartialMapping = s.toPartialMapping) (h : outcome ≠ .postMappingAbort) :
    Leaves limits s outcome s' :=
  ⟨hstats ▸ .refl _ _, fun _ ↦ hp, h⟩

/-- A candidate has been tried in `s` and taken back. -/
def TakenBack (limits : SearchLimits) (s s' : MappingSearchState) : Prop :=
  Spends limits s.stats s'.stats ∧ s'.toPartialMapping = s.toPartialMapping

section Attempt

variable {search : MappingSearchState → Except String (SearchOutcome × MappingSearchState)}
  {node : TargetNodeId} {candidate : Candidate}

/-- A candidate can be taken back whichever of its edges are realized. -/
theorem rollback_candidate (hids : (ctx.dfg.edges.map TargetEdge.id).Nodup)
    {tile : TileCoord} {slot : ℕ} {footprint : List ResourceId} {placed : PartialMapping}
    {before after : List TargetEdgeId} {reservations : List ReservationDelta}
    {t : MappingSearchState} (hnode : s.hasPlacement node = false)
    (hplaces : Places ctx s.toPartialMapping node tile slot footprint placed)
    (hclosed : closedEdges ctx placed node = before ++ after)
    (hall : RealizesAll ctx before placed reservations t.toPartialMapping) :
    rollback ⟨node, ⟨⟨.node, node⟩, footprint⟩, before, reservations⟩ t
      = .ok { t with toPartialMapping := s.toPartialMapping } := by
  have hnodup : (before ++ after).Nodup := hclosed ▸ nodup_closedEdges hids placed node
  have hfresh : ∀ id ∈ before, placed.hasDependence id = false := by
    intro id hid
    have hmem : id ∈ closedEdges ctx placed node := by
      rw [hclosed]
      exact List.mem_append_left after hid
    obtain ⟨edge, -, rfl, -, -, -, hnot⟩ := mem_closedEdges.mp hmem
    exact hnot
  exact rollback_eq hnode hplaces hall hnodup.of_append_left hfresh

/-- A candidate whose rollback is due is taken back. -/
theorem takenBack_of_rollback (hids : (ctx.dfg.edges.map TargetEdge.id).Nodup)
    {tile : TileCoord} {slot : ℕ} {footprint : List ResourceId} {placed : PartialMapping}
    {before after : List TargetEdgeId} {reservations : List ReservationDelta}
    {t : MappingSearchState} (hnode : s.hasPlacement node = false)
    (hplaces : Places ctx s.toPartialMapping node tile slot footprint placed)
    (hclosed : closedEdges ctx placed node = before ++ after)
    (hall : RealizesAll ctx before placed reservations t.toPartialMapping)
    (h : rollback ⟨node, ⟨⟨.node, node⟩, footprint⟩, before, reservations⟩ t = .ok s') :
    s' = { t with toPartialMapping := s.toPartialMapping } := by
  rw [rollback_candidate hids hnode hplaces hclosed hall, Except.ok.injEq] at h
  exact h.symm

/-- After the search below a candidate: its success is passed on, otherwise the candidate is taken
back and the loop goes on only when everything below was exhausted. -/
theorem backtrack_cases {child : SearchOutcome} {u : MappingSearchState} {p : PartialMapping}
    {progress : Progress}
    (hrolled : child ≠ .success → ∀ v, rollback delta u = .ok v →
      v = { u with toPartialMapping := p })
    (hchild : child ≠ .postMappingAbort)
    (h : backtrack ctx limits node delta child u = .ok progress) :
    (child = .success ∧ progress = .done .success u) ∨
      ∃ v, ((child = .exhausted ∧ progress = .next v) ∨ ∃ outcome, progress = .done outcome v ∧
          outcome ≠ .success ∧ outcome ≠ .exhausted ∧ outcome ≠ .postMappingAbort) ∧
        v.toPartialMapping = p ∧ Spends limits u.stats v.stats := by
  rw [backtrack] at h
  split at h
  · rename_i hsuccess
    exact .inl ⟨hsuccess, (Except.ok.inj h).symm⟩
  · rename_i hfailed
    right
    split at h
    · cases h
    · rename_i v hroll
      obtain rfl := hrolled hfailed v hroll
      split at h
      · rename_i hne
        obtain rfl := Except.ok.inj h
        exact ⟨_, .inr ⟨child, rfl, hfailed, hne, hchild⟩, rfl, .refl _ _⟩
      · rename_i hexhausted
        rw [not_not] at hexhausted
        split at h
        · obtain rfl := Except.ok.inj h
          exact ⟨_, .inr ⟨_, rfl, nofun, nofun, nofun⟩, rfl, .refl _ _⟩
        · rename_i hbacktracks
          obtain rfl := Except.ok.inj h
          exact ⟨_, .inl ⟨hexhausted, rfl⟩, rfl, .refl _ _, .succ hbacktracks, .refl _ _⟩

/-- One candidate: what it leaves behind, and why the loop goes on or ends. -/
theorem attempt_cases (hids : (ctx.dfg.edges.map TargetEdge.id).Nodup)
    (hsearch : ∀ {t o t'}, search t = .ok (o, t') → Leaves limits t o t')
    (hnode : s.hasPlacement node = false) {progress : Progress}
    (h : attempt ctx limits search node candidate s = .ok progress) :
    (∃ s', progress = .next s' ∧ TakenBack limits s s' ∧
        (Blocked ctx s.toPartialMapping node candidate.tile candidate.slot ∨ ∃ t t',
          Extends ctx s.toPartialMapping node candidate.tile candidate.slot t.toPartialMapping ∧
          search t = .ok (.exhausted, t'))) ∨
      ∃ outcome s', progress = .done outcome s' ∧ Leaves limits s outcome s' ∧
        outcome ≠ .exhausted ∧ (outcome = .success → ∃ t,
          Extends ctx s.toPartialMapping node candidate.tile candidate.slot t.toPartialMapping ∧
          search t = .ok (.success, s')) := by
  rw [attempt] at h
  split at h
  · obtain rfl := Except.ok.inj h
    exact .inr ⟨_, _, rfl, .of_eq rfl rfl nofun, nofun, nofun⟩
  · rename_i hattempts
    have hspends : Spends limits s.stats
        { s.stats with nodeCandidateAttempts := s.stats.nodeCandidateAttempts + 1 } :=
      ⟨.succ hattempts, .refl _ _, .refl _ _⟩
    simp only at h
    split at h
    · cases h
    · -- the candidate stands: search below it
      rename_i delta t htry
      obtain ⟨hspends', hcases⟩ := tryCandidate_cases htry
      rcases hcases with ⟨ho, -⟩ | ⟨footprint, placed, before, after, reservations, hplaces,
        hclosed, hall, rfl, ⟨-, rfl⟩ | ⟨hstops, -⟩⟩
      · cases ho
      · have hextends : Extends ctx s.toPartialMapping node candidate.tile candidate.slot
            t.toPartialMapping := by
          refine ⟨footprint, placed, reservations, hplaces, ?_⟩
          rw [hclosed, List.append_nil]
          exact hall
        split at h
        · cases h
        · rename_i child u hchild
          have hleaves := hsearch hchild
          have hspent := (hspends.trans hspends').trans hleaves.spends
          have hrolled : child ≠ .success → ∀ v,
              rollback ⟨node, ⟨⟨.node, node⟩, footprint⟩, before, reservations⟩ u = .ok v →
                v = { u with toPartialMapping := s.toPartialMapping } := by
            intro hfailed v hroll
            rw [← hleaves.restored hfailed] at hall
            exact takenBack_of_rollback hids hnode hplaces hclosed hall hroll
          rcases backtrack_cases hrolled hleaves.notAborted h with ⟨rfl, rfl⟩ |
            ⟨v, ⟨rfl, rfl⟩ | ⟨outcome, rfl, hsuccess, hexhausted, habort⟩, hv, hspends''⟩
          · exact .inr ⟨_, _, rfl, ⟨hspent, fun hne ↦ absurd rfl hne, nofun⟩, nofun,
              fun _ ↦ ⟨t, hextends, hchild⟩⟩
          · exact .inl ⟨v, rfl, ⟨hspent.trans hspends'', hv⟩, .inr ⟨t, u, hextends, hchild⟩⟩
          · exact .inr ⟨_, _, rfl, ⟨hspent.trans hspends'', fun _ ↦ hv, habort⟩, hexhausted,
              fun ho ↦ absurd ho hsuccess⟩
      · exact absurd rfl hstops.ne_success
    · -- the candidate is blocked
      rename_i delta t htry
      obtain ⟨hspends', hcases⟩ := tryCandidate_cases htry
      rcases hcases with ⟨-, rfl, hp, hblocked⟩ | ⟨footprint, placed, before, after, reservations,
        hplaces, hclosed, hall, rfl, ⟨ho, -⟩ | ⟨-, hblocked⟩⟩
      · have hempty : ({} : CandidateDelta).nodeReservation.resources.isEmpty = true := rfl
        rw [if_pos hempty, Except.ok.injEq] at h
        exact .inl ⟨_, h.symm, ⟨hspends.trans hspends', hp⟩, .inl hblocked⟩
      · cases ho
      · split at h
        · rename_i hempty
          rcases hplaces with ⟨_, hfootprint, _⟩
          exact absurd (List.isEmpty_iff.mp hempty) (footprint_ne_nil hfootprint)
        · obtain ⟨v, hroll, rfl⟩ := Scan.map_eq_ok.mp h
          obtain rfl := takenBack_of_rollback hids hnode hplaces hclosed hall hroll
          exact .inl ⟨_, rfl, ⟨hspends.trans hspends', rfl⟩, .inl (hblocked rfl)⟩
    · -- the candidate ends the search
      rename_i hsuccess hexhausted htry
      obtain ⟨hspends', hcases⟩ := tryCandidate_cases htry
      rcases hcases with ⟨rfl, -⟩ | ⟨footprint, placed, before, after, reservations,
        hplaces, hclosed, hall, rfl, hend⟩
      · exact (hexhausted rfl).elim
      · obtain ⟨v, hroll, rfl⟩ := Scan.map_eq_ok.mp h
        obtain rfl := takenBack_of_rollback hids hnode hplaces hclosed hall hroll
        refine .inr ⟨_, _, rfl, ⟨hspends.trans hspends', fun _ ↦ rfl, ?_⟩, hexhausted,
          fun ho ↦ (hsuccess ho).elim⟩
        rintro rfl
        rcases hend with ⟨ho, -⟩ | ⟨ho | ho | ho | ho, -⟩
        all_goals cases ho

/-- The loop over the candidates: it is exhausted when each of them is blocked or the search below
it is exhausted. -/
theorem attempts_cases (hids : (ctx.dfg.edges.map TargetEdge.id).Nodup)
    (hsearch : ∀ {t o t'}, search t = .ok (o, t') → Leaves limits t o t')
    {nodeCandidates : List Candidate} (hnode : s.hasPlacement node = false)
    (h : attempts ctx limits search node nodeCandidates s = .ok (outcome, s')) :
    Leaves limits s outcome s' ∧
      (outcome = .exhausted → ∀ candidate ∈ nodeCandidates,
        Blocked ctx s.toPartialMapping node candidate.tile candidate.slot ∨ ∃ t t',
          Extends ctx s.toPartialMapping node candidate.tile candidate.slot t.toPartialMapping ∧
          search t = .ok (.exhausted, t')) ∧
      (outcome = .success → ∃ candidate ∈ nodeCandidates, ∃ t,
        Extends ctx s.toPartialMapping node candidate.tile candidate.slot t.toPartialMapping ∧
        search t = .ok (.success, s')) := by
  induction nodeCandidates generalizing s with
  | nil =>
    simp only [attempts, Except.ok.injEq, Prod.mk.injEq] at h
    obtain ⟨rfl, rfl⟩ := h
    exact ⟨.of_eq rfl rfl nofun, nofun, nofun⟩
  | cons candidate nodeCandidates ih =>
    rw [attempts] at h
    split at h
    · cases h
    · rename_i hone
      simp only [Except.ok.injEq, Prod.mk.injEq] at h
      obtain ⟨rfl, rfl⟩ := h
      rcases attempt_cases hids hsearch hnode hone with ⟨_, hprogress, -⟩ |
        ⟨_, _, hprogress, hleaves, hexhausted, hsuccess⟩
      · cases hprogress
      · obtain ⟨rfl, rfl⟩ := Progress.done.inj hprogress
        refine ⟨hleaves, fun ho ↦ absurd ho hexhausted, fun ho ↦ ?_⟩
        exact ⟨candidate, List.mem_cons_self, hsuccess ho⟩
    · rename_i u hone
      rcases attempt_cases hids hsearch hnode hone with ⟨_, hprogress, ⟨hspends, hu⟩, hlost⟩ |
        ⟨_, _, hprogress, -⟩
      · obtain rfl := Progress.next.inj hprogress
        rw [← hu] at hnode hlost
        obtain ⟨hleaves, hexhausted, hsuccess⟩ := ih hnode h
        refine ⟨⟨hspends.trans hleaves.spends, fun ho ↦ (hleaves.restored ho).trans hu,
          hleaves.notAborted⟩, fun ho ↦ ?_, fun ho ↦ ?_⟩
        · rw [← hu]
          exact List.forall_mem_cons.mpr ⟨hlost, hexhausted ho⟩
        · rw [← hu]
          obtain ⟨found, hmem, hfound⟩ := hsuccess ho
          exact ⟨found, List.mem_cons_of_mem _ hmem, hfound⟩
      · cases hprogress

end Attempt

/-! ## The search -/

/-- A checker has rejected the complete mapping. -/
def Rejected (ctx : Context) (p : PartialMapping) : Prop :=
  ∃ mapping completeMappingChecker history, materialize ctx p = .ok mapping ∧
    ModuloMappingVerifier.verify ctx.dfg ctx.target mapping = .ok [] ∧
    ctx.options.completeMappingChecker = some completeMappingChecker ∧
    (completeMappingChecker history ctx.dfg ctx.target mapping).decision = .reject

theorem checkComplete_cases {mapping : ModuloMapping}
    (h : checkComplete ctx mapping s = (outcome, s')) :
    s'.stats = s.stats ∧ s'.toPartialMapping = s.toPartialMapping ∧ outcome ≠ .postMappingAbort ∧
      (outcome = .exhausted → ∃ completeMappingChecker history,
        ctx.options.completeMappingChecker = some completeMappingChecker ∧
        (completeMappingChecker history ctx.dfg ctx.target mapping).decision = .reject) ∧
      (outcome = .success → s'.mapping = s.mapping) := by
  rw [checkComplete] at h
  split at h
  · simp only [Prod.mk.injEq] at h
    obtain ⟨rfl, rfl⟩ := h
    exact ⟨rfl, rfl, nofun, nofun, fun _ ↦ rfl⟩
  · rename_i completeMappingChecker hchecker
    simp only at h
    split at h
    · simp only [Prod.mk.injEq] at h
      obtain ⟨rfl, rfl⟩ := h
      exact ⟨rfl, rfl, nofun, nofun, fun _ ↦ rfl⟩
    · rename_i hdecision
      simp only [Prod.mk.injEq] at h
      obtain ⟨rfl, rfl⟩ := h
      exact ⟨rfl, rfl, nofun, fun _ ↦ ⟨_, s.checked, hchecker, hdecision⟩, nofun⟩
    · simp only [Prod.mk.injEq] at h
      obtain ⟨rfl, rfl⟩ := h
      refine ⟨rfl, rfl, ?_, ?_, ?_⟩
      all_goals
        rw [abortOutcome]
        split
        · nofun
        · split
          · nofun
          · nofun

/-- A complete mapping leaves the partial mapping alone. -/
theorem complete_cases (h : complete ctx s = .ok (outcome, s')) :
    s'.stats = s.stats ∧ s'.toPartialMapping = s.toPartialMapping ∧ outcome ≠ .postMappingAbort ∧
      (outcome = .exhausted → Rejected ctx s.toPartialMapping) ∧
      (outcome = .success → ∃ mapping, s'.mapping = some mapping ∧
        materialize ctx s.toPartialMapping = .ok mapping ∧
        ModuloMappingVerifier.verify ctx.dfg ctx.target mapping = .ok []) := by
  rw [complete] at h
  split at h
  · simp only [Except.ok.injEq, Prod.mk.injEq] at h
    obtain ⟨rfl, rfl⟩ := h
    exact ⟨rfl, rfl, nofun, nofun, nofun⟩
  · rename_i mapping hmapping
    simp only at h
    split at h
    · cases h
    · rename_i report hreport
      split at h
      · simp only [Except.ok.injEq, Prod.mk.injEq] at h
        obtain ⟨rfl, rfl⟩ := h
        split
        · exact ⟨rfl, rfl, nofun, nofun, nofun⟩
        · exact ⟨rfl, rfl, nofun, nofun, nofun⟩
      · rename_i hempty
        rw [Bool.not_eq_true, Bool.not_eq_false', List.isEmpty_iff] at hempty
        subst hempty
        obtain ⟨hstats, hp, habort, hreject, hsuccess⟩ := checkComplete_cases (Except.ok.inj h)
        refine ⟨hstats, hp, habort, fun ho ↦ ?_, fun ho ↦ ?_⟩
        · obtain ⟨completeMappingChecker, history, hchecker, hdecision⟩ := hreject ho
          exact ⟨mapping, completeMappingChecker, history, hmapping, hreport, hchecker, hdecision⟩
        · exact ⟨mapping, hsuccess ho, hmapping, hreport⟩

theorem better_cases {selected : Option Priority} {priority r : Priority}
    (h : better selected priority = some r) : r = priority ∨ selected = some r := by
  rcases selected with _ | best
  · exact .inl (Option.some.inj h).symm
  · rw [better.eq_def] at h
    simp only at h
    split at h
    · exact .inl (Option.some.inj h).symm
    · exact .inr h

/-- The node that is chosen is not placed yet. -/
theorem selectNode_spec {p : PartialMapping} {node : TargetNodeId}
    (h : selectNode ctx p = .ok node) :
    p.hasPlacement node = false ∧ ∃ targetNode ∈ ctx.dfg.nodes, targetNode.id = node := by
  rw [selectNode] at h
  split at h
  · cases h
  · rename_i selected hselected
    obtain rfl := Except.ok.inj h
    rcases Scan.mem_of_foldl_pick (fun _ _ _ ↦ better_cases) hselected with hmem | hnone
    · obtain ⟨targetNode, hunmapped, rfl⟩ := List.mem_map.mp hmem
      obtain ⟨htargetNode, hfree⟩ := List.mem_filter.mp hunmapped
      have hunplaced : p.hasPlacement targetNode.id = false := by simpa using hfree
      exact ⟨hunplaced, targetNode, htargetNode, rfl⟩
    · cases hnone

/-- **The search is transactional.** Its counters stay within the limits, and unless it succeeds the
placements, the dependences and the reservations are what they were. -/
theorem search_leaves (hids : (ctx.dfg.edges.map TargetEdge.id).Nodup) {fuel : ℕ}
    (h : search ctx limits fuel s = .ok (outcome, s')) : Leaves limits s outcome s' := by
  induction fuel generalizing s s' outcome with
  | zero => cases h
  | succ fuel ih =>
    rw [search] at h
    split at h
    · obtain ⟨hstats, hp, habort, -⟩ := complete_cases h
      exact .of_eq hstats hp habort
    · obtain ⟨node, hnode, hrest⟩ := Scan.bind_eq_ok.mp h
      obtain ⟨nodeCandidates, -, hrest⟩ := Scan.bind_eq_ok.mp hrest
      split at hrest
      · simp only [pure, Except.pure, Except.ok.injEq, Prod.mk.injEq] at hrest
        obtain ⟨rfl, rfl⟩ := hrest
        exact .of_eq rfl rfl nofun
      · exact (attempts_cases hids ih (selectNode_spec hnode).1 hrest).1

end ModuloMapper

end PredicatedMesh
