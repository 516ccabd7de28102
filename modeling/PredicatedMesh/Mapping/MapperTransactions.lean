import PredicatedMesh.Mapping.MapperAcceptance
import PredicatedMesh.Mapping.MapperExhaustion

/-!
# Every call of the search

`Calls` is the call graph of one search: the search calls itself below a candidate that stands, it
calls for the edges of a candidate one after the other, and it hands over a complete mapping. What
holds between calls is `Accounted`; what holds while the edges of a candidate are realized is
`Underway`, an accounted partial mapping with one more node and some of the edges this closes.

In these states nothing can go wrong that the mapper reports as its own fault: every search returns,
a route that was found can be reserved, and a complete mapping is accepted by the verifier.
-/

namespace PredicatedMesh

namespace ModuloMapper

/-! ## Calls -/

section Calls

variable (ctx : Context) (limits : SearchLimits)

/-- A call within the search for one interval. -/
inductive Call
  | search (fuel : ℕ) (s : MappingSearchState)
  | realizeEdges (ids : List TargetEdgeId) (delta : CandidateDelta) (s : MappingSearchState)
  | complete (s : MappingSearchState)

/-- The node that is placed next, and its candidates. -/
def Chooses (p : PartialMapping) (node : TargetNodeId) (nodeCandidates : List Candidate) : Prop :=
  allNodesMapped ctx p = false ∧ selectNode ctx p = .ok node ∧
    candidates ctx p node = .ok nodeCandidates

/-- A candidate comes up once those before it are taken back. -/
inductive ComesUp (search : MappingSearchState → Except String (SearchOutcome × MappingSearchState))
    (node : TargetNodeId) :
    List Candidate → MappingSearchState → Candidate → MappingSearchState → Prop
  | here {candidate : Candidate} {candidates : List Candidate} {s : MappingSearchState} :
      ComesUp search node (candidate :: candidates) s candidate s
  | later {candidate other : Candidate} {candidates : List Candidate}
      {s t u : MappingSearchState} :
      attempt ctx limits search node candidate s = .ok (.next t) →
      ComesUp search node candidates t other u →
        ComesUp search node (candidate :: candidates) s other u

/-- The state a candidate is tried in: the attempt is counted. -/
def MappingSearchState.counted (s : MappingSearchState) : MappingSearchState :=
  { s with stats := { s.stats with nodeCandidateAttempts := s.stats.nodeCandidateAttempts + 1 } }

/-- A call calls another. -/
inductive Calls : Call → Call → Prop
  | complete {fuel : ℕ} {s : MappingSearchState} :
      allNodesMapped ctx s.toPartialMapping = true →
        Calls (.search (fuel + 1) s) (.complete s)
  | candidate {fuel : ℕ} {s t : MappingSearchState} {node : TargetNodeId}
      {nodeCandidates : List Candidate} {candidate : Candidate} {targetNode : TargetNode}
      {footprint : List ResourceId} {reservation : ReservationDelta}
      {later : ResourceReservationTable} :
      Chooses ctx s.toPartialMapping node nodeCandidates →
      ComesUp ctx limits (search ctx limits fuel) node nodeCandidates s candidate t →
      t.stats.nodeCandidateAttempts < limits.nodeCandidateAttempts →
      ctx.dfg.findNode node = some targetNode →
      ctx.resources.operationFootprint targetNode candidate.tile candidate.slot = .ok footprint →
      t.reservations.tryReserve footprint ⟨.node, node⟩ = (some reservation, later) →
        Calls (.search (fuel + 1) s) (.realizeEdges
          (closedEdges ctx (t.place ⟨node, candidate.tile, candidate.slot⟩ later) node)
          { node := node, nodeReservation := reservation }
          { t.counted with
              toPartialMapping := t.place ⟨node, candidate.tile, candidate.slot⟩ later })
  | edge {id : TargetEdgeId} {ids : List TargetEdgeId} {delta delta' : CandidateDelta}
      {s s' : MappingSearchState} :
      realizeEdge ctx limits delta s id = .ok (.success, delta', s') →
        Calls (.realizeEdges (id :: ids) delta s) (.realizeEdges ids delta' s')
  | search {fuel : ℕ} {s t u : MappingSearchState} {node : TargetNodeId}
      {nodeCandidates : List Candidate} {candidate : Candidate} {delta : CandidateDelta} :
      Chooses ctx s.toPartialMapping node nodeCandidates →
      ComesUp ctx limits (search ctx limits fuel) node nodeCandidates s candidate t →
      t.stats.nodeCandidateAttempts < limits.nodeCandidateAttempts →
      tryCandidate ctx limits node candidate {} t.counted = .ok (.success, delta, u) →
        Calls (.search (fuel + 1) s) (.search fuel u)

end Calls

variable {ctx : Context} {limits : SearchLimits}

/-! ## While the edges of a candidate are realized -/

/-- A node is placed in an accounted partial mapping, and these are the edges this closes that are
still to be realized. -/
inductive Underway (ctx : Context) (ids : List TargetEdgeId) (q : PartialMapping) : Prop
  | intro {p placed : PartialMapping} {node : TargetNodeId} {tile : TileCoord} {slot : ℕ}
      {footprint : List ResourceId} {before : List TargetEdgeId}
      {reservations : List ReservationDelta} :
      Accounted ctx p →
      p.hasPlacement node = false →
      Places ctx p node tile slot footprint placed →
      closedEdges ctx placed node = before ++ ids →
      RealizesAll ctx before placed reservations q →
        Underway ctx ids q

theorem RealizesAll.snoc {ids : List TargetEdgeId} {p q r : PartialMapping}
    {reservations : List ReservationDelta} {id : TargetEdgeId} {edge : TargetEdge}
    {reservation : Option ReservationDelta} (h : RealizesAll ctx ids p reservations q)
    (hedge : ctx.dfg.findEdge id = some edge) (hone : Realizes ctx q edge reservation r) :
    ∃ reservations, RealizesAll ctx (ids ++ [id]) p reservations r := by
  induction h with
  | nil => exact ⟨_, .cons hedge hone (.nil _)⟩
  | cons hfirst hstep _ ih =>
    obtain ⟨reservations, hrest⟩ := ih hone
    exact ⟨_, .cons hfirst hstep hrest⟩

namespace Underway

variable {q r : PartialMapping} {id : TargetEdgeId} {ids : List TargetEdgeId}

theorem consistent (h : Underway ctx ids q) (hchecked : ctx.Checked) : Consistent ctx q := by
  obtain ⟨hp, hnode, hplaces, hclosed, hall⟩ := h
  exact (hp.within hchecked.graph.nodup_edges hchecked.ii_ne hnode hplaces hclosed hall).1

/-- The next edge is an edge of the graph, and its ends are placed. -/
theorem due (h : Underway ctx (id :: ids) q) (hchecked : ctx.Checked) :
    ∃ edge producer consumer, ctx.dfg.findEdge id = some edge ∧
      q.placement edge.src = some producer ∧ q.placement edge.dst = some consumer := by
  obtain ⟨hp, hnode, hplaces, hclosed, hall⟩ := h
  rename_i placed node tile slot footprint before reservations
  have hmem : id ∈ closedEdges ctx placed node := by
    rw [hclosed]
    exact List.mem_append_right _ List.mem_cons_self
  obtain ⟨edge, hedge, hid, -⟩ := mem_closedEdges.mp hmem
  have hfind : ctx.dfg.findEdge id = some edge := by
    rw [← hid]
    exact Scan.find?_eq_some_of_nodup hchecked.graph.nodup_edges hedge
  have hdue := Accounted.due_of_closedEdges hchecked.graph.nodup_edges hmem
  have hplaced : ∀ other, placed.hasPlacement other = true →
      ∃ placement, q.placement other = some placement := by
    intro other hother
    rw [PartialMapping.placement, hall.placements_eq]
    exact Option.isSome_iff_exists.mp (SortedMap.isSome_lookup_iff.mpr hother)
  obtain ⟨producer, hproducer⟩ := hplaced _ (hdue.src edge hfind)
  obtain ⟨consumer, hconsumer⟩ := hplaced _ (hdue.dst edge hfind)
  exact ⟨edge, producer, consumer, hfind, hproducer, hconsumer⟩

/-- Realizing the next edge. -/
theorem next (h : Underway ctx (id :: ids) q) {edge : TargetEdge}
    {reservation : Option ReservationDelta} (hedge : ctx.dfg.findEdge id = some edge)
    (hone : Realizes ctx q edge reservation r) : Underway ctx ids r := by
  obtain ⟨hp, hnode, hplaces, hclosed, hall⟩ := h
  obtain ⟨reservations, hall'⟩ := hall.snoc hedge hone
  rw [List.append_cons] at hclosed
  exact ⟨hp, hnode, hplaces, hclosed, hall'⟩

end Underway

/-! ## Nothing fails -/

/-- No new report says that a mapping was refused by the verifier. -/
def Quiet (s s' : MappingSearchState) : Prop :=
  ∀ d ∈ s'.diagnostics, d ∈ s.diagnostics ∨ d.code ≠ .finalVerificationFailed

theorem Quiet.of_eq {s s' : MappingSearchState} (h : s'.diagnostics = s.diagnostics) :
    Quiet s s' := by
  intro d hd
  rw [h] at hd
  exact .inl hd

theorem Quiet.trans {s t u : MappingSearchState} (hst : Quiet s t) (htu : Quiet t u) :
    Quiet s u := by
  intro d hd
  rcases htu d hd with hd | hcode
  · exact hst d hd
  · exact .inr hcode

theorem Quiet.of_append {s s' : MappingSearchState} {diagnostic : ModuloMapperDiagnostic}
    (h : s'.diagnostics = s.diagnostics ++ [diagnostic])
    (hcode : diagnostic.code ≠ .finalVerificationFailed) : Quiet s s' := by
  intro d hd
  rw [h, List.mem_append, List.mem_singleton] at hd
  rcases hd with hd | rfl
  · exact .inl hd
  · exact .inr hcode

/-- A step of a candidate returns, and reports no refused mapping. -/
def Proceeds (s : MappingSearchState)
    (r : Except String (SearchOutcome × CandidateDelta × MappingSearchState)) : Prop :=
  ∃ outcome delta' s', r = .ok (outcome, delta', s') ∧ Quiet s s'

section Steps

variable {s : MappingSearchState} {delta : CandidateDelta} {id : TargetEdgeId}
  {ids : List TargetEdgeId}

theorem routeEdge_proceeds (hchecked : ctx.Checked) (h : Consistent ctx s.toPartialMapping)
    {edge : TargetEdge} (hedge : ctx.dfg.findEdge edge.id = some edge)
    {producer consumer : NodePlacement} :
    Proceeds s (routeEdge ctx limits edge producer consumer delta s) := by
  rw [routeEdge]
  split
  · exact ⟨_, _, _, rfl, .of_append rfl ModuloMapperDiagnosticCode.noConfusion⟩
  · obtain ⟨route, hroute, -⟩ := @ModuloRouteSearch.search_returns ctx.dfg ctx.target ctx.resources
      ⟨edge.id, producer, consumer⟩ s.reservations ctx.routeOptions hchecked.ii_ne rfl h.size
    simp only [hroute, settleRoute]
    split
    · exact ⟨_, _, _, rfl, .of_append rfl ModuloMapperDiagnosticCode.noConfusion⟩
    · exact ⟨_, _, _, rfl, .of_append rfl ModuloMapperDiagnosticCode.noConfusion⟩
    · exact ⟨_, _, _, rfl, .of_append rfl ModuloMapperDiagnosticCode.noConfusion⟩
    · -- a route was found, and it can be reserved
      rename_i plan hstatus hplan
      obtain ⟨plan', links, later, hplan', hlinks, htry⟩ :=
        h.reserves hchecked.ii_ne hedge hroute hstatus
      obtain rfl := Option.some.inj (hplan.symm.trans hplan')
      simp only [reserveRoute, hlinks, htry]
      exact ⟨_, _, _, rfl, .of_eq rfl⟩
    · exact ⟨_, _, _, rfl, .of_append rfl ModuloMapperDiagnosticCode.noConfusion⟩

theorem realizeEdge_proceeds (hchecked : ctx.Checked)
    (h : Underway ctx (id :: ids) s.toPartialMapping) :
    Proceeds s (realizeEdge ctx limits delta s id) := by
  obtain ⟨edge, producer, consumer, hedge, hproducer, hconsumer⟩ := h.due hchecked
  have hfind : ctx.dfg.findEdge edge.id = some edge := by
    rw [TargetDFG.findEdge_id hedge]
    exact hedge
  have hroute : Proceeds s (routeEdge ctx limits edge producer consumer delta s) :=
    routeEdge_proceeds hchecked (h.consistent hchecked) hfind
  rw [realizeEdge, edgeAt_eq_ok.mpr hedge]
  simp only [bind, Except.bind, placementAt_eq_ok.mpr hproducer, placementAt_eq_ok.mpr hconsumer]
  split
  · exact ⟨_, _, _, rfl, .of_eq rfl⟩
  · exact hroute

theorem realizeEdges_proceeds (hchecked : ctx.Checked) (h : Underway ctx ids s.toPartialMapping) :
    Proceeds s (realizeEdges ctx limits ids delta s) := by
  induction ids generalizing s delta with
  | nil => exact ⟨_, _, _, rfl, .of_eq rfl⟩
  | cons id ids ih =>
    obtain ⟨outcome, delta', s', hone, hquiet⟩ :=
      @realizeEdge_proceeds ctx limits s delta id ids hchecked h
    rw [realizeEdges, hone]
    by_cases hsuccess : outcome = .success
    · subst hsuccess
      obtain ⟨-, edge, hedge, hcases⟩ := realizeEdge_cases hone
      rcases hcases with ⟨-, reservation, hrealizes, -⟩ | ⟨hstops, -⟩
      · obtain ⟨outcome', delta'', s'', hrest, hquiet'⟩ :=
          @ih s' delta' (h.next hedge hrealizes)
        exact ⟨outcome', delta'', s'', hrest, hquiet.trans hquiet'⟩
      · exact absurd rfl hstops.ne_success
    · refine ⟨outcome, delta', s', ?_, hquiet⟩
      simp only

/-- A candidate returns. -/
theorem tryCandidate_proceeds (hchecked : ctx.Checked) (h : Accounted ctx s.toPartialMapping)
    {node : TargetNodeId} {targetNode : TargetNode}
    (hfound : ctx.dfg.findNode node = some targetNode)
    (hnode : s.hasPlacement node = false) {candidate : Candidate} :
    Proceeds s (tryCandidate ctx limits node candidate {} s) := by
  rw [tryCandidate, nodeAt_eq_ok.mpr hfound]
  simp only [bind, Except.bind]
  split
  · exact ⟨_, _, _, rfl, .of_eq rfl⟩
  · rename_i footprint hfootprint
    split
    · exact ⟨_, _, _, rfl, .of_append rfl ModuloMapperDiagnosticCode.noConfusion⟩
    · rename_i reservation later htry
      obtain ⟨rfl, -⟩ := ResourceReservationTable.tryReserve_eq_some_iff.mp htry
      have hplaces := Places.place hfound hfootprint htry
      have hunderway : Underway ctx
          (closedEdges ctx (s.place ⟨node, candidate.tile, candidate.slot⟩ later) node)
          (s.place ⟨node, candidate.tile, candidate.slot⟩ later) :=
        ⟨h, hnode, hplaces, rfl, .nil _⟩
      obtain ⟨outcome, delta', s', hrest, hquiet⟩ := @realizeEdges_proceeds ctx limits
        { s with toPartialMapping := s.place ⟨node, candidate.tile, candidate.slot⟩ later }
        _ _ hchecked hunderway
      exact ⟨outcome, delta', s', hrest, hquiet⟩

end Steps

theorem Consistent.length_placements_le {p : PartialMapping} (h : Consistent ctx p) :
    p.placements.length ≤ ctx.dfg.nodes.length := by
  have hlength := (List.subperm_of_subset h.placements.nodup h.placements_subset).length_le
  rwa [List.length_map, List.length_map] at hlength

/-- A state between two candidates at some depth: it is accounted for, and the fuel is enough to
place the other nodes. -/
structure Between (ctx : Context) (fuel : ℕ) (p : PartialMapping) : Prop extends
    Accounted ctx p where
  depth : fuel + p.placements.length = ctx.dfg.nodes.length + 1

namespace Between

variable {fuel : ℕ} {p q : PartialMapping}

/-- Below a candidate that stands. -/
theorem extend (h : Between ctx (fuel + 1) p) (hchecked : ctx.Checked) {node : TargetNodeId}
    {tile : TileCoord} {slot : ℕ} (hnode : p.hasPlacement node = false)
    (hextends : Extends ctx p node tile slot q) : Between ctx fuel q := by
  obtain ⟨haccounted, hlength⟩ :=
    h.toAccounted.extend hchecked.graph.nodup_edges hchecked.ii_ne hnode hextends
  have hdepth := h.depth
  exact ⟨haccounted, by omega⟩

end Between

/-! ## Choosing does not fail -/

section Choosing

variable {p : PartialMapping}

theorem better_ne_none (selected : Option Priority) (priority : Priority) :
    better selected priority ≠ none := by
  rw [better.eq_def]
  split
  · exact Option.some_ne_none _
  · split
    · exact Option.some_ne_none _
    · exact Option.some_ne_none _

/-- A node is left while not all of them are placed. -/
theorem exists_selectNode (hchecked : ctx.Checked) (h : Consistent ctx p)
    (hmapped : allNodesMapped ctx p = false) : ∃ node, selectNode ctx p = .ok node := by
  have hleft : ∃ node ∈ ctx.dfg.nodes, p.hasPlacement node.id = false := by
    by_contra hall
    push Not at hall
    have hsubset : ctx.dfg.nodes.map TargetNode.id ⊆ p.placements.map NodePlacement.node := by
      intro id hid
      obtain ⟨node, hnode, rfl⟩ := List.mem_map.mp hid
      exact List.mem_map.mpr
        (SortedMap.contains_iff.mp ((Bool.not_eq_false _).mp (hall node hnode)))
    have hle := (List.subperm_of_subset hchecked.graph.nodup_nodes hsubset).length_le
    rw [List.length_map, List.length_map] at hle
    rw [allNodesMapped, le_antisymm h.length_placements_le hle, beq_self_eq_true] at hmapped
    cases hmapped
  rw [selectNode]
  split
  · rename_i hnone
    obtain ⟨node, hnode, hfree⟩ := hleft
    have hempty := Scan.eq_nil_of_foldl_pick better_ne_none hnone
    rw [List.map_eq_nil_iff, List.filter_eq_nil_iff] at hempty
    exact absurd (by rw [hfree]; rfl) (hempty node hnode)
  · exact ⟨_, rfl⟩

theorem exists_scoreEdge (hchecked : ctx.Checked) {node : TargetNodeId} {edge : TargetEdge}
    (hedge : edge ∈ ctx.dfg.edges) (candidate : Candidate) :
    ∃ scored, scoreEdge ctx p node candidate edge = .ok scored := by
  obtain ⟨src, -, hsrc, -⟩ := hchecked.graph.endpoints edge hedge
  rw [scoreEdge]
  split
  · exact ⟨_, rfl⟩
  · simp only [nodeAt_eq_ok.mpr hsrc]
    split
    · split
      · exact ⟨_, rfl⟩
      · split
        all_goals
          split
          · exact ⟨_, rfl⟩
          · exact ⟨_, rfl⟩
    · exact ⟨_, rfl⟩

theorem exists_candidates (hchecked : ctx.Checked) {node : TargetNodeId} {targetNode : TargetNode}
    (hnode : ctx.dfg.findNode node = some targetNode) :
    ∃ nodeCandidates, candidates ctx p node = .ok nodeCandidates := by
  have hscore : ∀ place ∈ places ctx targetNode.operation,
      ∃ candidate, score ctx p node place = .ok candidate := by
    intro place _
    apply Scan.exists_foldlM
    intro candidate edge hedge
    exact exists_scoreEdge hchecked (List.mem_of_mem_filter hedge) candidate
  obtain ⟨values, hvalues⟩ := Scan.exists_mapM hscore
  rw [candidates, nodeAt_eq_ok.mpr hnode]
  simp only [bind, Except.bind, hvalues]
  exact ⟨_, rfl⟩

end Choosing

/-! ## The search returns -/

/-- A search returns, and reports no refused mapping. -/
def Settles (s : MappingSearchState) (r : Except String (SearchOutcome × MappingSearchState)) :
    Prop :=
  ∃ outcome s', r = .ok (outcome, s') ∧ Quiet s s'

def Progress.state : Progress → MappingSearchState
  | .next s => s
  | .done _ s => s

/-- A complete mapping goes to the checker. -/
theorem complete_eq {s : MappingSearchState} (h : Whole ctx s.toPartialMapping) :
    complete ctx s = .ok (checkComplete ctx (s.toPartialMapping.toMapping ctx)
      { s with mapping := some (s.toPartialMapping.toMapping ctx) }) := by
  rw [complete, h.materialize_eq]
  simp only [h.verify_eq, List.isEmpty_nil, Bool.not_true, Bool.false_eq_true, if_false]

theorem quiet_checkComplete {mapping : ModuloMapping} {s : MappingSearchState} :
    Quiet s (checkComplete ctx mapping s).2 := by
  rw [checkComplete]
  split
  · exact .of_eq rfl
  · simp only
    split
    · exact .of_eq rfl
    · exact .of_append rfl ModuloMapperDiagnosticCode.noConfusion
    · exact .of_append rfl ModuloMapperDiagnosticCode.noConfusion

section Returns

variable {search : MappingSearchState → Except String (SearchOutcome × MappingSearchState)}
  {fuel : ℕ} {s : MappingSearchState} {node : TargetNodeId}

/-- What follows the search below a candidate returns, since the candidate can be taken back. -/
theorem backtrack_returns {delta : CandidateDelta} {child : SearchOutcome}
    {u v : MappingSearchState}
    (hrolled : child ≠ .success → rollback delta u = .ok v) (hquiet : Quiet u v) :
    ∃ progress, backtrack ctx limits node delta child u = .ok progress ∧
      Quiet u progress.state := by
  rw [backtrack]
  split
  · exact ⟨_, rfl, .of_eq rfl⟩
  · rename_i hfailed
    rw [hrolled hfailed]
    simp only
    split
    · exact ⟨_, rfl, hquiet⟩
    · split
      · exact ⟨_, rfl, hquiet.trans (.of_append rfl ModuloMapperDiagnosticCode.noConfusion)⟩
      · exact ⟨_, rfl, hquiet⟩

/-- **One candidate returns**, when the search below it does. -/
theorem attempt_returns (hchecked : ctx.Checked)
    (hleaves : ∀ {t o t'}, search t = .ok (o, t') → Leaves limits t o t')
    (hsearch : ∀ t : MappingSearchState, Between ctx fuel t.toPartialMapping →
      Settles t (search t))
    (h : Between ctx (fuel + 1) s.toPartialMapping) {targetNode : TargetNode}
    (hfound : ctx.dfg.findNode node = some targetNode) (hnode : s.hasPlacement node = false)
    {candidate : Candidate} :
    ∃ progress, attempt ctx limits search node candidate s = .ok progress ∧
      Quiet s progress.state := by
  have hids := hchecked.graph.nodup_edges
  rw [attempt]
  split
  · exact ⟨_, rfl, .of_append rfl ModuloMapperDiagnosticCode.noConfusion⟩
  · obtain ⟨outcome, delta, t, htry, hquiet⟩ := @tryCandidate_proceeds ctx limits s.counted hchecked
      h.toAccounted node targetNode hfound hnode candidate
    have hquiet : Quiet s t := hquiet
    have hcases := (tryCandidate_cases htry).2
    rw [MappingSearchState.counted] at htry
    simp only [htry]
    rcases hcases with ⟨rfl, rfl, -⟩ | ⟨footprint, placed, before, after, reservations, hplaces,
      hclosed, hall, rfl, hend⟩
    · exact ⟨_, rfl, hquiet⟩
    · have hrolled : rollback ⟨node, ⟨⟨.node, node⟩, footprint⟩, before, reservations⟩ t
          = .ok { t with toPartialMapping := s.toPartialMapping } :=
        rollback_candidate hids hnode hplaces hclosed hall
      rcases hend with ⟨rfl, rfl⟩ | ⟨hstops, -⟩
      · -- the candidate stands: search below it
        have hextends : Extends ctx s.toPartialMapping node candidate.tile candidate.slot
            t.toPartialMapping := by
          refine ⟨footprint, placed, reservations, hplaces, ?_⟩
          rw [hclosed, List.append_nil]
          exact hall
        obtain ⟨child, u, hchild, hbelow⟩ := hsearch t (h.extend hchecked hnode hextends)
        have hback : child ≠ .success →
            rollback ⟨node, ⟨⟨.node, node⟩, footprint⟩, before, reservations⟩ u
              = .ok { u with toPartialMapping := s.toPartialMapping } := by
          intro hfailed
          rw [← (hleaves hchild).restored hfailed] at hall
          exact rollback_candidate hids hnode hplaces hclosed hall
        obtain ⟨progress, hprogress, hlast⟩ :=
          @backtrack_returns ctx limits node _ child u _ hback (.of_eq rfl)
        simp only [hchild]
        exact ⟨progress, hprogress, (hquiet.trans hbelow).trans hlast⟩
      · rcases hstops with rfl | rfl | rfl | rfl
        · simp only
          split
          · exact ⟨_, rfl, hquiet⟩
          · rw [hrolled]
            exact ⟨_, rfl, hquiet⟩
        all_goals
          simp only [hrolled]
          exact ⟨_, rfl, hquiet⟩

theorem attempts_returns (hchecked : ctx.Checked)
    (hleaves : ∀ {t o t'}, search t = .ok (o, t') → Leaves limits t o t')
    (hsearch : ∀ t : MappingSearchState, Between ctx fuel t.toPartialMapping →
      Settles t (search t))
    (h : Between ctx (fuel + 1) s.toPartialMapping) {targetNode : TargetNode}
    (hfound : ctx.dfg.findNode node = some targetNode) (hnode : s.hasPlacement node = false)
    {nodeCandidates : List Candidate} :
    Settles s (attempts ctx limits search node nodeCandidates s) := by
  induction nodeCandidates generalizing s with
  | nil => exact ⟨_, _, rfl, .of_eq rfl⟩
  | cons candidate nodeCandidates ih =>
    obtain ⟨progress, hone, hquiet⟩ :=
      @attempt_returns ctx limits search fuel s node hchecked hleaves hsearch h _ hfound hnode
        candidate
    rw [attempts, hone]
    rcases progress with t | ⟨outcome, t⟩
    · rcases attempt_cases hchecked.graph.nodup_edges hleaves hnode hone with
        ⟨_, hprogress, ⟨-, ht⟩, -⟩ | ⟨_, _, hprogress, -⟩
      · obtain rfl := Progress.next.inj hprogress
        rw [← ht] at h hnode
        obtain ⟨outcome, s', hrest, hlater⟩ := @ih t h hnode
        exact ⟨outcome, s', hrest, hquiet.trans hlater⟩
      · cases hprogress
    · exact ⟨outcome, t, rfl, hquiet⟩

end Returns

/-- **Every search between two candidates returns.** -/
theorem search_settles (hchecked : ctx.Checked) {fuel : ℕ} {s : MappingSearchState}
    (h : Between ctx fuel s.toPartialMapping) : Settles s (search ctx limits fuel s) := by
  induction fuel generalizing s with
  | zero =>
    have hdepth := h.depth
    have hle := h.length_placements_le
    omega
  | succ fuel ih =>
    rw [search]
    split
    · rename_i hmapped
      rw [complete_eq ⟨h.toAccounted, hchecked, hmapped⟩]
      exact ⟨_, _, rfl, quiet_checkComplete⟩
    · rename_i hmapped
      rw [Bool.not_eq_true] at hmapped
      obtain ⟨node, hnode⟩ := exists_selectNode hchecked h.toConsistent hmapped
      obtain ⟨hfree, targetNode, htargetNode, hid⟩ := selectNode_spec hnode
      have hfound : ctx.dfg.findNode node = some targetNode := by
        rw [← hid]
        exact Scan.find?_eq_some_of_nodup hchecked.graph.nodup_nodes htargetNode
      obtain ⟨nodeCandidates, hcandidates⟩ :=
        @exists_candidates ctx s.toPartialMapping hchecked node targetNode hfound
      rw [hnode]
      simp only [bind, Except.bind, hcandidates]
      split
      · exact ⟨_, _, rfl, .of_append rfl ModuloMapperDiagnosticCode.noConfusion⟩
      · exact attempts_returns hchecked (search_leaves hchecked.graph.nodup_edges)
          (fun t ht ↦ ih ht) h hfound hfree

/-! ## Where a success comes from -/

section Success

variable {search : MappingSearchState → Except String (SearchOutcome × MappingSearchState)}
  {s u : MappingSearchState} {node : TargetNodeId}

/-- A candidate that succeeds stands, and the search below it has succeeded. -/
theorem attempt_success {candidate : Candidate}
    (h : attempt ctx limits search node candidate s = .ok (.done .success u)) :
    s.stats.nodeCandidateAttempts < limits.nodeCandidateAttempts ∧ ∃ delta t,
      tryCandidate ctx limits node candidate {} s.counted = .ok (.success, delta, t) ∧
      search t = .ok (.success, u) := by
  rw [attempt] at h
  split at h
  · cases Except.ok.inj h
  · rename_i hattempts
    refine ⟨not_le.mp hattempts, ?_⟩
    simp only at h
    split at h
    · cases h
    · rename_i delta t htry
      refine ⟨delta, t, htry, ?_⟩
      split at h
      · cases h
      · rename_i child u' hchild
        rw [backtrack] at h
        split at h
        · rename_i hsuccess
          obtain ⟨-, rfl⟩ := Progress.done.inj (Except.ok.inj h)
          rw [hchild, hsuccess]
        · rename_i hfailed
          split at h
          · cases h
          · split at h
            · exact absurd (Progress.done.inj (Except.ok.inj h)).1 hfailed
            · split at h
              · cases Except.ok.inj h
              · cases Except.ok.inj h
    · split at h
      · cases Except.ok.inj h
      · obtain ⟨_, -, hprogress⟩ := Scan.map_eq_ok.mp h
        cases hprogress
    · rename_i hsuccess _ _
      obtain ⟨_, -, hprogress⟩ := Scan.map_eq_ok.mp h
      exact (hsuccess (Progress.done.inj hprogress).1).elim

theorem attempts_success {nodeCandidates : List Candidate}
    (h : attempts ctx limits search node nodeCandidates s = .ok (.success, u)) :
    ∃ candidate t delta v, ComesUp ctx limits search node nodeCandidates s candidate t ∧
      t.stats.nodeCandidateAttempts < limits.nodeCandidateAttempts ∧
      tryCandidate ctx limits node candidate {} t.counted = .ok (.success, delta, v) ∧
      search v = .ok (.success, u) := by
  induction nodeCandidates generalizing s with
  | nil => cases h
  | cons candidate nodeCandidates ih =>
    rw [attempts] at h
    split at h
    · cases h
    · rename_i hone
      obtain ⟨rfl, rfl⟩ := Prod.mk.inj (Except.ok.inj h)
      obtain ⟨hattempts, delta, t, htry, hchild⟩ := attempt_success hone
      exact ⟨candidate, s, delta, t, .here, hattempts, htry, hchild⟩
    · rename_i hone
      obtain ⟨found, t, delta, v, hcomes, hrest⟩ := ih h
      exact ⟨found, t, delta, v, .later hone hcomes, hrest⟩

end Success

/-- A search that succeeds has handed a mapping over. -/
theorem exists_complete_call {fuel : ℕ} {s u : MappingSearchState}
    (h : search ctx limits fuel s = .ok (.success, u)) :
    ∃ t, Relation.ReflTransGen (Calls ctx limits) (.search fuel s) (.complete t) ∧
      complete ctx t = .ok (.success, u) := by
  induction fuel generalizing s with
  | zero => cases h
  | succ fuel ih =>
    have hsearch := h
    rw [search] at h
    split at h
    · rename_i hmapped
      exact ⟨s, .single (.complete hmapped), h⟩
    · rename_i hmapped
      rw [Bool.not_eq_true] at hmapped
      obtain ⟨node, hnode, hrest⟩ := Scan.bind_eq_ok.mp h
      obtain ⟨nodeCandidates, hcandidates, hrest⟩ := Scan.bind_eq_ok.mp hrest
      split at hrest
      · cases hrest
      · obtain ⟨candidate, t, delta, v, hcomes, hattempts, htry, hchild⟩ := attempts_success hrest
        obtain ⟨w, hcalls, hcomplete⟩ := ih hchild
        exact ⟨w, .head (.search ⟨hmapped, hnode, hcandidates⟩ hcomes hattempts htry) hcalls,
          hcomplete⟩

/-! ## What holds at a call -/

/-- What holds when a call is made. -/
def Call.Orderly (ctx : Context) : Call → Prop
  | .search fuel s => Between ctx fuel s.toPartialMapping
  | .realizeEdges ids _ s => Underway ctx ids s.toPartialMapping
  | .complete s => Whole ctx s.toPartialMapping

theorem ComesUp.restored
    {search : MappingSearchState → Except String (SearchOutcome × MappingSearchState)}
    {node : TargetNodeId} {nodeCandidates : List Candidate} {candidate : Candidate}
    {s t : MappingSearchState} (hids : (ctx.dfg.edges.map TargetEdge.id).Nodup)
    (hleaves : ∀ {t o t'}, search t = .ok (o, t') → Leaves limits t o t')
    (hnode : s.hasPlacement node = false)
    (h : ComesUp ctx limits search node nodeCandidates s candidate t) :
    t.toPartialMapping = s.toPartialMapping := by
  induction h with
  | here => rfl
  | later hone _ ih =>
    rcases attempt_cases hids hleaves hnode hone with ⟨_, hprogress, ⟨-, hu⟩, -⟩ |
      ⟨_, _, hprogress, -⟩
    · obtain rfl := Progress.next.inj hprogress
      rw [← hu] at hnode
      exact (ih hnode).trans hu
    · cases hprogress

/-- **A call keeps order.** What holds at a call holds, for what is called, at every call it makes.
-/
theorem Call.Orderly.calls (hchecked : ctx.Checked) {call called : Call}
    (h : call.Orderly ctx) (hcalls : Calls ctx limits call called) : called.Orderly ctx := by
  have hids := hchecked.graph.nodup_edges
  rcases hcalls with hmapped | ⟨hchooses, hcomes, -, hfound, hfootprint, htry⟩ | hone |
    ⟨hchooses, hcomes, -, htry⟩
  · exact ⟨Between.toAccounted h, hchecked, hmapped⟩
  · have hbetween : Between ctx _ _ := h
    have hfree := (selectNode_spec hchooses.2.1).1
    have hsame := hcomes.restored hids (search_leaves hids) hfree
    rw [← hsame] at hbetween hfree
    obtain ⟨rfl, -⟩ := ResourceReservationTable.tryReserve_eq_some_iff.mp htry
    exact ⟨hbetween.toAccounted, hfree, .place hfound hfootprint htry, rfl, .nil _⟩
  · have hunderway : Underway ctx _ _ := h
    obtain ⟨-, edge, hedge, hcases⟩ := realizeEdge_cases hone
    rcases hcases with ⟨-, reservation, hrealizes, -⟩ | ⟨hstops, -⟩
    · exact hunderway.next hedge hrealizes
    · exact absurd rfl hstops.ne_success
  · have hbetween : Between ctx (_ + 1) _ := h
    have hfree := (selectNode_spec hchooses.2.1).1
    have hsame := hcomes.restored hids (search_leaves hids) hfree
    rw [← hsame] at hbetween hfree
    obtain ⟨-, hcases⟩ := tryCandidate_cases htry
    rcases hcases with ⟨ho, -⟩ | ⟨footprint, placed, before, after, reservations, hplaces, hclosed,
      hall, -, ⟨-, rfl⟩ | ⟨hstops, -⟩⟩
    · cases ho
    · rw [List.append_nil] at hclosed
      rw [← hclosed] at hall
      exact hbetween.extend hchecked hfree ⟨footprint, placed, reservations, hplaces, hall⟩
    · exact absurd rfl hstops.ne_success

/-! ## The runs of the mapper -/

section Runs

variable (dfg : TargetDFG) (target : TargetModel) (options : ModuloMapperOptions)

/-- The intervals that are searched, with what was counted and reported and the mappings that were
checked before. -/
inductive Searched (maxII : ℕ) : List ℕ → ModuloMapperResult → List ModuloMapping →
    ℕ → ModuloMapperResult → List ModuloMapping → Prop
  | here {ii : ℕ} {iis : List ℕ} {result : ModuloMapperResult} {checked : List ModuloMapping} :
      Searched maxII (ii :: iis) result checked ii result checked
  | later {ii next : ℕ} {iis : List ℕ} {result result' : ModuloMapperResult}
      {checked checked' : List ModuloMapping} {outcome : SearchOutcome} {s : MappingSearchState} :
      run (contextFor dfg target options ii)
        (limitsFor options.budget result.stats (maxII - ii + 1)) result checked
          = .ok (outcome, s) →
      outcome = .perIIBudgetExceeded ∨ outcome = .exhausted ∨ outcome = .postMappingAbort →
      Searched maxII iis (absorb result s) s.checked next result' checked' →
        Searched maxII (ii :: iis) result checked next result' checked'

/-- The call is made in a run of the mapper. -/
def Made (ctx : Context) (limits : SearchLimits) (call : Call) : Prop :=
  ∃ mii ii result checked, StartsFrom dfg target mii ∧
    Searched dfg target options (endII options mii) (intervals options mii) {} [] ii result
      checked ∧
    ctx = contextFor dfg target options ii ∧
    limits = limitsFor options.budget result.stats (endII options mii - ii + 1) ∧
    Relation.ReflTransGen (Calls ctx limits)
      (.search (dfg.nodes.length + 1) (initial ctx result checked)) call

variable {dfg target options}

theorem StartsFrom.checked {mii ii : ℕ} (h : StartsFrom dfg target mii) (hii : ii ≠ 0) :
    (contextFor dfg target options ii).Checked := by
  obtain ⟨analysis, hanalysis, hsuccess, -⟩ := h
  obtain ⟨hverified, hname⟩ := MIIAnalyzer.precondition_of_analyze hanalysis hsuccess
  exact ⟨hverified, hname, hii⟩

theorem Searched.mem {maxII ii : ℕ} {iis : List ℕ} {result result' : ModuloMapperResult}
    {checked checked' : List ModuloMapping}
    (h : Searched dfg target options maxII iis result checked ii result' checked') : ii ∈ iis := by
  induction h with
  | here => exact List.mem_cons_self
  | later _ _ _ ih => exact List.mem_cons_of_mem _ ih

/-- Intervals start above zero. -/
theorem ne_zero_of_mem_intervals {mii ii : ℕ} (h : StartsFrom dfg target mii)
    (hmem : ii ∈ intervals options mii) : ii ≠ 0 := by
  obtain ⟨-, -, -, -, hpos, -⟩ := h
  have hlow := (mem_intervals.mp hmem).1
  have hmii : mii ≤ startII options mii := le_max_left _ _
  omega

theorem between_start {ctx : Context} : Between ctx (ctx.dfg.nodes.length + 1) (start ctx) :=
  ⟨.start, rfl⟩

/-- **Every call of a run is orderly.** -/
theorem Made.orderly {ctx : Context} {limits : SearchLimits} {call : Call}
    (h : Made dfg target options ctx limits call) :
    ctx.Checked ∧ ctx.dfg = dfg ∧ ctx.target = target ∧ call.Orderly ctx := by
  obtain ⟨mii, ii, result, checked, hstarts, hsearched, rfl, rfl, hcalls⟩ := h
  have hchecked : (contextFor dfg target options ii).Checked :=
    hstarts.checked (ne_zero_of_mem_intervals hstarts hsearched.mem)
  refine ⟨hchecked, rfl, rfl, ?_⟩
  induction hcalls with
  | refl => exact between_start
  | tail _ hstep ih => exact ih.calls hchecked hstep

/-! ## What the mapper returns -/

/-- A search that succeeds leaves a mapping the verifier accepts. -/
theorem search_success {ctx : Context} {limits : SearchLimits} {fuel : ℕ}
    {s s' : MappingSearchState} (h : search ctx limits fuel s = .ok (.success, s')) :
    ∃ mapping, s'.mapping = some mapping ∧
      ModuloMappingVerifier.verify ctx.dfg ctx.target mapping = .ok [] := by
  obtain ⟨t, -, hcomplete⟩ := exists_complete_call h
  obtain ⟨mapping, hmapping, -, hverify⟩ := (complete_cases hcomplete).2.2.2.2 rfl
  exact ⟨mapping, hmapping, hverify⟩

/-- The mapper has reported no mapping that the verifier refused. -/
def Unrefused (result : ModuloMapperResult) : Prop :=
  ∀ d ∈ result.diagnostics, d.code ≠ .finalVerificationFailed

theorem Unrefused.absorb {result : ModuloMapperResult} {ii : ℕ} {checked : List ModuloMapping}
    {s : MappingSearchState} (h : Unrefused result)
    (hquiet : Quiet (initial (contextFor dfg target options ii) result checked) s) :
    Unrefused (absorb result s) := by
  intro d hd
  rcases hquiet d hd with hd | hcode
  · exact h d hd
  · exact hcode

/-- What the loop over the intervals returns. -/
theorem accepted_of_mapFrom {mii maxII : ℕ} (hstarts : StartsFrom dfg target mii) {iis : List ℕ}
    (hpos : ∀ ii ∈ iis, ii ≠ 0) {cut : Bool} {result result' : ModuloMapperResult}
    {checked : List ModuloMapping} (hnone : result.mapping = none) (hresult : Unrefused result)
    (h : mapFrom dfg target options maxII iis cut result checked = .ok result') :
    Unrefused result' ∧ ∀ mapping, result'.mapping = some mapping →
      ModuloMappingVerifier.verify dfg target mapping = .ok [] := by
  have hempty : ∀ r : ModuloMapperResult, r.mapping = none → ∀ mapping, r.mapping = some mapping →
      ModuloMappingVerifier.verify dfg target mapping = .ok [] := by
    intro r hr mapping hmapping
    rw [hr] at hmapping
    cases hmapping
  induction iis generalizing cut result checked with
  | nil =>
    rw [mapFrom] at h
    split at h
    · obtain rfl := Except.ok.inj h
      exact ⟨hresult, hempty _ hnone⟩
    · obtain rfl := Except.ok.inj h
      refine ⟨fun d hd ↦ ?_, hempty _ hnone⟩
      rcases List.mem_append.mp hd with hd | hd
      · exact hresult d hd
      · obtain rfl := List.mem_singleton.mp hd
        exact ModuloMapperDiagnosticCode.noConfusion
  | cons ii iis ih =>
    rw [List.forall_mem_cons] at hpos
    have hchecked := @StartsFrom.checked dfg target options mii ii hstarts hpos.1
    obtain ⟨outcome, s, hrun, hquiet⟩ := @search_settles (contextFor dfg target options ii)
      (limitsFor options.budget result.stats (maxII - ii + 1)) hchecked _
      (initial (contextFor dfg target options ii) result checked) between_start
    have hclean : Unrefused (absorb result s) := hresult.absorb hquiet
    have hnext : (absorb result s).mapping = none := hnone
    rw [mapFrom, run] at h
    simp only at h
    rw [hrun] at h
    simp only at h
    rcases outcome with _ | _ | _ | _ | _ | _ | _ | _
    · obtain rfl := Except.ok.inj h
      obtain ⟨mapping, hmapping, hverify⟩ := search_success hrun
      refine ⟨hclean, fun mapping' hmapping' ↦ ?_⟩
      obtain rfl := Option.some.inj (hmapping.symm.trans hmapping')
      exact hverify
    · exact ih hpos.2 hnext hclean h
    · exact ih hpos.2 hnext hclean h
    · obtain rfl := Except.ok.inj h
      exact ⟨hclean, hempty _ hnone⟩
    · obtain rfl := Except.ok.inj h
      exact ⟨hclean, hempty _ hnone⟩
    · obtain rfl := Except.ok.inj h
      exact ⟨hclean, hempty _ rfl⟩
    · obtain rfl := Except.ok.inj h
      exact ⟨hclean, hempty _ rfl⟩
    · exact ih hpos.2 hnext hclean h

/-- **The search is a tree of transactions.** In every run of the mapper, at every call of the
search, placements, dependences and reservations agree, different owners hold different resources,
and exactly the edges whose ends are placed are realized. The search returns, and unless it succeeds
it leaves all three as it found them. At every edge that is realized, a route that was found can be
reserved. A mapping that is handed over is built and accepted by the verifier before the checker
sees it, and so is the mapping that is returned; none is ever refused. -/
theorem mapper_is_transactional (dfg : TargetDFG) (target : TargetModel)
    (options : ModuloMapperOptions) :
    (∀ ctx limits fuel s, Made dfg target options ctx limits (.search fuel s) →
      Accounted ctx s.toPartialMapping ∧
      (∀ a b l m, Holds ctx s.placements s.dependences a l →
        Holds ctx s.placements s.dependences b m → a ≠ b → l.Disjoint m) ∧
      ∃ outcome s', search ctx limits fuel s = .ok (outcome, s') ∧
        (outcome ≠ .success → s'.placements = s.placements ∧ s'.dependences = s.dependences ∧
          s'.reservations = s.reservations)) ∧
    (∀ ctx limits id ids delta s,
      Made dfg target options ctx limits (.realizeEdges (id :: ids) delta s) →
      ∃ edge producer consumer, dfg.findEdge id = some edge ∧
        s.placement edge.src = some producer ∧ s.placement edge.dst = some consumer ∧
        ∀ route, routeSearch ctx s.toPartialMapping edge producer consumer = .ok route →
          route.status = .success → ∃ plan links later, route.plan = some plan ∧
            routeResources ctx plan producer = .ok links ∧
            s.reservations.tryReserve links ⟨.edge, id⟩ = (some ⟨⟨.edge, id⟩, links⟩, later)) ∧
    (∀ ctx limits s, Made dfg target options ctx limits (.complete s) →
      ∃ mapping, materialize ctx s.toPartialMapping = .ok mapping ∧
        ModuloMappingVerifier.verify dfg target mapping = .ok [] ∧
        complete ctx s = .ok (checkComplete ctx mapping { s with mapping := some mapping })) ∧
    ∀ result, map dfg target options = .ok result →
      (∀ d ∈ result.diagnostics, d.code ≠ .finalVerificationFailed) ∧
      ∀ mapping, result.mapping = some mapping →
        ModuloMappingVerifier.verify dfg target mapping = .ok [] := by
  refine ⟨?_, ?_, ?_, ?_⟩
  · intro ctx limits fuel s hmade
    obtain ⟨hchecked, -, -, horderly⟩ := hmade.orderly
    have hbetween : Between ctx fuel s.toPartialMapping := horderly
    obtain ⟨outcome, s', hsearch, -⟩ := @search_settles ctx limits hchecked fuel s hbetween
    refine ⟨hbetween.toAccounted, fun a b l m ha hb hne ↦ hbetween.disjoint ha hb hne, outcome, s',
      hsearch, fun hfailed ↦ ?_⟩
    have hsame := (search_leaves hchecked.graph.nodup_edges hsearch).restored hfailed
    rw [hsame]
    exact ⟨rfl, rfl, rfl⟩
  · intro ctx limits id ids delta s hmade
    obtain ⟨hchecked, rfl, rfl, horderly⟩ := hmade.orderly
    have hunderway : Underway ctx (id :: ids) s.toPartialMapping := horderly
    obtain ⟨edge, producer, consumer, hedge, hproducer, hconsumer⟩ := hunderway.due hchecked
    obtain rfl := TargetDFG.findEdge_id hedge
    refine ⟨edge, producer, consumer, hedge, hproducer, hconsumer, fun route hroute hstatus ↦ ?_⟩
    exact (hunderway.consistent hchecked).reserves hchecked.ii_ne hedge hroute hstatus
  · intro ctx limits s hmade
    obtain ⟨-, rfl, rfl, horderly⟩ := hmade.orderly
    have hwhole : Whole ctx s.toPartialMapping := horderly
    exact ⟨_, hwhole.materialize_eq, hwhole.verify_eq, complete_eq hwhole⟩
  · intro result hmap
    rcases map_cases hmap with ⟨mii, hstarts, hloop⟩ | ⟨⟨status, code, message, ii, rfl, hcode⟩, -⟩
    · have hfresh : Unrefused {} := fun d hd ↦ absurd hd List.not_mem_nil
      exact accepted_of_mapFrom hstarts (fun ii hii ↦ ne_zero_of_mem_intervals hstarts hii) rfl
        hfresh hloop
    · refine ⟨fun d hd ↦ ?_, fun mapping hmapping ↦ ?_⟩
      · obtain rfl := List.mem_singleton.mp hd
        exact hcode
      · cases hmapping

end Runs

/-- The delay line is handed over whole, and its mapping is accepted. -/
theorem delayLine_handed_over : ∃ ctx limits s mapping,
    Made delayLineDFG shippedTarget {} ctx limits (.complete s) ∧
      materialize ctx s.toPartialMapping = .ok mapping ∧
      ModuloMappingVerifier.verify delayLineDFG shippedTarget mapping = .ok [] := by
  have hanalysis : ((MIIAnalyzer.analyze delayLineDFG shippedTarget).toOption.map fun analysis ↦
      (analysis.status, analysis.mii)) = some (.success, 1) := by decide
  have hrun : ((run (contextFor delayLineDFG shippedTarget {} 1)
      (limitsFor {} {} 1) {} []).toOption.map
      Prod.fst) = some .success := by decide +kernel
  obtain ⟨analysis, hanalysis, hboth⟩ := Scan.exists_of_toOption_map hanalysis
  obtain ⟨⟨outcome, s⟩, hrun, rfl⟩ := Scan.exists_of_toOption_map hrun
  obtain ⟨hsuccess, hmii⟩ := Prod.mk.inj hboth
  have hstarts : StartsFrom delayLineDFG shippedTarget 1 :=
    ⟨analysis, hanalysis, hsuccess, hmii, by decide, by decide⟩
  obtain ⟨t, hcalls, -⟩ := exists_complete_call hrun
  have hmade : Made delayLineDFG shippedTarget {} _ _ (.complete t) :=
    ⟨1, 1, {}, [], hstarts, .here, rfl, rfl, hcalls⟩
  obtain ⟨mapping, hmaterialize, hverify, -⟩ :=
    (mapper_is_transactional delayLineDFG shippedTarget {}).2.2.1 _ _ t hmade
  exact ⟨_, _, t, mapping, hmade, hmaterialize, hverify⟩

end ModuloMapper

end PredicatedMesh
