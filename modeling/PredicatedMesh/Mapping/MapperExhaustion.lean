import PredicatedMesh.Analysis.LowerBound
import PredicatedMesh.Mapping.MapperRollback
import PredicatedMesh.Schedule.Execution

/-!
# No mapping means no mapping

The mapper says that there is no mapping when every interval's search ended exhausted. `Refuted`
says what was seen then, in the mapper's own terms but without its counters: at every partial
mapping the chosen node was looked at on every compatible tile and slot, and each of these places is
blocked or leads to a partial mapping that is refuted in turn; a complete mapping is refuted by the
checker.

A search that stops early has another outcome, and the loop over the intervals keeps it apart. The
loop is followed by `Tried`: the intervals that were searched, with the outcome and the counters
before and after. Each of them had its share of what was left.
-/

namespace PredicatedMesh

namespace ModuloMapper

/-! ## Refuted partial mappings -/

/-- Every way to complete the partial mapping is blocked, or its complete mappings are rejected. The
nodes are chosen by the mapper, the places are all compatible tiles at all slots. -/
inductive Refuted (ctx : Context) : PartialMapping → Prop
  | complete {p : PartialMapping} :
      allNodesMapped ctx p = true →
      Rejected ctx p →
        Refuted ctx p
  | node {p : PartialMapping} {node : TargetNodeId} {targetNode : TargetNode}
      (child : TileCoord × ℕ → PartialMapping) :
      allNodesMapped ctx p = false →
      selectNode ctx p = .ok node →
      ctx.dfg.findNode node = some targetNode →
      (∀ place ∈ places ctx targetNode.operation,
        ¬ Blocked ctx p node place.1 place.2 → Extends ctx p node place.1 place.2 (child place)) →
      (∀ place ∈ places ctx targetNode.operation,
        ¬ Blocked ctx p node place.1 place.2 → Refuted ctx (child place)) →
        Refuted ctx p

variable {ctx : Context} {limits : SearchLimits}

/-- Counting an edge does not move a candidate. -/
theorem scoreEdge_place {p : PartialMapping} {node : TargetNodeId} {candidate scored : Candidate}
    {edge : TargetEdge} (h : scoreEdge ctx p node candidate edge = .ok scored) :
    (scored.tile, scored.slot) = (candidate.tile, candidate.slot) := by
  rw [scoreEdge] at h
  split at h
  · rw [Except.ok.inj h]
  · split at h
    · cases h
    · simp only at h
      split at h
      · split at h
        · rw [Except.ok.inj h]
        · split at h
          all_goals
            split at h
            · rw [← Except.ok.inj h]
            · rw [← Except.ok.inj h]
      · rw [← Except.ok.inj h]

theorem score_place {p : PartialMapping} {node : TargetNodeId} {place : TileCoord × ℕ}
    {candidate : Candidate} (h : score ctx p node place = .ok candidate) :
    (candidate.tile, candidate.slot) = place :=
  Scan.foldlM_invariant (I := fun c ↦ (c.tile, c.slot) = place)
    (fun _ _ _ _ hc hstep ↦ (scoreEdge_place hstep).trans hc) rfl h

/-- Every compatible tile is a candidate at every slot. -/
theorem candidates_spec {p : PartialMapping} {node : TargetNodeId}
    {nodeCandidates : List Candidate} (h : candidates ctx p node = .ok nodeCandidates) :
    ∃ targetNode, ctx.dfg.findNode node = some targetNode ∧
      ∀ place ∈ places ctx targetNode.operation,
        ∃ candidate ∈ nodeCandidates, (candidate.tile, candidate.slot) = place := by
  rw [candidates] at h
  obtain ⟨targetNode, hnode, h⟩ := Scan.bind_eq_ok.mp h
  obtain ⟨values, hvalues, h⟩ := Scan.bind_eq_ok.mp h
  obtain rfl := Except.ok.inj h
  refine ⟨targetNode, nodeAt_eq_ok.mp hnode, fun place hplace ↦ ?_⟩
  obtain ⟨candidate, hmem, hscore⟩ := Scan.exists_result_of_mem hvalues hplace
  exact ⟨candidate, (List.mem_insertionSort _).mpr hmem, score_place hscore⟩

/-- **An exhausted search has refuted its partial mapping.** -/
theorem refuted_of_search (hids : (ctx.dfg.edges.map TargetEdge.id).Nodup) {fuel : ℕ}
    {s s' : MappingSearchState} (h : search ctx limits fuel s = .ok (.exhausted, s')) :
    Refuted ctx s.toPartialMapping := by
  induction fuel generalizing s s' with
  | zero => cases h
  | succ fuel ih =>
    rw [search] at h
    split at h
    · rename_i hmapped
      exact .complete hmapped ((complete_cases h).2.2.2.1 rfl)
    · rename_i hmapped
      rw [Bool.not_eq_true] at hmapped
      obtain ⟨node, hnode, hrest⟩ := Scan.bind_eq_ok.mp h
      obtain ⟨nodeCandidates, hcandidates, hrest⟩ := Scan.bind_eq_ok.mp hrest
      obtain ⟨targetNode, htargetNode, hall⟩ := candidates_spec hcandidates
      -- what lies below a place that is not blocked
      have hbelow : ∀ place ∈ places ctx targetNode.operation,
          ¬ Blocked ctx s.toPartialMapping node place.1 place.2 →
            ∃ q, Extends ctx s.toPartialMapping node place.1 place.2 q ∧ Refuted ctx q := by
        intro place hplace hfree
        obtain ⟨candidate, hmem, rfl⟩ := hall place hplace
        split at hrest
        · rename_i hempty
          rw [List.isEmpty_iff.mp hempty] at hmem
          cases hmem
        · have hlost := (attempts_cases hids (search_leaves hids) (selectNode_spec hnode).1
            hrest).2.1
          rcases hlost rfl candidate hmem with hblocked | ⟨t, t', hextends, hchild⟩
          · exact absurd hblocked hfree
          · exact ⟨t.toPartialMapping, hextends, ih hchild⟩
      have : Nonempty PartialMapping := ⟨s.toPartialMapping⟩
      choose! child hextends hrefuted using hbelow
      exact .node child hmapped hnode htargetNode hextends hrefuted

/-! ## Shares of the budget -/

theorem fairShareLimit_le {maximum used n : ℕ} (h : used ≤ maximum) :
    fairShareLimit maximum used n ≤ maximum := by
  rw [fairShareLimit]
  split
  · exact h
  · simp only
    split
    · omega
    · omega

theorem fairShareLimit_last {maximum used : ℕ} (h : used ≤ maximum) :
    fairShareLimit maximum used 1 = maximum := by
  rw [fairShareLimit]
  split
  · omega
  · simp only [if_true]
    omega

/-- Below the last interval a counter takes at most half of what is left, rounded up. -/
theorem CountsTo.le_half {maximum used n after : ℕ} (hn : n ≠ 1)
    (h : CountsTo (fairShareLimit maximum used n) used after) :
    after ≤ used + (maximum - used + 1) / 2 := by
  obtain ⟨-, rfl | hle⟩ := h
  · exact Nat.le_add_right _ _
  · rw [fairShareLimit] at hle
    split at hle
    · omega
    · simp only at hle
      omega

theorem CountsTo.le_maximum {maximum used n after : ℕ} (hused : used ≤ maximum)
    (h : CountsTo (fairShareLimit maximum used n) used after) : after ≤ maximum := by
  obtain ⟨-, rfl | hle⟩ := h
  · exact hused
  · exact hle.trans (fairShareLimit_le hused)

/-- The counters are within the configured maxima. -/
structure WithinBudget (budget : ModuloMapperBudget) (stats : ModuloMapperStats) : Prop where
  nodeCandidateAttempts : stats.nodeCandidateAttempts ≤ budget.maxNodeCandidateAttempts
  backtracks : stats.backtracks ≤ budget.maxBacktracks
  routeSearchCalls : stats.routeSearchCalls ≤ budget.maxRouteSearchCalls

/-- Between two states of the counters at most half of what was left was used, rounded up. -/
structure UsesHalf (budget : ModuloMapperBudget) (before after : ModuloMapperStats) : Prop where
  nodeCandidateAttempts : after.nodeCandidateAttempts ≤ before.nodeCandidateAttempts
    + (budget.maxNodeCandidateAttempts - before.nodeCandidateAttempts + 1) / 2
  backtracks : after.backtracks ≤ before.backtracks
    + (budget.maxBacktracks - before.backtracks + 1) / 2
  routeSearchCalls : after.routeSearchCalls ≤ before.routeSearchCalls
    + (budget.maxRouteSearchCalls - before.routeSearchCalls + 1) / 2

theorem Spends.withinBudget {budget : ModuloMapperBudget} {before after : ModuloMapperStats} {n : ℕ}
    (h : Spends (limitsFor budget before n) before after) (hbefore : WithinBudget budget before) :
    WithinBudget budget after :=
  ⟨h.1.le_maximum hbefore.1, h.2.le_maximum hbefore.2, h.3.le_maximum hbefore.3⟩

theorem Spends.usesHalf {budget : ModuloMapperBudget} {before after : ModuloMapperStats} {n : ℕ}
    (hn : n ≠ 1) (h : Spends (limitsFor budget before n) before after) :
    UsesHalf budget before after :=
  ⟨h.1.le_half hn, h.2.le_half hn, h.3.le_half hn⟩

theorem limitsFor_last {budget : ModuloMapperBudget} {stats : ModuloMapperStats}
    (h : WithinBudget budget stats) : limitsFor budget stats 1
      = ⟨budget.maxNodeCandidateAttempts, budget.maxBacktracks, budget.maxRouteSearchCalls⟩ := by
  rw [limitsFor, fairShareLimit_last h.1, fairShareLimit_last h.2, fairShareLimit_last h.3]

/-! ## The intervals that are searched -/

section Intervals

variable (dfg : TargetDFG) (target : TargetModel) (options : ModuloMapperOptions) (maxII : ℕ)

/-- The search at one interval ended with an outcome, between two states of the counters. The next
interval is searched when nothing was found and nothing failed. -/
inductive Tried : List ℕ → ModuloMapperResult → List ModuloMapping →
    ℕ → SearchOutcome → ModuloMapperStats → ModuloMapperStats → Prop
  | here {ii : ℕ} {iis : List ℕ} {result : ModuloMapperResult} {checked : List ModuloMapping}
      {outcome : SearchOutcome} {s : MappingSearchState} :
      run (contextFor dfg target options ii)
        (limitsFor options.budget result.stats (maxII - ii + 1)) result checked
          = .ok (outcome, s) →
        Tried (ii :: iis) result checked ii outcome result.stats s.stats
  | later {ii : ℕ} {iis : List ℕ} {result : ModuloMapperResult} {checked : List ModuloMapping}
      {outcome : SearchOutcome} {s : MappingSearchState} {next : ℕ} {nextOutcome : SearchOutcome}
      {before after : ModuloMapperStats} :
      run (contextFor dfg target options ii)
        (limitsFor options.budget result.stats (maxII - ii + 1)) result checked
          = .ok (outcome, s) →
      outcome = .perIIBudgetExceeded ∨ outcome = .exhausted ∨ outcome = .postMappingAbort →
      Tried iis (absorb result s) s.checked next nextOutcome before after →
        Tried (ii :: iis) result checked next nextOutcome before after

/-- The search was stopped by a budget. -/
def CutShort (outcome : SearchOutcome) : Prop :=
  outcome = .perIIBudgetExceeded ∨ outcome = .budgetExceeded ∨ outcome = .routeBudgetExceeded

/-- The outcomes, other than by a budget, that end the mapper, and its answer then. -/
inductive Ends : SearchOutcome → ModuloMapperStatus → Prop
  | success : Ends .success .success
  | verificationFailure : Ends .verificationFailure .verificationFailure
  | internalError : Ends .internalError .internalError

theorem Ends.not_cutShort {outcome : SearchOutcome} {status : ModuloMapperStatus}
    (h : Ends outcome status) : ¬ CutShort outcome := by
  rintro (rfl | rfl | rfl)
  all_goals cases h

theorem Ends.not_continues {outcome : SearchOutcome} {status : ModuloMapperStatus}
    (h : Ends outcome status) :
    ¬ (outcome = .perIIBudgetExceeded ∨ outcome = .exhausted ∨ outcome = .postMappingAbort) := by
  rintro (rfl | rfl | rfl)
  all_goals cases h

variable {dfg target options maxII} {iis : List ℕ} {result result' : ModuloMapperResult}
  {checked : List ModuloMapping} {cut : Bool}

/-- The next interval, or the answer. -/
theorem mapFrom_cons {ii : ℕ}
    (h : mapFrom dfg target options maxII (ii :: iis) cut result checked = .ok result') :
    ∃ outcome s, run (contextFor dfg target options ii)
        (limitsFor options.budget result.stats (maxII - ii + 1)) result checked
          = .ok (outcome, s) ∧
      ((outcome = .perIIBudgetExceeded ∧
          mapFrom dfg target options maxII iis true (absorb result s) s.checked = .ok result') ∨
        ((outcome = .exhausted ∨ outcome = .postMappingAbort) ∧
          mapFrom dfg target options maxII iis cut (absorb result s) s.checked = .ok result') ∨
        (result'.stats = s.stats ∧ ((outcome = .budgetExceeded ∧ result'.status = .budgetExceeded) ∨
          (outcome = .routeBudgetExceeded ∧ result'.status = .routeBudgetExceeded) ∨
          Ends outcome result'.status))) := by
  rw [mapFrom] at h
  simp only at h
  split at h
  · cases h
  · rename_i outcome s hrun
    refine ⟨outcome, s, hrun, ?_⟩
    rcases outcome with _ | _ | _ | _ | _ | _ | _ | _
    · obtain rfl := Except.ok.inj h
      exact .inr (.inr ⟨rfl, .inr (.inr .success)⟩)
    · exact .inr (.inl ⟨.inl rfl, h⟩)
    · exact .inl ⟨rfl, h⟩
    · obtain rfl := Except.ok.inj h
      exact .inr (.inr ⟨rfl, .inl ⟨rfl, rfl⟩⟩)
    · obtain rfl := Except.ok.inj h
      exact .inr (.inr ⟨rfl, .inr (.inl ⟨rfl, rfl⟩)⟩)
    · obtain rfl := Except.ok.inj h
      exact .inr (.inr ⟨rfl, .inr (.inr .verificationFailure)⟩)
    · obtain rfl := Except.ok.inj h
      exact .inr (.inr ⟨rfl, .inr (.inr .internalError)⟩)
    · exact .inr (.inl ⟨.inr rfl, h⟩)

/-- What a search for one interval leaves behind. -/
theorem run_leaves (hids : (dfg.edges.map TargetEdge.id).Nodup) {ii : ℕ} {limits : SearchLimits}
    {outcome : SearchOutcome} {s : MappingSearchState}
    (h : run (contextFor dfg target options ii) limits result checked = .ok (outcome, s)) :
    Spends limits result.stats s.stats ∧ outcome ≠ .postMappingAbort :=
  have hleaves := search_leaves hids h
  ⟨hleaves.spends, hleaves.notAborted⟩

theorem Tried.mem {ii : ℕ} {outcome : SearchOutcome} {before after : ModuloMapperStats}
    (h : Tried dfg target options maxII iis result checked ii outcome before after) : ii ∈ iis := by
  induction h with
  | here => exact List.mem_cons_self
  | later _ _ _ ih => exact List.mem_cons_of_mem _ ih

/-- The mapper finds no mapping only when every interval is refuted. -/
theorem refuted_of_mapFrom (hids : (dfg.edges.map TargetEdge.id).Nodup)
    (h : mapFrom dfg target options maxII iis cut result checked = .ok result')
    (hstatus : result'.status = .noMappingWithinIILimit) :
    cut = false ∧ ∀ ii ∈ iis, Refuted (contextFor dfg target options ii)
      (start (contextFor dfg target options ii)) := by
  induction iis generalizing cut result checked with
  | nil =>
    rw [mapFrom] at h
    split at h
    · obtain rfl := Except.ok.inj h
      cases hstatus
    · rename_i hcut
      exact ⟨by simpa using hcut, nofun⟩
  | cons ii iis ih =>
    obtain ⟨outcome, s, hrun, hcases⟩ := mapFrom_cons h
    rcases hcases with ⟨-, hnext⟩ | ⟨hexhausted | habort, hnext⟩ | ⟨-, ⟨-, hend⟩ | ⟨-, hend⟩ | hend⟩
    · cases (ih hnext).1
    · obtain ⟨hcut, hall⟩ := ih hnext
      rw [hexhausted] at hrun
      exact ⟨hcut, List.forall_mem_cons.mpr ⟨refuted_of_search hids hrun, hall⟩⟩
    · exact absurd habort (run_leaves hids hrun).2
    · rw [hend] at hstatus
      cases hstatus
    · rw [hend] at hstatus
      cases hstatus
    · rw [hstatus] at hend
      cases hend

/-- The mapper ends by a budget, or at an interval that ends it otherwise. -/
def Settled (dfg : TargetDFG) (target : TargetModel) (options : ModuloMapperOptions) (maxII : ℕ)
    (iis : List ℕ) (result : ModuloMapperResult) (checked : List ModuloMapping)
    (status : ModuloMapperStatus) (bound : ℕ) : Prop :=
  status = .budgetExceeded ∨ status = .routeBudgetExceeded ∨ ∃ ii outcome before after,
    bound < ii ∧ Tried dfg target options maxII iis result checked ii outcome before after ∧
      Ends outcome status

theorem Settled.later {ii bound : ℕ} {outcome : SearchOutcome} {s : MappingSearchState}
    {status : ModuloMapperStatus}
    (hrun : run (contextFor dfg target options ii)
      (limitsFor options.budget result.stats (maxII - ii + 1)) result checked = .ok (outcome, s))
    (hnext : outcome = .perIIBudgetExceeded ∨ outcome = .exhausted ∨ outcome = .postMappingAbort)
    (h : Settled dfg target options maxII iis (absorb result s) s.checked status bound) :
    Settled dfg target options maxII (ii :: iis) result checked status bound := by
  rcases h with hstatus | hstatus | ⟨last, outcome, before, after, hlast, htried, hend⟩
  · exact .inl hstatus
  · exact .inr (.inl hstatus)
  · exact .inr (.inr ⟨last, outcome, before, after, hlast, .later hrun hnext htried, hend⟩)

/-- Once an interval was cut short the mapper does not fall back to saying that there is none. -/
theorem settled_of_cut {bound : ℕ} (hbound : ∀ ii ∈ iis, bound < ii)
    (h : mapFrom dfg target options maxII iis true result checked = .ok result') :
    Settled dfg target options maxII iis result checked result'.status bound := by
  induction iis generalizing result checked with
  | nil =>
    rw [mapFrom, if_pos rfl] at h
    obtain rfl := Except.ok.inj h
    exact .inl rfl
  | cons ii iis ih =>
    rw [List.forall_mem_cons] at hbound
    obtain ⟨outcome, s, hrun, hcases⟩ := mapFrom_cons h
    rcases hcases with ⟨hcut, hnext⟩ | ⟨ho, hnext⟩ | ⟨-, ⟨-, hend⟩ | ⟨-, hend⟩ | hend⟩
    · exact (ih hbound.2 hnext).later hrun (.inl hcut)
    · exact (ih hbound.2 hnext).later hrun (.inr ho)
    · exact .inl hend
    · exact .inr (.inl hend)
    · exact .inr (.inr ⟨ii, outcome, _, _, hbound.1, .here hrun, hend⟩)

theorem settled_of_tried {ii : ℕ} {outcome : SearchOutcome} {before after : ModuloMapperStats}
    (hsorted : iis.Pairwise (· < ·))
    (htried : Tried dfg target options maxII iis result checked ii outcome before after)
    (hcut : CutShort outcome)
    (h : mapFrom dfg target options maxII iis cut result checked = .ok result') :
    Settled dfg target options maxII iis result checked result'.status ii := by
  induction htried generalizing cut with
  | @here ii iis result checked outcome s hrun =>
    obtain ⟨hlater, -⟩ := List.pairwise_cons.mp hsorted
    obtain ⟨outcome', s', hrun', hcases⟩ := mapFrom_cons h
    obtain ⟨rfl, rfl⟩ := Prod.mk.inj (Except.ok.inj (hrun.symm.trans hrun'))
    rcases hcases with ⟨hper, hnext⟩ | ⟨ho, -⟩ | ⟨-, ⟨-, hend⟩ | ⟨-, hend⟩ | hend⟩
    · exact (settled_of_cut hlater hnext).later hrun (.inl hper)
    · rcases ho with rfl | rfl
      all_goals rcases hcut with ho | ho | ho
      all_goals cases ho
    · exact .inl hend
    · exact .inr (.inl hend)
    · exact absurd hcut hend.not_cutShort
  | @later ii iis result checked outcome s next nextOutcome before after hrun hnext htried ih =>
    obtain ⟨-, hsorted⟩ := List.pairwise_cons.mp hsorted
    obtain ⟨outcome', s', hrun', hcases⟩ := mapFrom_cons h
    obtain ⟨rfl, rfl⟩ := Prod.mk.inj (Except.ok.inj (hrun.symm.trans hrun'))
    rcases hcases with ⟨-, hmap⟩ | ⟨-, hmap⟩ | ⟨-, ⟨ho, hend⟩ | ⟨ho, hend⟩ | hend⟩
    · exact (ih hsorted hcut hmap).later hrun hnext
    · exact (ih hsorted hcut hmap).later hrun hnext
    · exact .inl hend
    · exact .inr (.inl hend)
    · exact absurd hnext hend.not_continues

/-- Every interval starts and ends within the budget, and spends what it was given. -/
theorem Tried.spends {ii : ℕ} {outcome : SearchOutcome} {before after : ModuloMapperStats}
    (hids : (dfg.edges.map TargetEdge.id).Nodup)
    (h : Tried dfg target options maxII iis result checked ii outcome before after)
    (hresult : WithinBudget options.budget result.stats) :
    WithinBudget options.budget before ∧
      Spends (limitsFor options.budget before (maxII - ii + 1)) before after := by
  induction h with
  | here hrun => exact ⟨hresult, (run_leaves hids hrun).1⟩
  | later hrun _ _ ih => exact ih ((run_leaves hids hrun).1.withinBudget hresult)

theorem withinBudget_of_mapFrom (hids : (dfg.edges.map TargetEdge.id).Nodup)
    (hresult : WithinBudget options.budget result.stats)
    (h : mapFrom dfg target options maxII iis cut result checked = .ok result') :
    WithinBudget options.budget result'.stats := by
  induction iis generalizing cut result checked with
  | nil =>
    rw [mapFrom] at h
    split at h
    · obtain rfl := Except.ok.inj h
      exact hresult
    · obtain rfl := Except.ok.inj h
      exact hresult
  | cons ii iis ih =>
    obtain ⟨outcome, s, hrun, hcases⟩ := mapFrom_cons h
    have hspent := (run_leaves hids hrun).1.withinBudget hresult
    rcases hcases with ⟨-, hnext⟩ | ⟨-, hnext⟩ | ⟨hstats, -⟩
    · exact ih hspent hnext
    · exact ih hspent hnext
    · rw [hstats]
      exact hspent

end Intervals

/-! ## What the mapper answers -/

section Answer

variable (dfg : TargetDFG) (target : TargetModel) (options : ModuloMapperOptions)

/-- The analysis gives the mapper an interval to start from. -/
def StartsFrom (mii : ℕ) : Prop :=
  ∃ analysis, MIIAnalyzer.analyze dfg target = .ok analysis ∧ analysis.status = .success ∧
    analysis.mii = mii ∧ mii ≠ 0 ∧ mii ≠ ModuloRouteSearch.uint32Max

/-- The mapper searches intervals up to `maxII`, and one of them ended with an outcome. -/
def TriedBy (maxII ii : ℕ) (outcome : SearchOutcome) (before after : ModuloMapperStats) : Prop :=
  ∃ mii, StartsFrom dfg target mii ∧ maxII = endII options mii ∧
    Tried dfg target options maxII (intervals options mii) {} [] ii outcome before after

variable {dfg target options}

theorem StartsFrom.unique {a b : ℕ} (ha : StartsFrom dfg target a) (hb : StartsFrom dfg target b) :
    a = b := by
  obtain ⟨analysis, hanalysis, -, rfl, -⟩ := ha
  obtain ⟨analysis', hanalysis', -, rfl, -⟩ := hb
  rw [Except.ok.inj (hanalysis.symm.trans hanalysis')]

theorem StartsFrom.nodup {mii : ℕ} (h : StartsFrom dfg target mii) :
    (dfg.edges.map TargetEdge.id).Nodup := by
  obtain ⟨analysis, hanalysis, hsuccess, -⟩ := h
  have hverify := (MIIAnalyzer.precondition_of_analyze hanalysis hsuccess).1
  exact (TargetDFGVerifier.verified_of_verify hverify).nodup_edges

/-- The mapper answers before it searches, with one diagnostic. -/
def Early (result : ModuloMapperResult) : Prop :=
  ∃ status code message ii, result = failed status code message ii ∧
    code ≠ .finalVerificationFailed

/-- The mapper searches its intervals, or it answers before the first of them. -/
theorem map_cases {result : ModuloMapperResult} (h : map dfg target options = .ok result) :
    (∃ mii, StartsFrom dfg target mii ∧ mapFrom dfg target options (endII options mii)
        (intervals options mii) false {} [] = .ok result) ∨
      (Early result ∧
        (∀ mii, StartsFrom dfg target mii → endII options mii < startII options mii) ∧
        (result.status = .noMappingWithinIILimit → ∃ mii, StartsFrom dfg target mii)) := by
  rw [map] at h
  split at h
  · cases h
  · rename_i analysis hanalysis
    have hsame : ∀ mii, StartsFrom dfg target mii → analysis.status = .success ∧
        analysis.mii = mii ∧ mii ≠ 0 ∧ mii ≠ ModuloRouteSearch.uint32Max := by
      rintro mii ⟨analysis', hanalysis', hrest⟩
      rw [Except.ok.inj (hanalysis.symm.trans hanalysis')]
      exact hrest
    split at h
    · rename_i hsuccess
      split at h
      · rename_i hinvalid
        obtain rfl := Except.ok.inj h
        refine .inr ⟨⟨_, _, _, _, rfl, ModuloMapperDiagnosticCode.noConfusion⟩,
          fun mii hstarts ↦ ?_, fun h ↦ by cases h⟩
        obtain ⟨-, rfl, hzero, hmax⟩ := hsame mii hstarts
        rcases hinvalid with hinvalid | hinvalid
        · exact absurd hinvalid hzero
        · exact absurd hinvalid hmax
      · rename_i hvalid
        rw [not_or] at hvalid
        have hstarts : StartsFrom dfg target analysis.mii :=
          ⟨analysis, hanalysis, hsuccess, rfl, hvalid⟩
        split at h
        · rename_i hbelow
          obtain rfl := Except.ok.inj h
          refine .inr ⟨⟨_, _, _, _, rfl, ModuloMapperDiagnosticCode.noConfusion⟩,
            fun mii hmii ↦ ?_, fun _ ↦ ⟨_, hstarts⟩⟩
          rw [hmii.unique hstarts]
          exact hbelow
        · exact .inl ⟨_, hstarts, h⟩
    all_goals
      rename_i hstatus
      obtain rfl := Except.ok.inj h
      refine .inr ⟨⟨_, _, _, _, rfl, ModuloMapperDiagnosticCode.noConfusion⟩,
        fun mii hstarts ↦ ?_, fun h ↦ by cases h⟩
      have hsuccess := (hsame mii hstarts).1
      simp_all

theorem pairwise_intervals (mii : ℕ) : (intervals options mii).Pairwise (· < ·) :=
  List.pairwise_lt_range'

theorem mem_intervals {mii ii : ℕ} :
    ii ∈ intervals options mii ↔ startII options mii ≤ ii ∧ ii ≤ endII options mii := by
  rw [intervals, List.mem_range'_1]
  omega

/-- **No mapping means that everything was looked at.** The mapper answers so, with a last interval
that is not below the first, only when every interval is refuted. An interval that was cut short
makes the answer one of the two budget answers, unless a later interval ends the mapper with a
mapping or with a failure. The counters stay within the maxima, an interval before the last uses at
most half of what was left of each, and the last gets all of it. -/
theorem no_mapping_is_refutation (dfg : TargetDFG) (target : TargetModel)
    (options : ModuloMapperOptions) (result : ModuloMapperResult)
    (h : map dfg target options = .ok result) :
    (result.status = .noMappingWithinIILimit → ∃ mii, StartsFrom dfg target mii ∧
      ∀ ii, startII options mii ≤ ii → ii ≤ endII options mii →
        Refuted (contextFor dfg target options ii) (start (contextFor dfg target options ii))) ∧
    (∀ maxII ii outcome before after, TriedBy dfg target options maxII ii outcome before after →
      CutShort outcome → result.status = .budgetExceeded ∨ result.status = .routeBudgetExceeded ∨
        ∃ later outcome' before' after', ii < later ∧
          TriedBy dfg target options maxII later outcome' before' after' ∧
          Ends outcome' result.status) ∧
    WithinBudget options.budget result.stats ∧
    ∀ maxII ii outcome before after, TriedBy dfg target options maxII ii outcome before after →
      ii ≤ maxII ∧ WithinBudget options.budget before ∧
      Spends (limitsFor options.budget before (maxII - ii + 1)) before after ∧
      (ii < maxII → UsesHalf options.budget before after) ∧
      (ii = maxII → limitsFor options.budget before (maxII - ii + 1)
        = ⟨options.budget.maxNodeCandidateAttempts, options.budget.maxBacktracks,
            options.budget.maxRouteSearchCalls⟩) := by
  have hzero : WithinBudget options.budget {} := ⟨Nat.zero_le _, Nat.zero_le _, Nat.zero_le _⟩
  refine ⟨fun hstatus ↦ ?_, ?_, ?_, ?_⟩
  · rcases map_cases h with ⟨mii, hstarts, hmap⟩ | ⟨-, hbelow, hexists⟩
    · have hall := (refuted_of_mapFrom hstarts.nodup hmap hstatus).2
      exact ⟨mii, hstarts, fun ii hlow hhigh ↦ hall ii (mem_intervals.mpr ⟨hlow, hhigh⟩)⟩
    · obtain ⟨mii, hstarts⟩ := hexists hstatus
      have hlt := hbelow mii hstarts
      exact ⟨mii, hstarts, fun ii hlow hhigh ↦ absurd (hlow.trans hhigh) (not_le.mpr hlt)⟩
  · rintro maxII ii outcome before after ⟨mii, hstarts, rfl, htried⟩ hcut
    rcases map_cases h with ⟨mii', hstarts', hmap⟩ | ⟨-, hbelow, -⟩
    · obtain rfl := hstarts.unique hstarts'
      rcases settled_of_tried (pairwise_intervals mii) htried hcut hmap with hend | hend |
        ⟨later, outcome', before', after', hlater, htried', hend⟩
      · exact .inl hend
      · exact .inr (.inl hend)
      · exact .inr (.inr ⟨later, outcome', before', after', hlater, ⟨mii, hstarts, rfl, htried'⟩,
          hend⟩)
    · have hmem := mem_intervals.mp htried.mem
      exact absurd (hmem.1.trans hmem.2) (not_le.mpr (hbelow mii hstarts))
  · rcases map_cases h with ⟨mii, hstarts, hmap⟩ | ⟨⟨_, _, _, _, rfl, -⟩, -⟩
    · exact withinBudget_of_mapFrom hstarts.nodup hzero hmap
    · exact hzero
  · rintro maxII ii outcome before after ⟨mii, hstarts, rfl, htried⟩
    obtain ⟨hbefore, hspends⟩ := htried.spends hstarts.nodup hzero
    have hle := (mem_intervals.mp htried.mem).2
    refine ⟨hle, hbefore, hspends, fun hlt ↦ hspends.usesHalf (by omega), fun heq ↦ ?_⟩
    rw [heq, Nat.sub_self, Nat.zero_add]
    exact limitsFor_last hbefore

end Answer

/-- Six candidates for two intervals, and a checker that wants the second. -/
def pickyOptions : ModuloMapperOptions where
  maxII := 2
  budget := { maxNodeCandidateAttempts := 6 }
  completeMappingChecker := some fun _ _ _ mapping ↦
    { decision := if mapping.ii = 1 then .reject else .accept }

/-- The delay line is mapped within this budget. -/
theorem delayLine_mapped_within_budget :
    ∃ result, map delayLineDFG shippedTarget pickyOptions = .ok result ∧
      WithinBudget pickyOptions.budget result.stats := by
  have hmap : (map delayLineDFG shippedTarget pickyOptions).toOption.map ModuloMapperResult.status
      = some .success := by decide +kernel
  obtain ⟨result, hresult, -⟩ := Scan.exists_of_toOption_map hmap
  exact ⟨result, hresult, (no_mapping_is_refutation _ _ _ _ hresult).2.2.1⟩

/-- The first interval is cut short, and the second gives a mapping. -/
theorem delayLine_cut_then_mapped :
    (∃ before after, TriedBy delayLineDFG shippedTarget pickyOptions 2 1 .perIIBudgetExceeded before
      after) ∧
    ∃ result, map delayLineDFG shippedTarget pickyOptions = .ok result ∧
      result.status = .success := by
  have hanalysis : ((MIIAnalyzer.analyze delayLineDFG shippedTarget).toOption.map fun analysis ↦
      (analysis.status, analysis.mii)) = some (.success, 1) := by decide
  have hrun : ((run (contextFor delayLineDFG shippedTarget pickyOptions 1)
      (limitsFor pickyOptions.budget {} 2) {} []).toOption.map Prod.fst)
        = some .perIIBudgetExceeded := by decide +kernel
  have hmap : (map delayLineDFG shippedTarget pickyOptions).toOption.map ModuloMapperResult.status
      = some .success := by decide +kernel
  obtain ⟨analysis, hanalysis, hboth⟩ := Scan.exists_of_toOption_map hanalysis
  obtain ⟨⟨outcome, s⟩, hrun, rfl⟩ := Scan.exists_of_toOption_map hrun
  obtain ⟨hsuccess, hmii⟩ := Prod.mk.inj hboth
  have hstarts : StartsFrom delayLineDFG shippedTarget 1 :=
    ⟨analysis, hanalysis, hsuccess, hmii, by decide, by decide⟩
  exact ⟨⟨_, _, 1, hstarts, rfl, .here hrun⟩, Scan.exists_of_toOption_map hmap⟩

end ModuloMapper

end PredicatedMesh
