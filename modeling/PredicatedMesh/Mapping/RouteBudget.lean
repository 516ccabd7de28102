import PredicatedMesh.Mapping.RouteSearchExact

/-!
# A budget that is enough

Every expansion settles another state, and an expansion pushes at most once for each of its five
moves. A search that may expand every state and push five times as often, and once for its start,
therefore ends before its budget does.
-/

namespace PredicatedMesh

namespace ModuloRouteSearch

variable {ctx : Context}

/-- The budget covers every state of the search. -/
structure Context.Affords (ctx : Context) : Prop where
  expansions : ctx.states ≤ ctx.options.budget.maxStateExpansions
  pushes : 1 + 5 * ctx.states ≤ ctx.options.budget.maxQueuePushes

/-- The states that are settled. -/
def Search.settledStates (ctx : Context) (search : Search) : Finset ℕ :=
  (Finset.range ctx.states).filter fun id ↦ search.finalized id = true

/-- The counters of a search are those of its settled states. -/
structure Counted (ctx : Context) (search : Search) : Prop extends Growing ctx search where
  expansions : search.stateExpansions ≤ (search.settledStates ctx).card
  pushes : search.queuePushes ≤ 1 + 5 * search.stateExpansions

/-- A state that comes up has not been counted. -/
theorem Counted.expansions_lt (hvalid : ctx.Valid) {search : Search} (h : Counted ctx search)
    {entry : QueueEntry} {queue : List QueueEntry} (hpops : search.Pops entry queue) :
    search.stateExpansions < ctx.states := by
  have hlt := h.lt_states hvalid (h.labelled_of_pops hpops)
  have hproper : search.settledStates ctx ⊂ Finset.range ctx.states := by
    refine (Finset.ssubset_iff_of_subset (Finset.filter_subset _ _)).mpr
      ⟨entry.state, Finset.mem_range.mpr hlt, fun hmem ↦ ?_⟩
    have hsettled := (Finset.mem_filter.mp hmem).2
    rw [hpops.unsettled] at hsettled
    cases hsettled
  have hcard := Finset.card_lt_card hproper
  rw [Finset.card_range] at hcard
  exact h.expansions.trans_lt hcard

/-- Settling the state that comes up counts one more. -/
theorem Counted.card_visit (hvalid : ctx.Valid) {search : Search} (h : Counted ctx search)
    {entry : QueueEntry} {queue : List QueueEntry} (hpops : search.Pops entry queue) :
    search.stateExpansions + 1 ≤ ((search.visit entry.state queue).settledStates ctx).card := by
  have hlt := h.lt_states hvalid (h.labelled_of_pops hpops)
  have hfresh : entry.state ∉ search.settledStates ctx := by
    intro hmem
    have hsettled := (Finset.mem_filter.mp hmem).2
    rw [hpops.unsettled] at hsettled
    cases hsettled
  have hsub : insert entry.state (search.settledStates ctx)
      ⊆ (search.visit entry.state queue).settledStates ctx := by
    intro id hid
    rcases Finset.mem_insert.mp hid with rfl | hid
    · exact Finset.mem_filter.mpr ⟨Finset.mem_range.mpr hlt, Function.update_self _ _ _⟩
    · have hne : id ≠ entry.state := fun heq ↦ hfresh (heq ▸ hid)
      obtain ⟨hrange, hsettled⟩ := Finset.mem_filter.mp hid
      exact Finset.mem_filter.mpr ⟨hrange, (Function.update_of_ne hne _ _).trans hsettled⟩
  have hcard := Finset.card_le_card hsub
  rw [Finset.card_insert_of_notMem hfresh] at hcard
  exact (Nat.succ_le_succ h.expansions).trans hcard

/-! ## The pushes of an expansion -/

/-- A move pushes at most once, and fails for the budget only when it is used up. -/
theorem expandMove_counts (hvalid : ctx.Valid) {id : ℕ} {cost : Cost}
    (hcoherent : Coherent ctx id cost) {move : Move} (hmove : move ∈ allMoves ctx)
    (search : Search) :
    (∀ later, expandMove ctx id cost search move = .ok later →
        later.queuePushes ≤ search.queuePushes + 1 ∧
          later.stateExpansions = search.stateExpansions) ∧
      ∀ result, expandMove ctx id cost search move = .error (.returned result) →
        result.status = .budgetExceeded →
          ctx.options.budget.maxQueuePushes ≤ search.queuePushes := by
  rcases expandMove_cases hvalid hcoherent hmove search with ⟨-, hstep⟩ |
    ⟨destination, -, ⟨-, diagnostic, hstep⟩ | ⟨-, hstep⟩⟩
  · rw [hstep]
    refine ⟨fun later h ↦ ?_, fun result h ↦ by cases h⟩
    obtain rfl := Except.ok.inj h
    exact ⟨Nat.le_succ _, rfl⟩
  · rw [hstep]
    refine ⟨fun later h ↦ ?_, fun result h hstatus ↦ ?_⟩
    · cases h
    · obtain rfl := RouteSearchExit.returned.inj (Except.error.inj h)
      cases hstatus
  · rw [hstep]
    rcases relaxTo_cases ctx search destination ((moves ctx).extend move cost) (move.predecessor id)
      with ⟨-, hrelax⟩ | ⟨-, -, ⟨hrelax, -⟩ | ⟨hfull, hrelax⟩⟩
    · rw [hrelax]
      refine ⟨fun later h ↦ ?_, fun result h ↦ by cases h⟩
      obtain rfl := Except.ok.inj h
      exact ⟨Nat.le_succ _, rfl⟩
    · rw [hrelax]
      refine ⟨fun later h ↦ ?_, fun result h ↦ by cases h⟩
      obtain rfl := Except.ok.inj h
      exact ⟨le_rfl, rfl⟩
    · refine ⟨fun later h ↦ ?_, fun _ _ _ ↦ hfull⟩
      rw [hrelax] at h
      cases h

/-- The moves of an expansion push at most once each. -/
theorem foldlM_counts (hvalid : ctx.Valid) {id : ℕ} {cost : Cost}
    (hcoherent : Coherent ctx id cost) {rest : List Move}
    (hrest : ∀ move ∈ rest, move ∈ allMoves ctx) (search : Search) :
    (∀ later, rest.foldlM (expandMove ctx id cost) search = .ok later →
        later.queuePushes ≤ search.queuePushes + rest.length ∧
          later.stateExpansions = search.stateExpansions) ∧
      ∀ result, rest.foldlM (expandMove ctx id cost) search = .error (.returned result) →
        result.status = .budgetExceeded →
          ctx.options.budget.maxQueuePushes < search.queuePushes + rest.length := by
  induction rest generalizing search with
  | nil =>
    refine ⟨fun later h ↦ ?_, fun result h ↦ by cases h⟩
    obtain rfl := Except.ok.inj h
    exact ⟨le_rfl, rfl⟩
  | cons move rest ih =>
    rw [List.forall_mem_cons] at hrest
    obtain ⟨hok, herror⟩ := expandMove_counts hvalid hcoherent hrest.1 search
    rw [List.foldlM_cons, List.length_cons]
    constructor
    · intro later h
      obtain ⟨next, hstep, hlater⟩ := Scan.bind_eq_ok.mp h
      obtain ⟨hpushes, hexpansions⟩ := hok next hstep
      obtain ⟨hpushes', hexpansions'⟩ := (ih hrest.2 next).1 later hlater
      exact ⟨by omega, hexpansions'.trans hexpansions⟩
    · intro result h hstatus
      rcases Scan.bind_eq_error.mp h with hstep | ⟨next, hstep, hfail⟩
      · have hfull := herror result hstep hstatus
        omega
      · have hpushes := (hok next hstep).1
        have hfull := (ih hrest.2 next).2 result hfail hstatus
        omega

theorem length_allMoves_le (ctx : Context) : (allMoves ctx).length ≤ 5 := by
  rw [allMoves]
  split
  · exact le_rfl
  · exact Nat.le_succ 4

/-! ## The loop -/

/-- An expansion keeps the counters. -/
theorem Counted.expand (hvalid : ctx.Valid) {search later : Search} (h : Counted ctx search)
    {entry : QueueEntry} {queue : List QueueEntry} (hpops : search.Pops entry queue)
    (hexpand : ModuloRouteSearch.expand ctx (search.visit entry.state queue) entry.state entry.cost
      = .ok later) :
    Counted ctx later ∧
      later.outstanding ctx = (search.visit entry.state queue).outstanding ctx := by
  have hexpands := h.toGrowing.visit_expand hvalid hpops hexpand
  have hcoherent := h.coherent hvalid (h.labelled_of_pops hpops)
  rw [← hpops.current] at hcoherent
  rw [expand_eq] at hexpand
  obtain ⟨hpushes, hexpansions⟩ := (foldlM_counts hvalid hcoherent (fun _ hmove ↦ hmove)
    (search.visit entry.state queue)).1 later hexpand
  have hmoves := length_allMoves_le ctx
  have hcounted := h.pushes
  have hvisit : (search.visit entry.state queue).stateExpansions = search.stateExpansions + 1 := rfl
  have hqueue : (search.visit entry.state queue).queuePushes = search.queuePushes := rfl
  refine ⟨⟨hexpands.growing, ?_, ?_⟩, hexpands.outstanding⟩
  · rw [Search.settledStates, hexpands.finalized, hexpansions, hvisit]
    exact h.card_visit hvalid hpops
  · omega

theorem counted_started : Counted ctx (Search.started ctx) where
  toGrowing := growing_started
  expansions := Nat.zero_le _
  pushes := le_rfl

/-- **A budget that covers every state is not exhausted.** -/
theorem searchLoop_ne_budgetExceeded (hvalid : ctx.Valid) (haffords : ctx.Affords) {fuel : ℕ}
    {search : Search} (h : Counted ctx search) (hfuel : search.outstanding ctx < fuel)
    {result : RouteSearchResult} (hresult : searchLoop ctx fuel search = .ok result ∨
      searchLoop ctx fuel search = .error (.returned result)) :
    result.status ≠ .budgetExceeded := by
  have hexpansions := haffords.expansions
  have hbudget := haffords.pushes
  obtain ⟨last, hcounted, hends⟩ := @searchLoop_ends ctx (Counted ctx)
    (fun hcounted hqueue _ ↦ ⟨hcounted.toGrowing.stale hqueue, hcounted.expansions,
      hcounted.pushes⟩)
    (fun hcounted hpops _ hexpand ↦ hcounted.expand hvalid hpops hexpand) fuel search h hfuel
  generalize searchLoop ctx fuel search = r at hends hresult
  rcases hends with hqueue | ⟨hpops, htile⟩ | ⟨hpops, hstop⟩ | @⟨entry, queue, exit, hpops, -,
    hfail⟩
  · rcases hresult with hresult | hresult
    · rw [← Except.ok.inj hresult]
      exact RouteSearchStatus.noConfusion
    · cases hresult
  · intro hstatus
    rw [success] at hresult
    rcases hplan : reconstruct ctx _ _ with exit | plan
    · obtain ⟨diagnostics, rfl⟩ := reconstruct_givesUp hvalid exit hplan
      rw [hplan] at hresult
      rcases hresult with hresult | hresult
      · cases hresult
      · rw [← RouteSearchExit.returned.inj (Except.error.inj hresult)] at hstatus
        cases hstatus
    · rw [hplan] at hresult
      rcases hresult with hresult | hresult
      · rw [← Except.ok.inj hresult] at hstatus
        cases hstatus
      · cases hresult
  · have hlt := hcounted.expansions_lt hvalid hpops
    omega
  · intro hstatus
    have hlt := hcounted.expansions_lt hvalid hpops
    have hcoherent := hcounted.coherent hvalid (hcounted.labelled_of_pops hpops)
    rw [← hpops.current] at hcoherent
    rw [expand_eq] at hfail
    rcases hresult with hresult | hresult
    · cases hresult
    · rw [Except.error.inj hresult] at hfail
      have hfull := (foldlM_counts hvalid hcoherent (fun _ hmove ↦ hmove)
        (last.visit entry.state queue)).2 result hfail hstatus
      have hmoves := length_allMoves_le ctx
      have hpushes := hcounted.pushes
      have hqueue : (last.visit entry.state queue).queuePushes = last.queuePushes := rfl
      omega

theorem searchFrom_ne_budgetExceeded (hvalid : ctx.Valid) (haffords : ctx.Affords)
    (hapart : ctx.request.producer.tile ≠ ctx.request.consumer.tile) {result : RouteSearchResult}
    (hresult : searchFrom ctx = .ok result ∨ searchFrom ctx = .error (.returned result)) :
    result.status ≠ .budgetExceeded := by
  rcases searchFrom_cases hvalid with ⟨-, other, hstatus, hother⟩ | ⟨hnone, -⟩ | ⟨hfuel, hloop⟩
  · rw [hother] at hresult
    rcases hresult with hresult | hresult
    · rw [← Except.ok.inj hresult, hstatus]
      exact RouteSearchStatus.noConfusion
    · cases hresult
  · have hpushes := haffords.pushes
    omega
  · rw [hloop, if_neg hapart] at hresult
    exact searchLoop_ne_budgetExceeded hvalid haffords counted_started hfuel hresult

end ModuloRouteSearch

end PredicatedMesh
