import PredicatedMesh.Mapping.ResourceIds
import PredicatedMesh.Mapping.TransportAcceptance

/-!
# Route search is exact

A search that is not cut short by its budget settles the states in the order of their costs, so the
first consumer state that comes up has the least cost of all walks to the consumer, and when the
queue runs empty there is no such walk. `Searching` is the invariant of the loop: the labels are a
frontier, every unsettled label has its entry in the queue, and the queue is in order.

The numbers of the search fit as long as its resources can be numbered in 32 bits. A branch has
fewer moves than there are states, so no cost of the search leaves its type; and since no state
occurs twice on a branch, no link resource does. What does not always fit is the separation of the
plan: a walk may take longer than a plan can say, and then the search gives up.
-/

namespace PredicatedMesh

namespace ModuloRouteSearch

variable {ctx : Context}

/-! ## Numbers -/

/-- The numbers of a context fit their types. -/
structure Context.Fits (ctx : Context) : Prop extends ctx.Valid where
  resources_lt : ctx.resources.resourceCount < 2 ^ 32
  ready_lt : ctx.producerReady < 2 ^ 32
  hopLatency_lt : ctx.hopLatency < 2 ^ 32

/-- The states of the search. -/
def Context.states (ctx : Context) : ℕ :=
  ctx.target.array.rows * ctx.target.array.cols * ctx.resources.ii

theorem Context.Fits.states_lt (h : ctx.Fits) : ctx.states < 2 ^ 32 := by
  have hle := @ModuloResourceModel.mul_le_resourceCount ctx.resources
  rw [h.sameTarget, Nat.mul_comm] at hle
  exact hle.trans_lt h.resources_lt

theorem Context.Fits.stateCount_eq (h : ctx.Fits) : stateCount ctx = ctx.states := by
  have hlt := h.states_lt
  rw [stateCount, ← Context.states, Nat.mod_eq_of_lt]
  omega

theorem stateId_lt {tile : TileCoord} (htile : OnArray ctx.target tile) {slot : ℕ}
    (hslot : slot < ctx.resources.ii) : stateId ctx ⟨tile, slot⟩ < ctx.states := by
  obtain ⟨hrow, hcol⟩ := htile
  have hrows : slot * ctx.target.array.rows + tile.row
      < ctx.resources.ii * ctx.target.array.rows := by
    calc slot * ctx.target.array.rows + tile.row
        < (slot + 1) * ctx.target.array.rows := by
          rw [Nat.succ_mul]
          omega
      _ ≤ ctx.resources.ii * ctx.target.array.rows := Nat.mul_le_mul_right _ hslot
  calc (slot * ctx.target.array.rows + tile.row) * ctx.target.array.cols + tile.col
      < (slot * ctx.target.array.rows + tile.row + 1) * ctx.target.array.cols := by
        rw [Nat.succ_mul]
        omega
    _ ≤ ctx.resources.ii * ctx.target.array.rows * ctx.target.array.cols :=
        Nat.mul_le_mul_right _ hrows
    _ = ctx.states := by
        rw [Context.states]
        ring

theorem stateId_stateFor (id : ℕ) : stateId ctx (stateFor ctx id) = id := by
  simp only [stateId, stateFor]
  rw [Nat.add_mul, Nat.add_assoc, Nat.mul_comm (_ / ctx.target.array.cols), Nat.div_add_mod,
    Nat.mul_assoc, Nat.mul_comm, Nat.div_add_mod]

theorem stateFor_injective : Function.Injective (stateFor ctx) :=
  Function.LeftInverse.injective stateId_stateFor

theorem next_lt (hvalid : ctx.Valid) {id t : ℕ} {move : Move}
    (h : (moves ctx).next id move = some t) : t < ctx.states := by
  have hpos : 0 < ctx.resources.ii := Nat.zero_lt_of_lt hvalid.slot_lt
  cases move with
  | link direction =>
    obtain ⟨nextTile, resource, hneighbor, -, -, rfl⟩ := next_link_eq_some.mp h
    exact stateId_lt (onArray_of_neighbor hneighbor) (Nat.mod_lt _ hpos)
  | hold =>
    obtain ⟨-, rfl⟩ := next_hold_eq_some.mp h
    exact stateId_lt (hvalid.onArray_stateFor id) (Nat.mod_lt _ hpos)

theorem origin_lt (hvalid : ctx.Valid) : origin ctx < ctx.states :=
  stateId_lt hvalid.producer (Nat.mod_lt _ (Nat.zero_lt_of_lt hvalid.slot_lt))

/-- The cost of a walk counts its moves. -/
theorem Walk.cost {l : List Move} {id : ℕ} {cost : Cost} (h : Walk ctx l id cost) :
    cost.holds + cost.hops = l.length ∧
      cost.elapsed = ctx.producerReady + cost.holds + cost.hops * ctx.hopLatency := by
  induction h with
  | nil => simp [originCost]
  | @snoc l s t c move _ _ ih =>
    obtain ⟨hlength, helapsed⟩ := ih
    rw [List.length_append, List.length_singleton]
    cases move with
    | link direction =>
      simp only [moves, extend, helapsed, Nat.succ_mul]
      omega
    | hold =>
      simp only [moves, extend, helapsed]
      omega

/-- A cost that a label of the search can have. -/
def Bounded (ctx : Context) (cost : Cost) : Prop :=
  cost.holds + cost.hops < uint32Max ∧
    cost.elapsed = ctx.producerReady + cost.holds + cost.hops * ctx.hopLatency

/-- A bounded cost can be extended within its type, and stays below the cost no state has yet. -/
theorem Bounded.extend (hfits : ctx.Fits) {cost : Cost} (h : Bounded ctx cost) (move : Move) :
    ¬ Overflows ctx cost move ∧ (moves ctx).extend move cost < {} := by
  obtain ⟨hcount, helapsed⟩ := h
  have hready := hfits.ready_lt
  have hhop := hfits.hopLatency_lt
  have hmax : uint32Max = 2 ^ 32 - 1 := rfl
  have hmax' : uint64Max = 2 ^ 64 - 1 := rfl
  have hproduct : cost.hops * ctx.hopLatency ≤ cost.hops * (2 ^ 32 - 1) :=
    Nat.mul_le_mul_left _ (by omega)
  rw [Cost.lt_iff]
  cases move with
  | link direction =>
    simp only [Overflows, moves, ModuloRouteSearch.extend]
    omega
  | hold =>
    simp only [Overflows, moves, ModuloRouteSearch.extend]
    omega

theorem Growing.lt_states (hvalid : ctx.Valid) {search : Search} (h : Growing ctx search) {id : ℕ}
    (hid : Labelled ctx search id) : id < ctx.states := by
  by_cases horigin : id = origin ctx
  · rw [horigin]
    exact origin_lt hvalid
  · obtain ⟨s, move, cost, -, -, hnext, -⟩ :=
      h.tree.parent id _ horigin (labels_best_eq_some.mpr ⟨hid, rfl⟩)
    exact next_lt hvalid hnext

/-- A branch has fewer moves than there are states. -/
theorem Growing.length_lt (hvalid : ctx.Valid) {search : Search} (h : Growing ctx search)
    {l : List (ℕ × Move × ℕ)} {id : ℕ} (hid : Labelled ctx search id)
    (hbranch : ShortestPath.Branch (origin ctx) (labels ctx search) l id) :
    l.length < ctx.states := by
  have hbest := labels_best_eq_some.mpr ⟨hid, rfl⟩
  have hnodup := h.tree.nodup_of_branch hbranch hbest
  have hsubset : l.map Prod.fst ++ [id] ⊆ List.range ctx.states := by
    intro s hs
    rw [List.mem_range]
    rcases List.mem_append.mp hs with hs | hs
    · obtain ⟨step, hstep, rfl⟩ := List.mem_map.mp hs
      obtain ⟨-, -, cost, -, hlabel, -⟩ := (h.tree.of_branch hbranch hbest).2 step hstep
      exact h.lt_states hvalid (labels_best_eq_some.mp hlabel).1
    · obtain rfl := List.mem_singleton.mp hs
      exact h.lt_states hvalid hid
  have hle := (List.subperm_of_subset hnodup hsubset).length_le
  rw [List.length_append, List.length_map, List.length_singleton, List.length_range] at hle
  exact hle

theorem Growing.bounded (hfits : ctx.Fits) {search : Search} (h : Growing ctx search) {id : ℕ}
    (hid : Labelled ctx search id) : Bounded ctx (search.best id) := by
  have hbest := labels_best_eq_some.mpr ⟨hid, rfl⟩
  obtain ⟨l, hbranch⟩ := h.tree.exists_branch hbest
  have hlength := h.length_lt hfits.toValid hid hbranch
  have hstates := hfits.states_lt
  obtain ⟨hcount, helapsed⟩ := Walk.cost (h.tree.of_branch hbranch hbest).1
  rw [List.length_map] at hcount
  refine ⟨?_, helapsed⟩
  have hmax : uint32Max = 2 ^ 32 - 1 := rfl
  omega

/-! ## The queue -/

/-- The order of the queue, by cost first. -/
def QueueEntry.key (entry : QueueEntry) : Cost ×ₗ ℕ ×ₗ ℕ :=
  toLex (entry.cost, toLex (entry.state, entry.sequence))

theorem QueueEntry.notAfter_iff {a b : QueueEntry} : a.notAfter b = true ↔ a.key ≤ b.key := by
  rw [QueueEntry.key, QueueEntry.key, Prod.Lex.toLex_le_toLex, Prod.Lex.toLex_le_toLex,
    QueueEntry.notAfter]
  by_cases hcost : a.cost = b.cost
  · rw [if_neg (not_not.mpr hcost)]
    by_cases hstate : a.state = b.state
    · simp [hcost, hstate]
    · simp [hcost, hstate, Nat.lt_iff_le_and_ne]
  · rw [if_pos hcost, Bool.not_eq_true', ← Bool.not_eq_true, Cost.before_iff, not_lt]
    simp [hcost, lt_iff_le_and_ne]

theorem QueueEntry.cost_le {a b : QueueEntry} (h : a.notAfter b = true) : a.cost ≤ b.cost := by
  rw [QueueEntry.notAfter_iff, QueueEntry.key, QueueEntry.key, Prod.Lex.toLex_le_toLex] at h
  rcases h with hlt | ⟨heq, -⟩
  · exact hlt.le
  · exact heq.le

/-- The queue covers what is labelled and not settled, in order. What is not labelled has the cost
no state has yet. -/
structure Orderly (ctx : Context) (search : Search) : Prop extends Growing ctx search where
  fresh : ∀ id, ¬ Labelled ctx search id → search.best id = {}
  covered : ∀ id, Labelled ctx search id → search.finalized id = false →
    ∃ entry ∈ search.queue, entry.state = id ∧ entry.cost = search.best id
  sorted : search.queue.Pairwise fun a b ↦ a.notAfter b = true

theorem pairwise_orderedInsert {queue : List QueueEntry} (entry : QueueEntry)
    (h : queue.Pairwise fun a b ↦ a.notAfter b = true) :
    (queue.orderedInsert (fun a b ↦ a.notAfter b = true) entry).Pairwise
      fun a b ↦ a.notAfter b = true := by
  have : Std.Total fun a b : QueueEntry ↦ a.notAfter b = true := by
    refine ⟨fun a b ↦ ?_⟩
    rw [QueueEntry.notAfter_iff, QueueEntry.notAfter_iff]
    exact le_total _ _
  have : IsTrans QueueEntry fun a b ↦ a.notAfter b = true := by
    refine ⟨fun a b c hab hbc ↦ ?_⟩
    rw [QueueEntry.notAfter_iff] at hab hbc ⊢
    exact hab.trans hbc
  exact h.orderedInsert entry queue

theorem Orderly.relabel {search : Search} (h : Orderly ctx search) {u destination : ℕ} {move : Move}
    (hsettled : search.finalized u = true) (hu : Labelled ctx search u)
    (hnext : (moves ctx).next u move = some destination)
    (hdestination : search.finalized destination = false)
    (hlt : (moves ctx).extend move (search.best u) < search.best destination) :
    Orderly ctx (search.relabel destination ((moves ctx).extend move (search.best u))
      (move.predecessor u)) where
  toGrowing := h.toGrowing.relabel hsettled hu hnext hdestination hlt
  fresh id hid := by
    rw [labelled_relabel, not_or] at hid
    rw [Search.relabel_best, Function.update_of_ne hid.1]
    exact h.fresh id hid.2
  covered id hid hopen := by
    by_cases hsame : id = destination
    · refine ⟨_, Search.mem_relabel_queue.mpr (.inl rfl), hsame.symm, ?_⟩
      rw [Search.relabel_best, hsame, Function.update_self]
    · rcases labelled_relabel.mp hid with hsame' | hid
      · exact absurd hsame' hsame
      · obtain ⟨entry, hentry, hstate, hcost⟩ := h.covered id hid hopen
        refine ⟨entry, Search.mem_relabel_queue.mpr (.inr hentry), hstate, ?_⟩
        rw [Search.relabel_best, Function.update_of_ne hsame, hcost]
  sorted := pairwise_orderedInsert _ h.sorted

/-! ## One expansion -/

/-- A settled state is expanded, and these of its moves are still to be made. -/
structure Expanding (ctx : Context) (id : ℕ) (cost : Cost) (rest : List Move) (search : Search) :
    Prop extends Orderly ctx search where
  settled : search.finalized id = true
  labelled : Labelled ctx search id
  best_eq : search.best id = cost
  frontier : ShortestPath.Frontier (moves ctx) (origin ctx) (originCost ctx) (labels ctx search)
    cost fun s move ↦ s = id ∧ move ∈ rest

namespace Expanding

variable {search later : Search} {id : ℕ} {cost : Cost} {move : Move} {rest : List Move}

theorem level_eq (h : Expanding ctx id cost rest search) :
    (labels ctx search).best id = some cost :=
  labels_best_eq_some.mpr ⟨h.labelled, h.best_eq⟩

/-- A move that improves nothing. -/
theorem skip (h : Expanding ctx id cost (move :: rest) search)
    (hclosed : ∀ t, (moves ctx).next id move = some t →
      ∃ d ≤ (moves ctx).extend move cost, (labels ctx search).best t = some d) :
    Expanding ctx id cost rest search where
  toOrderly := h.toOrderly
  settled := h.settled
  labelled := h.labelled
  best_eq := h.best_eq
  frontier := by
    refine (h.frontier.skip h.level_eq hclosed).mono ?_
    rintro s a ⟨⟨hs, ha⟩, hne⟩
    refine ⟨hs, (List.mem_cons.mp ha).resolve_left fun heq ↦ hne ⟨hs, heq⟩⟩

/-- A move that improves an unsettled state. -/
theorem relabel (h : Expanding ctx id cost (move :: rest) search) {destination : ℕ}
    (hnext : (moves ctx).next id move = some destination)
    (hopen : search.finalized destination = false)
    (hlt : (moves ctx).extend move cost < search.best destination) :
    Expanding ctx id cost rest
      (search.relabel destination ((moves ctx).extend move cost) (move.predecessor id)) := by
  have hne : id ≠ destination := by
    rintro rfl
    rw [h.settled] at hopen
    cases hopen
  have horderly : Orderly ctx
      (search.relabel destination ((moves ctx).extend move cost) (move.predecessor id)) := by
    have hlt' := hlt
    rw [← h.best_eq] at hlt' ⊢
    exact h.toOrderly.relabel h.settled h.labelled hnext hopen hlt'
  refine ⟨horderly, h.settled, labelled_relabel.mpr (.inr h.labelled), ?_, ?_⟩
  · rw [Search.relabel_best, Function.update_of_ne hne, h.best_eq]
  · have hrelaxed := @ShortestPath.Frontier.relax ℕ Move Cost _ (moves ctx) (origin ctx)
      (originCost ctx) (labels ctx search) cost _ _ h.frontier
      (labels ctx (search.relabel destination ((moves ctx).extend move cost) (move.predecessor id)))
      id destination move rfl ?_ ?_ ?_ ?_ h.settled h.level_eq ?_ hnext ?_
    · refine hrelaxed.mono ?_
      rintro s a ⟨⟨hs, ha⟩, hother⟩
      exact ⟨hs, (List.mem_cons.mp ha).resolve_left fun heq ↦ hother ⟨hs, heq⟩⟩
    · exact labels_best_eq_some.mpr
        ⟨labelled_relabel.mpr (.inl rfl), Function.update_self _ _ _⟩
    · intro s hs
      simp only [labels, labelled_relabel, hs, false_or, Search.relabel_best,
        Function.update_of_ne hs]
    · simp [labels]
    · intro s hs
      simp only [labels, Search.relabel_predecessors, Function.update_of_ne hs]
    · simp [labels, hopen]
    · intro d hd
      rw [← (labels_best_eq_some.mp hd).2]
      exact hlt

/-- **One move of an expansion.** -/
theorem step (hfits : ctx.Fits) (h : Expanding ctx id cost (move :: rest) search)
    (hmove : move ∈ allMoves ctx) (hstep : expandMove ctx id cost search move = .ok later) :
    Expanding ctx id cost rest later ∧ later.finalized = search.finalized ∧
      later.outstanding ctx = search.outstanding ctx := by
  have hcoherent := h.toGrowing.coherent hfits.toValid h.labelled
  have hbounded := h.toGrowing.bounded hfits h.labelled
  rw [h.best_eq] at hcoherent hbounded
  obtain ⟨hroom, hbelow⟩ := hbounded.extend hfits move
  rcases expandMove_cases hfits.toValid hcoherent hmove search with ⟨hnone, hkeep⟩ |
    ⟨destination, hnext, ⟨hover, -⟩ | ⟨-, hrelax⟩⟩
  · obtain rfl := Except.ok.inj (hkeep.symm.trans hstep)
    refine ⟨h.skip fun t ht ↦ ?_, rfl, rfl⟩
    rw [hnone] at ht
    cases ht
  · exact absurd hover hroom
  · rw [hrelax] at hstep
    rcases relaxTo_cases ctx search destination ((moves ctx).extend move cost) (move.predecessor id)
      with ⟨hdone, hkeep⟩ | ⟨hopen, hlt, ⟨hrelabel, hcount⟩ | ⟨-, herror⟩⟩
    · obtain rfl := Except.ok.inj (hkeep.symm.trans hstep)
      refine ⟨h.skip fun t ht ↦ ?_, rfl, rfl⟩
      obtain rfl := Option.some.inj (hnext.symm.trans ht)
      rcases hdone with hsettled | hle
      · obtain ⟨d, hd, hbest⟩ := h.frontier.settled_le destination hsettled
        exact ⟨d, hd.trans ((moves ctx).lt_extend move cost).le, hbest⟩
      · -- a state with a smaller cost than the cost no state has yet is labelled
        have hlabelled : Labelled ctx search destination := by
          by_contra hnot
          rw [h.fresh destination hnot] at hle
          exact absurd hbelow (not_lt.mpr hle)
        exact ⟨_, hle, labels_best_eq_some.mpr ⟨hlabelled, rfl⟩⟩
    · obtain rfl := Except.ok.inj (hrelabel.symm.trans hstep)
      exact ⟨h.relabel hnext hopen hlt, rfl, hcount⟩
    · cases herror.symm.trans hstep

/-- All moves of an expansion. -/
theorem run (hfits : ctx.Fits) (h : Expanding ctx id cost rest search)
    (hrest : ∀ move ∈ rest, move ∈ allMoves ctx)
    (hrun : rest.foldlM (expandMove ctx id cost) search = .ok later) :
    Expanding ctx id cost [] later ∧ later.finalized = search.finalized ∧
      later.outstanding ctx = search.outstanding ctx := by
  induction rest generalizing search with
  | nil =>
    obtain rfl := Except.ok.inj hrun
    exact ⟨h, rfl, rfl⟩
  | cons move rest ih =>
    obtain ⟨next, hstep, hrun⟩ := Scan.foldlM_cons_eq_ok.mp hrun
    rw [List.forall_mem_cons] at hrest
    obtain ⟨hnext, hfinalized, hcount⟩ := h.step hfits hrest.1 hstep
    obtain ⟨hlater, hfinalized', hcount'⟩ := ih hnext hrest.2 hrun
    exact ⟨hlater, hfinalized'.trans hfinalized, hcount'.trans hcount⟩

end Expanding

/-! ## The loop -/

/-- The invariant of the loop: the labels are a frontier, and no state of the consumer is settled.
-/
structure Searching (ctx : Context) (search : Search) : Prop extends Orderly ctx search where
  frontier : ∃ level, ShortestPath.Frontier (moves ctx) (origin ctx) (originCost ctx)
    (labels ctx search) level fun _ _ ↦ False
  away : ∀ id, search.finalized id = true →
    (stateFor ctx id).tile ≠ ctx.request.consumer.tile

namespace Searching

variable {search later : Search} {entry : QueueEntry} {queue : List QueueEntry}

/-- The next entry has the least cost of all states that are not settled. -/
theorem minimal (h : Searching ctx search) (hpops : search.Pops entry queue) {id : ℕ} {cost : Cost}
    (hopen : ¬ (labels ctx search).settled id) (hcost : (labels ctx search).best id = some cost) :
    entry.cost ≤ cost := by
  obtain ⟨hid, rfl⟩ := labels_best_eq_some.mp hcost
  obtain ⟨other, hother, -, hbest⟩ := h.covered id hid (Bool.not_eq_true _ ▸ hopen)
  rw [← hbest]
  have hsorted := h.sorted
  rw [hpops.queue_eq] at hother hsorted
  rcases List.mem_cons.mp hother with rfl | hother
  · exact le_rfl
  · exact QueueEntry.cost_le ((List.pairwise_cons.mp hsorted).1 other hother)

theorem stale (h : Searching ctx search) (hqueue : search.queue = entry :: queue)
    (hold : search.finalized entry.state = true ∨ entry.cost ≠ search.best entry.state) :
    Searching ctx { search with queue := queue } where
  toGrowing := h.toGrowing.stale hqueue
  fresh := h.fresh
  covered id hid hopen := by
    obtain ⟨other, hother, hstate, hcost⟩ := h.covered id hid hopen
    refine ⟨other, ?_, hstate, hcost⟩
    rw [hqueue] at hother
    rcases List.mem_cons.mp hother with rfl | hother
    · rcases hold with hsettled | hne
      · rw [hstate] at hsettled
        rw [show search.finalized id = false from hopen] at hsettled
        cases hsettled
      · rw [hstate] at hne
        exact absurd hcost hne
    · exact hother
  sorted := by
    have hsorted := h.sorted
    rw [hqueue] at hsorted
    exact (List.pairwise_cons.mp hsorted).2
  frontier := h.frontier
  away := h.away

/-- Settling the state that comes up starts its expansion. -/
theorem visit (h : Searching ctx search) (hpops : search.Pops entry queue) :
    Expanding ctx entry.state entry.cost (allMoves ctx) (search.visit entry.state queue) := by
  have hgrowing := h.toGrowing.settle hpops.queue_eq
  have hlabelled := h.toGrowing.labelled_of_pops hpops
  have hsettled : ∀ s, (labels ctx (search.visit entry.state queue)).settled s ↔
      (labels ctx search).settled s ∨ s = entry.state := by
    intro s
    simp only [labels, Search.visit, Search.settle]
    by_cases hs : s = entry.state
    · subst hs
      simp
    · simp [hs]
  have hopen : ¬ (labels ctx search).settled entry.state := by
    simp only [labels, hpops.unsettled]
    exact Bool.false_ne_true
  refine ⟨⟨⟨hgrowing.tree, hgrowing.queued⟩, h.fresh, ?_, ?_⟩, Function.update_self _ _ _,
    hlabelled, hpops.current.symm, ?_⟩
  · intro id hid hnot
    have hne : id ≠ entry.state := by
      rintro rfl
      rw [Search.visit, Search.settle] at hnot
      simp only [Function.update_self] at hnot
      cases hnot
    have hnot' : search.finalized id = false := (Function.update_of_ne hne _ _).symm.trans hnot
    obtain ⟨other, hother, hstate, hcost⟩ := h.covered id hid hnot'
    refine ⟨other, ?_, hstate, hcost⟩
    rw [hpops.queue_eq] at hother
    rcases List.mem_cons.mp hother with rfl | hother
    · exact absurd hstate.symm hne
    · exact hother
  · have hsorted := h.sorted
    rw [hpops.queue_eq] at hsorted
    exact (List.pairwise_cons.mp hsorted).2
  · obtain ⟨level, hfrontier⟩ := h.frontier
    have hbest : (labels ctx search).best entry.state = some entry.cost :=
      labels_best_eq_some.mpr ⟨hlabelled, hpops.current.symm⟩
    have hnext : ShortestPath.Frontier (moves ctx) (origin ctx) (originCost ctx)
        (labels ctx (search.visit entry.state queue)) entry.cost fun s _ ↦ s = entry.state :=
      hfrontier.settle rfl rfl hsettled hopen hbest fun s d hs hd ↦ h.minimal hpops hs hd
    refine { hnext with closed := fun s a t d hs hw hmove hd ↦ ?_ }
    refine hnext.closed s a t d hs (fun heq ↦ hw ⟨heq, mem_allMoves.mpr ?_⟩) hmove hd
    rintro rfl
    exact (next_hold_eq_some.mp hmove).1

/-- An iteration that expands a state away from the consumer. -/
theorem expand (hfits : ctx.Fits) (h : Searching ctx search) (hpops : search.Pops entry queue)
    (htile : (stateFor ctx entry.state).tile ≠ ctx.request.consumer.tile)
    (hexpand : ModuloRouteSearch.expand ctx (search.visit entry.state queue) entry.state entry.cost
      = .ok later) :
    Searching ctx later ∧
      later.outstanding ctx = (search.visit entry.state queue).outstanding ctx := by
  rw [expand_eq] at hexpand
  obtain ⟨hlater, hfinalized, hcount⟩ := (h.visit hpops).run hfits (fun _ hmove ↦ hmove) hexpand
  refine ⟨⟨hlater.toOrderly, ⟨_, hlater.frontier.mono fun s a hw ↦ ?_⟩, fun id hid ↦ ?_⟩, hcount⟩
  · exact absurd hw.2 List.not_mem_nil
  · rw [hfinalized, Search.visit, Search.settle] at hid
    by_cases hsame : id = entry.state
    · rw [hsame]
      exact htile
    · exact h.away id ((Function.update_of_ne hsame _ _).symm.trans hid)

theorem started : Searching ctx (Search.started ctx) where
  toGrowing := growing_started
  fresh id hid := Function.update_of_ne (fun h ↦ hid (labelled_started.mpr h)) _ _
  covered id hid _ := by
    obtain rfl := labelled_started.mp hid
    refine ⟨⟨originCost ctx, origin ctx, 0⟩, List.mem_singleton_self _, rfl, ?_⟩
    exact (Function.update_self (origin ctx) (originCost ctx) Search.initial.best).symm
  sorted := List.pairwise_singleton _ _
  frontier := by
    refine ⟨originCost ctx, .initially growing_started.tree.root ?_ fun s ↦ Bool.false_ne_true⟩
    exact fun s c hs ↦ labelled_started.mp (labels_best_eq_some.mp hs).1
  away id hid := absurd hid Bool.false_ne_true

/-- What the loop ends with. -/
theorem ends (hfits : ctx.Fits) {fuel : ℕ} (h : Searching ctx search)
    (hfuel : search.outstanding ctx < fuel) :
    ∃ last, Searching ctx last ∧ Ends ctx last (searchLoop ctx fuel search) :=
  searchLoop_ends (fun hsearching hqueue hold ↦ hsearching.stale hqueue hold)
    (fun hsearching hpops htile hexpand ↦ hsearching.expand hfits hpops htile hexpand) h hfuel

/-- The queue runs empty when there is no walk to the consumer. -/
theorem not_walk (h : Searching ctx search) (hqueue : search.queue = []) {l : List Move} {id : ℕ}
    {cost : Cost} (hwalk : Walk ctx l id cost) :
    (stateFor ctx id).tile ≠ ctx.request.consumer.tile := by
  obtain ⟨level, hfrontier⟩ := h.frontier
  apply h.away
  refine hfrontier.settled_of_walk (fun s c hs ↦ ?_) hwalk
  by_contra hopen
  obtain ⟨hlabelled, -⟩ := labels_best_eq_some.mp hs
  obtain ⟨entry, hentry, -⟩ := h.covered s hlabelled (Bool.not_eq_true _ ▸ hopen)
  rw [hqueue] at hentry
  exact List.not_mem_nil hentry

/-- A consumer state that comes up has the least cost of all walks to the consumer. -/
theorem le_of_walk (h : Searching ctx search) (hpops : search.Pops entry queue) {l : List Move}
    {id : ℕ} {cost : Cost} (hwalk : Walk ctx l id cost)
    (htile : (stateFor ctx id).tile = ctx.request.consumer.tile) : entry.cost ≤ cost := by
  obtain ⟨level, hfrontier⟩ := h.frontier
  exact hfrontier.le_of_walk (fun s c hopen hs ↦ h.minimal hpops hopen hs) hwalk
    fun hsettled ↦ h.away id hsettled htile

end Searching

/-! ## Reconstruction -/

/-- The walk back along a branch. -/
theorem chain_append {search : Search} (hfits : ctx.Fits) (h : Growing ctx search)
    {l : List (ℕ × Move × ℕ)} {t : ℕ}
    (hbranch : ShortestPath.Branch (origin ctx) (labels ctx search) l t)
    (ht : Labelled ctx search t) {fuel : ℕ} {collected : List (ℕ × Predecessor)}
    (hfuel : l.length < fuel) (hroom : l.length + collected.length ≤ ctx.states) :
    chain ctx search (origin ctx) fuel t collected = .ok (l.map search.entry ++ collected) := by
  induction hbranch generalizing fuel collected with
  | nil =>
    obtain ⟨fuel, rfl⟩ := Nat.exists_eq_add_one.mpr hfuel
    rw [chain, if_pos rfl]
    rfl
  | @snoc l u t move _ hne hpred ih =>
    obtain ⟨_, _, cost, hpred', -, -, hbest, -⟩ :=
      h.tree.parent t _ hne (labels_best_eq_some.mpr ⟨ht, rfl⟩)
    obtain ⟨rfl, rfl⟩ := Prod.mk.inj (Option.some.inj (hpred.symm.trans hpred'))
    obtain ⟨hprevious, hlink, hhold⟩ := Predecessor.eq_of_move hpred
    have hkind : (search.predecessors t).kind ≠ .none := by
      cases move with
      | link direction =>
        rw [(hlink direction rfl).1]
        exact PredecessorKind.noConfusion
      | hold =>
        rw [hhold rfl]
        exact PredecessorKind.noConfusion
    rw [List.length_append, List.length_singleton] at hfuel hroom
    obtain ⟨fuel, rfl⟩ := Nat.exists_eq_add_one.mpr (Nat.zero_lt_of_lt hfuel)
    rw [chain, if_neg hne, if_neg, hprevious,
      ih (labels_best_eq_some.mp hbest).1 (by omega) (by rw [List.length_cons]; omega),
      List.map_append, List.append_assoc]
    · rfl
    · have hlt := h.lt_states hfits.toValid ht
      rw [hfits.stateCount_eq, not_or, not_or]
      exact ⟨by omega, hkind, by omega⟩

theorem chain_of_branch {search : Search} (hfits : ctx.Fits) (h : Growing ctx search)
    {l : List (ℕ × Move × ℕ)} {t : ℕ}
    (hbranch : ShortestPath.Branch (origin ctx) (labels ctx search) l t)
    (ht : Labelled ctx search t) :
    chain ctx search (origin ctx) (stateCount ctx + 2) t [] = .ok (l.map search.entry) := by
  have hlength := h.length_lt hfits.toValid ht hbranch
  have hchain := @chain_append ctx search hfits h l t hbranch ht (ctx.states + 2) [] (by omega)
    hlength.le
  rw [hfits.stateCount_eq, hchain, List.append_nil]

/-- The actions of a branch whose times fit. -/
theorem exists_actions {search : Search} (h : Growing ctx search) {l : List (ℕ × Move × ℕ)} {t : ℕ}
    (hbranch : ShortestPath.Branch (origin ctx) (labels ctx search) l t)
    (ht : Labelled ctx search t) (hfit : (search.best t).elapsed ≤ uint32Max) :
    ∃ actions, (l.map search.entry).foldlM (appendAction ctx search) [] = .ok actions := by
  induction hbranch with
  | nil => exact ⟨[], rfl⟩
  | @snoc l u t move _ hne hpred ih =>
    obtain ⟨_, _, cost, hpred', -, -, hbest, hcost⟩ :=
      h.tree.parent t _ hne (labels_best_eq_some.mpr ⟨ht, rfl⟩)
    obtain ⟨rfl, rfl⟩ := Prod.mk.inj (Option.some.inj (hpred.symm.trans hpred'))
    obtain ⟨hu, rfl⟩ := labels_best_eq_some.mp hbest
    have hearlier : (search.best u).elapsed ≤ (search.best t).elapsed := by
      rw [← hcost]
      cases move with
      | link direction => exact Nat.le_add_right _ _
      | hold => exact Nat.le_succ _
    obtain ⟨actions, hactions⟩ := ih hu (hearlier.trans hfit)
    obtain ⟨hprevious, -⟩ := Predecessor.eq_of_move hpred
    have hstep : ∃ later, appendAction ctx search actions (search.entry (u, move, t))
        = .ok later := by
      rw [appendAction]
      simp only [Search.entry, hprevious]
      split
      · exact ⟨_, if_neg (by omega)⟩
      · exact ⟨_, if_neg (by omega)⟩
    obtain ⟨later, hlater⟩ := hstep
    refine ⟨later, ?_⟩
    rw [List.map_append, List.foldlM_append, hactions]
    exact Scan.foldlM_cons_eq_ok.mpr ⟨later, hlater, rfl⟩

/-- No link is taken twice on a branch, since no state is. -/
theorem nodup_links (hfits : ctx.Fits) {l : List (ℕ × Move × ℕ)}
    (h : (l.map Prod.fst).Nodup) : (l.filterMap (linkOf ctx)).Nodup := by
  rw [List.Nodup, List.pairwise_filterMap]
  rw [List.Nodup, List.pairwise_map] at h
  refine h.imp fun {a b} hne r hr r' hr' hsame ↦ hne ?_
  subst hsame
  apply @stateFor_injective ctx
  obtain ⟨s, move, t⟩ := a
  obtain ⟨s', move', t'⟩ := b
  cases move with
  | hold => cases hr
  | link direction =>
    cases move' with
    | hold => cases hr'
    | link direction' =>
      have heq := ModuloResourceModel.findResource_injective hfits.resources_lt.le
        (ModuloResourceModel.findResource_linkAt hr)
        (ModuloResourceModel.findResource_linkAt hr')
      injection heq with _ htile _ hslot
      change stateFor ctx s = stateFor ctx s'
      generalize stateFor ctx s = state at htile hslot
      generalize stateFor ctx s' = state' at htile hslot
      cases state
      cases state'
      congr

/-! ### What a plan costs -/

/-- The cycles an action waits. -/
def holdCycles : TransportAction → ℕ
  | .virtualHold hold => hold.releaseElapsed - hold.captureElapsed
  | .linkStep _ => 0

/-- The cycles a plan waits. -/
def resultHoldCycles (actions : List TransportAction) : ℕ := (actions.map holdCycles).sum

def isLink : TransportAction → Bool
  | .virtualHold _ => false
  | .linkStep _ => true

/-- The links a plan launches over. -/
def resultHopCount (actions : List TransportAction) : ℕ := actions.countP isLink

def planCost (plan : TransportPlan) : Cost :=
  ⟨plan.requiredSeparationCycles, resultHoldCycles plan.actions, resultHopCount plan.actions⟩

theorem cost_of_travels {model : ModuloResourceModel} {domain : NetworkDomain}
    {producer : NodePlacement} {ready elapsed : ℕ} {actions : List TransportAction}
    {resources : List ResourceId} {tile : TileCoord}
    (h : Travels model domain producer ready actions resources tile elapsed) :
    resultHopCount actions = resources.length ∧ elapsed = ready + resultHoldCycles actions
      + resultHopCount actions * (model.target.network domain).hopLatency := by
  induction h with
  | start => exact ⟨rfl, by simp [resultHoldCycles, resultHopCount]⟩
  | link _ _ _ ih =>
    obtain ⟨hhops, helapsed⟩ := ih
    rw [resultHopCount, List.countP_append, ← resultHopCount, resultHoldCycles, List.map_append,
      List.sum_append, ← resultHoldCycles, List.length_append, hhops]
    rw [hhops] at helapsed
    simp only [List.countP_singleton, isLink, if_true, List.map_cons, List.map_nil, holdCycles,
      List.sum_singleton, List.length_singleton, Nat.succ_mul]
    exact ⟨trivial, by omega⟩
  | hold _ hlt ih =>
    obtain ⟨hhops, helapsed⟩ := ih
    rw [resultHopCount, List.countP_append, ← resultHopCount, resultHoldCycles, List.map_append,
      List.sum_append, ← resultHoldCycles]
    simp only [List.countP_singleton, isLink, List.map_cons, List.map_nil, holdCycles,
      List.sum_singleton]
    exact ⟨hhops, by simp only [Bool.false_eq_true, if_false, Nat.add_zero]; omega⟩

/-- **A label whose time fits is a plan of its cost.** -/
theorem reconstruct_of_fit {search : Search} {goal : ℕ} (hfits : ctx.Fits)
    (h : Growing ctx search) (hgoal : Labelled ctx search goal)
    (htile : (stateFor ctx goal).tile = ctx.request.consumer.tile)
    (hapart : ctx.request.producer.tile ≠ ctx.request.consumer.tile)
    (hfit : (search.best goal).elapsed ≤ uint32Max) :
    ∃ plan resources, reconstruct ctx search goal = .ok plan ∧ Found ctx plan resources ∧
      planCost plan = search.best goal := by
  have hbest := labels_best_eq_some.mpr ⟨hgoal, rfl⟩
  obtain ⟨l, hbranch⟩ := h.tree.exists_branch hbest
  obtain ⟨actions, hactions⟩ := exists_actions h hbranch hgoal hfit
  obtain ⟨hfree, hhops, htravels⟩ := travels_of_branch hfits.toValid h hbranch hgoal hactions
  have hnodup : (l.filterMap (linkOf ctx)).Nodup :=
    nodup_links hfits (List.nodup_append.mp (h.tree.nodup_of_branch hbranch hbest)).1
  have hseen := (selfConflict_of_travels hfits.toValid htravels).mpr ⟨rfl, hnodup⟩
  have hchain := chain_of_branch hfits h hbranch hgoal
  refine ⟨⟨ctx.request.edge, ctx.domain, actions, (search.best goal).elapsed⟩,
    l.filterMap (linkOf ctx), ?_, ?_, ?_⟩
  · rw [reconstruct, startState_eq hfits.toValid]
    refine Scan.bind_eq_ok.mpr ⟨_, rfl, Scan.bind_eq_ok.mpr ⟨_, hchain, ?_⟩⟩
    refine Scan.bind_eq_ok.mpr ⟨actions, hactions, ?_⟩
    rw [if_neg (not_lt.mpr hfit)]
    exact Scan.bind_eq_ok.mpr ⟨_, hseen, rfl⟩
  · rw [htile] at htravels
    exact ⟨rfl, rfl, htravels, hnodup, hfree, fun hsame ↦ absurd hsame hapart⟩
  · obtain ⟨hcount, helapsed⟩ := cost_of_travels htravels
    obtain ⟨-, hwalk⟩ := Walk.cost (h.tree.of_branch hbranch hbest).1
    rw [hfits.sameTarget, hcount, hhops] at helapsed
    rw [Context.hopLatency] at hwalk
    rw [planCost, hcount, hhops]
    -- the two accounts of the time agree on everything but the waiting
    have hholds : resultHoldCycles actions = (search.best goal).holds := by omega
    rw [hholds]

/-- A label whose time does not fit is not reconstructed. -/
theorem reconstruct_of_too_long {search : Search} {goal : ℕ} (hfits : ctx.Fits)
    (h : Growing ctx search) (hgoal : Labelled ctx search goal)
    (hlong : uint32Max < (search.best goal).elapsed) :
    reconstruct ctx search goal = .error (notReconstructed ctx []) := by
  have hbest := labels_best_eq_some.mpr ⟨hgoal, rfl⟩
  obtain ⟨l, hbranch⟩ := h.tree.exists_branch hbest
  have hchain := chain_of_branch hfits h hbranch hgoal
  rw [reconstruct, startState_eq hfits.toValid]
  refine Scan.bind_eq_error.mpr (.inr ⟨_, rfl, Scan.bind_eq_error.mpr (.inr ⟨_, hchain, ?_⟩)⟩)
  rcases hactions : (l.map search.entry).foldlM (appendAction ctx search) []
    with exit | actions
  · obtain ⟨_, _, _, hstep⟩ := Scan.foldlM_eq_error hactions
    rw [appendAction_eq_error hstep]
    rfl
  · exact Scan.bind_eq_error.mpr (.inr ⟨_, rfl, if_pos hlong⟩)

end ModuloRouteSearch

end PredicatedMesh
