import PredicatedMesh.Library.ShortestPath
import PredicatedMesh.Mapping.Reservation
import PredicatedMesh.Mapping.RouteSearch

/-!
# The graph a route search walks

The states of a route search are numbers; behind a number stand a tile and a slot. From a state the
value moves over a free link or waits, and its cost grows in the lexicographic order of elapsed
time, holds and hops. This makes the routing of one dependence an instance of best-first search over
a graph with growing costs, and the tables of the search are labels of its states.

The source computes the slot at which a link is launched from the elapsed time and the slot of the
next state from the slot of this one. Both are the same slot, because a walk from the producer keeps
`Coherent` what it starts with. With this a step of the search is the move of the graph
(`expandMove_cases`), except where a cost would leave its machine type.

What the labels are good for needs no bound on the numbers: every label has its predecessor, whether
or not the search has seen everything (`Growing`). `searchLoop_ends` is the induction over a run.
-/

namespace PredicatedMesh

namespace ModuloRouteSearch

/-! ## Costs -/

/-- A cost, in the order in which costs are compared. -/
def Cost.key (cost : Cost) : ℕ ×ₗ ℕ ×ₗ ℕ := toLex (cost.elapsed, toLex (cost.holds, cost.hops))

theorem Cost.key_injective : Function.Injective Cost.key := by
  rintro ⟨elapsed, holds, hops⟩ ⟨elapsed', holds', hops'⟩ h
  obtain ⟨rfl, hrest⟩ := Prod.mk.inj (toLex.injective h)
  obtain ⟨rfl, rfl⟩ := Prod.mk.inj (toLex.injective hrest)
  rfl

instance : LinearOrder Cost := LinearOrder.lift' Cost.key Cost.key_injective

theorem Cost.lt_iff {a b : Cost} : a < b ↔ a.elapsed < b.elapsed ∨ a.elapsed = b.elapsed ∧
    (a.holds < b.holds ∨ a.holds = b.holds ∧ a.hops < b.hops) := by
  change a.key < b.key ↔ _
  rw [Cost.key, Cost.key, Prod.Lex.toLex_lt_toLex, Prod.Lex.toLex_lt_toLex]

theorem Cost.le_iff {a b : Cost} : a ≤ b ↔ a.elapsed < b.elapsed ∨ a.elapsed = b.elapsed ∧
    (a.holds < b.holds ∨ a.holds = b.holds ∧ a.hops ≤ b.hops) := by
  change a.key ≤ b.key ↔ _
  rw [Cost.key, Cost.key, Prod.Lex.toLex_le_toLex, Prod.Lex.toLex_le_toLex]

instance : WellFoundedLT Cost :=
  ⟨InvImage.wf Cost.key (wellFounded_lt (α := ℕ ×ₗ ℕ ×ₗ ℕ))⟩

theorem Cost.before_iff {a b : Cost} : a.before b = true ↔ a < b := by
  rw [Cost.before, Cost.lt_iff]
  split
  · simp only [decide_eq_true_eq]
    omega
  · split
    · simp only [decide_eq_true_eq]
      omega
    · simp only [decide_eq_true_eq]
      omega

/-! ## States -/

def OnArray (target : TargetModel) (tile : TileCoord) : Prop :=
  tile.row < target.array.rows ∧ tile.col < target.array.cols

/-- What the search relies on once its input is validated. -/
structure Context.Valid (ctx : Context) : Prop where
  sameTarget : ctx.resources.target = ctx.target
  producer : OnArray ctx.target ctx.request.producer.tile
  consumer : OnArray ctx.target ctx.request.consumer.tile
  slot_lt : ctx.request.producer.issueSlot < ctx.resources.ii
  known : ctx.reservations.owners.length = ctx.resources.resourceCount

section Graph

variable {ctx : Context}

theorem stateFor_stateId {tile : TileCoord} (htile : OnArray ctx.target tile) (slot : ℕ) :
    stateFor ctx (stateId ctx ⟨tile, slot⟩) = ⟨tile, slot⟩ := by
  obtain ⟨hrow, hcol⟩ := htile
  have hwithin : tile.row * ctx.target.array.cols + tile.col
      < ctx.target.array.rows * ctx.target.array.cols := by
    calc tile.row * ctx.target.array.cols + tile.col
        < tile.row * ctx.target.array.cols + ctx.target.array.cols := by omega
      _ = (tile.row + 1) * ctx.target.array.cols := (Nat.succ_mul _ _).symm
      _ ≤ ctx.target.array.rows * ctx.target.array.cols := Nat.mul_le_mul_right _ hrow
  have hid : stateId ctx ⟨tile, slot⟩ = tile.row * ctx.target.array.cols + tile.col
      + ctx.target.array.rows * ctx.target.array.cols * slot := by
    rw [stateId]
    ring
  have hpos : 0 < ctx.target.array.rows * ctx.target.array.cols := by omega
  have hcols : 0 < ctx.target.array.cols := by omega
  simp only [stateFor, hid, Nat.add_mul_mod_self_left, Nat.mod_eq_of_lt hwithin,
    Nat.add_mul_div_left _ _ hpos, Nat.div_eq_of_lt hwithin, Nat.zero_add]
  rw [Nat.mul_comm, Nat.mul_add_div hcols, Nat.div_eq_of_lt hcol, Nat.mul_add_mod,
    Nat.mod_eq_of_lt hcol, Nat.add_zero]

theorem Context.Valid.onArray_stateFor (hvalid : ctx.Valid) (id : ℕ) :
    OnArray ctx.target (stateFor ctx id).tile := by
  obtain ⟨hrow, hcol⟩ := hvalid.producer
  have hrows : 0 < ctx.target.array.rows := by omega
  have hcols : 0 < ctx.target.array.cols := by omega
  have hwithin := Nat.mod_lt id (Nat.mul_pos hrows hcols)
  exact ⟨Nat.div_lt_of_lt_mul (hwithin.trans_eq (Nat.mul_comm _ _)), Nat.mod_lt _ hcols⟩

theorem onArray_of_neighbor {target : TargetModel} {tile next : TileCoord} {direction : Direction}
    (h : target.neighbor tile direction = some next) : OnArray target next := by
  unfold TargetModel.neighbor PredicatedMesh.neighbor at h
  split at h
  · cases h
  · rename_i hin
    rw [Bool.or_eq_true, not_or, decide_eq_true_eq, decide_eq_true_eq] at hin
    cases direction with
    | north | south | east | west =>
      simp only at h
      split at h
      · cases h
      · obtain rfl := Option.some.inj h
        refine ⟨?_, ?_⟩
        all_goals
          simp only
          omega

/-! ## Moves -/

inductive Move
  | link (direction : Direction)
  | hold
  deriving DecidableEq, Repr

/-- Over a link that is free at the slot of the state, or on to the next slot. -/
def next (ctx : Context) (id : ℕ) : Move → Option ℕ
  | .link direction =>
    match ctx.target.neighbor (stateFor ctx id).tile direction,
        ctx.resources.linkAt ctx.domain (stateFor ctx id).tile direction
          (stateFor ctx id).slot with
    | some nextTile, some resource =>
      if ctx.reservations.owners[resource]? = some none then
        some (stateId ctx
          ⟨nextTile, ((stateFor ctx id).slot + ctx.hopLatency) % ctx.resources.ii⟩)
      else none
    | _, _ => none
  | .hold =>
    if ctx.options.allowVirtualHold then
      some (stateId ctx ⟨(stateFor ctx id).tile, ((stateFor ctx id).slot + 1) % ctx.resources.ii⟩)
    else none

def extend (ctx : Context) : Move → Cost → Cost
  | .link _, cost => ⟨cost.elapsed + ctx.hopLatency, cost.holds, cost.hops + 1⟩
  | .hold, cost => ⟨cost.elapsed + 1, cost.holds + 1, cost.hops⟩

/-- The routing of a dependence, as a graph with growing costs. -/
def moves (ctx : Context) : ShortestPath.Moves ℕ Move Cost where
  next := next ctx
  extend := extend ctx
  extend_mono move a b hle := by
    rw [Cost.le_iff] at hle ⊢
    cases move with
    | link direction =>
      simp only [extend]
      omega
    | hold =>
      simp only [extend]
      omega
  lt_extend move cost := by
    rw [Cost.lt_iff]
    cases move with
    | link direction =>
      simp only [extend, true_and]
      omega
    | hold =>
      simp only [extend]
      omega

theorem next_link_eq_some {id t : ℕ} {direction : Direction} :
    next ctx id (.link direction) = some t ↔ ∃ nextTile resource,
      ctx.target.neighbor (stateFor ctx id).tile direction = some nextTile ∧
      ctx.resources.linkAt ctx.domain (stateFor ctx id).tile direction
        (stateFor ctx id).slot = some resource ∧
      ctx.reservations.owners[resource]? = some none ∧
      t = stateId ctx ⟨nextTile, ((stateFor ctx id).slot + ctx.hopLatency) % ctx.resources.ii⟩ := by
  rw [next]
  constructor
  · intro h
    split at h
    · rename_i nextTile resource hnext hresource
      split at h
      · rename_i hfree
        exact ⟨nextTile, resource, hnext, hresource, hfree, (Option.some.inj h).symm⟩
      · cases h
    · cases h
  · rintro ⟨nextTile, resource, hnext, hresource, hfree, rfl⟩
    rw [hnext, hresource]
    exact if_pos hfree

theorem next_hold_eq_some {id t : ℕ} :
    next ctx id .hold = some t ↔ ctx.options.allowVirtualHold = true ∧
      t = stateId ctx
        ⟨(stateFor ctx id).tile, ((stateFor ctx id).slot + 1) % ctx.resources.ii⟩ := by
  rw [next]
  constructor
  · intro h
    split at h
    · rename_i hallowed
      exact ⟨hallowed, (Option.some.inj h).symm⟩
    · cases h
  · rintro ⟨hallowed, rfl⟩
    exact if_pos hallowed

/-! ## Walks -/

/-- Where the value becomes available. -/
def origin (ctx : Context) : ℕ :=
  stateId ctx ⟨ctx.request.producer.tile,
    (ctx.request.producer.issueSlot + ctx.producerReady) % ctx.resources.ii⟩

def originCost (ctx : Context) : Cost := ⟨ctx.producerReady, 0, 0⟩

/-- A sequence of moves from the producer. -/
abbrev Walk (ctx : Context) : List Move → ℕ → Cost → Prop :=
  ShortestPath.Walk (moves ctx) (origin ctx) (originCost ctx)

/-- The slot of a state is the one its elapsed time leads to. -/
def Coherent (ctx : Context) (id : ℕ) (cost : Cost) : Prop :=
  (stateFor ctx id).slot
    = (ctx.request.producer.issueSlot + cost.elapsed) % ctx.resources.ii

theorem stateFor_origin (hvalid : ctx.Valid) : stateFor ctx (origin ctx)
    = ⟨ctx.request.producer.tile,
        (ctx.request.producer.issueSlot + ctx.producerReady) % ctx.resources.ii⟩ :=
  stateFor_stateId hvalid.producer _

theorem Coherent.next (hvalid : ctx.Valid) {id t : ℕ} {cost : Cost} {move : Move}
    (h : Coherent ctx id cost) (hnext : (moves ctx).next id move = some t) :
    Coherent ctx t ((moves ctx).extend move cost) := by
  rw [Coherent] at h
  cases move with
  | link direction =>
    obtain ⟨nextTile, resource, hneighbor, -, -, rfl⟩ := next_link_eq_some.mp hnext
    rw [Coherent, stateFor_stateId (onArray_of_neighbor hneighbor), h]
    simp only [moves, extend]
    rw [Nat.mod_add_mod, Nat.add_assoc]
  | hold =>
    obtain ⟨-, rfl⟩ := next_hold_eq_some.mp hnext
    rw [Coherent, stateFor_stateId (hvalid.onArray_stateFor id), h]
    simp only [moves, extend]
    rw [Nat.mod_add_mod, Nat.add_assoc]

theorem Walk.coherent (hvalid : ctx.Valid) {l : List Move} {id : ℕ} {cost : Cost}
    (h : Walk ctx l id cost) : Coherent ctx id cost := by
  induction h with
  | nil => rw [Coherent, stateFor_origin hvalid, originCost]
  | snoc _ hnext ih => exact ih.next hvalid hnext

/-! ## Labels -/

/-- The move a predecessor stands for, with the state it was made in. -/
def Predecessor.move (predecessor : Predecessor) : Option (ℕ × Move) :=
  match predecessor.kind with
  | .none => none
  | .link => some (predecessor.previous, .link predecessor.direction)
  | .hold => some (predecessor.previous, .hold)

/-- What the search records for a move. -/
def Move.predecessor (id : ℕ) : Move → Predecessor
  | .link direction => ⟨id, .link, direction⟩
  | .hold => ⟨id, .hold, .north⟩

@[simp] theorem Move.move_predecessor (id : ℕ) (move : Move) :
    (move.predecessor id).move = some (id, move) := by
  cases move <;> rfl

/-- A state has a cost once it has a predecessor, and the origin always has one. -/
def Labelled (ctx : Context) (search : Search) (id : ℕ) : Prop :=
  id = origin ctx ∨ (search.predecessors id).move ≠ none

instance (search : Search) (id : ℕ) : Decidable (Labelled ctx search id) :=
  inferInstanceAs (Decidable (_ ∨ _))

/-- The tables of a search, as labels of the states. -/
def labels (ctx : Context) (search : Search) : ShortestPath.Labels ℕ Move Cost where
  best id := if Labelled ctx search id then some (search.best id) else none
  pred id := (search.predecessors id).move
  settled id := search.finalized id = true

theorem labels_best_eq_some {search : Search} {id : ℕ} {cost : Cost} :
    (labels ctx search).best id = some cost ↔ Labelled ctx search id ∧ search.best id = cost := by
  simp only [labels]
  split
  · rename_i hlabelled
    simp [hlabelled]
  · rename_i hnot
    simp [hnot]

/-- The labels form a tree, and what is in the queue is labelled. -/
structure Growing (ctx : Context) (search : Search) : Prop where
  tree : ShortestPath.Tree (moves ctx) (origin ctx) (originCost ctx) (labels ctx search)
  queued : ∀ entry ∈ search.queue, Labelled ctx search entry.state

/-- The slot of a labelled state is the one its label leads to. -/
theorem Growing.coherent (hvalid : ctx.Valid) {search : Search} (h : Growing ctx search) {id : ℕ}
    (hid : Labelled ctx search id) : Coherent ctx id (search.best id) := by
  have hbest := labels_best_eq_some.mpr ⟨hid, rfl⟩
  obtain ⟨branch, hbranch⟩ := h.tree.exists_branch hbest
  exact Walk.coherent hvalid (h.tree.of_branch hbranch hbest).1

/-! ## Relaxing -/

/-- A state with a new cost and predecessor, in the queue once more. -/
def Search.relabel (search : Search) (destination : ℕ) (cost : Cost) (predecessor : Predecessor) :
    Search where
  best := Function.update search.best destination cost
  predecessors := Function.update search.predecessors destination predecessor
  finalized := search.finalized
  queue := search.queue.orderedInsert (fun lhs rhs ↦ lhs.notAfter rhs = true)
    ⟨cost, destination, search.sequence⟩
  sequence := search.sequence + 1
  stateExpansions := search.stateExpansions
  queuePushes := search.queuePushes + 1

@[simp] theorem Search.relabel_best (search : Search) (destination : ℕ) (cost : Cost)
    (predecessor : Predecessor) : (search.relabel destination cost predecessor).best
      = Function.update search.best destination cost := rfl

@[simp] theorem Search.relabel_predecessors (search : Search) (destination : ℕ) (cost : Cost)
    (predecessor : Predecessor) : (search.relabel destination cost predecessor).predecessors
      = Function.update search.predecessors destination predecessor := rfl

@[simp] theorem Search.relabel_finalized (search : Search) (destination : ℕ) (cost : Cost)
    (predecessor : Predecessor) :
    (search.relabel destination cost predecessor).finalized = search.finalized := rfl

theorem Search.mem_relabel_queue {search : Search} {destination : ℕ} {cost : Cost}
    {predecessor : Predecessor} {entry : QueueEntry} :
    entry ∈ (search.relabel destination cost predecessor).queue ↔
      entry = ⟨cost, destination, search.sequence⟩ ∨ entry ∈ search.queue := by
  rw [Search.relabel, (List.perm_orderedInsert _ _ _).mem_iff, List.mem_cons]

/-- The entries in the queue and those that may still come. -/
def Search.outstanding (ctx : Context) (search : Search) : ℕ :=
  search.queue.length + (ctx.options.budget.maxQueuePushes - search.queuePushes)

/-- A relaxation improves an unsettled state or does nothing; it fails when the budget does not
allow the push. -/
theorem relaxTo_cases (ctx : Context) (search : Search) (destination : ℕ) (cost : Cost)
    (predecessor : Predecessor) :
    ((search.finalized destination = true ∨ search.best destination ≤ cost) ∧
        relaxTo ctx search destination cost predecessor = .ok search) ∨
      (search.finalized destination = false ∧ cost < search.best destination ∧
        ((relaxTo ctx search destination cost predecessor
              = .ok (search.relabel destination cost predecessor) ∧
            (search.relabel destination cost predecessor).outstanding ctx
              = search.outstanding ctx) ∨
          (ctx.options.budget.maxQueuePushes ≤ search.queuePushes ∧
            relaxTo ctx search destination cost predecessor
              = .error (.returned { status := .budgetExceeded })))) := by
  rw [relaxTo]
  split
  · rename_i hkeep
    refine .inl ⟨?_, rfl⟩
    rw [Bool.or_eq_true, Bool.not_eq_true'] at hkeep
    rcases hkeep with hfinal | hbefore
    · exact .inl hfinal
    · refine .inr (not_lt.mp fun hlt ↦ ?_)
      rw [Cost.before_iff.mpr hlt] at hbefore
      cases hbefore
  · rename_i himprove
    rw [Bool.or_eq_true, Bool.not_eq_true', not_or, Bool.not_eq_true, Bool.not_eq_false,
      Cost.before_iff] at himprove
    refine .inr ⟨himprove.1, himprove.2, ?_⟩
    rw [push]
    by_cases hbudget : search.queuePushes ≥ ctx.options.budget.maxQueuePushes
    · right
      rw [if_pos hbudget]
      exact ⟨hbudget, rfl⟩
    · left
      rw [if_neg hbudget]
      refine ⟨rfl, ?_⟩
      simp only [Search.outstanding, Search.relabel, List.orderedInsert_length]
      omega

theorem labelled_relabel {search : Search} {destination id : ℕ} {cost : Cost} {u : ℕ}
    {move : Move} : Labelled ctx (search.relabel destination cost (move.predecessor u)) id ↔
      id = destination ∨ Labelled ctx search id := by
  rw [Labelled, Labelled, Search.relabel_predecessors]
  by_cases hid : id = destination
  · subst hid
    simp
  · simp [hid]

/-- A move of a settled state that improves a state keeps the tree. -/
theorem Growing.relabel {search : Search} (h : Growing ctx search) {u destination : ℕ}
    {move : Move} (hsettled : search.finalized u = true) (hu : Labelled ctx search u)
    (hnext : (moves ctx).next u move = some destination)
    (hdestination : search.finalized destination = false)
    (hlt : (moves ctx).extend move (search.best u) < search.best destination) :
    Growing ctx (search.relabel destination ((moves ctx).extend move (search.best u))
      (move.predecessor u)) where
  tree := by
    have hbest : ∀ id cost, (labels ctx search).best id = some cost → search.best id = cost :=
      fun id cost hid ↦ (labels_best_eq_some.mp hid).2
    refine h.tree.relax (u := u) (t := destination) (a := move) (c := search.best u) rfl ?_ ?_ ?_ ?_
      hsettled (labels_best_eq_some.mpr ⟨hu, rfl⟩) ?_ hnext ?_
    · exact labels_best_eq_some.mpr ⟨labelled_relabel.mpr (.inl rfl), Function.update_self _ _ _⟩
    · intro s hs
      simp only [labels, labelled_relabel, hs, false_or, Search.relabel_best,
        Function.update_of_ne hs]
    · simp [labels]
    · intro s hs
      simp only [labels, Search.relabel_predecessors, Function.update_of_ne hs]
    · simp [labels, hdestination]
    · intro d hd
      rw [← hbest destination d hd]
      exact hlt
  queued := by
    intro entry hentry
    rw [labelled_relabel]
    rcases Search.mem_relabel_queue.mp hentry with rfl | hentry
    · exact .inl rfl
    · exact .inr (h.queued entry hentry)

/-! ## Expanding -/

/-- The move would take the cost out of its machine type. -/
def Overflows (ctx : Context) (cost : Cost) : Move → Prop
  | .link _ => cost.elapsed > uint64Max - ctx.hopLatency ∨ cost.hops = uint32Max
  | .hold => cost.elapsed = uint64Max ∨ cost.holds = uint32Max

/-- One move out of a state. -/
def expandMove (ctx : Context) (id : ℕ) (cost : Cost) (search : Search) :
    Move → Except RouteSearchExit Search
  | .link direction => expandLink ctx search id cost direction
  | .hold => expandHold ctx search id cost

/-- The moves out of a state, in the order in which they are made. -/
def allMoves (ctx : Context) : List Move :=
  directions.map Move.link ++ if ctx.options.allowVirtualHold then [.hold] else []

theorem expand_eq (ctx : Context) (search : Search) (id : ℕ) (cost : Cost) :
    expand ctx search id cost = (allMoves ctx).foldlM (expandMove ctx id cost) search := by
  rw [expand, allMoves, List.foldlM_append, List.foldlM_map]
  refine congrArg _ (funext fun expanded ↦ ?_)
  split
  · rw [List.foldlM_cons]
    rcases hhold : expandHold ctx expanded id cost with exit | later
    all_goals
      rw [expandMove, hhold]
      rfl
  · rfl

theorem mem_allMoves {move : Move} :
    move ∈ allMoves ctx ↔ (move = .hold → ctx.options.allowVirtualHold = true) := by
  rw [allMoves]
  cases move with
  | link direction => cases direction <;> simp [directions]
  | hold =>
    rcases ctx.options.allowVirtualHold with _ | _
    · simp [directions]
    · simp [directions]

theorem isFree_link (hvalid : ctx.Valid) {tile : TileCoord} {direction : Direction}
    {slot : ℕ} {resource : ResourceId}
    (h : ctx.resources.linkAt ctx.domain tile direction slot = some resource) :
    ctx.reservations.isFree resource
      = .ok (decide (ctx.reservations.owners[resource]? = some none)) := by
  have hlt : resource < ctx.reservations.owners.length := by
    rw [hvalid.known]
    exact ModuloResourceModel.findResource_lt (ModuloResourceModel.findResource_linkAt h)
  rw [ResourceReservationTable.isFree, ResourceReservationTable.owner,
    List.getElem?_eq_getElem hlt]
  rcases ctx.reservations.owners[resource] with _ | owner
  · rfl
  · rfl

theorem advance_eq {slot : ℕ} (h : slot < ctx.resources.ii) (cycles : ℕ) :
    advance ctx slot cycles = .ok ((slot + cycles) % ctx.resources.ii) := by
  rw [advance, ModuloTimeDomain.advance_eq_ok_iff.mpr ⟨h, rfl⟩]
  rfl

/-- **A step of the search is a move of the graph**, unless its cost overflows. -/
theorem expandMove_cases (hvalid : ctx.Valid) {id : ℕ} {cost : Cost}
    (hcoherent : Coherent ctx id cost) {move : Move} (hmove : move ∈ allMoves ctx)
    (search : Search) :
    ((moves ctx).next id move = none ∧ expandMove ctx id cost search move = .ok search) ∨
      ∃ destination, (moves ctx).next id move = some destination ∧
        ((Overflows ctx cost move ∧ ∃ diagnostic, expandMove ctx id cost search move
            = .error (.returned (internalFailure ctx diagnostic))) ∨
          (¬ Overflows ctx cost move ∧ expandMove ctx id cost search move
            = relaxTo ctx search destination ((moves ctx).extend move cost)
                (move.predecessor id))) := by
  have hslot : (stateFor ctx id).slot < ctx.resources.ii := by
    rw [hcoherent]
    exact Nat.mod_lt _ (Nat.zero_lt_of_lt hvalid.slot_lt)
  cases move with
  | link direction =>
    have hlaunch : advance ctx ctx.request.producer.issueSlot cost.elapsed
        = .ok (stateFor ctx id).slot := by
      rw [advance_eq hvalid.slot_lt, hcoherent]
    simp only [expandMove, expandLink, hlaunch, moves,
      ModuloResourceModel.linkResource_eq hslot]
    rcases hneighbor : ctx.target.neighbor (stateFor ctx id).tile direction with _ | nextTile
    · exact .inl ⟨by simp [next, hneighbor], rfl⟩
    · simp only
      rcases hresource : ctx.resources.linkAt ctx.domain (stateFor ctx id).tile direction
        (stateFor ctx id).slot with _ | resource
      · exact .inl ⟨by simp [next, hresource], rfl⟩
      · simp only [isFree_link hvalid hresource]
        by_cases hfree : ctx.reservations.owners[resource]? = some none
        · right
          rw [decide_eq_true hfree]
          refine ⟨_, next_link_eq_some.mpr ⟨nextTile, resource, hneighbor, hresource, hfree, rfl⟩,
            ?_⟩
          simp only [launch, advance_eq hslot, Overflows]
          split
          · rename_i hover
            exact .inl ⟨hover, _, rfl⟩
          · rename_i hroom
            exact .inr ⟨hroom, rfl⟩
        · left
          rw [decide_eq_false hfree]
          exact ⟨by simp [next, hneighbor, hresource, hfree], rfl⟩
  | hold =>
    right
    refine ⟨_, next_hold_eq_some.mpr ⟨mem_allMoves.mp hmove rfl, rfl⟩, ?_⟩
    simp only [expandMove, expandHold, advance_eq hslot, Overflows]
    split
    · rename_i hover
      exact .inl ⟨hover, _, rfl⟩
    · rename_i hroom
      exact .inr ⟨hroom, rfl⟩

/-- An expansion fails for the budget or for a cost that overflows. -/
theorem expand_eq_error (hvalid : ctx.Valid) {search : Search} {id : ℕ} {cost : Cost}
    (hcoherent : Coherent ctx id cost) {exit : RouteSearchExit}
    (h : expand ctx search id cost = .error exit) :
    exit = .returned { status := .budgetExceeded } ∨ ∃ move diagnostic, Overflows ctx cost move ∧
      exit = .returned (internalFailure ctx diagnostic) := by
  rw [expand_eq] at h
  obtain ⟨expanded, move, hmove, hfail⟩ := Scan.foldlM_eq_error h
  rcases expandMove_cases hvalid hcoherent hmove expanded with ⟨-, hstep⟩ |
    ⟨destination, -, ⟨hover, diagnostic, hstep⟩ | ⟨-, hstep⟩⟩
  · rw [hstep] at hfail
    cases hfail
  · rw [hstep] at hfail
    exact .inr ⟨move, diagnostic, hover, (Except.error.inj hfail).symm⟩
  · rw [hstep] at hfail
    rcases relaxTo_cases ctx expanded destination ((moves ctx).extend move cost)
      (move.predecessor id) with ⟨-, hrelax⟩ | ⟨-, -, ⟨hrelax, -⟩ | ⟨-, hrelax⟩⟩
    · rw [hrelax] at hfail
      cases hfail
    · rw [hrelax] at hfail
      cases hfail
    · rw [hrelax] at hfail
      exact .inl (Except.error.inj hfail).symm

/-- What an expansion of a settled state keeps. -/
structure Expands (ctx : Context) (id : ℕ) (search later : Search) : Prop where
  growing : Growing ctx later
  finalized : later.finalized = search.finalized
  labelled : Labelled ctx later id
  best : later.best id = search.best id
  outstanding : later.outstanding ctx = search.outstanding ctx

theorem Expands.step (hvalid : ctx.Valid) {search expanded later : Search} {id : ℕ}
    (h : Expands ctx id search expanded) (hsettled : search.finalized id = true)
    (hcoherent : Coherent ctx id (search.best id)) {move : Move} (hmove : move ∈ allMoves ctx)
    (hstep : expandMove ctx id (search.best id) expanded move = .ok later) :
    Expands ctx id search later := by
  rcases expandMove_cases hvalid hcoherent hmove expanded with ⟨-, hnone⟩ |
    ⟨destination, hnext, ⟨-, diagnostic, herror⟩ | ⟨-, hrelax⟩⟩
  · obtain rfl := Except.ok.inj (hnone.symm.trans hstep)
    exact h
  · cases herror.symm.trans hstep
  · rw [hrelax] at hstep
    rcases relaxTo_cases ctx expanded destination ((moves ctx).extend move (search.best id))
      (move.predecessor id) with ⟨-, hkeep⟩ | ⟨hfree, hlt, ⟨hrelabel, hcount⟩ | ⟨-, herror⟩⟩
    · obtain rfl := Except.ok.inj (hkeep.symm.trans hstep)
      exact h
    · obtain rfl := Except.ok.inj (hrelabel.symm.trans hstep)
      have hne : id ≠ destination := by
        rintro rfl
        rw [h.finalized, hsettled] at hfree
        cases hfree
      refine ⟨?_, h.finalized, labelled_relabel.mpr (.inr h.labelled), ?_,
        hcount.trans h.outstanding⟩
      · have hsettled' : expanded.finalized id = true := by rw [h.finalized, hsettled]
        rw [← h.best] at hlt ⊢
        exact h.growing.relabel hsettled' h.labelled hnext hfree hlt
      · rw [Search.relabel_best, Function.update_of_ne hne, h.best]
    · cases herror.symm.trans hstep

theorem Growing.expand (hvalid : ctx.Valid) {search later : Search} (h : Growing ctx search)
    {id : ℕ} (hid : Labelled ctx search id) (hsettled : search.finalized id = true)
    (hexpand : expand ctx search id (search.best id) = .ok later) :
    Expands ctx id search later := by
  rw [expand_eq] at hexpand
  refine Scan.foldlM_invariant (I := Expands ctx id search) (fun _ _ move hmove hexpands hstep ↦ ?_)
    ⟨h, rfl, hid, rfl, rfl⟩ hexpand
  exact hexpands.step hvalid hsettled (h.coherent hvalid hid) hmove hstep

/-! ## The loop -/

/-- A state is settled. -/
def Search.settle (search : Search) (id : ℕ) (queue : List QueueEntry) : Search :=
  { search with queue := queue, finalized := Function.update search.finalized id true }

/-- A state is settled, and its expansion is counted. -/
def Search.visit (search : Search) (id : ℕ) (queue : List QueueEntry) : Search :=
  { search.settle id queue with stateExpansions := search.stateExpansions + 1 }

/-- The next entry of the queue is neither settled nor outdated. -/
structure Search.Pops (search : Search) (entry : QueueEntry) (queue : List QueueEntry) : Prop where
  queue_eq : search.queue = entry :: queue
  unsettled : search.finalized entry.state = false
  current : entry.cost = search.best entry.state

/-- How the loop ends, in the state of its last iteration. -/
inductive Ends (ctx : Context) (last : Search) : Except RouteSearchExit RouteSearchResult → Prop
  | exhausted :
      last.queue = [] →
        Ends ctx last (.ok (noPath ctx
          "finite modulo routing state graph was exhausted without reaching the consumer"))
  | arrived {entry : QueueEntry} {queue : List QueueEntry} :
      last.Pops entry queue →
      (stateFor ctx entry.state).tile = ctx.request.consumer.tile →
        Ends ctx last (success ctx (last.settle entry.state queue) entry.state)
  | stopped {entry : QueueEntry} {queue : List QueueEntry} :
      last.Pops entry queue →
      ctx.options.budget.maxStateExpansions ≤ last.stateExpansions →
        Ends ctx last (.ok (budgetExceeded ctx
          "route search state-expansion budget was exhausted"))
  | failed {entry : QueueEntry} {queue : List QueueEntry} {exit : RouteSearchExit} :
      last.Pops entry queue →
      (stateFor ctx entry.state).tile ≠ ctx.request.consumer.tile →
      expand ctx (last.visit entry.state queue) entry.state entry.cost = .error exit →
        Ends ctx last (.error exit)

/-- **The loop rule.** An invariant that stale entries and expansions keep holds in the last
iteration; the queue runs empty before the fuel does. -/
theorem searchLoop_ends {I : Search → Prop}
    (hstale : ∀ {search entry queue}, I search → search.queue = entry :: queue →
      search.finalized entry.state = true ∨ entry.cost ≠ search.best entry.state →
        I { search with queue := queue })
    (hexpand : ∀ {search entry queue later}, I search → search.Pops entry queue →
      (stateFor ctx entry.state).tile ≠ ctx.request.consumer.tile →
      expand ctx (search.visit entry.state queue) entry.state entry.cost = .ok later →
        I later ∧ later.outstanding ctx = (search.visit entry.state queue).outstanding ctx)
    {fuel : ℕ} {search : Search} (h : I search) (hfuel : search.outstanding ctx < fuel) :
    ∃ last, I last ∧ Ends ctx last (searchLoop ctx fuel search) := by
  induction fuel generalizing search with
  | zero => exact absurd hfuel (Nat.not_lt_zero _)
  | succ fuel ih =>
    rw [searchLoop]
    split
    · rename_i hqueue
      exact ⟨search, h, .exhausted hqueue⟩
    · rename_i entry queue hqueue
      have hless : search.outstanding ctx
          = queue.length + 1 + (ctx.options.budget.maxQueuePushes - search.queuePushes) := by
        rw [Search.outstanding, hqueue, List.length_cons]
      split
      · rename_i hold
        rw [Bool.or_eq_true, decide_eq_true_eq] at hold
        refine ih (hstale h hqueue hold) ?_
        rw [Search.outstanding]
        simp only
        omega
      · rename_i hfresh
        rw [Bool.or_eq_true, not_or, Bool.not_eq_true, decide_eq_true_eq, not_not] at hfresh
        have hpops : search.Pops entry queue := ⟨hqueue, hfresh.1, hfresh.2⟩
        simp only
        split
        · rename_i htile
          exact ⟨search, h, .arrived hpops htile⟩
        · rename_i htile
          split
          · rename_i hbudget
            exact ⟨search, h, .stopped hpops hbudget⟩
          · split
            · rename_i exit herror
              exact ⟨search, h, .failed hpops htile herror⟩
            · rename_i later hlater
              obtain ⟨hinv, hcount⟩ := hexpand h hpops htile hlater
              refine ih hinv ?_
              rw [hcount, Search.outstanding, Search.visit, Search.settle]
              simp only
              omega

/-! ### Growing through the loop -/

theorem Growing.settle {search : Search} (h : Growing ctx search) {entry : QueueEntry}
    {queue : List QueueEntry} (hqueue : search.queue = entry :: queue) :
    Growing ctx (search.settle entry.state queue) where
  tree := by
    refine h.tree.settle rfl rfl fun s hs ↦ ?_
    by_cases hentry : s = entry.state
    · subst hentry
      exact Function.update_self _ _ _
    · exact (Function.update_of_ne hentry _ _).trans hs
  queued := by
    intro other hother
    exact h.queued other (hqueue ▸ List.mem_cons_of_mem _ hother)

theorem Growing.stale {search : Search} (h : Growing ctx search) {entry : QueueEntry}
    {queue : List QueueEntry} (hqueue : search.queue = entry :: queue) :
    Growing ctx { search with queue := queue } where
  tree := h.tree
  queued other hother := h.queued other (hqueue ▸ List.mem_cons_of_mem _ hother)

theorem Growing.labelled_of_pops {search : Search} (h : Growing ctx search) {entry : QueueEntry}
    {queue : List QueueEntry} (hpops : search.Pops entry queue) :
    Labelled ctx search entry.state :=
  h.queued entry (hpops.queue_eq ▸ List.mem_cons_self)

/-- An expansion in the loop. -/
theorem Growing.visit_expand (hvalid : ctx.Valid) {search later : Search} (h : Growing ctx search)
    {entry : QueueEntry} {queue : List QueueEntry} (hpops : search.Pops entry queue)
    (hexpand : ModuloRouteSearch.expand ctx (search.visit entry.state queue) entry.state entry.cost
      = .ok later) : Expands ctx entry.state (search.visit entry.state queue) later := by
  have hsettled := h.settle hpops.queue_eq
  have hgrowing : Growing ctx (search.visit entry.state queue) :=
    ⟨hsettled.tree, hsettled.queued⟩
  rw [hpops.current] at hexpand
  exact hgrowing.expand hvalid (h.labelled_of_pops hpops) (Function.update_self _ _ _) hexpand

/-- The loop ends with labels that are a tree. -/
theorem Growing.searchLoop (hvalid : ctx.Valid) {fuel : ℕ} {search : Search}
    (h : Growing ctx search) (hfuel : search.outstanding ctx < fuel) :
    ∃ last, Growing ctx last ∧ Ends ctx last (ModuloRouteSearch.searchLoop ctx fuel search) := by
  refine searchLoop_ends (fun hgrowing hqueue _ ↦ hgrowing.stale hqueue) ?_ h hfuel
  intro search entry queue later hgrowing hpops _ hexpand
  have hexpands := hgrowing.visit_expand hvalid hpops hexpand
  exact ⟨hexpands.growing, hexpands.outstanding⟩

end Graph

end ModuloRouteSearch

end PredicatedMesh
