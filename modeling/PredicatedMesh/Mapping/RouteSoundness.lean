import PredicatedMesh.Mapping.RouteStates

/-!
# A route that is found is a route

A transport plan is read action by action: `Travels` says where the value is after them, how much
time has passed since the producer's issue, and which link resources it has taken, one for each
launch, at the slot of the launch. Merging a hold with the hold before it does not change where the
value is, so the plan that is reconstructed from the predecessors travels where the labels say.

No bound on any number is needed here: a plan whose times do not fit is not reconstructed.
-/

namespace PredicatedMesh

/-! ## What a plan does -/

/-- The actions take a value from the producer to a tile, within so many cycles since its issue,
over these link resources. -/
inductive Travels (model : ModuloResourceModel) (domain : NetworkDomain) (producer : NodePlacement)
    (ready : ℕ) : List TransportAction → List ResourceId → TileCoord → ℕ → Prop
  | start : Travels model domain producer ready [] [] producer.tile ready
  | link {actions : List TransportAction} {resources : List ResourceId} {tile next : TileCoord}
      {elapsed : ℕ} {direction : Direction} {resource : ResourceId} :
      Travels model domain producer ready actions resources tile elapsed →
      model.target.neighbor tile direction = some next →
      model.linkAt domain tile direction ((producer.issueSlot + elapsed) % model.ii)
        = some resource →
        Travels model domain producer ready
          (actions ++ [.linkStep ⟨domain, tile, direction, elapsed⟩]) (resources ++ [resource]) next
          (elapsed + (model.target.network domain).hopLatency)
  | hold {actions : List TransportAction} {resources : List ResourceId} {tile : TileCoord}
      {elapsed release : ℕ} :
      Travels model domain producer ready actions resources tile elapsed →
      elapsed < release →
        Travels model domain producer ready
          (actions ++ [.virtualHold ⟨domain, tile, elapsed, release⟩]) resources tile release

namespace Travels

variable {model : ModuloResourceModel} {domain : NetworkDomain} {producer : NodePlacement}
  {ready elapsed : ℕ} {actions : List TransportAction} {resources : List ResourceId}
  {tile : TileCoord}

theorem ready_le (h : Travels model domain producer ready actions resources tile elapsed) :
    ready ≤ elapsed := by
  induction h with
  | start => exact le_rfl
  | link _ _ _ ih => exact ih.trans (Nat.le_add_right _ _)
  | hold _ hlt ih => exact ih.trans hlt.le

theorem resource_lt (h : Travels model domain producer ready actions resources tile elapsed) :
    ∀ resource ∈ resources, resource < model.resourceCount := by
  induction h with
  | start => exact fun resource hmem ↦ absurd hmem List.not_mem_nil
  | link _ _ hresource ih =>
    intro r hr
    rcases List.mem_append.mp hr with hr | hr
    · exact ih r hr
    · obtain rfl := List.mem_singleton.mp hr
      exact ModuloResourceModel.findResource_lt
        (ModuloResourceModel.findResource_linkAt hresource)
  | hold _ _ ih => exact ih

/-- Taking back a last hold. -/
theorem of_hold {previous : VirtualHold}
    (h : Travels model domain producer ready (actions ++ [.virtualHold previous]) resources tile
      elapsed) : previous.tile = tile ∧ previous.releaseElapsed = elapsed ∧
        previous.domain = domain ∧ previous.captureElapsed < elapsed ∧
        Travels model domain producer ready actions resources tile previous.captureElapsed := by
  generalize hlast : actions ++ [.virtualHold previous] = whole at h
  rcases h with _ | ⟨-, -, -⟩ | ⟨hbefore, hlt⟩
  · exact absurd hlast (List.append_ne_nil_of_right_ne_nil _ (List.cons_ne_nil _ _))
  · have hsame := (List.append_inj' hlast rfl).2
    cases hsame
  · obtain ⟨rfl, hsame⟩ := List.append_inj' hlast rfl
    obtain rfl := TransportAction.virtualHold.inj (List.cons.inj hsame).1
    exact ⟨rfl, rfl, rfl, hlt, hbefore⟩

/-- A hold after the actions, whether or not it is merged with the last of them. -/
theorem appendHold (h : Travels model domain producer ready actions resources tile elapsed)
    {release : ℕ} (hlt : elapsed < release) :
    Travels model domain producer ready
      (ModuloRouteSearch.appendHold actions ⟨domain, tile, elapsed, release⟩) resources tile
      release := by
  rw [ModuloRouteSearch.appendHold]
  split
  · rename_i previous hlast
    obtain ⟨initial, rfl⟩ := List.getLast?_eq_some_iff.mp hlast
    obtain ⟨htile, hrelease, hdomain, hcapture, hbefore⟩ := h.of_hold
    rw [if_pos ⟨hdomain, htile, hrelease⟩, List.dropLast_concat]
    have hmerged := hbefore.hold (hcapture.trans hlt)
    rcases previous with ⟨domain', tile', capture, release'⟩
    obtain rfl : domain' = domain := hdomain
    obtain rfl : tile' = tile := htile
    exact hmerged
  · exact h.hold hlt

/-- A value that nothing is done with stays where it is produced. -/
theorem tile_eq_of_nil (h : Travels model domain producer ready [] resources tile elapsed) :
    tile = producer.tile := by
  generalize hnil : ([] : List TransportAction) = actions at h
  rcases h with _ | ⟨-, -, -⟩ | ⟨-, -⟩
  · rfl
  · exact absurd hnil.symm (List.append_ne_nil_of_right_ne_nil _ (List.cons_ne_nil _ _))
  · exact absurd hnil.symm (List.append_ne_nil_of_right_ne_nil _ (List.cons_ne_nil _ _))

/-- Every action takes time. -/
theorem ready_lt (h : Travels model domain producer ready actions resources tile elapsed)
    (hhop : 0 < (model.target.network domain).hopLatency) (hactions : actions ≠ []) :
    ready < elapsed := by
  rcases h with _ | ⟨hbefore, -, -⟩ | ⟨hbefore, hlt⟩
  · exact absurd rfl hactions
  · exact hbefore.ready_le.trans_lt (Nat.lt_add_of_pos_right hhop)
  · exact hbefore.ready_le.trans_lt hlt

end Travels

namespace ModuloRouteSearch

variable {ctx : Context}

/-! ## Reconstructing -/

/-- What the walk back collects for a step of a branch. -/
def Search.entry (search : Search) (step : ℕ × Move × ℕ) : ℕ × Predecessor :=
  (step.2.2, search.predecessors step.2.2)

theorem Predecessor.exists_move {predecessor : Predecessor} (h : predecessor.kind ≠ .none) :
    ∃ move, predecessor.move = some (predecessor.previous, move) := by
  rcases predecessor with ⟨previous, kind, direction⟩
  rcases kind with _ | _ | _
  · exact absurd rfl h
  · exact ⟨_, rfl⟩
  · exact ⟨_, rfl⟩

theorem Predecessor.eq_of_move {predecessor : Predecessor} {u : ℕ} {move : Move}
    (h : predecessor.move = some (u, move)) : predecessor.previous = u ∧
      (∀ direction, move = .link direction →
        predecessor.kind = .link ∧ predecessor.direction = direction) ∧
      (move = .hold → predecessor.kind = .hold) := by
  rcases predecessor with ⟨previous, kind, direction⟩
  rcases kind with _ | _ | _
  · cases h
  · obtain ⟨rfl, rfl⟩ := Prod.mk.inj (Option.some.inj h)
    exact ⟨rfl, fun _ heq ↦ ⟨rfl, Move.link.inj heq⟩, nofun⟩
  · obtain ⟨rfl, rfl⟩ := Prod.mk.inj (Option.some.inj h)
    exact ⟨rfl, nofun, fun _ ↦ rfl⟩

/-- The walk back collects a branch. -/
theorem chain_eq_ok {search : Search} {fuel current : ℕ} {collected steps : List (ℕ × Predecessor)}
    (h : chain ctx search (origin ctx) fuel current collected = .ok steps) :
    ∃ l, ShortestPath.Branch (origin ctx) (labels ctx search) l current ∧
      steps = l.map search.entry ++ collected := by
  induction fuel generalizing current collected with
  | zero => cases h
  | succ fuel ih =>
    rw [chain] at h
    split at h
    · rename_i hstart
      subst hstart
      exact ⟨[], .nil, (Except.ok.inj h).symm⟩
    · rename_i hstart
      split at h
      · cases h
      · rename_i hgoes
        rw [not_or, not_or] at hgoes
        obtain ⟨move, hmove⟩ := Predecessor.exists_move hgoes.2.1
        obtain ⟨l, hbranch, rfl⟩ := ih h
        refine ⟨_, hbranch.snoc hstart hmove, ?_⟩
        rw [List.map_append, List.append_assoc]
        rfl

/-- The link resource a step of a branch takes. -/
def linkOf (ctx : Context) (step : ℕ × Move × ℕ) : Option ResourceId :=
  match step.2.1 with
  | .link direction =>
    ctx.resources.linkAt ctx.domain (stateFor ctx step.1).tile direction
      (stateFor ctx step.1).slot
  | .hold => none

/-- The link of a move is free, and the move ends on the next tile. -/
theorem travels_link (hvalid : ctx.Valid) {u t : ℕ} {direction : Direction} {cost : Cost}
    {actions : List TransportAction} {resources : List ResourceId}
    (hcoherent : Coherent ctx u cost) (hnext : (moves ctx).next u (.link direction) = some t)
    (h : Travels ctx.resources ctx.domain ctx.request.producer ctx.producerReady actions resources
      (stateFor ctx u).tile cost.elapsed) :
    ∃ resource, linkOf ctx (u, .link direction, t) = some resource ∧
      ctx.reservations.owners[resource]? = some none ∧
      Travels ctx.resources ctx.domain ctx.request.producer ctx.producerReady
        (actions ++ [.linkStep ⟨ctx.domain, (stateFor ctx u).tile, direction, cost.elapsed⟩])
        (resources ++ [resource]) (stateFor ctx t).tile
        ((moves ctx).extend (.link direction) cost).elapsed := by
  obtain ⟨nextTile, resource, hneighbor, hresource, hfree, rfl⟩ := next_link_eq_some.mp hnext
  refine ⟨resource, hresource, hfree, ?_⟩
  rw [stateFor_stateId (onArray_of_neighbor hneighbor)]
  rw [hcoherent] at hresource
  rw [← hvalid.sameTarget] at hneighbor
  have htravels := h.link hneighbor hresource
  rw [hvalid.sameTarget] at htravels
  exact htravels

/-- **The actions follow the labels.** -/
theorem travels_of_branch (hvalid : ctx.Valid) {search : Search} (hgrowing : Growing ctx search)
    {l : List (ℕ × Move × ℕ)} {t : ℕ}
    (hbranch : ShortestPath.Branch (origin ctx) (labels ctx search) l t)
    (ht : Labelled ctx search t) {actions : List TransportAction}
    (h : (l.map search.entry).foldlM (appendAction ctx search) [] = .ok actions) :
    (∀ resource ∈ l.filterMap (linkOf ctx), ctx.reservations.owners[resource]? = some none) ∧
      (l.filterMap (linkOf ctx)).length = (search.best t).hops ∧
      Travels ctx.resources ctx.domain ctx.request.producer ctx.producerReady actions
        (l.filterMap (linkOf ctx)) (stateFor ctx t).tile (search.best t).elapsed := by
  induction hbranch generalizing actions with
  | nil =>
    obtain rfl := Except.ok.inj h
    have hroot := (labels_best_eq_some.mp hgrowing.tree.root).2
    refine ⟨List.forall_mem_nil _, ?_⟩
    rw [stateFor_origin hvalid, hroot]
    exact ⟨rfl, .start⟩
  | @snoc l u t move hbranch hne hpred ih =>
    obtain ⟨u', move', cost, hpred', -, hnext, hbest, hcost⟩ :=
      hgrowing.tree.parent t _ hne (labels_best_eq_some.mpr ⟨ht, rfl⟩)
    obtain ⟨rfl, rfl⟩ := Prod.mk.inj (Option.some.inj (hpred.symm.trans hpred'))
    obtain ⟨hu, rfl⟩ := labels_best_eq_some.mp hbest
    rw [List.map_append, List.foldlM_append] at h
    obtain ⟨before, hbefore, hlast⟩ := Scan.bind_eq_ok.mp h
    obtain ⟨hfree, hhops, htravels⟩ := ih hu hbefore
    obtain ⟨_, hstep, hlast⟩ := Scan.foldlM_cons_eq_ok.mp hlast
    obtain rfl := Except.ok.inj hlast
    rw [appendAction] at hstep
    obtain ⟨hprevious, hlink, hhold⟩ := Predecessor.eq_of_move hpred
    simp only [Search.entry, hprevious] at hstep
    rw [← hcost, List.filterMap_append]
    cases move with
    | link direction =>
      obtain ⟨hkind, hdirection⟩ := hlink direction rfl
      rw [if_pos hkind, hdirection] at hstep
      split at hstep
      · cases hstep
      · obtain rfl := Except.ok.inj hstep
        obtain ⟨resource, htaken, hresource, hlink⟩ :=
          travels_link hvalid (hgrowing.coherent hvalid hu) hnext htravels
        rw [List.filterMap_cons_some htaken, List.filterMap_nil]
        refine ⟨fun r hr ↦ ?_, ?_, hlink⟩
        · rcases List.mem_append.mp hr with hr | hr
          · exact hfree r hr
          · obtain rfl := List.mem_singleton.mp hr
            exact hresource
        · rw [List.length_append, hhops]
          rfl
    | hold =>
      rw [if_neg (by simp [hhold rfl])] at hstep
      split at hstep
      · cases hstep
      · obtain rfl := Except.ok.inj hstep
        obtain ⟨-, rfl⟩ := next_hold_eq_some.mp hnext
        rw [List.filterMap_cons_none rfl, List.filterMap_nil, List.append_nil]
        refine ⟨hfree, hhops, ?_⟩
        rw [stateFor_stateId (hvalid.onArray_stateFor u), ← hcost]
        exact htravels.appendHold (Nat.lt_succ_self _)

/-- The last look at a route collects its resources, and finds each of them once. -/
theorem selfConflict_of_travels (hvalid : ctx.Valid) {actions : List TransportAction}
    {resources seen : List ResourceId} {tile : TileCoord} {elapsed : ℕ}
    (h : Travels ctx.resources ctx.domain ctx.request.producer ctx.producerReady actions resources
      tile elapsed) :
    actions.foldlM (checkSelfConflict ctx) [] = .ok seen ↔ seen = resources ∧ resources.Nodup := by
  induction h generalizing seen with
  | start =>
    rw [List.foldlM_nil]
    exact ⟨fun h ↦ ⟨(Except.ok.inj h).symm, List.nodup_nil⟩, fun h ↦ congrArg Except.ok h.1.symm⟩
  | @link actions resources tile next elapsed direction resource _ _ hresource ih =>
    have hstep : ∀ before, checkSelfConflict ctx before
        (.linkStep ⟨ctx.domain, tile, direction, elapsed⟩) = .ok seen ↔
          resource ∉ before ∧ seen = before ++ [resource] := by
      intro before
      have hlink := @ModuloResourceModel.linkResource_eq ctx.resources ctx.domain tile direction _
        (Nat.mod_lt (ctx.request.producer.issueSlot + elapsed)
          (Nat.zero_lt_of_lt hvalid.slot_lt))
      rw [hresource] at hlink
      simp only [checkSelfConflict, advance_eq hvalid.slot_lt, hlink]
      by_cases hseen : resource ∈ before
      · simp [hseen]
      · simp [hseen, eq_comm]
    rw [List.foldlM_append, Scan.bind_eq_ok, List.nodup_append_comm, List.singleton_append,
      List.nodup_cons]
    constructor
    · rintro ⟨before, hbefore, hlast⟩
      obtain ⟨rfl, hnodup⟩ := ih.mp hbefore
      obtain ⟨_, hnew, hlast⟩ := Scan.foldlM_cons_eq_ok.mp hlast
      obtain rfl := Except.ok.inj hlast
      exact ⟨((hstep before).mp hnew).2, ((hstep before).mp hnew).1, hnodup⟩
    · rintro ⟨rfl, hnew, hnodup⟩
      exact ⟨resources, ih.mpr ⟨rfl, hnodup⟩,
        Scan.foldlM_cons_eq_ok.mpr ⟨_, (hstep resources).mpr ⟨hnew, rfl⟩, rfl⟩⟩
  | hold _ _ ih =>
    rw [List.foldlM_append, Scan.bind_eq_ok, ← ih]
    constructor
    · rintro ⟨before, hbefore, hlast⟩
      obtain ⟨_, hstep, hlast⟩ := Scan.foldlM_cons_eq_ok.mp hlast
      obtain rfl := Except.ok.inj hlast
      obtain rfl := Except.ok.inj hstep
      exact hbefore
    · exact fun hseen ↦ ⟨seen, hseen, rfl⟩

/-! ## What a search returns -/

/-- The plan takes the value to the consumer, over links that are free. -/
structure Found (ctx : Context) (plan : TransportPlan) (resources : List ResourceId) : Prop where
  edge : plan.edge = ctx.request.edge
  domain : plan.domain = ctx.domain
  travels : Travels ctx.resources ctx.domain ctx.request.producer ctx.producerReady plan.actions
    resources ctx.request.consumer.tile plan.requiredSeparationCycles
  nodup : resources.Nodup
  free : ∀ resource ∈ resources, ctx.reservations.owners[resource]? = some none
  waits : ctx.request.producer.tile = ctx.request.consumer.tile → plan.actions ≠ []

/-- A result comes with a plan exactly when it is a success, and the plan is a route. -/
def Trustworthy (ctx : Context) (result : RouteSearchResult) : Prop :=
  result.status = .success → ∃ plan resources, result.plan = some plan ∧ Found ctx plan resources

/-- A computation that returns a result to be trusted, by an early return or at its end. -/
def Returns (ctx : Context) (r : Except RouteSearchExit RouteSearchResult) : Prop :=
  ∃ result, (r = .ok result ∨ r = .error (.returned result)) ∧ Trustworthy ctx result

theorem Returns.of_failed {r : Except RouteSearchExit RouteSearchResult}
    {result : RouteSearchResult} (h : r = .ok result ∨ r = .error (.returned result))
    (hstatus : result.status ≠ .success) : Returns ctx r :=
  ⟨result, h, fun hsuccess ↦ absurd hsuccess hstatus⟩

theorem startState_eq (hvalid : ctx.Valid) : startState ctx = .ok (origin ctx) := by
  rw [startState, advance_eq hvalid.slot_lt]
  rfl

/-- The computations of a reconstruction give up with an internal error, or not at all. -/
def GivesUp {α : Type} (ctx : Context) (r : Except RouteSearchExit α) : Prop :=
  ∀ exit, r = .error exit → ∃ diagnostics, exit = notReconstructed ctx diagnostics

theorem chain_givesUp {search : Search} {start fuel current : ℕ}
    {collected : List (ℕ × Predecessor)} :
    GivesUp ctx (chain ctx search start fuel current collected) := by
  induction fuel generalizing current collected with
  | zero => exact fun exit h ↦ ⟨[], (Except.error.inj h).symm⟩
  | succ fuel ih =>
    intro exit h
    rw [chain] at h
    split at h
    · cases h
    · split at h
      · exact ⟨[], (Except.error.inj h).symm⟩
      · exact ih exit h

theorem appendAction_eq_error {search : Search} {actions : List TransportAction}
    {entry : ℕ × Predecessor} {exit : RouteSearchExit}
    (h : appendAction ctx search actions entry = .error exit) : exit = notReconstructed ctx [] := by
  rw [appendAction] at h
  split at h
  · split at h
    · exact (Except.error.inj h).symm
    · cases h
  · split at h
    · exact (Except.error.inj h).symm
    · cases h

theorem checkSelfConflict_givesUp (hvalid : ctx.Valid) {seen : List ResourceId}
    {action : TransportAction} : GivesUp ctx (checkSelfConflict ctx seen action) := by
  intro exit h
  cases action with
  | virtualHold hold => cases h
  | linkStep link =>
    have hlink := @ModuloResourceModel.linkResource_eq ctx.resources ctx.domain link.source
      link.direction _
      (Nat.mod_lt (ctx.request.producer.issueSlot + link.elapsedFromProducerIssue)
        (Nat.zero_lt_of_lt hvalid.slot_lt))
    simp only [checkSelfConflict, advance_eq hvalid.slot_lt, hlink] at h
    split at h
    · cases ‹Except.ok _ = Except.error _›
    · split at h
      · exact ⟨_, (Except.error.inj h).symm⟩
      · cases h
    · exact ⟨_, (Except.error.inj h).symm⟩

theorem reconstruct_givesUp (hvalid : ctx.Valid) {search : Search} {goal : ℕ} :
    GivesUp ctx (reconstruct ctx search goal) := by
  intro exit h
  rw [reconstruct, startState_eq hvalid] at h
  rcases Scan.bind_eq_error.mp h with hfail | ⟨_, _, h⟩
  · cases hfail
  rcases Scan.bind_eq_error.mp h with hfail | ⟨steps, _, h⟩
  · exact chain_givesUp exit hfail
  rcases Scan.bind_eq_error.mp h with hfail | ⟨actions, _, h⟩
  · obtain ⟨_, _, _, hstep⟩ := Scan.foldlM_eq_error hfail
    exact ⟨[], appendAction_eq_error hstep⟩
  split at h
  · exact ⟨[], (Except.error.inj h).symm⟩
  · rcases Scan.bind_eq_error.mp h with hfail | ⟨_, _, h⟩
    · obtain ⟨_, _, _, hstep⟩ := Scan.foldlM_eq_error hfail
      exact checkSelfConflict_givesUp hvalid exit hstep
    · cases h

/-- **A plan that is reconstructed is a route.** -/
theorem reconstruct_eq_ok (hvalid : ctx.Valid) {search : Search} (hgrowing : Growing ctx search)
    {goal : ℕ} (hgoal : Labelled ctx search goal)
    (htile : (stateFor ctx goal).tile = ctx.request.consumer.tile)
    (hapart : ctx.request.producer.tile ≠ ctx.request.consumer.tile) {plan : TransportPlan}
    (h : reconstruct ctx search goal = .ok plan) : ∃ resources, Found ctx plan resources := by
  rw [reconstruct, startState_eq hvalid] at h
  obtain ⟨start, hstart, h⟩ := Scan.bind_eq_ok.mp h
  obtain rfl := Except.ok.inj hstart
  obtain ⟨steps, hsteps, h⟩ := Scan.bind_eq_ok.mp h
  obtain ⟨actions, hactions, h⟩ := Scan.bind_eq_ok.mp h
  split at h
  · cases h
  · obtain ⟨seen, hseen, h⟩ := Scan.bind_eq_ok.mp h
    obtain rfl := Except.ok.inj h
    obtain ⟨l, hbranch, rfl⟩ := chain_eq_ok hsteps
    rw [List.append_nil] at hactions
    obtain ⟨hfree, -, htravels⟩ := travels_of_branch hvalid hgrowing hbranch hgoal hactions
    rw [htile] at htravels
    obtain ⟨-, hnodup⟩ := (selfConflict_of_travels hvalid htravels).mp hseen
    exact ⟨_, rfl, rfl, htravels, hnodup, hfree, fun hsame ↦ absurd hsame hapart⟩

theorem returns_success (hvalid : ctx.Valid) {search : Search} (hgrowing : Growing ctx search)
    {goal : ℕ} (hgoal : Labelled ctx search goal)
    (htile : (stateFor ctx goal).tile = ctx.request.consumer.tile)
    (hapart : ctx.request.producer.tile ≠ ctx.request.consumer.tile) :
    Returns ctx (success ctx search goal) := by
  rw [success]
  rcases hplan : reconstruct ctx search goal with exit | plan
  · obtain ⟨diagnostics, rfl⟩ := reconstruct_givesUp hvalid exit hplan
    exact .of_failed (.inr rfl) fun h ↦ by cases h
  · obtain ⟨resources, hfound⟩ := reconstruct_eq_ok hvalid hgrowing hgoal htile hapart hplan
    exact ⟨_, .inl rfl, fun _ ↦ ⟨plan, resources, rfl, hfound⟩⟩

theorem returns_searchLoop (hvalid : ctx.Valid)
    (hapart : ctx.request.producer.tile ≠ ctx.request.consumer.tile) {fuel : ℕ} {search : Search}
    (h : Growing ctx search) (hfuel : search.outstanding ctx < fuel) :
    Returns ctx (searchLoop ctx fuel search) := by
  obtain ⟨last, hgrowing, hends⟩ := h.searchLoop hvalid hfuel
  generalize searchLoop ctx fuel search = r at hends
  rcases hends with hqueue | ⟨hpops, htile⟩ | ⟨hpops, -⟩ | ⟨hpops, -, hfail⟩
  · exact .of_failed (.inl rfl) fun h ↦ by cases h
  · have hlabelled := hgrowing.labelled_of_pops hpops
    exact returns_success hvalid (hgrowing.settle hpops.queue_eq) hlabelled htile hapart
  · exact .of_failed (.inl rfl) fun h ↦ by cases h
  · have hcoherent := hgrowing.coherent hvalid (hgrowing.labelled_of_pops hpops)
    rw [← hpops.current] at hcoherent
    rcases expand_eq_error hvalid hcoherent hfail with rfl | ⟨move, diagnostic, -, rfl⟩
    · exact .of_failed (.inr rfl) fun h ↦ by cases h
    · exact .of_failed (.inr rfl) fun h ↦ by cases h

/-- The tables before the first iteration. -/
def Search.started (ctx : Context) : Search :=
  { Search.initial.relabel (origin ctx) (originCost ctx) {} with
    predecessors := Search.initial.predecessors }

theorem labelled_started {id : ℕ} :
    Labelled ctx (Search.started ctx) id ↔ id = origin ctx := by
  rw [Labelled]
  constructor
  · rintro (h | h)
    · exact h
    · exact absurd rfl h
  · exact .inl

theorem growing_started : Growing ctx (Search.started ctx) where
  tree := by
    refine .initially ?_ fun s c hs ↦ labelled_started.mp (labels_best_eq_some.mp hs).1
    exact labels_best_eq_some.mpr ⟨labelled_started.mpr rfl, Function.update_self _ _ _⟩
  queued := by
    intro entry hentry
    obtain rfl := List.mem_singleton.mp hentry
    exact labelled_started.mpr rfl

/-- How a search begins: with its tables, unless there is no state or no budget for one. -/
theorem searchFrom_cases (hvalid : ctx.Valid) :
    (stateCount ctx = 0 ∧ ∃ result, result.status = .internalError ∧
        searchFrom ctx = .ok result) ∨
      (ctx.options.budget.maxQueuePushes = 0 ∧ ∃ result, result.status = .budgetExceeded ∧
        searchFrom ctx = .ok result) ∨
      ((Search.started ctx).outstanding ctx < ctx.options.budget.maxQueuePushes + 1 ∧
        searchFrom ctx = if ctx.request.producer.tile = ctx.request.consumer.tile then
            .ok (sameTile ctx)
          else searchLoop ctx (ctx.options.budget.maxQueuePushes + 1) (Search.started ctx)) := by
  rw [searchFrom]
  split
  · rename_i hstates
    exact .inl ⟨hstates, _, rfl, rfl⟩
  · right
    rw [startState_eq hvalid]
    simp only [push]
    by_cases hbudget : Search.initial.queuePushes ≥ ctx.options.budget.maxQueuePushes
    · rw [if_pos hbudget]
      exact .inl ⟨Nat.le_zero.mp hbudget, _, rfl, rfl⟩
    · rw [if_neg hbudget]
      refine .inr ⟨?_, rfl⟩
      simp only [Search.outstanding, Search.started, Search.relabel, Search.initial,
        List.orderedInsert_length, List.length_nil] at hbudget ⊢
      omega

/-- **What a search returns can be trusted**, and it never throws. -/
theorem returns_searchFrom (hvalid : ctx.Valid) : Returns ctx (searchFrom ctx) := by
  rcases searchFrom_cases hvalid with ⟨-, result, hstatus, hresult⟩ |
    ⟨-, result, hstatus, hresult⟩ | ⟨hfuel, hloop⟩
  · refine .of_failed (.inl hresult) ?_
    rw [hstatus]
    exact RouteSearchStatus.noConfusion
  · refine .of_failed (.inl hresult) ?_
    rw [hstatus]
    exact RouteSearchStatus.noConfusion
  · rw [hloop]
    split
    · rename_i hsame
      rw [sameTile]
      split
      · exact .of_failed (.inl rfl) RouteSearchStatus.noConfusion
      · split
        · exact .of_failed (.inl rfl) RouteSearchStatus.noConfusion
        · refine ⟨_, .inl rfl, fun _ ↦ ⟨_, [], rfl, rfl, rfl, ?_, List.nodup_nil,
            List.forall_mem_nil _, fun _ ↦ List.cons_ne_nil _ _⟩⟩
          rw [← hsame]
          exact Travels.start.hold (Nat.lt_succ_self _)
    · rename_i hapart
      exact returns_searchLoop hvalid hapart growing_started hfuel

/-! ## The input -/

section Input

variable {dfg : TargetDFG} {target : TargetModel} {resources : ModuloResourceModel}
  {request : RouteSearchRequest}

/-- A request that passes the validation, with its network and the readiness of its producer. -/
structure Admitted (dfg : TargetDFG) (target : TargetModel) (resources : ModuloResourceModel)
    (request : RouteSearchRequest) (edge : TargetEdge) (domain : NetworkDomain) (ready : ℕ) :
    Prop where
  verified : TargetDFGVerifier.verify dfg target = []
  targetName : dfg.targetName = target.name
  found : dfg.findEdge request.edge = some edge
  value : edge.kind ≠ .memory
  src : request.producer.node = edge.src
  dst : request.consumer.node = edge.dst
  producer : OnArray target request.producer.tile
  consumer : OnArray target request.consumer.tile
  slot_lt : request.producer.issueSlot < resources.ii
  domain_eq : domain = requestedDomain edge
  ready_eq : ∃ node, dfg.findNode edge.src = some node ∧
    node.producerOutputReadyOffset = some ready
  hopLatency_ne : (target.network domain).hopLatency ≠ 0

theorem demand_eq_ok {ok : Bool} {exit : RouteSearchExit} {u : Unit} :
    demand ok exit = .ok u ↔ ok = true := by
  cases ok <;> simp [demand]

theorem demand_eq_error {ok : Bool} {exit exit' : RouteSearchExit}
    (h : demand ok exit = .error exit') : exit' = exit := by
  cases ok with
  | false => exact (Except.error.inj h).symm
  | true => cases h

theorem nodeAt_eq_ok {id : TargetNodeId} {node : TargetNode} :
    nodeAt dfg id = .ok node ↔ dfg.findNode id = some node := by
  rw [nodeAt]
  rcases dfg.findNode id with _ | found
  · simp
  · simp

theorem validPlacement_eq_ok {placement : NodePlacement} {expected : TargetNodeId} {role : String}
    {mismatch : RouteSearchDiagnosticCode} {u : Unit}
    (h : validPlacement dfg target resources request placement expected role mismatch = .ok u) :
    OnArray target placement.tile ∧ placement.issueSlot < resources.ii := by
  rw [validPlacement] at h
  obtain ⟨_, -, h⟩ := Scan.bind_eq_ok.mp h
  obtain ⟨_, htile, h⟩ := Scan.bind_eq_ok.mp h
  obtain ⟨_, hslot, h⟩ := Scan.bind_eq_ok.mp h
  rw [demand_eq_ok, Bool.and_eq_true, decide_eq_true_eq, decide_eq_true_eq] at htile
  rw [demand_eq_ok, decide_eq_true_eq] at hslot
  exact ⟨htile, hslot⟩

theorem validateInput_eq_ok {domain : NetworkDomain} {ready : ℕ}
    (h : validateInput dfg target resources request = .ok (domain, ready)) :
    ∃ edge, Admitted dfg target resources request edge domain ready := by
  rw [validateInput] at h
  obtain ⟨_, hverified, h⟩ := Scan.bind_eq_ok.mp h
  obtain ⟨_, hname, h⟩ := Scan.bind_eq_ok.mp h
  obtain ⟨_, -, h⟩ := Scan.bind_eq_ok.mp h
  simp only at h
  split at h
  · obtain ⟨_, hfail, -⟩ := Scan.bind_eq_ok.mp h
    cases hfail
  rename_i edge hedge
  obtain ⟨_, hsame, h⟩ := Scan.bind_eq_ok.mp h
  obtain rfl := Except.ok.inj hsame
  obtain ⟨_, hkind, h⟩ := Scan.bind_eq_ok.mp h
  obtain ⟨_, hsrc, h⟩ := Scan.bind_eq_ok.mp h
  obtain ⟨_, hdst, h⟩ := Scan.bind_eq_ok.mp h
  obtain ⟨_, hproducer, h⟩ := Scan.bind_eq_ok.mp h
  obtain ⟨_, hconsumer, h⟩ := Scan.bind_eq_ok.mp h
  obtain ⟨node, hnode, h⟩ := Scan.bind_eq_ok.mp h
  split at h
  · obtain ⟨_, hfail, -⟩ := Scan.bind_eq_ok.mp h
    cases hfail
  rename_i ready' hready
  obtain ⟨_, hsame, h⟩ := Scan.bind_eq_ok.mp h
  obtain rfl := Except.ok.inj hsame
  obtain ⟨_, hhop, h⟩ := Scan.bind_eq_ok.mp h
  obtain ⟨rfl, rfl⟩ := Prod.mk.inj (Except.ok.inj h)
  rw [demand_eq_ok, List.isEmpty_iff] at hverified
  rw [demand_eq_ok, Bool.and_eq_true, beq_iff_eq] at hname
  rw [demand_eq_ok, bne_iff_ne] at hkind hhop
  rw [demand_eq_ok, beq_iff_eq] at hsrc hdst
  obtain ⟨htile, hslot⟩ := validPlacement_eq_ok hproducer
  exact ⟨edge, hverified, hname.1, hedge, hkind, hsrc, hdst, htile,
    (validPlacement_eq_ok hconsumer).1, hslot, rfl, ⟨node, nodeAt_eq_ok.mp hnode, hready⟩, hhop⟩

/-- A rejected input. -/
def Rejects (exit : RouteSearchExit) : Prop :=
  ∃ result, exit = .returned result ∧ (result.status = .invalidInput ∨
    result.status = .unsupportedEdge ∨ result.status = .targetContractError)

theorem validPlacement_rejects {placement : NodePlacement} {expected : TargetNodeId} {role : String}
    {mismatch : RouteSearchDiagnosticCode} {exit : RouteSearchExit}
    (hexists : ∃ node, dfg.findNode expected = some node)
    (h : validPlacement dfg target resources request placement expected role mismatch
      = .error exit) : Rejects exit := by
  rw [validPlacement] at h
  rcases Scan.bind_eq_error.mp h with hfail | ⟨_, -, h⟩
  · exact demand_eq_error hfail ▸ ⟨_, rfl, .inl rfl⟩
  rcases Scan.bind_eq_error.mp h with hfail | ⟨_, -, h⟩
  · exact demand_eq_error hfail ▸ ⟨_, rfl, .inl rfl⟩
  rcases Scan.bind_eq_error.mp h with hfail | ⟨_, -, h⟩
  · exact demand_eq_error hfail ▸ ⟨_, rfl, .inl rfl⟩
  rcases Scan.bind_eq_error.mp h with hfail | ⟨_, -, h⟩
  · obtain ⟨node, hnode⟩ := hexists
    rw [nodeAt_eq_ok.mpr hnode] at hfail
    cases hfail
  · exact demand_eq_error h ▸ ⟨_, rfl, .inl rfl⟩

/-- Validation rejects and never throws: the ends of an edge of a verified graph are nodes. -/
theorem validateInput_rejects {exit : RouteSearchExit}
    (h : validateInput dfg target resources request = .error exit) : Rejects exit := by
  rw [validateInput] at h
  rcases Scan.bind_eq_error.mp h with hfail | ⟨_, hverified, h⟩
  · exact demand_eq_error hfail ▸ ⟨_, rfl, .inl rfl⟩
  rcases Scan.bind_eq_error.mp h with hfail | ⟨_, -, h⟩
  · exact demand_eq_error hfail ▸ ⟨_, rfl, .inl rfl⟩
  rcases Scan.bind_eq_error.mp h with hfail | ⟨_, -, h⟩
  · exact demand_eq_error hfail ▸ ⟨_, rfl, .inl rfl⟩
  simp only at h
  split at h
  · rcases Scan.bind_eq_error.mp h with hfail | ⟨_, hfail, -⟩
    · exact Except.error.inj hfail ▸ ⟨_, rfl, .inl rfl⟩
    · cases hfail
  rename_i edge hedge
  rcases Scan.bind_eq_error.mp h with hfail | ⟨_, hsame, h⟩
  · cases hfail
  obtain rfl := Except.ok.inj hsame
  rw [demand_eq_ok, List.isEmpty_iff] at hverified
  obtain ⟨src, dst, hsrc, hdst⟩ := (TargetDFGVerifier.verified_of_verify hverified).endpoints _
    (List.mem_of_find?_eq_some hedge)
  rcases Scan.bind_eq_error.mp h with hfail | ⟨_, -, h⟩
  · exact demand_eq_error hfail ▸ ⟨_, rfl, .inr (.inl rfl)⟩
  rcases Scan.bind_eq_error.mp h with hfail | ⟨_, -, h⟩
  · exact demand_eq_error hfail ▸ ⟨_, rfl, .inl rfl⟩
  rcases Scan.bind_eq_error.mp h with hfail | ⟨_, -, h⟩
  · exact demand_eq_error hfail ▸ ⟨_, rfl, .inl rfl⟩
  rcases Scan.bind_eq_error.mp h with hfail | ⟨_, -, h⟩
  · exact validPlacement_rejects ⟨src, hsrc⟩ hfail
  rcases Scan.bind_eq_error.mp h with hfail | ⟨_, -, h⟩
  · exact validPlacement_rejects ⟨dst, hdst⟩ hfail
  rcases Scan.bind_eq_error.mp h with hfail | ⟨node, -, h⟩
  · rw [nodeAt_eq_ok.mpr hsrc] at hfail
    cases hfail
  split at h
  · rcases Scan.bind_eq_error.mp h with hfail | ⟨_, hfail, -⟩
    · exact Except.error.inj hfail ▸ ⟨_, rfl, .inr (.inr rfl)⟩
    · cases hfail
  rcases Scan.bind_eq_error.mp h with hfail | ⟨_, -, h⟩
  · cases hfail
  rcases Scan.bind_eq_error.mp h with hfail | ⟨_, -, h⟩
  · exact demand_eq_error hfail ▸ ⟨_, rfl, .inr (.inr rfl)⟩
  · cases h

/-- The search of an admitted request. -/
def requestContext (target : TargetModel) (resources : ModuloResourceModel)
    (reservations : ResourceReservationTable) (request : RouteSearchRequest)
    (options : RouteSearchOptions) (domain : NetworkDomain) (ready : ℕ) : Context :=
  ⟨target, resources, reservations, request, options, domain, ready⟩

theorem Admitted.valid {reservations : ResourceReservationTable} {options : RouteSearchOptions}
    {edge : TargetEdge} {domain : NetworkDomain} {ready : ℕ}
    (h : Admitted dfg target resources request edge domain ready)
    (htarget : resources.target = target)
    (hknown : reservations.owners.length = resources.resourceCount) :
    (requestContext target resources reservations request options domain ready).Valid :=
  ⟨htarget, h.producer, h.consumer, h.slot_lt, hknown⟩

/-- **Route search never throws, and its routes are routes.** -/
theorem search_returns {reservations : ResourceReservationTable} {options : RouteSearchOptions}
    (hii : resources.ii ≠ 0) (htarget : resources.target = target)
    (hknown : reservations.owners.length = resources.resourceCount) :
    ∃ route, search dfg target resources reservations request options = .ok route ∧
      (route.status = .success → ∃ edge domain ready plan links,
        Admitted dfg target resources request edge domain ready ∧ route.plan = some plan ∧
        Found (requestContext target resources reservations request options domain ready) plan
          links) := by
  rw [search, if_neg hii]
  rcases hinput : validateInput dfg target resources request with exit | ⟨domain, ready⟩
  · obtain ⟨result, rfl, hstatus⟩ := validateInput_rejects hinput
    refine ⟨result, rfl, fun hsuccess ↦ ?_⟩
    rw [hsuccess] at hstatus
    rcases hstatus with hstatus | hstatus | hstatus
    all_goals cases hstatus
  · obtain ⟨edge, hadmitted⟩ := validateInput_eq_ok hinput
    have hvalid : (requestContext target resources reservations request options domain
      ready).Valid :=
      hadmitted.valid htarget hknown
    obtain ⟨result, hresult, htrust⟩ := returns_searchFrom hvalid
    rw [requestContext] at hresult
    refine ⟨result, ?_, fun hsuccess ↦ ?_⟩
    · simp only [bind, Except.bind]
      rcases hresult with hresult | hresult
      · rw [hresult]
      · rw [hresult]
    · obtain ⟨plan, links, hplan, hfound⟩ := htrust hsuccess
      exact ⟨edge, domain, ready, plan, links, hadmitted, hplan, hfound⟩

end Input

end ModuloRouteSearch

end PredicatedMesh
