import PredicatedMesh.Mapping.ExactOracle
import PredicatedMesh.Mapping.RouteSoundness

/-!
# The routes of the oracle

The enumeration is followed state by state. `Follows` is one step of it, `Route` what is known of a
state it has reached: the actions collected so far travel to the tile of the state, over free links.

The enumeration leaves out every route that comes back to a tile at the same slot. Nothing is lost
by that: whatever a plan does between two such visits can be cut out, and the rest of the plan
launches at the same slots as before, since the time that is cut out is a multiple of the interval.
So for each plan over free links there is an enumerated route to the same tile that takes no link
the plan does not take, and no more time (`exists_simple`).
-/

namespace PredicatedMesh

open Backtracking

namespace ExactModuloOracle

open ModuloRouteSearch (uint32Max OnArray onArray_of_neighbor)

/-- What a request for routes relies on. -/
structure RouteContext.Valid (ctx : RouteContext) (table : ResourceReservationTable) : Prop where
  producer : OnArray ctx.target ctx.producer.tile
  slot_lt : ctx.producer.issueSlot < ctx.ii
  known : table.owners.length = ctx.resources.resourceCount

variable {ctx : RouteContext} {table : ResourceReservationTable}

/-! ## State ids -/

theorem stateId_inj {a b : TileCoord} {s t : ℕ} (ha : OnArray ctx.target a)
    (hb : OnArray ctx.target b) (h : ctx.stateId a s = ctx.stateId b t) : a = b ∧ s = t := by
  rw [RouteContext.stateId, RouteContext.stateId] at h
  have hcols : 0 < ctx.target.array.cols := (Nat.zero_le _).trans_lt ha.2
  have hrows : 0 < ctx.target.array.rows := (Nat.zero_le _).trans_lt ha.1
  have hcol : a.col = b.col := by
    have hmod := congrArg (· % ctx.target.array.cols) h
    simp only [Nat.mul_add_mod_of_lt ha.2, Nat.mul_add_mod_of_lt hb.2] at hmod
    exact hmod
  have hrest : s * ctx.target.array.rows + a.row = t * ctx.target.array.rows + b.row := by
    rw [hcol, Nat.add_right_cancel_iff] at h
    exact Nat.eq_of_mul_eq_mul_right hcols h
  have hrow : a.row = b.row := by
    have hmod := congrArg (· % ctx.target.array.rows) hrest
    simp only [Nat.mul_add_mod_of_lt ha.1, Nat.mul_add_mod_of_lt hb.1] at hmod
    exact hmod
  have hslot : s = t := by
    rw [hrow, Nat.add_right_cancel_iff] at hrest
    exact Nat.eq_of_mul_eq_mul_right hrows hrest
  rcases a with ⟨row, col⟩
  rcases b with ⟨row', col'⟩
  obtain rfl : row = row' := hrow
  obtain rfl : col = col' := hcol
  exact ⟨rfl, hslot⟩

theorem stateId_lt {tile : TileCoord} {slot : ℕ} (htile : OnArray ctx.target tile)
    (hslot : slot < ctx.ii) : ctx.stateId tile slot < ctx.stateCount := by
  rw [RouteContext.stateId, RouteContext.stateCount]
  have hrows : slot * ctx.target.array.rows + tile.row + 1 ≤ ctx.ii * ctx.target.array.rows := by
    calc slot * ctx.target.array.rows + tile.row + 1
        ≤ slot * ctx.target.array.rows + ctx.target.array.rows := by
          have := htile.1
          omega
      _ = (slot + 1) * ctx.target.array.rows := (Nat.succ_mul _ _).symm
      _ ≤ ctx.ii * ctx.target.array.rows := Nat.mul_le_mul_right _ hslot
  calc (slot * ctx.target.array.rows + tile.row) * ctx.target.array.cols + tile.col
      < (slot * ctx.target.array.rows + tile.row) * ctx.target.array.cols
          + ctx.target.array.cols := Nat.add_lt_add_left htile.2 _
    _ = (slot * ctx.target.array.rows + tile.row + 1) * ctx.target.array.cols :=
        (Nat.succ_mul _ _).symm
    _ ≤ ctx.ii * ctx.target.array.rows * ctx.target.array.cols :=
        Nat.mul_le_mul_right _ hrows
    _ = ctx.target.array.rows * ctx.target.array.cols * ctx.ii := by ring

/-! ## One step -/

/-- A launch that is open to a route, and where it leads. -/
inductive Launches (ctx : RouteContext) (table : ResourceReservationTable) (current : RouteState)
    (direction : Direction) : RouteState → Prop
  | intro {nextTile : TileCoord} {resource : ResourceId} :
      ctx.target.neighbor current.tile direction = some nextTile →
      ctx.resources.linkAt ctx.domain current.tile direction
        ((ctx.producer.issueSlot + current.elapsed) % ctx.ii) = some resource →
      table.owners[resource]? = some none →
      resource ∉ current.linkResources →
      ctx.stateId nextTile ((current.slot + ctx.hopLatency) % ctx.ii) ∉ current.visited →
      current.elapsed ≤ uint32Max - ctx.hopLatency →
        Launches ctx table current direction (ctx.launched current direction nextTile
          ((current.slot + ctx.hopLatency) % ctx.ii) resource)

theorem launchOver_eq {current : RouteState} (hslot : current.slot < ctx.ii) (direction : Direction)
    (nextTile : TileCoord) (resource : ResourceId) :
    ctx.launchOver current direction nextTile resource = .ok
      (if ctx.stateId nextTile ((current.slot + ctx.hopLatency) % ctx.ii) ∈ current.visited
        then none
        else if current.elapsed > uint32Max - ctx.hopLatency then none
        else some (ctx.launched current direction nextTile
          ((current.slot + ctx.hopLatency) % ctx.ii) resource)) := by
  rw [RouteContext.launchOver, ModuloTimeDomain.advance_eq_ok_iff.mpr ⟨hslot, rfl⟩]
  simp only [apply_ite Except.ok]

/-- A step that no state follows. -/
theorem none_spec {P : RouteState → Prop} (h : ∀ next, ¬ P next) :
    ∃ o, (.ok none : Except String (Option RouteState)) = .ok o ∧ ∀ next, o = some next ↔ P next :=
  ⟨none, rfl, fun next ↦ iff_of_false (Option.some_ne_none next).symm (h next)⟩

/-- A launch is tried without an exception, and taken exactly when it is open. -/
theorem launch_spec (hvalid : ctx.Valid table) {current : RouteState}
    (hslot : current.slot < ctx.ii) (direction : Direction) : ∃ o,
      ctx.launch table current direction = .ok o ∧
        ∀ next, o = some next ↔ Launches ctx table current direction next := by
  have hadvance : ModuloTimeDomain.advance ctx.ii ctx.producer.issueSlot current.elapsed
      = .ok ((ctx.producer.issueSlot + current.elapsed) % ctx.ii) :=
    ModuloTimeDomain.advance_eq_ok_iff.mpr ⟨hvalid.slot_lt, rfl⟩
  simp only [RouteContext.launch, hadvance,
    @ModuloResourceModel.linkResource_of_advance ctx.resources _ _ _ _ _ _ hadvance]
  rcases hneighbor : ctx.target.neighbor current.tile direction with _ | nextTile
  · refine none_spec fun next h ↦ ?_
    rcases h with ⟨hnext, -⟩
    rw [hneighbor] at hnext
    cases hnext
  rcases hresource : ctx.resources.linkAt ctx.domain current.tile direction
      ((ctx.producer.issueSlot + current.elapsed) % ctx.ii) with _ | resource
  · refine none_spec fun next h ↦ ?_
    rcases h with ⟨-, hlink, -⟩
    rw [hresource] at hlink
    cases hlink
  have hlt : resource < table.owners.length := by
    rw [hvalid.known]
    exact ModuloResourceModel.findResource_lt
      (ModuloResourceModel.findResource_linkAt hresource)
  have hfree : table.isFree resource = .ok (table.owners[resource]).isNone := by
    rw [ResourceReservationTable.isFree, ResourceReservationTable.owner,
      List.getElem?_eq_getElem hlt]
    rfl
  have howner : table.owners[resource]? = some none ↔ (table.owners[resource]).isNone = true := by
    rw [List.getElem?_eq_getElem hlt, Option.some.injEq, Option.isNone_iff_eq_none]
  simp only [hfree]
  by_cases hopen : table.owners[resource]? = some none ∧ resource ∉ current.linkResources
  · have hgo : (!(table.owners[resource]).isNone || current.linkResources.contains resource)
        = false := by
      rw [howner.mp hopen.1, Bool.not_true, Bool.false_or]
      simpa using hopen.2
    rw [hgo, if_neg Bool.false_ne_true, launchOver_eq hslot]
    refine ⟨_, rfl, fun next ↦ ⟨fun h ↦ ?_, fun h ↦ ?_⟩⟩
    · split at h
      · cases h
      · rename_i hnew
        split at h
        · cases h
        · rename_i hfits
          obtain rfl := Option.some.inj h
          exact .intro hneighbor hresource hopen.1 hopen.2 hnew (not_lt.mp hfits)
    · rcases h with ⟨hnext, hlink, -, -, hnew, hfits⟩
      obtain rfl := Option.some.inj (hneighbor.symm.trans hnext)
      obtain rfl := Option.some.inj (hresource.symm.trans hlink)
      rw [if_neg hnew, if_neg (not_lt.mpr hfits)]
  · have hstop : (!(table.owners[resource]).isNone || current.linkResources.contains resource)
        = true := by
      rw [howner, not_and_or, not_not] at hopen
      rcases hopen with htaken | hused
      · simp [Bool.eq_false_iff.mpr htaken]
      · simp [hused]
    rw [hstop, if_pos rfl]
    refine none_spec fun next h ↦ ?_
    rcases h with ⟨hnext, hlink, hfreeLink, hunused, -, -⟩
    obtain rfl := Option.some.inj (hresource.symm.trans hlink)
    exact absurd ⟨hfreeLink, hunused⟩ hopen

/-- One cycle of waiting that is open to a route. -/
def Rests (ctx : RouteContext) (current next : RouteState) : Prop :=
  ctx.stateId current.tile ((current.slot + 1) % ctx.ii) ∉ current.visited ∧
    current.elapsed ≠ uint32Max ∧ next = ctx.rested current ((current.slot + 1) % ctx.ii)

theorem wait_spec {current : RouteState} (hslot : current.slot < ctx.ii) : ∃ o,
    ctx.wait current = .ok o ∧ ∀ next, o = some next ↔ Rests ctx current next := by
  rw [RouteContext.wait, ModuloTimeDomain.advance_eq_ok_iff.mpr ⟨hslot, rfl⟩]
  simp only [Rests]
  split
  · rename_i hseen
    exact none_spec fun next h ↦ h.1 hseen
  · rename_i hnew
    split
    · rename_i hlast
      exact none_spec fun next h ↦ h.2.1 hlast
    · rename_i hfits
      refine ⟨_, rfl, fun next ↦ ⟨fun h ↦ ⟨hnew, hfits, (Option.some.inj h).symm⟩, fun h ↦ ?_⟩⟩
      rw [h.2.2]

/-- One step of the enumeration. -/
def Follows (ctx : RouteContext) (table : ResourceReservationTable) (current next : RouteState) :
    Prop :=
  (∃ direction, Launches ctx table current direction next) ∨ Rests ctx current next

theorem mem_directions (direction : Direction) : direction ∈ directions := by
  rcases direction with _ | _ | _ | _ <;> simp [directions]

/-! ## Where routes come -/

/-- What is known of a state of the enumeration. -/
structure Route (ctx : RouteContext) (table : ResourceReservationTable) (state : RouteState) :
    Prop where
  travels : Travels ctx.resources ctx.domain ctx.producer ctx.ready state.actions
    state.linkResources state.tile state.elapsed
  slot : state.slot = (ctx.producer.issueSlot + state.elapsed) % ctx.ii
  nodup : state.linkResources.Nodup
  free : ∀ resource ∈ state.linkResources, table.owners[resource]? = some none
  onArray : OnArray ctx.target state.tile
  distinct : state.visited.Nodup
  visited_lt : ∀ id ∈ state.visited, id < ctx.stateCount

namespace Route

variable {state next : RouteState}

theorem slot_lt (h : Route ctx table state) (hvalid : ctx.Valid table) : state.slot < ctx.ii := by
  rw [h.slot]
  exact Nat.mod_lt _ ((Nat.zero_le _).trans_lt hvalid.slot_lt)

theorem start (hvalid : ctx.Valid table) :
    Route ctx table (ctx.start ((ctx.producer.issueSlot + ctx.ready) % ctx.ii)) where
  travels := .start
  slot := rfl
  nodup := .nil
  free := List.forall_mem_nil _
  onArray := hvalid.producer
  distinct := List.nodup_singleton _
  visited_lt := by
    intro id hid
    obtain rfl := List.mem_singleton.mp hid
    exact stateId_lt hvalid.producer (Nat.mod_lt _ ((Nat.zero_le _).trans_lt hvalid.slot_lt))

/-- The state that is visited next was not visited before. -/
theorem visits (h : Route ctx table state) {tile : TileCoord}
    {slot : ℕ} (htile : OnArray ctx.target tile) (hslot : slot < ctx.ii)
    (hnew : ctx.stateId tile slot ∉ state.visited) :
    (state.visited ++ [ctx.stateId tile slot]).Nodup ∧
      ∀ id ∈ state.visited ++ [ctx.stateId tile slot], id < ctx.stateCount := by
  constructor
  · rw [List.nodup_append_comm, List.singleton_append, List.nodup_cons]
    exact ⟨hnew, h.distinct⟩
  · rw [List.forall_mem_append, List.forall_mem_singleton]
    exact ⟨h.visited_lt, stateId_lt htile hslot⟩

theorem launch (h : Route ctx table state) (hvalid : ctx.Valid table) {direction : Direction}
    (hlaunch : Launches ctx table state direction next) : Route ctx table next := by
  rcases hlaunch with @⟨nextTile, resource, hneighbor, hresource, hfree, hunused, hnew, -⟩
  have hpos : 0 < ctx.ii := (Nat.zero_le _).trans_lt hvalid.slot_lt
  have htile := onArray_of_neighbor hneighbor
  obtain ⟨hdistinct, hlt⟩ := h.visits htile (Nat.mod_lt _ hpos) hnew
  refine
    { travels := h.travels.link hneighbor hresource
      slot := ?_
      nodup := ?_
      free := ?_
      onArray := htile
      distinct := hdistinct
      visited_lt := hlt }
  · simp only [RouteContext.launched, h.slot]
    rw [Nat.mod_add_mod, Nat.add_assoc]
  · simp only [RouteContext.launched]
    rw [List.nodup_append_comm, List.singleton_append, List.nodup_cons]
    exact ⟨hunused, h.nodup⟩
  · simp only [RouteContext.launched]
    rw [List.forall_mem_append, List.forall_mem_singleton]
    exact ⟨h.free, hfree⟩

/-- Waiting is written down as the mapper's route search does it. -/
theorem waited_eq (state : RouteState) : ctx.waited state =
    ModuloRouteSearch.appendHold state.actions
      ⟨ctx.domain, state.tile, state.elapsed, state.elapsed + 1⟩ := rfl

theorem rest (h : Route ctx table state) (hvalid : ctx.Valid table)
    (hrest : Rests ctx state next) : Route ctx table next := by
  obtain ⟨hnew, -, rfl⟩ := hrest
  have hpos : 0 < ctx.ii := (Nat.zero_le _).trans_lt hvalid.slot_lt
  obtain ⟨hdistinct, hlt⟩ := h.visits h.onArray (Nat.mod_lt _ hpos) hnew
  refine
    { travels := ?_
      slot := ?_
      nodup := h.nodup
      free := h.free
      onArray := h.onArray
      distinct := hdistinct
      visited_lt := hlt }
  · simp only [RouteContext.rested, waited_eq]
    exact h.travels.appendHold (Nat.lt_succ_self _)
  · simp only [RouteContext.rested, h.slot]
    rw [Nat.mod_add_mod, Nat.add_assoc]

/-- **A step of the enumeration leads to a route.** -/
theorem follow (h : Route ctx table state) (hvalid : ctx.Valid table)
    (hstep : Follows ctx table state next) : Route ctx table next := by
  rcases hstep with ⟨direction, hlaunch⟩ | hrest
  · exact h.launch hvalid hlaunch
  · exact h.rest hvalid hrest

theorem run (h : Route ctx table state) (hvalid : ctx.Valid table)
    (hrun : Relation.ReflTransGen (Follows ctx table) state next) : Route ctx table next := by
  induction hrun with
  | refl => exact h
  | tail _ hstep ih => exact ih.follow hvalid hstep

/-- A route visits no more states than there are. -/
theorem length_le (h : Route ctx table state) : state.visited.length ≤ ctx.stateCount := by
  have hsubset : state.visited ⊆ List.range ctx.stateCount :=
    fun id hid ↦ List.mem_range.mpr (h.visited_lt id hid)
  have hle := (List.subperm_of_subset h.distinct hsubset).length_le
  rwa [List.length_range] at hle

end Route

/-! ## What is offered -/

/-- A plan from the producer to the consumer over free links. -/
structure Offered (ctx : RouteContext) (table : ResourceReservationTable)
    (route : TransportPlan × List ResourceId) : Prop where
  edge : route.1.edge = ctx.edge.id
  domain : route.1.domain = ctx.domain
  nonempty : route.1.actions ≠ []
  travels : Travels ctx.resources ctx.domain ctx.producer ctx.ready route.1.actions route.2
    ctx.consumer.tile route.1.requiredSeparationCycles
  nodup : route.2.Nodup
  free : ∀ resource ∈ route.2, table.owners[resource]? = some none
  inTime : ctx.ready ≤ uint32Max → route.1.requiredSeparationCycles ≤ uint32Max

theorem Route.offered {state : RouteState} (h : Route ctx table state)
    {route : TransportPlan × List ResourceId} (hoffer : ctx.offer state = some route) :
    Offered ctx table route := by
  rw [RouteContext.offer] at hoffer
  by_cases htile : state.tile = ctx.consumer.tile
  · rw [if_pos htile] at hoffer
    by_cases hempty : state.actions.isEmpty = true
    · rw [if_pos hempty] at hoffer
      by_cases hlocal : ctx.producer.tile = ctx.consumer.tile ∧ ctx.ready ≠ uint32Max
      · rw [if_pos hlocal] at hoffer
        obtain rfl := Option.some.inj hoffer
        have hhold := (@Travels.start ctx.resources ctx.domain ctx.producer ctx.ready).hold
          (Nat.lt_succ_self ctx.ready)
        rw [hlocal.1] at hhold
        exact
          { edge := rfl
            domain := rfl
            nonempty := List.cons_ne_nil _ _
            travels := by rw [hlocal.1]; exact hhold
            nodup := .nil
            free := List.forall_mem_nil _
            inTime := fun hready ↦ Nat.lt_of_le_of_ne hready hlocal.2 }
      · rw [if_neg hlocal] at hoffer
        cases hoffer
    · rw [if_neg hempty] at hoffer
      by_cases hfits : state.elapsed ≤ uint32Max
      · rw [if_pos hfits] at hoffer
        obtain rfl := Option.some.inj hoffer
        have htravels := h.travels
        rw [htile] at htravels
        exact
          { edge := rfl
            domain := rfl
            nonempty := fun hnil ↦ hempty (List.isEmpty_iff.mpr hnil)
            travels := htravels
            nodup := h.nodup
            free := h.free
            inTime := fun _ ↦ hfits }
      · rw [if_neg hfits] at hoffer
        cases hoffer
  · rw [if_neg htile] at hoffer
    cases hoffer

/-! ## Visiting every route -/

section Visit

variable {consume : RouteConsumer} {s : RealizeState} {good : RealizeState → Prop}
  {possible : TransportPlan × List ResourceId → Prop}

/-- A route from a state on that offers a plan with which the search may go on. -/
def Leads (ctx : RouteContext) (table : ResourceReservationTable)
    (possible : TransportPlan × List ResourceId → Prop) (current : RouteState) : Prop :=
  ∃ state, Relation.ReflTransGen (Follows ctx table) current state ∧
    ∃ route, ctx.offer state = some route ∧ possible route

theorem Leads.cases {current : RouteState} (h : Leads ctx table possible current) :
    (∃ route, ctx.offer current = some route ∧ possible route) ∨
      (∃ direction ∈ directions, ∃ next, Launches ctx table current direction next ∧
        Leads ctx table possible next) ∨
      ∃ next, Rests ctx current next ∧ Leads ctx table possible next := by
  obtain ⟨state, hrun, hoffer⟩ := h
  rcases Relation.ReflTransGen.cases_head hrun with rfl | ⟨next, hstep, hrest⟩
  · exact .inl hoffer
  · rcases hstep with ⟨direction, hlaunch⟩ | hwait
    · exact .inr (.inl ⟨direction, mem_directions direction, next, hlaunch, state, hrest, hoffer⟩)
    · exact .inr (.inr ⟨next, hwait, state, hrest, hoffer⟩)

/-- **The enumeration settles whether a route leads anywhere**, with fuel for the states that are
not visited yet. -/
theorem settles_visit (hvalid : ctx.Valid s.reservations)
    (hconsume : ∀ route, Offered ctx s.reservations route →
      Settles (consume route) s (possible route) good) {fuel : ℕ} {current : RouteState}
    (hroute : Route ctx s.reservations current)
    (hfuel : ctx.stateCount < current.visited.length + fuel) :
    Settles (visit ctx consume fuel current) s
      (Leads ctx s.reservations possible current) good := by
  induction fuel generalizing current with
  | zero => exact absurd hroute.length_le (not_le.mpr hfuel)
  | succ fuel ih =>
    have hslot := hroute.slot_lt hvalid
    have hoffer : Settles (along (fun _ ↦ .ok (ctx.offer current)) consume) s
        (∃ route, ctx.offer current = some route ∧ possible route) good :=
      settles_along rfl fun route hsome ↦ hconsume route (hroute.offered hsome)
    have hlaunches : Settles (anyOf (fun direction ↦
        along (fun s ↦ ctx.launch s.reservations current direction) (visit ctx consume fuel))
          directions) s
        (∃ direction ∈ directions, ∃ next, Launches ctx s.reservations current direction next ∧
          Leads ctx s.reservations possible next) good := by
      refine settles_anyOf fun direction _ ↦ ?_
      obtain ⟨o, hlaunch, hspec⟩ := launch_spec hvalid hslot direction
      have hbelow : ∀ next, o = some next → Settles (visit ctx consume fuel next) s
          (Leads ctx s.reservations possible next) good := by
        intro next hsome
        have hnext := (hspec next).mp hsome
        refine ih (hroute.launch hvalid hnext) ?_
        rcases hnext with ⟨-, -, -, -, -, -⟩
        simp only [RouteContext.launched, List.length_append, List.length_singleton]
        omega
      have halong : Settles (along (fun s ↦ ctx.launch s.reservations current direction)
          (visit ctx consume fuel)) s
          (∃ next, o = some next ∧ Leads ctx s.reservations possible next) good :=
        settles_along hlaunch hbelow
      refine halong.mono ?_
      rintro ⟨next, hnext, hleads⟩
      exact ⟨next, (hspec next).mpr hnext, hleads⟩
    have hwaits : Settles (along (fun _ ↦ ctx.wait current) (visit ctx consume fuel)) s
        (∃ next, Rests ctx current next ∧ Leads ctx s.reservations possible next) good := by
      obtain ⟨o, hwait, hspec⟩ := wait_spec hslot
      have hbelow : ∀ next, o = some next → Settles (visit ctx consume fuel next) s
          (Leads ctx s.reservations possible next) good := by
        intro next hsome
        have hnext := (hspec next).mp hsome
        refine ih (hroute.rest hvalid hnext) ?_
        obtain ⟨-, -, rfl⟩ := hnext
        simp only [RouteContext.rested, List.length_append, List.length_singleton]
        omega
      have halong : Settles (along (fun _ ↦ ctx.wait current) (visit ctx consume fuel)) s
          (∃ next, o = some next ∧ Leads ctx s.reservations possible next) good :=
        settles_along hwait hbelow
      refine halong.mono ?_
      rintro ⟨next, hnext, hleads⟩
      exact ⟨next, (hspec next).mpr hnext, hleads⟩
    exact (hoffer.orElse (hlaunches.orElse hwaits)).mono Leads.cases

theorem settles_routeCandidates (hvalid : ctx.Valid s.reservations)
    (hconsume : ∀ route, Offered ctx s.reservations route →
      Settles (consume route) s (possible route) good) :
    Settles (routeCandidates ctx consume) s (Leads ctx s.reservations possible
      (ctx.start ((ctx.producer.issueSlot + ctx.ready) % ctx.ii))) good := by
  have hstart := Route.start hvalid
  have hpos : ctx.stateCount ≠ 0 := by
    have hle := hstart.length_le
    simp only [RouteContext.start, List.length_singleton] at hle
    omega
  have hrun : routeCandidates ctx consume s = visit ctx consume ctx.stateCount
      (ctx.start ((ctx.producer.issueSlot + ctx.ready) % ctx.ii)) s := by
    rw [routeCandidates, if_neg hpos, ModuloTimeDomain.advance_eq_ok_iff.mpr ⟨hvalid.slot_lt, rfl⟩]
  have hfuel : ctx.stateCount
      < (ctx.start ((ctx.producer.issueSlot + ctx.ready) % ctx.ii)).visited.length
        + ctx.stateCount := by
    simp only [RouteContext.start, List.length_singleton]
    omega
  rw [Settles, hrun]
  exact settles_visit hvalid hconsume hstart hfuel

end Visit

/-! ## Routes without detours -/

/-- An enumerated route to a tile at a slot that takes only some of these links, and no more time.
-/
def Simple (ctx : RouteContext) (table : ResourceReservationTable) (links : List ResourceId)
    (tile : TileCoord) (elapsed : ℕ) : Prop :=
  ∃ state, Relation.ReflTransGen (Follows ctx table)
      (ctx.start ((ctx.producer.issueSlot + ctx.ready) % ctx.ii)) state ∧
    state.tile = tile ∧ state.slot = (ctx.producer.issueSlot + elapsed) % ctx.ii ∧
    state.elapsed ≤ elapsed ∧ state.linkResources ⊆ links

/-- Every state a route has visited is the end of a route of its own, with fewer links. -/
theorem exists_prefix {start state : RouteState}
    (hstart : start.visited = [ctx.stateId start.tile start.slot])
    (hrun : Relation.ReflTransGen (Follows ctx table) start state) {id : ℕ}
    (hid : id ∈ state.visited) : ∃ before,
      Relation.ReflTransGen (Follows ctx table) start before ∧
        ctx.stateId before.tile before.slot = id ∧ before.elapsed ≤ state.elapsed ∧
        before.linkResources ⊆ state.linkResources := by
  induction hrun with
  | refl =>
    rw [hstart, List.mem_singleton] at hid
    exact ⟨start, .refl, hid.symm, le_rfl, List.Subset.refl _⟩
  | @tail state next hrun hstep ih =>
    have hsplit : (id ∈ state.visited ∨ id = ctx.stateId next.tile next.slot) ∧
        state.elapsed ≤ next.elapsed ∧ state.linkResources ⊆ next.linkResources := by
      rcases hstep with ⟨direction, ⟨-, -, -, -, -, -⟩⟩ | ⟨-, -, rfl⟩
      · simp only [RouteContext.launched, List.mem_append, List.mem_singleton] at hid ⊢
        exact ⟨hid, Nat.le_add_right _ _, List.subset_append_left _ _⟩
      · simp only [RouteContext.rested, List.mem_append, List.mem_singleton] at hid ⊢
        exact ⟨hid, Nat.le_succ _, List.Subset.refl _⟩
    obtain ⟨hseen | rfl, hle, hsubset⟩ := hsplit
    · obtain ⟨before, hbefore, hstate, hle', hsubset'⟩ := ih hseen
      exact ⟨before, hbefore, hstate, hle'.trans hle,
        List.Subset.trans hsubset' hsubset⟩
    · exact ⟨next, hrun.tail hstep, rfl, le_rfl, List.Subset.refl _⟩

namespace Simple

variable {links : List ResourceId} {tile : TileCoord} {elapsed : ℕ}

/-- A state that was visited before is reached without the detour. -/
theorem shortcut (hvalid : ctx.Valid table) {state : RouteState}
    (hrun : Relation.ReflTransGen (Follows ctx table)
      (ctx.start ((ctx.producer.issueSlot + ctx.ready) % ctx.ii)) state)
    (helapsed : state.elapsed ≤ elapsed) (hsubset : state.linkResources ⊆ links)
    (htile : OnArray ctx.target tile)
    (hseen : ctx.stateId tile ((ctx.producer.issueSlot + elapsed) % ctx.ii) ∈ state.visited) :
    Simple ctx table links tile elapsed := by
  obtain ⟨before, hbefore, hid, hle, hsubset'⟩ := exists_prefix rfl hrun hseen
  have hroute := (Route.start hvalid).run hvalid hbefore
  obtain ⟨rfl, hslot⟩ := stateId_inj hroute.onArray htile hid
  exact ⟨before, hbefore, rfl, hslot, hle.trans helapsed,
    List.Subset.trans hsubset' hsubset⟩

/-- One more launch. -/
theorem launch (hvalid : ctx.Valid table) (h : Simple ctx table links tile elapsed)
    {next : TileCoord} {direction : Direction} {resource : ResourceId}
    (hneighbor : ctx.target.neighbor tile direction = some next)
    (hresource : ctx.resources.linkAt ctx.domain tile direction
      ((ctx.producer.issueSlot + elapsed) % ctx.ii) = some resource)
    (hfree : table.owners[resource]? = some none) (hnew : resource ∉ links)
    (hfits : elapsed + ctx.hopLatency ≤ uint32Max) :
    Simple ctx table (links ++ [resource]) next (elapsed + ctx.hopLatency) := by
  obtain ⟨state, hrun, rfl, hslot, hle, hsubset⟩ := h
  have hroute := (Route.start hvalid).run hvalid hrun
  have hnextSlot : (state.slot + ctx.hopLatency) % ctx.ii
      = (ctx.producer.issueSlot + (elapsed + ctx.hopLatency)) % ctx.ii := by
    rw [hslot, Nat.mod_add_mod, Nat.add_assoc]
  have hsubset' : state.linkResources ⊆ links ++ [resource] :=
    List.Subset.trans hsubset (List.subset_append_left _ _)
  by_cases hseen : ctx.stateId next ((state.slot + ctx.hopLatency) % ctx.ii) ∈ state.visited
  · rw [hnextSlot] at hseen
    exact shortcut hvalid hrun (hle.trans (Nat.le_add_right _ _)) hsubset'
      (onArray_of_neighbor hneighbor) hseen
  · -- the launch is at the same slot as in the plan, since the route is at the same slot
    have hsame : (ctx.producer.issueSlot + state.elapsed) % ctx.ii
        = (ctx.producer.issueSlot + elapsed) % ctx.ii := hroute.slot.symm.trans hslot
    have hlaunch : Launches ctx table state direction _ :=
      .intro hneighbor (by rw [hsame]; exact hresource) hfree (fun hmem ↦ hnew (hsubset hmem))
        hseen (by omega)
    refine ⟨_, hrun.tail (.inl ⟨direction, hlaunch⟩), rfl, hnextSlot, ?_, ?_⟩
    · exact Nat.add_le_add_right hle _
    · exact List.append_subset.mpr ⟨hsubset', List.subset_append_right _ _⟩

/-- One more cycle of waiting. -/
theorem rest (hvalid : ctx.Valid table) (h : Simple ctx table links tile elapsed)
    (hfits : elapsed + 1 ≤ uint32Max) : Simple ctx table links tile (elapsed + 1) := by
  obtain ⟨state, hrun, rfl, hslot, hle, hsubset⟩ := h
  have hroute := (Route.start hvalid).run hvalid hrun
  have hnextSlot : (state.slot + 1) % ctx.ii
      = (ctx.producer.issueSlot + (elapsed + 1)) % ctx.ii := by
    rw [hslot, Nat.mod_add_mod, Nat.add_assoc]
  by_cases hseen : ctx.stateId state.tile ((state.slot + 1) % ctx.ii) ∈ state.visited
  · rw [hnextSlot] at hseen
    exact shortcut hvalid hrun (hle.trans (Nat.le_succ _)) hsubset hroute.onArray hseen
  · have hrest : Rests ctx state (ctx.rested state ((state.slot + 1) % ctx.ii)) :=
      ⟨hseen, by omega, rfl⟩
    exact ⟨_, hrun.tail (.inr hrest), rfl, hnextSlot, Nat.add_le_add_right hle 1, hsubset⟩

/-- Waiting until a release. -/
theorem hold (hvalid : ctx.Valid table) (h : Simple ctx table links tile elapsed) {release : ℕ}
    (hle : elapsed ≤ release) (hfits : release ≤ uint32Max) :
    Simple ctx table links tile release := by
  induction release, hle using Nat.le_induction with
  | base => exact h
  | succ release _ ih => exact (ih (by omega)).rest hvalid hfits

end Simple

/-- **A plan can be followed without detours.** -/
theorem exists_simple (hvalid : ctx.Valid table) {actions : List TransportAction}
    {links : List ResourceId} {tile : TileCoord} {elapsed : ℕ}
    (h : Travels ctx.resources ctx.domain ctx.producer ctx.ready actions links tile elapsed)
    (hnodup : links.Nodup) (hfree : ∀ resource ∈ links, table.owners[resource]? = some none)
    (hfits : elapsed ≤ uint32Max) : Simple ctx table links tile elapsed := by
  induction h with
  | start => exact ⟨_, .refl, rfl, rfl, le_rfl, List.nil_subset _⟩
  | @link actions links tile next elapsed direction resource _ hneighbor hresource ih =>
    rw [List.nodup_append_comm, List.singleton_append, List.nodup_cons] at hnodup
    rw [List.forall_mem_append, List.forall_mem_singleton] at hfree
    have hle : elapsed ≤ uint32Max := (Nat.le_add_right _ _).trans hfits
    exact (ih hnodup.2 hfree.1 hle).launch hvalid hneighbor hresource hfree.2 hnodup.1 hfits
  | hold _ hlt ih =>
    exact (ih hnodup hfree (hlt.le.trans hfits)).hold hvalid hlt.le hfits

/-- **A plan that could be taken is no better than one that is offered.** -/
theorem leads_of_travels (hvalid : ctx.Valid table) {actions : List TransportAction}
    {links : List ResourceId} {elapsed : ℕ} (hactions : actions ≠ [])
    (h : Travels ctx.resources ctx.domain ctx.producer ctx.ready actions links ctx.consumer.tile
      elapsed) (hhop : 0 < ctx.hopLatency)
    (hnodup : links.Nodup) (hfree : ∀ resource ∈ links, table.owners[resource]? = some none)
    (hfits : elapsed ≤ uint32Max) : Leads ctx table (fun route ↦ route.2 ⊆ links)
      (ctx.start ((ctx.producer.issueSlot + ctx.ready) % ctx.ii)) := by
  obtain ⟨state, hrun, htile, -, hle, hsubset⟩ := exists_simple hvalid h hnodup hfree hfits
  have hroute := (Route.start hvalid).run hvalid hrun
  refine ⟨state, hrun, ?_⟩
  rw [RouteContext.offer, if_pos htile]
  by_cases hempty : state.actions = []
  · -- the value is consumed where it is produced, and waits for a cycle
    have hlocal : ctx.producer.tile = ctx.consumer.tile := by
      have htravels := hroute.travels
      rw [hempty] at htravels
      rw [← htile, htravels.tile_eq_of_nil]
    have hready : ctx.ready ≠ uint32Max := ((h.ready_lt hhop hactions).trans_le hfits).ne
    rw [if_pos (List.isEmpty_iff.mpr hempty), if_pos ⟨hlocal, hready⟩]
    exact ⟨_, rfl, List.nil_subset _⟩
  · rw [if_neg (fun h ↦ hempty (List.isEmpty_iff.mp h)), if_pos (hle.trans hfits)]
    exact ⟨_, rfl, hsubset⟩

end ExactModuloOracle

end PredicatedMesh
