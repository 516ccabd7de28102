import PredicatedMesh.Mapping.RouteBudget
import PredicatedMesh.Schedule.Execution

/-!
# Route search is complete and optimal

A route is any finite sequence of one-cycle holds and link launches that begins where and when the
value becomes available and takes links that are free when it launches. `Sequence` says so in terms
of tiles and elapsed time; such a sequence may be as long as it likes and come back to a tile any
number of times. It is the same thing as a walk through the states of the search, so what holds of
walks holds of sequences: the search finds one when there is one, and no sequence costs less than
the plan it returns.

There is one exception. A plan records its separation in 32 bits, the search counts in 64, and a
producer may be ready late: when every sequence takes too long, the search reports that it could
not reconstruct one.
-/

namespace PredicatedMesh

namespace ModuloRouteSearch

variable {ctx : Context}

/-! ## Holds and launches -/

/-- A finite sequence of one-cycle holds and link launches, with the tile it ends on and what it
costs. It begins on the producer's tile when the value is ready, and takes links that are free at
the slot at which they are launched. -/
inductive Sequence (ctx : Context) : List Move → TileCoord → Cost → Prop
  | start : Sequence ctx [] ctx.request.producer.tile ⟨ctx.producerReady, 0, 0⟩
  | hold {l : List Move} {tile : TileCoord} {cost : Cost} :
      Sequence ctx l tile cost →
      ctx.options.allowVirtualHold = true →
        Sequence ctx (l ++ [.hold]) tile ⟨cost.elapsed + 1, cost.holds + 1, cost.hops⟩
  | launch {l : List Move} {tile next : TileCoord} {cost : Cost} {direction : Direction}
      {resource : ResourceId} :
      Sequence ctx l tile cost →
      ctx.target.neighbor tile direction = some next →
      ctx.resources.linkAt ctx.domain tile direction
          ((ctx.request.producer.issueSlot + cost.elapsed) % ctx.resources.ii) = some resource →
      ctx.reservations.owners[resource]? = some none →
        Sequence ctx (l ++ [.link direction]) next
          ⟨cost.elapsed + (ctx.target.network ctx.domain).hopLatency, cost.holds, cost.hops + 1⟩

/-- A sequence is a walk through the states of the search. -/
theorem Sequence.exists_walk (hvalid : ctx.Valid) {l : List Move} {tile : TileCoord} {cost : Cost}
    (h : Sequence ctx l tile cost) : ∃ id, Walk ctx l id cost ∧ (stateFor ctx id).tile = tile := by
  induction h with
  | start => exact ⟨origin ctx, .nil, by rw [stateFor_origin hvalid]⟩
  | @hold l tile cost _ hallowed ih =>
    obtain ⟨id, hwalk, rfl⟩ := ih
    refine ⟨_, hwalk.snoc (next_hold_eq_some.mpr ⟨hallowed, rfl⟩), ?_⟩
    rw [stateFor_stateId (hvalid.onArray_stateFor id)]
  | @launch l tile next cost direction resource _ hneighbor hresource hfree ih =>
    obtain ⟨id, hwalk, rfl⟩ := ih
    rw [← Walk.coherent hvalid hwalk] at hresource
    refine ⟨_, hwalk.snoc
      (next_link_eq_some.mpr ⟨next, resource, hneighbor, hresource, hfree, rfl⟩), ?_⟩
    rw [stateFor_stateId (onArray_of_neighbor hneighbor)]

theorem Walk.sequence (hvalid : ctx.Valid) {l : List Move} {id : ℕ} {cost : Cost}
    (h : Walk ctx l id cost) : Sequence ctx l (stateFor ctx id).tile cost := by
  induction h with
  | nil =>
    rw [stateFor_origin hvalid]
    exact .start
  | @snoc l s t cost move hwalk hnext ih =>
    cases move with
    | hold =>
      obtain ⟨hallowed, rfl⟩ := next_hold_eq_some.mp hnext
      rw [stateFor_stateId (hvalid.onArray_stateFor s)]
      exact ih.hold hallowed
    | link direction =>
      obtain ⟨nextTile, resource, hneighbor, hresource, hfree, rfl⟩ := next_link_eq_some.mp hnext
      rw [stateFor_stateId (onArray_of_neighbor hneighbor)]
      rw [Walk.coherent hvalid hwalk] at hresource
      exact ih.launch hneighbor hresource hfree

/-! ## What the search returns -/

/-- The costs of the sequences that reach the consumer. -/
def Reaches (ctx : Context) (cost : Cost) : Prop :=
  ∃ l, Sequence ctx l ctx.request.consumer.tile cost

/-- The least cost of the sequences that reach the consumer. -/
def Optimal (ctx : Context) (cost : Cost) : Prop :=
  Reaches ctx cost ∧ ∀ other, Reaches ctx other → cost ≤ other

/-- The result of a search between different tiles. -/
inductive Outcome (ctx : Context) : RouteSearchResult → Prop
  | unreachable (message : String) :
      (∀ cost, ¬ Reaches ctx cost) → Outcome ctx (noPath ctx message)
  | found {plan : TransportPlan} {resources : List ResourceId} :
      Found ctx plan resources →
      plan.requiredSeparationCycles ≤ uint32Max →
      Optimal ctx (planCost plan) →
        Outcome ctx { status := .success, plan := some plan }
  | tooLong {cost : Cost} :
      Optimal ctx cost →
      uint32Max < cost.elapsed →
        Outcome ctx
          { status := .internalError
            diagnostics := [ctx.diagnostic .internalReconstructionError
              "route predecessor chain could not be reconstructed"] }
  | stopped {result : RouteSearchResult} :
      result.status = .budgetExceeded → Outcome ctx result

/-- A computation that ends with such a result. -/
def Concludes (ctx : Context) (r : Except RouteSearchExit RouteSearchResult) : Prop :=
  ∃ result, (r = .ok result ∨ r = .error (.returned result)) ∧ Outcome ctx result

theorem concludes_success (hfits : ctx.Fits)
    (hapart : ctx.request.producer.tile ≠ ctx.request.consumer.tile) {search : Search}
    {entry : QueueEntry} {queue : List QueueEntry} (h : Searching ctx search)
    (hpops : search.Pops entry queue)
    (htile : (stateFor ctx entry.state).tile = ctx.request.consumer.tile) :
    Concludes ctx (success ctx (search.settle entry.state queue) entry.state) := by
  have hlabelled := h.toGrowing.labelled_of_pops hpops
  have hgrowing := h.toGrowing.settle hpops.queue_eq
  have hbest : (search.settle entry.state queue).best entry.state = entry.cost := hpops.current.symm
  have hoptimal : Optimal ctx entry.cost := by
    constructor
    · have hlabel := labels_best_eq_some.mpr ⟨hlabelled, hpops.current.symm⟩
      obtain ⟨l, hbranch⟩ := h.tree.exists_branch hlabel
      have hsequence := Walk.sequence hfits.toValid (h.tree.of_branch hbranch hlabel).1
      rw [htile] at hsequence
      exact ⟨_, hsequence⟩
    · rintro other ⟨l, hsequence⟩
      obtain ⟨id, hwalk, hother⟩ := hsequence.exists_walk hfits.toValid
      exact h.le_of_walk hpops hwalk hother
  rw [success]
  by_cases hfit : entry.cost.elapsed ≤ uint32Max
  · obtain ⟨plan, resources, hplan, hfound, hcost⟩ :=
      reconstruct_of_fit hfits hgrowing hlabelled htile hapart (hbest ▸ hfit)
    rw [hbest] at hcost
    rw [hplan]
    refine ⟨_, .inl rfl, .found hfound ?_ (hcost ▸ hoptimal)⟩
    rw [← hcost] at hfit
    exact hfit
  · rw [not_le] at hfit
    rw [reconstruct_of_too_long hfits hgrowing hlabelled (hbest ▸ hfit)]
    exact ⟨_, .inr rfl, .tooLong hoptimal hfit⟩

theorem concludes_searchLoop (hfits : ctx.Fits)
    (hapart : ctx.request.producer.tile ≠ ctx.request.consumer.tile) {fuel : ℕ} {search : Search}
    (h : Searching ctx search) (hfuel : search.outstanding ctx < fuel) :
    Concludes ctx (searchLoop ctx fuel search) := by
  obtain ⟨last, hsearching, hends⟩ := h.ends hfits hfuel
  generalize searchLoop ctx fuel search = r at hends
  rcases hends with hqueue | ⟨hpops, htile⟩ | ⟨hpops, -⟩ | ⟨hpops, -, hfail⟩
  · refine ⟨_, .inl rfl, .unreachable _ ?_⟩
    rintro cost ⟨l, hsequence⟩
    obtain ⟨id, hwalk, htile⟩ := hsequence.exists_walk hfits.toValid
    exact hsearching.not_walk hqueue hwalk htile
  · exact concludes_success hfits hapart hsearching hpops htile
  · exact ⟨_, .inl rfl, .stopped rfl⟩
  · have hlabelled := hsearching.toGrowing.labelled_of_pops hpops
    have hcoherent := hsearching.toGrowing.coherent hfits.toValid hlabelled
    have hbounded := hsearching.toGrowing.bounded hfits hlabelled
    rw [← hpops.current] at hcoherent hbounded
    rcases expand_eq_error hfits.toValid hcoherent hfail with rfl | ⟨move, _, hover, -⟩
    · exact ⟨_, .inr rfl, .stopped rfl⟩
    · exact absurd hover (hbounded.extend hfits move).1

/-- **Route search is complete and optimal.** -/
theorem concludes_searchFrom (hfits : ctx.Fits)
    (hapart : ctx.request.producer.tile ≠ ctx.request.consumer.tile) :
    Concludes ctx (searchFrom ctx) := by
  rcases searchFrom_cases hfits.toValid with ⟨hnone, -⟩ | ⟨-, result, hstatus, hresult⟩ |
    ⟨hfuel, hloop⟩
  · have hlt := origin_lt hfits.toValid
    rw [hfits.stateCount_eq] at hnone
    omega
  · exact ⟨result, .inl hresult, .stopped hstatus⟩
  · rw [hloop, if_neg hapart]
    exact concludes_searchLoop hfits hapart .started hfuel

/-! ## Requests -/

section Requests

variable {dfg : TargetDFG} {target : TargetModel} {resources : ModuloResourceModel}
  {reservations : ResourceReservationTable} {request : RouteSearchRequest} {edge : TargetEdge}
  {producer consumer : TargetNode} {ready : ℕ}

/-- A value edge of a verified graph between two placed operations on different tiles. -/
structure Requested (dfg : TargetDFG) (target : TargetModel) (resources : ModuloResourceModel)
    (reservations : ResourceReservationTable) (request : RouteSearchRequest) (edge : TargetEdge)
    (producer consumer : TargetNode) (ready : ℕ) : Prop where
  verified : TargetDFGVerifier.verify dfg target = []
  targetName : dfg.targetName = target.name
  sameTarget : resources.target = target
  ii_ne : resources.ii ≠ 0
  known : reservations.owners.length = resources.resourceCount
  found : dfg.findEdge request.edge = some edge
  value : edge.kind ≠ .memory
  src : request.producer.node = edge.src
  dst : request.consumer.node = edge.dst
  producer_found : dfg.findNode edge.src = some producer
  consumer_found : dfg.findNode edge.dst = some consumer
  producer_supported : resources.supportsOperation request.producer.tile producer = true
  consumer_supported : resources.supportsOperation request.consumer.tile consumer = true
  producer_slot : request.producer.issueSlot < resources.ii
  consumer_slot : request.consumer.issueSlot < resources.ii
  ready_eq : producer.producerOutputReadyOffset = some ready
  apart : request.producer.tile ≠ request.consumer.tile
  /-- The numbers of a target are unsigned, and its hop latency is positive. -/
  ready_lt : ready < 2 ^ 32
  hopLatency_lt : (target.network (requestedDomain edge)).hopLatency < 2 ^ 32
  hopLatency_ne : (target.network (requestedDomain edge)).hopLatency ≠ 0

theorem demand_of_true {ok : Bool} {exit : RouteSearchExit} (h : ok = true) :
    demand ok exit = .ok () :=
  if_pos h

theorem validPlacement_of {placement : NodePlacement} {expected : TargetNodeId} {role : String}
    {mismatch : RouteSearchDiagnosticCode} {node : TargetNode} (hnode : placement.node = expected)
    (hfound : dfg.findNode expected = some node)
    (hsupported : resources.supportsOperation placement.tile node = true)
    (hslot : placement.issueSlot < resources.ii) (htarget : resources.target = target) :
    validPlacement dfg target resources request placement expected role mismatch = .ok () := by
  obtain ⟨hrow, hcol⟩ := ModuloResourceModel.inRange_of_supportsOperation hsupported
  rw [htarget] at hrow hcol
  have htile : (placement.tile.row < target.array.rows && placement.tile.col < target.array.cols)
      = true := by
    rw [decide_eq_true hrow, decide_eq_true hcol]
    rfl
  rw [validPlacement]
  refine Scan.bind_eq_ok.mpr ⟨_, demand_of_true (beq_iff_eq.mpr hnode), ?_⟩
  refine Scan.bind_eq_ok.mpr ⟨_, demand_of_true htile, ?_⟩
  refine Scan.bind_eq_ok.mpr ⟨_, demand_of_true (decide_eq_true hslot), ?_⟩
  exact Scan.bind_eq_ok.mpr ⟨_, nodeAt_eq_ok.mpr hfound, demand_of_true hsupported⟩

theorem Requested.validateInput_eq
    (h : Requested dfg target resources reservations request edge producer consumer ready) :
    validateInput dfg target resources request = .ok (requestedDomain edge, ready) := by
  have hname : (dfg.targetName == target.name && resources.target.name == target.name) = true := by
    rw [h.sameTarget, h.targetName, beq_self_eq_true]
    rfl
  rw [validateInput, h.found]
  refine Scan.bind_eq_ok.mpr ⟨_, demand_of_true (List.isEmpty_iff.mpr h.verified), ?_⟩
  refine Scan.bind_eq_ok.mpr ⟨_, demand_of_true hname, ?_⟩
  refine Scan.bind_eq_ok.mpr ⟨_, demand_of_true (bne_iff_ne.mpr h.ii_ne), ?_⟩
  refine Scan.bind_eq_ok.mpr ⟨edge, rfl, ?_⟩
  refine Scan.bind_eq_ok.mpr ⟨_, demand_of_true (bne_iff_ne.mpr h.value), ?_⟩
  refine Scan.bind_eq_ok.mpr ⟨_, demand_of_true (beq_iff_eq.mpr h.src), ?_⟩
  refine Scan.bind_eq_ok.mpr ⟨_, demand_of_true (beq_iff_eq.mpr h.dst), ?_⟩
  refine Scan.bind_eq_ok.mpr ⟨_, validPlacement_of h.src h.producer_found h.producer_supported
    h.producer_slot h.sameTarget, ?_⟩
  refine Scan.bind_eq_ok.mpr ⟨_, validPlacement_of h.dst h.consumer_found h.consumer_supported
    h.consumer_slot h.sameTarget, ?_⟩
  refine Scan.bind_eq_ok.mpr ⟨_, nodeAt_eq_ok.mpr h.producer_found, ?_⟩
  rw [h.ready_eq]
  refine Scan.bind_eq_ok.mpr ⟨ready, rfl, ?_⟩
  exact Scan.bind_eq_ok.mpr ⟨_, demand_of_true (bne_iff_ne.mpr h.hopLatency_ne), rfl⟩

theorem Requested.fits {options : RouteSearchOptions}
    (h : Requested dfg target resources reservations request edge producer consumer ready)
    (hids : resources.resourceCount < 2 ^ 32) :
    (requestContext target resources reservations request options (requestedDomain edge)
      ready).Fits where
  sameTarget := h.sameTarget
  producer := by
    have hrange := ModuloResourceModel.inRange_of_supportsOperation h.producer_supported
    rw [h.sameTarget] at hrange
    exact hrange
  consumer := by
    have hrange := ModuloResourceModel.inRange_of_supportsOperation h.consumer_supported
    rw [h.sameTarget] at hrange
    exact hrange
  slot_lt := h.producer_slot
  known := h.known
  resources_lt := hids
  ready_lt := h.ready_lt
  hopLatency_lt := h.hopLatency_lt

/-- A plan that is found passes the transport checks of the verifier, for a mapping that records it
over the same reservations. -/
theorem Requested.accepted {options : RouteSearchOptions}
    (h : Requested dfg target resources reservations request edge producer consumer ready)
    {plan : TransportPlan} {links : List ResourceId}
    (hfound : Found (requestContext target resources reservations request options
      (requestedDomain edge) ready) plan links)
    {mapping : ModuloMapping} (hii : mapping.ii = resources.ii) {dependence : MappedDependence}
    (hplan : dependence.transport = some plan)
    (hcycles : dependence.requiredSeparationCycles = plan.requiredSeparationCycles) :
    ∃ later, ModuloMappingVerifier.verifyValueTransport dfg target mapping edge dependence
      request.producer request.consumer reservations = .ok (later, []) := by
  have hmodel : ModuloMappingVerifier.resourceModel target mapping = resources := by
    rw [ModuloMappingVerifier.resourceModel, hii, ← h.sameTarget]
  have hdomain : plan.domain = requestedDomain edge := hfound.domain
  obtain ⟨later, hlater⟩ : ∃ later, reservations.reserve links ⟨.edge, edge.id⟩ = some later :=
    ResourceReservationTable.exists_reserve_iff.mpr ⟨hfound.nodup, hfound.free⟩
  have htravels := hfound.travels
  refine ⟨later, ModuloMappingVerifier.verifyValueTransport_of_travels hplan hcycles
    (hfound.edge.trans (TargetDFG.findEdge_id h.found).symm) hdomain h.producer_found h.ready_eq
    (hdomain ▸ h.hopLatency_ne) (hii ▸ h.producer_slot) hfound.waits ?_ hfound.nodup hfound.free
    hlater⟩
  rw [hmodel, hdomain]
  exact htravels

/-! ## Completeness and optimality -/

/-- A result that says exactly what there is to find. -/
structure Exact (ctx : Context) (route : RouteSearchResult) : Prop where
  success_iff : route.status = .success ↔
    ∃ cost, Reaches ctx cost ∧ cost.elapsed ≤ uint32Max
  noPath_iff : route.status = .noPath ↔ ∀ cost, ¬ Reaches ctx cost
  internalError_iff : route.status = .internalError ↔
    (∃ cost, Reaches ctx cost) ∧ ∀ cost, Reaches ctx cost → uint32Max < cost.elapsed
  diagnostics : ∀ diagnostic ∈ route.diagnostics, diagnostic.code ≠ .internalSelfConflict ∧
    (diagnostic.code = .internalReconstructionError → route.status = .internalError)
  plan : route.status = .success → ∃ plan links, route.plan = some plan ∧ Found ctx plan links ∧
    Optimal ctx (planCost plan)

theorem exact_of_outcome {route : RouteSearchResult} (h : Outcome ctx route)
    (hbudget : route.status ≠ .budgetExceeded) : Exact ctx route := by
  have hshorter : ∀ {a b : Cost}, a ≤ b → a.elapsed ≤ b.elapsed := by
    intro a b hle
    rw [Cost.le_iff] at hle
    omega
  rcases h with ⟨message, hnone⟩ | @⟨plan, links, hfound, hfit, hoptimal⟩ |
    @⟨cost, hoptimal, hlong⟩ | hstopped
  · refine ⟨?_, ?_, ?_, ?_, RouteSearchStatus.noConfusion⟩
    · refine ⟨RouteSearchStatus.noConfusion, ?_⟩
      rintro ⟨cost, hreaches, -⟩
      exact absurd hreaches (hnone cost)
    · exact ⟨fun _ ↦ hnone, fun _ ↦ rfl⟩
    · refine ⟨RouteSearchStatus.noConfusion, ?_⟩
      rintro ⟨⟨cost, hreaches⟩, -⟩
      exact absurd hreaches (hnone cost)
    · intro diagnostic hmem
      obtain rfl := List.mem_singleton.mp hmem
      exact ⟨RouteSearchDiagnosticCode.noConfusion, RouteSearchDiagnosticCode.noConfusion⟩
  · have hreaches := hoptimal.1
    refine ⟨?_, ?_, ?_, List.forall_mem_nil _, fun _ ↦ ⟨plan, links, rfl, hfound, hoptimal⟩⟩
    · exact ⟨fun _ ↦ ⟨planCost plan, hreaches, hfit⟩, fun _ ↦ rfl⟩
    · exact ⟨RouteSearchStatus.noConfusion, fun hnone ↦ absurd hreaches (hnone _)⟩
    · refine ⟨RouteSearchStatus.noConfusion, ?_⟩
      rintro ⟨-, hall⟩
      exact absurd hfit (not_le.mpr (hall _ hreaches))
  · refine ⟨?_, ?_, ?_, ?_, RouteSearchStatus.noConfusion⟩
    · refine ⟨RouteSearchStatus.noConfusion, ?_⟩
      rintro ⟨other, hreaches, hfit⟩
      have hle := hshorter (hoptimal.2 other hreaches)
      omega
    · exact ⟨RouteSearchStatus.noConfusion, fun hnone ↦ absurd hoptimal.1 (hnone _)⟩
    · exact ⟨fun _ ↦ ⟨⟨cost, hoptimal.1⟩,
        fun other hreaches ↦ hlong.trans_le (hshorter (hoptimal.2 other hreaches))⟩, fun _ ↦ rfl⟩
    · intro diagnostic hmem
      obtain rfl := List.mem_singleton.mp hmem
      exact ⟨RouteSearchDiagnosticCode.noConfusion, fun _ ↦ rfl⟩
  · exact absurd hstopped hbudget

/-- **Route search is complete and optimal.** Unless its budget runs out, and one that covers all
states does not, the search of a request between different tiles succeeds exactly when a sequence of
holds and free launches reaches the consumer within the time a plan can record, reports that there
is no path exactly when no sequence reaches it at all, and otherwise gives up. Its plan is the least
of all sequences, and the verifier accepts it. -/
theorem search_complete_and_optimal (options : RouteSearchOptions)
    (h : Requested dfg target resources reservations request edge producer consumer ready)
    (hids : resources.resourceCount < 2 ^ 32) :
    ∃ route, search dfg target resources reservations request options = .ok route ∧
      ((requestContext target resources reservations request options (requestedDomain edge)
        ready).Affords → route.status ≠ .budgetExceeded) ∧
      (route.status ≠ .budgetExceeded →
        Exact (requestContext target resources reservations request options (requestedDomain edge)
          ready) route ∧
        ∀ plan, route.plan = some plan → ∀ (mapping : ModuloMapping)
          (dependence : MappedDependence), mapping.ii = resources.ii →
          dependence.transport = some plan →
          dependence.requiredSeparationCycles = plan.requiredSeparationCycles →
            ∃ later, ModuloMappingVerifier.verifyValueTransport dfg target mapping edge dependence
              request.producer request.consumer reservations = .ok (later, [])) := by
  have hfits : (requestContext target resources reservations request options (requestedDomain edge)
      ready).Fits := h.fits hids
  obtain ⟨route, hroute, houtcome⟩ := concludes_searchFrom hfits h.apart
  refine ⟨route, ?_, fun haffords ↦ ?_, fun hbudget ↦ ?_⟩
  · rw [search, if_neg h.ii_ne, h.validateInput_eq]
    simp only [bind, Except.bind]
    rw [requestContext] at hroute
    rcases hroute with hroute | hroute
    · rw [hroute]
    · rw [hroute]
  · exact searchFrom_ne_budgetExceeded hfits.toValid haffords h.apart hroute
  · have hexact := exact_of_outcome houtcome hbudget
    refine ⟨hexact, fun plan hplan mapping dependence hii htransport hcycles ↦ ?_⟩
    have hstatus : route.status = .success := by
      rcases houtcome with _ | _ | _ | hstopped
      · cases hplan
      · rfl
      · cases hplan
      · exact absurd hstopped hbudget
    obtain ⟨plan', links, hplan', hfound, -⟩ := hexact.plan hstatus
    obtain rfl := Option.some.inj (hplan.symm.trans hplan')
    exact h.accepted hfound hii htransport hcycles

end Requests

/-! ### A delay line's route -/

def delayLineEdge : TargetEdge := ⟨0, 0, 1, 1, .data 0 (some ⟨[⟨0, .constantRef 1⟩]⟩)⟩

/-- The route of the delay line's value to another tile. -/
def delayLineRequest (row col : ℕ) : RouteSearchRequest :=
  ⟨0, ⟨0, ⟨0, 0⟩, 0⟩, ⟨1, ⟨row, col⟩, 0⟩⟩

def delayLineResources : ModuloResourceModel := ⟨shippedTarget, 2⟩

theorem delayLine_requested : Requested delayLineDFG shippedTarget delayLineResources
    (.empty delayLineResources) (delayLineRequest 0 2) delayLineEdge (passNode 0)
    (passNode 1) 0 where
  verified := by decide
  targetName := rfl
  sameTarget := rfl
  ii_ne := by decide
  known := ResourceReservationTable.length_empty _
  found := by decide
  value := by decide
  src := rfl
  dst := rfl
  producer_found := by decide
  consumer_found := by decide
  producer_supported := by decide
  consumer_supported := by decide
  producer_slot := by decide
  consumer_slot := by decide
  ready_eq := rfl
  apart := by decide
  ready_lt := by decide
  hopLatency_lt := by decide
  hopLatency_ne := by decide

/-- The delay line's route is found, and no sequence costs less. -/
theorem delayLine_route_exact : ∃ route plan,
    search delayLineDFG shippedTarget delayLineResources (.empty delayLineResources)
      (delayLineRequest 0 2) {} = .ok route ∧ route.plan = some plan ∧
    Optimal (requestContext shippedTarget delayLineResources (.empty delayLineResources)
      (delayLineRequest 0 2) {} .data 0) (planCost plan) := by
  have hstatus : (search delayLineDFG shippedTarget delayLineResources (.empty delayLineResources)
      (delayLineRequest 0 2) {}).toOption.map RouteSearchResult.status = some .success := by
    decide +kernel
  obtain ⟨route, hroute, hsuccess⟩ := Scan.exists_of_toOption_map hstatus
  obtain ⟨route', hroute', -, hexact⟩ :=
    search_complete_and_optimal {} delayLine_requested (by decide +kernel)
  obtain rfl := Except.ok.inj (hroute.symm.trans hroute')
  obtain ⟨plan, links, hplan, -, hoptimal⟩ :=
    (hexact (by rw [hsuccess]; exact RouteSearchStatus.noConfusion)).1.plan hsuccess
  exact ⟨route, plan, hroute, hplan, hoptimal⟩

/-! ### A producer that is ready too late -/

/-- The shipped contract with a forwarding operation whose result is ready as late as can be said.
-/
def lateTarget : TargetModel :=
  { shippedTarget with
    operations := shippedTarget.operations.map fun operation ↦
      if operation.id == "PASS" then
        { operation with producerOutputReadyOffset := some uint32Max }
      else operation }

def lateNode (id : TargetNodeId) : TargetNode :=
  { passNode id with producerOutputReadyOffset := some uint32Max }

def lateDFG : TargetDFG := { delayLineDFG with nodes := [lateNode 0, lateNode 1] }

def lateResources : ModuloResourceModel := ⟨lateTarget, 1⟩

theorem lateTarget_loaded : lateTarget.Loaded where
  rows_pos := by decide
  cols_pos := by decide
  nodup_operations := by decide
  admits := by decide
  memory := ⟨32, by decide⟩

theorem late_requested : Requested lateDFG lateTarget lateResources (.empty lateResources)
    (delayLineRequest 0 1) delayLineEdge (lateNode 0) (lateNode 1) uint32Max where
  verified := by decide
  targetName := rfl
  sameTarget := rfl
  ii_ne := by decide
  known := ResourceReservationTable.length_empty _
  found := by decide
  value := by decide
  src := rfl
  dst := rfl
  producer_found := by decide
  consumer_found := by decide
  producer_supported := by decide
  consumer_supported := by decide
  producer_slot := by decide
  consumer_slot := by decide
  ready_eq := rfl
  apart := by decide
  ready_lt := by decide
  hopLatency_lt := by decide
  hopLatency_ne := by decide

/-- A single launch reaches the consumer, at a time that a plan cannot record. -/
theorem late_reaches : ∃ cost, Reaches (requestContext lateTarget lateResources
    (.empty lateResources) (delayLineRequest 0 1) {} .data uint32Max) cost :=
  ⟨_, _, @Sequence.launch (requestContext lateTarget lateResources (.empty lateResources)
    (delayLineRequest 0 1) {} .data uint32Max) [] ⟨0, 0⟩ ⟨0, 1⟩ ⟨uint32Max, 0, 0⟩ .east 3 .start
    (by decide) (by decide) (by decide)⟩

theorem late_status : ∃ route, search lateDFG lateTarget lateResources (.empty lateResources)
    (delayLineRequest 0 1) {} = .ok route ∧ route.status = .internalError := by
  have hstatus : (search lateDFG lateTarget lateResources (.empty lateResources)
      (delayLineRequest 0 1) {}).toOption.map RouteSearchResult.status = some .internalError := by
    decide +kernel
  exact Scan.exists_of_toOption_map hstatus

/-! ### Two links with one id -/

/-- The shipped contract at an interval so long that the 32-bit ids start over many times. -/
def crowdedResources : ModuloResourceModel := ⟨shippedTarget, 2 ^ 30⟩

/-- Everything is reserved but one id. -/
def crowdedTable : ResourceReservationTable :=
  ⟨(List.replicate crowdedResources.resourceCount (some ⟨.node, 0⟩)).set 3 none⟩

def crowdedOptions : RouteSearchOptions := { budget := ⟨2 ^ 34, 2 ^ 37⟩ }

def crowdedContext (domain : NetworkDomain) (ready : ℕ) : Context :=
  requestContext shippedTarget crowdedResources crowdedTable (delayLineRequest 1 1) crowdedOptions
    domain ready

/-- The slot at which the second link has the id of the first. -/
def crowdedSlot : ℕ := 814562763

/-- The resources of the shipped array at a slot. -/
def crowdedSlice (slot : ℕ) : List ModuloResource :=
  shippedTarget.tiles.flatMap fun tile ↦ crowdedResources.tileResources slot ⟨tile.1, tile.2⟩

set_option maxRecDepth 4000 in
theorem length_crowdedSlice (slot : ℕ) : (crowdedSlice slot).length = 116 := rfl

theorem crowded_resource {slot offset : ℕ} (hslot : slot < 2 ^ 30) (hoffset : offset < 116) :
    crowdedResources.resource (116 * slot + offset) = (crowdedSlice slot)[offset]? :=
  Scan.getElem?_flatMap_range crowdedSlice length_crowdedSlice hslot hoffset

theorem crowded_first : crowdedResources.linkAt .data ⟨0, 0⟩ .east 0 = some 3 := by
  have hresource : crowdedResources.resource (116 * 0 + 3) = some (.link .data ⟨0, 0⟩ .east 0) :=
    crowded_resource (by decide) (by decide)
  rw [ModuloResourceModel.linkAt, if_pos (by decide)]
  exact ModuloResourceModel.findResource_eq_some_iff.mpr ⟨3, hresource, rfl⟩

theorem crowded_second :
    crowdedResources.linkAt .data ⟨0, 1⟩ .south crowdedSlot = some 3 := by
  have hresource : crowdedResources.resource (116 * crowdedSlot + 7)
      = some (.link .data ⟨0, 1⟩ .south crowdedSlot) :=
    crowded_resource (by decide) (by decide)
  rw [ModuloResourceModel.linkAt, if_pos (by decide)]
  exact ModuloResourceModel.findResource_eq_some_iff.mpr ⟨_, hresource, by decide⟩

theorem crowded_three_lt : 3 < crowdedResources.resourceCount := by
  have hle := @ModuloResourceModel.mul_le_resourceCount crowdedResources
  have hmany : 3 < crowdedResources.ii
      * (crowdedResources.target.array.rows * crowdedResources.target.array.cols) := by
    decide
  exact hmany.trans_le hle

theorem crowded_free_iff {resource : ResourceId} :
    crowdedTable.owners[resource]? = some none ↔ resource = 3 := by
  rw [crowdedTable, List.getElem?_set, List.length_replicate, if_pos crowded_three_lt]
  by_cases hthree : 3 = resource
  · simp [hthree]
  · rw [if_neg hthree, List.getElem?_replicate]
    split
    · simp [Ne.symm hthree]
    · simp [Ne.symm hthree]

theorem crowded_requested : Requested delayLineDFG shippedTarget crowdedResources crowdedTable
    (delayLineRequest 1 1) delayLineEdge (passNode 0) (passNode 1) 0 where
  verified := by decide
  targetName := rfl
  sameTarget := rfl
  ii_ne := by decide
  known := by rw [crowdedTable, List.length_set, List.length_replicate]
  found := by decide
  value := by decide
  src := rfl
  dst := rfl
  producer_found := by decide
  consumer_found := by decide
  producer_supported := by decide
  consumer_supported := by decide
  producer_slot := by decide
  consumer_slot := by decide
  ready_eq := rfl
  apart := by decide
  ready_lt := by decide
  hopLatency_lt := by decide
  hopLatency_ne := by decide

/-- A value can wait where it is. -/
theorem Sequence.holds {l : List Move} {tile : TileCoord} {cost : Cost}
    (h : Sequence ctx l tile cost) (hallowed : ctx.options.allowVirtualHold = true) (cycles : ℕ) :
    ∃ l, Sequence ctx l tile ⟨cost.elapsed + cycles, cost.holds + cycles, cost.hops⟩ := by
  induction cycles with
  | zero => exact ⟨l, h⟩
  | succ cycles ih =>
    obtain ⟨l, hl⟩ := ih
    exact ⟨_, hl.hold hallowed⟩

/-- East over the first link, a long wait, and south over the second. -/
theorem crowded_reaches :
    Reaches (crowdedContext .data 0) ⟨crowdedSlot + 1, crowdedSlot - 1, 2⟩ := by
  have heast := @Sequence.launch (crowdedContext .data 0) [] ⟨0, 0⟩ ⟨0, 1⟩ ⟨0, 0, 0⟩ .east 3 .start
    (by decide) crowded_first (crowded_free_iff.mpr rfl)
  obtain ⟨l, hwaits⟩ := heast.holds rfl (crowdedSlot - 1)
  exact ⟨_, @Sequence.launch (crowdedContext .data 0) l ⟨0, 1⟩ ⟨1, 1⟩ _ .south 3 hwaits (by decide)
    crowded_second (crowded_free_iff.mpr rfl)⟩

/-- A route is at least as long as the way south and east. -/
theorem sum_le_of_travels {model : ModuloResourceModel} {domain : NetworkDomain}
    {producer : NodePlacement} {ready elapsed : ℕ} {actions : List TransportAction}
    {resources : List ResourceId} {tile : TileCoord}
    (h : Travels model domain producer ready actions resources tile elapsed) :
    tile.row + tile.col ≤ producer.tile.row + producer.tile.col + resources.length := by
  induction h with
  | start => exact le_rfl
  | @link actions resources tile next elapsed direction resource _ hneighbor _ ih =>
    have hstep : next.row + next.col ≤ tile.row + tile.col + 1 := by
      unfold TargetModel.neighbor PredicatedMesh.neighbor at hneighbor
      split at hneighbor
      · cases hneighbor
      · cases direction with
        | north | south | east | west =>
          simp only at hneighbor
          split at hneighbor
          · cases hneighbor
          · obtain rfl := Option.some.inj hneighbor
            simp only
            omega
    rw [List.length_append, List.length_singleton]
    omega
  | hold _ _ ih => exact ih

/-- A plan that takes no link twice has one link to take, which is too few. -/
theorem crowded_not_found {domain : NetworkDomain} {ready : ℕ} {plan : TransportPlan}
    {links : List ResourceId} : ¬ Found (crowdedContext domain ready) plan links := by
  intro hfound
  have hfar : 1 + 1 ≤ 0 + 0 + links.length := sum_le_of_travels hfound.travels
  have hsubset : links ⊆ [3] := fun resource hmem ↦
    List.mem_singleton.mpr (crowded_free_iff.mp (hfound.free resource hmem))
  have hshort := (List.subperm_of_subset hfound.nodup hsubset).length_le
  rw [List.length_singleton] at hshort
  omega

/-- Two requests with a route to the consumer whose search does not succeed: one whose plan would
take too long, and one whose links have one id. -/
theorem late_and_crowded_requests :
    (lateTarget.Loaded ∧
      Requested lateDFG lateTarget lateResources (.empty lateResources) (delayLineRequest 0 1)
        delayLineEdge (lateNode 0) (lateNode 1) uint32Max ∧
      (∃ cost, Reaches (requestContext lateTarget lateResources (.empty lateResources)
        (delayLineRequest 0 1) {} .data uint32Max) cost) ∧
      ∃ route, search lateDFG lateTarget lateResources (.empty lateResources)
        (delayLineRequest 0 1) {} = .ok route ∧ route.status = .internalError) ∧
    shippedTarget.Loaded ∧
      Requested delayLineDFG shippedTarget crowdedResources crowdedTable (delayLineRequest 1 1)
        delayLineEdge (passNode 0) (passNode 1) 0 ∧
      (∃ cost, Reaches (crowdedContext .data 0) cost ∧ cost.elapsed ≤ uint32Max) ∧
      (crowdedContext .data 0).Affords ∧
      ∃ route, search delayLineDFG shippedTarget crowdedResources crowdedTable
        (delayLineRequest 1 1) crowdedOptions = .ok route ∧ route.status ≠ .success := by
  refine ⟨⟨lateTarget_loaded, late_requested, late_reaches, late_status⟩,
    TargetModel.shippedTarget_loaded, crowded_requested, ⟨_, crowded_reaches, by decide⟩,
    ⟨by decide, by decide⟩, ?_⟩
  obtain ⟨route, hroute, hfound⟩ := @search_returns delayLineDFG shippedTarget crowdedResources
    (delayLineRequest 1 1) crowdedTable crowdedOptions (by decide) rfl crowded_requested.known
  refine ⟨route, hroute, fun hsuccess ↦ ?_⟩
  obtain ⟨_, _, _, _, _, -, -, hplan⟩ := hfound hsuccess
  exact crowded_not_found hplan

end ModuloRouteSearch

end PredicatedMesh
