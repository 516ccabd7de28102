import PredicatedMesh.Mapping.Resource
import PredicatedMesh.Target.DFGVerifier

/-!
# Searching a route for one dependence

`ModuloRouteSearch.search` looks for the transport plan of one value dependence between two placed
nodes. A state of the search is a tile at a slot of the initiation interval, numbered densely; the
time since the producer's issue is not part of the state but of its cost, together with the cycles
spent waiting and the links launched. From a state the value may be launched over any free link
that leaves the tile at that slot, or held for one cycle.

The search is Dijkstra's: a priority queue of costs with stale entries left in it, a state finalized
when its entry comes up, and a predecessor recorded with every improvement. When the consumer's tile
comes up the predecessors are walked back to the producer, consecutive holds are merged and the
links of the route are compared with each other once more.

## Numbers and exits

Costs, the budgets and the links of a route are machine integers. The source guards the additions it
makes to a cost, so a cost is a record of natural numbers here and the guards stand where they are
in the source. An early return and an exception both leave the search at once; `RouteSearchExit` is
either of them.
-/

namespace PredicatedMesh

/-! ## Requests and results -/

inductive RouteSearchStatus
  | success
  | noPath
  | budgetExceeded
  | invalidInput
  | unsupportedEdge
  | targetContractError
  | internalError
  deriving DecidableEq, Repr

inductive RouteSearchDiagnosticCode
  | invalidTargetDFG
  | invalidEdge
  | edgeNotValueCarrying
  | producerPlacementMismatch
  | consumerPlacementMismatch
  | slotOutOfRange
  | tileOutOfRange
  | operationUnsupportedOnTile
  | targetTimingMissing
  | noPath
  | budgetExceeded
  | internalSelfConflict
  | internalReconstructionError
  deriving DecidableEq, Repr

structure RouteSearchDiagnostic where
  code : RouteSearchDiagnosticCode
  message : String
  edge : Option TargetEdgeId
  deriving DecidableEq, Repr

structure RouteSearchResult where
  status : RouteSearchStatus
  plan : Option TransportPlan := none
  diagnostics : List RouteSearchDiagnostic := []
  deriving DecidableEq, Repr

/-- Zero is a budget like any other: the search then ends without expanding a state. -/
structure RouteSearchBudget where
  maxStateExpansions : ℕ := 100000
  maxQueuePushes : ℕ := 200000

structure RouteSearchRequest where
  edge : TargetEdgeId
  producer : NodePlacement
  consumer : NodePlacement

structure RouteSearchOptions where
  budget : RouteSearchBudget := {}
  allowVirtualHold : Bool := true

/-- A search left before its end: by an exception or by an early return. -/
inductive RouteSearchExit
  | thrown (what : String)
  | returned (result : RouteSearchResult)
  deriving DecidableEq, Repr

namespace ModuloRouteSearch

def uint32Max : ℕ := 2 ^ 32 - 1

def uint64Max : ℕ := 2 ^ 64 - 1

/-! ## Costs and the queue -/

structure Cost where
  elapsed : ℕ := uint64Max
  holds : ℕ := uint32Max
  hops : ℕ := uint32Max
  deriving DecidableEq, Repr

def Cost.before (lhs rhs : Cost) : Bool :=
  if lhs.elapsed ≠ rhs.elapsed then decide (lhs.elapsed < rhs.elapsed)
  else if lhs.holds ≠ rhs.holds then decide (lhs.holds < rhs.holds)
  else decide (lhs.hops < rhs.hops)

inductive PredecessorKind
  | none
  | link
  | hold
  deriving DecidableEq, Repr

structure Predecessor where
  previous : ℕ := 0
  kind : PredecessorKind := .none
  direction : Direction := .north
  deriving DecidableEq, Repr

structure QueueEntry where
  cost : Cost
  state : ℕ
  sequence : ℕ
  deriving DecidableEq, Repr

/-- The order in which entries leave the queue. -/
def QueueEntry.notAfter (lhs rhs : QueueEntry) : Bool :=
  if lhs.cost ≠ rhs.cost then !rhs.cost.before lhs.cost
  else if lhs.state ≠ rhs.state then decide (lhs.state ≤ rhs.state)
  else decide (lhs.sequence ≤ rhs.sequence)

/-- The tables of the search. The queue is kept in the order its entries leave it. -/
structure Search where
  best : ℕ → Cost
  predecessors : ℕ → Predecessor
  finalized : ℕ → Bool
  queue : List QueueEntry
  sequence : ℕ
  stateExpansions : ℕ
  queuePushes : ℕ

def Search.initial : Search where
  best _ := {}
  predecessors _ := {}
  finalized _ := false
  queue := []
  sequence := 0
  stateExpansions := 0
  queuePushes := 0

structure RouteState where
  tile : TileCoord
  slot : ℕ
  deriving DecidableEq, Repr

/-- What the search reads and never changes. -/
structure Context where
  target : TargetModel
  resources : ModuloResourceModel
  reservations : ResourceReservationTable
  request : RouteSearchRequest
  options : RouteSearchOptions
  domain : NetworkDomain
  producerReady : ℕ

section Run

variable (ctx : Context)

def Context.hopLatency : ℕ := (ctx.target.network ctx.domain).hopLatency

def Context.diagnostic (code : RouteSearchDiagnosticCode) (message : String) :
    RouteSearchDiagnostic :=
  ⟨code, message, some ctx.request.edge⟩

def advance (slot deltaCycles : ℕ) : Except RouteSearchExit ℕ :=
  (ModuloTimeDomain.advance ctx.resources.ii slot deltaCycles).mapError .thrown

def stateCount : ℕ :=
  (ctx.target.array.rows * ctx.target.array.cols * ctx.resources.ii) % 2 ^ 64

def stateId (state : RouteState) : ℕ :=
  (state.slot * ctx.target.array.rows + state.tile.row) * ctx.target.array.cols + state.tile.col

def stateFor (id : ℕ) : RouteState :=
  let rowCount := ctx.target.array.rows * ctx.target.array.cols
  let within := id % rowCount
  ⟨⟨within / ctx.target.array.cols, within % ctx.target.array.cols⟩, id / rowCount⟩

/-- A push, refused when the budget is used up. -/
def push (search : Search) (cost : Cost) (state : ℕ) : Option Search :=
  if search.queuePushes ≥ ctx.options.budget.maxQueuePushes then none
  else some
    { search with
      queue := search.queue.orderedInsert (fun lhs rhs ↦ lhs.notAfter rhs = true)
        ⟨cost, state, search.sequence⟩
      sequence := search.sequence + 1
      queuePushes := search.queuePushes + 1 }

/-! ## Expanding a state -/

def relaxTo (search : Search) (destination : ℕ) (cost : Cost) (predecessor : Predecessor) :
    Except RouteSearchExit Search :=
  if search.finalized destination || !cost.before (search.best destination) then .ok search
  else
    match push ctx
        { search with
          best := Function.update search.best destination cost
          predecessors := Function.update search.predecessors destination predecessor }
        cost destination with
    | none => .error (.returned { status := .budgetExceeded })
    | some later => .ok later

/-- The result of an expansion that failed for another reason than the budget. -/
def internalFailure (diagnostic : RouteSearchDiagnostic) : RouteSearchResult :=
  { status := .internalError
    diagnostics := [diagnostic, ctx.diagnostic .internalReconstructionError
      "route search failed to enqueue a valid successor"] }

/-- A launch over a link that is known to be free. -/
def launch (search : Search) (currentId : ℕ) (current : Cost) (direction : Direction)
    (nextTile : TileCoord) : Except RouteSearchExit Search :=
  if current.elapsed > uint64Max - ctx.hopLatency ∨ current.hops = uint32Max then
    .error (.returned (internalFailure ctx (ctx.diagnostic .internalReconstructionError
      "route elapsed time overflows the search cost type")))
  else
    match advance ctx (stateFor ctx currentId).slot ctx.hopLatency with
    | .error exit => .error exit
    | .ok nextSlot =>
      relaxTo ctx search (stateId ctx ⟨nextTile, nextSlot⟩)
        ⟨current.elapsed + ctx.hopLatency, current.holds, current.hops + 1⟩
        ⟨currentId, .link, direction⟩

def expandLink (search : Search) (currentId : ℕ) (current : Cost) (direction : Direction) :
    Except RouteSearchExit Search :=
  let state := stateFor ctx currentId
  match ctx.target.neighbor state.tile direction with
  | none => .ok search
  | some nextTile =>
    match advance ctx ctx.request.producer.issueSlot current.elapsed with
    | .error exit => .error exit
    | .ok launchSlot =>
      match ctx.resources.linkResource ctx.domain state.tile direction launchSlot with
      | .error what => .error (.thrown what)
      | .ok none => .ok search
      | .ok (some resource) =>
        match ctx.reservations.isFree resource with
        | .error what => .error (.thrown what)
        | .ok false => .ok search
        | .ok true => launch ctx search currentId current direction nextTile

def expandHold (search : Search) (currentId : ℕ) (current : Cost) :
    Except RouteSearchExit Search :=
  if current.elapsed = uint64Max ∨ current.holds = uint32Max then
    .error (.returned (internalFailure ctx (ctx.diagnostic .internalReconstructionError
      "route hold time overflows the search cost type")))
  else
    let state := stateFor ctx currentId
    match advance ctx state.slot 1 with
    | .error exit => .error exit
    | .ok nextSlot =>
      relaxTo ctx search (stateId ctx ⟨state.tile, nextSlot⟩)
        ⟨current.elapsed + 1, current.holds + 1, current.hops⟩ ⟨currentId, .hold, .north⟩

/-- The order in which the links of a tile are tried. -/
def directions : List Direction := [.north, .east, .south, .west]

def expand (search : Search) (currentId : ℕ) (current : Cost) : Except RouteSearchExit Search := do
  let expanded ← directions.foldlM
    (fun search direction ↦ expandLink ctx search currentId current direction) search
  if ctx.options.allowVirtualHold then expandHold ctx expanded currentId current else .ok expanded

/-! ## Reconstructing a plan -/

/-- `reconstruct` gave up, having reported `diagnostics`. -/
def notReconstructed (diagnostics : List RouteSearchDiagnostic) : RouteSearchExit :=
  .returned
    { status := .internalError
      diagnostics := diagnostics ++ [ctx.diagnostic .internalReconstructionError
        "route predecessor chain could not be reconstructed"] }

def startState : Except RouteSearchExit ℕ :=
  (advance ctx ctx.request.producer.issueSlot ctx.producerReady).map fun slot ↦
    stateId ctx ⟨ctx.request.producer.tile, slot⟩

/-- The states and predecessors between the start and `current`, in walking order. The length of
what was collected ends the walk long before the fuel does. -/
def chain (search : Search) (start : ℕ) : ℕ → ℕ → List (ℕ × Predecessor) →
    Except RouteSearchExit (List (ℕ × Predecessor))
  | 0, _, _ => .error (notReconstructed ctx [])
  | fuel + 1, current, collected =>
    if current = start then .ok collected
    else if current ≥ stateCount ctx ∨ (search.predecessors current).kind = .none
        ∨ collected.length > stateCount ctx then
      .error (notReconstructed ctx [])
    else
      chain search start fuel (search.predecessors current).previous
        ((current, search.predecessors current) :: collected)

/-- A hold that continues the hold before it on the same tile lengthens it. -/
def appendHold (actions : List TransportAction) (hold : VirtualHold) : List TransportAction :=
  match actions.getLast? with
  | some (.virtualHold previous) =>
    if previous.domain = hold.domain ∧ previous.tile = hold.tile
        ∧ previous.releaseElapsed = hold.captureElapsed then
      actions.dropLast ++ [.virtualHold { previous with releaseElapsed := hold.releaseElapsed }]
    else actions ++ [.virtualHold hold]
  | _ => actions ++ [.virtualHold hold]

def appendAction (search : Search) (actions : List TransportAction) (entry : ℕ × Predecessor) :
    Except RouteSearchExit (List TransportAction) :=
  let parentTile := (stateFor ctx entry.2.previous).tile
  let parentElapsed := (search.best entry.2.previous).elapsed
  let childElapsed := (search.best entry.1).elapsed
  if entry.2.kind = .link then
    if parentElapsed > uint32Max then .error (notReconstructed ctx [])
    else .ok (actions ++ [.linkStep ⟨ctx.domain, parentTile, entry.2.direction, parentElapsed⟩])
  else if parentElapsed > uint32Max ∨ childElapsed > uint32Max then
    .error (notReconstructed ctx [])
  else .ok (appendHold actions ⟨ctx.domain, parentTile, parentElapsed, childElapsed⟩)

/-- The last look at a route: no link resource twice. -/
def checkSelfConflict (seen : List ResourceId) (action : TransportAction) :
    Except RouteSearchExit (List ResourceId) :=
  match action with
  | .virtualHold _ => .ok seen
  | .linkStep link =>
    match advance ctx ctx.request.producer.issueSlot link.elapsedFromProducerIssue with
    | .error exit => .error exit
    | .ok slot =>
      match ctx.resources.linkResource ctx.domain link.source link.direction slot with
      | .error what => .error (.thrown what)
      | .ok (some resource) =>
        if resource ∈ seen then .error (notReconstructed ctx [ctx.diagnostic .internalSelfConflict
          "reconstructed route reuses an unavailable modulo link resource"])
        else .ok (seen ++ [resource])
      | .ok none => .error (notReconstructed ctx [ctx.diagnostic .internalSelfConflict
          "reconstructed route reuses an unavailable modulo link resource"])

def reconstruct (search : Search) (goal : ℕ) : Except RouteSearchExit TransportPlan := do
  let start ← startState ctx
  let steps ← chain ctx search start (stateCount ctx + 2) goal []
  let actions ← steps.foldlM (appendAction ctx search) []
  if (search.best goal).elapsed > uint32Max then .error (notReconstructed ctx []) else
  let _ ← actions.foldlM (checkSelfConflict ctx) []
  return ⟨ctx.request.edge, ctx.domain, actions, (search.best goal).elapsed⟩

def success (search : Search) (goal : ℕ) : Except RouteSearchExit RouteSearchResult :=
  (reconstruct ctx search goal).map fun plan ↦ { status := .success, plan := some plan }

/-! ## The search -/

def noPath (message : String) : RouteSearchResult :=
  { status := .noPath, diagnostics := [ctx.diagnostic .noPath message] }

def budgetExceeded (message : String) : RouteSearchResult :=
  { status := .budgetExceeded, diagnostics := [ctx.diagnostic .budgetExceeded message] }

/-- The main loop. Every iteration takes an entry off the queue, so fuel for all the pushes there
can be is enough. -/
def searchLoop : ℕ → Search → Except RouteSearchExit RouteSearchResult
  | 0, _ => .error (.thrown "route search queue never ran empty")
  | fuel + 1, search =>
    match search.queue with
    | [] => .ok (noPath ctx
        "finite modulo routing state graph was exhausted without reaching the consumer")
    | current :: queue =>
      if search.finalized current.state || current.cost ≠ search.best current.state then
        searchLoop fuel { search with queue := queue }
      else
        let search := { search with
          queue := queue, finalized := Function.update search.finalized current.state true }
        if (stateFor ctx current.state).tile = ctx.request.consumer.tile then
          success ctx search current.state
        else if search.stateExpansions ≥ ctx.options.budget.maxStateExpansions then
          .ok (budgetExceeded ctx "route search state-expansion budget was exhausted")
        else
          match expand ctx { search with stateExpansions := search.stateExpansions + 1 }
              current.state current.cost with
          | .error exit => .error exit
          | .ok expanded => searchLoop fuel expanded

/-- The plan of a dependence between nodes on one tile: one cycle of local storage. -/
def sameTile : RouteSearchResult :=
  if !ctx.options.allowVirtualHold then
    noPath ctx "same-tile dependence requires virtual local storage"
  else if ctx.producerReady = uint32Max then
    { status := .internalError
      diagnostics := [ctx.diagnostic .internalReconstructionError
        "producer readiness overflows TransportPlan elapsed time"] }
  else
    { status := .success
      plan := some ⟨ctx.request.edge, ctx.domain,
        [.virtualHold ⟨ctx.domain, ctx.request.producer.tile, ctx.producerReady,
          ctx.producerReady + 1⟩], ctx.producerReady + 1⟩ }

/-- The search once its input is validated. -/
def searchFrom : Except RouteSearchExit RouteSearchResult :=
  if stateCount ctx = 0 then
    .ok { status := .internalError
          diagnostics := [ctx.diagnostic .internalReconstructionError
            "routing state universe does not fit in the host address space"] }
  else
    match startState ctx with
    | .error exit => .error exit
    | .ok start =>
      let cost : Cost := ⟨ctx.producerReady, 0, 0⟩
      match push ctx { Search.initial with best := Function.update Search.initial.best start cost }
          cost start with
      | none => .ok (budgetExceeded ctx "route search queue-push budget was exhausted")
      | some search =>
        if ctx.request.producer.tile = ctx.request.consumer.tile then .ok (sameTile ctx)
        else searchLoop ctx (ctx.options.budget.maxQueuePushes + 1) search

end Run

/-! ## Validating the input -/

section Validate

variable (dfg : TargetDFG) (target : TargetModel) (resources : ModuloResourceModel)
  (request : RouteSearchRequest)

def rejected (status : RouteSearchStatus) (code : RouteSearchDiagnosticCode) (message : String) :
    RouteSearchExit :=
  .returned { status := status, diagnostics := [⟨code, message, some request.edge⟩] }

/-- Continue when a condition holds, or leave with the given result. -/
def demand (ok : Bool) (exit : RouteSearchExit) : Except RouteSearchExit Unit :=
  if ok then .ok () else .error exit

/-- A lookup by id, which the source lets throw. -/
def nodeAt (id : TargetNodeId) : Except RouteSearchExit TargetNode :=
  match dfg.findNode id with
  | none => .error (.thrown ("unknown target DFG node id: " ++ toString id))
  | some node => .ok node

def validPlacement (placement : NodePlacement) (expected : TargetNodeId) (role : String)
    (mismatch : RouteSearchDiagnosticCode) : Except RouteSearchExit Unit := do
  demand (placement.node == expected)
    (rejected request .invalidInput mismatch (role ++ " placement node ID is inconsistent"))
  demand (placement.tile.row < target.array.rows && placement.tile.col < target.array.cols)
    (rejected request .invalidInput .tileOutOfRange
      (role ++ " placement tile is outside the target array"))
  demand (placement.issueSlot < resources.ii)
    (rejected request .invalidInput .slotOutOfRange
      (role ++ " placement slot is outside [0, II)"))
  let node ← nodeAt dfg expected
  demand (resources.supportsOperation placement.tile node)
    (rejected request .invalidInput .operationUnsupportedOnTile
      (role ++ " operation is not supported on its placement tile"))

def requestedDomain (edge : TargetEdge) : NetworkDomain :=
  if edge.kind = .predicate then .predicate else .data

/-- The network and the output readiness of a request that passes every check. -/
def validateInput : Except RouteSearchExit (NetworkDomain × ℕ) := do
  demand (TargetDFGVerifier.verify dfg target).isEmpty
    (rejected request .invalidInput .invalidTargetDFG
      ("TargetDFG precondition failed: "
        ++ TargetDFGVerifier.format (TargetDFGVerifier.verify dfg target)))
  demand (dfg.targetName == target.name && resources.target.name == target.name)
    (rejected request .invalidInput .invalidTargetDFG
      "TargetDFG, resource model, and selected target disagree")
  demand (resources.ii != 0)
    (rejected request .invalidInput .slotOutOfRange "route resource model has an invalid zero II")
  let edge ← match dfg.findEdge request.edge with
    | none => .error (rejected request .invalidInput .invalidEdge
        "requested TargetDFG edge does not exist")
    | some edge => .ok edge
  demand (edge.kind != .memory)
    (rejected request .unsupportedEdge .edgeNotValueCarrying
      "memory dependences are ordering constraints and are not routed")
  demand (request.producer.node == edge.src)
    (rejected request .invalidInput .producerPlacementMismatch
      "producer placement does not identify the edge source")
  demand (request.consumer.node == edge.dst)
    (rejected request .invalidInput .consumerPlacementMismatch
      "consumer placement does not identify the edge destination")
  validPlacement dfg target resources request request.producer edge.src "producer"
    .producerPlacementMismatch
  validPlacement dfg target resources request request.consumer edge.dst "consumer"
    .consumerPlacementMismatch
  let producer ← nodeAt dfg edge.src
  let producerReady ← match producer.producerOutputReadyOffset with
    | none => .error (rejected request .targetContractError .targetTimingMissing
        "producer operation has no output-ready timing contract")
    | some producerReady => .ok producerReady
  demand ((target.network (requestedDomain edge)).hopLatency != 0)
    (rejected request .targetContractError .targetTimingMissing
      "selected target network has zero hop latency")
  return (requestedDomain edge, producerReady)

end Validate

/-- `search`. The modulo time of the resource model is built first and throws on a zero
interval. -/
def search (dfg : TargetDFG) (target : TargetModel) (resources : ModuloResourceModel)
    (reservations : ResourceReservationTable) (request : RouteSearchRequest)
    (options : RouteSearchOptions) : Except String RouteSearchResult :=
  if resources.ii = 0 then .error "modulo II must be at least one"
  else
    let run : Except RouteSearchExit RouteSearchResult := do
      let (domain, producerReady) ← validateInput dfg target resources request
      searchFrom ⟨target, resources, reservations, request, options, domain, producerReady⟩
    match run with
    | .ok result => .ok result
    | .error (.returned result) => .ok result
    | .error (.thrown what) => .error what

end ModuloRouteSearch

end PredicatedMesh
