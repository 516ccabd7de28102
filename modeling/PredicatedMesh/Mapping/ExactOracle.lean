import PredicatedMesh.Library.Backtracking
import PredicatedMesh.Mapping.ModuloMapper

/-!
# The exact oracle

For very small graphs the oracle tries everything: each node on each compatible tile at each slot,
and for each value dependence every route that visits no tile twice at the same slot. Nodes and
routes are tried in the order of the graph, sharing one reservation table from which a failed
alternative is taken back. A complete choice is built into a mapping and shown to the mapping
verifier, whose answer is final: whatever goes wrong there counts as a refusal.

The oracle is independent of the mapper and of its route search; it has the resource model, the
reservation table, the mapping builder and the verifier in common with them.

## Routes

A route is enumerated one launch or one cycle of waiting at a time. Every state of the enumeration
that is on the tile of the consumer offers the actions it has collected as a plan; a value that is
produced where it is consumed is offered a hold of one cycle first. The states a route has visited
bound its length, so fuel for every tile at every slot is enough.
-/

namespace PredicatedMesh

open Backtracking

namespace ExactModuloOracle

open ModuloRouteSearch (uint32Max)

/-! ## Options and results -/

inductive ExactOracleStatus
  | feasible
  | infeasible
  | unsupportedOracleSize
  | invalidInput
  deriving DecidableEq, Repr

structure ExactOracleOptions where
  maxNodes : ℕ := 5
  maxEdges : ℕ := 5
  maxTiles : ℕ := 6
  maxII : ℕ := 3
  deriving DecidableEq, Repr

structure ExactOracleResult where
  status : ExactOracleStatus := .invalidInput
  mapping : Option ModuloMapping := none
  deriving DecidableEq, Repr

/-! ## Enumerating routes -/

/-- Where a route is, and how it came there. -/
structure RouteState where
  tile : TileCoord
  slot : ℕ
  elapsed : ℕ
  actions : List TransportAction
  linkResources : List ResourceId
  /-- The ids of the tiles and slots it has been at. -/
  visited : List ℕ
  deriving DecidableEq, Repr

/-- What the routes of one dependence are enumerated for. -/
structure RouteContext where
  target : TargetModel
  ii : ℕ
  edge : TargetEdge
  /-- When the value is ready, counted from the issue of its producer. -/
  ready : ℕ
  producer : NodePlacement
  consumer : NodePlacement

def domainFor : EdgeKind → NetworkDomain
  | .predicate => .predicate
  | _ => .data

namespace RouteContext

variable (ctx : RouteContext)

def resources : ModuloResourceModel := ⟨ctx.target, ctx.ii⟩

def domain : NetworkDomain := domainFor ctx.edge.kind

def hopLatency : ℕ := (ctx.target.network ctx.domain).hopLatency

def stateCount : ℕ := ctx.target.array.rows * ctx.target.array.cols * ctx.ii

def stateId (tile : TileCoord) (slot : ℕ) : ℕ :=
  (slot * ctx.target.array.rows + tile.row) * ctx.target.array.cols + tile.col

/-- The state after a launch. -/
def launched (current : RouteState) (direction : Direction) (nextTile : TileCoord) (nextSlot : ℕ)
    (resource : ResourceId) : RouteState where
  tile := nextTile
  slot := nextSlot
  elapsed := current.elapsed + ctx.hopLatency
  actions := current.actions
    ++ [.linkStep ⟨ctx.domain, current.tile, direction, current.elapsed⟩]
  linkResources := current.linkResources ++ [resource]
  visited := current.visited ++ [ctx.stateId nextTile nextSlot]

/-- A launch over a link that is open at its slot. -/
def launchOver (current : RouteState) (direction : Direction) (nextTile : TileCoord)
    (resource : ResourceId) : Except String (Option RouteState) :=
  match ModuloTimeDomain.advance ctx.ii current.slot ctx.hopLatency with
  | .error what => .error what
  | .ok nextSlot =>
    if ctx.stateId nextTile nextSlot ∈ current.visited then .ok none
    else if current.elapsed > uint32Max - ctx.hopLatency then .ok none
    else .ok (some (ctx.launched current direction nextTile nextSlot resource))

/-- The state after a launch in a direction, if the route may take it. -/
def launch (reservations : ResourceReservationTable) (current : RouteState)
    (direction : Direction) : Except String (Option RouteState) :=
  match ctx.target.neighbor current.tile direction with
  | none => .ok none
  | some nextTile =>
    match ModuloTimeDomain.advance ctx.ii ctx.producer.issueSlot current.elapsed with
    | .error what => .error what
    | .ok launchSlot =>
      match ctx.resources.linkResource ctx.domain current.tile direction launchSlot with
      | .error what => .error what
      | .ok none => .ok none
      | .ok (some resource) =>
        match reservations.isFree resource with
        | .error what => .error what
        | .ok free =>
          if !free || current.linkResources.contains resource then .ok none
          else ctx.launchOver current direction nextTile resource

/-- The actions with one more cycle of waiting: a hold that goes on is made longer. -/
def waited (current : RouteState) : List TransportAction :=
  match current.actions.getLast? with
  | some (.virtualHold hold) =>
    if hold.domain = ctx.domain ∧ hold.tile = current.tile ∧ hold.releaseElapsed = current.elapsed
    then
      current.actions.dropLast
        ++ [.virtualHold { hold with releaseElapsed := current.elapsed + 1 }]
    else
      current.actions
        ++ [.virtualHold ⟨ctx.domain, current.tile, current.elapsed, current.elapsed + 1⟩]
  | _ =>
    current.actions
      ++ [.virtualHold ⟨ctx.domain, current.tile, current.elapsed, current.elapsed + 1⟩]

/-- The state one cycle later on the same tile. -/
def rested (current : RouteState) (nextSlot : ℕ) : RouteState where
  tile := current.tile
  slot := nextSlot
  elapsed := current.elapsed + 1
  actions := ctx.waited current
  linkResources := current.linkResources
  visited := current.visited ++ [ctx.stateId current.tile nextSlot]

/-- A cycle of waiting, if the route may wait. -/
def wait (current : RouteState) : Except String (Option RouteState) :=
  match ModuloTimeDomain.advance ctx.ii current.slot 1 with
  | .error what => .error what
  | .ok nextSlot =>
    if ctx.stateId current.tile nextSlot ∈ current.visited then .ok none
    else if current.elapsed = uint32Max then .ok none
    else .ok (some (ctx.rested current nextSlot))

/-- The plan a state offers, and the links it takes. -/
def offer (current : RouteState) : Option (TransportPlan × List ResourceId) :=
  if current.tile = ctx.consumer.tile then
    if current.actions.isEmpty then
      if ctx.producer.tile = ctx.consumer.tile ∧ ctx.ready ≠ uint32Max then
        some (⟨ctx.edge.id, ctx.domain,
          [.virtualHold ⟨ctx.domain, ctx.producer.tile, ctx.ready, ctx.ready + 1⟩],
          ctx.ready + 1⟩, [])
      else none
    else if current.elapsed ≤ uint32Max then
      some (⟨ctx.edge.id, ctx.domain, current.actions, current.elapsed⟩, current.linkResources)
    else none
  else none

end RouteContext

/-! ## The search -/

/-- What the search over the edges changes. -/
structure RealizeState where
  reservations : ResourceReservationTable
  transports : List (TargetEdgeId × TransportPlan) := []
  answer : Option ModuloMapping := none
  deriving DecidableEq, Repr

/-- What the search over the nodes changes. -/
structure SearchState where
  reservations : ResourceReservationTable
  placements : List NodePlacement := []
  answer : Option ModuloMapping := none
  deriving DecidableEq, Repr

/-- What is done with a plan and its links. -/
abbrev RouteConsumer := TransportPlan × List ResourceId → Step String RealizeState

section Routes

variable (ctx : RouteContext) (consume : RouteConsumer)

/-- The order in which the links of a tile are tried. -/
def directions : List Direction := [.north, .east, .south, .west]

/-- The plans that a state and the states after it offer. -/
def visit : ℕ → RouteState → Step String RealizeState
  | 0, _ => fun _ ↦ .error "a route is longer than there are tiles and slots"
  | fuel + 1, current =>
    orElse (along (fun _ ↦ .ok (ctx.offer current)) consume) <|
    orElse (anyOf (fun direction ↦
      along (fun s ↦ ctx.launch s.reservations current direction) (visit fuel)) directions) <|
    along (fun _ ↦ ctx.wait current) (visit fuel)

/-- The state a route starts in. -/
def RouteContext.start (slot : ℕ) : RouteState where
  tile := ctx.producer.tile
  slot := slot
  elapsed := ctx.ready
  actions := []
  linkResources := []
  visited := [ctx.stateId ctx.producer.tile slot]

def routeCandidates : Step String RealizeState := fun s ↦
  if ctx.stateCount = 0 then .ok (false, s)
  else
    match ModuloTimeDomain.advance ctx.ii ctx.producer.issueSlot ctx.ready with
    | .error what => .error what
    | .ok slot => visit ctx consume ctx.stateCount (ctx.start slot) s

end Routes

section Search

variable (dfg : TargetDFG) (target : TargetModel) (ii : ℕ)

def placementAt (placements : List NodePlacement) (id : TargetNodeId) :
    Except String NodePlacement :=
  match SortedMap.lookup NodePlacement.node id placements with
  | none => .error "map::at"
  | some placement => .ok placement

def transportAt (transports : List (TargetEdgeId × TransportPlan)) (id : TargetEdgeId) :
    Except String TransportPlan :=
  match SortedMap.lookup Prod.fst id transports with
  | none => .error "map::at"
  | some entry => .ok entry.2

/-- The mapping of a complete choice. -/
def candidate (placements : List NodePlacement)
    (transports : List (TargetEdgeId × TransportPlan)) : Except String ModuloMapping := do
  let placed ← dfg.nodes.foldlM (fun placed node ↦ do
    let placement ← placementAt placements node.id
    ModuloMappingBuilder.place dfg ii placed ⟨node.id, placement.tile, placement.issueSlot⟩) []
  let realized ← dfg.edges.foldlM (fun realized edge ↦
    match edge.info with
    | .memory kind => ModuloMappingBuilder.setMemorySeparation dfg realized edge.id
        (target.memoryDependenceSeparation kind)
    | _ => do
      let plan ← transportAt transports edge.id
      ModuloMappingBuilder.setTransport dfg realized edge.id plan) []
  ModuloMappingBuilder.finish dfg ii placed realized

/-- A complete choice is the answer if the verifier accepts it. Every exception is a refusal. -/
def accept (placements : List NodePlacement) : Step String RealizeState := fun s ↦
  match candidate dfg target ii placements s.transports with
  | .error _ => .ok (false, s)
  | .ok mapping =>
    match ModuloMappingVerifier.verify dfg target mapping with
    | .ok [] => .ok (true, { s with answer := some mapping })
    | _ => .ok (false, s)

/-- Reserve the links of a route and record its plan. -/
def takeRoute (edge : TargetEdge) (route : TransportPlan × List ResourceId) (s : RealizeState) :
    Option (ReservationDelta × RealizeState) :=
  match s.reservations.tryReserve route.2 ⟨.edge, edge.id⟩ with
  | (none, _) => none
  | (some delta, later) => some (delta, { s with
      reservations := later
      transports := SortedMap.emplace Prod.fst (edge.id, route.1) s.transports })

def leaveRoute (edge : TargetEdge) (delta : ReservationDelta) (s : RealizeState) :
    Except String RealizeState :=
  match s.reservations.undo delta with
  | (.error what, _) => .error what
  | (.ok (), later) => .ok { s with
      reservations := later
      transports := SortedMap.erase Prod.fst edge.id s.transports }

/-- What the routes of an edge are enumerated for. -/
def routeContext (edge : TargetEdge) (ready : ℕ) (producer consumer : NodePlacement) :
    RouteContext :=
  ⟨target, ii, edge, ready, producer, consumer⟩

/-- Routes for the edges, one after the other. -/
def realizeEdges (placements : List NodePlacement) : List TargetEdge → Step String RealizeState
  | [] => accept dfg target ii placements
  | edge :: edges =>
    if edge.kind = .memory then realizeEdges placements edges
    else fun s ↦
      match placementAt placements edge.src, placementAt placements edge.dst,
          dfg.findNode edge.src with
      | .ok producer, .ok consumer, some node =>
        routeCandidates
          (routeContext target ii edge (node.producerOutputReadyOffset.getD 0) producer consumer)
          (fun route ↦ within (takeRoute edge route) (leaveRoute edge)
            (realizeEdges placements edges)) s
      | .error what, _, _ => .error what
      | _, .error what, _ => .error what
      | _, _, none => .error ("unknown target DFG node id: " ++ toString edge.src)

/-- Once every node is placed. -/
def realizeAll : Step String SearchState := fun s ↦
  match realizeEdges dfg target ii s.placements dfg.edges ⟨s.reservations, [], s.answer⟩ with
  | .error what => .error what
  | .ok (found, t) => .ok (found, { s with reservations := t.reservations, answer := t.answer })

def takePlace (node : TargetNode) (tile : TileCoord) (slot : ℕ) (footprint : List ResourceId)
    (s : SearchState) : Option (ReservationDelta × SearchState) :=
  match s.reservations.tryReserve footprint ⟨.node, node.id⟩ with
  | (none, _) => none
  | (some delta, later) => some (delta, { s with
      reservations := later
      placements := SortedMap.emplace NodePlacement.node ⟨node.id, tile, slot⟩ s.placements })

def leavePlace (node : TargetNode) (delta : ReservationDelta) (s : SearchState) :
    Except String SearchState :=
  match s.reservations.undo delta with
  | (.error what, _) => .error what
  | (.ok (), later) => .ok { s with
      reservations := later
      placements := SortedMap.erase NodePlacement.node node.id s.placements }

/-- Every compatible tile, by rows, at every slot. -/
def places (operation : String) : List (TileCoord × ℕ) :=
  ((target.compatibleTiles operation).insertionSort
    fun a b ↦ a.1 < b.1 ∨ (a.1 = b.1 ∧ a.2 ≤ b.2)).flatMap fun tile ↦
      (List.range ii).map fun slot ↦ (⟨tile.1, tile.2⟩, slot)

/-- Places for the nodes, one after the other. -/
def searchPlacements : List TargetNode → Step String SearchState
  | [] => realizeAll dfg target ii
  | node :: nodes =>
    anyOf (fun place ↦
      match (⟨target, ii⟩ : ModuloResourceModel).operationFootprint node place.1 place.2 with
      | .error _ => fail
      | .ok footprint => within (takePlace node place.1 place.2 footprint) (leavePlace node)
          (searchPlacements nodes)) (places target ii node.operation)

/-- Whether the graph, the array or the interval is too large. -/
def isUnsupported (options : ExactOracleOptions) : Bool :=
  ii == 0 || decide (ii > options.maxII) || decide (dfg.nodes.length > options.maxNodes)
    || decide (dfg.edges.length > options.maxEdges)
    || decide (target.array.rows * target.array.cols > options.maxTiles)

def solve (options : ExactOracleOptions) : Except String ExactOracleResult :=
  if isUnsupported dfg target ii options then
    .ok { status := .unsupportedOracleSize }
  else if !(TargetDFGVerifier.verify dfg target).isEmpty then
    .ok { status := .invalidInput }
  else
    match searchPlacements dfg target ii dfg.nodes ⟨.empty ⟨target, ii⟩, [], none⟩ with
    | .error what => .error what
    | .ok (true, s) => .ok { status := .feasible, mapping := s.answer }
    | .ok (false, s) => .ok { status := .infeasible, mapping := s.answer }

end Search

end ExactModuloOracle

end PredicatedMesh
