import PredicatedMesh.Analysis.MII
import PredicatedMesh.Library.SortedMap
import PredicatedMesh.Mapping.Reservation
import PredicatedMesh.Mapping.RouteSearch

/-!
# The modulo mapper

`ModuloMapper.map` tries one initiation interval after the other. For an interval it places the
nodes in an order it chooses as it goes, each on every compatible tile and slot, and routes a
dependence as soon as both of its ends are placed; when a candidate or what is below it fails,
everything the candidate added is taken back. A complete mapping goes through the mapping verifier
and then to a checker for the later stages, which may reject it.

Three counters run over all intervals: candidates tried, backtracks and route searches. Each
interval gets a limit for each of them, half of what is left unless it is the last.

## Exits

A search ends with an outcome or leaves with an exception. The recursion places one more node at
every level, so fuel for all nodes and the complete mapping is enough. The checker is whatever the
caller passes, and may remember the mappings it was asked about before.
-/

namespace PredicatedMesh

/-! ## Results and options -/

inductive ModuloMapperStatus
  | success
  | invalidTargetDFG
  | miiAnalysisFailure
  | noMappingWithinIILimit
  | budgetExceeded
  | routeBudgetExceeded
  | verificationFailure
  | targetContractError
  | internalError
  deriving DecidableEq, Repr

inductive ModuloMapperDiagnosticCode
  | invalidTargetDFG
  | miiAnalysisFailed
  | noCompatibleCandidate
  | nodeResourceConflict
  | routeNoPath
  | routeBudgetExceeded
  | postMappingRejected
  | iiBudgetShareExhausted
  | noMappingWithinIILimit
  | finalVerificationFailed
  | targetContractError
  | internalError
  deriving DecidableEq, Repr

structure ModuloMapperDiagnostic where
  code : ModuloMapperDiagnosticCode
  message : String
  ii : Option ℕ := none
  node : Option TargetNodeId := none
  edge : Option TargetEdgeId := none
  deriving DecidableEq, Repr

/-- The counters the mapper reads again; the others are only reported. -/
structure ModuloMapperStats where
  nodeCandidateAttempts : ℕ := 0
  backtracks : ℕ := 0
  routeSearchCalls : ℕ := 0
  deriving DecidableEq, Repr

structure ModuloMapperResult where
  status : ModuloMapperStatus := .internalError
  mapping : Option ModuloMapping := none
  stats : ModuloMapperStats := {}
  diagnostics : List ModuloMapperDiagnostic := []
  deriving DecidableEq, Repr

inductive CompleteMappingDecision
  | accept
  | reject
  | abort
  deriving DecidableEq, Repr

structure CompleteMappingCheckResult where
  decision : CompleteMappingDecision := .abort
  reasonCode : String := ""
  message : String := ""
  deriving DecidableEq, Repr

/-- The answer may depend on the mappings the checker was asked about before. -/
abbrev CompleteMappingChecker :=
  List ModuloMapping → TargetDFG → TargetModel → ModuloMapping → CompleteMappingCheckResult

structure ModuloMapperBudget where
  maxNodeCandidateAttempts : ℕ := 100000
  maxBacktracks : ℕ := 50000
  maxRouteSearchCalls : ℕ := 100000
  perRouteBudget : RouteSearchBudget := {}

structure ModuloMapperOptions where
  maxII : ℕ := 0
  minII : ℕ := 0
  budget : ModuloMapperBudget := {}
  routeOptions : RouteSearchOptions := {}
  completeMappingChecker : Option CompleteMappingChecker := none

/-! ## Building a mapping -/

namespace ModuloMappingBuilder

variable (dfg : TargetDFG) (ii : ℕ)

def place (placements : List NodePlacement) (placement : NodePlacement) :
    Except String (List NodePlacement) :=
  if placement.issueSlot ≥ ii then .error "modulo slot is outside [0, II)"
  else if !dfg.containsNode placement.node then
    .error "placement references unknown target node"
  else if placements.any fun value ↦ value.node == placement.node then
    .error "target node has duplicate placement"
  else .ok (placements ++ [placement])

def checkAction (transport : TransportPlan) (action : TransportAction) : Except String Unit :=
  if action.domain ≠ transport.domain then
    .error "transport action domain does not match transport plan"
  else
    match action with
    | .virtualHold hold =>
      if hold.releaseElapsed ≤ hold.captureElapsed then
        .error "virtual hold release must be after capture"
      else .ok ()
    | .linkStep _ => .ok ()

def setTransport (dependences : List MappedDependence) (edge : TargetEdgeId)
    (transport : TransportPlan) : Except String (List MappedDependence) :=
  match dfg.findEdge edge with
  | none => .error "transport references unknown target edge"
  | some found =>
    if found.kind = .memory then .error "memory edge cannot carry a transport plan"
    else if transport.domain ≠ ModuloRouteSearch.requestedDomain found then
      .error "transport domain does not match edge kind"
    else if transport.edge ≠ edge then
      .error "transport edge ID does not match mapping edge"
    else if dependences.any fun value ↦ value.edge == edge then
      .error "target edge has duplicate mapping realization"
    else
      match transport.actions.forM (checkAction transport) with
      | .error what => .error what
      | .ok () => .ok (dependences
          ++ [⟨edge, found.kind, transport.requiredSeparationCycles, some transport⟩])

def setMemorySeparation (dependences : List MappedDependence) (edge : TargetEdgeId) (cycles : ℕ) :
    Except String (List MappedDependence) :=
  match dfg.findEdge edge with
  | none => .error "memory separation references unknown target edge"
  | some found =>
    if found.kind ≠ .memory then .error "only memory edges use memory separation"
    else if dependences.any fun value ↦ value.edge == edge then
      .error "target edge has duplicate mapping realization"
    else .ok (dependences ++ [⟨edge, .memory, cycles, none⟩])

def finish (placements : List NodePlacement) (dependences : List MappedDependence) :
    Except String ModuloMapping :=
  if placements.length ≠ dfg.nodes.length ∨ dependences.length ≠ dfg.edges.length then
    .error "completed modulo mapping is missing nodes or dependences"
  else .ok
    { targetName := dfg.targetName
      ii := ii
      placements := placements.insertionSort fun lhs rhs ↦ lhs.node ≤ rhs.node
      dependences := dependences.insertionSort fun lhs rhs ↦ lhs.edge ≤ rhs.edge }

end ModuloMappingBuilder

namespace ModuloMapper

/-! ## The state of a search -/

inductive SearchOutcome
  | success
  | exhausted
  | perIIBudgetExceeded
  | budgetExceeded
  | routeBudgetExceeded
  | verificationFailure
  | internalError
  | postMappingAbort
  deriving DecidableEq, Repr

structure SearchLimits where
  nodeCandidateAttempts : ℕ
  backtracks : ℕ
  routeSearchCalls : ℕ
  deriving DecidableEq, Repr

/-- What a search reads and never changes. -/
structure Context where
  dfg : TargetDFG
  target : TargetModel
  options : ModuloMapperOptions
  ii : ℕ

def Context.resources (ctx : Context) : ModuloResourceModel := ⟨ctx.target, ctx.ii⟩

structure Candidate where
  tile : TileCoord
  slot : ℕ
  stageWraps : ℕ := 0
  locality : ℕ := 0
  slotAffinity : ℕ := 0
  deriving DecidableEq, Repr

/-- What a candidate has added so far. -/
structure CandidateDelta where
  node : TargetNodeId := 0
  nodeReservation : ReservationDelta := ⟨⟨.node, 0⟩, []⟩
  edges : List TargetEdgeId := []
  edgeReservations : List ReservationDelta := []
  deriving DecidableEq, Repr

/-- The nodes that are placed, the dependences that are realized and the resources they take. -/
structure PartialMapping where
  placements : List NodePlacement := []
  dependences : List MappedDependence := []
  reservations : ResourceReservationTable
  deriving DecidableEq, Repr

structure MappingSearchState extends PartialMapping where
  mapping : Option ModuloMapping := none
  verificationFailureReported : Bool := false
  stats : ModuloMapperStats
  diagnostics : List ModuloMapperDiagnostic
  /-- The mappings the checker has been asked about. -/
  checked : List ModuloMapping
  deriving DecidableEq, Repr

namespace PartialMapping

variable (p : PartialMapping)

def hasPlacement (id : TargetNodeId) : Bool :=
  SortedMap.contains NodePlacement.node id p.placements

def placement (id : TargetNodeId) : Option NodePlacement :=
  SortedMap.lookup NodePlacement.node id p.placements

def placementAt (id : TargetNodeId) : Except String NodePlacement :=
  match p.placement id with
  | none => .error "map::at"
  | some placement => .ok placement

def hasDependence (id : TargetEdgeId) : Bool :=
  SortedMap.contains MappedDependence.edge id p.dependences

def place (placement : NodePlacement) (reservations : ResourceReservationTable) :
    PartialMapping where
  placements := SortedMap.emplace NodePlacement.node placement p.placements
  dependences := p.dependences
  reservations := reservations

def realize (edge : TargetEdge) (cycles : ℕ) (transport : Option TransportPlan)
    (reservations : ResourceReservationTable) : PartialMapping where
  placements := p.placements
  dependences := SortedMap.emplace MappedDependence.edge ⟨edge.id, edge.kind, cycles, transport⟩
    p.dependences
  reservations := reservations

end PartialMapping

def MappingSearchState.addDiagnostic (s : MappingSearchState)
    (diagnostic : ModuloMapperDiagnostic) : MappingSearchState :=
  { s with diagnostics := s.diagnostics ++ [diagnostic] }

section Search

variable (ctx : Context)

def nodeAt (id : TargetNodeId) : Except String TargetNode :=
  match ctx.dfg.findNode id with
  | none => .error ("unknown target DFG node id: " ++ toString id)
  | some node => .ok node

def edgeAt (id : TargetEdgeId) : Except String TargetEdge :=
  match ctx.dfg.findEdge id with
  | none => .error ("unknown target DFG edge id: " ++ toString id)
  | some edge => .ok edge

/-- The edges at a node. -/
def edgesAt (node : TargetNodeId) : List TargetEdge :=
  ctx.dfg.edges.filter fun edge ↦ edge.src == node || edge.dst == node

def otherEnd (node : TargetNodeId) (edge : TargetEdge) : TargetNodeId :=
  if edge.src = node then edge.dst else edge.src

def allNodesMapped (p : PartialMapping) : Bool :=
  p.placements.length == ctx.dfg.nodes.length

/-! ## Choosing a node -/

/-- What an unmapped node is chosen by. -/
structure Priority where
  node : TargetNodeId
  unmappedInputs : ℕ
  mapped : ℕ
  degree : ℕ
  loop : ℕ
  deriving DecidableEq, Repr

def priority (p : PartialMapping) (node : TargetNode) : Priority where
  node := node.id
  unmappedInputs := (edgesAt ctx node.id).countP fun edge ↦
    edge.dst == node.id && edge.src != node.id && edge.distance == 0 && edge.kind != .memory
      && !p.hasPlacement edge.src
  mapped := (edgesAt ctx node.id).countP fun edge ↦ p.hasPlacement (otherEnd node.id edge)
  degree := (edgesAt ctx node.id).length
  loop := (edgesAt ctx node.id).countP fun edge ↦ edge.distance != 0

def Priority.key (p : Priority) : List ℕ :=
  [ModuloRouteSearch.uint64Max - p.unmappedInputs, p.mapped, p.degree, p.loop,
    ModuloRouteSearch.uint32Max - p.node]

def better (selected : Option Priority) (p : Priority) : Option Priority :=
  match selected with
  | none => some p
  | some best => if best.key < p.key then some p else some best

def selectNode (p : PartialMapping) : Except String TargetNodeId :=
  let unmapped := ctx.dfg.nodes.filter fun node ↦ !p.hasPlacement node.id
  match (unmapped.map (priority ctx p)).foldl better none with
  | none => .error "no unmapped node remains before mapping completion"
  | some selected => .ok selected.node

/-! ## Candidates -/

def locality (p : PartialMapping) (node : TargetNodeId) (tile : TileCoord) : ℕ :=
  ((edgesAt ctx node).map fun edge ↦
    match p.placement (otherEnd node edge) with
    | none => 0
    | some other => ((tile.row : ℤ) - other.tile.row).natAbs
        + ((tile.col : ℤ) - other.tile.col).natAbs).sum

/-- Count one edge at a slot. -/
def scoreEdge (p : PartialMapping) (node : TargetNodeId) (candidate : Candidate)
    (edge : TargetEdge) : Except String Candidate :=
  if edge.kind = .memory then .ok candidate
  else
    match nodeAt ctx edge.src with
    | .error what => .error what
    | .ok sourceNode =>
      let ready := (sourceNode.producerOutputReadyOffset.getD 0 + 1) % 2 ^ 32
      match p.placement (otherEnd node edge) with
      | none =>
        if edge.distance = 0 ∨ edge.src = edge.dst then .ok candidate
        else
          let preferred := if edge.src = node then (ctx.ii - ready % ctx.ii) % ctx.ii else 0
          if candidate.slot ≠ preferred then
            .ok { candidate with slotAffinity := candidate.slotAffinity + 1 }
          else .ok candidate
      | some found =>
        let separation : ℤ := if edge.dst = node then (candidate.slot : ℤ) - found.issueSlot
          else (found.issueSlot : ℤ) - candidate.slot
        let preferred := (if edge.dst = node then found.issueSlot + ready
          else found.issueSlot + ctx.ii - ready % ctx.ii) % 2 ^ 32 % ctx.ii
        .ok { candidate with
          stageWraps := candidate.stageWraps
            + (if edge.distance = 0 ∧ separation < ready then 1 else 0)
          slotAffinity := candidate.slotAffinity
            + (if candidate.slot ≠ preferred then 1 else 0) }

def score (p : PartialMapping) (node : TargetNodeId) (place : TileCoord × ℕ) :
    Except String Candidate :=
  (edgesAt ctx node).foldlM (scoreEdge ctx p node)
    { tile := place.1, slot := place.2, locality := locality ctx p node place.1 }

def Candidate.key (c : Candidate) : List ℕ :=
  [c.stageWraps, c.locality, c.slotAffinity, c.tile.row, c.tile.col, c.slot]

/-- Every compatible tile at every slot. -/
def places (operation : String) : List (TileCoord × ℕ) :=
  (ctx.target.compatibleTiles operation).flatMap fun tile ↦
    (List.range ctx.ii).map fun slot ↦ (⟨tile.1, tile.2⟩, slot)

def candidates (p : PartialMapping) (node : TargetNodeId) :
    Except String (List Candidate) := do
  let targetNode ← nodeAt ctx node
  let values ← (places ctx targetNode.operation).mapM (score ctx p node)
  return values.insertionSort fun lhs rhs ↦ ¬ rhs.key < lhs.key

/-! ## Realizing edges -/

def closedEdges (p : PartialMapping) (node : TargetNodeId) : List TargetEdgeId :=
  (((edgesAt ctx node).filter fun edge ↦ p.hasPlacement edge.src && p.hasPlacement edge.dst
    && !p.hasDependence edge.id).map TargetEdge.id).insertionSort (· ≤ ·)

/-- The links of a plan, which the search has already compared with each other. -/
def routeResources (plan : TransportPlan) (producer : NodePlacement) :
    Except String (List ResourceId) :=
  plan.actions.foldlM (fun resources action ↦
    match action with
    | .virtualHold _ => .ok resources
    | .linkStep link =>
      match ModuloTimeDomain.advance ctx.ii producer.issueSlot link.elapsedFromProducerIssue with
      | .error what => .error what
      | .ok slot =>
        match ctx.resources.linkResource plan.domain link.source link.direction slot with
        | .error what => .error what
        | .ok none => .error "route search returned a link outside the target topology"
        | .ok (some resource) =>
          if resource ∈ resources then .error "route search returned a self-conflicting route"
          else .ok (resources ++ [resource])) []

/-- The messages of a route search, one a line. Its status and its counters are left out. -/
def formatRoute (route : RouteSearchResult) : String :=
  "\n".intercalate (route.diagnostics.map RouteSearchDiagnostic.message)

/-- Reserve the route that was found and record it. -/
def reserveRoute (edge : TargetEdge) (producer : NodePlacement) (plan : TransportPlan)
    (delta : CandidateDelta) (s : MappingSearchState) :
    Except String (SearchOutcome × CandidateDelta × MappingSearchState) :=
  match routeResources ctx plan producer with
  | .error what => .error what
  | .ok routeIds =>
    match s.reservations.tryReserve routeIds ⟨.edge, edge.id⟩ with
    | (none, _) => .ok (.internalError, delta, s.addDiagnostic ⟨.internalError,
        "route search returned a route that could not be reserved", some ctx.ii, none,
        some edge.id⟩)
    | (some reservation, later) =>
      .ok (.success,
        { delta with
          edgeReservations := delta.edgeReservations ++ [reservation]
          edges := delta.edges ++ [edge.id] },
        { s with toPartialMapping :=
            s.realize edge plan.requiredSeparationCycles (some plan) later })

/-- What comes of a route search. -/
def settleRoute (edge : TargetEdge) (producer : NodePlacement) (route : RouteSearchResult)
    (delta : CandidateDelta) (s : MappingSearchState) :
    Except String (SearchOutcome × CandidateDelta × MappingSearchState) :=
  let fail (outcome : SearchOutcome) (code : ModuloMapperDiagnosticCode) :
      Except String (SearchOutcome × CandidateDelta × MappingSearchState) :=
    .ok (outcome, delta,
      s.addDiagnostic ⟨code, formatRoute route, some ctx.ii, none, some edge.id⟩)
  match route.status, route.plan with
  | .noPath, _ => fail .exhausted .routeNoPath
  | .budgetExceeded, _ => fail .routeBudgetExceeded .routeBudgetExceeded
  | .targetContractError, _ => fail .internalError .targetContractError
  | .success, some plan => reserveRoute ctx edge producer plan delta s
  | _, _ => fail .internalError .internalError

def Context.routeOptions : RouteSearchOptions :=
  { ctx.options.routeOptions with budget := ctx.options.budget.perRouteBudget }

variable (limits : SearchLimits)

def routeEdge (edge : TargetEdge) (producer consumer : NodePlacement) (delta : CandidateDelta)
    (s : MappingSearchState) :
    Except String (SearchOutcome × CandidateDelta × MappingSearchState) :=
  if s.stats.routeSearchCalls ≥ limits.routeSearchCalls then
    .ok (.perIIBudgetExceeded, delta, s.addDiagnostic ⟨.iiBudgetShareExhausted,
      "per-II route-search budget share was exhausted", some ctx.ii, none, some edge.id⟩)
  else
    let s := { s with
      stats := { s.stats with routeSearchCalls := s.stats.routeSearchCalls + 1 } }
    match ModuloRouteSearch.search ctx.dfg ctx.target ctx.resources s.reservations
        ⟨edge.id, producer, consumer⟩ ctx.routeOptions with
    | .error what => .error what
    | .ok route => settleRoute ctx edge producer route delta s

def realizeEdge (delta : CandidateDelta) (s : MappingSearchState) (edgeId : TargetEdgeId) :
    Except String (SearchOutcome × CandidateDelta × MappingSearchState) := do
  let edge ← edgeAt ctx edgeId
  let producer ← s.placementAt edge.src
  let consumer ← s.placementAt edge.dst
  match edge.info with
  | .memory kind =>
    let separation := ctx.target.memoryDependenceSeparation kind
    return (.success, { delta with edges := delta.edges ++ [edge.id] },
      { s with toPartialMapping := s.realize edge separation none s.reservations })
  | _ => routeEdge ctx limits edge producer consumer delta s

def realizeEdges : List TargetEdgeId → CandidateDelta → MappingSearchState →
    Except String (SearchOutcome × CandidateDelta × MappingSearchState)
  | [], delta, s => .ok (.success, delta, s)
  | edge :: edges, delta, s =>
    match realizeEdge ctx limits delta s edge with
    | .error what => .error what
    | .ok (.success, delta, s) => realizeEdges edges delta s
    | .ok (outcome, delta, s) => .ok (outcome, delta, s)

/-! ## Candidates, tried and taken back -/

def tryCandidate (node : TargetNodeId) (candidate : Candidate) (delta : CandidateDelta)
    (s : MappingSearchState) :
    Except String (SearchOutcome × CandidateDelta × MappingSearchState) := do
  let targetNode ← nodeAt ctx node
  match ctx.resources.operationFootprint targetNode candidate.tile candidate.slot with
  | .error _ => return (.exhausted, delta, s)
  | .ok footprint =>
    match s.reservations.tryReserve footprint ⟨.node, node⟩ with
    | (none, _) => return (.exhausted, delta, s.addDiagnostic ⟨.nodeResourceConflict,
        "candidate operation footprint conflicts with an existing reservation", some ctx.ii,
        some node, none⟩)
    | (some reservation, later) =>
      let placed := s.place ⟨node, candidate.tile, candidate.slot⟩ later
      realizeEdges ctx limits (closedEdges ctx placed node)
        { delta with node := node, nodeReservation := reservation }
        { s with toPartialMapping := placed }

def undo (table : ResourceReservationTable) (delta : ReservationDelta) :
    Except String ResourceReservationTable :=
  match table.undo delta with
  | (.error what, _) => .error what
  | (.ok (), later) => .ok later

def rollback (delta : CandidateDelta) (s : MappingSearchState) :
    Except String MappingSearchState := do
  let released ← delta.edgeReservations.reverse.foldlM undo s.reservations
  let released ← if delta.nodeReservation.resources.isEmpty then .ok released
    else undo released delta.nodeReservation
  return { s with
    dependences := delta.edges.foldl (fun dependences edge ↦
      SortedMap.erase MappedDependence.edge edge dependences) s.dependences
    reservations := released
    placements := SortedMap.erase NodePlacement.node delta.node s.placements }

/-! ## Complete mappings -/

def materialize (p : PartialMapping) : Except String ModuloMapping := do
  let placements ← p.placements.foldlM (ModuloMappingBuilder.place ctx.dfg ctx.ii) []
  let dependences ← p.dependences.foldlM (fun dependences dependence ↦
    match dependence.transport with
    | some transport =>
      ModuloMappingBuilder.setTransport ctx.dfg dependences dependence.edge transport
    | none => ModuloMappingBuilder.setMemorySeparation ctx.dfg dependences dependence.edge
        dependence.requiredSeparationCycles) []
  ModuloMappingBuilder.finish ctx.dfg ctx.ii placements dependences

def startsWith (code start : String) : Bool := start.toList.isPrefixOf code.toList

/-- The outcome of a check that aborts the search. -/
def abortOutcome (check : CompleteMappingCheckResult) : SearchOutcome :=
  if startsWith check.reasonCode "budget" then .budgetExceeded
  else if startsWith check.reasonCode "verification" then .verificationFailure
  else .internalError

def checkComplete (mapping : ModuloMapping) (s : MappingSearchState) :
    SearchOutcome × MappingSearchState :=
  match ctx.options.completeMappingChecker with
  | none => (.success, s)
  | some completeMappingChecker =>
    let check := completeMappingChecker s.checked ctx.dfg ctx.target mapping
    let s := { s with checked := s.checked ++ [mapping] }
    let message := check.reasonCode
      ++ (if check.message.isEmpty then "" else ": " ++ check.message)
    match check.decision with
    | .accept => (.success, s)
    | .reject => (.exhausted, { s.addDiagnostic ⟨.postMappingRejected, message, some ctx.ii, none,
        none⟩ with mapping := none })
    | .abort => (abortOutcome check, { s.addDiagnostic ⟨.internalError, message, some ctx.ii, none,
        none⟩ with mapping := none })

def complete (s : MappingSearchState) : Except String (SearchOutcome × MappingSearchState) :=
  match materialize ctx s.toPartialMapping with
  | .error what => .ok (.internalError, { s.addDiagnostic ⟨.internalError,
      "failed to materialize mapping: " ++ what, some ctx.ii, none, none⟩ with mapping := none })
  | .ok mapping =>
    let s := { s with mapping := some mapping }
    match ModuloMappingVerifier.verify ctx.dfg ctx.target mapping with
    | .error what => .error what
    | .ok report =>
      if !report.isEmpty then
        .ok (.verificationFailure,
          if s.verificationFailureReported then s
          else { s.addDiagnostic ⟨.finalVerificationFailed, ModuloMappingVerifier.format report,
            some ctx.ii, none, none⟩ with verificationFailureReported := true })
      else .ok (checkComplete ctx mapping s)

/-! ## The search -/

/-- Whether the loop over the candidates goes on. -/
inductive Progress
  | next (s : MappingSearchState)
  | done (outcome : SearchOutcome) (s : MappingSearchState)
  deriving DecidableEq, Repr

/-- After the search below a candidate. -/
def backtrack (node : TargetNodeId) (delta : CandidateDelta) (child : SearchOutcome)
    (s : MappingSearchState) : Except String Progress :=
  if child = .success then .ok (.done .success s)
  else
    match rollback delta s with
    | .error what => .error what
    | .ok s =>
      if child ≠ .exhausted then .ok (.done child s)
      else if s.stats.backtracks ≥ limits.backtracks then
        .ok (.done .perIIBudgetExceeded (s.addDiagnostic ⟨.iiBudgetShareExhausted,
          "per-II backtrack budget share was exhausted", some ctx.ii, some node, none⟩))
      else .ok (.next { s with stats := { s.stats with backtracks := s.stats.backtracks + 1 } })

/-- One candidate: try it, and search below it. -/
def attempt (search : MappingSearchState → Except String (SearchOutcome × MappingSearchState))
    (node : TargetNodeId) (candidate : Candidate) (s : MappingSearchState) :
    Except String Progress :=
  if s.stats.nodeCandidateAttempts ≥ limits.nodeCandidateAttempts then
    .ok (.done .perIIBudgetExceeded (s.addDiagnostic ⟨.iiBudgetShareExhausted,
      "per-II node-candidate budget share was exhausted", some ctx.ii, some node, none⟩))
  else
    let s := { s with
      stats := { s.stats with nodeCandidateAttempts := s.stats.nodeCandidateAttempts + 1 } }
    match tryCandidate ctx limits node candidate {} s with
    | .error what => .error what
    | .ok (.success, delta, s) =>
      match search s with
      | .error what => .error what
      | .ok (child, s) => backtrack ctx limits node delta child s
    | .ok (.exhausted, delta, s) =>
      if delta.nodeReservation.resources.isEmpty then .ok (.next s)
      else (rollback delta s).map .next
    | .ok (outcome, delta, s) => (rollback delta s).map (.done outcome)

def attempts (search : MappingSearchState → Except String (SearchOutcome × MappingSearchState))
    (node : TargetNodeId) : List Candidate → MappingSearchState →
    Except String (SearchOutcome × MappingSearchState)
  | [], s => .ok (.exhausted, s)
  | candidate :: candidates, s =>
    match attempt ctx limits search node candidate s with
    | .error what => .error what
    | .ok (.done outcome s) => .ok (outcome, s)
    | .ok (.next s) => attempts search node candidates s

/-- The search; the fuel bounds its depth. -/
def search : ℕ → MappingSearchState → Except String (SearchOutcome × MappingSearchState)
  | 0, _ => .error "the search is deeper than there are nodes"
  | fuel + 1, s =>
    if allNodesMapped ctx s.toPartialMapping then complete ctx s
    else do
      let node ← selectNode ctx s.toPartialMapping
      let nodeCandidates ← candidates ctx s.toPartialMapping node
      if nodeCandidates.isEmpty then
        return (.exhausted, s.addDiagnostic ⟨.noCompatibleCandidate,
          "unmapped node has no compatible tile candidates", some ctx.ii, some node, none⟩)
      else attempts ctx limits (search fuel) node nodeCandidates s

/-- No node is placed and no resource is taken. -/
def start : PartialMapping where
  reservations := .empty ctx.resources

/-- The state a search for one interval starts in. -/
def initial (result : ModuloMapperResult) (checked : List ModuloMapping) : MappingSearchState where
  toPartialMapping := start ctx
  stats := result.stats
  diagnostics := result.diagnostics
  checked := checked

def run (result : ModuloMapperResult) (checked : List ModuloMapping) :
    Except String (SearchOutcome × MappingSearchState) :=
  search ctx limits (ctx.dfg.nodes.length + 1) (initial ctx result checked)

end Search

/-! ## All intervals -/

def fairShareLimit (maximum used attemptsRemaining : ℕ) : ℕ :=
  if used ≥ maximum then used
  else
    let remaining := maximum - used
    used + (if attemptsRemaining = 1 then remaining else remaining / 2 + remaining % 2)

def limitsFor (budget : ModuloMapperBudget) (stats : ModuloMapperStats) (attemptsRemaining : ℕ) :
    SearchLimits where
  nodeCandidateAttempts :=
    fairShareLimit budget.maxNodeCandidateAttempts stats.nodeCandidateAttempts attemptsRemaining
  backtracks := fairShareLimit budget.maxBacktracks stats.backtracks attemptsRemaining
  routeSearchCalls :=
    fairShareLimit budget.maxRouteSearchCalls stats.routeSearchCalls attemptsRemaining

section Map

variable (dfg : TargetDFG) (target : TargetModel) (options : ModuloMapperOptions)

/-- What the search at one interval reads. -/
def contextFor (ii : ℕ) : Context := ⟨dfg, target, options, ii⟩

/-- The result, with what a search has counted and reported. -/
def absorb (result : ModuloMapperResult) (s : MappingSearchState) : ModuloMapperResult :=
  { result with stats := s.stats, diagnostics := s.diagnostics }

def mapFrom (maxII : ℕ) : List ℕ → Bool → ModuloMapperResult → List ModuloMapping →
    Except String ModuloMapperResult
  | [], perIIBudgetExceeded, result, _ =>
    if perIIBudgetExceeded then .ok { result with status := .budgetExceeded }
    else .ok { result with
      status := .noMappingWithinIILimit
      diagnostics := result.diagnostics ++ [⟨.noMappingWithinIILimit,
        "all II values through maxII were fully exhausted", none, none, none⟩] }
  | ii :: iis, perIIBudgetExceeded, result, checked =>
    let limits := limitsFor options.budget result.stats (maxII - ii + 1)
    match run (contextFor dfg target options ii) limits result checked with
    | .error what => .error what
    | .ok (outcome, s) =>
      let result := absorb result s
      match outcome with
      | .success => .ok { result with status := .success, mapping := s.mapping }
      | .perIIBudgetExceeded => mapFrom maxII iis true result s.checked
      | .budgetExceeded => .ok { result with status := .budgetExceeded }
      | .routeBudgetExceeded => .ok { result with status := .routeBudgetExceeded }
      | .verificationFailure => .ok { result with status := .verificationFailure, mapping := none }
      | .internalError => .ok { result with status := .internalError, mapping := none }
      | .exhausted | .postMappingAbort => mapFrom maxII iis perIIBudgetExceeded result s.checked

/-- A result with one diagnostic. -/
def failed (status : ModuloMapperStatus) (code : ModuloMapperDiagnosticCode) (message : String)
    (ii : Option ℕ) : ModuloMapperResult :=
  { status := status, diagnostics := [⟨code, message, ii, none, none⟩] }

/-- The messages of an analysis, one a line. Its status is left out. -/
def formatMII (mii : MIIResult) : String :=
  "\n".intercalate (mii.diagnostics.map MIIAnalysisDiagnostic.message)

def startII (mii : ℕ) : ℕ := max mii (if options.minII = 0 then mii else options.minII)

def endII (mii : ℕ) : ℕ := if options.maxII = 0 then startII options mii else options.maxII

/-- The intervals to search, the smallest first. -/
def intervals (mii : ℕ) : List ℕ :=
  List.range' (startII options mii) (endII options mii + 1 - startII options mii)

def map : Except String ModuloMapperResult :=
  match MIIAnalyzer.analyze dfg target with
  | .error what => .error what
  | .ok mii =>
    match mii.status with
    | .success =>
      if mii.mii = 0 ∨ mii.mii = ModuloRouteSearch.uint32Max then
        .ok (failed .miiAnalysisFailure .miiAnalysisFailed
          "MII analyzer returned an invalid starting II" none)
      else if endII options mii.mii < startII options mii.mii then
        .ok (failed .noMappingWithinIILimit .noMappingWithinIILimit
          "maxII is below the analyzer lower bound" (some mii.mii))
      else
        mapFrom dfg target options (endII options mii.mii) (intervals options mii.mii) false {} []
    | .invalidTargetDFG =>
      .ok (failed .invalidTargetDFG .invalidTargetDFG (formatMII mii) none)
    | .targetContractError =>
      .ok (failed .targetContractError .targetContractError (formatMII mii) none)
    | _ => .ok (failed .miiAnalysisFailure .miiAnalysisFailed (formatMII mii) none)

end Map

end ModuloMapper

end PredicatedMesh
