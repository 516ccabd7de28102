import PredicatedMesh.Mapping.Resource
import PredicatedMesh.Target.DFGVerifier

/-!
# Verifying a modulo mapping

The verifier rebuilds the reservation table from nothing. It first reserves the footprint of every
node, in the order of the node ids, and then walks the transport plan of every value dependence, in
the order of the edge ids, reconstructing where the value is and since when, and reserving the links
it launches. A step that finds something wrong reports it and leaves its own state alone.

## Reading a clean run

`loop_clean` turns the two loops into two facts about the final table: every footprint and every
route is recorded for its own node or edge. The walk along one plan is the only nested loop; a clean
walk is exactly a `TransportChain`, the relation the timing results are stated with.
-/

namespace PredicatedMesh

open Scan

/-! ## Diagnostics -/

inductive MappingDiagnosticCode
  | invalidTargetDFG
  | invalidII
  | targetNameMismatch
  | unknownNode
  | unknownEdge
  | nodeMissingPlacement
  | nodeDuplicatePlacement
  | edgeMissingRealization
  | edgeDuplicateRealization
  | tileOutOfRange
  | slotOutOfRange
  | operationUnsupportedOnTile
  | executionResourceMissing
  | fuResourceConflict
  | lsuResourceConflict
  | dataLinkConflict
  | predLinkConflict
  | operationSelfOverlap
  | routeSelfResourceConflict
  | transportMissingForValueEdge
  | transportDomainMismatch
  | transportBadStart
  | transportBadEnd
  | transportDiscontinuity
  | linkInvalidTopology
  | linkTimeBeforeValueReady
  | linkTimeRegression
  | linkTimeGapWithoutStorage
  | holdInvalidInterval
  | holdWrongTile
  | holdBeforeValueReady
  | holdDiscontinuity
  | requiredSeparationMismatch
  | memoryTransportPresent
  | memorySeparationTooSmall
  | memorySeparationMismatch
  | targetTimingMissing
  | internalError
  deriving DecidableEq, Repr

def MappingDiagnosticCode.toString : MappingDiagnosticCode → String
  | .invalidTargetDFG => "MMAP_INVALID_TARGET_DFG"
  | .invalidII => "MMAP_INVALID_II"
  | .targetNameMismatch => "MMAP_TARGET_NAME_MISMATCH"
  | .unknownNode => "MMAP_UNKNOWN_NODE"
  | .unknownEdge => "MMAP_UNKNOWN_EDGE"
  | .nodeMissingPlacement => "MMAP_NODE_MISSING_PLACEMENT"
  | .nodeDuplicatePlacement => "MMAP_NODE_DUPLICATE_PLACEMENT"
  | .edgeMissingRealization => "MMAP_EDGE_MISSING_REALIZATION"
  | .edgeDuplicateRealization => "MMAP_EDGE_DUPLICATE_REALIZATION"
  | .tileOutOfRange => "MMAP_TILE_OUT_OF_RANGE"
  | .slotOutOfRange => "MMAP_SLOT_OUT_OF_RANGE"
  | .operationUnsupportedOnTile => "MMAP_OPERATION_UNSUPPORTED_ON_TILE"
  | .executionResourceMissing => "MMAP_EXECUTION_RESOURCE_MISSING"
  | .fuResourceConflict => "MMAP_FU_RESOURCE_CONFLICT"
  | .lsuResourceConflict => "MMAP_LSU_RESOURCE_CONFLICT"
  | .dataLinkConflict => "MMAP_DATA_LINK_CONFLICT"
  | .predLinkConflict => "MMAP_PRED_LINK_CONFLICT"
  | .operationSelfOverlap => "MMAP_OPERATION_SELF_OVERLAP"
  | .routeSelfResourceConflict => "MMAP_ROUTE_SELF_RESOURCE_CONFLICT"
  | .transportMissingForValueEdge => "MMAP_TRANSPORT_MISSING_FOR_VALUE_EDGE"
  | .transportDomainMismatch => "MMAP_TRANSPORT_DOMAIN_MISMATCH"
  | .transportBadStart => "MMAP_TRANSPORT_BAD_START"
  | .transportBadEnd => "MMAP_TRANSPORT_BAD_END"
  | .transportDiscontinuity => "MMAP_TRANSPORT_DISCONTINUITY"
  | .linkInvalidTopology => "MMAP_LINK_INVALID_TOPOLOGY"
  | .linkTimeBeforeValueReady => "MMAP_LINK_TIME_BEFORE_VALUE_READY"
  | .linkTimeRegression => "MMAP_LINK_TIME_REGRESSION"
  | .linkTimeGapWithoutStorage => "MMAP_LINK_TIME_GAP_WITHOUT_STORAGE"
  | .holdInvalidInterval => "MMAP_HOLD_INVALID_INTERVAL"
  | .holdWrongTile => "MMAP_HOLD_WRONG_TILE"
  | .holdBeforeValueReady => "MMAP_HOLD_BEFORE_VALUE_READY"
  | .holdDiscontinuity => "MMAP_HOLD_DISCONTINUITY"
  | .requiredSeparationMismatch => "MMAP_REQUIRED_SEPARATION_MISMATCH"
  | .memoryTransportPresent => "MMAP_MEMORY_TRANSPORT_PRESENT"
  | .memorySeparationTooSmall => "MMAP_MEMORY_SEPARATION_TOO_SMALL"
  | .memorySeparationMismatch => "MMAP_MEMORY_SEPARATION_MISMATCH"
  | .targetTimingMissing => "MMAP_TARGET_TIMING_MISSING"
  | .internalError => "MMAP_INTERNAL_ERROR"

/-- A diagnostic of the mapping verifier. All of them are errors. -/
structure MappingDiagnostic where
  code : MappingDiagnosticCode
  message : String
  node : Option TargetNodeId := none
  edge : Option TargetEdgeId := none
  resource : Option ResourceId := none
  tile : Option TileCoord := none
  slot : Option ℕ := none
  actionIndex : Option ℕ := none
  conflictingOwner : Option ReservationOwner := none
  deriving DecidableEq, Repr

/-- One line of a formatted report. -/
def MappingDiagnostic.format (diagnostic : MappingDiagnostic) : String :=
  "\nerror [" ++ diagnostic.code.toString ++ "]"
    ++ (diagnostic.node.elim "" fun node ↦ " node=%n" ++ toString node)
    ++ (diagnostic.edge.elim "" fun edge ↦ " edge=%e" ++ toString edge)
    ++ (diagnostic.tile.elim "" fun tile ↦ " tile=" ++ tile.toString)
    ++ (diagnostic.slot.elim "" fun slot ↦ " slot=" ++ toString slot)
    ++ (diagnostic.actionIndex.elim "" fun action ↦ " action=" ++ toString action)
    ++ (diagnostic.conflictingOwner.elim "" fun owner ↦ " conflicting_owner="
      ++ (match owner.kind with | .node => "node" | .edge => "edge") ++ ":" ++ toString owner.id)
    ++ ": " ++ diagnostic.message

namespace ModuloMappingVerifier

def format (report : List MappingDiagnostic) : String :=
  (if report.isEmpty then "valid" else "invalid") ++ " modulo mapping"
    ++ String.join (report.map MappingDiagnostic.format)

def expectedDomain : EdgeKind → NetworkDomain
  | .predicate => .predicate
  | _ => .data

def conflictCode (resource : ModuloResource) : MappingDiagnosticCode :=
  match resource.kindOf with
  | .fu => .fuResourceConflict
  | .lsu => .lsuResourceConflict
  | .dataLink => .dataLinkConflict
  | .predicateLink => .predLinkConflict

/-! ## Walking a transport plan -/

/-- Where the value is, since when, and over which links it came. -/
structure Availability where
  tile : TileCoord
  elapsed : ℕ
  routeResources : List ResourceId
  deriving DecidableEq, Repr

/-- What a walk needs to know besides the plan. -/
structure TransportContext where
  resources : ModuloResourceModel
  reservations : ResourceReservationTable
  edge : TargetEdge
  domain : NetworkDomain
  srcPlacement : NodePlacement
  producerReady : ℕ
  hopLatency : ℕ

section Walk

variable (ctx : TransportContext)

/-- The link resource a launch occupies. -/
def TransportContext.launchResource (link : LinkStep) : ModuloResource :=
  .link ctx.domain link.source link.direction
    ((ctx.srcPlacement.issueSlot + link.elapsedFromProducerIssue) % ctx.resources.ii)

def linkConflict (link : LinkStep) (slot index : ℕ) (resource : ResourceId)
    (owner : ReservationOwner) : MappingDiagnostic :=
  { code := ((ctx.resources.resource resource).map conflictCode).getD .internalError
    message := "link resource conflicts with edge "
      ++ (match owner.kind with | .edge => toString owner.id | .node => "a node")
    edge := some ctx.edge.id, resource := some resource, tile := some link.source
    slot := some slot, actionIndex := some index, conflictingOwner := some owner }

/-- The launch of a link once its time and its source agree with the availability. -/
def launchLink (available : Availability) (link : LinkStep) (index slot : ℕ)
    (resource : Option ResourceId) : Except String (Availability × List MappingDiagnostic) :=
  match ctx.resources.target.neighbor link.source link.direction, resource with
  | some nextTile, some resource =>
    if available.routeResources.contains resource then
      .ok (available, [{ code := .routeSelfResourceConflict
                         message := "one transport route reuses a modulo link resource"
                         edge := some ctx.edge.id, resource := some resource
                         tile := some link.source, slot := some slot, actionIndex := some index }])
    else
      match ctx.reservations.owner resource with
      | .error e => .error e
      | .ok (some owner) =>
        .ok ({ available with routeResources := available.routeResources ++ [resource] },
          [linkConflict ctx link slot index resource owner])
      | .ok none =>
        .ok (⟨nextTile, link.elapsedFromProducerIssue + ctx.hopLatency,
          available.routeResources ++ [resource]⟩, [])
  | _, resource =>
    .ok (available, [{ code := .linkInvalidTopology
                       message := "link does not exist in the target mesh"
                       edge := some ctx.edge.id, resource := resource, tile := some link.source
                       slot := some slot, actionIndex := some index }])

def checkLink (available : Availability) (link : LinkStep) (index : ℕ) :
    Except String (Availability × List MappingDiagnostic) :=
  let report (code : MappingDiagnosticCode) (message : String) :
      Except String (Availability × List MappingDiagnostic) :=
    .ok (available, [{ code := code, message := message, edge := some ctx.edge.id
                       tile := some link.source, actionIndex := some index }])
  if index = 0 ∧ link.elapsedFromProducerIssue < ctx.producerReady then
    report .linkTimeBeforeValueReady "first link launch precedes producer output readiness"
  else if link.elapsedFromProducerIssue < available.elapsed then
    report .linkTimeRegression "link launch occurs before the current availability time"
  else if link.elapsedFromProducerIssue > available.elapsed then
    report .linkTimeGapWithoutStorage "link launch has an implicit wait without VirtualHold"
  else if link.source ≠ available.tile then
    report .transportDiscontinuity "link source does not match the current available tile"
  else
    match ModuloTimeDomain.advance ctx.resources.ii ctx.srcPlacement.issueSlot
        link.elapsedFromProducerIssue with
    | .error e => .error e
    | .ok slot =>
      match ctx.resources.linkResource ctx.domain link.source link.direction slot with
      | .error e => .error e
      | .ok resource => launchLink ctx available link index slot resource

def checkHold (available : Availability) (hold : VirtualHold) (index : ℕ) :
    Except String (Availability × List MappingDiagnostic) :=
  let report (code : MappingDiagnosticCode) (message : String) :
      Except String (Availability × List MappingDiagnostic) :=
    .ok (available, [{ code := code, message := message, edge := some ctx.edge.id
                       tile := some hold.tile, actionIndex := some index }])
  if hold.tile ≠ available.tile then
    report .holdWrongTile "VirtualHold tile does not match current availability"
  else if hold.captureElapsed < available.elapsed then
    report .holdBeforeValueReady "VirtualHold captures before the value is available"
  else if hold.captureElapsed > available.elapsed then
    report .holdDiscontinuity "VirtualHold capture has an implicit wait"
  else if hold.releaseElapsed ≤ hold.captureElapsed then
    report .holdInvalidInterval "VirtualHold release must be after capture"
  else
    .ok ({ available with elapsed := hold.releaseElapsed }, [])

def checkAction (available : Availability) (entry : TransportAction × ℕ) :
    Except String (Availability × List MappingDiagnostic) :=
  if entry.1.domain ≠ ctx.domain then
    .ok (available, [{ code := .transportDomainMismatch
                       message := "transport action domain disagrees with plan"
                       edge := some ctx.edge.id, actionIndex := some entry.2 }])
  else
    match entry.1 with
    | .linkStep link => checkLink ctx available link entry.2
    | .virtualHold hold => checkHold ctx available hold entry.2

end Walk

/-! ## The verifier -/

section Verify

variable (dfg : TargetDFG) (target : TargetModel) (mapping : ModuloMapping)

def resourceModel : ModuloResourceModel := ⟨target, mapping.ii⟩

/-- The end of a walk: the value has arrived, at the separation the plan and the dependence record,
and the links of the route are free. -/
def finishTransport (edge : TargetEdge) (dependence : MappedDependence) (plan : TransportPlan)
    (srcPlacement dstPlacement : NodePlacement) (reservations : ResourceReservationTable)
    (available : Availability) : ResourceReservationTable × List MappingDiagnostic :=
  if plan.actions.isEmpty && srcPlacement.tile == dstPlacement.tile then
    (reservations, [{ code := .transportBadEnd
                      message := "same-tile value dependence requires explicit VirtualHold"
                      edge := some edge.id }])
  else if available.tile ≠ dstPlacement.tile then
    (reservations, [{ code := .transportBadEnd
                      message := "transport finishes on a tile different from the consumer"
                      node := some edge.dst, edge := some edge.id, tile := some available.tile }])
  else if available.elapsed ≠ plan.requiredSeparationCycles ∨
      dependence.requiredSeparationCycles ≠ plan.requiredSeparationCycles then
    (reservations,
      [{ code := .requiredSeparationMismatch
         message := "cached required separation does not match reconstructed transport timing"
         edge := some edge.id }])
  else if available.routeResources.isEmpty then
    (reservations, [])
  else
    match reservations.reserve available.routeResources ⟨.edge, edge.id⟩ with
    | none =>
      (reservations,
        [{ code := .internalError
           message := "fresh reservation table rejected a previously free transport route"
           edge := some edge.id }])
    | some later => (later, [])

def verifyValueTransport (edge : TargetEdge) (dependence : MappedDependence)
    (srcPlacement dstPlacement : NodePlacement) (reservations : ResourceReservationTable) :
    Except String (ResourceReservationTable × List MappingDiagnostic) :=
  let report (code : MappingDiagnosticCode) (message : String) (node : Option TargetNodeId) :
      Except String (ResourceReservationTable × List MappingDiagnostic) :=
    .ok (reservations, [{ code := code, message := message, node := node, edge := some edge.id }])
  match dependence.transport with
  | none => report .transportMissingForValueEdge "value dependence has no transport plan" none
  | some plan =>
    if plan.edge ≠ edge.id then
      report .transportBadStart "transport plan edge ID disagrees with target edge" none
    else if plan.domain ≠ expectedDomain edge.kind then
      report .transportDomainMismatch
        "transport network domain disagrees with target edge kind" none
    else
      match dfg.findNode edge.src with
      | none => .error ("unknown target DFG node id: " ++ toString edge.src)
      | some producer =>
        match producer.producerOutputReadyOffset with
        | none =>
          report .targetTimingMissing
            "value-producing target operation has no producer output-ready offset" (some edge.src)
        | some producerReady =>
          if (target.network plan.domain).hopLatency = 0 then
            report .targetTimingMissing "target network hop latency must be positive" none
          else
            let ctx : TransportContext :=
              { resources := resourceModel target mapping
                reservations := reservations
                edge := edge
                domain := plan.domain
                srcPlacement := srcPlacement
                producerReady := producerReady
                hopLatency := (target.network plan.domain).hopLatency }
            match loop (checkAction ctx) ⟨srcPlacement.tile, producerReady, []⟩
                plan.actions.zipIdx with
            | .error e => .error e
            | .ok (available, []) =>
              .ok (finishTransport edge dependence plan srcPlacement dstPlacement reservations
                available)
            | .ok (_, diagnostics) => .ok (reservations, diagnostics)

def checkPlacementEntries : List MappingDiagnostic :=
  ((mapping.placements.map NodePlacement.node).dedup.insertionSort (· ≤ ·)).flatMap fun id ↦
    require (dfg.containsNode id)
      { code := .unknownNode, message := "mapping contains placement for unknown TargetDFG node"
        node := some id }
    ++ require ((mapping.placementEntries id).length ≤ 1)
      { code := .nodeDuplicatePlacement, message := "mapping contains duplicate node placements"
        node := some id }

def checkDependenceEntries : List MappingDiagnostic :=
  ((mapping.dependences.map MappedDependence.edge).dedup.insertionSort (· ≤ ·)).flatMap fun id ↦
    require (dfg.containsEdge id)
      { code := .unknownEdge, message := "mapping contains realization for unknown TargetDFG edge"
        edge := some id }
    ++ require ((mapping.dependenceEntries id).length ≤ 1)
      { code := .edgeDuplicateRealization
        message := "mapping contains duplicate edge realizations", edge := some id }

def checkMissingEntries : List MappingDiagnostic :=
  (dfg.nodesById.flatMap fun node ↦ require ((mapping.placementEntries node.id).length == 1)
    { code := .nodeMissingPlacement, message := "TargetDFG node has no unique placement"
      node := some node.id })
  ++ dfg.edgesById.flatMap fun edge ↦ require ((mapping.dependenceEntries edge.id).length == 1)
    { code := .edgeMissingRealization
      message := "TargetDFG edge has no unique mapping realization", edge := some edge.id }

/-- The first owner a refused footprint runs into. -/
def footprintConflict (reservations : ResourceReservationTable) (node : TargetNode) :
    List ResourceId → List MappingDiagnostic
  | [] => []
  | resource :: footprint =>
    match reservations.owner resource with
    | .ok (some owner) =>
      [{ code := (((resourceModel target mapping).resource resource).map conflictCode).getD
           .internalError
         message := "node resource conflicts with mapped node " ++ toString owner.id
         node := some node.id, resource := some resource
         tile := ((resourceModel target mapping).resource resource).map ModuloResource.tile
         slot := ((resourceModel target mapping).resource resource).map ModuloResource.slot
         conflictingOwner := some owner }]
    | _ => footprintConflict reservations node footprint

def reserveFootprint (reservations : ResourceReservationTable) (node : TargetNode)
    (footprint : List ResourceId) : ResourceReservationTable × List MappingDiagnostic :=
  if reservations.canReserve [] footprint then
    match reservations.reserve footprint ⟨.node, node.id⟩ with
    | none =>
      (reservations,
        [{ code := .internalError
           message := "fresh reservation table rejected a previously free node footprint"
           node := some node.id }])
    | some later => (later, [])
  else (reservations, footprintConflict target mapping reservations node footprint)

def checkPlacement (reservations : ResourceReservationTable) (node : TargetNode) :
    Except String (ResourceReservationTable × List MappingDiagnostic) :=
  match mapping.placementEntries node.id with
  | [placement] =>
    let report (code : MappingDiagnosticCode) (message : String) :
        Except String (ResourceReservationTable × List MappingDiagnostic) :=
      .ok (reservations, [{ code := code, message := message, node := some node.id
                            tile := some placement.tile, slot := some placement.issueSlot }])
    let operation := target.findOperation node.operation
    if placement.tile.row ≥ target.array.rows ∨ placement.tile.col ≥ target.array.cols then
      report .tileOutOfRange "node placement tile is outside target array"
    else if placement.issueSlot ≥ mapping.ii then
      report .slotOutOfRange "node placement slot is outside [0, II)"
    else if !(resourceModel target mapping).supportsOperation placement.tile node then
      report (if operation.any fun desc ↦ desc.executionClass == .lsu then
          .operationUnsupportedOnTile else .executionResourceMissing)
        "target operation cannot execute on the selected tile"
    else
      match (resourceModel target mapping).operationFootprint node placement.tile
          placement.issueSlot with
      | .error message =>
        report (if operation.any fun desc ↦ decide (desc.issueOccupancy > mapping.ii) then
          .operationSelfOverlap else .executionResourceMissing) message
      | .ok footprint => .ok (reserveFootprint target mapping reservations node footprint)
  | _ => .ok (reservations, [])

def checkMemoryDependence (edge : TargetEdge) (dependence : MappedDependence)
    (kind : MemoryDepKind) : List MappingDiagnostic :=
  if dependence.transport.isSome then
    [{ code := .memoryTransportPresent
       message := "memory dependence must not contain a transport plan", edge := some edge.id }]
  else if dependence.requiredSeparationCycles < target.memoryDependenceSeparation kind then
    [{ code := .memorySeparationTooSmall
       message := "memory dependence separation is below TargetModel minimum"
       edge := some edge.id }]
  else
    require (dependence.requiredSeparationCycles == target.memoryDependenceSeparation kind)
      { code := .memorySeparationMismatch
        message := "memory dependence separation differs from TargetModel minimum"
        edge := some edge.id }

def checkDependence (reservations : ResourceReservationTable) (edge : TargetEdge) :
    Except String (ResourceReservationTable × List MappingDiagnostic) :=
  match mapping.dependenceEntries edge.id with
  | [dependence] =>
    if dependence.kind ≠ edge.kind then
      .ok (reservations,
        [{ code := .transportDomainMismatch
           message := "mapping dependence kind disagrees with TargetDFG edge"
           edge := some edge.id }])
    else
      match edge.info with
      | .memory kind => .ok (reservations, checkMemoryDependence target edge dependence kind)
      | _ =>
        match mapping.placementEntries edge.src, mapping.placementEntries edge.dst with
        | [srcPlacement], [dstPlacement] =>
          verifyValueTransport dfg target mapping edge dependence srcPlacement dstPlacement
            reservations
        | _, _ => .ok (reservations, [])
  | _ => .ok (reservations, [])

/-- The loops over nodes and edges, which share the reservation table. -/
def verifyReservations : Except String (List MappingDiagnostic) :=
  match loop (checkPlacement target mapping)
      (ResourceReservationTable.empty (resourceModel target mapping)) dfg.nodesById with
  | .error e => .error e
  | .ok (reservations, nodeReport) =>
    match loop (checkDependence dfg target mapping) reservations dfg.edgesById with
    | .error e => .error e
    | .ok (_, edgeReport) => .ok (nodeReport ++ edgeReport)

/-- The preconditions of the walk. -/
def checkPreconditions : List MappingDiagnostic :=
  require (TargetDFGVerifier.verify dfg target).isEmpty
    { code := .invalidTargetDFG
      message := "TargetDFG precondition failed: "
        ++ TargetDFGVerifier.format (TargetDFGVerifier.verify dfg target) }

/-- The report; the mapping is accepted when the verifier returns and the report is empty. -/
def verify : Except String (List MappingDiagnostic) :=
  stage (checkPreconditions dfg target) <|
  stage (require (dfg.targetName == target.name)
    { code := .invalidTargetDFG
      message := "TargetDFG target name does not match selected TargetModel" }) <|
  stage (require (mapping.ii != 0)
    { code := .invalidII, message := "mapping II must be at least one" }) <|
  stage (require (mapping.targetName == target.name)
    { code := .targetNameMismatch
      message := "mapping target name does not match selected TargetModel" }) <|
  match verifyReservations dfg target mapping with
  | .error e => .error e
  | .ok report =>
    .ok (checkPlacementEntries dfg mapping ++ checkDependenceEntries dfg mapping
      ++ checkMissingEntries dfg mapping ++ report)

end Verify

end ModuloMappingVerifier

end PredicatedMesh
