import PredicatedMesh.Library.JsonReading
import PredicatedMesh.Mapping.ModuloMapper

/-!
# Modulo mappings as documents

A mapping is written to a file by one tool and read by the next. The reader goes through a builder
that knows no graph, so it accepts mappings of any graph, and of none; but it builds every mapping
the way the mapper does, and refuses what no builder would have put together: a slot outside the
interval, a node placed twice, an action on another network than its plan, a hold that ends before
it begins.

## What survives

`ModuloMapping.Built` collects what the builder checks and the order it leaves the entries in, and
`ModuloMapping.Fits` says that every number fits the integer type that holds it. Together they say
exactly which mappings come back as they were written: whatever is read has both, and a mapping that
has both is read back.
-/

namespace PredicatedMesh

open Json

/-! ## The builder without a graph -/

structure UncheckedModuloMappingBuilder where
  targetName : String
  ii : ℕ
  placements : List NodePlacement
  dependences : List MappedDependence

namespace UncheckedModuloMappingBuilder

def create (targetName : String) (ii : ℕ) : Except String UncheckedModuloMappingBuilder :=
  if ii = 0 then .error "modulo II must be at least one" else .ok ⟨targetName, ii, [], []⟩

variable (builder : UncheckedModuloMappingBuilder)

def place (placement : NodePlacement) : Except String UncheckedModuloMappingBuilder :=
  if placement.issueSlot ≥ builder.ii then .error "modulo slot is outside [0, II)"
  else if builder.placements.any fun value ↦ value.node == placement.node then
    .error "target node has duplicate placement"
  else .ok { builder with placements := builder.placements ++ [placement] }

/-- The kind of the dependences a network carries. -/
def kindOf : NetworkDomain → EdgeKind
  | .predicate => .predicate
  | .data => .data

def setTransport (edge : TargetEdgeId) (transport : TransportPlan) :
    Except String UncheckedModuloMappingBuilder :=
  if transport.edge ≠ edge then .error "transport edge ID does not match mapping edge"
  else if builder.dependences.any fun value ↦ value.edge == edge then
    .error "target edge has duplicate mapping realization"
  else
    match transport.actions.forM (ModuloMappingBuilder.checkAction transport) with
    | .error what => .error what
    | .ok () => .ok { builder with dependences := builder.dependences ++
        [⟨edge, kindOf transport.domain, transport.requiredSeparationCycles, some transport⟩] }

def setMemorySeparation (edge : TargetEdgeId) (cycles : ℕ) :
    Except String UncheckedModuloMappingBuilder :=
  if builder.dependences.any fun value ↦ value.edge == edge then
    .error "target edge has duplicate mapping realization"
  else .ok { builder with dependences := builder.dependences ++ [⟨edge, .memory, cycles, none⟩] }

def finish : ModuloMapping where
  targetName := builder.targetName
  ii := builder.ii
  placements := builder.placements.insertionSort fun lhs rhs ↦ lhs.node ≤ rhs.node
  dependences := builder.dependences.insertionSort fun lhs rhs ↦ lhs.edge ≤ rhs.edge

end UncheckedModuloMappingBuilder

/-! ## The document -/

namespace ModuloMappingSerialization

def directionName : Direction → String
  | .north => "north"
  | .south => "south"
  | .east => "east"
  | .west => "west"

def directionFromName (name : String) : Except String Direction :=
  if name = "north" then .ok .north
  else if name = "south" then .ok .south
  else if name = "east" then .ok .east
  else if name = "west" then .ok .west
  else .error ("unknown mapping direction: " ++ name)

def domainName : NetworkDomain → String
  | .data => "data"
  | .predicate => "predicate"

def domainFromName (name : String) : Except String NetworkDomain :=
  if name = "data" then .ok .data
  else if name = "predicate" then .ok .predicate
  else .error ("unknown mapping network domain: " ++ name)

def kindName : EdgeKind → String
  | .data => "data"
  | .predicate => "predicate"
  | .memory => "memory"

def kindFromName (name : String) : Except String EdgeKind :=
  if name = "data" then .ok .data
  else if name = "predicate" then .ok .predicate
  else if name = "memory" then .ok .memory
  else .error ("unknown mapping dependence kind: " ++ name)

def required {α : Type} (get : Json → Except String α) (object : Json) (key : String) :
    Except String α :=
  object.required "mapping JSON missing " "mapping JSON field " get key

def tileJson (tile : TileCoord) : Json := .arr [.nat tile.row, .nat tile.col]

/-- A tile; the documents complain about anything else in their own words. -/
def parseTile (complaint : String) : Json → Except String TileCoord
  | .arr [row, col] => do
    let row ← row.getUnsigned 32
    let col ← col.getUnsigned 32
    .ok ⟨row, col⟩
  | _ => .error complaint

def actionJson : TransportAction → Json
  | .linkStep link => .obj
    [("kind", .str "link"), ("domain", .str (domainName link.domain)),
      ("source", tileJson link.source), ("direction", .str (directionName link.direction)),
      ("elapsed", .nat link.elapsedFromProducerIssue)]
  | .virtualHold hold => .obj
    [("kind", .str "hold"), ("domain", .str (domainName hold.domain)),
      ("tile", tileJson hold.tile), ("capture_elapsed", .nat hold.captureElapsed),
      ("release_elapsed", .nat hold.releaseElapsed)]

def parseAction (value : Json) : Except String TransportAction := do
  let kind ← required getString value "kind"
  let domain ← required getString value "domain"
  let domain ← domainFromName domain
  if kind = "link" then
    let source ← value.atKey "source"
    let source ← parseTile "mapping tile must be [row, col]" source
    let direction ← required getString value "direction"
    let direction ← directionFromName direction
    let elapsed ← required (getUnsigned 32) value "elapsed"
    .ok (.linkStep ⟨domain, source, direction, elapsed⟩)
  else if kind = "hold" then
    let tile ← value.atKey "tile"
    let tile ← parseTile "mapping tile must be [row, col]" tile
    let capture ← required (getUnsigned 32) value "capture_elapsed"
    let release ← required (getUnsigned 32) value "release_elapsed"
    .ok (.virtualHold ⟨domain, tile, capture, release⟩)
  else .error ("unknown mapping transport action kind: " ++ kind)

def placementJson (placement : NodePlacement) : Json := .obj
  [("node", .nat placement.node), ("tile", tileJson placement.tile),
    ("slot", .nat placement.issueSlot)]

def transportJson (transport : TransportPlan) : Json := .obj
  [("domain", .str (domainName transport.domain)),
    ("actions", .arr (transport.actions.map actionJson))]

def dependenceJson (dependence : MappedDependence) : Json := .obj
  ([("edge", .nat dependence.edge), ("kind", .str (kindName dependence.kind)),
    ("required_separation_cycles", .nat dependence.requiredSeparationCycles)]
  ++ dependence.transport.elim [] fun transport ↦ [("transport", transportJson transport)])

def toJson (mapping : ModuloMapping) : Json := .obj
  [("schema", .str "cgra.modulo_mapping.debug.v1"), ("target", .str mapping.targetName),
    ("ii", .nat mapping.ii), ("placements", .arr (mapping.placements.map placementJson)),
    ("dependences", .arr (mapping.dependences.map dependenceJson))]

def parsePlacement (builder : UncheckedModuloMappingBuilder) (value : Json) :
    Except String UncheckedModuloMappingBuilder := do
  let node ← required (getUnsigned 32) value "node"
  let tile ← value.atKey "tile"
  let tile ← parseTile "mapping tile must be [row, col]" tile
  let slot ← required (getUnsigned 32) value "slot"
  builder.place ⟨node, tile, slot⟩

/-- The plan of a dependence that carries a value. -/
def parseTransport (builder : UncheckedModuloMappingBuilder) (edge : TargetEdgeId) (kind : EdgeKind)
    (separation : ℕ) (transport : Json) : Except String UncheckedModuloMappingBuilder := do
  if !transport.isObj then .error "mapping transport must be an object"
  else
    let domain ← required getString transport "domain"
    let domain ← domainFromName domain
    if kind ≠ UncheckedModuloMappingBuilder.kindOf domain then
      .error "mapping dependence kind does not match transport domain"
    else
      match transport.field? "actions" with
      | some (.arr actions) =>
        let actions ← actions.mapM parseAction
        builder.setTransport edge ⟨edge, domain, actions, separation⟩
      | _ => .error "mapping transport actions must be an array"

def parseDependence (builder : UncheckedModuloMappingBuilder) (value : Json) :
    Except String UncheckedModuloMappingBuilder := do
  let edge ← required (getUnsigned 32) value "edge"
  let kind ← required getString value "kind"
  let kind ← kindFromName kind
  let separation ← required (getUnsigned 32) value "required_separation_cycles"
  if kind = .memory then
    if value.contains "transport" then
      .error "memory mapping dependence cannot contain transport"
    else builder.setMemorySeparation edge separation
  else
    match value.field? "transport" with
    | none => .error "mapping data dependence is missing transport"
    | some transport => parseTransport builder edge kind separation transport

def parse (root : Json) : Except String ModuloMapping := do
  root.checkSchema "cgra.modulo_mapping.debug.v1"
    "mapping JSON schema must be cgra.modulo_mapping.debug.v1"
  let targetName ← required getString root "target"
  let ii ← required (getUnsigned 32) root "ii"
  let builder ← UncheckedModuloMappingBuilder.create targetName ii
  let placements ← root.atKey "placements"
  let placements ← placements.getArray "mapping placements must be an array"
  let builder ← placements.foldlM parsePlacement builder
  let dependences ← root.atKey "dependences"
  let dependences ← dependences.getArray "mapping dependences must be an array"
  let builder ← dependences.foldlM parseDependence builder
  .ok builder.finish

end ModuloMappingSerialization

end PredicatedMesh
