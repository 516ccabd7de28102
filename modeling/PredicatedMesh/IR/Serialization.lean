import PredicatedMesh.IR.DFGBuilder
import PredicatedMesh.Library.JsonReading

/-!
# Dataflow graphs as documents

A generic graph is written with everything it holds except the cached adjacency, which the builder
computes again when the graph is read. Nodes keep their labels. The reader imports every entry under
its own id: values and constants first, then the nodes with the live-outs and bindings that refer to
them, and the edges last, so that no entry refers to one that is not there yet.
-/

namespace PredicatedMesh

open Json Scan

namespace DFGSerialization

/-! ## Names -/

/-- The element of a list that is written by a name. -/
def fromName {α : Type} (all : List α) (toName : α → String) (complaint name : String) :
    Except String α :=
  match all.find? fun a ↦ toName a == name with
  | none => .error (complaint ++ name)
  | some a => .ok a

def opcodeFromString (value : String) : Except String Opcode :=
  fromName [.add, .sub, .mul, .and, .or, .xor, .shl, .lshr, .ashr, .icmp, .select, .load, .store]
    Opcode.toString "unknown opcode: " value

def icmpPredicateName : ICmpPredicate → String
  | .eq => "EQ"
  | .ne => "NE"
  | .ult => "ULT"
  | .ule => "ULE"
  | .ugt => "UGT"
  | .uge => "UGE"
  | .slt => "SLT"
  | .sle => "SLE"
  | .sgt => "SGT"
  | .sge => "SGE"

def icmpPredicateFromString (value : String) : Except String ICmpPredicate :=
  fromName [.eq, .ne, .ult, .ule, .ugt, .uge, .slt, .sle, .sgt, .sge] icmpPredicateName
    "unknown compare predicate: " value

def memoryDepKindName : MemoryDepKind → String
  | .raw => "RAW"
  | .war => "WAR"
  | .waw => "WAW"

def memoryDepKindFromString (value : String) : Except String MemoryDepKind :=
  fromName [.raw, .war, .waw] memoryDepKindName "unknown memory dependence kind: " value

def valueKindName : ValueKind → String
  | .integer => "integer"
  | .predicate => "predicate"
  | .float => "float"
  | .void => "void"

def valueKindFromString (value : String) : Except String ValueKind :=
  fromName [.integer, .predicate, .float, .void] valueKindName "unknown value kind: " value

/-! ## Records -/

def required {α : Type} (context : String) (get : Json → Except String α) (object : Json)
    (key : String) : Except String α :=
  object.required (context ++ " missing ") (context ++ ".") get key

def typeJson (type : ValueType) : Json := .obj
  [("kind", .str (valueKindName type.kind)), ("bits", .nat type.bitWidth)]

def parseType (context : String) (json : Json) : Except String ValueType :=
  match json.field? "kind", json.field? "bits" with
  | some kind, some bits => do
    let kind ← kind.getString
    let kind ← valueKindFromString kind
    let bits ← bits.getUnsigned 16
    if kind = .void ∧ bits ≠ 0 ∨ kind ≠ .void ∧ bits = 0 then
      .error (context ++ " has inconsistent kind and width")
    else if kind = .predicate ∧ bits ≠ 1 then .error (context ++ " predicate width must be one")
    else .ok ⟨kind, bits⟩
  | _, _ => .error (context ++ " must contain kind and bits")

/-- The reference of a binding or of a boundary value, as one field. -/
def sourceJson : ExternalOperandBinding → List (String × Json)
  | .externalValueRef value => [("external", .nat value)]
  | .constantRef value => [("constant", .nat value)]

def nodeJson (node : Node) (source : Option SourceInfo) : Json := .obj
  ([("id", .nat node.id), ("opcode", .str node.opcode.toString),
    ("result_type", typeJson node.resultType),
    ("operand_types", .arr (node.operandTypes.map typeJson))]
  ++ (node.icmpPredicate.elim [] fun predicate ↦
    [("icmp_predicate", .str (icmpPredicateName predicate))])
  ++ (node.memoryInfo.elim [] fun info ↦
    [("memory", .obj [("access_width_bits", .nat info.accessWidthBits),
      ("volatile", .bool info.isVolatile)])])
  ++ source.elim [] fun source ↦ [("source", .obj [("label", .str source.label)])])

def boundaryValueJson (value : RecurrenceBoundaryValue) : Json := .obj
  (("iteration_offset", .nat value.iterationOffset) :: sourceJson value.value)

def boundaryJson (boundary : Option RecurrenceBoundary) : List (String × Json) :=
  boundary.elim [] fun boundary ↦ [("boundary", .arr (boundary.values.map boundaryValueJson))]

/-- What an edge carries, as fields. -/
def infoJson : EdgeInfo → List (String × Json)
  | .data operand boundary =>
    [("kind", .str "data"), ("operand", .nat operand)] ++ boundaryJson boundary
  | .predicate operand boundary =>
    [("kind", .str "predicate"), ("operand", .nat operand)] ++ boundaryJson boundary
  | .memory dependence =>
    [("kind", .str "memory"), ("dependence", .str (memoryDepKindName dependence))]

def edgeJson (edge : Edge) : Json := .obj
  ([("id", .nat edge.id), ("src", .nat edge.src), ("dst", .nat edge.dst),
    ("distance", .nat edge.distance)] ++ infoJson edge.info)

def externalJson (value : ExternalValue) : Json := .obj
  [("id", .nat value.id), ("name", .str value.name), ("type", typeJson value.type)]

def constantJson (value : ConstantValue) : Json := .obj
  [("id", .nat value.id), ("type", typeJson value.type), ("bits", .nat value.bits)]

def liveOutJson (value : LiveOut) : Json := .obj
  [("id", .nat value.id), ("name", .str value.name), ("type", typeJson value.type),
    ("node", .nat value.source)]

def bindingJson (binding : OperandBinding) : Json := .obj
  ([("node", .nat binding.node), ("operand", .nat binding.operand)] ++ sourceJson binding.source)

def toJson (graph : SourcedDFG) : Json := .obj
  [("schema", .str "cgra.dfg.debug.v1"), ("name", .str graph.dfg.name),
    ("external_values", .arr (graph.dfg.externalValues.map externalJson)),
    ("constants", .arr (graph.dfg.constants.map constantJson)),
    ("nodes", .arr (graph.entries.map fun entry ↦ nodeJson entry.1 entry.2)),
    ("live_outs", .arr (graph.dfg.liveOuts.map liveOutJson)),
    ("external_bindings", .arr (graph.dfg.externalBindings.map bindingJson)),
    ("edges", .arr (graph.dfg.edges.map edgeJson))]

/-! ## Reading -/

def parseBoundaryValue (value : Json) : Except String RecurrenceBoundaryValue := do
  let offset ← required "edge.boundary" (getUnsigned 32) value "iteration_offset"
  if value.contains "external" = value.contains "constant" then
    .error "edge.boundary entry must contain exactly one source"
  else if value.contains "external" then
    let external ← required "edge.boundary" (getUnsigned 32) value "external"
    .ok ⟨offset, .externalValueRef external⟩
  else
    let constant ← required "edge.boundary" (getUnsigned 32) value "constant"
    .ok ⟨offset, .constantRef constant⟩

def parseBoundary (edge : Json) : Except String (Option RecurrenceBoundary) :=
  match edge.field? "boundary" with
  | none => .ok none
  | some values => do
    let values ← values.getArray "edge.boundary must be an array"
    let values ← values.mapM parseBoundaryValue
    .ok (some ⟨values⟩)

def parseExternal (builder : DFGBuilder) (value : Json) : Except String DFGBuilder := do
  let id ← required "external value" (getUnsigned 32) value "id"
  let type ← value.atKey "type"
  let type ← parseType "external value type" type
  let name ← required "external value" getString value "name"
  builder.importExternal ⟨id, type, name⟩

def parseConstant (builder : DFGBuilder) (value : Json) : Except String DFGBuilder := do
  let id ← required "constant" (getUnsigned 32) value "id"
  let type ← value.atKey "type"
  let type ← parseType "constant type" type
  let bits ← required "constant" (getUnsigned 64) value "bits"
  builder.importConstant ⟨id, type, bits⟩

def parseMemoryInfo (json : Json) : Except String MemoryOpInfo := do
  let width ← required "node.memory" (getUnsigned 32) json "access_width_bits"
  let isVolatile ← required "node.memory" getBool json "volatile"
  .ok ⟨width, isVolatile⟩

def parseSource (json : Json) : Except String SourceInfo := do
  let label ← required "node.source" getString json "label"
  .ok ⟨label⟩

def parsePredicate (json : Json) : Except String ICmpPredicate := do
  let name ← json.getString
  icmpPredicateFromString name

def parseNode (builder : DFGBuilder) (value : Json) : Except String DFGBuilder := do
  let id ← required "node" (getUnsigned 32) value "id"
  let operandTypes ← required "node" getJson value "operand_types"
  let operandTypes ← operandTypes.elements.mapM (parseType "node operand type")
  let predicate ← value.optional parsePredicate "icmp_predicate"
  let memory ← value.optional parseMemoryInfo "memory"
  let source ← value.optional parseSource "source"
  let opcode ← required "node" getString value "opcode"
  let opcode ← opcodeFromString opcode
  let resultType ← value.atKey "result_type"
  let resultType ← parseType "node result" resultType
  builder.importNode ⟨id, opcode, resultType, operandTypes, predicate, memory⟩ source

def parseLiveOut (builder : DFGBuilder) (value : Json) : Except String DFGBuilder := do
  let id ← required "live-out" (getUnsigned 32) value "id"
  let type ← value.atKey "type"
  let type ← parseType "live-out type" type
  let name ← required "live-out" getString value "name"
  let node ← required "live-out" (getUnsigned 32) value "node"
  builder.importLiveOut ⟨id, type, name, node⟩

def parseBinding (builder : DFGBuilder) (binding : Json) : Except String DFGBuilder := do
  let node ← required "binding" (getUnsigned 32) binding "node"
  let operand ← required "binding" (getUnsigned 32) binding "operand"
  if binding.contains "external" then
    let value ← required "binding" (getUnsigned 32) binding "external"
    builder.bindExternal node operand value
  else if binding.contains "constant" then
    let value ← required "binding" (getUnsigned 32) binding "constant"
    builder.bindConstant node operand value
  else .error "binding must contain external or constant"

/-- What an edge of a kind carries. -/
def parseInfo (edge : Json) (kind : String) : Except String EdgeInfo := do
  if kind = "data" then
    let operand ← required "edge" (getUnsigned 32) edge "operand"
    let boundary ← parseBoundary edge
    .ok (.data operand boundary)
  else if kind = "predicate" then
    let operand ← required "edge" (getUnsigned 32) edge "operand"
    let boundary ← parseBoundary edge
    .ok (.predicate operand boundary)
  else if kind = "memory" then
    if edge.contains "operand" then .error "memory edges must not contain an operand field"
    else
      let dependence ← required "edge" getString edge "dependence"
      let dependence ← memoryDepKindFromString dependence
      .ok (.memory dependence)
  else .error ("unknown DFG edge kind: " ++ kind)

def parseEdge (builder : DFGBuilder) (edge : Json) : Except String DFGBuilder := do
  let id ← required "edge" (getUnsigned 32) edge "id"
  let src ← required "edge" (getUnsigned 32) edge "src"
  let dst ← required "edge" (getUnsigned 32) edge "dst"
  let distance ← required "edge" (getUnsigned 32) edge "distance"
  let kind ← required "edge" getString edge "kind"
  let info ← parseInfo edge kind
  builder.importEdge ⟨id, src, dst, distance, info⟩

/-- One list of the document, taken in entry by entry. -/
def parseList (root : Json) (key : String) (parse : DFGBuilder → Json → Except String DFGBuilder)
    (builder : DFGBuilder) : Except String DFGBuilder := do
  let items ← root.atKey key
  let items ← items.getArray ("DFG." ++ key ++ " must be an array")
  items.foldlM parse builder

/-- The live-outs, which a document may leave out. -/
def parseLiveOuts (root : Json) (builder : DFGBuilder) : Except String DFGBuilder := do
  let items ← ((root.field? "live_outs").getD (.arr [])).getArray "DFG.live_outs must be an array"
  items.foldlM parseLiveOut builder

def parse (root : Json) : Except String SourcedDFG := do
  root.checkSchema "cgra.dfg.debug.v1" "DFG JSON schema must be cgra.dfg.debug.v1"
  let name ← required "DFG" getString root "name"
  let builder ← parseList root "external_values" parseExternal (.create name)
  let builder ← parseList root "constants" parseConstant builder
  let builder ← parseList root "nodes" parseNode builder
  let builder ← parseLiveOuts root builder
  let builder ← parseList root "external_bindings" parseBinding builder
  let builder ← parseList root "edges" parseEdge builder
  .ok builder.finish

end DFGSerialization

end PredicatedMesh
