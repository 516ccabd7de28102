import PredicatedMesh.Library.Scan
import PredicatedMesh.Lowering.Control

/-!
# The control layout and its codec

A tile's control is shipped to the array as four 32-bit chunks. Which bits hold which field is not
fixed in the compiler: the contract lists the fields with their positions and widths, and for the
symbolic ones the table that numbers their symbols. The loader checks the two sections, and the
codec interprets them.

## Sections as read

A JSON object has distinct keys, so `JsonObject` carries that as a field. The two sections are taken
after the JSON types have been checked; the errors below are those the loader raises about values.

## Integers

A field is inserted and extracted as a 64-bit number. The model keeps naturals, which agrees with
the source for every field of at most 64 bits: no shift below leaves that range. The two narrowing
conversions of the source, to an `unsigned` address and to the `unsigned` argument of
`encodingName`, are written out.
-/

namespace PredicatedMesh

/-! ## The contract's sections -/

/-- An object of the contract: its members, in order. -/
structure JsonObject (α : Type) where
  entries : List (String × α)
  nodup : (entries.map Prod.fst).Nodup

/-- The numbering of the symbols of each encoding domain. -/
abbrev EncodingTables := List (String × List (String × ℕ))

structure ControlField where
  name : String
  lsb : ℕ
  width : ℕ
  /-- The domain of a symbolic field. -/
  encoding : Option String := none
  deriving DecidableEq, Repr

structure ControlLayout where
  rawWidth : ℕ
  physicalWidth : ℕ
  chunks : ℕ
  chunkBits : ℕ
  chunkOrder : String
  paddingLsb : ℕ
  paddingWidth : ℕ
  paddingValue : ℕ
  fields : List ControlField
  deriving DecidableEq, Repr

/-- What the codec reads of a target. -/
structure ControlCodec where
  encodings : EncodingTables
  layout : ControlLayout
  deriving DecidableEq, Repr

/-! ## Loading -/

namespace ControlCodec

def fail {α : Type} (context message : String) : Except String α :=
  .error ("target." ++ context ++ ": " ++ message)

/-- A condition the loader rejects the contract for. -/
def failIf (condition : Bool) (context message : String) : Except String Unit :=
  if condition then fail context message else .ok ()

/-- The entries of one domain; `seenValues` are the numbers already given to a symbol. -/
def loadEntries (domain : String) :
    List ℕ → List (String × ℤ) → Except String (List (String × ℕ))
  | _, [] => .ok []
  | seenValues, (name, signedValue) :: rest => do
    failIf (decide (signedValue < 0 ∨ 2 ^ 32 - 1 < signedValue))
      ("encodings." ++ domain ++ "." ++ name) "does not fit unsigned"
    let value := signedValue.toNat
    failIf (seenValues.contains value) ("encodings." ++ domain)
      ("duplicate numeric value " ++ toString value)
    let entries ← loadEntries domain (value :: seenValues) rest
    return (name, value) :: entries

def loadDomain (domain : String × JsonObject ℤ) : Except String (String × List (String × ℕ)) := do
  failIf domain.2.entries.isEmpty ("encodings." ++ domain.1) "must be a non-empty object"
  let entries ← loadEntries domain.1 [] domain.2.entries
  return (domain.1, entries)

def loadEncodings (encodings : JsonObject (JsonObject ℤ)) : Except String EncodingTables :=
  encodings.entries.mapM loadDomain

/-- Mark bits as covered; a bit may be covered once. -/
def coverBits (context : String) : List ℕ → List Bool → Except String (List Bool)
  | [], covered => .ok covered
  | bit :: bits, covered => do
    failIf (covered[bit]?.getD false) context ("overlaps another field at bit " ++ toString bit)
    coverBits context bits (covered.set bit true)

def checkFieldEncoding (encodings : EncodingTables) (context : String) (field : ControlField) :
    Except String Unit :=
  match field.encoding with
  | none => .ok ()
  | some domain =>
    match encodings.find? fun entry ↦ entry.1 == domain with
    | none => fail (context ++ ".encoding") ("references missing encoding domain " ++ domain)
    | some table =>
      table.2.forM fun entry ↦
        failIf (decide (field.width < 64 ∧ 2 ^ field.width - 1 < entry.2))
          ("encodings." ++ domain ++ "." ++ entry.1) ("value does not fit field " ++ field.name)

/-- The covered bits and the fields read so far. -/
structure LayoutState where
  covered : List Bool
  fields : List ControlField
  deriving DecidableEq, Repr

def loadField (encodings : EncodingTables) (rawWidth : ℕ) (state : LayoutState)
    (entry : ControlField × ℕ) : Except String LayoutState := do
  let field := entry.1
  let context := "control_layout.fields[" ++ toString entry.2 ++ "]"
  failIf (field.width == 0) (context ++ ".width") "must be greater than zero"
  failIf (field.name == "") (context ++ ".name") "must not be empty"
  failIf (decide (rawWidth < field.lsb ∨ rawWidth - field.lsb < field.width)) context
    "extends beyond raw_width"
  failIf (state.fields.any fun other ↦ other.name == field.name) (context ++ ".name")
    ("duplicate field " ++ field.name)
  let covered ← coverBits context (List.range' field.lsb field.width) state.covered
  checkFieldEncoding encodings context field
  return ⟨covered, state.fields ++ [field]⟩

def loadLayout (encodings : EncodingTables) (layout : ControlLayout) :
    Except String ControlLayout := do
  failIf (layout.rawWidth == 0) "control_layout.raw_width" "must be greater than zero"
  failIf (layout.physicalWidth == 0) "control_layout.physical_width" "must be greater than zero"
  failIf (layout.chunks == 0) "control_layout.chunks" "must be greater than zero"
  failIf (layout.chunkBits == 0) "control_layout.chunk_bits" "must be greater than zero"
  failIf (decide (layout.physicalWidth < layout.rawWidth)) "control_layout.physical_width"
    "must be at least raw_width"
  failIf (layout.chunks != 4 || layout.chunkBits != 32) "control_layout"
    "EncodedControl requires exactly four 32-bit chunks"
  failIf (layout.chunks * layout.chunkBits != layout.physicalWidth) "control_layout"
    "chunks * chunk_bits must equal physical_width"
  failIf (layout.chunkOrder != "little_word") "control_layout.chunk_order"
    "unsupported chunk order"
  failIf (layout.paddingLsb != layout.rawWidth ||
      layout.paddingWidth != layout.physicalWidth - layout.rawWidth) "control_layout.padding"
    "must cover exactly physical bits above raw_width"
  failIf (layout.paddingValue != 0) "control_layout.padding.value"
    "only zero padding is supported"
  failIf layout.fields.isEmpty "control_layout.fields" "must not be empty"
  let state ← layout.fields.zipIdx.foldlM (loadField encodings layout.rawWidth)
    ⟨List.replicate layout.rawWidth false, []⟩
  failIf (state.covered.contains false) "control_layout.fields"
    "must cover every raw control bit exactly once"
  return { layout with fields := state.fields }

/-- The two sections the codec depends on. -/
def load (encodings : JsonObject (JsonObject ℤ)) (layout : ControlLayout) :
    Except String ControlCodec := do
  let encodings ← loadEncodings encodings
  let layout ← loadLayout encodings layout
  return ⟨encodings, layout⟩

/-! ## Encodings -/

def encodingValue (codec : ControlCodec) (domain name : String) : Except String ℕ :=
  match codec.encodings.find? fun entry ↦ entry.1 == domain with
  | none => .error ("unknown target encoding domain: " ++ domain)
  | some table =>
    match table.2.find? fun entry ↦ entry.1 == name with
    | none => .error ("unknown target encoding " ++ domain ++ "." ++ name)
    | some entry => .ok entry.2

/-- The symbol a number stands for. The parameter is an `unsigned`, so that a wider number is
reduced on the call. -/
def encodingName (codec : ControlCodec) (domain : String) (value : ℕ) : Except String String :=
  let value := value % 2 ^ 32
  match codec.encodings.find? fun entry ↦ entry.1 == domain with
  | none => .error ("unknown target encoding domain: " ++ domain)
  | some table =>
    match table.2.find? fun entry ↦ entry.2 == value with
    | none =>
      .error ("unknown numeric target encoding " ++ domain ++ "=" ++ toString value)
    | some entry => .ok entry.1

end ControlCodec

/-! ## Chunks -/

structure EncodedControl where
  chunks : Fin 4 → BitVec 32 := fun _ ↦ 0
  deriving DecidableEq

namespace EncodedControl

/-- The largest value of a field. A field wider than the 64 bits of a value is treated as a natural
number of its width. -/
def fieldLimit (width : ℕ) : ℕ := 2 ^ width - 1

def outOfRange (chunk : ℕ) : String := "array::at: " ++ toString chunk ++ " is out of range"

def setBit (encoded : EncodedControl) (physicalBit : ℕ) : Except String EncodedControl :=
  if h : physicalBit / 32 < 4 then
    .ok { chunks := Function.update encoded.chunks ⟨physicalBit / 32, h⟩
            (encoded.chunks ⟨physicalBit / 32, h⟩ ||| 1#32 <<< (physicalBit % 32)) }
  else .error (outOfRange (physicalBit / 32))

def getBit (encoded : EncodedControl) (physicalBit : ℕ) : Except String ℕ :=
  if h : physicalBit / 32 < 4 then
    .ok ((encoded.chunks ⟨physicalBit / 32, h⟩ >>> (physicalBit % 32)) &&& 1#32).toNat
  else .error (outOfRange (physicalBit / 32))

def insertBits (encoded : EncodedControl) (lsb width value : ℕ) (fieldName : String) :
    Except String EncodedControl :=
  if fieldLimit width < value then
    .error ("control field " ++ fieldName ++ " value does not fit width " ++ toString width)
  else
    (List.range width).foldlM
      (fun encoded bit ↦ if value.testBit bit then encoded.setBit (lsb + bit) else .ok encoded)
      encoded

def extractBits (encoded : EncodedControl) (lsb width : ℕ) : Except String ℕ :=
  (List.range width).foldlM
    (fun value bit ↦ do
      let set ← encoded.getBit (lsb + bit)
      return value ||| set <<< bit) 0

end EncodedControl

/-! ## Fields of a control by name -/

def directionName : Direction → String
  | .north => "north"
  | .south => "south"
  | .east => "east"
  | .west => "west"

/-- The address fields of a control. -/
inductive ControlNumber
  | dataRfReadAddrA
  | dataRfReadAddrB
  | predicateRfReadAddrA
  | predicateRfReadAddrB
  | dataWrite0Addr
  | dataWrite1Addr
  | predicateWrite0Addr
  | predicateWrite1Addr
  | constantAddr
  deriving DecidableEq, Repr

inductive ControlFlag
  | dataWrite0Enable
  | dataWrite1Enable
  | predicateWrite0Enable
  | predicateWrite1Enable
  | lsuCommitPredicateEnable
  | lsuCommitPredicateInvert
  | dataRouteEnable (direction : Direction)
  | predicateRouteEnable (direction : Direction)
  deriving DecidableEq, Repr

/-- The fields that hold the name of a source or an operation. -/
inductive ControlSymbol
  | op
  | srcA
  | srcB
  | srcP0
  | srcP1
  | dataWrite1Source
  | predicateWrite1Source
  | lsuOp
  | lsuAddrSource
  | lsuStoreDataSource
  | lsuCommitPredicateSource
  | dataRouteSource (direction : Direction)
  | predicateRouteSource (direction : Direction)
  deriving DecidableEq, Repr

namespace ControlNumber

def name : ControlNumber → String
  | .dataRfReadAddrA => "data_rf_raddr_a"
  | .dataRfReadAddrB => "data_rf_raddr_b"
  | .predicateRfReadAddrA => "pred_rf_raddr_a"
  | .predicateRfReadAddrB => "pred_rf_raddr_b"
  | .dataWrite0Addr => "data_w0_addr"
  | .dataWrite1Addr => "data_w1_addr"
  | .predicateWrite0Addr => "pred_w0_addr"
  | .predicateWrite1Addr => "pred_w1_addr"
  | .constantAddr => "const_addr"

def get (control : TileControl) : ControlNumber → ℕ
  | .dataRfReadAddrA => control.dataRfReadAddrA
  | .dataRfReadAddrB => control.dataRfReadAddrB
  | .predicateRfReadAddrA => control.predicateRfReadAddrA
  | .predicateRfReadAddrB => control.predicateRfReadAddrB
  | .dataWrite0Addr => control.dataWrite0Addr
  | .dataWrite1Addr => control.dataWrite1Addr
  | .predicateWrite0Addr => control.predicateWrite0Addr
  | .predicateWrite1Addr => control.predicateWrite1Addr
  | .constantAddr => control.constantAddr

def set (control : TileControl) (value : ℕ) : ControlNumber → TileControl
  | .dataRfReadAddrA => { control with dataRfReadAddrA := value }
  | .dataRfReadAddrB => { control with dataRfReadAddrB := value }
  | .predicateRfReadAddrA => { control with predicateRfReadAddrA := value }
  | .predicateRfReadAddrB => { control with predicateRfReadAddrB := value }
  | .dataWrite0Addr => { control with dataWrite0Addr := value }
  | .dataWrite1Addr => { control with dataWrite1Addr := value }
  | .predicateWrite0Addr => { control with predicateWrite0Addr := value }
  | .predicateWrite1Addr => { control with predicateWrite1Addr := value }
  | .constantAddr => { control with constantAddr := value }

end ControlNumber

/-- The route of a direction, as an element of the route array. -/
def routeAt (routes : List RouteControl) (direction : Direction) : RouteControl :=
  routes[directionIndex direction]?.getD {}

namespace ControlFlag

def name : ControlFlag → String
  | .dataWrite0Enable => "data_w0_we"
  | .dataWrite1Enable => "data_w1_we"
  | .predicateWrite0Enable => "pred_w0_we"
  | .predicateWrite1Enable => "pred_w1_we"
  | .lsuCommitPredicateEnable => "lsu_commit_pred_enable"
  | .lsuCommitPredicateInvert => "lsu_commit_pred_invert"
  | .dataRouteEnable direction => "data_route_" ++ directionName direction ++ "_we"
  | .predicateRouteEnable direction => "pred_route_" ++ directionName direction ++ "_we"

def get (control : TileControl) : ControlFlag → Bool
  | .dataWrite0Enable => control.dataWrite0Enable
  | .dataWrite1Enable => control.dataWrite1Enable
  | .predicateWrite0Enable => control.predicateWrite0Enable
  | .predicateWrite1Enable => control.predicateWrite1Enable
  | .lsuCommitPredicateEnable => control.lsuCommitPredicateEnable
  | .lsuCommitPredicateInvert => control.lsuCommitPredicateInvert
  | .dataRouteEnable direction => (routeAt control.dataRoutes direction).enabled
  | .predicateRouteEnable direction => (routeAt control.predicateRoutes direction).enabled

def set (control : TileControl) (value : Bool) : ControlFlag → TileControl
  | .dataWrite0Enable => { control with dataWrite0Enable := value }
  | .dataWrite1Enable => { control with dataWrite1Enable := value }
  | .predicateWrite0Enable => { control with predicateWrite0Enable := value }
  | .predicateWrite1Enable => { control with predicateWrite1Enable := value }
  | .lsuCommitPredicateEnable => { control with lsuCommitPredicateEnable := value }
  | .lsuCommitPredicateInvert => { control with lsuCommitPredicateInvert := value }
  | .dataRouteEnable direction =>
    { control with
      dataRoutes := control.dataRoutes.modify (directionIndex direction) fun route ↦
        { route with enabled := value } }
  | .predicateRouteEnable direction =>
    { control with
      predicateRoutes := control.predicateRoutes.modify (directionIndex direction) fun route ↦
        { route with enabled := value } }

end ControlFlag

namespace ControlSymbol

def name : ControlSymbol → String
  | .op => "op"
  | .srcA => "src_a"
  | .srcB => "src_b"
  | .srcP0 => "src_p0"
  | .srcP1 => "src_p1"
  | .dataWrite1Source => "data_w1_src"
  | .predicateWrite1Source => "pred_w1_src"
  | .lsuOp => "lsu_op"
  | .lsuAddrSource => "lsu_addr_src"
  | .lsuStoreDataSource => "lsu_store_data_src"
  | .lsuCommitPredicateSource => "lsu_commit_pred_src"
  | .dataRouteSource direction => "data_route_" ++ directionName direction ++ "_src"
  | .predicateRouteSource direction => "pred_route_" ++ directionName direction ++ "_src"

def get (control : TileControl) : ControlSymbol → String
  | .op => control.op
  | .srcA => control.srcA
  | .srcB => control.srcB
  | .srcP0 => control.srcP0
  | .srcP1 => control.srcP1
  | .dataWrite1Source => control.dataWrite1Source
  | .predicateWrite1Source => control.predicateWrite1Source
  | .lsuOp => control.lsuOp
  | .lsuAddrSource => control.lsuAddrSource
  | .lsuStoreDataSource => control.lsuStoreDataSource
  | .lsuCommitPredicateSource => control.lsuCommitPredicateSource
  | .dataRouteSource direction => (routeAt control.dataRoutes direction).source
  | .predicateRouteSource direction => (routeAt control.predicateRoutes direction).source

def set (control : TileControl) (value : String) : ControlSymbol → TileControl
  | .op => { control with op := value }
  | .srcA => { control with srcA := value }
  | .srcB => { control with srcB := value }
  | .srcP0 => { control with srcP0 := value }
  | .srcP1 => { control with srcP1 := value }
  | .dataWrite1Source => { control with dataWrite1Source := value }
  | .predicateWrite1Source => { control with predicateWrite1Source := value }
  | .lsuOp => { control with lsuOp := value }
  | .lsuAddrSource => { control with lsuAddrSource := value }
  | .lsuStoreDataSource => { control with lsuStoreDataSource := value }
  | .lsuCommitPredicateSource => { control with lsuCommitPredicateSource := value }
  | .dataRouteSource direction =>
    { control with
      dataRoutes := control.dataRoutes.modify (directionIndex direction) fun route ↦
        { route with source := value } }
  | .predicateRouteSource direction =>
    { control with
      predicateRoutes := control.predicateRoutes.modify (directionIndex direction) fun route ↦
        { route with source := value } }

end ControlSymbol

/-- A field that is not symbolic. -/
inductive ControlInteger
  | number (field : ControlNumber)
  | flag (field : ControlFlag)
  deriving DecidableEq, Repr

namespace ControlInteger

def name : ControlInteger → String
  | .number field => field.name
  | .flag field => field.name

/-- The integer fields in the order their names are tried. -/
def all : List ControlInteger :=
  [.number .dataRfReadAddrA, .number .dataRfReadAddrB, .number .predicateRfReadAddrA,
    .number .predicateRfReadAddrB, .flag .dataWrite0Enable, .number .dataWrite0Addr,
    .flag .dataWrite1Enable, .number .dataWrite1Addr, .flag .predicateWrite0Enable,
    .number .predicateWrite0Addr, .flag .predicateWrite1Enable, .number .predicateWrite1Addr,
    .number .constantAddr, .flag .lsuCommitPredicateEnable, .flag .lsuCommitPredicateInvert,
    .flag (.dataRouteEnable .north), .flag (.predicateRouteEnable .north),
    .flag (.dataRouteEnable .south), .flag (.predicateRouteEnable .south),
    .flag (.dataRouteEnable .east), .flag (.predicateRouteEnable .east),
    .flag (.dataRouteEnable .west), .flag (.predicateRouteEnable .west)]

def get (control : TileControl) : ControlInteger → ℕ
  | .number field => field.get control
  | .flag field => (field.get control).toNat

/-- An address is an `unsigned` and a flag a `bool`: the assignment converts. -/
def set (control : TileControl) (value : ℕ) : ControlInteger → TileControl
  | .number field => field.set control (value % 2 ^ 32)
  | .flag field => field.set control (value != 0)

end ControlInteger

/-- The symbolic fields in the order their names are tried. -/
def ControlSymbol.all : List ControlSymbol :=
  [.op, .srcA, .srcB, .srcP0, .srcP1, .dataWrite1Source, .predicateWrite1Source, .lsuOp,
    .lsuAddrSource, .lsuStoreDataSource, .lsuCommitPredicateSource,
    .dataRouteSource .north, .predicateRouteSource .north,
    .dataRouteSource .south, .predicateRouteSource .south,
    .dataRouteSource .east, .predicateRouteSource .east,
    .dataRouteSource .west, .predicateRouteSource .west]

def integerField (field : String) : Except String ControlInteger :=
  match ControlInteger.all.find? fun candidate ↦ candidate.name == field with
  | none => .error ("unsupported semantic integer control field: " ++ field)
  | some candidate => .ok candidate

def symbolField (field : String) : Except String ControlSymbol :=
  match ControlSymbol.all.find? fun candidate ↦ candidate.name == field with
  | none => .error ("unsupported semantic encoded control field: " ++ field)
  | some candidate => .ok candidate

def semanticInteger (control : TileControl) (field : String) : Except String ℕ := do
  let candidate ← integerField field
  return candidate.get control

def semanticEncoding (control : TileControl) (field : String) : Except String String := do
  let candidate ← symbolField field
  return candidate.get control

def setSemanticInteger (control : TileControl) (field : String) (value : ℕ) :
    Except String TileControl := do
  let candidate ← integerField field
  return candidate.set control value

def setSemanticEncoding (control : TileControl) (field value : String) :
    Except String TileControl := do
  let candidate ← symbolField field
  return candidate.set control value

/-! ## The codec -/

namespace ControlCodec

/-- The number a field contributes to the word. -/
def fieldValue (codec : ControlCodec) (control : TileControl) (field : ControlField) :
    Except String ℕ :=
  match field.encoding with
  | some domain => do
    let symbol ← semanticEncoding control field.name
    codec.encodingValue domain symbol
  | none => semanticInteger control field.name

def encode (codec : ControlCodec) (control : TileControl) : Except String EncodedControl := do
  let encoded ← codec.layout.fields.foldlM
    (fun encoded field ↦ do
      let value ← codec.fieldValue control field
      encoded.insertBits field.lsb field.width value field.name) {}
  let padding ← encoded.extractBits codec.layout.paddingLsb codec.layout.paddingWidth
  if padding ≠ 0 then .error "encoded control has non-zero padding bits" else return encoded

/-- Assign a field of the control from the number the word holds. -/
def setField (codec : ControlCodec) (control : TileControl) (field : ControlField) (value : ℕ) :
    Except String TileControl :=
  match field.encoding with
  | some domain => do
    let symbol ← codec.encodingName domain value
    setSemanticEncoding control field.name symbol
  | none => setSemanticInteger control field.name value

def decode (codec : ControlCodec) (encoded : EncodedControl) : Except String TileControl := do
  let padding ← encoded.extractBits codec.layout.paddingLsb codec.layout.paddingWidth
  if padding ≠ codec.layout.paddingValue then .error "control word padding bits must be zero"
  else
    codec.layout.fields.foldlM
      (fun control field ↦ do
        let value ← encoded.extractBits field.lsb field.width
        codec.setField control field value) {}

end ControlCodec

end PredicatedMesh
