import PredicatedMesh.Mapping.ModuloMapping

/-!
# The golden model's control codec

The golden model was written against the hardware, not against the compiler: it has its own record
of a control, its own tables, and two functions that compute bit positions by adding widths up. The
widths of the addresses come from the contract's derived parameters, every other width is a literal.

Words are Python integers, of any size and never negative here. Addresses are taken to be
non-negative as well; the encoder masks them, so that one that is too large is silently truncated.
-/

namespace PredicatedMesh.Golden

/-! ## Tables -/

def opByValue : List (ℕ × String) :=
  [(0, "NOP"), (1, "PASS"), (2, "ADD"), (3, "SUB"), (4, "MUL"), (5, "AND"), (6, "OR"), (7, "XOR"),
    (8, "SHL"), (9, "LSHR"), (10, "SELECT"), (16, "CMP_EQ"), (17, "CMP_NE"), (18, "CMP_ULT"),
    (19, "CMP_ULE"), (32, "PPASS"), (33, "PNOT"), (34, "PAND"), (35, "POR")]

def dataSrcByValue : List (ℕ × String) :=
  [(0, "RF_A"), (1, "RF_B"), (2, "NORTH_DATA_IN"), (3, "SOUTH_DATA_IN"), (4, "EAST_DATA_IN"),
    (5, "WEST_DATA_IN"), (6, "CONST_DATA"), (7, "LSU_LOAD_DATA"), (8, "ZERO")]

def predSrcByValue : List (ℕ × String) :=
  [(0, "RF_A"), (1, "RF_B"), (2, "NORTH_PRED_IN"), (3, "SOUTH_PRED_IN"), (4, "EAST_PRED_IN"),
    (5, "WEST_PRED_IN"), (6, "CONST_TRUE"), (7, "CONST_FALSE")]

def dataRouteSrcByValue : List (ℕ × String) :=
  [(0, "NONE"), (1, "NORTH_DATA_IN"), (2, "SOUTH_DATA_IN"), (3, "EAST_DATA_IN"),
    (4, "WEST_DATA_IN"), (5, "FU_DATA_RESULT"), (6, "RF_A"), (7, "RF_B"), (8, "CONST_DATA"),
    (9, "LSU_LOAD_DATA"), (10, "ZERO")]

def predRouteSrcByValue : List (ℕ × String) :=
  [(0, "NONE"), (1, "NORTH_PRED_IN"), (2, "SOUTH_PRED_IN"), (3, "EAST_PRED_IN"),
    (4, "WEST_PRED_IN"), (5, "FU_PRED_RESULT"), (6, "RF_A"), (7, "RF_B"), (8, "CONST_TRUE"),
    (9, "CONST_FALSE")]

def lsuOpByValue : List (ℕ × String) := [(0, "NONE"), (1, "LOAD"), (2, "STORE"), (3, "RESERVED")]

/-! ## Controls -/

structure RouteDirControl where
  we : Bool := false
  src : String := "NONE"
  deriving DecidableEq, Repr

/-- A control of the golden model. Missing routes are filled with the default when a control is
made, so that a route exists for every direction. -/
structure TileControl where
  op : String := "NOP"
  srcA : String := "ZERO"
  srcB : String := "ZERO"
  srcP0 : String := "CONST_FALSE"
  srcP1 : String := "CONST_FALSE"
  dataRfRaddrA : ℕ := 0
  dataRfRaddrB : ℕ := 0
  predRfRaddrA : ℕ := 0
  predRfRaddrB : ℕ := 0
  dataW0We : Bool := false
  dataW0Addr : ℕ := 0
  dataW1We : Bool := false
  dataW1Addr : ℕ := 0
  dataW1Src : String := "ZERO"
  predW0We : Bool := false
  predW0Addr : ℕ := 0
  predW1We : Bool := false
  predW1Addr : ℕ := 0
  predW1Src : String := "CONST_FALSE"
  dataRoutes : Direction → RouteDirControl := fun _ ↦ {}
  predRoutes : Direction → RouteDirControl := fun _ ↦ {}
  constAddr : ℕ := 0
  lsuOp : String := "NONE"
  lsuAddrSrc : String := "ZERO"
  lsuStoreDataSrc : String := "ZERO"
  lsuCommitPredEnable : Bool := false
  lsuCommitPredInvert : Bool := false
  lsuCommitPredSrc : String := "CONST_FALSE"

/-- The entries of the target dictionary the codec reads. -/
structure Target where
  controlWordChunks : ℕ
  rawControlWordWidthBits : ℕ
  physicalControlWordWidthBits : ℕ
  dataRfAddrWidth : ℕ
  predRfAddrWidth : ℕ
  constAddrWidth : ℕ
  deriving DecidableEq, Repr

/-! ## Bits -/

def mask32 : ℕ := 0xFFFFFFFF

def bit (value : Bool) : ℕ := if value then 1 else 0

def extract (value lsb width : ℕ) : ℕ := (value >>> lsb) &&& (1 <<< width - 1)

/-- The bits of the first number that the second does not have. -/
def andNot (a b : ℕ) : ℕ := a ^^^ (a &&& b)

def insert (word fieldValue lsb width : ℕ) : ℕ :=
  let mask := (1 <<< width - 1) <<< lsb
  andNot word mask ||| (fieldValue &&& (1 <<< width - 1)) <<< lsb

def enum (mapping : List (ℕ × String)) (value : ℕ) (field : String) : Except String String :=
  match mapping.find? fun entry ↦ entry.1 == value with
  | none => .error ("invalid " ++ field ++ " enum value " ++ toString value)
  | some entry => .ok entry.2

/-- A lookup in the inverted table; a missing name is a `KeyError`. -/
def valueOf (mapping : List (ℕ × String)) (name : String) : Except String ℕ :=
  match mapping.find? fun entry ↦ entry.2 == name with
  | none => .error ("KeyError: " ++ name)
  | some entry => .ok entry.1

/-! ## Decoding -/

/-- The word the chunks make up, least significant chunk first. -/
def assemble : ℕ → ℕ → List ℤ → Except String ℕ
  | _, word, [] => .ok word
  | index, word, value :: chunks =>
    if value < 0 ∨ (mask32 : ℤ) < value then
      .error ("control chunk " ++ toString index ++ " is not a 32-bit value")
    else assemble (index + 1) (word ||| value.toNat <<< (32 * index)) chunks

/-- One route of a direction. -/
def decodeRoute (mapping : List (ℕ × String)) (word lsb srcWidth : ℕ) (field : String) :
    Except String RouteDirControl := do
  let src ← enum mapping (extract word (lsb + 1) srcWidth) field
  return { we := extract word lsb 1 != 0, src := src }

/-- The routes in the order of the directions. -/
def decodeRoutes (mapping : List (ℕ × String)) (word routeLsb srcWidth : ℕ) (field : String) :
    Except String (Direction → RouteDirControl) := do
  let dirWidth := 1 + srcWidth
  let north ← decodeRoute mapping word (routeLsb + 0 * dirWidth) srcWidth (field ++ "north")
  let south ← decodeRoute mapping word (routeLsb + 1 * dirWidth) srcWidth (field ++ "south")
  let east ← decodeRoute mapping word (routeLsb + 2 * dirWidth) srcWidth (field ++ "east")
  let west ← decodeRoute mapping word (routeLsb + 3 * dirWidth) srcWidth (field ++ "west")
  return fun
    | .north => north
    | .south => south
    | .east => east
    | .west => west

/-- The fields of a word. -/
def decodeWord (word : ℕ) (target : Target) : Except String TileControl := do
  let opWidth := 6
  let dataSrcWidth := 4
  let predSrcWidth := 4
  let dataRouteSrcWidth := 4
  let predRouteSrcWidth := 4
  let lsuOpWidth := 2
  let execLsb := 0
  let execWidth := opWidth + 2 * dataSrcWidth + 2 * predSrcWidth + 2 * target.dataRfAddrWidth +
    2 * target.predRfAddrWidth
  let dataRfLsb := execLsb + execWidth
  let dataRfWidth := 2 + 2 * target.dataRfAddrWidth + dataSrcWidth
  let predRfLsb := dataRfLsb + dataRfWidth
  let predRfWidth := 2 + 2 * target.predRfAddrWidth + predSrcWidth
  let dataRouteLsb := predRfLsb + predRfWidth
  let dataRouteWidth := 4 * (1 + dataRouteSrcWidth)
  let predRouteLsb := dataRouteLsb + dataRouteWidth
  let predRouteWidth := 4 * (1 + predRouteSrcWidth)
  let constLsb := predRouteLsb + predRouteWidth
  let lsuLsb := constLsb + target.constAddrWidth
  let lsb := execLsb
  let op ← enum opByValue (extract word lsb opWidth) "op"
  let lsb := lsb + opWidth
  let srcA ← enum dataSrcByValue (extract word lsb dataSrcWidth) "src_a"
  let lsb := lsb + dataSrcWidth
  let srcB ← enum dataSrcByValue (extract word lsb dataSrcWidth) "src_b"
  let lsb := lsb + dataSrcWidth
  let srcP0 ← enum predSrcByValue (extract word lsb predSrcWidth) "src_p0"
  let lsb := lsb + predSrcWidth
  let srcP1 ← enum predSrcByValue (extract word lsb predSrcWidth) "src_p1"
  let lsb := lsb + predSrcWidth
  let dataRfRaddrA := extract word lsb target.dataRfAddrWidth
  let lsb := lsb + target.dataRfAddrWidth
  let dataRfRaddrB := extract word lsb target.dataRfAddrWidth
  let lsb := lsb + target.dataRfAddrWidth
  let predRfRaddrA := extract word lsb target.predRfAddrWidth
  let lsb := lsb + target.predRfAddrWidth
  let predRfRaddrB := extract word lsb target.predRfAddrWidth
  let lsb := dataRfLsb
  let dataW0We := extract word lsb 1 != 0
  let lsb := lsb + 1
  let dataW0Addr := extract word lsb target.dataRfAddrWidth
  let lsb := lsb + target.dataRfAddrWidth
  let dataW1We := extract word lsb 1 != 0
  let lsb := lsb + 1
  let dataW1Addr := extract word lsb target.dataRfAddrWidth
  let lsb := lsb + target.dataRfAddrWidth
  let dataW1Src ← enum dataSrcByValue (extract word lsb dataSrcWidth) "data_w1_src"
  let lsb := predRfLsb
  let predW0We := extract word lsb 1 != 0
  let lsb := lsb + 1
  let predW0Addr := extract word lsb target.predRfAddrWidth
  let lsb := lsb + target.predRfAddrWidth
  let predW1We := extract word lsb 1 != 0
  let lsb := lsb + 1
  let predW1Addr := extract word lsb target.predRfAddrWidth
  let lsb := lsb + target.predRfAddrWidth
  let predW1Src ← enum predSrcByValue (extract word lsb predSrcWidth) "pred_w1_src"
  let dataRoutes ← decodeRoutes dataRouteSrcByValue word dataRouteLsb dataRouteSrcWidth
    "data_route_"
  let predRoutes ← decodeRoutes predRouteSrcByValue word predRouteLsb predRouteSrcWidth
    "pred_route_"
  let constAddr := extract word constLsb target.constAddrWidth
  let lsb := lsuLsb
  let lsuOp ← enum lsuOpByValue (extract word lsb lsuOpWidth) "lsu_op"
  let lsb := lsb + lsuOpWidth
  let lsuAddrSrc ← enum dataSrcByValue (extract word lsb dataSrcWidth) "lsu_addr_src"
  let lsb := lsb + dataSrcWidth
  let lsuStoreDataSrc ← enum dataSrcByValue (extract word lsb dataSrcWidth) "lsu_store_data_src"
  let lsb := lsb + dataSrcWidth
  let lsuCommitPredEnable := extract word lsb 1 != 0
  let lsb := lsb + 1
  let lsuCommitPredInvert := extract word lsb 1 != 0
  let lsb := lsb + 1
  let lsuCommitPredSrc ← enum predSrcByValue (extract word lsb predSrcWidth) "lsu_commit_pred_src"
  return {
    op := op, srcA := srcA, srcB := srcB, srcP0 := srcP0, srcP1 := srcP1
    dataRfRaddrA := dataRfRaddrA, dataRfRaddrB := dataRfRaddrB
    predRfRaddrA := predRfRaddrA, predRfRaddrB := predRfRaddrB
    dataW0We := dataW0We, dataW0Addr := dataW0Addr, dataW1We := dataW1We, dataW1Addr := dataW1Addr
    dataW1Src := dataW1Src
    predW0We := predW0We, predW0Addr := predW0Addr, predW1We := predW1We, predW1Addr := predW1Addr
    predW1Src := predW1Src
    dataRoutes := dataRoutes, predRoutes := predRoutes, constAddr := constAddr
    lsuOp := lsuOp, lsuAddrSrc := lsuAddrSrc, lsuStoreDataSrc := lsuStoreDataSrc
    lsuCommitPredEnable := lsuCommitPredEnable, lsuCommitPredInvert := lsuCommitPredInvert
    lsuCommitPredSrc := lsuCommitPredSrc }

def decodeControlChunks (chunks : List ℤ) (target : Target) : Except String TileControl := do
  if chunks.length ≠ target.controlWordChunks then
    .error ("expected " ++ toString target.controlWordChunks ++ " control chunks, got " ++
      toString chunks.length)
  else
    let word ← assemble 0 0 chunks
    let paddingLsb := target.rawControlWordWidthBits
    let physicalWidth := target.physicalControlWordWidthBits
    if extract word paddingLsb (physicalWidth - paddingLsb) ≠ 0 then
      .error "control word padding bits must be zero"
    else decodeWord word target

/-! ## Encoding -/

def insertRoute (mapping : List (ℕ × String)) (word lsb srcWidth : ℕ) (route : RouteDirControl) :
    Except String ℕ := do
  let word := insert word (bit route.we) lsb 1
  let src ← valueOf mapping route.src
  return insert word src (lsb + 1) srcWidth

def insertRoutes (mapping : List (ℕ × String)) (word routeLsb srcWidth : ℕ)
    (routes : Direction → RouteDirControl) : Except String ℕ := do
  let dirWidth := 1 + srcWidth
  let word ← insertRoute mapping word (routeLsb + 0 * dirWidth) srcWidth (routes .north)
  let word ← insertRoute mapping word (routeLsb + 1 * dirWidth) srcWidth (routes .south)
  let word ← insertRoute mapping word (routeLsb + 2 * dirWidth) srcWidth (routes .east)
  insertRoute mapping word (routeLsb + 3 * dirWidth) srcWidth (routes .west)

/-- The word of a control. -/
def encodeWord (ctrl : TileControl) (target : Target) : Except String ℕ := do
  let opWidth := 6
  let dataSrcWidth := 4
  let predSrcWidth := 4
  let dataRouteSrcWidth := 4
  let predRouteSrcWidth := 4
  let lsuOpWidth := 2
  let execWidth := opWidth + 2 * dataSrcWidth + 2 * predSrcWidth + 2 * target.dataRfAddrWidth +
    2 * target.predRfAddrWidth
  let dataRfLsb := execWidth
  let dataRfWidth := 2 + 2 * target.dataRfAddrWidth + dataSrcWidth
  let predRfLsb := dataRfLsb + dataRfWidth
  let predRfWidth := 2 + 2 * target.predRfAddrWidth + predSrcWidth
  let dataRouteLsb := predRfLsb + predRfWidth
  let predRouteLsb := dataRouteLsb + 4 * (1 + dataRouteSrcWidth)
  let constLsb := predRouteLsb + 4 * (1 + predRouteSrcWidth)
  let lsuLsb := constLsb + target.constAddrWidth
  let word := 0
  let lsb := 0
  let word := insert word (← valueOf opByValue ctrl.op) lsb opWidth
  let lsb := lsb + opWidth
  let word := insert word (← valueOf dataSrcByValue ctrl.srcA) lsb dataSrcWidth
  let lsb := lsb + dataSrcWidth
  let word := insert word (← valueOf dataSrcByValue ctrl.srcB) lsb dataSrcWidth
  let lsb := lsb + dataSrcWidth
  let word := insert word (← valueOf predSrcByValue ctrl.srcP0) lsb predSrcWidth
  let lsb := lsb + predSrcWidth
  let word := insert word (← valueOf predSrcByValue ctrl.srcP1) lsb predSrcWidth
  let lsb := lsb + predSrcWidth
  let word := insert word ctrl.dataRfRaddrA lsb target.dataRfAddrWidth
  let lsb := lsb + target.dataRfAddrWidth
  let word := insert word ctrl.dataRfRaddrB lsb target.dataRfAddrWidth
  let lsb := lsb + target.dataRfAddrWidth
  let word := insert word ctrl.predRfRaddrA lsb target.predRfAddrWidth
  let lsb := lsb + target.predRfAddrWidth
  let word := insert word ctrl.predRfRaddrB lsb target.predRfAddrWidth
  let lsb := dataRfLsb
  let word := insert word (bit ctrl.dataW0We) lsb 1
  let lsb := lsb + 1
  let word := insert word ctrl.dataW0Addr lsb target.dataRfAddrWidth
  let lsb := lsb + target.dataRfAddrWidth
  let word := insert word (bit ctrl.dataW1We) lsb 1
  let lsb := lsb + 1
  let word := insert word ctrl.dataW1Addr lsb target.dataRfAddrWidth
  let lsb := lsb + target.dataRfAddrWidth
  let word := insert word (← valueOf dataSrcByValue ctrl.dataW1Src) lsb dataSrcWidth
  let lsb := predRfLsb
  let word := insert word (bit ctrl.predW0We) lsb 1
  let lsb := lsb + 1
  let word := insert word ctrl.predW0Addr lsb target.predRfAddrWidth
  let lsb := lsb + target.predRfAddrWidth
  let word := insert word (bit ctrl.predW1We) lsb 1
  let lsb := lsb + 1
  let word := insert word ctrl.predW1Addr lsb target.predRfAddrWidth
  let lsb := lsb + target.predRfAddrWidth
  let word := insert word (← valueOf predSrcByValue ctrl.predW1Src) lsb predSrcWidth
  let word ← insertRoutes dataRouteSrcByValue word dataRouteLsb dataRouteSrcWidth ctrl.dataRoutes
  let word ← insertRoutes predRouteSrcByValue word predRouteLsb predRouteSrcWidth ctrl.predRoutes
  let word := insert word ctrl.constAddr constLsb target.constAddrWidth
  let lsb := lsuLsb
  let word := insert word (← valueOf lsuOpByValue ctrl.lsuOp) lsb lsuOpWidth
  let lsb := lsb + lsuOpWidth
  let word := insert word (← valueOf dataSrcByValue ctrl.lsuAddrSrc) lsb dataSrcWidth
  let lsb := lsb + dataSrcWidth
  let word := insert word (← valueOf dataSrcByValue ctrl.lsuStoreDataSrc) lsb dataSrcWidth
  let lsb := lsb + dataSrcWidth
  let word := insert word (bit ctrl.lsuCommitPredEnable) lsb 1
  let lsb := lsb + 1
  let word := insert word (bit ctrl.lsuCommitPredInvert) lsb 1
  let lsb := lsb + 1
  return insert word (← valueOf predSrcByValue ctrl.lsuCommitPredSrc) lsb predSrcWidth

/-- A chunk as eight hexadecimal digits. -/
def hexChunk (value : ℕ) : String :=
  let digits := String.ofList (Nat.toDigits 16 (value &&& mask32))
  "0x" ++ String.ofList (List.replicate (8 - digits.length) '0') ++ digits

def encodeControlChunks (ctrl : TileControl) (target : Target) : Except String (List String) := do
  let word ← encodeWord ctrl target
  return (List.range target.controlWordChunks).map fun index ↦ hexChunk (word >>> (32 * index))

end PredicatedMesh.Golden
