import PredicatedMesh.Golden.Control
import PredicatedMesh.Tools.ProgramImage

/-!
# Configuration streams

The loader is given a list of writes. `expectedWrites` derives it from a manifest: the constants of
every tile, the scratchpad, the control words and the descriptor of the loop, each part in the order
of its addresses, whatever order the manifest has them in. Control words that the manifest omits but
the run reaches are written as zeros. A control word that is there is decoded and encoded again on
the way, and has to come out as the text it was.

`emitConfigManifest` puts the writes into a copy of the manifest, and `validateConfigManifest`
builds them once more and compares.
-/

namespace PredicatedMesh.ConfigStream

open ProgramValidator ProgramImage

/-! ## Writes -/

inductive ConfigMemory
  | controlMem
  | constMem
  | sharedScratchpad
  | loopDesc
  deriving DecidableEq, Repr

namespace ConfigMemory

def name : ConfigMemory → String
  | .controlMem => "CONTROL_MEM"
  | .constMem => "CONST_MEM"
  | .sharedScratchpad => "SHARED_SCRATCHPAD"
  | .loopDesc => "LOOP_DESC"

def memType : ConfigMemory → ℕ
  | .controlMem => 0
  | .constMem => 1
  | .sharedScratchpad => 2
  | .loopDesc => 3

end ConfigMemory

/-- Where a word is written. -/
structure Slot where
  memory : ConfigMemory
  row : ℤ
  col : ℤ
  addr : ℤ
  wordIdx : ℕ
  deriving DecidableEq, Repr

structure Write where
  sequence : ℕ
  slot : Slot
  data : String
  deriving DecidableEq, Repr

def Write.toJson (write : Write) : Json :=
  .obj
    [("sequence", .nat write.sequence), ("mem_type", .str write.slot.memory.name),
      ("cfg_mem_type", .nat write.slot.memory.memType), ("cfg_tile_row", .num write.slot.row),
      ("cfg_tile_col", .num write.slot.col), ("cfg_addr", .num write.slot.addr),
      ("cfg_word_idx", .nat write.slot.wordIdx), ("cfg_wdata", .str write.data)]

/-- Writes are numbered as they are appended. -/
def number (words : List (Slot × String)) : List Write :=
  words.zipIdx.map fun entry ↦ ⟨entry.2, entry.1.1, entry.1.2⟩

/-! ## Control words -/

/-- The entries of the target that the codec of the golden model reads. -/
def goldenTarget (contract : Json) : Option Golden.Target := do
  let params ← contract.field? "parameters"
  let widths ← contract.field? "derived_widths"
  return {
    controlWordChunks := ← (← params.field? "control_word_chunks").nat?
    rawControlWordWidthBits := ← (← params.field? "raw_control_word_width_bits").nat?
    physicalControlWordWidthBits := ← (← params.field? "physical_control_word_width_bits").nat?
    dataRfAddrWidth := ← (← widths.field? "data_rf_addr_width").nat?
    predRfAddrWidth := ← (← widths.field? "pred_rf_addr_width").nat?
    constAddrWidth := ← (← widths.field? "const_addr_width").nat? }

/-- The texts of a word as numbers, each of them checked before the next is read. -/
def readTexts : ℕ → List String → Except String (List ℤ)
  | _, [] => .ok []
  | index, chunk :: chunks =>
    match Hex.readInt chunk with
    | none => .error ("invalid literal for int() with base 16: '" ++ chunk ++ "'")
    | some value =>
      if value < 0 ∨ (Golden.mask32 : ℤ) < value then
        .error ("control chunk " ++ toString index ++ " is not a 32-bit value")
      else do return value :: (← readTexts (index + 1) chunks)

/-- The decoder of the golden model on texts. -/
def decodeTexts (chunks : List String) (target : Golden.Target) :
    Except String Golden.TileControl := do
  if chunks.length ≠ target.controlWordChunks then
    .error ("expected " ++ toString target.controlWordChunks ++ " control chunks, got " ++
      toString chunks.length)
  else Golden.decodeControlChunks (← readTexts 0 chunks) target

/-- The texts of a word that has been decoded. -/
def packAgain (chunks : List String) (target : Golden.Target) : Except String (List String) := do
  Golden.encodeControlChunks (← decodeTexts chunks target) target

/-- An image follows the packing order of the target. -/
def roundTripChunks (chunks : List String) (target : Golden.Target) (context : String) :
    Except String (List String) :=
  match packAgain chunks target with
  | .error exc =>
    .error (context ++ " cannot round-trip through control pack/unpack: " ++ exc)
  | .ok packedAgain =>
    if packedAgain ≠ chunks then
      .error (context ++ " control chunk round-trip changed the image: source=" ++ reprNames chunks
        ++ " packed=" ++ reprNames packedAgain)
    else .ok packedAgain

/-! ## Dictionaries -/

/-- An entry of a dictionary, in the place of the one it replaces. -/
def setEntry {κ α : Type} [DecidableEq κ] (key : κ) (value : α) : List (κ × α) → List (κ × α)
  | [] => [(key, value)]
  | (k, v) :: rest => if k = key then (k, value) :: rest else (k, v) :: setEntry key value rest

/-- The dictionary of the entries of a list. -/
def dictionary {κ α : Type} [DecidableEq κ] (entries : List (κ × α)) : List (κ × α) :=
  entries.foldl (fun dict entry ↦ setEntry entry.1 entry.2 dict) []

/-! ## The writes of a manifest -/

/-- The numbers of the target that the stream depends on. -/
structure Layout where
  rows : ℤ
  cols : ℤ
  chunks : ℤ
  golden : Golden.Target

def tileImages (image : ProgramImage) : List ((ℤ × ℤ) × TileImage) :=
  dictionary (image.tiles.map fun tile ↦ ((tile.row, tile.col), tile))

def nopChunks (chunks : ℤ) : List String := List.replicate chunks.toNat "0x00000000"

/-- The addresses that are executed. -/
def controlSpan (image : ProgramImage) : ℤ :=
  match image.loop with
  | some loop => if loop.enabled then loop.span else image.runCycles
  | none => image.runCycles

/-- The numbers from zero up to a bound. -/
def upTo (bound : ℤ) : List ℤ := (List.range bound.toNat).map fun n : ℕ ↦ (n : ℤ)

/-- The tiles of the array, row by row. -/
def coordinates (layout : Layout) : List (ℤ × ℤ) :=
  (upTo layout.rows).flatMap fun row ↦ (upTo layout.cols).map fun col ↦ (row, col)

def sortByAddr (entries : List WordImage) : List WordImage :=
  entries.insertionSort fun a b ↦ a.addr ≤ b.addr

def constWrites (tiles : List ((ℤ × ℤ) × TileImage)) (coord : ℤ × ℤ) : List (Slot × String) :=
  match tiles.lookup coord with
  | none => []
  | some tile => (sortByAddr tile.constMemory).map fun entry ↦
      (⟨.constMem, coord.1, coord.2, entry.addr, 0⟩, entry.value)

def preloadWrites (tiles : List ((ℤ × ℤ) × TileImage)) : List (Slot × String) :=
  (sortByAddr (tiles.flatMap fun tile ↦ tile.2.scratchpadPreload)).map fun entry ↦
    (⟨.sharedScratchpad, 0, 0, entry.addr, 0⟩, entry.value)

/-- The control words of a tile by address. -/
def explicitControls (tiles : List ((ℤ × ℤ) × TileImage)) (coord : ℤ × ℤ) :
    List (ℤ × ControlImage) :=
  match tiles.lookup coord with
  | none => []
  | some tile => dictionary (tile.control.map fun entry ↦ (entry.pc, entry))

/-- The addresses of a tile that are written. -/
def writtenPcs (span : ℤ) (explicit : List (ℤ × ControlImage)) : List ℤ :=
  (upTo span ++ explicit.map Prod.fst).dedup.insertionSort (· ≤ ·)

def wordWrites (coord : ℤ × ℤ) (pc : ℤ) (chunks : List String) : List (Slot × String) :=
  chunks.zipIdx.map fun chunk ↦ (⟨.controlMem, coord.1, coord.2, pc, chunk.2⟩, chunk.1)

/-- The word at an address of a tile. -/
def pcWrites (layout : Layout) (explicit : List (ℤ × ControlImage)) (coord : ℤ × ℤ) (pc : ℤ) :
    Except String (List (Slot × String)) :=
  match explicit.lookup pc with
  | none => .ok (wordWrites coord pc (nopChunks layout.chunks))
  | some entry => do
    let chunks ← roundTripChunks entry.chunks layout.golden ("tile=(" ++ toString coord.1 ++ ","
      ++ toString coord.2 ++ ") pc=" ++ toString pc)
    return wordWrites coord pc chunks

def controlWrites (layout : Layout) (span : ℤ) (tiles : List ((ℤ × ℤ) × TileImage))
    (coord : ℤ × ℤ) : Except String (List (Slot × String)) := do
  let explicit := explicitControls tiles coord
  return (← (writtenPcs span explicit).mapM (pcWrites layout explicit coord)).flatten

/-- A number as eight hexadecimal digits, or more where it is larger. -/
def hex08 (value : ℤ) : String :=
  let sign := if value < 0 then "-" else ""
  let digits := String.ofList (Nat.toDigits 16 value.natAbs)
  "0x" ++ sign ++ String.ofList (List.replicate (8 - sign.length - digits.length) '0') ++ digits

def descriptorValues (loop : LoopImage) : List ℤ :=
  [loop.prologueCycles, loop.ii, loop.tripCount, loop.epilogueCycles, loop.enabled.toNat]

def loopWrites (image : ProgramImage) : List (Slot × String) :=
  match image.loop with
  | none => []
  | some loop => (descriptorValues loop).zipIdx.map fun entry ↦
      (⟨.loopDesc, 0, 0, entry.2, 0⟩, hex08 entry.1)

/-- The words of an image in the order they are written. -/
def imageWrites (layout : Layout) (image : ProgramImage) :
    Except String (List (Slot × String)) := do
  let tiles := tileImages image
  let controls ← (coordinates layout).mapM (controlWrites layout (controlSpan image) tiles)
  return (coordinates layout).flatMap (constWrites tiles) ++ preloadWrites tiles ++ controls.flatten
    ++ loopWrites image

/-- What the stream reads of a target; a missing parameter is a `KeyError`. -/
def readLayout (contract : Json) : Except String Layout :=
  match contract.field? "parameters", goldenTarget contract with
  | some params, some golden => do
    let chunks ← parameter params "control_word_chunks"
    let rows ← parameter params "array_rows"
    let cols ← parameter params "array_cols"
    return ⟨rows, cols, chunks, golden⟩
  | _, _ => .error "KeyError"

/-- A target and a manifest that has been validated. -/
def readBoth (contract manifest : Json) : Except String (Layout × ProgramImage) := do
  let layout ← readLayout contract
  match readProgram manifest with
  | none => .error "KeyError"
  | some image => return (layout, image)

def expectedWrites (contract manifest : Json) : Except String (List Write) := do
  let (layout, image) ← readBoth contract manifest
  return number (← imageWrites layout image)

/-! ## Emitting and validating -/

/-- The contract a manifest names. -/
def targetFor (files : String → Option Json) (manifest : Json) : Except String Json :=
  match ((manifest.field? "target").bind fun target ↦ target.field? "path").bind Json.str? with
  | none => .error "program manifest has no usable target.path"
  | some path =>
    match files path with
    | none => .error ("cannot load target: " ++ path)
    | some contract => .ok contract

def configStreamSchema : String := "cgra.config_stream.v1"

/-- A field that has to be there. -/
def item (value : Json) (name : String) : Except String Json :=
  match value.field? name with
  | none => .error ("KeyError: '" ++ name ++ "'")
  | some found => .ok found

def streamMetadata (manifest contract : Json) : Except String (List (String × Json)) := do
  let params ← item contract "parameters"
  let target ← item manifest "target"
  let encoding ← item (← item manifest "program") "control_word_encoding"
  let chunks ← item params "control_word_chunks"
  let width ← item params "physical_control_word_width_bits"
  return [("schema", .str configStreamSchema), ("version", .num 1), ("target", target),
    ("control_word", .obj [("encoding", encoding), ("chunks_per_word", chunks),
      ("physical_width_bits", width), ("chunk_order", .str "lsb_first")])]

/-- Whether the loop of a manifest is enabled; a loop that is no object has no fields to get. -/
def loopMode (manifest : Json) : Except String Bool :=
  match manifest.field? "loop" with
  | none => .ok false
  | some (.obj fields) =>
    match (Json.obj fields).field? "enabled" with
    | some (.bool true) => .ok true
    | _ => .ok false
  | some _ => .error "AttributeError: 'get'"

def runSection (manifest : Json) : Except String Json := do
  let runCycles ← item (← item manifest "run") "run_cycles"
  let mode ← loopMode manifest
  return .obj ([("command", .str "START"), ("run_cycles", runCycles)]
    ++ if mode then [("mode", .str "LOOP")] else [])

/-- An object with a field added to it or put in the place of another. -/
def setField (value : Json) (name : String) (new : Json) : Json :=
  match value with
  | .obj fields => .obj (setEntry name new fields)
  | other => other

def streamOf (metadata : List (String × Json)) (writes : List Write) (run : Json) : Json :=
  .obj (metadata ++ [("writes", .arr (writes.map Write.toJson)),
    ("write_count", .nat writes.length), ("run", run)])

/-- A copy of a manifest with its configuration stream. -/
def emitConfigManifest (files : String → Option Json) (manifest : Json) : Except String Json := do
  let errors ← validateProgram files manifest
  if errors ≠ [] then .error ("program manifest is invalid: " ++ "; ".intercalate errors)
  else
    let contract ← targetFor files manifest
    let writes ← expectedWrites contract manifest
    let metadata ← streamMetadata manifest contract
    let run ← runSection manifest
    return setField manifest "config_stream" (streamOf metadata writes run)

def checkMetadata (stream : Json) (metadata : List (String × Json)) : List String :=
  metadata.flatMap fun entry ↦ Scan.require (holds stream entry.1 entry.2)
    ("config_stream." ++ entry.1 ++ " does not match target/program metadata")

def checkStream (stream : Json) (metadata : List (String × Json)) (writes : List Write)
    (run : Json) : List String :=
  checkMetadata stream metadata
    ++ Scan.require (holds stream "writes" (.arr (writes.map Write.toJson)))
      "config_stream.writes do not match deterministic program-derived writes"
    ++ Scan.require (holds stream "write_count" (.nat writes.length))
      "config_stream.write_count does not match config_stream.writes"
    ++ Scan.require (holds stream "run" run)
      "config_stream.run does not match manifest run-cycle count"

/-- The stream of a manifest is built again and compared. -/
def validateConfigManifest (files : String → Option Json) (manifest : Json) :
    Except String (List String) := do
  let errors ← validateProgram files manifest
  if errors ≠ [] then return errors
  else
    let contract ← targetFor files manifest
    match ProgramValidator.get manifest "config_stream" with
    | some (.obj fields) =>
      let metadata ← streamMetadata manifest contract
      let (layout, image) ← readBoth contract manifest
      match imageWrites layout image with
      | .error message => return checkMetadata (.obj fields) metadata ++ [message]
      | .ok words =>
        return checkStream (.obj fields) metadata (number words) (← runSection manifest)
    | _ => return ["missing config_stream object"]

/-! ## Accepted manifests -/

section Accepted

variable {files : String → Option Json} {manifest contract params : Json} {limits : Limits}
  {rows cols scratchDepth : ℤ} {image : ProgramImage}
  (accepted : Accepted files manifest contract params limits rows cols scratchDepth image)
include accepted

/-- The tools find the contract that the validator has found. -/
theorem targetFor_eq_ok : targetFor files manifest = .ok contract := by
  have hload := accepted.target
  generalize hget : ProgramValidator.get manifest "target" = target at hload
  unfold loadTarget at hload
  split at hload
  · rename_i fields
    simp only at hload
    split at hload
    · rename_i path hpath
      split at hload
      · exact absurd (Prod.mk.inj hload).2 nofun
      · rename_i found hfile
        obtain rfl := Option.some.inj (Prod.mk.inj hload).2
        rw [targetFor, field?_of_get hget, Option.bind_some, field?_of_get hpath, Option.bind_some,
          Json.str?_str]
        simp only [hfile]
    · exact absurd (Prod.mk.inj hload).2 nofun
  · exact absurd (Prod.mk.inj hload).2 nofun

/-- The codec and the validator read the same number of chunks. -/
theorem chunksPerControl_eq {target : Golden.Target}
    (hgolden : goldenTarget contract = some target) :
    limits.chunksPerControl = target.controlWordChunks := by
  obtain ⟨params', hparams, hgolden⟩ := Option.bind_eq_some_iff.mp hgolden
  obtain rfl := Option.some.inj (hparams.symm.trans accepted.parameters)
  obtain ⟨widths, -, hgolden⟩ := Option.bind_eq_some_iff.mp hgolden
  obtain ⟨value, hvalue, hgolden⟩ := Option.bind_eq_some_iff.mp hgolden
  obtain ⟨n, hn, hgolden⟩ := Option.bind_eq_some_iff.mp hgolden
  simp only [Option.bind_eq_bind, Option.bind_eq_some_iff, pure, Option.some.injEq] at hgolden
  obtain ⟨_, -, _, -, _, -, _, -, _, -, _, -, _, -, _, -, _, -, _, -, rfl⟩ := hgolden
  have hint : ProgramValidator.int? value = some (n : ℤ) := by
    unfold Json.nat? at hn
    split at hn
    · rw [← Option.some.inj hn]
      rfl
    · exact absurd hn nofun
  have hlimits := accepted.limited
  rw [ProgramValidator.limits, parameter, hvalue] at hlimits
  simp only [hint] at hlimits
  obtain ⟨chunks, hchunks, hlimits⟩ := Scan.bind_eq_ok.mp hlimits
  obtain rfl := Except.ok.inj hchunks
  obtain ⟨ctrlDepth, -, hlimits⟩ := Scan.bind_eq_ok.mp hlimits
  obtain ⟨constDepth, -, hlimits⟩ := Scan.bind_eq_ok.mp hlimits
  rw [← Except.ok.inj hlimits]

end Accepted

/-! ## A small manifest -/

/-- The second contract's file, as far as the tools read it. -/
def contractFile : Json :=
  .obj
    [("schema", .str "cgra.target.v2"), ("name", .str "cgra_v2_shared4p"),
      ("parameters", .obj
        [("array_rows", .nat 4), ("array_cols", .nat 4), ("const_mem_depth", .nat 16),
          ("ctrl_mem_depth", .nat 256), ("scratchpad_depth", .nat 4096),
          ("shared_mem_ports", .nat 4), ("raw_control_word_width_bits", .nat 126),
          ("physical_control_word_width_bits", .nat 128), ("control_word_chunks", .nat 4)]),
      ("derived_widths", .obj
        [("data_rf_addr_width", .nat 4), ("pred_rf_addr_width", .nat 4),
          ("const_addr_width", .nat 4)]),
      ("memory", .obj
        [("model", .str "shared_multiport_scratchpad"), ("address_unit", .str "word")]),
      ("lsu", .obj [("enabled_tiles", .arr [])])]

def repositoryFiles (path : String) : Option Json :=
  if path = "target/cgra_v2.json" then some contractFile else none

/-- A manifest of one tile with one control word, run for two cycles. -/
def smallManifest (loop : List (String × Json)) (chunk value : String) : Json :=
  .obj ([("schema", .str "cgra.program_manifest.v1"), ("name", .str "small"), ("version", .num 1),
    ("target", .obj [("name", .str "cgra_v2_shared4p"), ("schema", .str "cgra.target.v2"),
      ("path", .str "target/cgra_v2.json")]),
    ("run", .obj [("run_cycles", .nat 2),
      ("result_observation", .obj [("mode", .str "trace_only")])]),
    ("program", .obj [("format", .str "explicit_tile_images"),
      ("control_word_encoding", .str "lsb_first_32bit_chunks"),
      ("tiles", .arr [.obj [("row", .nat 1), ("col", .nat 2),
        ("control", .arr [.obj [("pc", .nat 1), ("chunks", .arr
          [.str chunk, .str "0x00000000", .str "0x00000000", .str "0x00000000"])]]),
        ("const_memory", .arr [.obj [("addr", .nat 3), ("value", .str value)]]),
        ("scratchpad_preload", .arr [])]])])] ++ loop)

end PredicatedMesh.ConfigStream
