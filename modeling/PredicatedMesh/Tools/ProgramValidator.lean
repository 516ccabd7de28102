import PredicatedMesh.Library.Json
import PredicatedMesh.Library.Scan

/-!
# Validation of program manifests

`validateProgram` reads a manifest as the tool does: field by field, with a message for everything
it does not like, and the target file that the manifest names. A target file without the parameters
the tool relies on raises an exception.
-/

namespace PredicatedMesh.ProgramValidator

open Scan

/-! ## Values -/

/-- An integer; the truth values are integers. -/
def int? : Json → Option ℤ
  | .num value => some value
  | .bool value => some value.toNat
  | _ => none

/-- A value that can be in a set. -/
inductive Key
  | none
  | int (value : ℤ)
  | str (value : String)
  deriving DecidableEq, Repr

def key : Option Json → Except String Key
  | .none => .ok .none
  | some .null => .ok .none
  | some (.num value) => .ok (.int value)
  | some (.bool value) => .ok (.int value.toNat)
  | some (.str value) => .ok (.str value)
  | some (.arr _) => .error "unhashable type: 'list'"
  | some (.obj _) => .error "unhashable type: 'dict'"

mutual

/-- Equality of values; objects are compared field by field, in any order. -/
def equal : Json → Json → Bool
  | .null, .null => true
  | .bool value, other => int? other == some value.toNat
  | .num value, other => int? other == some value
  | .str value, .str other => value == other
  | .arr items, .arr others => equalItems items others
  | .obj fields, .obj others => fields.length == others.length && equalFields fields others
  | _, _ => false

def equalItems : List Json → List Json → Bool
  | [], [] => true
  | item :: items, other :: others => equal item other && equalItems items others
  | _, _ => false

def equalFields : List (String × Json) → List (String × Json) → Bool
  | [], _ => true
  | (name, value) :: fields, others =>
    (match others.lookup name with
      | none => false
      | some other => equal value other) && equalFields fields others

end

mutual

/-- The text of a value. -/
def repr : Json → String
  | .null => "None"
  | .bool value => if value then "True" else "False"
  | .num value => toString value
  | .str value => "'" ++ value ++ "'"
  | .arr items => "[" ++ ", ".intercalate (reprItems items) ++ "]"
  | .obj fields => "\x7b" ++ ", ".intercalate (reprFields fields) ++ "\x7d"

def reprItems : List Json → List String
  | [] => []
  | item :: items => repr item :: reprItems items

def reprFields : List (String × Json) → List String
  | [] => []
  | (name, value) :: fields => ("'" ++ name ++ "': " ++ repr value) :: reprFields fields

end

/-- The value of a field, or nothing for a field that is missing or null. -/
def get (value : Json) (name : String) : Option Json :=
  match value.field? name with
  | some .null => none
  | field => field

def reprGet (value : Json) (name : String) : String := repr ((get value name).getD .null)

/-- A field has a value. -/
def holds (value : Json) (name : String) (expected : Json) : Bool :=
  equal ((get value name).getD .null) expected

def keys : Json → List String
  | .obj fields => fields.map Prod.fst
  | _ => []

def sorted (names : List String) : List String := names.insertionSort (· ≤ ·)

def reprNames (names : List String) : String := repr (.arr (names.map Json.str))

/-- The names of a list that another lacks, in order. -/
def missing (required present : List String) : List String :=
  sorted (required.filter fun name ↦ !present.contains name)

/-- A word of eight hexadecimal digits. -/
def isHex32 : Option Json → Bool
  | some (.str text) =>
    "0x".toList.isPrefixOf text.toList && (text.toList.drop 2).length == 8
      && (Hex.readInt (String.ofList (text.toList.drop 2))).isSome
  | _ => false

/-! ## The target -/

/-- The contract a manifest names among the files of the repository, with what is wrong about it. -/
def loadTarget (files : String → Option Json) : Option Json → List String × Option Json
  | some (.obj fields) =>
    let target := Json.obj fields
    match get target "path" with
    | some (.str path) =>
      match files path with
      | none => (["target.path does not exist: " ++ path], none)
      | some contract =>
        (require (holds target "name" ((get contract "name").getD .null))
            ("target.name mismatch: manifest=" ++ reprGet target "name" ++ " target="
              ++ reprGet contract "name")
          ++ require (holds target "schema" ((get contract "schema").getD .null))
            ("target.schema mismatch: manifest=" ++ reprGet target "schema" ++ " target="
              ++ reprGet contract "schema"), some contract)
    | _ => (["target.path must be a string"], none)
  | _ => (["target must be an object"], none)

/-- The limits a contract sets on a manifest. -/
structure Limits where
  chunksPerControl : ℤ
  ctrlDepth : ℤ
  constDepth : ℤ
  deriving DecidableEq, Repr

/-- A number the tool relies on. -/
def parameter (params : Json) (name : String) : Except String ℤ :=
  match params.field? name with
  | none => .error ("KeyError: '" ++ name ++ "'")
  | some value =>
    match int? value with
    | none => .error ("TypeError: " ++ name)
    | some number => .ok number

def limits (params : Json) : Except String Limits := do
  let chunksPerControl ← parameter params "control_word_chunks"
  let ctrlDepth ← parameter params "ctrl_mem_depth"
  let constDepth ← parameter params "const_mem_depth"
  return ⟨chunksPerControl, ctrlDepth, constDepth⟩

def checkMemory (contract : Json) : List String :=
  match get contract "memory" with
  | some (.obj fields) =>
    let memory := Json.obj fields
    require (holds memory "model" (.str "shared_multiport_scratchpad"))
        "target.memory.model must be shared_multiport_scratchpad"
      ++ require (holds memory "address_unit" (.str "word"))
        "target.memory.address_unit must be word"
  | _ => ["target.memory must be an object"]

/-- The tiles with a load-store unit. -/
def enabledLsus (contract : Json) : List Json :=
  (((get contract "lsu").bind fun lsu ↦ get lsu "enabled_tiles").bind Json.items?).getD []

def checkPorts (contract params : Json) : List String :=
  let enabled := (enabledLsus contract).length
  match (get params "shared_mem_ports").bind int? with
  | some ports =>
    require (0 < ports) "target shared_mem_ports must be positive"
      ++ require ((enabled : ℤ) ≤ ports) ("target enables " ++ toString enabled
        ++ " LSUs but has only " ++ toString ports ++ " shared memory ports")
  | none => ["target shared_mem_ports must be positive"]

/-! ## The loop -/

def loopKeys : List String := ["enabled", "prologue_cycles", "ii", "trip_count", "epilogue_cycles"]

def loopFields : List String := ["prologue_cycles", "ii", "trip_count", "epilogue_cycles"]

/-- What the check of a loop has found. -/
structure LoopReport where
  errors : List String := []
  enabled : Bool := false
  span : Option ℤ := none
  total : Option ℤ := none
  deriving DecidableEq, Repr

/-- The value of a field that is an integer and no truth value. -/
def exactInt (value : Json) (name : String) : Option ℤ := (get value name).bind Json.int?

def checkLoopField (loop : Json) (field : String) : List String :=
  match exactInt loop field with
  | none => ["loop." ++ field ++ " must be an integer"]
  | some value =>
    require (0 ≤ value ∧ value ≤ 0xffffffff) ("loop." ++ field ++ " must fit unsigned 32 bits")

/-- The four numbers of a loop. -/
def loopNumbers (loop : Json) : Option (ℤ × ℤ × ℤ × ℤ) := do
  let prologue ← exactInt loop "prologue_cycles"
  let ii ← exactInt loop "ii"
  let tripCount ← exactInt loop "trip_count"
  let epilogue ← exactInt loop "epilogue_cycles"
  return (prologue, ii, tripCount, epilogue)

def checkLoop (ctrlDepth : ℤ) : Option Json → LoopReport
  | none => {}
  | some (.obj fields) =>
    let loop := Json.obj fields
    let missingLoop := missing loopKeys (keys loop)
    let extraLoop := missing (keys loop) loopKeys
    let enabled := (get loop "enabled").bind Json.bool?
    let loopEnabled := enabled == some true
    let errors :=
      require missingLoop.isEmpty ("loop missing keys: " ++ reprNames missingLoop)
        ++ require extraLoop.isEmpty ("loop has unsupported keys: " ++ reprNames extraLoop)
        ++ require enabled.isSome "loop.enabled must be a boolean"
        ++ loopFields.flatMap (checkLoopField loop)
    match loopNumbers loop with
    | none => { errors, enabled := loopEnabled }
    | some (prologue, ii, tripCount, epilogue) =>
      let span := prologue + ii + epilogue
      let errors := errors ++ require (span ≤ ctrlDepth)
        ("loop phase span P+II+E exceeds control memory depth: " ++ toString span ++ " > "
          ++ toString ctrlDepth)
      if loopEnabled then
        { errors := errors
            ++ require (0 < ii) "loop.ii must be positive when loop.enabled is true"
            ++ require (0 < tripCount)
              "loop.trip_count must be positive when loop.enabled is true"
          enabled := loopEnabled
          span := some span
          total := some (prologue + tripCount * ii + epilogue) }
      else { errors, enabled := loopEnabled, span := some span }
  | some _ => { errors := ["loop must be an object when present"] }

/-! ## The run -/

def allowedObservationModes : List String :=
  ["trace_only", "top_output", "future_readback", "unsupported"]

def checkRunCycles (ctrlDepth : ℤ) (loop : LoopReport) (run : Json) : List String :=
  match (get run "run_cycles").bind int? with
  | none => ["run.run_cycles must be an integer"]
  | some runCycles =>
    match loop.enabled, loop.total with
    | true, some total =>
      require (runCycles == total) ("run.run_cycles must equal P+trip_count*II+E ("
        ++ toString total ++ ") in loop mode")
    | _, _ =>
      require (0 < runCycles ∧ runCycles < ctrlDepth)
        ("run.run_cycles must be in [1, " ++ toString (ctrlDepth - 1) ++ "]")

def checkRun (ctrlDepth : ℤ) (loop : LoopReport) : Option Json → Except String (List String)
  | some (.obj fields) =>
    let run := Json.obj fields
    match get run "result_observation" with
    | some (.obj fields) => do
      let mode ← key (get (.obj fields) "mode")
      return checkRunCycles ctrlDepth loop run
        ++ require (allowedObservationModes.any fun allowed ↦ mode == .str allowed)
          ("unsupported result_observation mode: " ++ reprGet (.obj fields) "mode")
    | _ => .ok (checkRunCycles ctrlDepth loop run ++ ["run.result_observation must be an object"])
  | _ => .ok ["run must be an object"]

/-! ## The tiles -/

/-- Walk the entries of a list with their places, collecting messages and a state. -/
def walk {σ : Type} (check : ℕ → Json → σ → List String × σ) :
    ℕ → List Json → σ → List String × σ
  | _, [], state => ([], state)
  | index, item :: items, state =>
    let first := check index item state
    let rest := walk check (index + 1) items first.2
    (first.1 ++ rest.1, rest.2)

def checkInt (value : Json) (label name : String) : List String :=
  require ((get value name).bind int?).isSome (label ++ "." ++ name ++ " must be an integer")

def checkCoordinate (value : Json) (label name : String) (bound : ℤ) : List String :=
  match (get value name).bind int? with
  | none => []
  | some number => require (0 ≤ number ∧ number < bound)
    (label ++ "." ++ name ++ " out of range: " ++ toString number)

def checkTileCoord (params : Json) (label : String) (tile : Json) :
    Except String (List String) := do
  let rows ← parameter params "array_rows"
  let cols ← parameter params "array_cols"
  return checkInt tile label "row" ++ checkInt tile label "col"
    ++ checkCoordinate tile label "row" rows ++ checkCoordinate tile label "col" cols

def checkChunks (limits : Limits) (label : String) : Option Json → List String
  | some (.arr chunks) =>
    require ((chunks.length : ℤ) == limits.chunksPerControl)
        (label ++ ".chunks length must be " ++ toString limits.chunksPerControl)
      ++ chunks.zipIdx.flatMap fun chunk ↦ require (isHex32 (some chunk.1))
        (label ++ ".chunks[" ++ toString chunk.2 ++ "] must be 32-bit hex string")
  | _ => [label ++ ".chunks must be a list"]

/-- One word of a control memory; the state has the addresses so far. -/
def checkControlEntry (limits : Limits) (label : String) (index : ℕ) (entry : Json)
    (seen : List ℤ) : List String × List ℤ :=
  let entryLabel := label ++ ".control[" ++ toString index ++ "]"
  match entry with
  | .obj fields =>
    let chunks := checkChunks limits entryLabel (get (.obj fields) "chunks")
    match (get (.obj fields) "pc").bind int? with
    | none => ([entryLabel ++ ".pc must be an integer"] ++ chunks, seen)
    | some pc =>
      (require (0 ≤ pc ∧ pc < limits.ctrlDepth) (entryLabel ++ ".pc out of range: " ++ toString pc)
        ++ require (!seen.contains pc) ("duplicate control pc in " ++ label ++ ": " ++ toString pc)
        ++ chunks, pc :: seen)
  | _ => ([entryLabel ++ " must be an object"], seen)

def reprInts (values : List ℤ) : String := repr (.arr (values.map Json.num))

/-- The addresses of a control memory against those of the loop. -/
def checkSpan (label : String) (loop : LoopReport) (seen : List ℤ) : List String :=
  match loop.enabled, loop.span with
  | true, some span =>
    let expected := (List.range span.toNat).map fun pc : ℕ ↦ (pc : ℤ)
    let missingPc := (expected.filter fun pc ↦ !seen.contains pc).insertionSort (· ≤ ·)
    let extraPc := (seen.filter fun pc ↦ !expected.contains pc).dedup.insertionSort (· ≤ ·)
    require missingPc.isEmpty
        (label ++ ".control missing loop phase PCs: " ++ reprInts missingPc)
      ++ require extraPc.isEmpty
        (label ++ ".control has PCs outside loop phase span: " ++ reprInts extraPc)
  | _, _ => []

def checkControl (limits : Limits) (loop : LoopReport) (label : String) :
    Option Json → List String
  | some (.arr control) =>
    let report := walk (checkControlEntry limits label) 0 control []
    require (!control.isEmpty) (label ++ ".control must be a non-empty list") ++ report.1
      ++ checkSpan label loop report.2
  | _ => [label ++ ".control must be a non-empty list"]

def checkConstEntry (limits : Limits) (label : String) (index : ℕ) (entry : Json)
    (seen : List ℤ) : List String × List ℤ :=
  let entryLabel := label ++ ".const_memory[" ++ toString index ++ "]"
  match entry with
  | .obj fields =>
    let value := require (isHex32 (get (.obj fields) "value"))
      (entryLabel ++ ".value must be 32-bit hex string")
    match (get (.obj fields) "addr").bind int? with
    | none => ([entryLabel ++ ".addr must be an integer"] ++ value, seen)
    | some addr =>
      (require (0 ≤ addr ∧ addr < limits.constDepth)
          (entryLabel ++ ".addr out of range: " ++ toString addr)
        ++ require (!seen.contains addr)
          ("duplicate const addr in " ++ label ++ ": " ++ toString addr)
        ++ value, addr :: seen)
  | _ => ([entryLabel ++ " must be an object"], seen)

def checkConstMemory (limits : Limits) (label : String) : Option Json → List String
  | some (.arr entries) => (walk (checkConstEntry limits label) 0 entries []).1
  | _ => [label ++ ".const_memory must be a list"]

/-- One word of the scratchpad; the state has the addresses of all tiles and where they are. -/
def checkScratchEntry (scratchDepth : ℤ) (label : String) (index : ℕ) (entry : Json)
    (seen : List (ℤ × String)) : List String × List (ℤ × String) :=
  let entryLabel := label ++ ".scratchpad_preload[" ++ toString index ++ "]"
  match entry with
  | .obj fields =>
    let value := require (isHex32 (get (.obj fields) "value"))
      (entryLabel ++ ".value must be 32-bit hex string")
    match (get (.obj fields) "addr").bind int? with
    | none => ([entryLabel ++ ".addr must be an integer"] ++ value, seen)
    | some addr =>
      let range := require (0 ≤ addr ∧ addr < scratchDepth)
        (entryLabel ++ ".addr out of range: " ++ toString addr)
      match seen.lookup addr with
      | some first =>
        (range ++ ["duplicate global scratchpad preload address " ++ toString addr ++ ": "
          ++ first ++ " and " ++ entryLabel] ++ value, seen)
      | none => (range ++ value, (addr, entryLabel) :: seen)
  | _ => ([entryLabel ++ " must be an object"], seen)

def checkScratchpad (scratchDepth : ℤ) (label : String) (seen : List (ℤ × String)) :
    Option Json → List String × List (ℤ × String)
  | some (.arr entries) => walk (checkScratchEntry scratchDepth label) 0 entries seen
  | _ => ([label ++ ".scratchpad_preload must be a list"], seen)

def requiredTileKeys : List String :=
  ["row", "col", "control", "const_memory", "scratchpad_preload"]

/-- The tiles and the scratchpad addresses so far. -/
structure TileState where
  tiles : List (Key × Key) := []
  scratch : List (ℤ × String) := []

def reprKey : Key → String
  | .none => "None"
  | .int value => toString value
  | .str value => value

def checkTile (params : Json) (limits : Limits) (scratchDepth : ℤ) (loop : LoopReport) (index : ℕ)
    (tile : Json) (state : TileState) : Except String (List String × TileState) :=
  let label := "program.tiles[" ++ toString index ++ "]"
  match tile with
  | .obj fields => do
    let missingTile := missing requiredTileKeys (keys (.obj fields))
    let coordinates ← checkTileCoord params label (.obj fields)
    let row ← key (get (.obj fields) "row")
    let col ← key (get (.obj fields) "col")
    let scratch := checkScratchpad scratchDepth label state.scratch
      (get (.obj fields) "scratchpad_preload")
    return (require missingTile.isEmpty (label ++ " missing keys: " ++ reprNames missingTile)
      ++ coordinates
      ++ require (!state.tiles.contains (row, col))
        ("duplicate tile image for row=" ++ reprKey row ++ " col=" ++ reprKey col)
      ++ checkControl limits loop label (get (.obj fields) "control")
      ++ checkConstMemory limits label (get (.obj fields) "const_memory")
      ++ scratch.1, ⟨(row, col) :: state.tiles, scratch.2⟩)
  | _ => .ok ([label ++ " must be an object"], state)

def checkTiles (params : Json) (limits : Limits) (scratchDepth : ℤ) (loop : LoopReport) :
    ℕ → List Json → TileState → Except String (List String)
  | _, [], _ => .ok []
  | index, tile :: tiles, state => do
    let first ← checkTile params limits scratchDepth loop index tile state
    let rest ← checkTiles params limits scratchDepth loop (index + 1) tiles first.2
    return first.1 ++ rest

/-- The images of the tiles; the flag says whether the check goes on after them. -/
def checkProgram (params : Json) (limits : Limits) (scratchDepth : ℤ) (loop : LoopReport) :
    Option Json → Except String (List String × Bool)
  | some (.obj fields) =>
    let program := Json.obj fields
    let layout := require (holds program "format" (.str "explicit_tile_images"))
        "program.format must be explicit_tile_images"
      ++ require (holds program "control_word_encoding" (.str "lsb_first_32bit_chunks"))
        "program.control_word_encoding must be lsb_first_32bit_chunks"
    match get program "tiles" with
    | some (.arr tiles) => do
      let errors ← checkTiles params limits scratchDepth loop 0 tiles {}
      return (layout ++ require (!tiles.isEmpty) "program.tiles must be a non-empty list" ++ errors,
        true)
    | _ => .ok (layout ++ ["program.tiles must be a non-empty list"], false)
  | _ => .ok (["program must be an object"], false)

/-- The symbolic graph that may come with a manifest. -/
def checkSymbolic : Option Json → List String
  | none => []
  | some (.obj fields) =>
    let isList (name : String) : Bool :=
      match (Json.obj fields).field? name with
      | none => true
      | some (.arr _) => true
      | some _ => false
    require (isList "nodes") "symbolic_dfg.nodes must be a list"
      ++ require (isList "edges") "symbolic_dfg.edges must be a list"
  | some _ => ["symbolic_dfg must be an object when present"]

/-! ## The manifest -/

def requiredTopLevel : List String := ["schema", "name", "version", "target", "run", "program"]

def checkTopLevel (manifest : Json) : List String :=
  let missingTop := missing requiredTopLevel (keys manifest)
  require missingTop.isEmpty ("missing top-level keys: " ++ reprNames missingTop)
    ++ require (holds manifest "schema" (.str "cgra.program_manifest.v1"))
      ("schema must be cgra.program_manifest.v1, got " ++ reprGet manifest "schema")
    ++ require
      (match get manifest "name" with
        | some (.str name) => name != ""
        | _ => false)
      "name must be a non-empty string"
    ++ require (holds manifest "version" (.num 1))
      ("version must be 1, got " ++ reprGet manifest "version")

/-- The checks that need the limits of the contract. -/
def checkAgainst (contract params manifest : Json) (limits : Limits) (scratchDepth : ℤ) :
    Except String (List String) := do
  let loop := checkLoop limits.ctrlDepth (get manifest "loop")
  let run ← checkRun limits.ctrlDepth loop (get manifest "run")
  let program ← checkProgram params limits scratchDepth loop (get manifest "program")
  return checkPorts contract params ++ loop.errors ++ run ++ program.1
    ++ if program.2 then checkSymbolic (get manifest "symbolic_dfg") else []

def checkContract (contract manifest : Json) : Except String (List String) :=
  match contract.field? "parameters" with
  | none => .error "KeyError: 'parameters'"
  | some params => do
    let limits ← limits params
    let memory := checkMemory contract
    match (get params "scratchpad_depth").bind int? with
    | none => return memory ++ ["target scratchpad_depth must be positive"]
    | some scratchDepth =>
      if scratchDepth ≤ 0 then return memory ++ ["target scratchpad_depth must be positive"]
      else return memory ++ (← checkAgainst contract params manifest limits scratchDepth)

def validateProgram (files : String → Option Json) (manifest : Json) :
    Except String (List String) :=
  match manifest with
  | .obj fields =>
    let top := checkTopLevel (.obj fields)
    match loadTarget files (get (.obj fields) "target") with
    | (target, none) => .ok (top ++ target)
    | (target, some contract) => do
      return top ++ target ++ (← checkContract contract (.obj fields))
  | _ => .ok ["manifest must be a JSON object"]

end PredicatedMesh.ProgramValidator
