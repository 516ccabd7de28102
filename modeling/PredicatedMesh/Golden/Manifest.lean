import PredicatedMesh.Library.Json
import PredicatedMesh.Golden.Execution

/-!
# Reading a manifest

What the golden model takes from a manifest: the cycles it runs and, for every tile, the words of
the control memory. A document that lacks a field is not read.
-/

namespace PredicatedMesh.Golden

/-- The descriptor of an enabled loop. -/
def loopDescriptor (loop : Json) : Option LoopDescriptor := do
  let prologue ← (← loop.field? "prologue_cycles").nat?
  let ii ← (← loop.field? "ii").nat?
  let tripCount ← (← loop.field? "trip_count").nat?
  let epilogue ← (← loop.field? "epilogue_cycles").nat?
  return ⟨prologue, ii, tripCount, epilogue⟩

def loopEnabled (loop : Json) : Bool :=
  loop.isObj && ((loop.field? "enabled").bind Json.bool? == some true)

def runCycles (manifest : Json) : Option ℕ := do
  (← (← manifest.field? "run").field? "run_cycles").nat?

/-- The cycles of a manifest. -/
def executionSteps (manifest : Json) : Option (List ExecutionStep) := do
  match manifest.field? "loop" with
  | some loop =>
    if loopEnabled loop then return (← loopDescriptor loop).executionSteps
    else return manifestExecutionSteps none (← runCycles manifest)
  | none => return manifestExecutionSteps none (← runCycles manifest)

/-- The images of the tile in a row and column. -/
def tileImages (manifest : Json) (row col : ℕ) : Option (List Json) := do
  let tiles ← (← (← manifest.field? "program").field? "tiles").items?
  return tiles.filter fun image ↦
    (image.field? "row").bind Json.nat? == some row &&
      (image.field? "col").bind Json.nat? == some col

/-- The entries of an image for an address. -/
def controlEntries (image : Json) (pc : ℕ) : Option (List Json) := do
  let control ← (← image.field? "control").items?
  return control.filter fun entry ↦ (entry.field? "pc").bind Json.nat? == some pc

/-- A chunk as an integer. -/
def readChunk : Json → Option ℤ
  | .str text => Hex.readInt text
  | .num value => some value
  | _ => none

/-- The chunks of an entry. -/
def entryChunks (entry : Json) : Option (List ℤ) := do
  (← (← entry.field? "chunks").items?).mapM readChunk

end PredicatedMesh.Golden
