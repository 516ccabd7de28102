import PredicatedMesh.Library.Json
import PredicatedMesh.Lowering.TargetLowering

/-!
# The program manifest

A lowered program is written as a manifest: a loop descriptor, and for every tile the words of its
control memory, its constants and its part of the initial scratchpad. A kernel that is never
repeated is replayed once, as the descriptor needs a positive count.
-/

namespace PredicatedMesh

structure TargetLoweringOptions where
  programName : String := "cgra-program"
  targetPath : String := ""
  observation : String := "semantic schedule"
  scratchpadPreload : List (ℕ × BitVec 32) := []

namespace ProgramManifestBuilder

def chunks (control : EncodedControl) : Json :=
  .arr ((List.ofFn control.chunks).map fun chunk ↦ .str (Hex.word chunk))

/-- A word of a control memory and its address. -/
def controlEntry (pc : ℕ) (control : EncodedControl) : Json :=
  .obj [("pc", .nat pc), ("chunks", chunks control)]

/-- The words of a cycle, one more for every tile. -/
def addCycle (controls : List (List Json)) (cycle : List EncodedControl × ℕ) :
    Except String (List (List Json)) :=
  controls.zipIdx.mapM fun entry ↦
    match cycle.1[entry.2]? with
    | none => .error "vector::_M_range_check"
    | some control => .ok (entry.1 ++ [controlEntry cycle.2 control])

/-- The constants of an image, each address once. -/
def constantEntries : List ConstantAllocation → List ℕ → List Json
  | [], _ => []
  | allocation :: allocations, emitted =>
    if allocation.address ∈ emitted then constantEntries allocations emitted
    else
      .obj [("addr", .nat allocation.address),
        ("value", .str (Hex.word (BitVec.ofNat 32 allocation.bits)))]
        :: constantEntries allocations (allocation.address :: emitted)

def scratchpadEntries (preload : List (ℕ × BitVec 32)) : List Json :=
  preload.map fun entry ↦ .obj [("addr", .nat entry.1), ("value", .str (Hex.word entry.2))]

/-- The image of a tile; the initial scratchpad belongs to the first. -/
def tileImage (row col : ℕ) (control constants scratchpad : List Json) : Json :=
  .obj [("row", .nat row), ("col", .nat col), ("control", .arr control),
    ("const_memory", .arr constants),
    ("scratchpad_preload", .arr (if row = 0 ∧ col = 0 then scratchpad else []))]

def replayTripCount (encoded : EncodedTargetProgram) : ℕ :=
  if encoded.kernelRepeatCount = 0 then 1 else encoded.kernelRepeatCount

section Build

variable (target : TargetModel) (program : TargetControlProgram) (encoded : EncodedTargetProgram)
variable (image : ConstantImage) (options : TargetLoweringOptions)

/-- The number of cycles, a `uint64`. -/
def runCycles : ℕ :=
  (encoded.prologue.length + replayTripCount encoded * program.ii + encoded.epilogue.length)
    % 2 ^ 64

/-- The words of every tile, in the order of the tiles. -/
def tileControls : Except String (List (List Json)) :=
  (encoded.prologue ++ encoded.kernelBody ++ encoded.epilogue).zipIdx.foldlM addCycle
    (List.replicate (target.array.rows * target.array.cols) [])

def tileImages (controls : List (List Json)) : List Json :=
  let constants := constantEntries image.entries []
  let scratchpad := scratchpadEntries options.scratchpadPreload
  (List.range target.array.rows).flatMap fun row ↦ (List.range target.array.cols).map fun col ↦
    tileImage row col (controls[row * target.array.cols + col]?.getD []) constants scratchpad

def build : Except String Json := do
  let controls ← tileControls target encoded
  return .obj
    [("schema", .str "cgra.program_manifest.v1"),
      ("name", .str options.programName),
      ("version", .nat 1),
      ("target", .obj
        [("schema", .str ("cgra.target.v" ++ toString target.contractVersion)),
          ("name", .str target.name),
          ("path", .str options.targetPath)]),
      ("run", .obj
        [("run_cycles", .nat (runCycles program encoded)),
          ("result_observation", .obj
            [("mode", .str "trace_only"), ("description", .str options.observation)])]),
      ("loop", .obj
        [("enabled", .bool true),
          ("prologue_cycles", .nat encoded.prologue.length),
          ("ii", .nat program.ii),
          ("trip_count", .nat (replayTripCount encoded)),
          ("epilogue_cycles", .nat encoded.epilogue.length)]),
      ("program", .obj
        [("format", .str "explicit_tile_images"),
          ("control_word_encoding", .str "lsb_first_32bit_chunks"),
          ("tiles", .arr (tileImages target image options controls))])]

end Build

end ProgramManifestBuilder

/-- Lower a schedule to a program and its manifest. -/
def TargetLowering.lowerToManifest (codec : ControlCodec) (dfg : TargetDFG) (target : TargetModel)
    (mapping : RFAllocatedMapping) (schedule : MaterializedSchedule)
    (options : TargetLoweringOptions) : Except LoweringError (LoweredProgram × Json) := do
  let result ← lower codec dfg target mapping schedule
  let manifest ← Lowerer.ofString (ProgramManifestBuilder.build target result.controls
    result.encoded result.constantImage options)
  return (result, manifest)

/-! ## The words of a tile -/

namespace ProgramManifestBuilder

/-- The entries of a tile for some cycles. -/
def entriesOf (cycles : List (List EncodedControl × ℕ)) (index : ℕ) : List Json :=
  cycles.filterMap fun cycle ↦ cycle.1[index]?.map (controlEntry cycle.2)

theorem addCycle_eq_ok {controls : List (List Json)} {cycle : List EncodedControl × ℕ}
    (h : controls.length ≤ cycle.1.length) :
    ∃ next, addCycle controls cycle = .ok next ∧ next.length = controls.length ∧
      ∀ index images, controls[index]? = some images →
        next[index]? = some (images ++ entriesOf [cycle] index) := by
  have hentry : ∀ entry ∈ controls.zipIdx, ∃ next : List Json,
      (match cycle.1[entry.2]? with
        | none => Except.error "vector::_M_range_check"
        | some control => .ok (entry.1 ++ [controlEntry cycle.2 control])) = .ok next := by
    rintro ⟨images, index⟩ hmem
    have hlt : index < cycle.1.length := by
      have hget := List.mem_zipIdx_iff_getElem?.mp hmem
      exact (List.getElem?_eq_some_iff.mp hget).1.trans_le h
    rw [List.getElem?_eq_getElem hlt]
    exact ⟨_, rfl⟩
  obtain ⟨next, hnext⟩ := Scan.exists_mapM hentry
  have hall := Scan.mapM_eq_ok.mp hnext
  refine ⟨next, hnext, by rw [← hall.length_eq, List.length_zipIdx], ?_⟩
  intro index images hget
  have hzip : controls.zipIdx[index]? = some (images, index) := by
    rw [List.getElem?_zipIdx, hget]
    simp
  have hin : index < controls.length := (List.getElem?_eq_some_iff.mp hget).1
  have hlt : index < cycle.1.length := hin.trans_le h
  have hnextIn : index < next.length := by
    rw [← hall.length_eq, List.length_zipIdx]
    exact hin
  have hresult : next[index]? = some next[index] := List.getElem?_eq_getElem hnextIn
  have hstep := Scan.mapM_getElem? hnext hzip hresult
  simp only [List.getElem?_eq_getElem hlt, Except.ok.injEq] at hstep
  rw [hresult, ← hstep, entriesOf]
  simp [List.getElem?_eq_getElem hlt]

/-- **The words of the tiles**: those of every cycle, in turn. -/
theorem addCycles_eq_ok {cycles : List (List EncodedControl × ℕ)} {controls : List (List Json)}
    (h : ∀ cycle ∈ cycles, controls.length ≤ cycle.1.length) :
    ∃ next, cycles.foldlM addCycle controls = .ok next ∧ next.length = controls.length ∧
      ∀ index images, controls[index]? = some images →
        next[index]? = some (images ++ entriesOf cycles index) := by
  induction cycles generalizing controls with
  | nil => exact ⟨controls, rfl, rfl, fun index images hget ↦ by simpa [entriesOf] using hget⟩
  | cons cycle cycles ih =>
    obtain ⟨middle, hmiddle, hlength, hfirst⟩ := addCycle_eq_ok (h cycle List.mem_cons_self)
    obtain ⟨next, hnext, hlength', hrest⟩ := ih fun later hlater ↦
      hlength ▸ h later (List.mem_cons_of_mem _ hlater)
    refine ⟨next, Scan.foldlM_cons_eq_ok.mpr ⟨middle, hmiddle, hnext⟩, hlength'.trans hlength, ?_⟩
    intro index images hget
    rw [hrest index _ (hfirst index images hget), entriesOf, List.append_assoc,
      entriesOf, entriesOf, ← List.filterMap_append, List.singleton_append]

end ProgramManifestBuilder

end PredicatedMesh
