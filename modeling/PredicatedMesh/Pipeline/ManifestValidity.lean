import PredicatedMesh.Lowering.Replay
import PredicatedMesh.Pipeline.CompileDFG
import PredicatedMesh.Tools.ProgramValidator

/-!
# Emitted manifests and their validation

The validator reads a manifest against the target file it names. All but two of its checks are met
by every manifest of a successful lowering: the images of the tiles have each address once, the
constants have been allocated inside the memory, the run has as many cycles as the loop. What the
compiler never looks at is the depth of the control memory and the width of the loop counters. A
program that is too long for the one, or repeated too often for the other, is emitted and then
refused.
-/

namespace PredicatedMesh

open ProgramValidator Scan

/-! ## The shipped contracts -/

/-- The contracts the loader accepts; they differ in their names and versions. -/
inductive ShippedContract
  | v2
  | v3
  deriving DecidableEq, Repr

namespace ShippedContract

def name : ShippedContract → String
  | .v2 => "cgra_v2_shared4p"
  | .v3 => "cgra_v3_shared4p"

def version : ShippedContract → ℕ
  | .v2 => 2
  | .v3 => 3

/-- A contract as loaded. -/
def target (contract : ShippedContract) : TargetModel :=
  { shippedTarget with name := contract.name, contractVersion := contract.version }

/-- The file of a contract, trimmed to the fields that the validator reads. -/
def file (contract : ShippedContract) : Json :=
  .obj
    [("schema", .str ("cgra.target.v" ++ toString contract.version)),
      ("name", .str contract.name),
      ("parameters", .obj
        [("array_rows", .nat 4), ("array_cols", .nat 4), ("const_mem_depth", .nat 16),
          ("ctrl_mem_depth", .nat 256), ("scratchpad_depth", .nat 4096),
          ("shared_mem_ports", .nat 4), ("control_word_chunks", .nat 4)]),
      ("memory", .obj
        [("model", .str "shared_multiport_scratchpad"), ("address_unit", .str "word")]),
      ("lsu", .obj
        [("enabled_tiles", .arr
          [.obj [("row", .nat 0), ("col", .nat 0), ("port_id", .nat 0)],
            .obj [("row", .nat 1), ("col", .nat 0), ("port_id", .nat 1)],
            .obj [("row", .nat 2), ("col", .nat 0), ("port_id", .nat 2)],
            .obj [("row", .nat 3), ("col", .nat 0), ("port_id", .nat 3)]])])]

def params : Json :=
  .obj
    [("array_rows", .nat 4), ("array_cols", .nat 4), ("const_mem_depth", .nat 16),
      ("ctrl_mem_depth", .nat 256), ("scratchpad_depth", .nat 4096),
      ("shared_mem_ports", .nat 4), ("control_word_chunks", .nat 4)]

def limits : Limits := ⟨4, 256, 16⟩

/-- Nothing is put in front of what is found. -/
theorem nil_append_found (found : Except String (List String)) :
    (do return [] ++ (← found) : Except String (List String)) = found := by
  rcases found with _ | _
  · rfl
  · rfl

theorem checkContract_eq (contract : ShippedContract) (manifest : Json) :
    checkContract contract.file manifest
      = checkAgainst contract.file params manifest limits 4096 := by
  rcases contract with _ | _
  · exact nil_append_found _
  · exact nil_append_found _

theorem checkPorts_eq (contract : ShippedContract) : checkPorts contract.file params = [] := by
  rcases contract with _ | _ <;> decide

end ShippedContract

/-! ## Words and constants -/

theorem isHex32_word (w : BitVec 32) : isHex32 (some (.str (Hex.word w))) = true := by
  have hread : Hex.readInt (String.ofList (Hex.digits 8 w.toNat))
      = some ((w.toNat % 16 ^ 8 : ℕ) : ℤ) := Hex.readInt_digits (by decide)
  rw [isHex32, Hex.toList_word]
  simp only [List.drop_succ_cons, List.drop_zero, Hex.length_digits, hread]
  rfl

theorem checkChunks_chunks (label : String) (word : EncodedControl) :
    checkChunks ShippedContract.limits label (some (ProgramManifestBuilder.chunks word)) = [] := by
  simp [checkChunks, ProgramManifestBuilder.chunks, ShippedContract.limits, isHex32_word, require]

/-- Addresses of constants are numbers of distinct values, so there are fewer than the memory has.
-/
theorem address_lt_of_allocateFrom {target : TargetModel} {constants : List ConstantValue}
    {valueAddresses : List (ℕ × ℕ)} {entries : List ConstantAllocation}
    (hbound : ∀ entry ∈ valueAddresses, entry.2 < target.constantMemoryDepth)
    (h : ConstantAllocator.allocateFrom target constants valueAddresses = .ok entries) :
    ∀ entry ∈ entries, entry.address < target.constantMemoryDepth := by
  induction constants generalizing valueAddresses entries with
  | nil =>
    obtain rfl := Except.ok.inj h
    exact fun entry hentry ↦ absurd hentry List.not_mem_nil
  | cons constant constants ih =>
    rw [ConstantAllocator.allocateFrom] at h
    simp only at h
    split at h
    · rename_i entry hfind
      obtain ⟨rest, hrest, h⟩ := bind_eq_ok.mp h
      obtain rfl := Except.ok.inj h
      rw [List.forall_mem_cons]
      exact ⟨hbound entry (List.mem_of_find?_eq_some hfind), ih hbound hrest⟩
    · split at h
      · cases h
      · rename_i hroom
        obtain ⟨rest, hrest, h⟩ := bind_eq_ok.mp h
        obtain rfl := Except.ok.inj h
        rw [List.forall_mem_cons]
        refine ⟨not_le.mp hroom, ih ?_ hrest⟩
        intro entry hentry
        rcases List.mem_append.mp hentry with hentry | hentry
        · exact hbound entry hentry
        · rw [List.mem_singleton.mp hentry]
          exact not_le.mp hroom

theorem address_lt_of_allocate {dfg : TargetDFG} {target : TargetModel} {image : ConstantImage}
    (h : ConstantAllocator.allocate dfg target = .ok image) :
    ∀ entry ∈ image.entries, entry.address < target.constantMemoryDepth := by
  obtain ⟨entries, hentries, h⟩ := bind_eq_ok.mp h
  obtain rfl := Except.ok.inj h
  intro entry hentry
  exact address_lt_of_allocateFrom (fun _ h ↦ absurd h List.not_mem_nil) hentries entry
    ((List.mem_insertionSort _).mp hentry)

/-! ## The image of a tile -/

section Tile

variable {cycles : List (List EncodedControl)} {index : ℕ} {label : String}

theorem checkControlEntry_clean {n pc : ℕ} {seen : List ℤ} (word : EncodedControl) (hpc : pc < 256)
    (hnew : (pc : ℤ) ∉ seen) :
    checkControlEntry ShippedContract.limits label n (ProgramManifestBuilder.controlEntry pc word)
      seen = ([], (pc : ℤ) :: seen) := by
  have hchunks := checkChunks_chunks (label ++ ".control[" ++ toString n ++ "]") word
  simp [ProgramManifestBuilder.chunks, ShippedContract.limits] at hchunks
  simp [checkControlEntry, ProgramManifestBuilder.controlEntry, ProgramManifestBuilder.chunks,
    ProgramValidator.get, Json.nat, ProgramValidator.int?, ShippedContract.limits, require, hchunks,
    hpc, hnew]

/-- The words of a tile have their addresses in turn. -/
theorem walk_entriesOf (label : String) (hwords : ∀ cycle ∈ cycles, index < cycle.length) :
    ∀ (n start : ℕ) {seen : List ℤ}, start + cycles.length ≤ 256 →
      (∀ pc ∈ seen, pc < (start : ℤ)) →
      ∃ seen', walk (checkControlEntry ShippedContract.limits label) n
          (ProgramManifestBuilder.entriesOf (cycles.zipIdx start) index) seen = ([], seen') ∧
        ∀ pc : ℤ, pc ∈ seen' ↔ pc ∈ seen ∨ (start : ℤ) ≤ pc ∧ pc < start + cycles.length := by
  induction cycles with
  | nil =>
    intro n start seen _ _
    refine ⟨seen, rfl, fun pc ↦ ⟨.inl, ?_⟩⟩
    rintro (h | h)
    · exact h
    · rw [List.length_nil] at h
      omega
  | cons cycle cycles ih =>
    intro n start seen hfits hseen
    have hlt := hwords cycle List.mem_cons_self
    have hentries : ProgramManifestBuilder.entriesOf ((cycle :: cycles).zipIdx start) index
        = ProgramManifestBuilder.controlEntry start cycle[index]
          :: ProgramManifestBuilder.entriesOf (cycles.zipIdx (start + 1)) index := by
      rw [ProgramManifestBuilder.entriesOf, List.zipIdx_cons, List.filterMap_cons]
      simp only [List.getElem?_eq_getElem hlt, Option.map_some]
      rfl
    rw [List.length_cons] at hfits
    have hnew : (start : ℤ) ∉ seen := fun hmem ↦ lt_irrefl _ (hseen _ hmem)
    have hlater : ∀ pc ∈ (start : ℤ) :: seen, pc < ((start + 1 : ℕ) : ℤ) := by
      rw [List.forall_mem_cons]
      refine ⟨by omega, fun pc hpc ↦ ?_⟩
      have hbefore := hseen pc hpc
      omega
    obtain ⟨seen', hwalk, hmem⟩ :=
      ih (fun later h ↦ hwords later (List.mem_cons_of_mem _ h)) (n + 1) (start + 1)
        (by omega) hlater
    refine ⟨seen', ?_, fun pc ↦ ?_⟩
    · rw [hentries, walk, checkControlEntry_clean _ (by omega) hnew]
      simp only [hwalk, List.nil_append]
    · rw [hmem, List.mem_cons, List.length_cons]
      push_cast
      constructor
      · rintro ((rfl | h) | h)
        · exact .inr (by omega)
        · exact .inl h
        · exact .inr (by omega)
      · rintro (h | h)
        · exact .inl (.inr h)
        · by_cases heq : pc = start
          · exact .inl (.inl heq)
          · exact .inr (by omega)

/-- A tile with all addresses of the span and no others is fine. -/
theorem checkSpan_eq_nil {loop : LoopReport} {seen : List ℤ} (span : ℕ)
    (hspan : loop.span = some (span : ℤ))
    (hseen : ∀ pc : ℤ, pc ∈ seen ↔ 0 ≤ pc ∧ pc < span) : checkSpan label loop seen = [] := by
  have hmissing : (((List.range span).map fun pc : ℕ ↦ (pc : ℤ)).filter fun pc ↦ !seen.contains pc)
      = [] := by
    rw [List.filter_eq_nil_iff]
    intro pc hpc
    obtain ⟨offset, hoffset, rfl⟩ := List.mem_map.mp hpc
    rw [List.mem_range] at hoffset
    simp [hseen, hoffset]
  have hextra : (seen.filter fun pc ↦ !((List.range span).map fun pc : ℕ ↦ (pc : ℤ)).contains pc)
      = [] := by
    rw [List.filter_eq_nil_iff]
    intro pc hpc
    rw [hseen] at hpc
    obtain ⟨offset, rfl⟩ := Int.eq_ofNat_of_zero_le hpc.1
    simp only [Bool.not_eq_true', Bool.not_eq_false, List.contains_iff_mem, List.mem_map]
    exact ⟨offset, List.mem_range.mpr (by omega), rfl⟩
  rw [checkSpan, hspan]
  split
  · rename_i heq
    obtain rfl := Option.some.inj heq
    simp only [Int.toNat_natCast, hmissing, hextra]
    rfl
  · rfl

theorem checkControl_entriesOf {loop : LoopReport} (hwords : ∀ cycle ∈ cycles, index < cycle.length)
    (hspan : loop.span = some (cycles.length : ℤ)) (hfits : cycles.length ≤ 256)
    (hne : cycles ≠ []) :
    checkControl ShippedContract.limits loop label
      (some (.arr (ProgramManifestBuilder.entriesOf cycles.zipIdx index))) = [] := by
  obtain ⟨seen, hwalk, hseen⟩ := walk_entriesOf label hwords 0 0 (by omega)
    fun _ h ↦ absurd h List.not_mem_nil
  have hfilled : (ProgramManifestBuilder.entriesOf cycles.zipIdx index).isEmpty = false := by
    rcases cycles with _ | ⟨cycle, cycles⟩
    · exact absurd rfl hne
    · rw [ProgramManifestBuilder.entriesOf, List.zipIdx_cons, List.filterMap_cons]
      simp only [List.getElem?_eq_getElem (hwords cycle List.mem_cons_self), Option.map_some]
      rfl
  have hclean : checkSpan label loop seen = [] := by
    refine checkSpan_eq_nil cycles.length hspan fun pc ↦ ?_
    rw [hseen]
    simp
  rw [checkControl, hwalk, hclean, hfilled]
  rfl

/-- The constants of a tile have each address once. -/
theorem walk_constantEntries {allocations : List ConstantAllocation}
    (haddress : ∀ allocation ∈ allocations, allocation.address < 16) :
    ∀ {n : ℕ} {emitted : List ℕ} {seen : List ℤ},
      (∀ address : ℕ, (address : ℤ) ∈ seen → address ∈ emitted) →
      (walk (checkConstEntry ShippedContract.limits label) n
        (ProgramManifestBuilder.constantEntries allocations emitted) seen).1 = [] := by
  induction allocations with
  | nil => exact fun _ ↦ rfl
  | cons allocation allocations ih =>
    intro n emitted seen hseen
    rw [List.forall_mem_cons] at haddress
    rw [ProgramManifestBuilder.constantEntries]
    by_cases hmem : allocation.address ∈ emitted
    · rw [if_pos hmem]
      exact ih haddress.2 hseen
    · have hnew : (allocation.address : ℤ) ∉ seen := fun h ↦ hmem (hseen _ h)
      have hentry : checkConstEntry ShippedContract.limits label n
          (.obj [("addr", .nat allocation.address),
            ("value", .str (Hex.word (BitVec.ofNat 32 allocation.bits)))]) seen
          = ([], (allocation.address : ℤ) :: seen) := by
        simp [checkConstEntry, ProgramValidator.get, Json.nat, ProgramValidator.int?, isHex32_word,
          require, ShippedContract.limits, haddress.1, hnew]
      rw [if_neg hmem, walk, hentry]
      refine ih haddress.2 fun address h ↦ ?_
      rcases List.mem_cons.mp h with h | h
      · exact List.mem_cons.mpr (.inl (Int.ofNat_inj.mp h))
      · exact List.mem_cons_of_mem _ (hseen _ h)

/-- Distinct words of the scratchpad are initialised once. -/
theorem walk_scratchpadEntries {preload : List (ℕ × BitVec 32)}
    (hnodup : (preload.map Prod.fst).Nodup) (hdepth : ∀ entry ∈ preload, entry.1 < 4096) :
    ∀ {n : ℕ} {seen : List (ℤ × String)}, (∀ entry ∈ preload, seen.lookup (entry.1 : ℤ) = none) →
      (walk (checkScratchEntry 4096 label) n
        (ProgramManifestBuilder.scratchpadEntries preload) seen).1 = [] := by
  induction preload with
  | nil => exact fun _ ↦ rfl
  | cons first preload ih =>
    intro n seen hseen
    rw [List.forall_mem_cons] at hdepth hseen
    rw [List.map_cons, List.nodup_cons] at hnodup
    have hentry : checkScratchEntry 4096 label n
        (.obj [("addr", .nat first.1), ("value", .str (Hex.word first.2))]) seen
        = ([], ((first.1 : ℤ), label ++ ".scratchpad_preload[" ++ toString n ++ "]") :: seen) := by
      simp [checkScratchEntry, ProgramValidator.get, Json.nat, ProgramValidator.int?, isHex32_word,
        require, hdepth.1, hseen.1]
    rw [ProgramManifestBuilder.scratchpadEntries, List.map_cons, walk, hentry]
    refine ih hnodup.2 hdepth.2 fun entry hmem ↦ ?_
    have hne : (entry.1 : ℤ) ≠ first.1 := by
      intro heq
      exact hnodup.1 (List.mem_map.mpr ⟨entry, hmem, Int.ofNat_inj.mp heq⟩)
    rw [List.lookup_cons, beq_eq_false_iff_ne.mpr hne]
    exact hseen.2 entry hmem

/-- The coordinates of a tile as the tool keeps them. -/
def tileKey (coord : ℕ × ℕ) : Key × Key := (.int coord.1, .int coord.2)

theorem tileKey_injective : Function.Injective tileKey := by
  rintro ⟨row, col⟩ ⟨row', col'⟩ h
  obtain ⟨hrow, hcol⟩ := Prod.mk.inj h
  exact Prod.ext (Int.ofNat_inj.mp (Key.int.inj hrow)) (Int.ofNat_inj.mp (Key.int.inj hcol))

/-- A tile is checked without a message if its parts are; only the first adds to the scratchpad. -/
def CleanAt (loop : LoopReport) (image : Json) (coord : ℕ × ℕ) : Prop :=
  ∀ (index : ℕ) (state : TileState), tileKey coord ∉ state.tiles →
    (coord = (0, 0) → state.scratch = []) →
    ∃ scratch, checkTile ShippedContract.params ShippedContract.limits 4096 loop index image state
        = .ok ([], ⟨tileKey coord :: state.tiles, scratch⟩) ∧
      (coord ≠ (0, 0) → scratch = state.scratch)

theorem checkTileCoord_tileImage (label : String) {row col : ℕ} (hrow : row < 4) (hcol : col < 4)
    (control constants scratchpad : List Json) :
    checkTileCoord ShippedContract.params label
      (ProgramManifestBuilder.tileImage row col control constants scratchpad) = .ok [] := by
  have hrows : parameter ShippedContract.params "array_rows" = .ok 4 := by decide
  have hcols : parameter ShippedContract.params "array_cols" = .ok 4 := by decide
  rw [checkTileCoord, hrows, hcols]
  refine bind_eq_ok.mpr ⟨4, rfl, bind_eq_ok.mpr ⟨4, rfl, ?_⟩⟩
  simp [checkInt, checkCoordinate, ProgramManifestBuilder.tileImage, ProgramValidator.get, Json.nat,
    ProgramValidator.int?, require, hrow, hcol]
  rfl

theorem cleanAt_tileImage {loop : LoopReport} {row col : ℕ} {control : List Json}
    {allocations : List ConstantAllocation} {preload : List (ℕ × BitVec 32)}
    (hrow : row < 4) (hcol : col < 4)
    (hcontrol : ∀ label, checkControl ShippedContract.limits loop label (some (.arr control)) = [])
    (haddress : ∀ allocation ∈ allocations, allocation.address < 16)
    (hnodup : (preload.map Prod.fst).Nodup) (hdepth : ∀ entry ∈ preload, entry.1 < 4096) :
    CleanAt loop (ProgramManifestBuilder.tileImage row col control
      (ProgramManifestBuilder.constantEntries allocations [])
      (ProgramManifestBuilder.scratchpadEntries preload)) (row, col) := by
  intro index state hnew hfirst
  have hcoord := checkTileCoord_tileImage ("program.tiles[" ++ index.repr ++ "]") hrow hcol control
    (ProgramManifestBuilder.constantEntries allocations [])
    (ProgramManifestBuilder.scratchpadEntries preload)
  have hconstants : checkConstMemory ShippedContract.limits
      ("program.tiles[" ++ index.repr ++ "]")
      (some (.arr (ProgramManifestBuilder.constantEntries allocations []))) = [] :=
    walk_constantEntries haddress fun _ h ↦ absurd h List.not_mem_nil
  -- the scratchpad of the first tile is the whole preload, that of the others is empty
  obtain ⟨scratch, hscratch, hkept⟩ : ∃ scratch, checkScratchpad 4096
      ("program.tiles[" ++ index.repr ++ "]") state.scratch
      (some (.arr (if row = 0 ∧ col = 0 then ProgramManifestBuilder.scratchpadEntries preload
        else []))) = ([], scratch) ∧ ((row, col) ≠ (0, 0) → scratch = state.scratch) := by
    by_cases hzero : row = 0 ∧ col = 0
    · have hempty : state.scratch = [] := hfirst (by rw [hzero.1, hzero.2])
      refine ⟨_, Prod.ext ?_ rfl, fun hne ↦ absurd (by rw [hzero.1, hzero.2]) hne⟩
      rw [if_pos hzero, hempty, checkScratchpad]
      exact walk_scratchpadEntries hnodup hdepth fun entry _ ↦ rfl
    · rw [if_neg hzero]
      exact ⟨state.scratch, rfl, fun _ ↦ rfl⟩
  refine ⟨scratch, ?_, hkept⟩
  have hkeys : missing requiredTileKeys ["row", "col", "control", "const_memory",
      "scratchpad_preload"] = [] := by decide
  rw [ProgramManifestBuilder.tileImage] at hcoord ⊢
  refine bind_eq_ok.mpr ⟨[], hcoord, bind_eq_ok.mpr ⟨.int row, ?_, bind_eq_ok.mpr
    ⟨.int col, ?_, ?_⟩⟩⟩
  · simp [ProgramValidator.get, Json.nat, key]
  · simp [ProgramValidator.get, Json.nat, key]
  · rw [tileKey] at hnew
    simp [ProgramValidator.get, keys, hcontrol, hconstants, hscratch, hkeys, hnew, require, tileKey]
    rfl

end Tile

/-- Tiles at different places are checked one after the other. -/
theorem checkTiles_clean {loop : LoopReport} {image : ℕ × ℕ → Json} {coords : List (ℕ × ℕ)}
    (hclean : ∀ coord ∈ coords, CleanAt loop (image coord) coord) (hnodup : coords.Nodup) :
    ∀ {index : ℕ} {state : TileState}, (∀ coord ∈ coords, tileKey coord ∉ state.tiles) →
      ((0, 0) ∈ coords → state.scratch = []) →
      checkTiles ShippedContract.params ShippedContract.limits 4096 loop index (coords.map image)
        state = .ok [] := by
  induction coords with
  | nil => exact fun _ _ ↦ rfl
  | cons coord coords ih =>
    intro index state hnew hscratch
    rw [List.forall_mem_cons] at hclean hnew
    rw [List.nodup_cons] at hnodup
    have hfirst : coord = (0, 0) → state.scratch = [] :=
      fun heq ↦ hscratch (heq ▸ List.mem_cons_self)
    obtain ⟨scratch, htile, hkept⟩ := hclean.1 index state hnew.1 hfirst
    refine bind_eq_ok.mpr ⟨_, htile, bind_eq_ok.mpr ⟨[], ih hclean.2 hnodup.2 ?_ ?_, rfl⟩⟩
    · intro later hlater hmem
      rcases List.mem_cons.mp hmem with heq | hmem
      · exact hnodup.1 (tileKey_injective heq ▸ hlater)
      · exact hnew.2 later hlater hmem
    · intro hmem
      have hne : coord ≠ (0, 0) := fun heq ↦ hnodup.1 (heq ▸ hmem)
      rw [hkept hne]
      exact hscratch (List.mem_cons_of_mem _ hmem)

/-! ## The manifest -/

/-- The places of the tiles, row by row. -/
def gridOf (target : TargetModel) : List (ℕ × ℕ) :=
  (List.range target.array.rows).flatMap fun row ↦ (List.range target.array.cols).map (row, ·)

section Manifest

variable {contract : ShippedContract} {program : TargetControlProgram}
variable {encoded : EncodedTargetProgram} {image : ConstantImage} {options : TargetLoweringOptions}
variable {manifest : Json}

/-! ### The parts of a manifest -/

def targetEntry (target : TargetModel) (options : TargetLoweringOptions) : Json :=
  .obj [("schema", .str ("cgra.target.v" ++ toString target.contractVersion)),
    ("name", .str target.name), ("path", .str options.targetPath)]

def runEntry (program : TargetControlProgram) (encoded : EncodedTargetProgram)
    (options : TargetLoweringOptions) : Json :=
  .obj [("run_cycles", .nat (ProgramManifestBuilder.runCycles program encoded)),
    ("result_observation", .obj
      [("mode", .str "trace_only"), ("description", .str options.observation)])]

def loopEntry (program : TargetControlProgram) (encoded : EncodedTargetProgram) : Json :=
  .obj [("enabled", .bool true),
    ("prologue_cycles", .nat encoded.prologue.length),
    ("ii", .nat program.ii),
    ("trip_count", .nat (ProgramManifestBuilder.replayTripCount encoded)),
    ("epilogue_cycles", .nat encoded.epilogue.length)]

def programEntry (tiles : List Json) : Json :=
  .obj [("format", .str "explicit_tile_images"),
    ("control_word_encoding", .str "lsb_first_32bit_chunks"), ("tiles", .arr tiles)]

theorem build_eq_ok {target : TargetModel}
    (h : ProgramManifestBuilder.build target program encoded image options = .ok manifest) :
    ∃ controls, ProgramManifestBuilder.tileControls target encoded = .ok controls ∧
      manifest = .obj
        [("schema", .str "cgra.program_manifest.v1"), ("name", .str options.programName),
          ("version", .nat 1), ("target", targetEntry target options),
          ("run", runEntry program encoded options), ("loop", loopEntry program encoded),
          ("program", programEntry
            (ProgramManifestBuilder.tileImages target image options controls))] := by
  obtain ⟨controls, hcontrols, h⟩ := bind_eq_ok.mp h
  exact ⟨controls, hcontrols, (Except.ok.inj h).symm⟩

/-! ### The loop -/

/-- The cycles of the loop descriptor. -/
def spanOf (program : TargetControlProgram) (encoded : EncodedTargetProgram) : ℕ :=
  encoded.prologue.length + program.ii + encoded.epilogue.length

def totalOf (program : TargetControlProgram) (encoded : EncodedTargetProgram) : ℕ :=
  encoded.prologue.length + ProgramManifestBuilder.replayTripCount encoded * program.ii
    + encoded.epilogue.length

/-- What the validator finds about the loop of a manifest. -/
def loopOf (program : TargetControlProgram) (encoded : EncodedTargetProgram) : LoopReport :=
  checkLoop 256 (some (loopEntry program encoded))

theorem loopOf_enabled : (loopOf program encoded).enabled = true := by
  simp [loopOf, loopEntry, checkLoop, loopNumbers, exactInt, ProgramValidator.get, Json.nat,
    Json.bool?, Json.int?]

theorem loopOf_span : (loopOf program encoded).span = some (spanOf program encoded : ℤ) := by
  simp [loopOf, loopEntry, checkLoop, loopNumbers, exactInt, ProgramValidator.get, Json.nat,
    Json.bool?, Json.int?, spanOf]

theorem loopOf_total : (loopOf program encoded).total = some (totalOf program encoded : ℤ) := by
  simp [loopOf, loopEntry, checkLoop, loopNumbers, exactInt, ProgramValidator.get, Json.nat,
    Json.bool?, Json.int?, totalOf]

theorem replayTripCount_pos (encoded : EncodedTargetProgram) :
    0 < ProgramManifestBuilder.replayTripCount encoded := by
  rw [ProgramManifestBuilder.replayTripCount]
  split
  · exact Nat.one_pos
  · exact Nat.pos_of_ne_zero (by assumption)

/-- **The loop is fine** as long as its cycles fit in the control memory and its count in a word. -/
theorem loopOf_errors_eq_nil_iff (hii : 0 < program.ii) : (loopOf program encoded).errors = [] ↔
    spanOf program encoded ≤ 256 ∧ ProgramManifestBuilder.replayTripCount encoded < 2 ^ 32 := by
  have hmissing : missing loopKeys ["enabled", "prologue_cycles", "ii", "trip_count",
      "epilogue_cycles"] = [] := by decide
  have hextra : missing ["enabled", "prologue_cycles", "ii", "trip_count", "epilogue_cycles"]
      loopKeys = [] := by decide
  have hcount := replayTripCount_pos encoded
  simp [loopOf, loopEntry, checkLoop, loopNumbers, exactInt, ProgramValidator.get, Json.nat,
    Json.bool?, Json.int?, keys, hmissing, hextra, loopFields, checkLoopField, spanOf, hii, hcount]
  omega

/-! ### The other parts -/

theorem checkTopLevel_eq_nil {target run loop program : Json} {name : String} (hname : name ≠ "") :
    checkTopLevel (.obj [("schema", .str "cgra.program_manifest.v1"), ("name", .str name),
      ("version", .nat 1), ("target", target), ("run", run), ("loop", loop),
      ("program", program)]) = [] := by
  have hmissing : missing requiredTopLevel ["schema", "name", "version", "target", "run", "loop",
      "program"] = [] := by decide
  simp [checkTopLevel, keys, hmissing, holds, ProgramValidator.get, Json.nat, equal,
    ProgramValidator.int?, require, hname]

theorem loadTarget_eq {files : String → Option Json}
    (hfiles : files options.targetPath = some contract.file) :
    loadTarget files (some (targetEntry contract.target options)) = ([], some contract.file) := by
  simp [targetEntry, ShippedContract.target, loadTarget, ProgramValidator.get, hfiles, holds,
    ShippedContract.file, equal, require]

theorem checkRun_clean_iff (options : TargetLoweringOptions) :
    checkRun 256 (loopOf program encoded) (some (runEntry program encoded options)) = .ok [] ↔
      ProgramManifestBuilder.runCycles program encoded = totalOf program encoded := by
  have hcheck : checkRun 256 (loopOf program encoded) (some (runEntry program encoded options))
      = .ok (checkRunCycles 256 (loopOf program encoded) (runEntry program encoded options)) := by
    simp [checkRun, runEntry, ProgramValidator.get, key, allowedObservationModes, require]
  rw [hcheck, Except.ok.injEq]
  simp [checkRunCycles, runEntry, ProgramValidator.get, Json.nat, ProgramValidator.int?,
    loopOf_enabled, loopOf_total]

theorem checkProgram_eq {loop : LoopReport} {tiles : List Json} (hne : tiles ≠ []) :
    checkProgram ShippedContract.params ShippedContract.limits 4096 loop
        (some (programEntry tiles))
      = (checkTiles ShippedContract.params ShippedContract.limits 4096 loop 0 tiles {}).map
          (·, true) := by
  simp [checkProgram, programEntry, ProgramValidator.get, holds, equal, require, hne]
  rfl

theorem tileImages_eq_map (target : TargetModel) (controls : List (List Json)) :
    ProgramManifestBuilder.tileImages target image options controls
      = (gridOf target).map fun coord ↦ ProgramManifestBuilder.tileImage coord.1 coord.2
          (controls[coord.1 * target.array.cols + coord.2]?.getD [])
          (ProgramManifestBuilder.constantEntries image.entries [])
          (ProgramManifestBuilder.scratchpadEntries options.scratchpadPreload) := by
  rw [ProgramManifestBuilder.tileImages, gridOf, List.map_flatMap]
  simp only [List.map_map]
  rfl

/-- **The validator on a manifest** of a shipped contract: only the loop, the number of cycles and
the images of the tiles can be wrong. -/
theorem validateProgram_clean_iff {files : String → Option Json}
    (h : ProgramManifestBuilder.build contract.target program encoded image options = .ok manifest)
    (hfiles : files options.targetPath = some contract.file) (hname : options.programName ≠ "") :
    ∃ controls, ProgramManifestBuilder.tileControls contract.target encoded = .ok controls ∧
      (validateProgram files manifest = .ok [] ↔
        (loopOf program encoded).errors = [] ∧
        ProgramManifestBuilder.runCycles program encoded = totalOf program encoded ∧
        checkTiles ShippedContract.params ShippedContract.limits 4096 (loopOf program encoded) 0
          (ProgramManifestBuilder.tileImages contract.target image options controls) {}
            = .ok []) := by
  obtain ⟨controls, hcontrols, rfl⟩ := build_eq_ok h
  refine ⟨controls, hcontrols, ?_⟩
  have hne : ProgramManifestBuilder.tileImages contract.target image options controls ≠ [] := by
    rw [tileImages_eq_map, Ne, List.map_eq_nil_iff]
    rcases contract with _ | _ <;> decide
  generalize ProgramManifestBuilder.tileImages contract.target image options controls
    = tiles at hne ⊢
  set fields := [("schema", Json.str "cgra.program_manifest.v1"),
    ("name", .str options.programName),
    ("version", .nat 1), ("target", targetEntry contract.target options),
    ("run", runEntry program encoded options), ("loop", loopEntry program encoded),
    ("program", programEntry tiles)] with hfields
  have hget : ProgramValidator.get (.obj fields) "target"
        = some (targetEntry contract.target options) ∧
      ProgramValidator.get (.obj fields) "run" = some (runEntry program encoded options) ∧
      ProgramValidator.get (.obj fields) "loop" = some (loopEntry program encoded) ∧
      ProgramValidator.get (.obj fields) "program" = some (programEntry tiles) ∧
      ProgramValidator.get (.obj fields) "symbolic_dfg" = none := by
    simp [hfields, ProgramValidator.get, targetEntry, runEntry, loopEntry, programEntry]
  obtain ⟨htarget, hrun, hloop, hprogram, hsymbolic⟩ := hget
  have htop : checkTopLevel (.obj fields) = [] := checkTopLevel_eq_nil hname
  have hvalidate : validateProgram files (.obj fields)
      = checkAgainst contract.file ShippedContract.params (.obj fields) ShippedContract.limits
        4096 := by
    rw [← ShippedContract.checkContract_eq, validateProgram]
    simp only [htop, htarget, loadTarget_eq hfiles]
    exact ShippedContract.nil_append_found _
  rw [hvalidate, ← checkRun_clean_iff options, checkAgainst, hloop, hrun, hprogram,
    hsymbolic, ShippedContract.checkPorts_eq, checkProgram_eq hne]
  constructor
  · intro hclean
    obtain ⟨run, hrun', hclean⟩ := bind_eq_ok.mp hclean
    obtain ⟨found, hfound, hclean⟩ := bind_eq_ok.mp hclean
    obtain ⟨errors, herrors, rfl⟩ := map_eq_ok.mp hfound
    have hnil := Except.ok.inj hclean
    simp only [List.nil_append, List.append_eq_nil_iff] at hnil
    obtain ⟨⟨⟨hloop', hrun''⟩, herrors'⟩, -⟩ := hnil
    exact ⟨hloop', hrun'.trans (congrArg _ hrun''), herrors.trans (congrArg _ herrors')⟩
  · rintro ⟨hloop', hrun', htiles⟩
    have hloop'' : (checkLoop ShippedContract.limits.ctrlDepth
      (some (loopEntry program encoded))).errors = [] := hloop'
    refine bind_eq_ok.mpr ⟨[], hrun', bind_eq_ok.mpr ⟨([], true), ?_, ?_⟩⟩
    · exact map_eq_ok.mpr ⟨[], htiles, rfl⟩
    · rw [hloop'']
      rfl

end Manifest

/-! ## Emitted manifests -/

/-- A manifest the compiler emits, from the pipeline or from its last stage alone, with the schedule
it has been emitted for. -/
inductive Emitted (codec : ControlCodec) (target : TargetModel) (options : TargetLoweringOptions) :
    MaterializedSchedule → Json → Prop
  | lower {dfg : TargetDFG} {mapping : RFAllocatedMapping} {schedule : MaterializedSchedule}
      {result : LoweredProgram} {manifest : Json}
      (h : TargetLowering.lowerToManifest codec dfg target mapping schedule options
        = .ok (result, manifest)) : Emitted codec target options schedule manifest
  | compile {searches : Searches} {dfg : DFG} {request : CompileDFGOptions}
      {program : CompiledProgram} (hoptions : request.lowering = options)
      (h : Pipeline.compileGenericDFG codec searches dfg target request = .ok program) :
      Emitted codec target options program.schedule program.manifest

theorem Emitted.lowered {codec : ControlCodec} {target : TargetModel}
    {options : TargetLoweringOptions} {schedule : MaterializedSchedule} {manifest : Json}
    (h : Emitted codec target options schedule manifest) : ∃ dfg mapping result,
      TargetLowering.lowerToManifest codec dfg target mapping schedule options
        = .ok (result, manifest) := by
  rcases h with ⟨h⟩ | ⟨rfl, h⟩
  · exact ⟨_, _, _, h⟩
  · obtain ⟨dfg, mapping, hlowered⟩ := Pipeline.compileGenericDFG_lowered h
    exact ⟨dfg, mapping, _, hlowered⟩

/-- The images of the tiles of a lowered program are fine once its cycles have addresses. -/
theorem checkTiles_of_lower {codec : ControlCodec} {contract : ShippedContract} {dfg : TargetDFG}
    {mapping : RFAllocatedMapping} {schedule : MaterializedSchedule} {result : LoweredProgram}
    {options : TargetLoweringOptions} {controls : List (List Json)}
    (h : TargetLowering.lower codec dfg contract.target mapping schedule = .ok result)
    (hcontrols : ProgramManifestBuilder.tileControls contract.target result.encoded = .ok controls)
    (hbody : result.encoded.kernelBody.length = result.controls.ii) (hii : 0 < result.controls.ii)
    (hfits : spanOf result.controls result.encoded ≤ 256)
    (hnodup : (options.scratchpadPreload.map Prod.fst).Nodup)
    (hdepth : ∀ entry ∈ options.scratchpadPreload, entry.1 < 4096) :
    checkTiles ShippedContract.params ShippedContract.limits 4096
      (loopOf result.controls result.encoded) 0
      (ProgramManifestBuilder.tileImages contract.target result.constantImage options controls) {}
        = .ok [] := by
  have hwords := words_of_lower h
  have harray : contract.target.array = shippedTarget.array := rfl
  obtain ⟨controls', hcontrols', hentries⟩ := exists_build hwords
  obtain rfl := Except.ok.inj (hcontrols.symm.trans hcontrols')
  have hspan : (storedCycles result.encoded).length = spanOf result.controls result.encoded := by
    simp [storedCycles, spanOf, hbody, Nat.add_assoc]
  have himage : ∀ allocation ∈ result.constantImage.entries, allocation.address < 16 := by
    obtain ⟨-, -, -, himage, -⟩ := TargetLowering.lower_eq_ok_iff.mp h
    rw [TargetLowering.allocateConstants] at himage
    split at himage
    · cases himage
    · rename_i heq
      obtain rfl := Except.ok.inj himage
      exact address_lt_of_allocate heq
  rw [tileImages_eq_map]
  refine checkTiles_clean ?_ ?_ (fun _ _ h ↦ absurd h List.not_mem_nil) fun _ ↦ rfl
  · rintro ⟨row, col⟩ hcoord
    have hplace : row < 4 ∧ col < 4 := by
      rw [gridOf, List.mem_flatMap] at hcoord
      obtain ⟨r, hr, hcoord⟩ := hcoord
      obtain ⟨c, hc, heq⟩ := List.mem_map.mp hcoord
      obtain ⟨rfl, rfl⟩ := Prod.mk.inj heq
      exact ⟨List.mem_range.mp hr, List.mem_range.mp hc⟩
    have hindex : row * contract.target.array.cols + col
        < contract.target.array.rows * contract.target.array.cols :=
      grid_lt hplace.1 hplace.2
    refine cleanAt_tileImage hplace.1 hplace.2 (fun label ↦ ?_) himage hnodup hdepth
    rw [hentries _ hindex, Option.getD_some]
    refine checkControl_entriesOf (fun cycle hcycle ↦ ?_) ?_ ?_ ?_
    · rw [hwords cycle hcycle]
      exact hindex
    · rw [loopOf_span, hspan]
    · rw [hspan]
      exact hfits
    · intro hempty
      rw [hempty, List.length_nil, spanOf] at hspan
      omega
  · rw [gridOf, harray]
    decide

/-- **When an emitted manifest is a valid program.** The validator accepts what the compiler emits
for a shipped contract if and only if the phases fit in the control memory and the kernel is
repeated a number of times that fits in a word. -/
theorem Emitted.manifest_valid_iff {codec : ControlCodec} {contract : ShippedContract}
    {files : String → Option Json} {options : TargetLoweringOptions}
    {schedule : MaterializedSchedule} {manifest : Json}
    (h : Emitted codec contract.target options schedule manifest)
    (hfiles : files options.targetPath = some contract.file) (hname : options.programName ≠ "")
    (hnodup : (options.scratchpadPreload.map Prod.fst).Nodup)
    (hdepth : ∀ entry ∈ options.scratchpadPreload, entry.1 < 4096) :
    validateProgram files manifest = .ok [] ↔
      schedule.prologue.cycles.length + schedule.ii + schedule.epilogue.cycles.length ≤ 256 ∧
        schedule.kernel.repeatCount < 2 ^ 32 := by
  obtain ⟨dfg, mapping, result, hlower⟩ := h.lowered
  obtain ⟨result', hresult, hlower⟩ := bind_eq_ok.mp hlower
  obtain ⟨manifest', hbuild, hlower⟩ := bind_eq_ok.mp hlower
  obtain ⟨rfl, rfl⟩ := Prod.mk.inj (Except.ok.inj hlower)
  rw [Lowerer.ofString_eq_ok_iff] at hbuild
  obtain ⟨controls, hcontrols, hvalid⟩ := validateProgram_clean_iff hbuild hfiles hname
  obtain ⟨-, -, hschedule, -, hrun, -, hencoded⟩ := TargetLowering.lower_eq_ok_iff.mp hresult
  obtain ⟨hprologue, hkernel, hepilogue⟩ := run_eq_ok hrun
  obtain ⟨hrepeat, hfirst, hsecond, hthird⟩ := encodeProgram_eq_ok hencoded
  have hii := (run_metadata hrun).1
  have haccepted := MaterializedScheduleVerifier.accepted_of_verify hschedule
  have hpos : 0 < schedule.ii := by
    rw [haccepted.ii_eq]
    exact haccepted.allocated.staged.modulo.ii_pos
  have hbody : result'.encoded.kernelBody.length = result'.controls.ii := by
    rw [hii, ← hsecond.length_eq, ← (lowered_kernel hkernel).length_eq, List.length_map,
      List.length_range]
  have hspan : spanOf result'.controls result'.encoded = schedule.prologue.cycles.length
      + schedule.ii + schedule.epilogue.cycles.length := by
    rw [spanOf, hii, (Scan.mapM_eq_ok.mp hprologue).length_eq,
      (Scan.mapM_eq_ok.mp hepilogue).length_eq, hfirst.length_eq, hthird.length_eq]
  have hcount : ProgramManifestBuilder.replayTripCount result'.encoded < 2 ^ 32 ↔
      schedule.kernel.repeatCount < 2 ^ 32 := by
    rw [ProgramManifestBuilder.replayTripCount, hrepeat, run_repeatCount hrun]
    split <;> omega
  rw [← hspan, ← hcount, ← loopOf_errors_eq_nil_iff (hii ▸ hpos), hvalid]
  refine ⟨fun h ↦ h.1, fun hloop ↦ ⟨hloop, ?_, ?_⟩⟩
  · -- at most 256 cycles, repeated less than 2 ^ 32 times
    rw [loopOf_errors_eq_nil_iff (hii ▸ hpos), spanOf] at hloop
    obtain ⟨hfits, hshort⟩ := hloop
    have hproduct : ProgramManifestBuilder.replayTripCount result'.encoded * result'.controls.ii
        ≤ 2 ^ 32 * 256 := Nat.mul_le_mul hshort.le (by omega)
    rw [ProgramManifestBuilder.runCycles, totalOf, Nat.mod_eq_of_lt (by omega)]
  · exact checkTiles_of_lower hresult hcontrols hbody (hii ▸ hpos)
      ((loopOf_errors_eq_nil_iff (hii ▸ hpos)).mp hloop).1 hnodup hdepth

/-- The files with the contract of the detour. -/
def detourFiles (path : String) : Option Json :=
  if path = "target/cgra_v3.json" then some ShippedContract.v3.file else none

/-- The manifest of the detour is valid. -/
theorem detour_valid : ∃ manifest, Emitted shippedCodec ShippedContract.v3.target
    { targetPath := "target/cgra_v3.json" } detourSchedule manifest ∧
      validateProgram detourFiles manifest = .ok [] := by
  obtain ⟨encoded, hlower⟩ := detour_lowered
  obtain ⟨manifest, hmanifest⟩ := exists_manifest hlower { targetPath := "target/cgra_v3.json" }
  have hemitted : Emitted shippedCodec ShippedContract.v3.target
      { targetPath := "target/cgra_v3.json" } detourSchedule manifest := .lower hmanifest
  exact ⟨manifest, hemitted, (Emitted.manifest_valid_iff hemitted rfl (by decide) (by decide)
    (fun _ h ↦ absurd h List.not_mem_nil)).mpr (by decide)⟩

/-! ### A kernel repeated too often

Nothing bounds the trip count of a request. The detour takes its kernel as often as it says. -/

/-- The schedule of the detour for more iterations than a word counts. -/
def longSchedule : MaterializedSchedule :=
  { detourSchedule with
    tripCount := 2 ^ 32
    totalLogicalCycles := 5 * 2 ^ 32 + 1
    kernel := ⟨detourSchedule.kernel.body, 2 ^ 32⟩
    epilogue :=
      ⟨[⟨[{ kind := .liveOutBoundaryUse, logicalIteration := 2 ^ 32 - 1, node := some 1
            liveOut := some 0 }]⟩]⟩ }

def longProgram : TargetControlProgram :=
  { detourProgram with tripCount := 2 ^ 32, kernelRepeatCount := 2 ^ 32 }

theorem longSchedule_materialized : ScheduleMaterializer.materialize detourDFG shippedTarget
    detourAllocated { tripCount := 2 ^ 32 } = .ok (.ok longSchedule) := by
  decide +kernel

theorem long_lowered : ∃ encoded, TargetLowering.lower shippedCodec detourDFG shippedTarget
    detourAllocated longSchedule = .ok ⟨longProgram, encoded, detourImage⟩ := by
  obtain ⟨encoded, hencoded⟩ : ∃ encoded, TargetLowering.encodeProgram shippedCodec longProgram
      = .ok encoded :=
    TargetLowering.exists_encodeProgram shippedCodec_bijective.2.decode_encode detour_words
  have hrun : Lowerer.run detourDFG shippedTarget detourAllocated longSchedule detourImage
      = .ok longProgram := by decide
  have hcontrols : TargetControlProgramVerifier.verify shippedCodec detourDFG shippedTarget
      detourAllocated longSchedule longProgram = .ok none := by
    refine TargetControlProgramVerifier.verify_eq_ok_none_iff.mpr ⟨by decide, by decide, ?_,
      by decide, by decide, by decide⟩
    exact TargetControlProgramVerifier.encodingError_eq_none_iff.mpr
      fun controls hcontrols control hcontrol ↦ (detour_words controls hcontrols control hcontrol).2
  obtain ⟨shipped, hshipped⟩ := detour_lowered
  obtain ⟨hdfg, hmapping, -, himage, -⟩ := TargetLowering.lower_eq_ok_iff.mp hshipped
  exact ⟨encoded, TargetLowering.lower_eq_ok_iff.mpr ⟨hdfg, hmapping,
    (ScheduleMaterializer.materialize_eq_ok longSchedule_materialized).2, himage, hrun, hcontrols,
    hencoded⟩⟩

/-- The compiler emits a manifest that the validator refuses. -/
theorem long_manifest_refused : ∃ manifest, Emitted shippedCodec ShippedContract.v3.target
    { targetPath := "target/cgra_v3.json" } longSchedule manifest ∧
      validateProgram detourFiles manifest ≠ .ok [] := by
  obtain ⟨encoded, hlower⟩ := long_lowered
  obtain ⟨manifest, hmanifest⟩ := exists_manifest hlower { targetPath := "target/cgra_v3.json" }
  refine ⟨manifest, .lower hmanifest, fun hvalid ↦ ?_⟩
  obtain ⟨result, hresult, h⟩ := bind_eq_ok.mp hmanifest
  obtain ⟨manifest', hbuild, h⟩ := bind_eq_ok.mp h
  obtain ⟨rfl, rfl⟩ := Prod.mk.inj (Except.ok.inj h)
  rw [Lowerer.ofString_eq_ok_iff] at hbuild
  obtain ⟨controls, -, hiff⟩ :=
    @validateProgram_clean_iff .v3 _ _ _ _ _ detourFiles hbuild rfl (by decide)
  have hloop := (loopOf_errors_eq_nil_iff (Nat.succ_pos 4)).mp (hiff.mp hvalid).1
  obtain ⟨hrepeat, -⟩ := encodeProgram_eq_ok (TargetLowering.lower_eq_ok_iff.mp hlower).2.2.2.2.2.2
  have hcount : encoded.kernelRepeatCount = 2 ^ 32 := hrepeat
  have hshort : ProgramManifestBuilder.replayTripCount encoded < 2 ^ 32 := hloop.2
  rw [ProgramManifestBuilder.replayTripCount, hcount] at hshort
  exact absurd hshort (by decide)

end PredicatedMesh
