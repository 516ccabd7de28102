import PredicatedMesh.Golden.Manifest
import PredicatedMesh.Lowering.Acceptance
import PredicatedMesh.Lowering.Manifest

/-!
# What a manifest replays

The golden model expands the loop descriptor of a manifest into cycles and reads, in every cycle,
the word of each tile at the address of the cycle. The words so read are those of the encoded
program: the prologue, the kernel as often as it is repeated, and the epilogue. A kernel that is
never repeated has no cycles in the schedule; it is lowered as idle cycles, and the descriptor
replays it once.
-/

namespace PredicatedMesh

open MaterializedScheduleVerifier Lowerer

/-! ## The statement -/

/-- The cycles an encoded program stands for, with one period of idle cycles if the kernel is never
repeated. -/
def replayedCycles (ii : ℕ) (idle : List EncodedControl) (encoded : EncodedTargetProgram) :
    List (List EncodedControl) :=
  encoded.prologue
    ++ (if encoded.kernelRepeatCount = 0 then List.replicate ii idle
      else (List.replicate encoded.kernelRepeatCount encoded.kernelBody).flatten)
    ++ encoded.epilogue

/-- Every tile has the word of a control without effects. -/
def IdleCycle (codec : ControlCodec) (target : TargetModel) (idle : List EncodedControl) : Prop :=
  idle.length = target.array.rows * target.array.cols ∧
    ∀ word ∈ idle, codec.encode {} = .ok word

/-- The word an entry of a manifest holds. -/
def Holds (entry : Json) (word : EncodedControl) : Prop :=
  Golden.entryChunks entry = some ((List.ofFn word.chunks).map fun chunk ↦ (chunk.toNat : ℤ))

/-- A manifest replays cycles: it runs as many, and the cycles it expands to select, for every tile,
a single entry each, which holds the word of the tile. -/
structure Replays (target : TargetModel) (manifest : Json) (cycles : List (List EncodedControl)) :
    Prop where
  runCycles : Golden.runCycles manifest = some cycles.length
  selects : ∃ steps, Golden.executionSteps manifest = some steps ∧
    ∀ row < target.array.rows, ∀ col < target.array.cols,
      ∃ image, Golden.tileImages manifest row col = some [image] ∧
        List.Forall₂ (fun step cycle ↦ ∃ entry word,
          Golden.controlEntries image step.pc = some [entry] ∧
            cycle[row * target.array.cols + col]? = some word ∧ Holds entry word) steps cycles

/-- The layout of a codec has a field of a control. -/
def ControlCodec.Lists (codec : ControlCodec) : ControlKey → Prop
  | .number k => ∃ field ∈ codec.layout.fields, field.name = k.name
  | .flag k => ∃ field ∈ codec.layout.fields, field.name = k.name
  | .symbol k => ∃ field ∈ codec.layout.fields, field.name = k.name

/-- A word decodes to the fields of a control that the layout lists. -/
def DecodesTo (codec : ControlCodec) (control : TileControl) (word : EncodedControl) : Prop :=
  ∃ decoded, codec.decode word = .ok decoded ∧
    (∀ key : ControlKey, codec.Lists key → key.get decoded = key.get control) ∧
    ((∀ key, codec.Lists key) → decoded = control)

/-- The words of a phase decode to its controls. -/
def PhaseDecodes (codec : ControlCodec) : List (List TileControl) → List (List EncodedControl) →
    Prop :=
  List.Forall₂ (List.Forall₂ (DecodesTo codec))

/-! ## Decoding the words -/

section Decoding

variable {codec : ControlCodec} {control : TileControl} {word : EncodedControl}

theorem TargetLowering.encode_of_encodeControl (h : encodeControl codec control = .ok word) :
    codec.encode control = .ok word := by
  obtain ⟨bits, hbits, h⟩ := Scan.bind_eq_ok.mp h
  obtain ⟨_, -, h⟩ := Scan.bind_eq_ok.mp h
  obtain ⟨again, -, h⟩ := Scan.bind_eq_ok.mp h
  split at h
  · cases h
  · rw [← Except.ok.inj h]
    exact ofString_eq_ok_iff.mp hbits

/-- An encoded control is decoded in every field of the layout. -/
theorem decodesTo_of_encodeControl {encodings : JsonObject (JsonObject ℤ)} {layout : ControlLayout}
    (hload : ControlCodec.load encodings layout = .ok codec) (hshaped : control.Shaped)
    (h : TargetLowering.encodeControl codec control = .ok word) : DecodesTo codec control word := by
  have hencode := TargetLowering.encode_of_encodeControl h
  have loaded := ControlCodec.loadedCodec hload (ControlCodec.knows_of_encode hencode)
  have hnarrow := (loaded.encodeControl_isOk_iff.mp ⟨word, h⟩).2
  obtain ⟨decoded, hdecode, hshaped', -⟩ := loaded.decode_of_encode hencode
  have hfield : ∀ field ∈ codec.layout.fields,
      codec.fieldValue decoded field = codec.fieldValue control field :=
    fun field hfield ↦ loaded.fieldValue_decoded hencode hdecode hnarrow hfield
  have hinteger : ∀ (k : ControlInteger), (∃ field ∈ codec.layout.fields, field.name = k.name) →
      k.get decoded = k.get control := by
    rintro k ⟨field, hmem, hname⟩
    have hvalue := hfield field hmem
    rcases loaded.known hmem with ⟨j, hj, hnone⟩ | ⟨j, _, hj, -⟩
    · obtain rfl : k = j := ControlInteger.name_injective (hname.symm.trans hj)
      rw [LoadedCodec.fieldValue_integer hname hnone, LoadedCodec.fieldValue_integer hname hnone,
        Except.ok.injEq] at hvalue
      exact hvalue
    · exact absurd (hname.symm.trans hj) (integer_name_ne_symbol_name k j)
  have hkey : ∀ key : ControlKey, codec.Lists key → key.get decoded = key.get control := by
    intro key hlists
    rcases key with k | k | k
    · exact congrArg ControlValue.number (hinteger (.number k) hlists)
    · exact congrArg ControlValue.flag (BitField.toNat_injective (hinteger (.flag k) hlists))
    · obtain ⟨field, hmem, hname⟩ := hlists
      have hvalue := hfield field hmem
      rcases loaded.known hmem with ⟨j, hj, -⟩ | ⟨j, domain, hj, hdomain⟩
      · exact absurd (hj.symm.trans hname) (integer_name_ne_symbol_name j k)
      · obtain rfl : k = j := ControlSymbol.name_injective (hname.symm.trans hj)
        rw [LoadedCodec.fieldValue_symbol hname hdomain,
          LoadedCodec.fieldValue_symbol hname hdomain] at hvalue
        -- equal numbers of a table have equal symbols
        obtain ⟨v, hv⟩ : ∃ v, codec.encodingValue domain (k.get control) = .ok v := by
          obtain ⟨v, hv, -⟩ := (loaded.encode_isOk_iff.mp ⟨word, hencode⟩) field hmem
          exact ⟨v, (LoadedCodec.fieldValue_symbol hname hdomain).symm.trans hv⟩
        rw [hv] at hvalue
        rw [loaded.encodingValue_eq_ok_iff hmem hdomain] at hv hvalue
        obtain ⟨entries, -, htable, -, -, hvalues, -⟩ := loaded.table_of_field hmem hdomain
        rw [htable] at hv hvalue
        exact congrArg ControlValue.symbol
          (congrArg Prod.fst (List.inj_on_of_nodup_map hvalues hvalue hv rfl))
  refine ⟨decoded, hdecode, hkey, fun hall ↦ TileControl.ext_fields hshaped' hshaped ?_ ?_ ?_⟩
  · exact fun k ↦ ControlValue.number.inj (hkey (.number k) (hall _))
  · exact fun k ↦ ControlValue.flag.inj (hkey (.flag k) (hall _))
  · exact fun k ↦ ControlValue.symbol.inj (hkey (.symbol k) (hall _))

end Decoding

/-! ## The entries of a tile -/

section Entries

variable {cycles : List (List EncodedControl)} {index : ℕ}

theorem holds_controlEntry (pc : ℕ) (word : EncodedControl) :
    Holds (ProgramManifestBuilder.controlEntry pc word) word := by
  have hread : ∀ chunks : List (BitVec 32),
      (chunks.map fun chunk ↦ Json.str (Hex.word chunk)).mapM Golden.readChunk
        = some (chunks.map fun chunk ↦ (chunk.toNat : ℤ)) := by
    intro chunks
    induction chunks with
    | nil => rfl
    | cons chunk chunks ih =>
      rw [List.map_cons, List.mapM_cons, ih, Golden.readChunk, Hex.readInt_word]
      rfl
  have hchunks : (ProgramManifestBuilder.controlEntry pc word).field? "chunks"
      = some (ProgramManifestBuilder.chunks word) := by simp [ProgramManifestBuilder.controlEntry]
  rw [Holds, ← hread, Golden.entryChunks, hchunks]
  simp only [Option.bind_eq_bind, Option.bind_some, ProgramManifestBuilder.chunks, Json.items?_arr]

theorem pc_controlEntry (pc : ℕ) (word : EncodedControl) :
    ((ProgramManifestBuilder.controlEntry pc word).field? "pc").bind Json.nat? = some pc := by
  simp [ProgramManifestBuilder.controlEntry]

/-- The cycles that have the address of an entry are one. -/
theorem filter_entriesOf (pc : ℕ) {start : ℕ} (hstart : start ≤ pc)
    (hwords : ∀ cycle ∈ cycles, index < cycle.length) :
    (ProgramManifestBuilder.entriesOf (cycles.zipIdx start) index).filter
        (fun entry ↦ (entry.field? "pc").bind Json.nat? == some pc)
      = ((cycles[pc - start]?.bind fun cycle ↦ cycle[index]?).map
          (ProgramManifestBuilder.controlEntry pc)).toList := by
  induction cycles generalizing start with
  | nil => rfl
  | cons cycle cycles ih =>
    have hlt := hwords cycle List.mem_cons_self
    have hrest := fun later hlater ↦ hwords later (List.mem_cons_of_mem _ hlater)
    have hentries : ProgramManifestBuilder.entriesOf ((cycle :: cycles).zipIdx start) index
        = ProgramManifestBuilder.controlEntry start cycle[index]
          :: ProgramManifestBuilder.entriesOf (cycles.zipIdx (start + 1)) index := by
      rw [ProgramManifestBuilder.entriesOf, List.zipIdx_cons, List.filterMap_cons]
      simp only [List.getElem?_eq_getElem hlt, Option.map_some]
      rfl
    rw [hentries]
    rcases Nat.eq_or_lt_of_le hstart with rfl | hlater
    · -- the later addresses are larger
      have hnone : (ProgramManifestBuilder.entriesOf (cycles.zipIdx (start + 1)) index).filter
          (fun entry ↦ (entry.field? "pc").bind Json.nat? == some start) = [] := by
        rw [List.filter_eq_nil_iff]
        intro entry hentry
        obtain ⟨⟨later, pc⟩, hmem, hmap⟩ := List.mem_filterMap.mp hentry
        obtain ⟨word, -, rfl⟩ := Option.map_eq_some_iff.mp hmap
        have hge := (List.mem_zipIdx hmem).1
        rw [pc_controlEntry, beq_iff_eq, Option.some.injEq]
        simp only
        omega
      rw [List.filter_cons_of_pos (by rw [pc_controlEntry]; exact beq_self_eq_true _), hnone]
      simp [hlt]
    · have hne : ¬ (((ProgramManifestBuilder.controlEntry start cycle[index]).field? "pc").bind
          Json.nat? == some pc) = true := by
        rw [pc_controlEntry, beq_iff_eq, Option.some.injEq]
        omega
      rw [List.filter_cons, if_neg hne, ih hlater hrest]
      obtain ⟨offset, rfl⟩ := Nat.exists_eq_add_of_lt hlater
      simp [show start + offset + 1 - start = offset + 1 by omega,
        show start + offset + 1 - (start + 1) = offset by omega]

end Entries

/-! ## The image of a tile -/

theorem filter_range_eq {n i : ℕ} (h : i < n) : (List.range n).filter (· == i) = [i] := by
  rw [List.filter_beq, List.count_eq_one_of_mem List.nodup_range (List.mem_range.mpr h)]
  rfl

/-- The place of a tile among the tiles, row by row. -/
theorem grid_lt {rows cols row col : ℕ} (hrow : row < rows) (hcol : col < cols) :
    row * cols + col < rows * cols := by
  calc row * cols + col < (row + 1) * cols := by
        rw [Nat.succ_mul]
        exact Nat.add_lt_add_left hcol _
    _ ≤ rows * cols := Nat.mul_le_mul_right _ hrow

/-- A grid has one entry for a row and a column. -/
theorem filter_grid {α : Type} {rows cols row col : ℕ} (hrow : row < rows) (hcol : col < cols)
    (f : ℕ → ℕ → α) {p : α → Bool} (hp : ∀ r c, p (f r c) = (r == row && c == col)) :
    ((List.range rows).flatMap fun r ↦ (List.range cols).map (f r)).filter p = [f row col] := by
  have hline : ∀ r, ((List.range cols).map (f r)).filter p
      = if r == row then [f r col] else [] := by
    intro r
    rw [List.filter_map]
    have hcongr : p ∘ f r = fun c ↦ r == row && c == col := funext (hp r)
    rw [hcongr]
    by_cases h : r == row
    · simp only [h, Bool.true_and, if_true]
      rw [filter_range_eq hcol]
      rfl
    · rw [Bool.not_eq_true] at h
      simp [h]
  have hrows : ∀ l : List ℕ, (l.flatMap fun r ↦ if r == row then [f r col] else [])
      = (l.filter (· == row)).map fun r ↦ f r col := by
    intro l
    induction l with
    | nil => rfl
    | cons r l ih =>
      rw [List.flatMap_cons, ih]
      by_cases h : r == row <;> simp [h]
  rw [List.filter_flatMap]
  simp only [hline]
  rw [hrows, filter_range_eq hrow]
  rfl

section Image

variable {target : TargetModel} {encoded : EncodedTargetProgram} {program : TargetControlProgram}
variable {image : ConstantImage} {options : TargetLoweringOptions} {manifest : Json}

/-- All cycles of a program that have an address. -/
def storedCycles (encoded : EncodedTargetProgram) : List (List EncodedControl) :=
  encoded.prologue ++ encoded.kernelBody ++ encoded.epilogue

/-- A program with a word for every tile in every cycle has a manifest. -/
theorem exists_build (hwords : ∀ cycle ∈ storedCycles encoded,
      cycle.length = target.array.rows * target.array.cols) :
    ∃ controls, ProgramManifestBuilder.tileControls target encoded = .ok controls ∧
      ∀ index < target.array.rows * target.array.cols, controls[index]?
        = some (ProgramManifestBuilder.entriesOf (storedCycles encoded).zipIdx index) := by
  have hlength : ∀ cycle ∈ (storedCycles encoded).zipIdx,
      (List.replicate (target.array.rows * target.array.cols) ([] : List Json)).length
        ≤ cycle.1.length := by
    rintro ⟨cycle, pc⟩ hmem
    rw [List.length_replicate, hwords cycle (List.mem_zipIdx hmem |>.2.2 ▸ List.getElem_mem _)]
  obtain ⟨controls, hcontrols, -, hentries⟩ := ProgramManifestBuilder.addCycles_eq_ok hlength
  refine ⟨controls, hcontrols, fun index hindex ↦ ?_⟩
  have hget : (List.replicate (target.array.rows * target.array.cols) ([] : List Json))[index]?
      = some [] := by
    rw [List.getElem?_replicate, if_pos hindex]
  rw [hentries index [] hget, List.nil_append]

/-- The fields of a manifest the golden model reads. -/
theorem fields_of_build (h : ProgramManifestBuilder.build target program encoded image options
    = .ok manifest) : ∃ controls,
      ProgramManifestBuilder.tileControls target encoded = .ok controls ∧
      Golden.runCycles manifest = some (ProgramManifestBuilder.runCycles program encoded) ∧
      Golden.executionSteps manifest = some (Golden.LoopDescriptor.executionSteps
        ⟨encoded.prologue.length, program.ii, ProgramManifestBuilder.replayTripCount encoded,
          encoded.epilogue.length⟩) ∧
      ∀ row col, Golden.tileImages manifest row col
        = some ((ProgramManifestBuilder.tileImages target image options controls).filter fun image ↦
          (image.field? "row").bind Json.nat? == some row
            && (image.field? "col").bind Json.nat? == some col) := by
  obtain ⟨controls, hcontrols, h⟩ := Scan.bind_eq_ok.mp h
  rw [← Except.ok.inj h]
  refine ⟨controls, hcontrols, ?_, ?_, fun row col ↦ ?_⟩
  · simp [Golden.runCycles]
  · simp [Golden.executionSteps, Golden.loopEnabled, Golden.loopDescriptor]
  · simp [Golden.tileImages]

/-- Each tile has one image. -/
theorem tileImage_of_build (h : ProgramManifestBuilder.build target program encoded image options
      = .ok manifest)
    (hwords : ∀ cycle ∈ storedCycles encoded,
      cycle.length = target.array.rows * target.array.cols)
    {row col : ℕ} (hrow : row < target.array.rows) (hcol : col < target.array.cols) :
    ∃ tile, Golden.tileImages manifest row col = some [tile] ∧
      tile.field? "control" = some (.arr (ProgramManifestBuilder.entriesOf
        (storedCycles encoded).zipIdx (row * target.array.cols + col))) := by
  obtain ⟨controls, hcontrols, -, -, himages⟩ := fields_of_build h
  obtain ⟨controls', hcontrols', hentries⟩ := exists_build hwords
  obtain rfl := Except.ok.inj (hcontrols.symm.trans hcontrols')
  have hindex := grid_lt hrow hcol
  refine ⟨ProgramManifestBuilder.tileImage row col
      (controls[row * target.array.cols + col]?.getD [])
      (ProgramManifestBuilder.constantEntries image.entries [])
      (ProgramManifestBuilder.scratchpadEntries options.scratchpadPreload), ?_, ?_⟩
  · rw [himages, ProgramManifestBuilder.tileImages]
    refine congrArg some (filter_grid hrow hcol _ fun r c ↦ ?_)
    simp [ProgramManifestBuilder.tileImage]
  · rw [hentries _ hindex]
    simp [ProgramManifestBuilder.tileImage]

/-- The addresses of a stretch of a list, in turn. -/
theorem map_range_getElem? {α : Type} (before l after : List α) :
    (List.range l.length).map (fun i ↦ (before ++ l ++ after)[before.length + i]?)
      = l.map some := by
  apply List.ext_getElem?
  intro i
  rw [List.getElem?_map, List.getElem?_map]
  by_cases h : i < l.length
  · rw [List.getElem?_range h, Option.map_some, List.append_assoc,
      List.getElem?_append_right (Nat.le_add_right _ _), Nat.add_sub_cancel_left,
      List.getElem?_append_left h, List.getElem?_eq_getElem h]
    rfl
  · rw [List.getElem?_eq_none (by rw [List.length_range]; exact not_lt.mp h),
      List.getElem?_eq_none (not_lt.mp h)]
    rfl

/-- **The expansion of the loop** visits the stored cycles in the order they are replayed. -/
theorem executionSteps_visit (hbody : encoded.kernelBody.length = program.ii) (n : ℕ) :
    (Golden.LoopDescriptor.executionSteps ⟨encoded.prologue.length, program.ii, n,
        encoded.epilogue.length⟩).map (fun step ↦ (storedCycles encoded)[step.pc]?)
      = (encoded.prologue ++ (List.replicate n encoded.kernelBody).flatten
          ++ encoded.epilogue).map some := by
  have hprologue := map_range_getElem? [] encoded.prologue (encoded.kernelBody ++ encoded.epilogue)
  have hkernel := map_range_getElem? encoded.prologue encoded.kernelBody encoded.epilogue
  have hepilogue := map_range_getElem? (encoded.prologue ++ encoded.kernelBody) encoded.epilogue []
  rw [List.nil_append, List.length_nil, ← List.append_assoc] at hprologue
  simp only [Nat.zero_add] at hprologue
  rw [List.append_nil, List.length_append, hbody] at hepilogue
  rw [hbody] at hkernel
  have hrepeated : ∀ n, ((List.range n).flatMap fun _ ↦ encoded.kernelBody.map some)
      = (List.replicate n encoded.kernelBody).flatten.map some := by
    intro n
    induction n with
    | zero => rfl
    | succ n ih =>
      rw [List.range_succ, List.flatMap_append, ih, List.flatMap_singleton, List.replicate_succ',
        List.flatten_append, List.map_append, List.flatten_singleton]
  rw [Golden.LoopDescriptor.executionSteps, List.map_append, List.map_append, List.map_append,
    List.map_append]
  refine congrArg₂ _ (congrArg₂ _ ?_ ?_) ?_
  · rw [List.map_map]
    exact hprologue
  · rw [Golden.LoopDescriptor.kernelSteps, List.map_flatMap, ← hrepeated]
    refine List.flatMap_congr fun iteration _ ↦ ?_
    rw [List.map_map]
    exact hkernel
  · rw [List.map_map]
    exact hepilogue

/-- **A manifest replays** the stored cycles, the kernel as often as its descriptor says. -/
theorem replays_of_build (h : ProgramManifestBuilder.build target program encoded image options
      = .ok manifest)
    (hwords : ∀ cycle ∈ storedCycles encoded,
      cycle.length = target.array.rows * target.array.cols)
    (hbody : encoded.kernelBody.length = program.ii)
    (hcount : encoded.prologue.length + ProgramManifestBuilder.replayTripCount encoded * program.ii
      + encoded.epilogue.length < 2 ^ 64) :
    Replays target manifest (encoded.prologue
      ++ (List.replicate (ProgramManifestBuilder.replayTripCount encoded)
        encoded.kernelBody).flatten ++ encoded.epilogue) := by
  obtain ⟨-, -, hrun, hsteps, -⟩ := fields_of_build h
  constructor
  · rw [hrun, ProgramManifestBuilder.runCycles, Nat.mod_eq_of_lt hcount]
    simp [hbody, Nat.add_assoc]
  · refine ⟨_, hsteps, fun row hrow col hcol ↦ ?_⟩
    obtain ⟨tile, htile, hcontrol⟩ := tileImage_of_build h hwords hrow hcol
    refine ⟨tile, htile, ?_⟩
    have hvisit := executionSteps_visit hbody (ProgramManifestBuilder.replayTripCount encoded)
    have hrel := List.forall₂_map_left_iff.mp (List.forall₂_map_right_iff.mp
      (List.forall₂_eq_eq_eq ▸ hvisit : List.Forall₂ Eq _ _))
    refine hrel.imp fun step cycle hcycle ↦ ?_
    have hmem := List.mem_of_getElem? hcycle
    have hin : ∀ cycle ∈ storedCycles encoded, row * target.array.cols + col < cycle.length := by
      intro cycle hcycle
      rw [hwords cycle hcycle]
      exact grid_lt hrow hcol
    have hword := List.getElem?_eq_getElem (hin cycle hmem)
    refine ⟨_, _, ?_, hword, holds_controlEntry step.pc _⟩
    rw [Golden.controlEntries, hcontrol]
    have hfilter := filter_entriesOf step.pc (Nat.zero_le _) hin
    rw [Nat.sub_zero, hcycle, Option.bind_some, hword, Option.map_some] at hfilter
    exact congrArg some hfilter

end Image

/-! ## Lowered programs -/

section Lowered

variable {codec : ControlCodec} {dfg : TargetDFG} {target : TargetModel}
variable {mapping : RFAllocatedMapping} {image : ConstantImage}
variable {request : ScheduleMaterializationRequest} {schedule : MaterializedSchedule}
variable {program : TargetControlProgram} {encoded : EncodedTargetProgram}

/-- The cycles of an accepted schedule are counted by a signed number. -/
theorem cycleCount_of_verify
    (h : MaterializedScheduleVerifier.verify dfg target mapping request schedule = .ok []) :
    schedule.prologue.cycles.length + schedule.kernel.repeatCount * schedule.ii
      + schedule.epilogue.cycles.length ≤ 2 ^ 63 := by
  have haccepted := accepted_of_verify h
  have hcycles := length_cycles_of_checkPhases haccepted.shape haccepted.phases
  have hlength : schedule.cycles.length = schedule.prologue.cycles.length
      + schedule.kernel.repeatCount * schedule.ii + schedule.epilogue.cycles.length := by
    by_cases hr : schedule.kernel.repeatCount = 0
    · simp [MaterializedSchedule.cycles, hr]
    · simp [MaterializedSchedule.cycles, List.length_flatMap, haccepted.shape.2 hr, Nat.add_assoc]
  have htotal : schedule.totalLogicalCycles ≤ 2 ^ 63 := by
    simp only [MaterializedScheduleVerifier.verify, Scan.stage_eq_ok_nil_iff,
      Scan.require_eq_nil_iff] at h
    obtain ⟨-, -, -, h⟩ := h
    split at h
    · cases h
    simp only [Scan.stage_eq_ok_nil_iff, Scan.require_eq_nil_iff] at h
    obtain ⟨-, -, -, -, h⟩ := h
    split at h
    · cases h
    simp only [checkBounds, Scan.stage_eq_ok_nil_iff, Scan.require_eq_nil_iff, Bool.and_eq_true,
      decide_eq_true_eq, beq_iff_eq] at h
    obtain ⟨-, ⟨hmax, -⟩, ⟨-, htotal⟩, -⟩ := h
    have hlimit : int64Max = 2 ^ 63 - 1 := rfl
    omega
  rw [← hlength, hcycles]
  exact htotal

theorem run_repeatCount (h : Lowerer.run dfg target mapping schedule image = .ok program) :
    program.kernelRepeatCount = schedule.kernel.repeatCount := by
  unfold Lowerer.run at h
  split at h
  · cases h
  obtain ⟨prologue, -, h⟩ := Scan.bind_eq_ok.mp h
  obtain ⟨body, -, h⟩ := Scan.bind_eq_ok.mp h
  obtain ⟨epilogue, -, h⟩ := Scan.bind_eq_ok.mp h
  rw [← Except.ok.inj h]

/-- A program is encoded control by control. -/
theorem encodeProgram_eq_ok (h : TargetLowering.encodeProgram codec program = .ok encoded) :
    encoded.kernelRepeatCount = program.kernelRepeatCount ∧
      List.Forall₂ (List.Forall₂ fun control word ↦
        TargetLowering.encodeControl codec control = .ok word) program.prologue encoded.prologue ∧
      List.Forall₂ (List.Forall₂ fun control word ↦
        TargetLowering.encodeControl codec control = .ok word) program.kernelBody
          encoded.kernelBody ∧
      List.Forall₂ (List.Forall₂ fun control word ↦
        TargetLowering.encodeControl codec control = .ok word) program.epilogue
          encoded.epilogue := by
  have hphase : ∀ {phase : List (List TileControl)} {words : List (List EncodedControl)},
      phase.mapM (fun controls ↦ controls.mapM (TargetLowering.encodeControl codec)) = .ok words →
      List.Forall₂ (List.Forall₂ fun control word ↦
        TargetLowering.encodeControl codec control = .ok word) phase words := by
    intro phase words hwords
    exact (Scan.mapM_eq_ok.mp hwords).imp fun _ _ hcycle ↦ Scan.mapM_eq_ok.mp hcycle
  obtain ⟨prologue, hprologue, h⟩ := Scan.bind_eq_ok.mp h
  obtain ⟨body, hbody, h⟩ := Scan.bind_eq_ok.mp h
  obtain ⟨epilogue, hepilogue, h⟩ := Scan.bind_eq_ok.mp h
  rw [← Except.ok.inj h]
  exact ⟨rfl, hphase hprologue, hphase hbody, hphase hepilogue⟩

/-- A cycle without events leaves every tile idle. -/
theorem lowerCycle_idle : lowerCycle dfg target mapping image ⟨[]⟩
    = .ok (List.replicate (target.array.rows * target.array.cols) {}) := by
  rw [lowerCycle, List.foldlM_nil]
  refine congrArg Except.ok ?_
  rw [List.map_map]
  exact (List.map_const' ..).trans (by rw [List.length_range])

/-- The words of two related lists of cycles are as many. -/
theorem length_of_phase {R : TileControl → EncodedControl → Prop} {n : ℕ}
    {phase : List (List TileControl)} {words : List (List EncodedControl)}
    (h : List.Forall₂ (List.Forall₂ R) phase words)
    (hphase : ∀ controls ∈ phase, controls.length = n) :
    ∀ cycle ∈ words, cycle.length = n := by
  induction h with
  | nil => simp
  | cons hcycle _ ih =>
    rw [List.forall_mem_cons] at hphase ⊢
    exact ⟨hcycle.length_eq ▸ hphase.1, ih hphase.2⟩

theorem decodes_of_phase {encodings : JsonObject (JsonObject ℤ)} {layout : ControlLayout}
    (hload : ControlCodec.load encodings layout = .ok codec) {phase : List (List TileControl)}
    {words : List (List EncodedControl)}
    (h : List.Forall₂ (List.Forall₂ fun control word ↦
      TargetLowering.encodeControl codec control = .ok word) phase words)
    (hshaped : ∀ controls ∈ phase, ∀ control ∈ controls, control.Shaped) :
    PhaseDecodes codec phase words := by
  have hcycle : ∀ {controls : List TileControl} {cycle : List EncodedControl},
      List.Forall₂ (fun control word ↦ TargetLowering.encodeControl codec control = .ok word)
        controls cycle → (∀ control ∈ controls, control.Shaped) →
      List.Forall₂ (DecodesTo codec) controls cycle := by
    intro controls cycle hwords
    induction hwords with
    | nil => exact fun _ ↦ .nil
    | cons hword _ ih =>
      intro hshaped
      rw [List.forall_mem_cons] at hshaped
      exact .cons (decodesTo_of_encodeControl hload hshaped.1 hword) (ih hshaped.2)
  induction h with
  | nil => exact .nil
  | cons hfirst _ ih =>
    rw [List.forall_mem_cons] at hshaped
    exact .cons (hcycle hfirst hshaped.1) (ih hshaped.2)

theorem shaped_of_lowered {bundle : CycleBundle} {controls : List TileControl}
    (hcycle : lowerCycle dfg target mapping image bundle = .ok controls) :
    ∀ control ∈ controls, control.Shaped := by
  intro control hmem
  obtain ⟨index, hlt, rfl⟩ := List.getElem_of_mem hmem
  obtain ⟨builder, hbuilder, hsettled⟩ :=
    (lowerCycle_settled hcycle).1 index _ (List.getElem?_eq_getElem hlt)
  rw [← hbuilder]
  exact hsettled.shaped

theorem shaped_of_phase {cycles : List CycleBundle} {phase : List (List TileControl)}
    (h : List.Forall₂ (fun bundle controls ↦ lowerCycle dfg target mapping image bundle
      = .ok controls) cycles phase) :
    ∀ controls ∈ phase, ∀ control ∈ controls, control.Shaped :=
  (Scan.forall_iff_of_forall₂ (P := fun _ ↦ True)
    (fun _ _ hcycle ↦ iff_of_true (shaped_of_lowered hcycle) trivial) h).mpr fun _ _ ↦ trivial

theorem length_of_lowered {cycles : List CycleBundle} {phase : List (List TileControl)}
    (h : List.Forall₂ (fun bundle controls ↦ lowerCycle dfg target mapping image bundle
      = .ok controls) cycles phase) :
    ∀ controls ∈ phase, controls.length = target.array.rows * target.array.cols :=
  (Scan.forall_iff_of_forall₂ (P := fun _ ↦ True)
    (fun _ _ hcycle ↦ iff_of_true (lowerCycle_length hcycle) trivial) h).mpr fun _ _ ↦ trivial

/-- The words of a kernel that is never repeated are idle. -/
theorem exists_idle {ii : ℕ} (h : ((List.range ii).mapM fun cycle ↦
      lowerCycle dfg target mapping image (([] : List CycleBundle)[cycle]?.getD ⟨[]⟩))
        = .ok program.kernelBody)
    (hwords : List.Forall₂ (List.Forall₂ fun control word ↦
      TargetLowering.encodeControl codec control = .ok word) program.kernelBody
        encoded.kernelBody) :
    ∃ idle, encoded.kernelBody = List.replicate ii idle ∧
      (ii ≠ 0 → IdleCycle codec target idle) := by
  have hbody : program.kernelBody
      = List.replicate ii (List.replicate (target.array.rows * target.array.cols) {}) := by
    have hall := Scan.mapM_eq_ok.mp h
    have hlength : program.kernelBody.length = ii := by
      rw [← hall.length_eq, List.length_range]
    refine List.eq_replicate_iff.mpr ⟨hlength, fun controls hmem ↦ ?_⟩
    obtain ⟨cycle, -, hcycle⟩ := Scan.exists_source_of_mem h hmem
    rw [List.getElem?_nil, Option.getD_none, lowerCycle_idle] at hcycle
    exact (Except.ok.inj hcycle).symm
  rw [hbody] at hwords
  rcases ii with _ | ii
  · rw [List.replicate_zero, List.forall₂_nil_left_iff] at hwords
    exact ⟨[], by rw [hwords, List.replicate_zero], fun hne ↦ absurd rfl hne⟩
  -- equal controls have equal words
  have hfunctional : ∀ {controls : List TileControl} {first second : List EncodedControl},
      List.Forall₂ (fun control word ↦ TargetLowering.encodeControl codec control = .ok word)
        controls first →
      List.Forall₂ (fun control word ↦ TargetLowering.encodeControl codec control = .ok word)
        controls second → first = second := by
    intro controls first second hfirst hsecond
    exact Except.ok.inj ((Scan.mapM_eq_ok.mpr hfirst).symm.trans (Scan.mapM_eq_ok.mpr hsecond))
  rw [List.replicate_succ] at hwords
  obtain ⟨idle, rest, hidle, hrest, hsplit⟩ := List.forall₂_cons_left_iff.mp hwords
  refine ⟨idle, ?_, fun _ ↦ ⟨?_, ?_⟩⟩
  · rw [hsplit, List.replicate_succ]
    refine congrArg _ (List.eq_replicate_iff.mpr ⟨?_, fun cycle hmem ↦ ?_⟩)
    · rw [← hrest.length_eq, List.length_replicate]
    · obtain ⟨i, hi, rfl⟩ := List.getElem_of_mem hmem
      have hget := hrest.get (i := i) (by rw [hrest.length_eq]; exact hi) hi
      rw [List.get_eq_getElem, List.getElem_replicate] at hget
      exact hfunctional hget hidle
  · rw [← hidle.length_eq, List.length_replicate]
  · intro word hmem
    obtain ⟨i, hi, rfl⟩ := List.getElem_of_mem hmem
    have hget := hidle.get (i := i) (by rw [hidle.length_eq]; exact hi) hi
    rw [List.get_eq_getElem, List.getElem_replicate] at hget
    exact TargetLowering.encode_of_encodeControl hget

/-- A lowered program has a word for every tile in every cycle. -/
theorem words_of_lower {result : LoweredProgram}
    (h : TargetLowering.lower codec dfg target mapping schedule = .ok result) :
    ∀ cycle ∈ storedCycles result.encoded,
      cycle.length = target.array.rows * target.array.cols := by
  obtain ⟨-, -, -, -, hrun, -, hencoded⟩ := TargetLowering.lower_eq_ok_iff.mp h
  obtain ⟨hprologue, hkernel, hepilogue⟩ := run_eq_ok hrun
  obtain ⟨-, hfirst, hsecond, hthird⟩ := encodeProgram_eq_ok hencoded
  intro cycle hmem
  rcases List.mem_append.mp hmem with hmem | hmem
  · rcases List.mem_append.mp hmem with hmem | hmem
    · exact length_of_phase hfirst (length_of_lowered (Scan.mapM_eq_ok.mp hprologue)) cycle hmem
    · exact length_of_phase hsecond (length_of_lowered (lowered_kernel hkernel)) cycle hmem
  · exact length_of_phase hthird (length_of_lowered (Scan.mapM_eq_ok.mp hepilogue)) cycle hmem

/-- **Building the manifest** adds no failure to lowering. -/
theorem exists_manifest {result : LoweredProgram}
    (h : TargetLowering.lower codec dfg target mapping schedule = .ok result)
    (options : TargetLoweringOptions) : ∃ manifest,
      TargetLowering.lowerToManifest codec dfg target mapping schedule options
        = .ok (result, manifest) := by
  obtain ⟨controls, hcontrols, -⟩ := exists_build (words_of_lower h)
  have hbuild : ∃ manifest, ProgramManifestBuilder.build target result.controls result.encoded
      result.constantImage options = .ok manifest :=
    ⟨_, Scan.bind_eq_ok.mpr ⟨controls, hcontrols, rfl⟩⟩
  obtain ⟨manifest, hbuild⟩ := hbuild
  exact ⟨manifest, Scan.bind_eq_ok.mpr ⟨result, h, Scan.bind_eq_ok.mpr
    ⟨manifest, ofString_eq_ok_iff.mpr hbuild, rfl⟩⟩⟩

end Lowered

/-- **The manifest replays the schedule.** It runs the words of the prologue, of the kernel as often
as it is repeated, with one idle period for a kernel that never is, and of the epilogue; and they
decode to the controls of the program in every field the layout lists. -/
theorem TargetLowering.manifest_replays {encodings : JsonObject (JsonObject ℤ)}
    {layout : ControlLayout} (codec : ControlCodec)
    (hload : ControlCodec.load encodings layout = .ok codec) (dfg : TargetDFG)
    (target : TargetModel) (mapping : RFAllocatedMapping) (schedule : MaterializedSchedule)
    (hii : schedule.ii < 2 ^ 32) (options : TargetLoweringOptions) (result : LoweredProgram)
    (manifest : Json)
    (hlower : lowerToManifest codec dfg target mapping schedule options = .ok (result, manifest)) :
    result.encoded.kernelRepeatCount = schedule.kernel.repeatCount ∧
      result.encoded.kernelBody.length = schedule.ii ∧
      (∃ idle, (result.encoded.kernelRepeatCount = 0 → IdleCycle codec target idle) ∧
        Replays target manifest (replayedCycles schedule.ii idle result.encoded)) ∧
      (PhaseDecodes codec result.controls.prologue result.encoded.prologue ∧
        PhaseDecodes codec result.controls.kernelBody result.encoded.kernelBody ∧
        PhaseDecodes codec result.controls.epilogue result.encoded.epilogue) := by
  obtain ⟨result', hresult, h⟩ := Scan.bind_eq_ok.mp hlower
  obtain ⟨manifest', hbuild, h⟩ := Scan.bind_eq_ok.mp h
  obtain ⟨rfl, rfl⟩ := Prod.mk.inj (Except.ok.inj h)
  rw [ofString_eq_ok_iff] at hbuild
  obtain ⟨-, -, hschedule, -, hrun, -, hencoded⟩ := lower_eq_ok_iff.mp hresult
  obtain ⟨hprologue, hkernel, hepilogue⟩ := run_eq_ok hrun
  obtain ⟨hrepeat, hfirst, hsecond, hthird⟩ := encodeProgram_eq_ok hencoded
  have hprologue' := Scan.mapM_eq_ok.mp hprologue
  have hkernel' := lowered_kernel hkernel
  have hepilogue' := Scan.mapM_eq_ok.mp hepilogue
  have hii' := (run_metadata hrun).1
  have hcount := hrepeat.trans (run_repeatCount hrun)
  have hbody : result'.encoded.kernelBody.length = schedule.ii := by
    rw [← hsecond.length_eq, ← hkernel'.length_eq, List.length_map, List.length_range]
  have haccepted := accepted_of_verify hschedule
  -- the number of cycles is no larger than a signed number, but for one idle period
  have hfits : result'.encoded.prologue.length
      + ProgramManifestBuilder.replayTripCount result'.encoded * result'.controls.ii
      + result'.encoded.epilogue.length < 2 ^ 64 := by
    have htotal := cycleCount_of_verify hschedule
    rw [hprologue'.length_eq, hepilogue'.length_eq, hfirst.length_eq, hthird.length_eq] at htotal
    rw [ProgramManifestBuilder.replayTripCount, hcount, hii']
    by_cases hzero : schedule.kernel.repeatCount = 0
    · rw [hzero, Nat.zero_mul] at htotal
      rw [if_pos hzero]
      omega
    · rw [if_neg hzero]
      omega
  have hreplays := replays_of_build hbuild (words_of_lower hresult) (hbody.trans hii'.symm) hfits
  refine ⟨hcount, hbody, ?_, ?_⟩
  · by_cases hzero : result'.encoded.kernelRepeatCount = 0
    · have hempty : schedule.kernel.body = [] := haccepted.shape.1 (hcount.symm.trans hzero)
      rw [hempty] at hkernel
      obtain ⟨idle, hidle, hwordsIdle⟩ := exists_idle hkernel hsecond
      have hpos : schedule.ii ≠ 0 := by
        rw [haccepted.ii_eq]
        exact haccepted.allocated.staged.modulo.ii_pos.ne'
      refine ⟨idle, fun _ ↦ hwordsIdle hpos, ?_⟩
      rw [replayedCycles, if_pos hzero, ← hidle]
      rw [ProgramManifestBuilder.replayTripCount, if_pos hzero] at hreplays
      simpa using hreplays
    · refine ⟨[], fun h ↦ absurd h hzero, ?_⟩
      rw [replayedCycles, if_neg hzero]
      rw [ProgramManifestBuilder.replayTripCount, if_neg hzero] at hreplays
      exact hreplays
  · exact ⟨decodes_of_phase hload hfirst (shaped_of_phase hprologue'),
      decodes_of_phase hload hsecond (shaped_of_phase hkernel'),
      decodes_of_phase hload hthird (shaped_of_phase hepilogue')⟩

/-! ### The delay line, replayed -/

/-- The controls of the delay line have words. -/
theorem delayLine_words : ∀ controls ∈ (delayLineProgram 0).prologue
      ++ (delayLineProgram 0).kernelBody ++ (delayLineProgram 0).epilogue, ∀ control ∈ controls,
    control.Shaped ∧ ∃ word, shippedCodec.encode control = .ok word := by
  have hfits : ∀ controls ∈ (delayLineProgram 0).prologue ++ (delayLineProgram 0).kernelBody
        ++ (delayLineProgram 0).epilogue, ∀ control ∈ controls, control.Shaped ∧
      ∀ field ∈ shippedControlLayout.fields, shippedCodec.fits control field = true := by
    unfold TileControl.Shaped
    decide
  intro controls hcontrols control hcontrol
  obtain ⟨hshaped, hfit⟩ := hfits controls hcontrols control hcontrol
  exact ⟨hshaped, shippedCodec_encodes hfit⟩

/-- The delay line is lowered. -/
theorem delayLine_lowered : ∃ encoded, TargetLowering.lower shippedCodec delayLineDFG shippedTarget
    delayLineAllocated delayLineSchedule = .ok ⟨delayLineProgram 0, encoded, delayLineImage⟩ := by
  obtain ⟨encoded, hencoded⟩ :=
    TargetLowering.exists_encodeProgram shippedCodec_bijective.2.decode_encode delayLine_words
  have hrun : Lowerer.run delayLineDFG shippedTarget delayLineAllocated delayLineSchedule
      delayLineImage = .ok (delayLineProgram 0) := by decide
  have hcontrols : TargetControlProgramVerifier.verify shippedCodec delayLineDFG shippedTarget
      delayLineAllocated delayLineSchedule (delayLineProgram 0) = .ok none := by
    refine TargetControlProgramVerifier.verify_eq_ok_none_iff.mpr
      ⟨by decide, by decide, ?_, by decide, by decide, by decide⟩
    apply TargetControlProgramVerifier.encodingError_eq_none_iff.mpr
    intro controls hcontrols control hcontrol
    exact (delayLine_words controls hcontrols control hcontrol).2
  have himage : TargetLowering.allocateConstants delayLineDFG shippedTarget
      = .ok delayLineImage := by decide
  exact ⟨encoded, TargetLowering.lower_eq_ok_iff.mpr ⟨by decide +kernel,
    (Scan.accepts_iff _).mp delayLineAllocated_accepted,
    (ScheduleMaterializer.materialize_eq_ok delayLineSchedule_materialized).2, himage, hrun,
    hcontrols, hencoded⟩⟩

/-- The delay line has a manifest, which replays its kernel twice between the other phases. -/
theorem delayLine_replays : ∃ result manifest, TargetLowering.lowerToManifest shippedCodec
    delayLineDFG shippedTarget delayLineAllocated delayLineSchedule {} = .ok (result, manifest) ∧
      Replays shippedTarget manifest (result.encoded.prologue
        ++ (result.encoded.kernelBody ++ result.encoded.kernelBody)
        ++ result.encoded.epilogue) := by
  obtain ⟨encoded, hlower⟩ := delayLine_lowered
  obtain ⟨manifest, hboth⟩ := exists_manifest hlower {}
  obtain ⟨hrepeat, -, ⟨idle, -, hreplays⟩, -⟩ := TargetLowering.manifest_replays shippedCodec
    shippedCodec_load delayLineDFG shippedTarget delayLineAllocated delayLineSchedule (by decide)
      {} _ _ hboth
  have htwice : encoded.kernelRepeatCount = 2 := hrepeat
  rw [replayedCycles, htwice] at hreplays
  refine ⟨_, manifest, hboth, ?_⟩
  simpa using hreplays

/-! ### A layout without a field

Nothing makes a layout list every field. A field that is not listed has no bits in the word. -/

/-- The shipped layout without the first operand of the functional unit. -/
def unlistedLayout : ControlLayout :=
  { shippedControlLayout with
    rawWidth := 122
    paddingLsb := 122
    paddingWidth := 6
    fields := restack ControlField.width 0
      (shippedControlLayout.fields.filter fun field ↦ field.name != "src_a") }

def unlistedCodec : ControlCodec := ⟨shippedEncodings, unlistedLayout⟩

theorem unlistedCodec_load :
    ControlCodec.load shippedEncodingSection unlistedLayout = .ok unlistedCodec := by
  decide

/-- The controls of the detour are encoded without the field. -/
theorem unlisted_encodes : ∀ controls ∈ detourProgram.prologue ++ detourProgram.kernelBody
      ++ detourProgram.epilogue, ∀ control ∈ controls,
    ∃ word, TargetLowering.encodeControl unlistedCodec control = .ok word := by
  have hfits : ∀ controls ∈ detourProgram.prologue ++ detourProgram.kernelBody
        ++ detourProgram.epilogue, ∀ control ∈ controls,
      (∀ field ∈ unlistedLayout.fields, unlistedCodec.fits control field = true) ∧
        ∀ k ∈ ControlInteger.all, k.get control < 2 ^ 32 := by
    decide
  have hknows : unlistedCodec.Knows := by
    obtain ⟨word, hword⟩ : ∃ word, unlistedCodec.encode {} = .ok word := by
      have hok : (unlistedCodec.encode {}).isOk := by decide
      rcases hencode : unlistedCodec.encode {} with e | word
      · rw [hencode] at hok
        cases hok
      · exact ⟨word, rfl⟩
    exact ControlCodec.knows_of_encode hword
  have loaded := ControlCodec.loadedCodec unlistedCodec_load hknows
  intro controls hcontrols control hcontrol
  obtain ⟨hfit, hnarrow⟩ := hfits controls hcontrols control hcontrol
  refine loaded.encodeControl_isOk_iff.mpr ⟨loaded.encode_isOk_iff.mpr fun field hfield ↦ ?_, ?_⟩
  · exact ControlCodec.fits_iff.mp (hfit field hfield)
  · exact fun field _ k _ ↦ hnarrow (.number k) (ControlInteger.mem_all _)

/-- A word of a successful lowering that decodes to another control. -/
theorem unlisted_field_lost : ∃ result manifest,
    ControlCodec.load shippedEncodingSection unlistedLayout = .ok unlistedCodec ∧
    TargetLowering.lowerToManifest unlistedCodec detourDFG shippedTarget detourAllocated
      detourSchedule {} = .ok (result, manifest) ∧
    ¬ List.Forall₂ (List.Forall₂ fun control word ↦ unlistedCodec.decode word = .ok control)
      result.controls.kernelBody result.encoded.kernelBody := by
  obtain ⟨shipped, hshipped⟩ := detour_lowered
  obtain ⟨hdfg, hmapping, hschedule, himage, hrun, hcontrols, -⟩ :=
    TargetLowering.lower_eq_ok_iff.mp hshipped
  obtain ⟨encoded, hencoded⟩ := TargetLowering.encodeProgram_isOk_iff.mpr unlisted_encodes
  have hverify : TargetControlProgramVerifier.verify unlistedCodec detourDFG shippedTarget
      detourAllocated detourSchedule detourProgram = .ok none := by
    obtain ⟨hmeta, hshape, -, hphases⟩ :=
      TargetControlProgramVerifier.verify_eq_ok_none_iff.mp hcontrols
    refine TargetControlProgramVerifier.verify_eq_ok_none_iff.mpr ⟨hmeta, hshape, ?_, hphases⟩
    rw [TargetControlProgramVerifier.encodingError_eq_none_iff]
    intro controls hmem control hcontrol
    obtain ⟨word, hword⟩ := unlisted_encodes controls hmem control hcontrol
    exact ⟨word, TargetLowering.encode_of_encodeControl hword⟩
  have hlower : TargetLowering.lower unlistedCodec detourDFG shippedTarget detourAllocated
      detourSchedule = .ok ⟨detourProgram, encoded, detourImage⟩ :=
    TargetLowering.lower_eq_ok_iff.mpr ⟨hdfg, hmapping, hschedule, himage, hrun, hverify, hencoded⟩
  obtain ⟨manifest, hmanifest⟩ := exists_manifest hlower {}
  refine ⟨_, manifest, unlistedCodec_load, hmanifest, fun hdecodes ↦ ?_⟩
  obtain ⟨-, -, hwords, -⟩ := encodeProgram_eq_ok hencoded
  -- the first tile of the first cycle of the kernel
  obtain ⟨cycle, _, hcycle, -, hbody⟩ := List.forall₂_cons_left_iff.mp hwords
  obtain ⟨word, _, hword, -, hcycleWords⟩ := List.forall₂_cons_left_iff.mp hcycle
  simp only [hbody, hcycleWords] at hdecodes
  obtain ⟨hfirst, -⟩ := List.forall₂_cons.mp hdecodes
  obtain ⟨hdecode, -⟩ := List.forall₂_cons.mp hfirst
  have hencode := TargetLowering.encode_of_encodeControl hword
  have hlost : (unlistedCodec.encode
      { op := "PASS", srcA := "CONST_DATA", dataRoutes := passEast "FU_DATA_RESULT" }).bind
        unlistedCodec.decode ≠ .ok
      { op := "PASS", srcA := "CONST_DATA", dataRoutes := passEast "FU_DATA_RESULT" } := by
    decide
  exact hlost (Scan.bind_eq_ok.mpr ⟨word, hencode, hdecode⟩)

end PredicatedMesh
