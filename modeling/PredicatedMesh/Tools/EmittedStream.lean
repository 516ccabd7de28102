import PredicatedMesh.Tools.Reordering

/-!
# Emitted streams

`emitConfigManifest` adds the stream to a copy of the manifest, and `validateConfigManifest` reads
the copy back. The validator of programs does not look at the stream, the stream is built from the
other fields, and a value equals itself, so nothing is found to be wrong.

A loop that is null is the exception. The validator and the stream take it for no loop, but the last
step of the emitter asks every loop that is there for a field, and raises.
-/

namespace PredicatedMesh

/-! ## Values that equal themselves -/

namespace Json

mutual

/-- Every object has each of its keys once, as dictionaries do. -/
def keysDistinct : Json → Bool
  | .arr items => keysDistinctItems items
  | .obj fields => decide (fields.map Prod.fst).Nodup && keysDistinctFields fields
  | _ => true

def keysDistinctItems : List Json → Bool
  | [] => true
  | item :: items => keysDistinct item && keysDistinctItems items

def keysDistinctFields : List (String × Json) → Bool
  | [] => true
  | (_, value) :: fields => keysDistinct value && keysDistinctFields fields

end

end Json

namespace ProgramValidator

open Json

mutual

/-- A value of dictionaries equals itself. -/
theorem equal_self : ∀ value : Json, value.keysDistinct = true → equal value value = true
  | .null, _ => by rw [equal]
  | .bool value, _ => by
    rw [equal, int?]
    exact beq_self_eq_true (some (value.toNat : ℤ))
  | .num value, _ => by rw [equal, int?, beq_self_eq_true]
  | .str value, _ => by rw [equal, beq_self_eq_true]
  | .arr items, h => by
    rw [keysDistinct] at h
    rw [equal]
    exact equalItems_self items h
  | .obj fields, h => by
    rw [keysDistinct, Bool.and_eq_true, decide_eq_true_eq] at h
    rw [equal, beq_self_eq_true, Bool.true_and]
    refine equalFields_self fields fields h.2 fun entry hentry ↦ ?_
    exact (ConfigStream.lookup_eq_some_iff h.1).mpr hentry

theorem equalItems_self : ∀ items : List Json, keysDistinctItems items = true →
    equalItems items items = true
  | [], _ => by rw [equalItems]
  | item :: items, h => by
    rw [keysDistinctItems, Bool.and_eq_true] at h
    rw [equalItems, equal_self item h.1, equalItems_self items h.2]
    rfl

theorem equalFields_self : ∀ fields others : List (String × Json),
    keysDistinctFields fields = true → (∀ entry ∈ fields, others.lookup entry.1 = some entry.2) →
      equalFields fields others = true
  | [], _, _, _ => by rw [equalFields]
  | (name, value) :: fields, others, h, hlookup => by
    rw [keysDistinctFields, Bool.and_eq_true] at h
    rw [List.forall_mem_cons] at hlookup
    rw [equalFields, hlookup.1]
    simp only [equal_self value h.1, Bool.true_and]
    exact equalFields_self fields others h.2 hlookup.2

end

end ProgramValidator

namespace ConfigStream

open ProgramImage ProgramValidator Scan

/-! ## A field more -/

theorem lookup_setEntry {κ α : Type} [DecidableEq κ] [BEq κ] [LawfulBEq κ] {key other : κ}
    {value : α}
    {dict : List (κ × α)} : (setEntry key value dict).lookup other
      = if other = key then some value else dict.lookup other := by
  induction dict with
  | nil =>
    rw [setEntry, List.lookup_cons]
    by_cases h : other = key
    · rw [if_pos h, h, beq_self_eq_true]
    · rw [if_neg h, beq_false_of_ne h]
  | cons entry dict ih =>
    obtain ⟨k, v⟩ := entry
    rw [setEntry]
    by_cases hk : k = key
    · rw [if_pos hk, List.lookup_cons, List.lookup_cons, hk]
      by_cases h : other = key
      · rw [if_pos h, h, beq_self_eq_true]
      · rw [if_neg h, beq_false_of_ne h]
    · rw [if_neg hk, List.lookup_cons, List.lookup_cons, ih]
      by_cases h : other = k
      · subst h
        rw [beq_self_eq_true]
        exact (if_neg hk).symm
      · rw [beq_false_of_ne h]

/-- Two objects have the same fields but for the stream. -/
structure SameProgram (manifest manifest' : Json) : Prop where
  isObj : ∃ fields fields', manifest = .obj fields ∧ manifest' = .obj fields'
  same : ∀ name, name ≠ "config_stream" → manifest'.field? name = manifest.field? name

theorem sameProgram_setField (fields : List (String × Json)) (stream : Json) :
    SameProgram (.obj fields) (setField (.obj fields) "config_stream" stream) := by
  refine ⟨⟨fields, _, rfl, rfl⟩, fun name hname ↦ ?_⟩
  rw [setField, Json.field?, lookup_setEntry, if_neg hname]
  rfl

theorem field?_setField (fields : List (String × Json)) (stream : Json) :
    (setField (.obj fields) "config_stream" stream).field? "config_stream" = some stream := by
  rw [setField, Json.field?, lookup_setEntry, if_pos rfl]

namespace SameProgram

variable {manifest manifest' : Json} (h : SameProgram manifest manifest')
include h

theorem get_eq {name : String} (hname : name ≠ "config_stream") :
    ProgramValidator.get manifest' name = ProgramValidator.get manifest name := by
  rw [ProgramValidator.get, ProgramValidator.get, h.same name hname]

theorem missing_eq {required : List String} (hrequired : "config_stream" ∉ required) :
    missing required (keys manifest') = missing required (keys manifest) := by
  obtain ⟨fields, fields', rfl, rfl⟩ := h.isObj
  have hkeys : ∀ name ∈ required,
      (!(keys (.obj fields')).contains name) = !(keys (.obj fields)).contains name := by
    intro name hname
    have hsame := h.same name fun heq ↦ hrequired (heq ▸ hname)
    rw [Json.field?, Json.field?] at hsame
    rw [List.contains_eq_mem, List.contains_eq_mem]
    congr 2
    rw [keys, keys, eq_iff_iff, mem_keys_iff, mem_keys_iff, hsame]
  rw [missing, missing, List.filter_congr hkeys]

/-- The validator of programs does not look at the stream. -/
theorem validateProgram_eq (files : String → Option Json) :
    validateProgram files manifest' = validateProgram files manifest := by
  have hsame : ∀ name, name ≠ "config_stream" →
      ProgramValidator.get manifest' name = ProgramValidator.get manifest name :=
    fun _ hne ↦ h.get_eq hne
  have hname := hsame "name" (by decide)
  have htarget := hsame "target" (by decide)
  have hloop := hsame "loop" (by decide)
  have hrun := hsame "run" (by decide)
  have hprogram := hsame "program" (by decide)
  have hsymbolic := hsame "symbolic_dfg" (by decide)
  have hholds : ∀ name value, name ≠ "config_stream" →
      holds manifest' name value = holds manifest name value := fun name value hne ↦ by
    rw [holds, holds, h.get_eq hne]
  have hrepr : ∀ name, name ≠ "config_stream" →
      reprGet manifest' name = reprGet manifest name := fun name hne ↦ by
    rw [reprGet, reprGet, h.get_eq hne]
  have htop : checkTopLevel manifest' = checkTopLevel manifest := by
    rw [checkTopLevel, checkTopLevel, h.missing_eq (by decide), hholds _ _ (by decide),
      hholds _ _ (by decide), hrepr _ (by decide), hrepr _ (by decide), hname]
  have hcontract : ∀ contract,
      checkContract contract manifest' = checkContract contract manifest := by
    intro contract
    simp only [checkContract, checkAgainst, hloop, hrun, hprogram, hsymbolic]
  obtain ⟨fields, fields', rfl, rfl⟩ := h.isObj
  rw [validateProgram, validateProgram]
  simp only [htop, htarget, hcontract]

theorem targetFor_eq (files : String → Option Json) :
    targetFor files manifest' = targetFor files manifest := by
  rw [targetFor, targetFor, h.same _ (by decide)]

theorem readProgram_eq : readProgram manifest' = readProgram manifest := by
  rw [readProgram, readProgram, readLoop, readLoop, h.same _ (by decide), h.same _ (by decide),
    h.same _ (by decide)]

theorem item_eq {name : String} (hname : name ≠ "config_stream") :
    item manifest' name = item manifest name := by
  rw [item, item, h.same _ hname]

theorem streamMetadata_eq (contract : Json) :
    streamMetadata manifest' contract = streamMetadata manifest contract := by
  rw [streamMetadata, streamMetadata, h.item_eq (by decide), h.item_eq (by decide)]

theorem runSection_eq : runSection manifest' = runSection manifest := by
  rw [runSection, runSection, loopMode, loopMode, h.item_eq (by decide), h.same _ (by decide)]

end SameProgram

/-! ## Accepted manifests -/

/-- The control words of an image are in lower case and decode. -/
structure Canonical (image : ProgramImage) : Prop where
  lower : ∀ entry ∈ image.controls, ∀ chunk ∈ entry.chunks, Hex.LowerWord chunk
  decodes : ∀ entry ∈ image.controls,
    ∃ ctrl, decodeTexts entry.chunks Golden.shippedGoldenTarget = .ok ctrl

/-- A word in lower case that decodes comes out of the codec as it was. -/
theorem roundTripChunks_eq_ok {chunks : List String} (hlength : chunks.length = 4)
    (hlower : ∀ chunk ∈ chunks, Hex.LowerWord chunk)
    (hdecodes : ∃ ctrl, decodeTexts chunks Golden.shippedGoldenTarget = .ok ctrl)
    (context : String) :
    roundTripChunks chunks Golden.shippedGoldenTarget context = .ok chunks := by
  obtain ⟨values, hread, hmap, hcount, hrange⟩ :=
    readTexts_eq_ok (fun chunk h ↦ readable_of_lowerWord (hlower chunk h)) 0
  obtain ⟨encoded, rfl⟩ := exists_chunkList (hcount.trans hlength) hrange
  have hlisted := (decodeTexts_iff hlength hread).mp hdecodes
  rcases hround : roundTripChunks chunks Golden.shippedGoldenTarget context with e | packed
  · exact absurd hlower ((roundTripChunks_iff hlength hread hmap hlisted context).mp ⟨e, hround⟩)
  · unfold roundTripChunks at hround
    split at hround
    · exact absurd hround nofun
    · split at hround
      · exact absurd hround nofun
      · rename_i hsame
        rw [← Except.ok.inj hround, not_not.mp hsame]

section Accepted

variable {files : String → Option Json} {manifest contract params : Json} {limits : Limits}
  {rows cols scratchDepth : ℤ} {image : ProgramImage}
  (accepted : Accepted files manifest contract params limits rows cols scratchDepth image)
  (hgolden : goldenTarget contract = some Golden.shippedGoldenTarget)
include accepted hgolden

/-- What the stream of an accepted manifest depends on. -/
theorem readLayout_eq_ok : readLayout contract
    = .ok ⟨rows, cols, limits.chunksPerControl, Golden.shippedGoldenTarget⟩ := by
  obtain ⟨chunks, hchunks, hlimits⟩ := bind_eq_ok.mp accepted.limited
  obtain ⟨ctrlDepth, -, hlimits⟩ := bind_eq_ok.mp hlimits
  obtain ⟨constDepth, -, hlimits⟩ := bind_eq_ok.mp hlimits
  obtain rfl := Except.ok.inj hlimits
  rw [readLayout, accepted.parameters, hgolden]
  simp only [hchunks, accepted.bounds.rows, accepted.bounds.cols]
  rfl

theorem readBoth_eq_ok : readBoth contract manifest
    = .ok (⟨rows, cols, limits.chunksPerControl, Golden.shippedGoldenTarget⟩, image) := by
  rw [readBoth, readLayout_eq_ok accepted hgolden]
  simp only [accepted.read]
  rfl

theorem streamable_of_canonical (canonical : Canonical image) :
    Streamable ⟨rows, cols, limits.chunksPerControl, Golden.shippedGoldenTarget⟩ image := by
  have hvalid := accepted.valid
  refine ⟨fun tile htile ↦
    ⟨(hvalid.tiles tile htile).row_range, (hvalid.tiles tile htile).col_range⟩,
    hvalid.tiles_nodup, fun tile htile ↦ (hvalid.tiles tile htile).control_nodup,
    fun tile htile ↦ (hvalid.tiles tile htile).constMemory_nodup, hvalid.preload_nodup,
    fun tile htile entry hentry ↦ ?_⟩
  have hmem : entry ∈ image.controls := List.mem_flatMap.mpr ⟨tile, htile, hentry⟩
  exact roundTripChunks_eq_ok (chunks_length accepted hgolden entry hmem)
    (canonical.lower entry hmem) (canonical.decodes entry hmem)

theorem expectedWrites_eq_ok (canonical : Canonical image) : expectedWrites contract manifest
    = .ok (number (imageWords
        ⟨rows, cols, limits.chunksPerControl, Golden.shippedGoldenTarget⟩ image)) := by
  rw [expectedWrites, readBoth_eq_ok accepted hgolden]
  simp only [bind, Except.bind,
    (streamable_of_canonical accepted hgolden canonical).imageWrites_eq]
  rfl

/-- A manifest in another order has the same writes. -/
theorem expectedWrites_reordered (canonical : Canonical image) {manifest' : Json}
    (h : ReorderedManifest manifest manifest') :
    expectedWrites contract manifest' = expectedWrites contract manifest := by
  obtain ⟨image', hread', hreorders⟩ := readProgram_reordered h accepted.read
  have hwrites := hreorders.imageWrites_eq (streamable_of_canonical accepted hgolden canonical)
  rw [expectedWrites, expectedWrites, readBoth, readBoth, readLayout_eq_ok accepted hgolden]
  simp only [hread', accepted.read, bind, Except.bind, pure, Except.pure, hwrites]

end Accepted

/-! ## Applying a stream -/

/-- The memories after the writes of a stream. -/
def applyWrites (writes : List Write) (memory : Slot → String) : Slot → String :=
  writes.foldl (fun memory write ↦ Function.update memory write.slot write.data) memory

theorem map_slot_number (words : List (Slot × String)) :
    (number words).map Write.slot = words.map Prod.fst := by
  have hmap : ∀ (words : List (Slot × String)) (start : ℕ),
      ((words.zipIdx start).map fun entry ↦
        (⟨entry.2, entry.1.1, entry.1.2⟩ : Write)).map Write.slot
        = words.map Prod.fst := by
    intro words
    induction words with
    | nil => exact fun _ ↦ rfl
    | cons word words ih =>
      intro start
      rw [List.zipIdx_cons, List.map_cons, List.map_cons, ih]
      rfl
  exact hmap words 0

/-- A slot holds what is written to it, and what it held where nothing is. -/
theorem applyWrites_apply {writes : List Write} (h : (writes.map Write.slot).Nodup)
    (memory : Slot → String) (slot : Slot) :
    (∀ write ∈ writes, write.slot = slot → applyWrites writes memory slot = write.data) ∧
      ((∀ write ∈ writes, write.slot ≠ slot) → applyWrites writes memory slot = memory slot) := by
  induction writes generalizing memory with
  | nil => exact ⟨fun _ hmem ↦ absurd hmem List.not_mem_nil, fun _ ↦ rfl⟩
  | cons first writes ih =>
    rw [List.map_cons, List.nodup_cons] at h
    obtain ⟨hwritten, hkept⟩ := ih h.2 (Function.update memory first.slot first.data)
    rw [List.forall_mem_cons, List.forall_mem_cons]
    refine ⟨⟨fun hslot ↦ ?_, fun write hmem hslot ↦ hwritten write hmem hslot⟩, fun hne ↦ ?_⟩
    · subst hslot
      refine (hkept fun write hmem heq ↦ h.1 (heq ▸ List.mem_map_of_mem hmem)).trans ?_
      exact Function.update_self _ _ _
    · exact (hkept hne.2).trans (Function.update_of_ne (Ne.symm hne.1) _ _)

theorem exists_write_iff {words : List (Slot × String)} {slot : Slot} {data : String} :
    (∃ write ∈ number words, write.slot = slot ∧ write.data = data) ↔ (slot, data) ∈ words := by
  rw [number]
  constructor
  · rintro ⟨write, hwrite, rfl, rfl⟩
    obtain ⟨⟨word, index⟩, hmem, rfl⟩ := List.mem_map.mp hwrite
    exact List.fst_mem_of_mem_zipIdx hmem
  · intro hmem
    obtain ⟨index, hindex⟩ := List.mem_iff_getElem?.mp hmem
    exact ⟨_, List.mem_map.mpr ⟨((slot, data), index), List.mem_zipIdx_iff_getElem?.mpr hindex,
      rfl⟩, rfl, rfl⟩

/-- What a stream does to memories that hold zeros: no slot is written twice; every word that the
run can reach is written, as is every word of the image; each slot ends with what the image has for
it, or with zeros; and the descriptor of the loop comes last. -/
structure Complete (layout : Layout) (image : ProgramImage) (writes : List Write) : Prop where
  once : (writes.map Write.slot).Nodup
  covered : ∀ row col pc, (0 ≤ row ∧ row < layout.rows) → (0 ≤ col ∧ col < layout.cols) →
    (0 ≤ pc ∧ pc < controlSpan image) ∨ (∃ entry, ControlAt image row col pc entry) →
      ∀ index : ℕ, (index : ℤ) < layout.chunks →
        ⟨.controlMem, row, col, pc, index⟩ ∈ writes.map Write.slot
  prescribed : ∀ slot data, Prescribes layout image slot data →
    applyWrites writes (fun _ ↦ "0x00000000") slot = data
  zero : ∀ slot, (∀ data, ¬Prescribes layout image slot data) →
    applyWrites writes (fun _ ↦ "0x00000000") slot = "0x00000000"
  loop_last : ∃ before, writes.map (fun write ↦ (write.slot, write.data))
    = before ++ loopWrites image

theorem complete_of_streamable {layout : Layout} {image : ProgramImage}
    (streamable : Streamable layout image) (hlength : ∀ tile ∈ image.tiles,
      ∀ entry ∈ tile.control, (entry.chunks.length : ℤ) = layout.chunks) :
    Complete layout image (number (imageWords layout image)) := by
  have honce : ((number (imageWords layout image)).map Write.slot).Nodup := by
    rw [map_slot_number]
    exact nodup_slots (imageWords_sorted streamable)
  refine ⟨honce, fun row col pc hrow hcol hreach index hindex ↦ ?_, fun slot data hdata ↦ ?_,
    fun slot hnone ↦ ?_, ?_⟩
  · rw [map_slot_number]
    have hword : ∃ data, Prescribes layout image ⟨.controlMem, row, col, pc, index⟩ data := by
      by_cases hentry : ∃ entry, ControlAt image row col pc entry
      · obtain ⟨entry, hat⟩ := hentry
        obtain ⟨tile, htile, -, -, hmem, -⟩ := id hat
        have hlt : index < entry.chunks.length := by
          have hcount := hlength tile htile entry hmem
          omega
        exact ⟨_, hrow, hcol, .inl ⟨entry, hat, List.getElem?_eq_getElem hlt⟩⟩
      · have hspan := hreach.resolve_right hentry
        have hlt : index < layout.chunks.toNat := by omega
        exact ⟨_, hrow, hcol, .inr ⟨not_exists.mp hentry, hspan, hlt, rfl⟩⟩
    obtain ⟨data, hdata⟩ := hword
    exact List.mem_map.mpr ⟨_, (mem_imageWords streamable).mpr hdata, rfl⟩
  · obtain ⟨write, hmem, hslot, rfl⟩ :=
      exists_write_iff.mpr ((mem_imageWords streamable).mpr hdata)
    exact (applyWrites_apply honce _ slot).1 write hmem hslot
  · refine (applyWrites_apply honce _ slot).2 fun write hmem hslot ↦ ?_
    exact hnone write.data ((mem_imageWords streamable).mp
      (exists_write_iff.mp ⟨write, hmem, hslot, rfl⟩))
  · have hpairs : ∀ words : List (Slot × String),
        (number words).map (fun write ↦ (write.slot, write.data)) = words := by
      intro words
      rw [number, List.map_map]
      exact (List.map_congr_left fun _ _ ↦ rfl).trans (List.zipIdx_map_fst 0 words)
    rw [hpairs, imageWords]
    exact ⟨_, rfl⟩

/-! ## Emitting -/

theorem keysDistinct_of_lookup {fields : List (String × Json)} {name : String} {value : Json}
    (h : Json.keysDistinctFields fields = true) (hlookup : fields.lookup name = some value) :
    value.keysDistinct = true := by
  induction fields with
  | nil => exact absurd hlookup nofun
  | cons entry fields ih =>
    obtain ⟨key, first⟩ := entry
    rw [Json.keysDistinctFields, Bool.and_eq_true] at h
    rw [List.lookup_cons] at hlookup
    split at hlookup
    · obtain rfl := Option.some.inj hlookup
      exact h.1
    · exact ih h.2 hlookup

theorem keysDistinct_field? {value found : Json} {name : String} (h : value.keysDistinct = true)
    (hfield : value.field? name = some found) : found.keysDistinct = true := by
  unfold Json.field? at hfield
  split at hfield
  · rw [Json.keysDistinct, Bool.and_eq_true] at h
    exact keysDistinct_of_lookup h.2 hfield
  · exact absurd hfield nofun

/-- A field that is there holds itself. -/
theorem holds_field? {value found : Json} {name : String} (hfield : value.field? name = some found)
    (hself : found.keysDistinct = true) : holds value name found = true := by
  have hget : (ProgramValidator.get value name).getD .null = found := by
    rw [ProgramValidator.get, hfield]
    split
    · rename_i hnull
      exact (Option.some.inj hnull).symm
    · rfl
  rw [holds, hget, equal_self found hself]

theorem keysDistinct_write (write : Write) : write.toJson.keysDistinct = true := by
  simp [Write.toJson, Json.keysDistinct, Json.keysDistinctFields, Json.nat]

theorem keysDistinct_writes (writes : List Write) :
    (Json.arr (writes.map Write.toJson)).keysDistinct = true := by
  rw [Json.keysDistinct]
  induction writes with
  | nil => rfl
  | cons write writes ih =>
    rw [List.map_cons, Json.keysDistinctItems, keysDistinct_write, ih]
    rfl

/-- The metadata of a stream, with the values that come from elsewhere. -/
def metadataOf (target encoding chunks width : Json) : List (String × Json) :=
  [("schema", .str configStreamSchema), ("version", .num 1), ("target", target),
    ("control_word", .obj [("encoding", encoding), ("chunks_per_word", chunks),
      ("physical_width_bits", width), ("chunk_order", .str "lsb_first")])]

/-- A stream is what it is built from. -/
theorem checkStream_streamOf {target encoding chunks width run : Json} {writes : List Write}
    (htarget : target.keysDistinct = true) (hencoding : encoding.keysDistinct = true)
    (hchunks : chunks.keysDistinct = true) (hwidth : width.keysDistinct = true)
    (hrun : run.keysDistinct = true) :
    checkStream (streamOf (metadataOf target encoding chunks width) writes run)
      (metadataOf target encoding chunks width) writes run = [] := by
  have hword : (Json.obj [("encoding", encoding), ("chunks_per_word", chunks),
      ("physical_width_bits", width), ("chunk_order", .str "lsb_first")]).keysDistinct = true := by
    simp [Json.keysDistinct, Json.keysDistinctFields, hencoding, hchunks, hwidth]
  have hfields : ∀ entry ∈ metadataOf target encoding chunks width,
      holds (streamOf (metadataOf target encoding chunks width) writes run) entry.1 entry.2
        = true := by
    simp only [metadataOf, List.forall_mem_cons]
    refine ⟨?_, ?_, ?_, ?_, fun _ h ↦ absurd h List.not_mem_nil⟩
    · exact holds_field? (by simp [streamOf]) rfl
    · exact holds_field? (by simp [streamOf]) rfl
    · exact holds_field? (by simp [streamOf]) htarget
    · exact holds_field? (by simp [streamOf]) hword
  simp only [checkStream, checkMetadata, List.append_eq_nil_iff, require_eq_nil_iff,
    List.flatMap_eq_nil_iff]
  refine ⟨⟨⟨hfields, ?_⟩, ?_⟩, ?_⟩
  · exact holds_field? (by simp [streamOf, metadataOf]) (keysDistinct_writes writes)
  · exact holds_field? (by simp [streamOf, metadataOf]) rfl
  · exact holds_field? (by simp [streamOf, metadataOf]) hrun

/-- The section of the run depends on the loop not being null. -/
def runSectionOf (runCycles : Json) (mode : Bool) : Json :=
  .obj ([("command", .str "START"), ("run_cycles", runCycles)]
    ++ if mode then [("mode", .str "LOOP")] else [])

theorem keysDistinct_runSectionOf {runCycles : Json} (h : runCycles.keysDistinct = true)
    (mode : Bool) : (runSectionOf runCycles mode).keysDistinct = true := by
  rcases mode with _ | _
  · simp [runSectionOf, Json.keysDistinct, Json.keysDistinctFields, h]
  · simp [runSectionOf, Json.keysDistinct, Json.keysDistinctFields, h]

theorem keysDistinct_of_int? {value : Json} {n : ℤ} (h : ProgramValidator.int? value = some n) :
    value.keysDistinct = true := by
  rcases value with _ | _ | _ | _ | _ | _
  · exact absurd h nofun
  · rfl
  · rfl
  · exact absurd h nofun
  · exact absurd h nofun
  · exact absurd h nofun

section Accepted

variable {files : String → Option Json} {manifest contract params : Json} {limits : Limits}
  {rows cols scratchDepth : ℤ} {image : ProgramImage}
  (accepted : Accepted files manifest contract params limits rows cols scratchDepth image)
include accepted

theorem loopMode_eq_ok_iff :
    (∃ mode, loopMode manifest = .ok mode) ↔ manifest.field? "loop" ≠ some .null := by
  have hobject := accepted.loop_object
  rw [ProgramValidator.get] at hobject
  rw [loopMode]
  rcases hloop : manifest.field? "loop" with _ | loop
  · simp
  · rw [hloop] at hobject
    by_cases hnull : loop = .null
    · subst hnull
      constructor
      · rintro ⟨_, h⟩
        cases h
      · exact fun h ↦ absurd rfl h
    · obtain ⟨fields, rfl⟩ : ∃ fields, loop = .obj fields := by
        refine hobject loop ?_
        split
        · rename_i heq
          exact absurd (Option.some.inj heq) hnull
        · rfl
      refine ⟨fun _ h ↦ hnull (Option.some.inj h), fun _ ↦ ?_⟩
      simp only
      split
      · exact ⟨true, rfl⟩
      · exact ⟨false, rfl⟩

theorem exists_runSection : ∃ runCycles, runCycles.keysDistinct = true ∧
    runSection manifest = (do return runSectionOf runCycles (← loopMode manifest)) := by
  have hread := accepted.read
  obtain ⟨run, hrun, hread⟩ := Option.bind_eq_some_iff.mp hread
  obtain ⟨n, hcycles, -⟩ := Option.bind_eq_some_iff.mp hread
  obtain ⟨runCycles, hfield, hint⟩ := Option.bind_eq_some_iff.mp hcycles
  refine ⟨runCycles, keysDistinct_of_int? hint, ?_⟩
  rw [runSection, item, hrun]
  simp only [bind, Except.bind]
  rw [item, hfield]
  rfl

/-- An accepted manifest has metadata. -/
theorem exists_metadata (hgolden : goldenTarget contract = some Golden.shippedGoldenTarget)
    (hdistinct : manifest.keysDistinct = true) :
    ∃ target encoding chunks width, streamMetadata manifest contract
        = .ok (metadataOf target encoding chunks width) ∧ target.keysDistinct = true ∧
      encoding.keysDistinct = true ∧ chunks.keysDistinct = true ∧ width.keysDistinct = true := by
  have hnat : ∀ {value : Json} {n : ℕ}, value.nat? = some n → value.keysDistinct = true := by
    intro value n h
    unfold Json.nat? at h
    split at h
    · rfl
    · exact absurd h nofun
  obtain ⟨params', hparams, hgolden⟩ := Option.bind_eq_some_iff.mp hgolden
  obtain rfl := Option.some.inj (hparams.symm.trans accepted.parameters)
  obtain ⟨widths, -, hgolden⟩ := Option.bind_eq_some_iff.mp hgolden
  obtain ⟨chunks, hchunks, hgolden⟩ := Option.bind_eq_some_iff.mp hgolden
  obtain ⟨_, hchunksNat, hgolden⟩ := Option.bind_eq_some_iff.mp hgolden
  obtain ⟨_, -, hgolden⟩ := Option.bind_eq_some_iff.mp hgolden
  obtain ⟨_, -, hgolden⟩ := Option.bind_eq_some_iff.mp hgolden
  obtain ⟨width, hwidth, hgolden⟩ := Option.bind_eq_some_iff.mp hgolden
  obtain ⟨_, hwidthNat, -⟩ := Option.bind_eq_some_iff.mp hgolden
  obtain ⟨program, hprogram, hencoding⟩ := accepted.encoding
  obtain ⟨target, htarget⟩ : ∃ target, manifest.field? "target" = some target := by
    have hload := accepted.target
    rcases hget : ProgramValidator.get manifest "target" with _ | target
    · rw [hget] at hload
      exact absurd (Prod.mk.inj hload).2 nofun
    · exact ⟨target, field?_of_get hget⟩
  refine ⟨target, .str "lsb_first_32bit_chunks", chunks, width, ?_,
    keysDistinct_field? hdistinct htarget, rfl, hnat hchunksNat,
    hnat hwidthNat⟩
  rw [streamMetadata, item, hparams]
  simp only [bind, Except.bind]
  rw [item, htarget]
  simp only
  rw [item, hprogram]
  simp only
  rw [item, hencoding]
  simp only
  rw [item, hchunks]
  simp only
  rw [item, hwidth]
  rfl

end Accepted

/-- A stream that has been built is emitted and found to be right, unless the loop is null. -/
theorem emit_iff {files : String → Option Json} {manifest contract : Json} {layout : Layout}
    {image : ProgramImage} {words : List (Slot × String)}
    {target encoding chunks width runCycles : Json}
    (haccepted : validateProgram files manifest = .ok [])
    (htarget : targetFor files manifest = .ok contract)
    (hboth : readBoth contract manifest = .ok (layout, image))
    (hwords : imageWrites layout image = .ok words)
    (hmetadata : streamMetadata manifest contract = .ok (metadataOf target encoding chunks width))
    (hdistinct : target.keysDistinct = true ∧ encoding.keysDistinct = true ∧
      chunks.keysDistinct = true ∧ width.keysDistinct = true)
    (hcycles : runCycles.keysDistinct = true)
    (hrun : runSection manifest = (do return runSectionOf runCycles (← loopMode manifest))) :
    (∃ emitted, emitConfigManifest files manifest = .ok emitted ∧
      validateConfigManifest files emitted = .ok []) ↔
        ∃ mode, loopMode manifest = .ok mode := by
  have hexpected : expectedWrites contract manifest = .ok (number words) := by
    rw [expectedWrites, hboth]
    simp only [bind, Except.bind, hwords]
    rfl
  have hemit : emitConfigManifest files manifest = (do
      return setField manifest "config_stream" (streamOf (metadataOf target encoding chunks width)
        (number words) (runSectionOf runCycles (← loopMode manifest)))) := by
    rw [emitConfigManifest, haccepted]
    simp only [bind, Except.bind, ne_eq, not_true_eq_false, if_false, htarget, hexpected, hmetadata,
      hrun]
    rcases loopMode manifest with _ | _
    · rfl
    · rfl
  rw [hemit]
  constructor
  · rintro ⟨emitted, h, -⟩
    obtain ⟨mode, hmode, -⟩ := bind_eq_ok.mp h
    exact ⟨mode, hmode⟩
  · rintro ⟨mode, hmode⟩
    rw [hmode]
    obtain ⟨fields, rfl⟩ : ∃ fields, manifest = .obj fields := by
      unfold validateProgram at haccepted
      split at haccepted
      · exact ⟨_, rfl⟩
      · exact absurd (Except.ok.inj haccepted) (List.cons_ne_nil _ _)
    refine ⟨_, rfl, ?_⟩
    generalize hstream : streamOf (metadataOf target encoding chunks width) (number words)
      (runSectionOf runCycles mode) = stream
    have hsame := sameProgram_setField fields stream
    have hsection : runSection (setField (.obj fields) "config_stream" stream)
        = .ok (runSectionOf runCycles mode) := by
      rw [hsame.runSection_eq, hrun, hmode]
      rfl
    have hget : ProgramValidator.get (setField (.obj fields) "config_stream" stream)
        "config_stream" = some stream := by
      rw [ProgramValidator.get, field?_setField, ← hstream]
      rfl
    have hboth' : readBoth contract (setField (.obj fields) "config_stream" stream)
        = .ok (layout, image) := by
      rw [readBoth, hsame.readProgram_eq]
      exact hboth
    have hclean : checkStream stream (metadataOf target encoding chunks width) (number words)
        (runSectionOf runCycles mode) = [] := by
      rw [← hstream]
      exact checkStream_streamOf hdistinct.1 hdistinct.2.1 hdistinct.2.2.1 hdistinct.2.2.2
        (keysDistinct_runSectionOf hcycles mode)
    obtain ⟨inner, rfl⟩ : ∃ inner, stream = .obj inner := ⟨_, hstream.symm⟩
    rw [validateConfigManifest, hsame.validateProgram_eq, haccepted]
    simp only [bind, Except.bind, ne_eq, not_true_eq_false, if_false, hsame.targetFor_eq, htarget,
      hget, hsame.streamMetadata_eq, hmetadata, hboth', hwords, hsection, hclean]
    rfl

/-- **When a configuration stream is complete and comes back.** For a manifest that the validator
accepts and whose control words are in lower case and decode, the stream is the same in every order
of the manifest and writes its image; and the manifest that is emitted with it is found to be right
exactly when the loop is not null. `hgolden` says that the contract has the fields and widths of the
shipped ones. -/
theorem config_stream_iff {files : String → Option Json} {manifest contract : Json}
    {image : ProgramImage} (haccepted : validateProgram files manifest = .ok [])
    (hdistinct : manifest.keysDistinct = true) (htarget : targetFor files manifest = .ok contract)
    (hgolden : goldenTarget contract = some Golden.shippedGoldenTarget)
    (hread : readProgram manifest = some image) (hcanonical : Canonical image) :
    (∃ layout writes, readLayout contract = .ok layout ∧
      expectedWrites contract manifest = .ok writes ∧ Complete layout image writes ∧
      (∀ manifest', ReorderedManifest manifest manifest' →
        expectedWrites contract manifest' = .ok writes) ∧
      ∃ emitted, emitConfigManifest files manifest = .ok emitted ∧
        validateConfigManifest files emitted = .ok []) ↔
      manifest.field? "loop" ≠ some .null := by
  obtain ⟨contract', params, limits, rows, cols, scratchDepth, image', accepted⟩ :=
    exists_image haccepted
  obtain rfl := Except.ok.inj (htarget.symm.trans (targetFor_eq_ok accepted))
  obtain rfl := Option.some.inj (hread.symm.trans accepted.read)
  have hstreamable := streamable_of_canonical accepted hgolden hcanonical
  have hwrites := expectedWrites_eq_ok accepted hgolden hcanonical
  obtain ⟨target, encoding, chunks, width, hmetadata, hvalues⟩ :=
    exists_metadata accepted hgolden hdistinct
  obtain ⟨runCycles, hcycles, hrun⟩ := exists_runSection accepted
  have hemit := emit_iff haccepted htarget (readBoth_eq_ok accepted hgolden)
    hstreamable.imageWrites_eq hmetadata hvalues hcycles hrun
  rw [← loopMode_eq_ok_iff accepted, ← hemit]
  constructor
  · rintro ⟨_, _, -, -, -, -, hback⟩
    exact hback
  · intro hback
    refine ⟨_, _, readLayout_eq_ok accepted hgolden, hwrites, ?_, fun manifest' hreordered ↦ ?_,
      hback⟩
    · exact complete_of_streamable hstreamable fun tile htile entry hentry ↦
        ((accepted.valid.tiles tile htile).control entry hentry).chunks_length
    · exact (expectedWrites_reordered accepted hgolden hcanonical hreordered).trans hwrites

/-- The image of the small manifest. -/
def smallImage : ProgramImage :=
  ⟨2, none, [⟨1, 2, [⟨1, ["0x00000002", "0x00000000", "0x00000000", "0x00000000"]⟩],
    [⟨3, "0x0000002a"⟩], []⟩]⟩

theorem canonical_smallImage : Canonical smallImage := by
  have hlower : ∀ text ∈ ["0x00000002", "0x00000000", "0x00000000", "0x00000000"],
      Hex.LowerWord text := by
    have hpass : Hex.LowerWord "0x00000002" := Hex.lowerWord_iff.mpr ⟨2, by decide⟩
    have hzero : Hex.LowerWord "0x00000000" := Hex.lowerWord_iff.mpr ⟨0, by decide⟩
    simp [hpass, hzero]
  have hdecodes : ∃ ctrl, decodeTexts ["0x00000002", "0x00000000", "0x00000000", "0x00000000"]
      Golden.shippedGoldenTarget = .ok ctrl := by
    have hok : (decodeTexts ["0x00000002", "0x00000000", "0x00000000", "0x00000000"]
        Golden.shippedGoldenTarget).toOption.isSome = true := by decide
    rcases hdecode : decodeTexts ["0x00000002", "0x00000000", "0x00000000", "0x00000000"]
        Golden.shippedGoldenTarget with e | ctrl
    · rw [hdecode] at hok
      exact absurd hok Bool.false_ne_true
    · exact ⟨ctrl, rfl⟩
  have hcontrols : smallImage.controls
      = [⟨1, ["0x00000002", "0x00000000", "0x00000000", "0x00000000"]⟩] := rfl
  refine ⟨?_, ?_⟩
  · rw [hcontrols, List.forall_mem_singleton]
    exact hlower
  · rw [hcontrols, List.forall_mem_singleton]
    exact hdecodes

/-- The stream of the small manifest, which has no loop. -/
theorem small_config_stream : ∃ layout writes, readLayout contractFile = .ok layout ∧
    expectedWrites contractFile (smallManifest [] "0x00000002" "0x0000002a") = .ok writes ∧
    Complete layout smallImage writes ∧
    ∃ emitted, emitConfigManifest repositoryFiles (smallManifest [] "0x00000002" "0x0000002a")
        = .ok emitted ∧ validateConfigManifest repositoryFiles emitted = .ok [] := by
  have haccepted : validateProgram repositoryFiles
      (smallManifest [] "0x00000002" "0x0000002a") = .ok [] := by decide
  have hloop : (smallManifest [] "0x00000002" "0x0000002a").field? "loop" ≠ some .null := nofun
  obtain ⟨layout, writes, hlayout, hwrites, hcomplete, -, hback⟩ :=
    (config_stream_iff haccepted (by decide) rfl rfl rfl canonical_smallImage).mpr hloop
  exact ⟨layout, writes, hlayout, hwrites, hcomplete, hback⟩

/-- With a loop that is null the same manifest is accepted and cannot be emitted. -/
theorem null_loop_not_emitted :
    validateProgram repositoryFiles
      (smallManifest [("loop", .null)] "0x00000002" "0x0000002a") = .ok [] ∧
    readProgram (smallManifest [("loop", .null)] "0x00000002" "0x0000002a") = some smallImage ∧
    Canonical smallImage ∧
    (∃ writes, expectedWrites contractFile
      (smallManifest [("loop", .null)] "0x00000002" "0x0000002a") = .ok writes) ∧
    ∀ emitted, emitConfigManifest repositoryFiles
      (smallManifest [("loop", .null)] "0x00000002" "0x0000002a") ≠ .ok emitted := by
  have haccepted : validateProgram repositoryFiles
      (smallManifest [("loop", .null)] "0x00000002" "0x0000002a") = .ok [] := by decide
  refine ⟨haccepted, rfl, canonical_smallImage, ?_, fun emitted h ↦ ?_⟩
  · have hok : (expectedWrites contractFile
        (smallManifest [("loop", .null)] "0x00000002" "0x0000002a")).toOption.isSome = true := by
      decide +kernel
    rcases hwrites : expectedWrites contractFile
        (smallManifest [("loop", .null)] "0x00000002" "0x0000002a") with e | writes
    · rw [hwrites] at hok
      exact absurd hok Bool.false_ne_true
    · exact ⟨writes, rfl⟩
  · have hok : (emitConfigManifest repositoryFiles
        (smallManifest [("loop", .null)] "0x00000002" "0x0000002a")).toOption.isSome = false := by
      decide +kernel
    rw [h] at hok
    exact absurd hok.symm Bool.false_ne_true

end ConfigStream

end PredicatedMesh
