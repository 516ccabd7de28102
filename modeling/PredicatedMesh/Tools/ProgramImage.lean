import PredicatedMesh.Tools.ProgramValidator

/-!
# The image of a program

The tools that come after the validator take a manifest apart without looking: every field is there
and every number is a number. `readProgram` is what they see, a run, a loop and the images of the
tiles. A document that lacks a field has no image.

`exists_image` is what the validator promises them. An accepted manifest has an image, and the image
has what was checked: coordinates and addresses in range and each of them once, words of the right
number of chunks, texts that pass as words, and a loop whose phases every tile covers.
-/

namespace PredicatedMesh

/-- A word of a control memory. -/
structure ControlImage where
  pc : ℤ
  chunks : List String
  deriving DecidableEq, Repr

/-- A word of a data memory. -/
structure WordImage where
  addr : ℤ
  value : String
  deriving DecidableEq, Repr

structure TileImage where
  row : ℤ
  col : ℤ
  control : List ControlImage
  constMemory : List WordImage
  scratchpadPreload : List WordImage
  deriving DecidableEq, Repr

structure LoopImage where
  enabled : Bool
  prologueCycles : ℤ
  ii : ℤ
  tripCount : ℤ
  epilogueCycles : ℤ
  deriving DecidableEq, Repr

structure ProgramImage where
  runCycles : ℤ
  loop : Option LoopImage
  tiles : List TileImage
  deriving DecidableEq, Repr

namespace LoopImage

/-- The addresses the phases of a loop take up. -/
def span (loop : LoopImage) : ℤ := loop.prologueCycles + loop.ii + loop.epilogueCycles

/-- The cycles of a loop. -/
def total (loop : LoopImage) : ℤ :=
  loop.prologueCycles + loop.tripCount * loop.ii + loop.epilogueCycles

end LoopImage

/-! ## Reading -/

namespace ProgramImage

def readInt (value : Json) (name : String) : Option ℤ :=
  (value.field? name).bind ProgramValidator.int?

def readWord (entry : Json) : Option WordImage := do
  let addr ← readInt entry "addr"
  let value ← (← entry.field? "value").str?
  return ⟨addr, value⟩

def readControl (entry : Json) : Option ControlImage := do
  let pc ← readInt entry "pc"
  let chunks ← (← entry.field? "chunks").items?
  return ⟨pc, ← chunks.mapM Json.str?⟩

/-- The entries of a list that is a field. -/
def readList {α : Type} (read : Json → Option α) (value : Json) (name : String) :
    Option (List α) := do
  (← (← value.field? name).items?).mapM read

def readTile (tile : Json) : Option TileImage := do
  let row ← readInt tile "row"
  let col ← readInt tile "col"
  let control ← readList readControl tile "control"
  let constMemory ← readList readWord tile "const_memory"
  let scratchpadPreload ← readList readWord tile "scratchpad_preload"
  return ⟨row, col, control, constMemory, scratchpadPreload⟩

def readLoopFields (loop : Json) : Option LoopImage := do
  let enabled ← (← loop.field? "enabled").bool?
  let prologueCycles ← readInt loop "prologue_cycles"
  let ii ← readInt loop "ii"
  let tripCount ← readInt loop "trip_count"
  let epilogueCycles ← readInt loop "epilogue_cycles"
  return ⟨enabled, prologueCycles, ii, tripCount, epilogueCycles⟩

/-- A manifest whose loop is no object has no loop. -/
def readLoop (manifest : Json) : Option (Option LoopImage) :=
  match manifest.field? "loop" with
  | some (.obj fields) => (readLoopFields (.obj fields)).map some
  | _ => some none

def readProgram (manifest : Json) : Option ProgramImage := do
  let run ← manifest.field? "run"
  let runCycles ← readInt run "run_cycles"
  let loop ← readLoop manifest
  let program ← manifest.field? "program"
  let tiles ← readList readTile program "tiles"
  return ⟨runCycles, loop, tiles⟩

end ProgramImage

/-! ## What has been checked -/

open ProgramValidator Scan

structure ControlImage.Valid (limits : Limits) (entry : ControlImage) : Prop where
  pc_range : 0 ≤ entry.pc ∧ entry.pc < limits.ctrlDepth
  chunks_length : (entry.chunks.length : ℤ) = limits.chunksPerControl
  chunks_hex : ∀ chunk ∈ entry.chunks, isHex32 (some (.str chunk)) = true

structure WordImage.Valid (depth : ℤ) (entry : WordImage) : Prop where
  addr_range : 0 ≤ entry.addr ∧ entry.addr < depth
  value_hex : isHex32 (some (.str entry.value)) = true

structure TileImage.Valid (rows cols : ℤ) (limits : Limits) (scratchDepth : ℤ) (tile : TileImage) :
    Prop where
  row_range : 0 ≤ tile.row ∧ tile.row < rows
  col_range : 0 ≤ tile.col ∧ tile.col < cols
  control : ∀ entry ∈ tile.control, entry.Valid limits
  control_nodup : (tile.control.map ControlImage.pc).Nodup
  constMemory : ∀ entry ∈ tile.constMemory, entry.Valid limits.constDepth
  constMemory_nodup : (tile.constMemory.map WordImage.addr).Nodup
  scratchpad : ∀ entry ∈ tile.scratchpadPreload, entry.Valid scratchDepth

/-- Every number of the loop is an unsigned word. -/
structure LoopImage.Fits (loop : LoopImage) : Prop where
  prologueCycles : 0 ≤ loop.prologueCycles ∧ loop.prologueCycles ≤ 0xffffffff
  ii : 0 ≤ loop.ii ∧ loop.ii ≤ 0xffffffff
  tripCount : 0 ≤ loop.tripCount ∧ loop.tripCount ≤ 0xffffffff
  epilogueCycles : 0 ≤ loop.epilogueCycles ∧ loop.epilogueCycles ≤ 0xffffffff

/-- The loop of an image, if it is enabled. -/
def ProgramImage.enabledLoop (image : ProgramImage) : Option LoopImage :=
  image.loop.filter LoopImage.enabled

structure ProgramImage.Valid (rows cols : ℤ) (limits : Limits) (scratchDepth : ℤ)
    (image : ProgramImage) : Prop where
  tiles : ∀ tile ∈ image.tiles, tile.Valid rows cols limits scratchDepth
  tiles_nodup : (image.tiles.map fun tile ↦ (tile.row, tile.col)).Nodup
  preload_nodup : ((image.tiles.flatMap TileImage.scratchpadPreload).map WordImage.addr).Nodup
  loop : ∀ loop ∈ image.loop, loop.Fits ∧ loop.span ≤ limits.ctrlDepth
  run : image.enabledLoop = none → 0 < image.runCycles ∧ image.runCycles < limits.ctrlDepth
  loop_run : ∀ loop ∈ image.enabledLoop, 0 < loop.ii ∧ 0 < loop.tripCount ∧
    image.runCycles = loop.total
  loop_covered : ∀ loop ∈ image.enabledLoop, ∀ tile ∈ image.tiles, ∀ pc,
    pc ∈ tile.control.map ControlImage.pc ↔ 0 ≤ pc ∧ pc < loop.span

/-! ## Lists of entries -/

namespace ProgramImage

theorem field?_of_get {value found : Json} {name : String}
    (h : ProgramValidator.get value name = some found) : value.field? name = some found := by
  rw [ProgramValidator.get] at h
  split at h
  · exact absurd h nofun
  · exact h

theorem exists_of_bind_int? {value : Json} {name : String} {n : ℤ}
    (h : (ProgramValidator.get value name).bind ProgramValidator.int? = some n) :
    readInt value name = some n := by
  obtain ⟨found, hget, hint⟩ := Option.bind_eq_some_iff.mp h
  rw [readInt, field?_of_get hget]
  exact hint

/-- A clean walk has read every entry, each with a key that no entry before it has. -/
theorem walk_clean {α σ : Type} {check : ℕ → Json → σ → List String × σ} {read : Json → Option α}
    {key : α → ℤ} {P : α → Prop} (keys : σ → List ℤ)
    (hcheck : ∀ index item state, (check index item state).1 = [] → ∃ a, read item = some a ∧ P a ∧
      key a ∉ keys state ∧
        ∀ k, k ∈ keys (check index item state).2 ↔ k = key a ∨ k ∈ keys state) :
    ∀ {items : List Json} {index : ℕ} {state : σ}, (walk check index items state).1 = [] →
      ∃ l, items.mapM read = some l ∧ (∀ a ∈ l, P a) ∧ (l.map key).Nodup ∧
        (∀ a ∈ l, key a ∉ keys state) ∧
          ∀ k, k ∈ keys (walk check index items state).2 ↔ k ∈ l.map key ∨ k ∈ keys state := by
  intro items
  induction items with
  | nil =>
    intro index state _
    exact ⟨[], rfl, by simp, List.nodup_nil, by simp, by simp [walk]⟩
  | cons item items ih =>
    intro index state h
    rw [walk, List.append_eq_nil_iff] at h
    obtain ⟨a, hread, hP, hnew, hkeys⟩ := hcheck index item state h.1
    obtain ⟨l, hl, hPl, hnodup, hnewl, hkeysl⟩ := ih h.2
    refine ⟨a :: l, ?_, ?_, ?_, ?_, fun k ↦ ?_⟩
    · rw [List.mapM_cons, hread, hl]
      rfl
    · exact List.forall_mem_cons.mpr ⟨hP, hPl⟩
    · rw [List.map_cons, List.nodup_cons]
      refine ⟨fun hmem ↦ ?_, hnodup⟩
      obtain ⟨b, hb, hkey⟩ := List.mem_map.mp hmem
      exact hnewl b hb ((hkeys _).mpr (.inl hkey))
    · rw [List.forall_mem_cons]
      exact ⟨hnew, fun b hb hmem ↦ hnewl b hb ((hkeys _).mpr (.inr hmem))⟩
    · rw [walk, hkeysl, hkeys, List.map_cons, List.mem_cons]
      tauto

theorem exists_str_of_isHex32 {value : Option Json} (h : isHex32 value = true) :
    ∃ text, value = some (.str text) := by
  unfold isHex32 at h
  split at h
  · exact ⟨_, rfl⟩
  · exact absurd h Bool.false_ne_true

/-- Chunks without a complaint are texts that pass as words, as many as a word has. -/
theorem exists_chunks {limits : Limits} {label : String} {chunks : Option Json}
    (h : checkChunks limits label chunks = []) :
    ∃ items l, chunks = some (.arr items) ∧ items.mapM Json.str? = some l ∧
      (l.length : ℤ) = limits.chunksPerControl ∧
        ∀ chunk ∈ l, isHex32 (some (.str chunk)) = true := by
  unfold checkChunks at h
  split at h
  · rename_i items
    rw [List.append_eq_nil_iff, require_eq_nil_iff, beq_iff_eq, List.flatMap_eq_nil_iff] at h
    obtain ⟨hlength, hhex⟩ := h
    have hall : ∀ item ∈ items, isHex32 (some item) = true := by
      intro item hitem
      obtain ⟨index, hindex⟩ := List.mem_iff_getElem?.mp hitem
      exact (require_eq_nil_iff _ _).mp
        (hhex (item, index) (List.mem_zipIdx_iff_getElem?.mpr hindex))
    clear hhex
    obtain ⟨l, hl, hlen, hstr⟩ : ∃ l, items.mapM Json.str? = some l ∧ l.length = items.length ∧
        ∀ chunk ∈ l, isHex32 (some (.str chunk)) = true := by
      clear hlength
      induction items with
      | nil => exact ⟨[], rfl, rfl, by simp⟩
      | cons item items ih =>
        rw [List.forall_mem_cons] at hall
        obtain ⟨l, hl, hlen, hstr⟩ := ih hall.2
        obtain ⟨text, htext⟩ := exists_str_of_isHex32 hall.1
        obtain rfl := Option.some.inj htext
        refine ⟨text :: l, ?_, by rw [List.length_cons, hlen, List.length_cons],
          List.forall_mem_cons.mpr ⟨hall.1, hstr⟩⟩
        rw [List.mapM_cons, hl]
        rfl
    exact ⟨items, l, rfl, hl, by rw [hlen, hlength], hstr⟩
  · exact absurd h (List.cons_ne_nil _ _)

theorem checkControlEntry_clean {limits : Limits} {label : String} {index : ℕ} {item : Json}
    {seen : List ℤ} (h : (checkControlEntry limits label index item seen).1 = []) :
    ∃ entry, readControl item = some entry ∧ entry.Valid limits ∧ entry.pc ∉ seen ∧
      ∀ k, k ∈ (checkControlEntry limits label index item seen).2 ↔ k = entry.pc ∨ k ∈ seen := by
  unfold checkControlEntry at h ⊢
  simp only at h ⊢
  split at h
  · split at h
    · exact absurd h (List.cons_ne_nil _ _)
    · rename_i fields pc hpc
      simp only [List.append_eq_nil_iff, require_eq_nil_iff, decide_eq_true_eq,
        Bool.not_eq_true', List.contains_eq_mem, decide_eq_false_iff_not] at h
      obtain ⟨⟨hrange, hnew⟩, hchunks⟩ := h
      obtain ⟨items, chunks, hget, hstr, hlength, hhex⟩ := exists_chunks hchunks
      refine ⟨⟨pc, chunks⟩, ?_, ⟨hrange, hlength, hhex⟩, hnew, fun k ↦ ?_⟩
      · rw [readControl, exists_of_bind_int? hpc, field?_of_get hget]
        simp only [Option.bind_eq_bind, Option.bind_some, Json.items?_arr, hstr]
        rfl
      · simp only [List.mem_cons]
  · exact absurd h (List.cons_ne_nil _ _)

theorem readWord_of_checked {entry : Json} {addr : ℤ}
    (haddr : (ProgramValidator.get entry "addr").bind ProgramValidator.int? = some addr)
    (hvalue : isHex32 (ProgramValidator.get entry "value") = true) :
    ∃ value, readWord entry = some ⟨addr, value⟩ ∧ isHex32 (some (.str value)) = true := by
  obtain ⟨value, hget⟩ := exists_str_of_isHex32 hvalue
  refine ⟨value, ?_, hget ▸ hvalue⟩
  rw [readWord, exists_of_bind_int? haddr, field?_of_get hget]
  rfl

theorem checkConstEntry_clean {limits : Limits} {label : String} {index : ℕ} {item : Json}
    {seen : List ℤ} (h : (checkConstEntry limits label index item seen).1 = []) :
    ∃ entry, readWord item = some entry ∧ entry.Valid limits.constDepth ∧ entry.addr ∉ seen ∧
      ∀ k, k ∈ (checkConstEntry limits label index item seen).2 ↔ k = entry.addr ∨ k ∈ seen := by
  unfold checkConstEntry at h ⊢
  simp only at h ⊢
  split at h
  · split at h
    · exact absurd h (List.cons_ne_nil _ _)
    · rename_i fields addr haddr
      simp only [List.append_eq_nil_iff, require_eq_nil_iff, decide_eq_true_eq,
        Bool.not_eq_true', List.contains_eq_mem, decide_eq_false_iff_not] at h
      obtain ⟨⟨hrange, hnew⟩, hvalue⟩ := h
      obtain ⟨value, hread, hhex⟩ := readWord_of_checked haddr hvalue
      refine ⟨⟨addr, value⟩, hread, ⟨hrange, hhex⟩, hnew, fun k ↦ ?_⟩
      simp only [List.mem_cons]
  · exact absurd h (List.cons_ne_nil _ _)

/-- The keys of an association list are those that are looked up. -/
theorem mem_keys_iff {κ α : Type} [BEq κ] [LawfulBEq κ] {entries : List (κ × α)} {key : κ} :
    key ∈ entries.map Prod.fst ↔ ∃ value, entries.lookup key = some value := by
  induction entries with
  | nil => simp
  | cons entry entries ih =>
    obtain ⟨k, v⟩ := entry
    rw [List.map_cons, List.mem_cons, List.lookup_cons, ih]
    by_cases hkey : key = k
    · subst hkey
      simp
    · rw [beq_false_of_ne hkey]
      simp only [hkey, false_or]

theorem checkScratchEntry_clean {scratchDepth : ℤ} {label : String} {index : ℕ} {item : Json}
    {seen : List (ℤ × String)} (h : (checkScratchEntry scratchDepth label index item seen).1 = []) :
    ∃ entry, readWord item = some entry ∧ entry.Valid scratchDepth ∧
      entry.addr ∉ seen.map Prod.fst ∧
        ∀ k, k ∈ (checkScratchEntry scratchDepth label index item seen).2.map Prod.fst ↔
          k = entry.addr ∨ k ∈ seen.map Prod.fst := by
  unfold checkScratchEntry at h ⊢
  simp only at h ⊢
  split at h
  · split at h
    · exact absurd h (List.cons_ne_nil _ _)
    · rename_i fields addr haddr
      split at h
      · simp at h
      · rename_i hlookup
        simp only [List.append_eq_nil_iff, require_eq_nil_iff, decide_eq_true_eq] at h
        obtain ⟨hrange, hvalue⟩ := h
        obtain ⟨value, hread, hhex⟩ := readWord_of_checked haddr hvalue
        refine ⟨⟨addr, value⟩, hread, ⟨hrange, hhex⟩, fun hmem ↦ ?_, fun k ↦ ?_⟩
        · obtain ⟨first, hfirst⟩ := mem_keys_iff.mp hmem
          cases hlookup.symm.trans hfirst
        · simp only [List.map_cons, List.mem_cons]
  · exact absurd h (List.cons_ne_nil _ _)

/-! ## Tiles -/

/-- The addresses of a tile are those of the phases. -/
def Covered (loop : LoopReport) (tile : TileImage) : Prop :=
  ∀ span, loop.enabled = true → loop.span = some span →
    ∀ pc, pc ∈ tile.control.map ControlImage.pc ↔ 0 ≤ pc ∧ pc < span

theorem checkSpan_clean {label : String} {loop : LoopReport} {seen : List ℤ} {span : ℤ}
    (h : checkSpan label loop seen = []) (henabled : loop.enabled = true)
    (hspan : loop.span = some span) (pc : ℤ) : pc ∈ seen ↔ 0 ≤ pc ∧ pc < span := by
  have hexpected : pc ∈ (List.range span.toNat).map (fun pc : ℕ ↦ (pc : ℤ)) ↔
      0 ≤ pc ∧ pc < span := by
    rw [List.mem_map]
    constructor
    · rintro ⟨n, hn, rfl⟩
      rw [List.mem_range] at hn
      omega
    · rintro ⟨hpos, hlt⟩
      exact ⟨pc.toNat, List.mem_range.mpr (by omega), by omega⟩
  rw [checkSpan, henabled, hspan] at h
  simp only [List.append_eq_nil_iff, require_eq_nil_iff, List.isEmpty_iff] at h
  obtain ⟨hmissing, hextra⟩ := h
  rw [← hexpected]
  constructor
  · intro hmem
    by_contra hnot
    refine List.ne_nil_of_mem (a := pc) ?_ hextra
    exact (List.mem_insertionSort _).mpr (List.mem_dedup.mpr (List.mem_filter.mpr
      ⟨hmem, by rw [List.contains_eq_mem, decide_eq_false hnot]; rfl⟩))
  · intro hmem
    by_contra hnot
    refine List.ne_nil_of_mem (a := pc) ?_ hmissing
    exact (List.mem_insertionSort _).mpr (List.mem_filter.mpr
      ⟨hmem, by rw [List.contains_eq_mem, decide_eq_false hnot]; rfl⟩)

theorem readList_of_get {α : Type} {read : Json → Option α} {value : Json} {name : String}
    {items : List Json} {l : List α} (hget : ProgramValidator.get value name = some (.arr items))
    (hread : items.mapM read = some l) : readList read value name = some l := by
  rw [readList, field?_of_get hget]
  exact hread

theorem checkControl_clean {limits : Limits} {loop : LoopReport} {label : String} {tile : Json}
    (h : checkControl limits loop label (ProgramValidator.get tile "control") = []) :
    ∃ control, readList readControl tile "control" = some control ∧
      (∀ entry ∈ control, entry.Valid limits) ∧ (control.map ControlImage.pc).Nodup ∧
        ∀ span, loop.enabled = true → loop.span = some span →
          ∀ pc, pc ∈ control.map ControlImage.pc ↔ 0 ≤ pc ∧ pc < span := by
  unfold checkControl at h
  split at h
  · rename_i items hget
    simp only [List.append_eq_nil_iff] at h
    obtain ⟨⟨-, hwalk⟩, hspan⟩ := h
    obtain ⟨control, hread, hvalid, hnodup, -, hkeys⟩ :=
      walk_clean id (fun _ _ _ h ↦ checkControlEntry_clean h) hwalk
    refine ⟨control, readList_of_get hget hread, hvalid, hnodup, fun span henabled hsome pc ↦ ?_⟩
    have hseen := hkeys pc
    simp only [id, List.not_mem_nil, or_false] at hseen
    rw [← hseen]
    exact checkSpan_clean hspan henabled hsome pc
  · exact absurd h (List.cons_ne_nil _ _)

theorem checkConstMemory_clean {limits : Limits} {label : String} {tile : Json}
    (h : checkConstMemory limits label (ProgramValidator.get tile "const_memory") = []) :
    ∃ entries, readList readWord tile "const_memory" = some entries ∧
      (∀ entry ∈ entries, entry.Valid limits.constDepth) ∧
        (entries.map WordImage.addr).Nodup := by
  unfold checkConstMemory at h
  split at h
  · rename_i items hget
    obtain ⟨entries, hread, hvalid, hnodup, -, -⟩ :=
      walk_clean id (fun _ _ _ h ↦ checkConstEntry_clean h) h
    exact ⟨entries, readList_of_get hget hread, hvalid, hnodup⟩
  · exact absurd h (List.cons_ne_nil _ _)

theorem checkScratchpad_clean {scratchDepth : ℤ} {label : String} {seen : List (ℤ × String)}
    {tile : Json} (h : (checkScratchpad scratchDepth label seen
      (ProgramValidator.get tile "scratchpad_preload")).1 = []) :
    ∃ entries, readList readWord tile "scratchpad_preload" = some entries ∧
      (∀ entry ∈ entries, entry.Valid scratchDepth) ∧ (entries.map WordImage.addr).Nodup ∧
        (∀ entry ∈ entries, entry.addr ∉ seen.map Prod.fst) ∧
          ∀ k, k ∈ (checkScratchpad scratchDepth label seen
              (ProgramValidator.get tile "scratchpad_preload")).2.map Prod.fst ↔
            k ∈ entries.map WordImage.addr ∨ k ∈ seen.map Prod.fst := by
  unfold checkScratchpad at h ⊢
  split at h
  · rename_i items hget
    obtain ⟨entries, hread, hvalid, hnodup, hnew, hkeys⟩ :=
      walk_clean (List.map Prod.fst) (fun _ _ _ h ↦ checkScratchEntry_clean h) h
    exact ⟨entries, readList_of_get hget hread, hvalid, hnodup, hnew, hkeys⟩
  · exact absurd h (List.cons_ne_nil _ _)

/-- The limits of a contract on coordinates. -/
structure Bounds (params : Json) (rows cols : ℤ) : Prop where
  rows : parameter params "array_rows" = .ok rows
  cols : parameter params "array_cols" = .ok cols

theorem checkInt_clean {value : Json} {label name : String} {bound : ℤ}
    (hint : checkInt value label name = []) (hrange : checkCoordinate value label name bound = []) :
    ∃ n, (ProgramValidator.get value name).bind ProgramValidator.int? = some n ∧ 0 ≤ n ∧
      n < bound := by
  rw [checkInt, require_eq_nil_iff, Option.isSome_iff_exists] at hint
  obtain ⟨n, hn⟩ := hint
  rw [checkCoordinate, hn] at hrange
  simp only [require_eq_nil_iff, decide_eq_true_eq] at hrange
  exact ⟨n, hn, hrange⟩

theorem checkTileCoord_clean {params tile : Json} {label : String}
    (h : checkTileCoord params label tile = .ok []) :
    ∃ rows cols row col, Bounds params rows cols ∧
      (ProgramValidator.get tile "row").bind ProgramValidator.int? = some row ∧
      (ProgramValidator.get tile "col").bind ProgramValidator.int? = some col ∧
      (0 ≤ row ∧ row < rows) ∧ 0 ≤ col ∧ col < cols := by
  obtain ⟨rows, hrows, h⟩ := bind_eq_ok.mp h
  obtain ⟨cols, hcols, h⟩ := bind_eq_ok.mp h
  have hnil := Except.ok.inj h
  simp only [List.append_eq_nil_iff] at hnil
  obtain ⟨⟨⟨hrow, hcol⟩, hrowRange⟩, hcolRange⟩ := hnil
  obtain ⟨row, hrow, hrowRange⟩ := checkInt_clean hrow hrowRange
  obtain ⟨col, hcol, hcolRange⟩ := checkInt_clean hcol hcolRange
  exact ⟨rows, cols, row, col, ⟨hrows, hcols⟩, hrow, hcol, hrowRange, hcolRange⟩

theorem key_of_int {value : Json} {name : String} {n : ℤ}
    (h : (ProgramValidator.get value name).bind ProgramValidator.int? = some n) :
    key (ProgramValidator.get value name) = .ok (.int n) := by
  obtain ⟨found, hget, hint⟩ := Option.bind_eq_some_iff.mp h
  rw [hget]
  rcases found with _ | b | m | _ | _ | _
  · exact absurd hint nofun
  · obtain rfl := Option.some.inj hint
    rfl
  · obtain rfl := Option.some.inj hint
    rfl
  · exact absurd hint nofun
  · exact absurd hint nofun
  · exact absurd hint nofun

/-- What a clean check of a tile has found, and what it has added to what has been seen. -/
structure TileFound (params : Json) (limits : Limits) (scratchDepth : ℤ) (loop : LoopReport)
    (item : Json) (state state' : TileState) (tile : TileImage) : Prop where
  read : readTile item = some tile
  bounds : ∃ rows cols, Bounds params rows cols ∧ tile.Valid rows cols limits scratchDepth
  covered : Covered loop tile
  new : (Key.int tile.row, Key.int tile.col) ∉ state.tiles
  tiles : state'.tiles = (Key.int tile.row, Key.int tile.col) :: state.tiles
  preload_nodup : (tile.scratchpadPreload.map WordImage.addr).Nodup
  preload_new : ∀ entry ∈ tile.scratchpadPreload, entry.addr ∉ state.scratch.map Prod.fst
  scratch : ∀ k, k ∈ state'.scratch.map Prod.fst ↔
    k ∈ tile.scratchpadPreload.map WordImage.addr ∨ k ∈ state.scratch.map Prod.fst

theorem checkTile_clean {params : Json} {limits : Limits} {scratchDepth : ℤ} {loop : LoopReport}
    {index : ℕ} {item : Json} {state state' : TileState}
    (h : checkTile params limits scratchDepth loop index item state = .ok ([], state')) :
    ∃ tile, TileFound params limits scratchDepth loop item state state' tile := by
  unfold checkTile at h
  split at h
  · rename_i fields
    obtain ⟨coordinates, hcoordinates, h⟩ := bind_eq_ok.mp h
    obtain ⟨rowKey, hrowKey, h⟩ := bind_eq_ok.mp h
    obtain ⟨colKey, hcolKey, h⟩ := bind_eq_ok.mp h
    have hpair := Prod.mk.inj (Except.ok.inj h)
    simp only [List.append_eq_nil_iff, require_eq_nil_iff, Bool.not_eq_true', List.contains_eq_mem,
      decide_eq_false_iff_not] at hpair
    obtain ⟨⟨⟨⟨⟨⟨-, rfl⟩, hnew⟩, hcontrol⟩, hconst⟩, hscratch⟩, rfl⟩ := hpair
    obtain ⟨rows, cols, row, col, hbounds, hrow, hcol, hrowRange, hcolRange⟩ :=
      checkTileCoord_clean hcoordinates
    obtain rfl := Except.ok.inj (hrowKey.symm.trans (key_of_int hrow))
    obtain rfl := Except.ok.inj (hcolKey.symm.trans (key_of_int hcol))
    obtain ⟨control, hreadControl, hvalidControl, hpcs, hcovered⟩ := checkControl_clean hcontrol
    obtain ⟨consts, hreadConsts, hvalidConsts, haddrs⟩ := checkConstMemory_clean hconst
    obtain ⟨preload, hreadPreload, hvalidPreload, hpreload, hpreloadNew, hkeys⟩ :=
      checkScratchpad_clean hscratch
    refine ⟨⟨row, col, control, consts, preload⟩, ⟨?_, ⟨rows, cols, hbounds, ⟨hrowRange, hcolRange,
      hvalidControl, hpcs, hvalidConsts, haddrs, hvalidPreload⟩⟩, hcovered, hnew, rfl, hpreload,
      hpreloadNew, hkeys⟩⟩
    rw [readTile, exists_of_bind_int? hrow, exists_of_bind_int? hcol, hreadControl, hreadConsts,
      hreadPreload]
    rfl
  · exact absurd (Prod.mk.inj (Except.ok.inj h)).1 (List.cons_ne_nil _ _)

/-- The tiles of a clean check, given what has been seen before them. -/
structure TilesFound (params : Json) (limits : Limits) (scratchDepth : ℤ) (loop : LoopReport)
    (items : List Json) (state : TileState) (tiles : List TileImage) : Prop where
  read : items.mapM readTile = some tiles
  valid : ∀ tile ∈ tiles,
    (∃ rows cols, Bounds params rows cols ∧ tile.Valid rows cols limits scratchDepth) ∧
      Covered loop tile
  nodup : (tiles.map fun tile ↦ (tile.row, tile.col)).Nodup
  new : ∀ tile ∈ tiles, (Key.int tile.row, Key.int tile.col) ∉ state.tiles
  preload_nodup : ((tiles.flatMap TileImage.scratchpadPreload).map WordImage.addr).Nodup
  preload_new : ∀ entry ∈ tiles.flatMap TileImage.scratchpadPreload,
    entry.addr ∉ state.scratch.map Prod.fst

theorem checkTiles_clean {params : Json} {limits : Limits} {scratchDepth : ℤ} {loop : LoopReport}
    {items : List Json} {index : ℕ} {state : TileState}
    (h : checkTiles params limits scratchDepth loop index items state = .ok []) :
    ∃ tiles, TilesFound params limits scratchDepth loop items state tiles := by
  induction items generalizing index state with
  | nil => exact ⟨[], rfl, by simp, List.nodup_nil, by simp, List.nodup_nil, by simp⟩
  | cons item items ih =>
    obtain ⟨⟨errors, state'⟩, hfirst, h⟩ := bind_eq_ok.mp h
    obtain ⟨rest, hrest, h⟩ := bind_eq_ok.mp h
    obtain ⟨rfl, rfl⟩ := List.append_eq_nil_iff.mp (Except.ok.inj h)
    obtain ⟨tile, htile⟩ := checkTile_clean hfirst
    obtain ⟨tiles, htiles⟩ := ih hrest
    refine ⟨tile :: tiles, ?_, ?_, ?_, ?_, ?_, ?_⟩
    · rw [List.mapM_cons, htile.read, htiles.read]
      rfl
    · exact List.forall_mem_cons.mpr ⟨⟨htile.bounds, htile.covered⟩, htiles.valid⟩
    · rw [List.map_cons, List.nodup_cons]
      refine ⟨fun hmem ↦ ?_, htiles.nodup⟩
      obtain ⟨other, hother, heq⟩ := List.mem_map.mp hmem
      obtain ⟨hrow, hcol⟩ := Prod.mk.inj heq
      refine htiles.new other hother ?_
      rw [htile.tiles, hrow, hcol]
      exact List.mem_cons_self
    · rw [List.forall_mem_cons]
      refine ⟨htile.new, fun other hother hmem ↦ htiles.new other hother ?_⟩
      rw [htile.tiles]
      exact List.mem_cons_of_mem _ hmem
    · rw [List.flatMap_cons, List.map_append]
      refine List.Nodup.append htile.preload_nodup htiles.preload_nodup fun k hk hlater ↦ ?_
      obtain ⟨entry, hentry, rfl⟩ := List.mem_map.mp hlater
      exact htiles.preload_new entry hentry ((htile.scratch _).mpr (.inl hk))
    · intro entry hentry hmem
      rw [List.flatMap_cons, List.mem_append] at hentry
      rcases hentry with hentry | hentry
      · exact htile.preload_new entry hentry hmem
      · exact htiles.preload_new entry hentry ((htile.scratch _).mpr (.inr hmem))

/-! ## The loop and the run -/

theorem readInt_of_exactInt {value : Json} {name : String} {n : ℤ}
    (h : exactInt value name = some n) : readInt value name = some n := by
  obtain ⟨found, hget, hint⟩ := Option.bind_eq_some_iff.mp h
  rw [readInt, field?_of_get hget]
  rcases found with _ | _ | m | _ | _ | _
  · exact absurd hint nofun
  · exact absurd hint nofun
  · exact hint
  · exact absurd hint nofun
  · exact absurd hint nofun
  · exact absurd hint nofun

theorem checkLoopField_clean {loop : Json} {name : String} (h : checkLoopField loop name = []) :
    ∃ n, exactInt loop name = some n ∧ 0 ≤ n ∧ n ≤ 0xffffffff := by
  unfold checkLoopField at h
  split at h
  · exact absurd h (List.cons_ne_nil _ _)
  · rename_i n hn
    exact ⟨n, hn, of_decide_eq_true ((require_eq_nil_iff _ _).mp h)⟩

/-- What a clean check of the loop has found. -/
structure LoopFound (ctrlDepth : ℤ) (report : LoopReport) (loop : Option LoopImage) : Prop where
  fits : ∀ l ∈ loop, l.Fits ∧ l.span ≤ ctrlDepth
  idle : loop.filter LoopImage.enabled = none → report.total = none ∨ report.enabled = false
  enabled : ∀ l ∈ loop.filter LoopImage.enabled, report.enabled = true ∧
    report.span = some l.span ∧ report.total = some l.total ∧ 0 < l.ii ∧ 0 < l.tripCount

theorem checkLoop_clean {ctrlDepth : ℤ} {manifest : Json}
    (h : (checkLoop ctrlDepth (ProgramValidator.get manifest "loop")).errors = []) :
    ∃ loop, readLoop manifest = some loop ∧
      LoopFound ctrlDepth (checkLoop ctrlDepth (ProgramValidator.get manifest "loop")) loop := by
  generalize hget : ProgramValidator.get manifest "loop" = found at h ⊢
  unfold checkLoop at h ⊢
  split at h
  · refine ⟨none, ?_, by simp, by simp, by simp⟩
    unfold readLoop
    rw [ProgramValidator.get] at hget
    split
    · rename_i fields hfield
      rw [hfield] at hget
      exact absurd hget nofun
    · rfl
  · rename_i fields
    have hread : readLoop manifest = (readLoopFields (.obj fields)).map some := by
      rw [readLoop, field?_of_get hget]
    rw [hread]
    simp only at h ⊢
    obtain ⟨henabled, hfields⟩ : ((ProgramValidator.get (.obj fields) "enabled").bind
        Json.bool?).isSome = true ∧ loopFields.flatMap (checkLoopField (.obj fields)) = [] := by
      split at h
      · simp only [List.append_eq_nil_iff, require_eq_nil_iff] at h
        exact ⟨h.1.2, h.2⟩
      · split at h
        · simp only [List.append_eq_nil_iff, require_eq_nil_iff] at h
          exact ⟨h.1.1.1.1.2, h.1.1.1.2⟩
        · simp only [List.append_eq_nil_iff, require_eq_nil_iff] at h
          exact ⟨h.1.1.2, h.1.2⟩
    simp only [loopFields, List.flatMap_cons, List.flatMap_nil, List.append_eq_nil_iff,
      List.append_nil] at hfields
    obtain ⟨hp, hii, ht, he⟩ := hfields
    obtain ⟨prologue, hp, hprange⟩ := checkLoopField_clean hp
    obtain ⟨ii, hii, hiirange⟩ := checkLoopField_clean hii
    obtain ⟨tripCount, ht, htrange⟩ := checkLoopField_clean ht
    obtain ⟨epilogue, he, herange⟩ := checkLoopField_clean he
    obtain ⟨enabled, henabled⟩ := Option.isSome_iff_exists.mp henabled
    have hnumbers : loopNumbers (.obj fields) = some (prologue, ii, tripCount, epilogue) := by
      rw [loopNumbers, hp, hii, ht, he]
      rfl
    have hloop : readLoopFields (.obj fields)
        = some ⟨enabled, prologue, ii, tripCount, epilogue⟩ := by
      obtain ⟨value, hvalue, hbool⟩ := Option.bind_eq_some_iff.mp henabled
      rw [readLoopFields, field?_of_get hvalue, readInt_of_exactInt hp, readInt_of_exactInt hii,
        readInt_of_exactInt ht, readInt_of_exactInt he]
      simp only [Option.bind_eq_bind, Option.bind_some, hbool]
      rfl
    rw [hloop, hnumbers, henabled]
    rw [hnumbers, henabled] at h
    simp only at h
    refine ⟨some ⟨enabled, prologue, ii, tripCount, epilogue⟩, rfl, ?_⟩
    rcases enabled with _ | _
    · simp only [Bool.false_eq_true, if_false, Option.some.injEq, beq_iff_eq,
        List.append_eq_nil_iff, require_eq_nil_iff, decide_eq_true_eq] at h
      refine ⟨fun l hl ↦ ?_, fun _ ↦ .inr rfl, by simp⟩
      obtain rfl := Option.some.inj hl
      exact ⟨⟨hprange, hiirange, htrange, herange⟩, h.2⟩
    · simp only [beq_self_eq_true, if_true, List.append_eq_nil_iff, require_eq_nil_iff,
        decide_eq_true_eq] at h
      obtain ⟨⟨⟨-, hspan⟩, hii⟩, htrip⟩ := h
      refine ⟨fun l hl ↦ ?_, by simp, fun l hl ↦ ?_⟩
      · obtain rfl := Option.some.inj hl
        exact ⟨⟨hprange, hiirange, htrange, herange⟩, hspan⟩
      · obtain rfl := Option.some.inj hl
        exact ⟨rfl, rfl, rfl, hii, htrip⟩
  · exact absurd h (List.cons_ne_nil _ _)

/-- A loop without a complaint is an object. -/
theorem exists_obj_of_checkLoop {ctrlDepth : ℤ} {found : Json}
    (h : (checkLoop ctrlDepth (some found)).errors = []) : ∃ fields, found = .obj fields := by
  unfold checkLoop at h
  split at h
  · rename_i hnone
    exact absurd hnone nofun
  · rename_i fields hsome
    exact ⟨fields, Option.some.inj hsome⟩
  · exact absurd h (List.cons_ne_nil _ _)

theorem checkRun_clean {ctrlDepth : ℤ} {report : LoopReport} {manifest : Json}
    (h : checkRun ctrlDepth report (ProgramValidator.get manifest "run") = .ok []) :
    ∃ run runCycles, manifest.field? "run" = some run ∧ readInt run "run_cycles" = some runCycles ∧
      ((report.total = none ∨ report.enabled = false) → 0 < runCycles ∧ runCycles < ctrlDepth) ∧
        ∀ total, report.enabled = true → report.total = some total → runCycles = total := by
  generalize hget : ProgramValidator.get manifest "run" = found at h
  have hcycles : ∃ fields, found = some (.obj fields) ∧
      checkRunCycles ctrlDepth report (.obj fields) = [] := by
    unfold checkRun at h
    split at h
    · rename_i fields
      refine ⟨fields, rfl, ?_⟩
      simp only at h
      split at h
      · obtain ⟨mode, -, h⟩ := bind_eq_ok.mp h
        exact (List.append_eq_nil_iff.mp (Except.ok.inj h)).1
      · exact (List.append_eq_nil_iff.mp (Except.ok.inj h)).1
    · exact absurd (Except.ok.inj h) (List.cons_ne_nil _ _)
  obtain ⟨fields, rfl, hcycles⟩ := hcycles
  unfold checkRunCycles at hcycles
  split at hcycles
  · exact absurd hcycles (List.cons_ne_nil _ _)
  · rename_i runCycles hrun
    refine ⟨.obj fields, runCycles, field?_of_get hget, exists_of_bind_int? hrun, ?_, ?_⟩
    · intro hidle
      split at hcycles
      · rename_i total henabled htotal
        rcases hidle with hidle | hidle
        · exact absurd (hidle.symm.trans htotal) nofun
        · exact absurd (hidle.symm.trans henabled) nofun
      · exact of_decide_eq_true ((require_eq_nil_iff _ _).mp hcycles)
    · intro total henabled htotal
      rw [henabled, htotal] at hcycles
      exact beq_iff_eq.mp ((require_eq_nil_iff _ _).mp hcycles)

/-! ## Accepted manifests -/

theorem field?_of_holds_str {value : Json} {name text : String}
    (h : holds value name (.str text) = true) : value.field? name = some (.str text) := by
  unfold holds at h
  generalize hget : ProgramValidator.get value name = found at h
  rcases found with _ | found
  · exact absurd h (by simp [equal])
  · rcases found with _ | _ | _ | other | _ | _
    · exact absurd h (by simp [equal])
    · exact absurd h (by simp [equal, ProgramValidator.int?])
    · exact absurd h (by simp [equal, ProgramValidator.int?])
    · rw [Option.getD_some, equal, beq_iff_eq] at h
      exact h ▸ field?_of_get hget
    · exact absurd h (by simp [equal])
    · exact absurd h (by simp [equal])

/-- The check of the program has found its tiles. -/
theorem checkProgram_clean {params : Json} {limits : Limits} {scratchDepth : ℤ}
    {report : LoopReport}
    {manifest : Json} {goesOn : Bool} (h : checkProgram params limits scratchDepth report
      (ProgramValidator.get manifest "program") = .ok ([], goesOn)) :
    ∃ program items tiles, manifest.field? "program" = some program ∧
      program.field? "control_word_encoding" = some (.str "lsb_first_32bit_chunks") ∧
      program.field? "tiles" = some (.arr items) ∧ items ≠ [] ∧
      TilesFound params limits scratchDepth report items {} tiles := by
  generalize hget : ProgramValidator.get manifest "program" = found at h
  unfold checkProgram at h
  split at h
  · rename_i fields
    simp only at h
    split at h
    · rename_i items hitems
      obtain ⟨errors, herrors, h⟩ := bind_eq_ok.mp h
      have hnil := (Prod.mk.inj (Except.ok.inj h)).1
      simp only [List.append_eq_nil_iff, require_eq_nil_iff, Bool.not_eq_true',
        List.isEmpty_eq_false_iff] at hnil
      obtain ⟨⟨⟨-, hencoding⟩, hne⟩, rfl⟩ := hnil
      obtain ⟨tiles, htiles⟩ := checkTiles_clean herrors
      exact ⟨.obj fields, items, tiles, field?_of_get hget, field?_of_holds_str hencoding,
        field?_of_get hitems, hne, htiles⟩
    · exact absurd (Prod.mk.inj (Except.ok.inj h)).1
        (List.append_ne_nil_of_right_ne_nil _ (List.cons_ne_nil _ _))
  · exact absurd (Prod.mk.inj (Except.ok.inj h)).1 (List.cons_ne_nil _ _)

/-- What an accepted manifest names and holds. -/
structure Accepted (files : String → Option Json) (manifest contract : Json) (params : Json)
    (limits : Limits) (rows cols scratchDepth : ℤ) (image : ProgramImage) : Prop where
  target : loadTarget files (ProgramValidator.get manifest "target") = ([], some contract)
  parameters : contract.field? "parameters" = some params
  limited : ProgramValidator.limits params = .ok limits
  bounds : Bounds params rows cols
  encoding : ∃ program, manifest.field? "program" = some program ∧
    program.field? "control_word_encoding" = some (.str "lsb_first_32bit_chunks")
  loop_object : ∀ loop, ProgramValidator.get manifest "loop" = some loop →
    ∃ fields, loop = .obj fields
  read : readProgram manifest = some image
  valid : image.Valid rows cols limits scratchDepth

theorem exists_image_of_checkAgainst {contract params manifest : Json} {limits : Limits}
    {scratchDepth : ℤ} (h : checkAgainst contract params manifest limits scratchDepth = .ok []) :
    ∃ rows cols image program, Bounds params rows cols ∧ manifest.field? "program" = some program ∧
      program.field? "control_word_encoding" = some (.str "lsb_first_32bit_chunks") ∧
      (∀ loop, ProgramValidator.get manifest "loop" = some loop → ∃ fields, loop = .obj fields) ∧
      readProgram manifest = some image ∧ image.Valid rows cols limits scratchDepth := by
  obtain ⟨runErrors, hrun, h⟩ := bind_eq_ok.mp h
  obtain ⟨⟨programErrors, goesOn⟩, hprogram, h⟩ := bind_eq_ok.mp h
  have hnil := Except.ok.inj h
  simp only [List.append_eq_nil_iff] at hnil
  obtain ⟨⟨⟨⟨-, hloop⟩, rfl⟩, rfl⟩, -⟩ := hnil
  obtain ⟨loop, hreadLoop, hfound⟩ := checkLoop_clean hloop
  obtain ⟨run, runCycles, hfieldRun, hcycles, hidle, htotal⟩ := checkRun_clean hrun
  obtain ⟨program, items, tiles, hfield, hencoding, hitems, hne, htiles⟩ :=
    checkProgram_clean hprogram
  have hsame : ∀ rows cols rows' cols', Bounds params rows cols → Bounds params rows' cols' →
      rows' = rows ∧ cols' = cols := fun rows cols rows' cols' hb hb' ↦
    ⟨Except.ok.inj (hb'.rows.symm.trans hb.rows), Except.ok.inj (hb'.cols.symm.trans hb.cols)⟩
  obtain ⟨rows, cols, hbounds⟩ : ∃ rows cols, Bounds params rows cols := by
    rcases tiles with _ | ⟨tile, tiles⟩
    · rcases items with _ | ⟨item, items⟩
      · exact absurd rfl hne
      · have hread := htiles.read
        rw [List.mapM_cons] at hread
        obtain ⟨_, -, hread⟩ := Option.bind_eq_some_iff.mp hread
        obtain ⟨_, -, hread⟩ := Option.bind_eq_some_iff.mp hread
        exact absurd hread nofun
    · obtain ⟨⟨rows, cols, hbounds, -⟩, -⟩ := htiles.valid tile List.mem_cons_self
      exact ⟨rows, cols, hbounds⟩
  have hobject : ∀ loop, ProgramValidator.get manifest "loop" = some loop →
      ∃ fields, loop = .obj fields := fun found hget ↦
    exists_obj_of_checkLoop (hget ▸ hloop)
  refine ⟨rows, cols, ⟨runCycles, loop, tiles⟩, program, hbounds, hfield, hencoding, hobject, ?_,
    ?_⟩
  · rw [readProgram, hfieldRun]
    simp only [Option.bind_eq_bind, Option.bind_some, hcycles, hreadLoop, hfield]
    rw [readList, hitems]
    simp only [Option.bind_eq_bind, Option.bind_some, Json.items?_arr, htiles.read]
    rfl
  · refine ⟨fun tile htile ↦ ?_, htiles.nodup, htiles.preload_nodup, hfound.fits, fun hnone ↦ ?_,
      fun l hl ↦ ?_, fun l hl tile htile ↦ ?_⟩
    · obtain ⟨⟨rows', cols', hbounds', hvalid⟩, -⟩ := htiles.valid tile htile
      obtain ⟨rfl, rfl⟩ := hsame _ _ _ _ hbounds hbounds'
      exact hvalid
    · exact hidle (hfound.idle hnone)
    · obtain ⟨henabled, -, htot, hii, htrip⟩ := hfound.enabled l hl
      exact ⟨hii, htrip, htotal _ henabled htot⟩
    · obtain ⟨henabled, hspan, -⟩ := hfound.enabled l hl
      exact (htiles.valid tile htile).2 _ henabled hspan

/-- **An accepted manifest has an image**, and the image has what was checked. -/
theorem exists_image {files : String → Option Json} {manifest : Json}
    (h : validateProgram files manifest = .ok []) :
    ∃ contract params limits rows cols scratchDepth image,
      Accepted files manifest contract params limits rows cols scratchDepth image := by
  unfold validateProgram at h
  split at h
  · rename_i fields
    simp only at h
    split at h
    · rename_i errors hload
      obtain ⟨-, rfl⟩ := List.append_eq_nil_iff.mp (Except.ok.inj h)
      unfold loadTarget at hload
      split at hload
      · simp only at hload
        split at hload
        · split at hload
          · exact absurd (Prod.mk.inj hload).1 (List.cons_ne_nil _ _)
          · exact absurd (Prod.mk.inj hload).2 nofun
        · exact absurd (Prod.mk.inj hload).1 (List.cons_ne_nil _ _)
      · exact absurd (Prod.mk.inj hload).1 (List.cons_ne_nil _ _)
    · rename_i errors contract hload
      obtain ⟨found, hcontract, h⟩ := bind_eq_ok.mp h
      obtain ⟨htop, rfl⟩ := List.append_eq_nil_iff.mp (Except.ok.inj h)
      obtain ⟨-, rfl⟩ := List.append_eq_nil_iff.mp htop
      unfold checkContract at hcontract
      split at hcontract
      · exact absurd hcontract nofun
      · rename_i params hparams
        obtain ⟨lims, hlimits, hcontract⟩ := bind_eq_ok.mp hcontract
        simp only at hcontract
        split at hcontract
        · exact absurd (Except.ok.inj hcontract)
            (List.append_ne_nil_of_right_ne_nil _ (List.cons_ne_nil _ _))
        · rename_i scratchDepth hscratch
          split at hcontract
          · exact absurd (Except.ok.inj hcontract)
              (List.append_ne_nil_of_right_ne_nil _ (List.cons_ne_nil _ _))
          · obtain ⟨rest, hrest, hcontract⟩ := bind_eq_ok.mp hcontract
            obtain ⟨-, rfl⟩ := List.append_eq_nil_iff.mp (Except.ok.inj hcontract)
            obtain ⟨rows, cols, image, program, hbounds, hprogram, hencoding, hobject, hread,
              hvalid⟩ := exists_image_of_checkAgainst hrest
            exact ⟨contract, params, lims, rows, cols, scratchDepth, image, hload, hparams, hlimits,
              hbounds, ⟨program, hprogram, hencoding⟩, hobject, hread, hvalid⟩
  · exact absurd (Except.ok.inj h) (List.cons_ne_nil _ _)

end ProgramImage

end PredicatedMesh
