import Mathlib.Data.Prod.Lex
import PredicatedMesh.Tools.HexGrammar

/-!
# The writes of an image

Which words a stream writes can be said without its loops. `Prescribes` does so, memory by memory: a
constant, a preload, a control word or the zeros that stand for one, a number of the loop. The words
of an image are the prescribed ones (`mem_imageWrites`).

Their order is not left open either. The stream goes through the memories in turn, through the tiles
row by row and through the addresses upwards, so the slots increase (`imageWrites_sorted`). A list
whose slots increase is determined by its members. This is why no slot is written twice, and why the
order of the manifest leaves no trace in the stream.
-/

namespace PredicatedMesh.ConfigStream

open ProgramImage Scan

/-! ## Dictionaries -/

section Dictionary

variable {κ α : Type} [DecidableEq κ]

theorem setEntry_of_not_mem {key : κ} {value : α} {dict : List (κ × α)}
    (h : key ∉ dict.map Prod.fst) : setEntry key value dict = dict ++ [(key, value)] := by
  induction dict with
  | nil => rfl
  | cons entry dict ih =>
    rw [List.map_cons, List.mem_cons, not_or] at h
    rw [setEntry, if_neg fun heq ↦ h.1 heq.symm, ih h.2, List.cons_append]

/-- A dictionary of distinct keys has its entries as they are listed. -/
theorem dictionary_of_nodup {entries : List (κ × α)} (h : (entries.map Prod.fst).Nodup) :
    dictionary entries = entries := by
  have hfold : ∀ (entries dict : List (κ × α)), ((dict ++ entries).map Prod.fst).Nodup →
      entries.foldl (fun dict entry ↦ setEntry entry.1 entry.2 dict) dict = dict ++ entries := by
    intro entries
    induction entries with
    | nil => exact fun dict _ ↦ (List.append_nil dict).symm
    | cons entry entries ih =>
      intro dict hnodup
      have hnew : entry.1 ∉ dict.map Prod.fst := by
        rw [List.map_append, List.map_cons] at hnodup
        exact fun hmem ↦ (List.nodup_append.mp hnodup).2.2 _ hmem _ List.mem_cons_self rfl
      rw [List.foldl_cons, setEntry_of_not_mem hnew, ih _ (by rwa [List.append_assoc]),
        List.append_assoc]
      rfl
  exact hfold entries [] h

end Dictionary

/-- An entry of distinct keys is what its key is looked up as. -/
theorem lookup_eq_some_iff {κ α : Type} [BEq κ] [LawfulBEq κ] {entries : List (κ × α)}
    (h : (entries.map Prod.fst).Nodup) {key : κ}
    {value : α} : entries.lookup key = some value ↔ (key, value) ∈ entries := by
  induction entries with
  | nil => simp
  | cons entry entries ih =>
    obtain ⟨k, v⟩ := entry
    rw [List.map_cons, List.nodup_cons] at h
    rw [List.lookup_cons, List.mem_cons, Prod.mk.injEq]
    by_cases hkey : key = k
    · subst hkey
      rw [beq_self_eq_true]
      simp only [Option.some.injEq, true_and]
      refine ⟨fun heq ↦ .inl heq.symm, ?_⟩
      rintro (rfl | hmem)
      · rfl
      · exact absurd (List.mem_map_of_mem (f := Prod.fst) hmem) h.1
    · rw [beq_false_of_ne hkey]
      simp only [hkey, false_and, false_or]
      exact ih h.2

/-! ## The order of slots -/

def ConfigMemory.rank : ConfigMemory → ℕ
  | .constMem => 0
  | .sharedScratchpad => 1
  | .controlMem => 2
  | .loopDesc => 3

/-- Slots are compared by memory, row, column, address and word. -/
def Slot.key (slot : Slot) : ℕ ×ₗ ℤ ×ₗ ℤ ×ₗ ℤ ×ₗ ℕ :=
  toLex (slot.memory.rank, toLex (slot.row, toLex (slot.col, toLex (slot.addr, slot.wordIdx))))

/-- A word comes before another. -/
def Before (a b : Slot × String) : Prop := a.1.key < b.1.key

theorem before_iff {a b : Slot × String} : Before a b ↔
    a.1.memory.rank < b.1.memory.rank ∨ a.1.memory.rank = b.1.memory.rank ∧
      (a.1.row < b.1.row ∨ a.1.row = b.1.row ∧ (a.1.col < b.1.col ∨ a.1.col = b.1.col ∧
        (a.1.addr < b.1.addr ∨ a.1.addr = b.1.addr ∧ a.1.wordIdx < b.1.wordIdx))) := by
  simp only [Before, Slot.key, Prod.Lex.toLex_lt_toLex]

instance : Std.Irrefl Before := ⟨fun a ↦ lt_irrefl a.1.key⟩

instance : Std.Antisymm Before := ⟨fun a _ h h' ↦ absurd (lt_trans h h') (lt_irrefl a.1.key)⟩

theorem nodup_slots {words : List (Slot × String)} (h : words.Pairwise Before) :
    (words.map Prod.fst).Nodup := by
  rw [List.Nodup, List.pairwise_map]
  refine h.imp fun {a b} hlt heq ↦ ?_
  rw [Before, heq] at hlt
  exact lt_irrefl _ hlt

/-! ## What a stream can be made of -/

/-- What an image needs for its stream: tiles of the array with distinct coordinates, distinct
addresses in every memory, and control words that come out of the codec as they were. -/
structure Streamable (layout : Layout) (image : ProgramImage) : Prop where
  range : ∀ tile ∈ image.tiles,
    (0 ≤ tile.row ∧ tile.row < layout.rows) ∧ 0 ≤ tile.col ∧ tile.col < layout.cols
  tiles_nodup : (image.tiles.map fun tile ↦ (tile.row, tile.col)).Nodup
  control_nodup : ∀ tile ∈ image.tiles, (tile.control.map ControlImage.pc).Nodup
  const_nodup : ∀ tile ∈ image.tiles, (tile.constMemory.map WordImage.addr).Nodup
  preload_nodup : ((image.tiles.flatMap TileImage.scratchpadPreload).map WordImage.addr).Nodup
  round_trip : ∀ tile ∈ image.tiles, ∀ entry ∈ tile.control, ∀ context,
    roundTripChunks entry.chunks layout.golden context = .ok entry.chunks

namespace Streamable

variable {layout : Layout} {image : ProgramImage} (streamable : Streamable layout image)
include streamable

theorem tileImages_eq : tileImages image
    = image.tiles.map fun tile ↦ ((tile.row, tile.col), tile) := by
  refine dictionary_of_nodup ?_
  rw [List.map_map]
  exact streamable.tiles_nodup

/-- The tile at a coordinate. -/
theorem lookup_tile {coord : ℤ × ℤ} {tile : TileImage} :
    (tileImages image).lookup coord = some tile ↔
      tile ∈ image.tiles ∧ (tile.row, tile.col) = coord := by
  rw [streamable.tileImages_eq, lookup_eq_some_iff]
  · rw [List.mem_map]
    constructor
    · rintro ⟨tile', htile, heq⟩
      obtain ⟨rfl, rfl⟩ := Prod.mk.inj heq
      exact ⟨htile, rfl⟩
    · rintro ⟨htile, rfl⟩
      exact ⟨tile, htile, rfl⟩
  · rw [List.map_map]
    exact streamable.tiles_nodup

theorem explicitControls_of_lookup {coord : ℤ × ℤ} {tile : TileImage}
    (h : (tileImages image).lookup coord = some tile) :
    explicitControls (tileImages image) coord
      = tile.control.map fun entry ↦ (entry.pc, entry) := by
  rw [explicitControls, h]
  refine dictionary_of_nodup ?_
  rw [List.map_map]
  exact streamable.control_nodup tile (streamable.lookup_tile.mp h).1

/-- The control word at an address of a tile. -/
theorem lookup_control {coord : ℤ × ℤ} {pc : ℤ} {entry : ControlImage} :
    (explicitControls (tileImages image) coord).lookup pc = some entry ↔
      ∃ tile ∈ image.tiles, (tile.row, tile.col) = coord ∧ entry ∈ tile.control ∧
        entry.pc = pc := by
  rcases htile : (tileImages image).lookup coord with _ | tile
  · rw [explicitControls, htile]
    refine ⟨fun h ↦ absurd h nofun, ?_⟩
    rintro ⟨tile, hmem, hcoord, -⟩
    have hsome := streamable.lookup_tile.mpr ⟨hmem, hcoord⟩
    exact absurd (htile.symm.trans hsome) nofun
  · obtain ⟨hmem, hcoord⟩ := streamable.lookup_tile.mp htile
    rw [streamable.explicitControls_of_lookup htile, lookup_eq_some_iff]
    · rw [List.mem_map]
      constructor
      · rintro ⟨entry', hentry, heq⟩
        obtain ⟨rfl, rfl⟩ := Prod.mk.inj heq
        exact ⟨tile, hmem, hcoord, hentry, rfl⟩
      · rintro ⟨tile', hmem', hcoord', hentry, rfl⟩
        have hsame := streamable.lookup_tile.mpr ⟨hmem', hcoord'⟩
        obtain rfl := Option.some.inj (htile.symm.trans hsame)
        exact ⟨entry, hentry, rfl⟩
    · rw [List.map_map]
      exact streamable.control_nodup tile hmem

/-- The words that stand at an address. -/
theorem pcWrites_eq (coord : ℤ × ℤ) (pc : ℤ) :
    pcWrites layout (explicitControls (tileImages image) coord) coord pc
      = .ok (wordWrites coord pc
          (((explicitControls (tileImages image) coord).lookup pc).elim (nopChunks layout.chunks)
            ControlImage.chunks)) := by
  rw [pcWrites]
  rcases hentry : (explicitControls (tileImages image) coord).lookup pc with _ | entry
  · rfl
  · obtain ⟨tile, htile, -, hmem, -⟩ := streamable.lookup_control.mp hentry
    simp only [streamable.round_trip tile htile entry hmem]
    rfl

end Streamable

/-- The control words of a tile in the order of their addresses. -/
def controlWords (layout : Layout) (span : ℤ) (tiles : List ((ℤ × ℤ) × TileImage))
    (coord : ℤ × ℤ) : List (Slot × String) :=
  (writtenPcs span (explicitControls tiles coord)).flatMap fun pc ↦ wordWrites coord pc
    (((explicitControls tiles coord).lookup pc).elim (nopChunks layout.chunks) ControlImage.chunks)

/-- The words of an image whose control words come out of the codec as they were. -/
def imageWords (layout : Layout) (image : ProgramImage) : List (Slot × String) :=
  (coordinates layout).flatMap (constWrites (tileImages image)) ++ preloadWrites (tileImages image)
    ++ (coordinates layout).flatMap (controlWords layout (controlSpan image) (tileImages image))
    ++ loopWrites image

/-- **The writes of an image** need no codec. -/
theorem Streamable.imageWrites_eq {layout : Layout} {image : ProgramImage}
    (streamable : Streamable layout image) :
    imageWrites layout image = .ok (imageWords layout image) := by
  have hcontrol : ∀ coord ∈ coordinates layout,
      controlWrites layout (controlSpan image) (tileImages image) coord
        = .ok (controlWords layout (controlSpan image) (tileImages image) coord) := by
    intro coord _
    rw [controlWrites, mapM_eq_map fun pc _ ↦ streamable.pcWrites_eq coord pc]
    rfl
  rw [imageWrites, mapM_eq_map hcontrol]
  rfl

/-! ## Order -/

theorem mem_upTo {bound n : ℤ} : n ∈ upTo bound ↔ 0 ≤ n ∧ n < bound := by
  rw [upTo, List.mem_map]
  constructor
  · rintro ⟨k, hk, rfl⟩
    rw [List.mem_range] at hk
    omega
  · rintro ⟨hpos, hlt⟩
    exact ⟨n.toNat, List.mem_range.mpr (by omega), by omega⟩

theorem upTo_sorted (bound : ℤ) : (upTo bound).Pairwise (· < ·) :=
  List.pairwise_map.mpr (List.pairwise_lt_range.imp Int.ofNat_lt.mpr)

theorem mem_coordinates {layout : Layout} {coord : ℤ × ℤ} : coord ∈ coordinates layout ↔
    (0 ≤ coord.1 ∧ coord.1 < layout.rows) ∧ 0 ≤ coord.2 ∧ coord.2 < layout.cols := by
  rw [coordinates, List.mem_flatMap]
  simp only [List.mem_map, mem_upTo]
  constructor
  · rintro ⟨row, hrow, col, hcol, rfl⟩
    exact ⟨hrow, hcol⟩
  · exact fun ⟨hrow, hcol⟩ ↦ ⟨coord.1, hrow, coord.2, hcol, rfl⟩

/-- Tiles are visited row by row. -/
def RowMajor (a b : ℤ × ℤ) : Prop := a.1 < b.1 ∨ a.1 = b.1 ∧ a.2 < b.2

theorem coordinates_sorted (layout : Layout) : (coordinates layout).Pairwise RowMajor := by
  rw [coordinates, List.pairwise_flatMap]
  refine ⟨fun row _ ↦ ?_, (upTo_sorted _).imp fun {row row'} hlt a ha b hb ↦ ?_⟩
  · exact List.pairwise_map.mpr ((upTo_sorted _).imp fun h ↦ .inr ⟨rfl, h⟩)
  · obtain ⟨_, -, rfl⟩ := List.mem_map.mp ha
    obtain ⟨_, -, rfl⟩ := List.mem_map.mp hb
    exact .inl hlt

theorem mem_sortByAddr {entries : List WordImage} {entry : WordImage} :
    entry ∈ sortByAddr entries ↔ entry ∈ entries := List.mem_insertionSort _

theorem sortByAddr_sorted {entries : List WordImage} (h : (entries.map WordImage.addr).Nodup) :
    (sortByAddr entries).Pairwise fun a b ↦ a.addr < b.addr := by
  have hle : (sortByAddr entries).Pairwise fun a b ↦ a.addr ≤ b.addr := by
    have : Std.Total fun a b : WordImage ↦ a.addr ≤ b.addr := ⟨fun a b ↦ le_total a.addr b.addr⟩
    have : IsTrans WordImage fun a b ↦ a.addr ≤ b.addr := ⟨fun _ _ _ ↦ le_trans⟩
    exact List.pairwise_insertionSort _ entries
  have hne : (sortByAddr entries).Pairwise fun a b ↦ a.addr ≠ b.addr := by
    have hperm : (sortByAddr entries).Perm entries := List.perm_insertionSort _ entries
    exact List.pairwise_map.mp ((hperm.map WordImage.addr).nodup_iff.mpr h)
  exact (hle.and hne).imp fun ⟨hle, hne⟩ ↦ lt_of_le_of_ne hle hne

theorem mem_writtenPcs {span pc : ℤ} {explicit : List (ℤ × ControlImage)} :
    pc ∈ writtenPcs span explicit ↔ (0 ≤ pc ∧ pc < span) ∨ pc ∈ explicit.map Prod.fst := by
  rw [writtenPcs, List.mem_insertionSort, List.mem_dedup, List.mem_append, mem_upTo]

theorem writtenPcs_sorted (span : ℤ) (explicit : List (ℤ × ControlImage)) :
    (writtenPcs span explicit).Pairwise (· < ·) := by
  have hle : (writtenPcs span explicit).Pairwise (· ≤ ·) := List.pairwise_insertionSort _ _
  have hne : (writtenPcs span explicit).Nodup :=
    (List.perm_insertionSort _ _).nodup_iff.mpr (List.nodup_dedup _)
  exact (hle.and hne).imp fun ⟨hle, hne⟩ ↦ lt_of_le_of_ne hle hne

theorem zipIdx_sorted {α : Type} (l : List α) : l.zipIdx.Pairwise fun a b ↦ a.2 < b.2 := by
  have hrange : (l.zipIdx.map Prod.snd).Pairwise (· < ·) := by
    rw [List.zipIdx_map_snd]
    exact List.pairwise_lt_range'
  exact List.pairwise_map.mp hrange

/-! ## The memories in turn -/

/-- A word of a tile's memory, where it has been looked up. -/
theorem mem_constWrites {tiles : List ((ℤ × ℤ) × TileImage)} {coord : ℤ × ℤ}
    {word : Slot × String} : word ∈ constWrites tiles coord ↔
      ∃ tile, tiles.lookup coord = some tile ∧ ∃ entry ∈ tile.constMemory,
        word = (⟨.constMem, coord.1, coord.2, entry.addr, 0⟩, entry.value) := by
  rw [constWrites]
  rcases tiles.lookup coord with _ | tile
  · simp
  · simp only [List.mem_map, mem_sortByAddr, Option.some.injEq, exists_eq_left', eq_comm]

theorem mem_preloadWrites {tiles : List ((ℤ × ℤ) × TileImage)} {word : Slot × String} :
    word ∈ preloadWrites tiles ↔ ∃ entry ∈ tiles.flatMap fun tile ↦ tile.2.scratchpadPreload,
      word = (⟨.sharedScratchpad, 0, 0, entry.addr, 0⟩, entry.value) := by
  simp only [preloadWrites, List.mem_map, mem_sortByAddr, eq_comm]

theorem mem_wordWrites {coord : ℤ × ℤ} {pc : ℤ} {chunks : List String} {word : Slot × String} :
    word ∈ wordWrites coord pc chunks ↔
      ∃ (index : ℕ) (chunk : String), chunks[index]? = some chunk ∧
      word = (⟨.controlMem, coord.1, coord.2, pc, index⟩, chunk) := by
  rw [wordWrites, List.mem_map]
  constructor
  · rintro ⟨⟨chunk, index⟩, hmem, rfl⟩
    exact ⟨index, chunk, List.mk_mem_zipIdx_iff_getElem?.mp hmem, rfl⟩
  · rintro ⟨index, chunk, hget, rfl⟩
    exact ⟨(chunk, index), List.mk_mem_zipIdx_iff_getElem?.mpr hget, rfl⟩

theorem mem_loopWrites {image : ProgramImage} {word : Slot × String} :
    word ∈ loopWrites image ↔ ∃ loop ∈ image.loop, ∃ (index : ℕ) (value : ℤ),
      (descriptorValues loop)[index]? = some value ∧
        word = (⟨.loopDesc, 0, 0, index, 0⟩, hex08 value) := by
  rw [loopWrites]
  rcases image.loop with _ | loop
  · simp
  · simp only [List.mem_map, Option.mem_def, Option.some.injEq, exists_eq_left']
    constructor
    · rintro ⟨⟨value, index⟩, hmem, rfl⟩
      exact ⟨index, value, List.mk_mem_zipIdx_iff_getElem?.mp hmem, rfl⟩
    · rintro ⟨index, value, hget, rfl⟩
      exact ⟨(value, index), List.mk_mem_zipIdx_iff_getElem?.mpr hget, rfl⟩

/-- Words of one memory are in order when the tiles are and each tile's words are. -/
theorem flatMap_sorted {layout : Layout} (memory : ConfigMemory)
    {words : ℤ × ℤ → List (Slot × String)} (hsorted : ∀ coord, (words coord).Pairwise Before)
    (hslot : ∀ coord, ∀ word ∈ words coord,
      word.1.memory = memory ∧ word.1.row = coord.1 ∧ word.1.col = coord.2) :
    ((coordinates layout).flatMap words).Pairwise Before := by
  rw [List.pairwise_flatMap]
  refine ⟨fun coord _ ↦ hsorted coord, (coordinates_sorted layout).imp fun {c d} hcd a ha b hb ↦ ?_⟩
  obtain ⟨hmemory, hrow, hcol⟩ := hslot c a ha
  obtain ⟨hmemory', hrow', hcol'⟩ := hslot d b hb
  rw [before_iff, hmemory, hmemory', hrow, hrow', hcol, hcol']
  rcases hcd with hlt | ⟨heq, hlt⟩
  · exact .inr ⟨rfl, .inl hlt⟩
  · exact .inr ⟨rfl, .inr ⟨heq, .inl hlt⟩⟩

section Sorted

variable {layout : Layout} {image : ProgramImage} (streamable : Streamable layout image)
include streamable

theorem constWords_sorted :
    ((coordinates layout).flatMap (constWrites (tileImages image))).Pairwise Before := by
  refine flatMap_sorted .constMem (fun coord ↦ ?_) fun coord word hword ↦ ?_
  · rw [constWrites]
    rcases htile : (tileImages image).lookup coord with _ | tile
    · exact List.Pairwise.nil
    · have hnodup := streamable.const_nodup tile (streamable.lookup_tile.mp htile).1
      refine List.pairwise_map.mpr ((sortByAddr_sorted hnodup).imp fun hlt ↦ before_iff.mpr ?_)
      exact .inr ⟨rfl, .inr ⟨rfl, .inr ⟨rfl, .inl hlt⟩⟩⟩
  · obtain ⟨_, -, _, -, rfl⟩ := mem_constWrites.mp hword
    exact ⟨rfl, rfl, rfl⟩

theorem preload_eq : ((tileImages image).flatMap fun tile ↦ tile.2.scratchpadPreload)
    = image.tiles.flatMap TileImage.scratchpadPreload := by
  rw [streamable.tileImages_eq, List.flatMap_map]

theorem preloadWords_sorted : (preloadWrites (tileImages image)).Pairwise Before := by
  rw [preloadWrites, preload_eq streamable]
  refine List.pairwise_map.mpr
    ((sortByAddr_sorted streamable.preload_nodup).imp fun hlt ↦ before_iff.mpr ?_)
  exact .inr ⟨rfl, .inr ⟨rfl, .inr ⟨rfl, .inl hlt⟩⟩⟩

omit streamable in
theorem controlWords_sorted (layout : Layout) (image : ProgramImage) : ((coordinates layout).flatMap
    (controlWords layout (controlSpan image) (tileImages image))).Pairwise Before := by
  refine flatMap_sorted .controlMem (fun coord ↦ ?_) fun coord word hword ↦ ?_
  · rw [controlWords, List.pairwise_flatMap]
    refine ⟨fun pc _ ↦ ?_, (writtenPcs_sorted _ _).imp fun {pc pc'} hlt a ha b hb ↦ ?_⟩
    · refine List.pairwise_map.mpr ((zipIdx_sorted _).imp fun hlt ↦ before_iff.mpr ?_)
      exact .inr ⟨rfl, .inr ⟨rfl, .inr ⟨rfl, .inr ⟨rfl, hlt⟩⟩⟩⟩
    · obtain ⟨_, _, -, rfl⟩ := mem_wordWrites.mp ha
      obtain ⟨_, _, -, rfl⟩ := mem_wordWrites.mp hb
      exact before_iff.mpr (.inr ⟨rfl, .inr ⟨rfl, .inr ⟨rfl, .inl hlt⟩⟩⟩)
  · obtain ⟨pc, -, hword⟩ := List.mem_flatMap.mp hword
    obtain ⟨_, _, -, rfl⟩ := mem_wordWrites.mp hword
    exact ⟨rfl, rfl, rfl⟩

omit streamable in
theorem loopWords_sorted (image : ProgramImage) : (loopWrites image).Pairwise Before := by
  rw [loopWrites]
  rcases image.loop with _ | loop
  · exact List.Pairwise.nil
  · refine List.pairwise_map.mpr ((zipIdx_sorted _).imp fun hlt ↦ before_iff.mpr ?_)
    exact .inr ⟨rfl, .inr ⟨rfl, .inr ⟨rfl, .inl (Int.ofNat_lt.mpr hlt)⟩⟩⟩

/-- **The words of an image are in the order of their slots.** -/
theorem imageWords_sorted : (imageWords layout image).Pairwise Before := by
  have hconst : ∀ word ∈ (coordinates layout).flatMap (constWrites (tileImages image)),
      word.1.memory = .constMem := by
    intro word hword
    obtain ⟨coord, -, hword⟩ := List.mem_flatMap.mp hword
    obtain ⟨_, -, _, -, rfl⟩ := mem_constWrites.mp hword
    rfl
  have hpreload : ∀ word ∈ preloadWrites (tileImages image),
      word.1.memory = .sharedScratchpad := by
    intro word hword
    obtain ⟨_, -, rfl⟩ := mem_preloadWrites.mp hword
    rfl
  have hcontrol : ∀ word ∈ (coordinates layout).flatMap
      (controlWords layout (controlSpan image) (tileImages image)),
        word.1.memory = .controlMem := by
    intro word hword
    obtain ⟨coord, -, hword⟩ := List.mem_flatMap.mp hword
    obtain ⟨_, -, hword⟩ := List.mem_flatMap.mp hword
    obtain ⟨_, _, -, rfl⟩ := mem_wordWrites.mp hword
    rfl
  have hloop : ∀ word ∈ loopWrites image, word.1.memory = .loopDesc := by
    intro word hword
    obtain ⟨_, -, _, _, -, rfl⟩ := mem_loopWrites.mp hword
    rfl
  have hrank : ∀ {a b : Slot × String}, a.1.memory.rank < b.1.memory.rank → Before a b :=
    fun h ↦ before_iff.mpr (.inl h)
  rw [imageWords, List.pairwise_append, List.pairwise_append, List.pairwise_append]
  refine ⟨⟨⟨constWords_sorted streamable, preloadWords_sorted streamable, fun a ha b hb ↦ ?_⟩,
    controlWords_sorted layout image, fun a ha b hb ↦ ?_⟩, loopWords_sorted image,
    fun a ha b hb ↦ ?_⟩
  · exact hrank (by rw [hconst a ha, hpreload b hb]; decide)
  · rcases List.mem_append.mp ha with ha | ha
    · exact hrank (by rw [hconst a ha, hcontrol b hb]; decide)
    · exact hrank (by rw [hpreload a ha, hcontrol b hb]; decide)
  · rw [List.mem_append, List.mem_append] at ha
    rcases ha with (ha | ha) | ha
    · exact hrank (by rw [hconst a ha, hloop b hb]; decide)
    · exact hrank (by rw [hpreload a ha, hloop b hb]; decide)
    · exact hrank (by rw [hcontrol a ha, hloop b hb]; decide)

end Sorted

/-! ## What is written -/

/-- The image has a control word at an address of a tile. -/
def ControlAt (image : ProgramImage) (row col pc : ℤ) (entry : ControlImage) : Prop :=
  ∃ tile ∈ image.tiles, tile.row = row ∧ tile.col = col ∧ entry ∈ tile.control ∧ entry.pc = pc

/-- The text an image has for a slot: its constants, its preloads, its control words, zeros where
the run reaches an address without a control word, and the numbers of its loop. -/
def Prescribes (layout : Layout) (image : ProgramImage) (slot : Slot) (data : String) : Prop :=
  match slot.memory with
  | .constMem => slot.wordIdx = 0 ∧ ∃ tile ∈ image.tiles, tile.row = slot.row ∧
      tile.col = slot.col ∧ (⟨slot.addr, data⟩ : WordImage) ∈ tile.constMemory
  | .sharedScratchpad => slot.row = 0 ∧ slot.col = 0 ∧ slot.wordIdx = 0 ∧
      ∃ tile ∈ image.tiles, (⟨slot.addr, data⟩ : WordImage) ∈ tile.scratchpadPreload
  | .controlMem => (0 ≤ slot.row ∧ slot.row < layout.rows) ∧
    (0 ≤ slot.col ∧ slot.col < layout.cols) ∧
      ((∃ entry, ControlAt image slot.row slot.col slot.addr entry ∧
          entry.chunks[slot.wordIdx]? = some data) ∨
        (∀ entry, ¬ControlAt image slot.row slot.col slot.addr entry) ∧
          (0 ≤ slot.addr ∧ slot.addr < controlSpan image) ∧ slot.wordIdx < layout.chunks.toNat ∧
            data = "0x00000000")
  | .loopDesc => slot.row = 0 ∧ slot.col = 0 ∧ slot.wordIdx = 0 ∧ ∃ loop ∈ image.loop,
      ∃ (index : ℕ) (value : ℤ), slot.addr = index ∧ (descriptorValues loop)[index]? = some value ∧
        data = hex08 value

section Members

variable {layout : Layout} {image : ProgramImage} (streamable : Streamable layout image)
include streamable

theorem mem_constWords {slot : Slot} {data : String} :
    (slot, data) ∈ (coordinates layout).flatMap (constWrites (tileImages image)) ↔
      slot.memory = .constMem ∧ slot.wordIdx = 0 ∧ ∃ tile ∈ image.tiles, tile.row = slot.row ∧
        tile.col = slot.col ∧ (⟨slot.addr, data⟩ : WordImage) ∈ tile.constMemory := by
  rw [List.mem_flatMap]
  constructor
  · rintro ⟨coord, -, hword⟩
    obtain ⟨tile, htile, entry, hentry, heq⟩ := mem_constWrites.mp hword
    obtain ⟨rfl, rfl⟩ := Prod.mk.inj heq
    obtain ⟨hmem, rfl⟩ := streamable.lookup_tile.mp htile
    exact ⟨rfl, rfl, tile, hmem, rfl, rfl, hentry⟩
  · rintro ⟨hmemory, hindex, tile, htile, hrow, hcol, hentry⟩
    obtain ⟨memory, row, col, addr, index⟩ := slot
    simp only at hmemory hindex hrow hcol hentry
    subst hmemory hindex hrow hcol
    refine ⟨(tile.row, tile.col), mem_coordinates.mpr (streamable.range tile htile), ?_⟩
    exact mem_constWrites.mpr ⟨tile, streamable.lookup_tile.mpr ⟨htile, rfl⟩, _, hentry, rfl⟩

theorem mem_preloadWords {slot : Slot} {data : String} :
    (slot, data) ∈ preloadWrites (tileImages image) ↔
      slot.memory = .sharedScratchpad ∧ slot.row = 0 ∧ slot.col = 0 ∧ slot.wordIdx = 0 ∧
        ∃ tile ∈ image.tiles, (⟨slot.addr, data⟩ : WordImage) ∈ tile.scratchpadPreload := by
  rw [mem_preloadWrites, preload_eq streamable]
  simp only [List.mem_flatMap]
  constructor
  · rintro ⟨entry, ⟨tile, htile, hentry⟩, heq⟩
    obtain ⟨rfl, rfl⟩ := Prod.mk.inj heq
    exact ⟨rfl, rfl, rfl, rfl, tile, htile, hentry⟩
  · rintro ⟨hmemory, hrow, hcol, hindex, tile, htile, hentry⟩
    obtain ⟨memory, row, col, addr, index⟩ := slot
    simp only at hmemory hrow hcol hindex hentry
    subst hmemory hrow hcol hindex
    exact ⟨⟨addr, data⟩, ⟨tile, htile, hentry⟩, rfl⟩

theorem controlAt_iff {coord : ℤ × ℤ} {pc : ℤ} {entry : ControlImage} :
    ControlAt image coord.1 coord.2 pc entry ↔
      (explicitControls (tileImages image) coord).lookup pc = some entry := by
  rw [streamable.lookup_control, ControlAt]
  constructor
  · rintro ⟨tile, htile, hrow, hcol, hentry⟩
    exact ⟨tile, htile, Prod.ext hrow hcol, hentry⟩
  · rintro ⟨tile, htile, hcoord, hentry⟩
    exact ⟨tile, htile, congrArg Prod.fst hcoord, congrArg Prod.snd hcoord, hentry⟩

theorem mem_controlWords {slot : Slot} {data : String} :
    (slot, data) ∈ (coordinates layout).flatMap
        (controlWords layout (controlSpan image) (tileImages image)) ↔
      slot.memory = .controlMem ∧
        (0 ≤ slot.row ∧ slot.row < layout.rows) ∧ (0 ≤ slot.col ∧ slot.col < layout.cols) ∧
        ((∃ entry, ControlAt image slot.row slot.col slot.addr entry ∧
            entry.chunks[slot.wordIdx]? = some data) ∨
          (∀ entry, ¬ControlAt image slot.row slot.col slot.addr entry) ∧
            (0 ≤ slot.addr ∧ slot.addr < controlSpan image) ∧ slot.wordIdx < layout.chunks.toNat ∧
              data = "0x00000000") := by
  rw [List.mem_flatMap]
  constructor
  · rintro ⟨coord, hcoord, hword⟩
    obtain ⟨pc, hpc, hword⟩ := List.mem_flatMap.mp hword
    obtain ⟨index, chunk, hget, heq⟩ := mem_wordWrites.mp hword
    obtain ⟨rfl, rfl⟩ := Prod.mk.inj heq
    obtain ⟨hrow, hcol⟩ := mem_coordinates.mp hcoord
    refine ⟨rfl, hrow, hcol, ?_⟩
    rcases hentry : (explicitControls (tileImages image) coord).lookup pc with _ | entry
    · rw [hentry, Option.elim_none, nopChunks, List.getElem?_replicate] at hget
      refine .inr ⟨fun entry hat ↦ ?_, ?_, ?_⟩
      · exact absurd (hentry.symm.trans ((controlAt_iff streamable).mp hat)) nofun
      · rcases mem_writtenPcs.mp hpc with hspan | hexplicit
        · exact hspan
        · obtain ⟨entry, hsome⟩ := mem_keys_iff.mp hexplicit
          exact absurd (hentry.symm.trans hsome) nofun
      · split at hget
        · rename_i hlt
          exact ⟨hlt, (Option.some.inj hget).symm⟩
        · exact absurd hget nofun
    · rw [hentry] at hget
      exact .inl ⟨entry, (controlAt_iff streamable).mpr hentry, hget⟩
  · obtain ⟨memory, row, col, addr, index⟩ := slot
    rintro ⟨hmemory, hrow, hcol, hdata⟩
    simp only at hmemory hrow hcol hdata
    subst hmemory
    refine ⟨(row, col), mem_coordinates.mpr ⟨hrow, hcol⟩, ?_⟩
    rw [controlWords, List.mem_flatMap]
    rcases hdata with ⟨entry, hat, hget⟩ | ⟨hnone, hspan, hlt, rfl⟩
    · have hlookup := (@controlAt_iff _ _ streamable (row, col) _ _).mp hat
      refine ⟨addr, mem_writtenPcs.mpr (.inr (mem_keys_iff.mpr ⟨entry, hlookup⟩)), ?_⟩
      rw [hlookup]
      exact mem_wordWrites.mpr ⟨index, data, hget, rfl⟩
    · have hlookup : (explicitControls (tileImages image) (row, col)).lookup addr = none := by
        rcases hentry : (explicitControls (tileImages image) (row, col)).lookup addr with _ | entry
        · rfl
        · exact absurd ((controlAt_iff streamable).mpr hentry) (hnone entry)
      refine ⟨addr, mem_writtenPcs.mpr (.inl hspan), ?_⟩
      rw [hlookup]
      refine mem_wordWrites.mpr ⟨index, _, ?_, rfl⟩
      rw [Option.elim_none, nopChunks, List.getElem?_replicate, if_pos hlt]

omit streamable in
theorem mem_loopWords {slot : Slot} {data : String} : (slot, data) ∈ loopWrites image ↔
    slot.memory = .loopDesc ∧ slot.row = 0 ∧ slot.col = 0 ∧ slot.wordIdx = 0 ∧
      ∃ loop ∈ image.loop, ∃ (index : ℕ) (value : ℤ), slot.addr = index ∧
        (descriptorValues loop)[index]? = some value ∧ data = hex08 value := by
  rw [mem_loopWrites]
  constructor
  · rintro ⟨loop, hloop, index, value, hget, heq⟩
    obtain ⟨rfl, rfl⟩ := Prod.mk.inj heq
    exact ⟨rfl, rfl, rfl, rfl, loop, hloop, index, value, rfl, hget, rfl⟩
  · rintro ⟨hmemory, hrow, hcol, hindex, loop, hloop, index, value, haddr, hget, rfl⟩
    obtain ⟨memory, row, col, addr, word⟩ := slot
    simp only at hmemory hrow hcol hindex haddr
    subst hmemory hrow hcol hindex haddr
    exact ⟨loop, hloop, index, value, hget, rfl⟩

/-- **The words of an image are the prescribed ones.** -/
theorem mem_imageWords {slot : Slot} {data : String} :
    (slot, data) ∈ imageWords layout image ↔ Prescribes layout image slot data := by
  rw [imageWords, List.mem_append, List.mem_append, List.mem_append, mem_constWords streamable,
    mem_preloadWords streamable, mem_controlWords streamable, mem_loopWords, Prescribes]
  rcases hmemory : slot.memory with _ | _ | _ | _
  · simp
  · simp
  · simp
  · simp

end Members

end PredicatedMesh.ConfigStream
