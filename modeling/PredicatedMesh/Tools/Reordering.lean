import PredicatedMesh.Tools.StreamWrites

/-!
# Manifests in another order

A manifest lists its tiles, and each tile lists the words of its memories. `ReorderedManifest` says
that two documents differ in the order of these lists only. Their images then hold the same words,
and since the words of a stream are in the order of their slots, the streams are equal.
-/

namespace PredicatedMesh.ConfigStream

open ProgramImage

/-! ## Documents -/

/-- A field is a list of the same entries in both documents. -/
def Shuffled (value value' : Json) (name : String) : Prop :=
  ∃ items items', value.field? name = some (.arr items) ∧ value'.field? name = some (.arr items') ∧
    items.Perm items'

structure ReorderedTile (tile tile' : Json) : Prop where
  same : ∀ name, name ≠ "control" → name ≠ "const_memory" → name ≠ "scratchpad_preload" →
    tile'.field? name = tile.field? name
  control : Shuffled tile tile' "control"
  constMemory : Shuffled tile tile' "const_memory"
  scratchpadPreload : Shuffled tile tile' "scratchpad_preload"

structure ReorderedProgram (program program' : Json) : Prop where
  same : ∀ name, name ≠ "tiles" → program'.field? name = program.field? name
  tiles : ∃ tiles between tiles', program.field? "tiles" = some (.arr tiles) ∧
    program'.field? "tiles" = some (.arr tiles') ∧ List.Forall₂ ReorderedTile tiles between ∧
      between.Perm tiles'

/-- Two manifests differ in the order of their tiles and of the words of each tile only. -/
structure ReorderedManifest (manifest manifest' : Json) : Prop where
  same : ∀ name, name ≠ "program" → manifest'.field? name = manifest.field? name
  program : ∃ program program', manifest.field? "program" = some program ∧
    manifest'.field? "program" = some program' ∧ ReorderedProgram program program'

/-! ## Images -/

structure TileReorders (tile tile' : TileImage) : Prop where
  row : tile'.row = tile.row
  col : tile'.col = tile.col
  control : tile.control.Perm tile'.control
  constMemory : tile.constMemory.Perm tile'.constMemory
  scratchpadPreload : tile.scratchpadPreload.Perm tile'.scratchpadPreload

structure Reorders (image image' : ProgramImage) : Prop where
  runCycles : image'.runCycles = image.runCycles
  loop : image'.loop = image.loop
  tiles : ∃ between, List.Forall₂ TileReorders image.tiles between ∧ between.Perm image'.tiles

theorem mapM_perm {α β : Type} {read : α → Option β} {items items' : List α}
    (h : items.Perm items') :
    ∀ {l : List β}, items.mapM read = some l → ∃ l', items'.mapM read = some l' ∧ l.Perm l' := by
  induction h with
  | nil => exact fun hread ↦ ⟨_, hread, .refl _⟩
  | cons item _ ih =>
    intro l hread
    rw [List.mapM_cons] at hread
    obtain ⟨a, ha, hread⟩ := Option.bind_eq_some_iff.mp hread
    obtain ⟨rest, hrest, hread⟩ := Option.bind_eq_some_iff.mp hread
    obtain rfl := Option.some.inj hread
    obtain ⟨rest', hrest', hperm⟩ := ih hrest
    refine ⟨a :: rest', ?_, hperm.cons a⟩
    rw [List.mapM_cons, ha, hrest']
    rfl
  | swap first second _ =>
    intro l hread
    rw [List.mapM_cons, List.mapM_cons] at hread
    obtain ⟨a, ha, hread⟩ := Option.bind_eq_some_iff.mp hread
    obtain ⟨rest, hrest, hread⟩ := Option.bind_eq_some_iff.mp hread
    obtain ⟨b, hb, hrest⟩ := Option.bind_eq_some_iff.mp hrest
    obtain ⟨rest', hrest', hrest⟩ := Option.bind_eq_some_iff.mp hrest
    obtain rfl := Option.some.inj hread
    obtain rfl := Option.some.inj hrest
    refine ⟨b :: a :: rest', ?_, .swap b a rest'⟩
    rw [List.mapM_cons, List.mapM_cons, ha, hb, hrest']
    rfl
  | trans _ _ ih ih' =>
    intro l hread
    obtain ⟨l', hread', hperm⟩ := ih hread
    obtain ⟨l'', hread'', hperm'⟩ := ih' hread'
    exact ⟨l'', hread'', hperm.trans hperm'⟩

theorem readList_shuffled {α : Type} {read : Json → Option α} {value value' : Json} {name : String}
    {l : List α} (h : Shuffled value value' name) (hread : readList read value name = some l) :
    ∃ l', readList read value' name = some l' ∧ l.Perm l' := by
  obtain ⟨items, items', hfield, hfield', hperm⟩ := h
  rw [readList, hfield] at hread
  rw [readList, hfield']
  exact mapM_perm hperm hread

theorem readTile_reordered {value value' : Json} {tile : TileImage} (h : ReorderedTile value value')
    (hread : readTile value = some tile) :
    ∃ tile', readTile value' = some tile' ∧ TileReorders tile tile' := by
  obtain ⟨row, hrow, hread⟩ := Option.bind_eq_some_iff.mp hread
  obtain ⟨col, hcol, hread⟩ := Option.bind_eq_some_iff.mp hread
  obtain ⟨control, hcontrol, hread⟩ := Option.bind_eq_some_iff.mp hread
  obtain ⟨consts, hconsts, hread⟩ := Option.bind_eq_some_iff.mp hread
  obtain ⟨preload, hpreload, hread⟩ := Option.bind_eq_some_iff.mp hread
  obtain rfl := Option.some.inj hread
  obtain ⟨control', hcontrol', hperm⟩ := readList_shuffled h.control hcontrol
  obtain ⟨consts', hconsts', hpermConsts⟩ := readList_shuffled h.constMemory hconsts
  obtain ⟨preload', hpreload', hpermPreload⟩ := readList_shuffled h.scratchpadPreload hpreload
  have hrow' : readInt value' "row" = some row := by
    rw [readInt, h.same _ (by decide) (by decide) (by decide)]
    exact hrow
  have hcol' : readInt value' "col" = some col := by
    rw [readInt, h.same _ (by decide) (by decide) (by decide)]
    exact hcol
  refine ⟨⟨row, col, control', consts', preload'⟩, ?_, rfl, rfl, hperm, hpermConsts, hpermPreload⟩
  rw [readTile, hrow', hcol', hcontrol', hconsts', hpreload']
  rfl

theorem mapM_forall₂ {α β : Type} {read : α → Option β} {R : α → α → Prop} {S : β → β → Prop}
    (hstep : ∀ a a' b, R a a' → read a = some b → ∃ b', read a' = some b' ∧ S b b')
    {items items' : List α} (h : List.Forall₂ R items items') :
    ∀ {l : List β}, items.mapM read = some l →
      ∃ l', items'.mapM read = some l' ∧ List.Forall₂ S l l' := by
  induction h with
  | nil =>
    intro l hread
    obtain rfl := Option.some.inj hread
    exact ⟨[], rfl, .nil⟩
  | cons hhead _ ih =>
    intro l hread
    rw [List.mapM_cons] at hread
    obtain ⟨b, hb, hread⟩ := Option.bind_eq_some_iff.mp hread
    obtain ⟨rest, hrest, hread⟩ := Option.bind_eq_some_iff.mp hread
    obtain rfl := Option.some.inj hread
    obtain ⟨b', hb', hS⟩ := hstep _ _ _ hhead hb
    obtain ⟨rest', hrest', hSS⟩ := ih hrest
    refine ⟨b' :: rest', ?_, .cons hS hSS⟩
    rw [List.mapM_cons, hb', hrest']
    rfl

/-- The image of a manifest in another order has the same words. -/
theorem readProgram_reordered {manifest manifest' : Json} {image : ProgramImage}
    (h : ReorderedManifest manifest manifest') (hread : readProgram manifest = some image) :
    ∃ image', readProgram manifest' = some image' ∧ Reorders image image' := by
  obtain ⟨program, program', hprogram, hprogram', hsame, tiles, between, tiles', htiles, htiles',
    hreorder, hperm⟩ := h.program
  obtain ⟨run, hrun, hread⟩ := Option.bind_eq_some_iff.mp hread
  obtain ⟨runCycles, hcycles, hread⟩ := Option.bind_eq_some_iff.mp hread
  obtain ⟨loop, hloop, hread⟩ := Option.bind_eq_some_iff.mp hread
  obtain ⟨found, hfound, hread⟩ := Option.bind_eq_some_iff.mp hread
  obtain rfl := Option.some.inj (hfound.symm.trans hprogram)
  obtain ⟨list, hlist, hread⟩ := Option.bind_eq_some_iff.mp hread
  obtain rfl := Option.some.inj hread
  rw [readList, htiles] at hlist
  change tiles.mapM readTile = some list at hlist
  obtain ⟨middle, hmiddle, hforall⟩ :=
    mapM_forall₂ (fun _ _ _ h hread ↦ readTile_reordered h hread) hreorder hlist
  obtain ⟨list', hlist', hperm'⟩ := mapM_perm hperm hmiddle
  have hrun' : manifest'.field? "run" = some run := (h.same _ (by decide)).trans hrun
  have hloop' : readLoop manifest' = some loop := by
    rw [readLoop, h.same _ (by decide)]
    exact hloop
  have hread' : readList readTile program' "tiles" = some list' := by
    rw [readList, htiles']
    exact hlist'
  refine ⟨⟨runCycles, loop, list'⟩, ?_, rfl, rfl, middle, hforall, hperm'⟩
  rw [readProgram, hrun']
  simp only [Option.bind_eq_bind, Option.bind_some, hcycles, hloop', hprogram', hread']
  rfl

/-! ## Streams -/

namespace Reorders

variable {image image' : ProgramImage} (h : Reorders image image')
include h

theorem exists_tile' : ∀ tile ∈ image.tiles, ∃ tile' ∈ image'.tiles, TileReorders tile tile' := by
  obtain ⟨between, hforall, hperm⟩ := h.tiles
  intro tile htile
  obtain ⟨tile', htile', hreorder⟩ := Scan.exists_of_forall₂ hforall tile htile
  exact ⟨tile', hperm.mem_iff.mp htile', hreorder⟩

theorem exists_tile : ∀ tile' ∈ image'.tiles, ∃ tile ∈ image.tiles, TileReorders tile tile' := by
  obtain ⟨between, hforall, hperm⟩ := h.tiles
  intro tile' htile'
  exact Scan.exists_of_forall₂ hforall.flip tile' (hperm.mem_iff.mpr htile')

theorem controlAt_iff {row col pc : ℤ} {entry : ControlImage} :
    ControlAt image' row col pc entry ↔ ControlAt image row col pc entry := by
  constructor
  · rintro ⟨tile', htile', rfl, rfl, hentry, hpc⟩
    obtain ⟨tile, htile, hreorder⟩ := h.exists_tile tile' htile'
    exact ⟨tile, htile, hreorder.row.symm, hreorder.col.symm, hreorder.control.mem_iff.mpr hentry,
      hpc⟩
  · rintro ⟨tile, htile, rfl, rfl, hentry, hpc⟩
    obtain ⟨tile', htile', hreorder⟩ := h.exists_tile' tile htile
    exact ⟨tile', htile', hreorder.row, hreorder.col, hreorder.control.mem_iff.mp hentry, hpc⟩

/-- An image in another order prescribes the same words. -/
theorem prescribes_iff {layout : Layout} {slot : Slot} {data : String} :
    Prescribes layout image' slot data ↔ Prescribes layout image slot data := by
  have hspan : controlSpan image' = controlSpan image := by
    rw [controlSpan, controlSpan, h.loop, h.runCycles]
  rw [Prescribes, Prescribes]
  rcases slot.memory with _ | _ | _ | _
  · simp only [h.controlAt_iff, hspan]
  · refine and_congr_right fun _ ↦ ⟨?_, ?_⟩
    · rintro ⟨tile', htile', hrow, hcol, hentry⟩
      obtain ⟨tile, htile, hreorder⟩ := h.exists_tile tile' htile'
      exact ⟨tile, htile, hreorder.row.symm.trans hrow, hreorder.col.symm.trans hcol,
        hreorder.constMemory.mem_iff.mpr hentry⟩
    · rintro ⟨tile, htile, hrow, hcol, hentry⟩
      obtain ⟨tile', htile', hreorder⟩ := h.exists_tile' tile htile
      exact ⟨tile', htile', hreorder.row.trans hrow, hreorder.col.trans hcol,
        hreorder.constMemory.mem_iff.mp hentry⟩
  · refine and_congr_right fun _ ↦ and_congr_right fun _ ↦ and_congr_right fun _ ↦ ⟨?_, ?_⟩
    · rintro ⟨tile', htile', hentry⟩
      obtain ⟨tile, htile, hreorder⟩ := h.exists_tile tile' htile'
      exact ⟨tile, htile, hreorder.scratchpadPreload.mem_iff.mpr hentry⟩
    · rintro ⟨tile, htile, hentry⟩
      obtain ⟨tile', htile', hreorder⟩ := h.exists_tile' tile htile
      exact ⟨tile', htile', hreorder.scratchpadPreload.mem_iff.mp hentry⟩
  · simp only [h.loop]

theorem preload_perm : (image.tiles.flatMap TileImage.scratchpadPreload).Perm
    (image'.tiles.flatMap TileImage.scratchpadPreload) := by
  obtain ⟨between, hforall, hperm⟩ := h.tiles
  refine List.Perm.trans ?_ (hperm.flatMap_right _)
  clear hperm h
  generalize image.tiles = tiles at hforall
  induction hforall with
  | nil => exact .refl _
  | cons hhead _ ih =>
    rw [List.flatMap_cons, List.flatMap_cons]
    exact hhead.scratchpadPreload.append ih

theorem coordinates_perm : (image.tiles.map fun tile ↦ (tile.row, tile.col)).Perm
    (image'.tiles.map fun tile ↦ (tile.row, tile.col)) := by
  obtain ⟨between, hforall, hperm⟩ := h.tiles
  refine List.Perm.trans ?_ (hperm.map _)
  clear hperm h
  generalize image.tiles = tiles at hforall
  induction hforall with
  | nil => exact .refl _
  | cons hhead _ ih =>
    rw [List.map_cons, List.map_cons, hhead.row, hhead.col]
    exact ih.cons _

theorem streamable {layout : Layout} (streamable : Streamable layout image) :
    Streamable layout image' := by
  refine ⟨fun tile' htile' ↦ ?_, h.coordinates_perm.nodup_iff.mp streamable.tiles_nodup,
    fun tile' htile' ↦ ?_, fun tile' htile' ↦ ?_,
    (h.preload_perm.map _).nodup_iff.mp streamable.preload_nodup,
    fun tile' htile' entry hentry ↦ ?_⟩
  · obtain ⟨tile, htile, hreorder⟩ := h.exists_tile tile' htile'
    rw [hreorder.row, hreorder.col]
    exact streamable.range tile htile
  · obtain ⟨tile, htile, hreorder⟩ := h.exists_tile tile' htile'
    exact (hreorder.control.map _).nodup_iff.mp (streamable.control_nodup tile htile)
  · obtain ⟨tile, htile, hreorder⟩ := h.exists_tile tile' htile'
    exact (hreorder.constMemory.map _).nodup_iff.mp (streamable.const_nodup tile htile)
  · obtain ⟨tile, htile, hreorder⟩ := h.exists_tile tile' htile'
    exact streamable.round_trip tile htile entry (hreorder.control.mem_iff.mpr hentry)

/-- **The order of a manifest leaves no trace**: images in another order have the same writes. -/
theorem imageWrites_eq {layout : Layout} (streamable : Streamable layout image) :
    imageWrites layout image' = imageWrites layout image := by
  have hother := h.streamable streamable
  rw [hother.imageWrites_eq, streamable.imageWrites_eq]
  refine congrArg Except.ok (List.Pairwise.eq_of_mem_iff (imageWords_sorted hother)
    (imageWords_sorted streamable) fun {word} ↦ ?_)
  obtain ⟨slot, data⟩ := word
  rw [mem_imageWords hother, mem_imageWords streamable, h.prescribes_iff]

end Reorders

end PredicatedMesh.ConfigStream
