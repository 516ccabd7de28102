import Mathlib.Data.List.Nodup
import PredicatedMesh.Mapping.Resource
import PredicatedMesh.Target.Loading

/-!
# Resource ids

The enumeration of the resources runs over slots, tiles and, within a tile, over the kinds of
resource. Slot and tile can be read off a resource, so no two rounds of the loops produce the same
one, and within a round the kinds and the directions keep them apart: the enumeration has no
repetitions (`nodup_resources`). Looking a resource up by position and looking a position up by
resource are then inverse to each other.

Ids are 32 bits wide and the counter they are taken from is not. As long as the resources fit, an id
is a position; the first resource past them shares the id of the first one.

A contract may declare the network disconnected. Its model has no link at all, and a lookup of a
link that the array has room for finds nothing.
-/

namespace PredicatedMesh

namespace ModuloResourceModel

variable (model : ModuloResourceModel)

/-- The resources there should be. -/
def Has : ModuloResource → Prop
  | .fu tile slot =>
    slot < model.ii ∧ tile.row < model.target.array.rows ∧ tile.col < model.target.array.cols
  | .lsu tile slot =>
    slot < model.ii ∧ tile.row < model.target.array.rows ∧ tile.col < model.target.array.cols ∧
      model.target.tileHasLSU tile.row tile.col = true
  | .link _ source direction slot =>
    slot < model.ii ∧ model.target.dataNetwork.topology = "mesh_2d" ∧
      (model.target.neighbor source direction).isSome

variable {model}

/-! ## The enumeration -/

theorem inRange_of_neighbor {target : TargetModel} {tile : TileCoord} {direction : Direction}
    (h : (target.neighbor tile direction).isSome) :
    tile.row < target.array.rows ∧ tile.col < target.array.cols := by
  unfold TargetModel.neighbor PredicatedMesh.neighbor at h
  by_cases hout : (tile.row ≥ target.array.rows || tile.col ≥ target.array.cols) = true
  · rw [if_pos hout] at h
    cases h
  · simpa using hout

theorem mem_tileLinks {domain : NetworkDomain} {tile : TileCoord} {slot : ℕ}
    {r : ModuloResource} : r ∈ model.tileLinks domain tile slot ↔
      ∃ direction, (model.target.neighbor tile direction).isSome ∧
        r = .link domain tile direction slot := by
  rw [tileLinks, List.mem_map]
  constructor
  · rintro ⟨direction, hmem, rfl⟩
    exact ⟨direction, (List.mem_filter.mp hmem).2, rfl⟩
  · rintro ⟨direction, hsome, rfl⟩
    refine ⟨direction, List.mem_filter.mpr ⟨?_, hsome⟩, rfl⟩
    rcases direction with _ | _ | _ | _ <;> decide

theorem mem_tileResources {slot : ℕ} {tile : TileCoord} {r : ModuloResource} :
    r ∈ model.tileResources slot tile ↔ r = .fu tile slot ∨
      (r = .lsu tile slot ∧ model.target.tileHasLSU tile.row tile.col = true) ∨
      ∃ domain direction, r = .link domain tile direction slot ∧
        model.target.dataNetwork.topology = "mesh_2d" ∧
        (model.target.neighbor tile direction).isSome := by
  have hlsu : r ∈ (if model.target.tileHasLSU tile.row tile.col
      then [ModuloResource.lsu tile slot] else []) ↔
        r = .lsu tile slot ∧ model.target.tileHasLSU tile.row tile.col = true := by
    split <;> simp [*]
  have hlink : r ∈ (if model.target.dataNetwork.topology == "mesh_2d"
      then model.tileLinks .data tile slot ++ model.tileLinks .predicate tile slot else []) ↔
        ∃ domain direction, r = .link domain tile direction slot ∧
          model.target.dataNetwork.topology = "mesh_2d" ∧
          (model.target.neighbor tile direction).isSome := by
    by_cases hmesh : model.target.dataNetwork.topology = "mesh_2d"
    · rw [if_pos (beq_iff_eq.mpr hmesh), List.mem_append, mem_tileLinks, mem_tileLinks]
      constructor
      · rintro (⟨direction, hsome, rfl⟩ | ⟨direction, hsome, rfl⟩)
        · exact ⟨.data, direction, rfl, hmesh, hsome⟩
        · exact ⟨.predicate, direction, rfl, hmesh, hsome⟩
      · rintro ⟨domain, direction, rfl, -, hsome⟩
        rcases domain with _ | _
        · exact .inl ⟨direction, hsome, rfl⟩
        · exact .inr ⟨direction, hsome, rfl⟩
    · rw [if_neg (fun h ↦ hmesh (beq_iff_eq.mp h))]
      simp [hmesh]
  rw [tileResources, List.mem_append, List.mem_append, List.mem_singleton, hlsu, hlink, or_assoc]

theorem tile_slot_of_mem_tileResources {slot : ℕ} {tile : TileCoord} {r : ModuloResource}
    (h : r ∈ model.tileResources slot tile) : r.tile = tile ∧ r.slot = slot := by
  rcases mem_tileResources.mp h with rfl | ⟨rfl, -⟩ | ⟨_, _, rfl, -⟩ <;> exact ⟨rfl, rfl⟩

theorem mem_resources_iff {r : ModuloResource} : r ∈ model.resources ↔ model.Has r := by
  have hround : r ∈ model.resources ↔ r.slot < model.ii ∧ r.tile.row < model.target.array.rows ∧
      r.tile.col < model.target.array.cols ∧ r ∈ model.tileResources r.slot r.tile := by
    rw [resources, List.mem_flatMap]
    constructor
    · rintro ⟨slot, hslot, hr⟩
      obtain ⟨⟨row, col⟩, htile, hr⟩ := List.mem_flatMap.mp hr
      obtain ⟨ht, hs⟩ := tile_slot_of_mem_tileResources hr
      rw [ht, hs]
      obtain ⟨hrow, hcol⟩ := TargetModel.mem_tiles_iff.mp htile
      exact ⟨List.mem_range.mp hslot, hrow, hcol, hr⟩
    · rintro ⟨hslot, hrow, hcol, hr⟩
      refine ⟨r.slot, List.mem_range.mpr hslot, List.mem_flatMap.mpr ?_⟩
      exact ⟨(r.tile.row, r.tile.col), TargetModel.mem_tiles_iff.mpr ⟨hrow, hcol⟩, hr⟩
  rw [hround, mem_tileResources]
  rcases r with ⟨tile, slot⟩ | ⟨tile, slot⟩ | ⟨domain, source, direction, slot⟩
  · simp [Has, ModuloResource.tile, ModuloResource.slot]
  · simp [Has, ModuloResource.tile, ModuloResource.slot]
  · simp only [Has, ModuloResource.tile, ModuloResource.slot, reduceCtorEq, false_and, false_or,
      ModuloResource.link.injEq]
    constructor
    · rintro ⟨hslot, -, -, d, e, ⟨-, -, rfl, -⟩, hmesh, hsome⟩
      exact ⟨hslot, hmesh, hsome⟩
    · rintro ⟨hslot, hmesh, hsome⟩
      obtain ⟨hrow, hcol⟩ := inRange_of_neighbor hsome
      exact ⟨hslot, hrow, hcol, domain, direction, by simp, hmesh, hsome⟩

theorem nodup_tileLinks (domain : NetworkDomain) (tile : TileCoord) (slot : ℕ) :
    (model.tileLinks domain tile slot).Nodup := by
  refine List.Nodup.map ?_ (List.Nodup.filter _ (by decide))
  intro d e h
  exact (ModuloResource.link.inj h).2.2.1

theorem nodup_tileResources (slot : ℕ) (tile : TileCoord) :
    (model.tileResources slot tile).Nodup := by
  have hlinks : (if model.target.dataNetwork.topology == "mesh_2d"
      then model.tileLinks .data tile slot ++ model.tileLinks .predicate tile slot
      else []).Nodup := by
    split
    · refine List.nodup_append.mpr ⟨nodup_tileLinks _ _ _, nodup_tileLinks _ _ _, ?_⟩
      intro a ha b hb
      obtain ⟨_, -, rfl⟩ := mem_tileLinks.mp ha
      obtain ⟨_, -, rfl⟩ := mem_tileLinks.mp hb
      simp
    · exact List.nodup_nil
  have hkind : ∀ b ∈ (if model.target.dataNetwork.topology == "mesh_2d"
      then model.tileLinks .data tile slot ++ model.tileLinks .predicate tile slot else []),
      ∃ domain direction, b = .link domain tile direction slot := by
    intro b hb
    split at hb
    · rcases List.mem_append.mp hb with hb | hb
      · obtain ⟨direction, -, rfl⟩ := mem_tileLinks.mp hb
        exact ⟨_, direction, rfl⟩
      · obtain ⟨direction, -, rfl⟩ := mem_tileLinks.mp hb
        exact ⟨_, direction, rfl⟩
    · cases hb
  rw [tileResources, List.nodup_append, List.nodup_append]
  refine ⟨⟨List.nodup_singleton _, ?_, ?_⟩, hlinks, ?_⟩
  · split
    · exact List.nodup_singleton _
    · exact List.nodup_nil
  · intro a ha b hb
    rw [List.mem_singleton] at ha
    split at hb
    · rw [List.mem_singleton] at hb
      simp [ha, hb]
    · cases hb
  · intro a ha b hb
    obtain ⟨_, _, rfl⟩ := hkind b hb
    rcases List.mem_append.mp ha with ha | ha
    · rw [List.mem_singleton] at ha
      simp [ha]
    · split at ha
      · rw [List.mem_singleton] at ha
        simp [ha]
      · cases ha

theorem nodup_tiles {target : TargetModel} : target.tiles.Nodup := by
  rw [TargetModel.tiles, List.nodup_flatMap]
  refine ⟨fun row _ ↦ ?_, ?_⟩
  · exact List.Nodup.map (fun a b h ↦ (Prod.mk.inj h).2) List.nodup_range
  · refine List.nodup_range.imp fun {a b} hab ↦ ?_
    intro t ha hb
    obtain ⟨_, -, rfl⟩ := List.mem_map.mp ha
    obtain ⟨_, -, h⟩ := List.mem_map.mp hb
    exact hab (Prod.mk.inj h).1.symm

/-- No resource is enumerated twice. -/
theorem nodup_resources : model.resources.Nodup := by
  rw [resources, List.nodup_flatMap]
  refine ⟨fun slot _ ↦ ?_, ?_⟩
  · rw [List.nodup_flatMap]
    refine ⟨fun tile _ ↦ nodup_tileResources _ _, nodup_tiles.imp fun {a b} hab ↦ ?_⟩
    intro r ha hb
    have htile := (tile_slot_of_mem_tileResources ha).1.symm.trans
      (tile_slot_of_mem_tileResources hb).1
    obtain ⟨hrow, hcol⟩ := TileCoord.mk.inj htile
    exact hab (Prod.ext hrow hcol)
  · refine List.nodup_range.imp fun {a b} hab ↦ ?_
    intro r ha hb
    obtain ⟨_, -, ha⟩ := List.mem_flatMap.mp ha
    obtain ⟨_, -, hb⟩ := List.mem_flatMap.mp hb
    exact hab ((tile_slot_of_mem_tileResources ha).2.symm.trans
      (tile_slot_of_mem_tileResources hb).2)

/-- The enumeration has a resource for every tile at every slot. -/
theorem mul_le_resourceCount :
    model.ii * (model.target.array.rows * model.target.array.cols) ≤ model.resourceCount := by
  have hsub : ((List.range model.ii).flatMap fun slot ↦ model.target.tiles.map fun tile ↦
      ModuloResource.fu ⟨tile.1, tile.2⟩ slot) ⊆ model.resources := by
    intro r hr
    obtain ⟨slot, hslot, hr⟩ := List.mem_flatMap.mp hr
    obtain ⟨⟨row, col⟩, htile, rfl⟩ := List.mem_map.mp hr
    exact mem_resources_iff.mpr ⟨List.mem_range.mp hslot, TargetModel.mem_tiles_iff.mp htile⟩
  have hnodup : ((List.range model.ii).flatMap fun slot ↦ model.target.tiles.map fun tile ↦
      ModuloResource.fu ⟨tile.1, tile.2⟩ slot).Nodup := by
    rw [List.nodup_flatMap]
    refine ⟨fun slot _ ↦ nodup_tiles.map fun a b h ↦ ?_, List.nodup_range.imp fun {a b} hab ↦ ?_⟩
    · obtain ⟨hrow, hcol⟩ := TileCoord.mk.inj (ModuloResource.fu.inj h).1
      exact Prod.ext hrow hcol
    · intro r ha hb
      obtain ⟨_, -, rfl⟩ := List.mem_map.mp ha
      obtain ⟨_, -, h⟩ := List.mem_map.mp hb
      exact hab (ModuloResource.fu.inj h).2.symm
  have hle := (List.subperm_of_subset hnodup hsub).length_le
  rw [resourceCount]
  simpa [List.length_flatMap, TargetModel.length_tiles] using hle

/-! ## Ids -/

/-- A resource is found at its position, in 32 bits. -/
theorem findResource_eq_some_iff {r : ModuloResource} {id : ResourceId} :
    model.findResource r = some id ↔
      ∃ index, model.resource index = some r ∧ index % 2 ^ 32 = id := by
  rw [findResource, Option.map_eq_some_iff]
  constructor
  · rintro ⟨index, hindex, rfl⟩
    obtain ⟨hlt, heq, -⟩ := List.findIdx?_eq_some_iff_getElem.mp hindex
    exact ⟨index, List.getElem?_eq_some_iff.mpr ⟨hlt, by simpa using heq⟩, rfl⟩
  · rintro ⟨index, hindex, rfl⟩
    obtain ⟨hlt, heq⟩ := List.getElem?_eq_some_iff.mp hindex
    refine ⟨index, List.findIdx?_eq_some_iff_getElem.mpr ⟨hlt, by simpa using heq, ?_⟩, rfl⟩
    intro j hj hbeq
    have heq' : model.resources[j] = model.resources[index] := by
      rw [heq]
      simpa using hbeq
    exact absurd ((nodup_resources.getElem_inj_iff).mp heq') hj.ne

/-- While the resources fit into 32 bits, an id is the position of its resource. -/
theorem findResource_eq_some_iff_resource (hcount : model.resourceCount ≤ 2 ^ 32)
    {r : ModuloResource} {id : ResourceId} :
    model.findResource r = some id ↔ model.resource id = some r := by
  rw [findResource_eq_some_iff]
  have hsmall : ∀ index, model.resource index = some r → index % 2 ^ 32 = index := by
    intro index h
    have hlt : index < model.resourceCount := (List.getElem?_eq_some_iff.mp h).1
    exact Nat.mod_eq_of_lt (hlt.trans_le hcount)
  constructor
  · rintro ⟨index, h, rfl⟩
    rw [hsmall index h, h]
  · intro h
    exact ⟨id, h, hsmall id h⟩

theorem findResource_isSome_iff {r : ModuloResource} :
    (model.findResource r).isSome ↔ model.Has r := by
  rw [← mem_resources_iff, Option.isSome_iff_exists]
  constructor
  · rintro ⟨id, h⟩
    obtain ⟨index, h, -⟩ := findResource_eq_some_iff.mp h
    exact List.mem_of_getElem? h
  · intro h
    obtain ⟨index, hlt, heq⟩ := List.getElem_of_mem h
    exact ⟨_, findResource_eq_some_iff.mpr
      ⟨index, List.getElem?_eq_some_iff.mpr ⟨hlt, heq⟩, rfl⟩⟩

/-- Two resources with one id are equal while the resources fit into 32 bits. -/
theorem findResource_injective (hcount : model.resourceCount ≤ 2 ^ 32) {r s : ModuloResource}
    {id : ResourceId} (hr : model.findResource r = some id) (hs : model.findResource s = some id) :
    r = s := by
  rw [findResource_eq_some_iff_resource hcount] at hr hs
  exact Option.some.inj (hr.symm.trans hs)

theorem linkAt_isSome_iff {domain : NetworkDomain} {source : TileCoord}
    {direction : Direction} {slot : ℕ} :
    (model.linkAt domain source direction slot).isSome ↔
      model.Has (.link domain source direction slot) := by
  rw [linkAt]
  by_cases hsome : (model.target.neighbor source direction).isSome
  · rw [if_pos hsome, findResource_isSome_iff]
  · rw [if_neg hsome]
    simp [Has, hsome]

theorem fuResource_eq_ok_iff {tile : TileCoord} {slot : ℕ} {id : ResourceId} :
    model.fuResource tile slot = .ok id ↔ model.findResource (.fu tile slot) = some id := by
  have hhas : (model.findResource (.fu tile slot)).isSome ↔ model.Has (.fu tile slot) :=
    findResource_isSome_iff
  rw [fuResource, hasFU]
  by_cases hslot : slot ≥ model.ii
  · rw [if_pos hslot]
    rcases hfind : model.findResource (.fu tile slot) with _ | found
    · simp
    · rw [hfind] at hhas
      exact absurd (hhas.mp rfl).1 hslot.not_gt
  · rw [if_neg hslot]
    by_cases htile : tile.row < model.target.array.rows ∧ tile.col < model.target.array.cols
    · rw [if_neg (by simp [htile])]
      rcases model.findResource (.fu tile slot) with _ | found <;> simp
    · rw [if_pos (by simpa [Classical.or_iff_not_imp_left] using htile)]
      rcases hfind : model.findResource (.fu tile slot) with _ | found
      · simp
      · rw [hfind] at hhas
        exact absurd (hhas.mp rfl).2 htile

theorem lsuResource_eq_ok_iff {tile : TileCoord} {slot : ℕ} {id : ResourceId} :
    model.lsuResource tile slot = .ok (some id) ↔
      model.findResource (.lsu tile slot) = some id := by
  constructor
  · exact fun h ↦ (lsuResource_eq_ok_some h).2
  · intro h
    obtain ⟨hslot, -, -, hlsu⟩ := findResource_isSome_iff.mp (Option.isSome_of_mem h)
    rw [lsuResource, if_neg (Nat.not_le.mpr hslot), if_neg (by simpa using hlsu), h]

theorem linkResource_eq_ok_iff {domain : NetworkDomain} {source : TileCoord}
    {direction : Direction} {slot : ℕ} {id : ResourceId} :
    model.linkResource domain source direction slot = .ok (some id) ↔
      model.linkAt domain source direction slot = some id := by
  constructor
  · intro h
    rw [linkResource] at h
    split at h
    · cases h
    · exact Except.ok.inj h
  · intro h
    rw [linkResource_eq (linkAt_isSome_iff.mp (Option.isSome_of_mem h)).1, h]

theorem unitResourceId_eq_ok_iff {executionClass : TargetExecutionClass} {tile : TileCoord}
    {slot : ℕ} {id : ResourceId} : model.unitResourceId executionClass tile slot = .ok id ↔
      model.findResource (unitResource executionClass tile slot) = some id := by
  rcases executionClass with _ | _
  · exact fuResource_eq_ok_iff
  · rw [unitResource, ← lsuResource_eq_ok_iff, unitResourceId]
    rcases model.lsuResource tile slot with what | found | found <;> simp

/-! ## Footprints -/

/-- A tile that supports an operation has the unit the operation executes on. -/
theorem has_unitResource {node : TargetNode} {tile : TileCoord}
    {operation : TargetOperationDesc}
    (hop : model.target.findOperation node.operation = some operation)
    (hsupports : model.supportsOperation tile node = true) {slot : ℕ} (hslot : slot < model.ii) :
    model.Has (unitResource operation.executionClass tile slot) := by
  rw [supportsOperation] at hsupports
  split at hsupports
  · cases hsupports
  · rename_i hin
    simp only [ge_iff_le, Bool.or_eq_true, decide_eq_true_eq, not_or, not_le] at hin
    rw [hop] at hsupports
    rcases hclass : operation.executionClass with _ | _
    · exact ⟨hslot, hin⟩
    · refine ⟨hslot, hin.1, hin.2, ?_⟩
      have hself : model.target.findOperation operation.id = some operation := by
        rw [TargetModel.findOperation_id hop, hop]
      simp only at hsupports
      unfold TargetModel.tileSupportsOperation at hsupports
      rw [if_neg (by simp [hin])] at hsupports
      simpa [hself, hclass] using hsupports

/-- Distinct offsets within one interval lie at distinct slots. -/
theorem offset_eq_of_slot_eq {ii issueSlot i j : ℕ} (hi : i < ii) (hj : j < ii)
    (h : (issueSlot + i) % ii = (issueSlot + j) % ii) : i = j := by
  have hmod : i ≡ j [MOD ii] := Nat.ModEq.add_left_cancel' issueSlot h
  exact hmod.eq_of_lt_of_lt hi hj

theorem unitResource_injective {executionClass : TargetExecutionClass} {tile : TileCoord}
    {s t : ℕ} (h : unitResource executionClass tile s = unitResource executionClass tile t) :
    s = t := by
  rcases executionClass with _ | _
  · exact (ModuloResource.fu.inj h).2
  · exact (ModuloResource.lsu.inj h).2

/-- The footprint loop returns when every unit exists and the offsets fit into the interval. -/
theorem exists_footprintFrom (hcount : model.resourceCount ≤ 2 ^ 32)
    {executionClass : TargetExecutionClass} {tile : TileCoord} {issueSlot : ℕ}
    (hissue : issueSlot < model.ii)
    (hhas : ∀ slot < model.ii, model.Has (unitResource executionClass tile slot))
    {remaining offset : ℕ} {acc : List ResourceId} (hfit : offset + remaining ≤ model.ii)
    (hacc : ∀ id ∈ acc, ∃ i < offset, model.findResource
      (unitResource executionClass tile ((issueSlot + i) % model.ii)) = some id) :
    ∃ footprint,
      model.footprintFrom executionClass tile issueSlot remaining offset acc = .ok footprint := by
  induction remaining generalizing offset acc with
  | zero => exact ⟨acc, rfl⟩
  | succ remaining ih =>
    have hpos : 0 < model.ii := by omega
    obtain ⟨id, hid⟩ := Option.isSome_iff_exists.mp (findResource_isSome_iff.mpr
      (hhas ((issueSlot + offset) % model.ii) (Nat.mod_lt _ hpos)))
    have hfresh : id ∉ acc := by
      intro hmem
      obtain ⟨i, hi, hfound⟩ := hacc id hmem
      have hslot := unitResource_injective (findResource_injective hcount hfound hid)
      exact absurd (offset_eq_of_slot_eq (by omega) (by omega) hslot) hi.ne
    rw [footprintFrom, ModuloTimeDomain.advance_eq_ok_iff.mpr ⟨hissue, rfl⟩]
    simp only [unitResourceId_eq_ok_iff.mpr hid]
    rw [if_neg (by simpa using hfresh)]
    apply ih (by omega)
    intro r hr
    rcases List.mem_append.mp hr with hr | hr
    · obtain ⟨i, hi, hfound⟩ := hacc r hr
      exact ⟨i, by omega, hfound⟩
    · obtain rfl := List.mem_singleton.mp hr
      exact ⟨offset, by omega, hid⟩

theorem exists_operationFootprint (hcount : model.resourceCount ≤ 2 ^ 32) {node : TargetNode}
    {tile : TileCoord} {issueSlot : ℕ} {operation : TargetOperationDesc}
    (hop : model.target.findOperation node.operation = some operation)
    (hsupports : model.supportsOperation tile node = true) (hissue : issueSlot < model.ii)
    (hpos : operation.issueOccupancy ≠ 0) (hfit : operation.issueOccupancy ≤ model.ii) :
    ∃ footprint, model.operationFootprint node tile issueSlot = .ok footprint := by
  rw [operationFootprint, hop]
  simp only [hsupports, Bool.not_true, Bool.false_eq_true, if_false, if_neg hpos]
  refine exists_footprintFrom hcount hissue (fun slot hslot ↦ has_unitResource hop hsupports hslot)
    (by omega) fun id hid ↦ absurd hid List.not_mem_nil

theorem issueOccupancy_ne_zero {target : TargetModel} (hloaded : target.Loaded)
    {name : String} {operation : TargetOperationDesc}
    (hop : target.findOperation name = some operation) : operation.issueOccupancy ≠ 0 := by
  have hadmits := hloaded.admits operation (List.mem_of_find?_eq_some hop)
  simp only [TargetModel.admits, TargetOperationDesc.timingValid, Bool.and_eq_true] at hadmits
  obtain ⟨⟨⟨⟨⟨-, hpos, -⟩, -⟩, -⟩, -⟩, -⟩ := hadmits
  simpa using hpos

/-! ## The bijection -/

variable (model)

/-- Ids and resources correspond one to one. -/
structure IdsBijective : Prop where
  known : ∀ id : ResourceId, (model.resource id).isSome ↔ id < model.resourceCount
  exactly : ∀ r, (∃ id, model.resource id = some r) ↔ model.Has r
  inverse : ∀ id r, model.findResource r = some id ↔ model.resource id = some r
  fu : ∀ tile slot id, model.fuResource tile slot = .ok id ↔
    model.resource id = some (.fu tile slot)
  lsu : ∀ tile slot id, model.lsuResource tile slot = .ok (some id) ↔
    model.resource id = some (.lsu tile slot)
  link : ∀ domain source direction slot id,
    model.linkResource domain source direction slot = .ok (some id) ↔
      model.resource id = some (.link domain source direction slot)

/-- Every operation that fits into the interval has a footprint: the ids of its unit at consecutive
slots. -/
def FootprintsExact : Prop :=
  ∀ (node : TargetNode) (tile : TileCoord) (issueSlot : ℕ) (operation : TargetOperationDesc),
    model.target.findOperation node.operation = some operation →
    model.supportsOperation tile node = true → issueSlot < model.ii →
    operation.issueOccupancy ≤ model.ii →
    ∃ footprint, model.operationFootprint node tile issueSlot = .ok footprint ∧
      footprint.Nodup ∧ footprint.length = operation.issueOccupancy ∧
      ∀ i, ∀ hi : i < footprint.length, model.resource (footprint.get ⟨i, hi⟩)
        = some (unitResource operation.executionClass tile ((issueSlot + i) % model.ii))

/-- A link has an id exactly when its neighbour is inside the array. -/
def LinksFollowArray : Prop :=
  ∀ domain source direction, ∀ slot < model.ii,
    ((∃ id, model.linkResource domain source direction slot = .ok (some id)) ↔
      (model.target.neighbor source direction).isSome)

variable {model}

/-- **Resource ids are a bijection** when the resources fit into 32 bits. Links are found where the
neighbour is inside the array of a mesh, and nowhere on a disconnected network. -/
theorem ids_bijective {target : TargetModel} {ii : ℕ} (hloaded : target.Loaded) (_hii : 1 ≤ ii)
    (hcount : (⟨target, ii⟩ : ModuloResourceModel).resourceCount ≤ 2 ^ 32) :
    (⟨target, ii⟩ : ModuloResourceModel).IdsBijective ∧
      (⟨target, ii⟩ : ModuloResourceModel).FootprintsExact ∧
      ∀ domain source direction, ∀ slot < ii,
        ((∃ id, (⟨target, ii⟩ : ModuloResourceModel).linkResource domain source direction slot
            = .ok (some id)) ↔
          target.dataNetwork.topology = "mesh_2d" ∧
            (target.neighbor source direction).isSome) := by
  refine ⟨?_, ?_, ?_⟩
  · constructor
    · intro id
      simp [resource, resourceCount]
    · intro r
      rw [← mem_resources_iff]
      exact List.mem_iff_getElem?.symm
    · intro id r
      exact findResource_eq_some_iff_resource hcount
    · intro tile slot id
      rw [fuResource_eq_ok_iff, findResource_eq_some_iff_resource hcount]
    · intro tile slot id
      rw [lsuResource_eq_ok_iff, findResource_eq_some_iff_resource hcount]
    · intro domain source direction slot id
      rw [linkResource_eq_ok_iff, ← findResource_eq_some_iff_resource hcount, linkAt]
      by_cases hsome : (target.neighbor source direction).isSome
      · rw [if_pos hsome]
      · rw [if_neg hsome]
        constructor
        · intro h
          cases h
        · intro h
          have hhas := findResource_isSome_iff.mp (Option.isSome_of_mem h)
          exact absurd hhas.2.2 hsome
  · intro node tile issueSlot operation hop hsupports hissue hfit
    obtain ⟨footprint, hfootprint⟩ := exists_operationFootprint hcount hop hsupports hissue
      (issueOccupancy_ne_zero hloaded hop) hfit
    obtain ⟨-, -, hnodup, hlength, hids⟩ := operationFootprint_spec hop hfootprint
    refine ⟨footprint, hfootprint, hnodup, hlength, fun i hi ↦ ?_⟩
    rw [← findResource_eq_some_iff_resource hcount]
    exact hids i hi
  · intro domain source direction slot hslot
    simp only [linkResource_eq_ok_iff]
    rw [← Option.isSome_iff_exists, linkAt_isSome_iff]
    simp only [Has, hslot, true_and]

/-- The shipped array at an interval of four cycles. -/
theorem shipped_ids_bijective :
    (⟨shippedTarget, 4⟩ : ModuloResourceModel).IdsBijective ∧
      (⟨shippedTarget, 4⟩ : ModuloResourceModel).FootprintsExact ∧
      ∀ domain source direction, ∀ slot < 4,
        ((∃ id, (⟨shippedTarget, 4⟩ : ModuloResourceModel).linkResource domain source direction
            slot = .ok (some id)) ↔
          shippedTarget.dataNetwork.topology = "mesh_2d" ∧
            (shippedTarget.neighbor source direction).isSome) :=
  ids_bijective TargetModel.shippedTarget_loaded (by decide) (by decide +kernel)

/-- The shipped contract with its network disconnected. -/
def disconnectedTarget : TargetModel :=
  { shippedTarget with interconnect := ⟨"disconnected", 1⟩ }

/-- The shipped contract for an array of 2³² tiles. -/
def wideTarget : TargetModel :=
  { shippedTarget with array := { shippedTarget.array with rows := 65536, cols := 65536 } }

theorem disconnectedTarget_loaded : disconnectedTarget.Loaded where
  rows_pos := by decide
  cols_pos := by decide
  nodup_operations := by decide
  admits := by decide
  memory := ⟨32, by decide⟩

theorem wideTarget_loaded : wideTarget.Loaded where
  rows_pos := by decide
  cols_pos := by decide
  nodup_operations := by decide
  admits := by decide
  memory := ⟨32, by decide⟩

/-- Past 2³² resources the ids start over. -/
theorem not_idsBijective_of_lt (hcount : 2 ^ 32 < model.resourceCount) : ¬ model.IdsBijective := by
  intro h
  have hlast : 2 ^ 32 < model.resources.length := hcount
  have hfirst : 0 < model.resources.length := by omega
  have hat : model.resource (2 ^ 32) = some model.resources[2 ^ 32] :=
    List.getElem?_eq_getElem hlast
  have hid : model.findResource model.resources[2 ^ 32] = some 0 :=
    findResource_eq_some_iff.mpr ⟨2 ^ 32, hat, by decide⟩
  have hzero := (h.inverse 0 model.resources[2 ^ 32]).mp hid
  rw [resource, List.getElem?_eq_getElem hfirst, Option.some.injEq] at hzero
  exact absurd (nodup_resources.getElem_inj_iff.mp hzero) (by decide)

/-- A disconnected network has no link where the array has a neighbour, and the ids of an array
with more than 2³² resources are not distinct. -/
theorem disconnected_and_wide_targets :
    (disconnectedTarget.Loaded ∧
      ¬ (⟨disconnectedTarget, 1⟩ : ModuloResourceModel).LinksFollowArray) ∧
      wideTarget.Loaded ∧ ¬ (⟨wideTarget, 2⟩ : ModuloResourceModel).IdsBijective := by
  refine ⟨⟨disconnectedTarget_loaded, ?_⟩, wideTarget_loaded, ?_⟩
  · intro h
    obtain ⟨id, hlink⟩ := (h .data ⟨0, 0⟩ .east 0 (by decide)).mpr (by decide)
    have hat := Option.isSome_of_mem (linkResource_eq_ok_iff.mp hlink)
    exact absurd (linkAt_isSome_iff.mp hat).2.1 (by decide)
  · have hcount : (⟨wideTarget, 2⟩ : ModuloResourceModel).ii
        * (wideTarget.array.rows * wideTarget.array.cols)
          ≤ (⟨wideTarget, 2⟩ : ModuloResourceModel).resourceCount := mul_le_resourceCount
    have harray : wideTarget.array.rows * wideTarget.array.cols = 2 ^ 32 := by decide
    have hii : (⟨wideTarget, 2⟩ : ModuloResourceModel).ii = 2 := rfl
    refine not_idsBijective_of_lt (lt_of_lt_of_le ?_ hcount)
    rw [harray, hii]
    decide

end ModuloResourceModel

end PredicatedMesh
