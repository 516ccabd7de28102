import PredicatedMesh.Mapping.Serialization
import PredicatedMesh.Mapping.Solution

/-!
# Mappings survive being written and read

The reader undoes the writer record by record: names of directions, networks and kinds, tiles,
actions, placements, dependences. The builder then sees the entries in the order it left them in, so
nothing is refused and sorting changes nothing.

In the other direction the builder's checks, kept as an invariant while the entries come in, are
what `ModuloMapping.Built` asks for.
-/

namespace PredicatedMesh

open Json Scan

/-! ## What a builder leaves -/

/-- A dependence as a builder records it. -/
inductive MappedDependence.Recorded : MappedDependence → Prop
  | memory (edge : TargetEdgeId) (cycles : ℕ) : Recorded ⟨edge, .memory, cycles, none⟩
  | transport (plan : TransportPlan)
      (actions : ∀ action ∈ plan.actions, ModuloMappingBuilder.checkAction plan action = .ok ()) :
      Recorded ⟨plan.edge, UncheckedModuloMappingBuilder.kindOf plan.domain,
        plan.requiredSeparationCycles, some plan⟩

/-- The order every builder leaves the entries in. -/
structure ModuloMapping.Ordered (mapping : ModuloMapping) : Prop where
  placements : SortedMap.Sorted NodePlacement.node mapping.placements
  dependences : SortedMap.Sorted MappedDependence.edge mapping.dependences

/-- A mapping that a builder put together. -/
structure ModuloMapping.Built (mapping : ModuloMapping) : Prop extends mapping.Ordered where
  ii_pos : mapping.ii ≠ 0
  slots : ∀ placement ∈ mapping.placements, placement.issueSlot < mapping.ii
  recorded : ∀ dependence ∈ mapping.dependences, dependence.Recorded

/-! ## Numbers that fit -/

def TileCoord.Fits (tile : TileCoord) : Prop := tile.row < 2 ^ 32 ∧ tile.col < 2 ^ 32

def TransportAction.Fits : TransportAction → Prop
  | .linkStep link => link.source.Fits ∧ link.elapsedFromProducerIssue < 2 ^ 32
  | .virtualHold hold =>
    hold.tile.Fits ∧ hold.captureElapsed < 2 ^ 32 ∧ hold.releaseElapsed < 2 ^ 32

def NodePlacement.Fits (placement : NodePlacement) : Prop :=
  placement.node < 2 ^ 32 ∧ placement.tile.Fits ∧ placement.issueSlot < 2 ^ 32

def MappedDependence.Fits (dependence : MappedDependence) : Prop :=
  dependence.edge < 2 ^ 32 ∧ dependence.requiredSeparationCycles < 2 ^ 32 ∧
    ∀ plan, dependence.transport = some plan → ∀ action ∈ plan.actions, action.Fits

/-- Every number of a mapping fits the integer type that holds it. -/
structure ModuloMapping.Fits (mapping : ModuloMapping) : Prop where
  ii_lt : mapping.ii < 2 ^ 32
  placements : ∀ placement ∈ mapping.placements, placement.Fits
  dependences : ∀ dependence ∈ mapping.dependences, dependence.Fits

namespace ModuloMappingSerialization

/-! ## Names -/

@[simp] theorem directionFromName_name (direction : Direction) :
    directionFromName (directionName direction) = .ok direction := by
  cases direction <;> decide

@[simp] theorem domainFromName_name (domain : NetworkDomain) :
    domainFromName (domainName domain) = .ok domain := by
  cases domain <;> decide

@[simp] theorem kindFromName_name (kind : EdgeKind) : kindFromName (kindName kind) = .ok kind := by
  cases kind <;> decide

/-! ## Records -/

theorem parseTile_tileJson {tile : TileCoord} (h : tile.Fits) (complaint : String) :
    parseTile complaint (tileJson tile) = .ok tile := by
  rw [tileJson, parseTile, getUnsigned_nat h.1, getUnsigned_nat h.2]
  rfl

theorem fits_of_parseTile {complaint : String} {value : Json} {tile : TileCoord}
    (h : parseTile complaint value = .ok tile) : tile.Fits := by
  rw [parseTile.eq_def] at h
  split at h
  · obtain ⟨row, hrow, h⟩ := bind_eq_ok.mp h
    obtain ⟨col, hcol, h⟩ := bind_eq_ok.mp h
    obtain rfl := Except.ok.inj h
    exact ⟨lt_of_getUnsigned (by decide) hrow, lt_of_getUnsigned (by decide) hcol⟩
  · cases h

theorem parseAction_actionJson {action : TransportAction} (h : action.Fits) :
    parseAction (actionJson action) = .ok action := by
  rcases action with ⟨domain, source, direction, elapsed⟩ | ⟨domain, tile, capture, release⟩
  · obtain ⟨hsource, helapsed⟩ := h
    refine bind_eq_ok.mpr ⟨"link", required_string (by simp [actionJson]), ?_⟩
    refine bind_eq_ok.mpr ⟨domainName domain, required_string (by simp [actionJson]), ?_⟩
    refine bind_eq_ok.mpr ⟨domain, domainFromName_name domain, ?_⟩
    rw [if_pos rfl]
    refine bind_eq_ok.mpr ⟨tileJson source, atKey_of_field (by simp [actionJson]), ?_⟩
    refine bind_eq_ok.mpr ⟨source, parseTile_tileJson hsource _, ?_⟩
    refine bind_eq_ok.mpr ⟨directionName direction, required_string (by simp [actionJson]), ?_⟩
    refine bind_eq_ok.mpr ⟨direction, directionFromName_name direction, ?_⟩
    exact bind_eq_ok.mpr ⟨elapsed,
      required_unsigned (by simp [actionJson]) helapsed, rfl⟩
  · obtain ⟨htile, hcapture, hrelease⟩ := h
    refine bind_eq_ok.mpr ⟨"hold", required_string (by simp [actionJson]), ?_⟩
    refine bind_eq_ok.mpr ⟨domainName domain, required_string (by simp [actionJson]), ?_⟩
    refine bind_eq_ok.mpr ⟨domain, domainFromName_name domain, ?_⟩
    rw [if_neg (by decide), if_pos rfl]
    refine bind_eq_ok.mpr ⟨tileJson tile, atKey_of_field (by simp [actionJson]), ?_⟩
    refine bind_eq_ok.mpr ⟨tile, parseTile_tileJson htile _, ?_⟩
    refine bind_eq_ok.mpr ⟨capture,
      required_unsigned (by simp [actionJson]) hcapture, ?_⟩
    exact bind_eq_ok.mpr ⟨release,
      required_unsigned (by simp [actionJson]) hrelease, rfl⟩

theorem fits_of_parseAction {value : Json} {action : TransportAction}
    (h : parseAction value = .ok action) : action.Fits := by
  obtain ⟨kind, -, h⟩ := bind_eq_ok.mp h
  obtain ⟨name, -, h⟩ := bind_eq_ok.mp h
  obtain ⟨domain, -, h⟩ := bind_eq_ok.mp h
  split_ifs at h
  · obtain ⟨sourceValue, -, h⟩ := bind_eq_ok.mp h
    obtain ⟨source, hsource, h⟩ := bind_eq_ok.mp h
    obtain ⟨directionName, -, h⟩ := bind_eq_ok.mp h
    obtain ⟨direction, -, h⟩ := bind_eq_ok.mp h
    obtain ⟨elapsed, helapsed, h⟩ := bind_eq_ok.mp h
    obtain rfl := Except.ok.inj h
    exact ⟨fits_of_parseTile hsource, lt_of_required (by decide) helapsed⟩
  · obtain ⟨tileValue, -, h⟩ := bind_eq_ok.mp h
    obtain ⟨tile, htile, h⟩ := bind_eq_ok.mp h
    obtain ⟨capture, hcapture, h⟩ := bind_eq_ok.mp h
    obtain ⟨release, hrelease, h⟩ := bind_eq_ok.mp h
    obtain rfl := Except.ok.inj h
    exact ⟨fits_of_parseTile htile, lt_of_required (by decide) hcapture,
      lt_of_required (by decide) hrelease⟩

end ModuloMappingSerialization

/-! ## Entries taken in by the builder -/

namespace UncheckedModuloMappingBuilder

variable {builder : UncheckedModuloMappingBuilder}

theorem kindOf_ne_memory (domain : NetworkDomain) : kindOf domain ≠ .memory := by
  cases domain <;> decide

theorem place_eq_ok {placement : NodePlacement} (hslot : placement.issueSlot < builder.ii)
    (hfresh : SortedMap.contains NodePlacement.node placement.node builder.placements = false) :
    builder.place placement
      = .ok { builder with placements := builder.placements ++ [placement] } := by
  rw [place, if_neg (Nat.not_le.mpr hslot), if_neg]
  rw [Bool.not_eq_true]
  exact hfresh

theorem setTransport_eq_ok {plan : TransportPlan}
    (hactions : ∀ action ∈ plan.actions, ModuloMappingBuilder.checkAction plan action = .ok ())
    (hfresh : SortedMap.contains MappedDependence.edge plan.edge builder.dependences = false) :
    builder.setTransport plan.edge plan = .ok { builder with
      dependences := builder.dependences ++ [⟨plan.edge, kindOf plan.domain,
        plan.requiredSeparationCycles, some plan⟩] } := by
  have hfree : ¬ (builder.dependences.any fun value ↦ value.edge == plan.edge) = true := by
    rw [Bool.not_eq_true]
    exact hfresh
  rw [setTransport, if_neg (not_not_intro rfl), if_neg hfree, forM_eq_ok hactions]

theorem setMemorySeparation_eq_ok {edge : TargetEdgeId} {cycles : ℕ}
    (hfresh : SortedMap.contains MappedDependence.edge edge builder.dependences = false) :
    builder.setMemorySeparation edge cycles = .ok { builder with
      dependences := builder.dependences ++ [⟨edge, .memory, cycles, none⟩] } := by
  rw [setMemorySeparation, if_neg]
  rw [Bool.not_eq_true]
  exact hfresh

end UncheckedModuloMappingBuilder

namespace ModuloMappingSerialization

variable {builder : UncheckedModuloMappingBuilder}

theorem parsePlacement_placementJson {placement : NodePlacement} (hfits : placement.Fits)
    (hslot : placement.issueSlot < builder.ii)
    (hfresh : SortedMap.contains NodePlacement.node placement.node builder.placements = false) :
    parsePlacement builder (placementJson placement)
      = .ok { builder with placements := builder.placements ++ [placement] } := by
  obtain ⟨hnode, htile, hissue⟩ := hfits
  refine bind_eq_ok.mpr ⟨placement.node,
    required_unsigned (by simp [placementJson]) hnode, ?_⟩
  refine bind_eq_ok.mpr ⟨tileJson placement.tile, atKey_of_field (by simp [placementJson]), ?_⟩
  refine bind_eq_ok.mpr ⟨placement.tile, parseTile_tileJson htile _, ?_⟩
  refine bind_eq_ok.mpr ⟨placement.issueSlot,
    required_unsigned (by simp [placementJson]) hissue, ?_⟩
  exact UncheckedModuloMappingBuilder.place_eq_ok hslot hfresh

theorem parseTransport_transportJson {plan : TransportPlan}
    (hfits : ∀ action ∈ plan.actions, action.Fits)
    (hactions : ∀ action ∈ plan.actions, ModuloMappingBuilder.checkAction plan action = .ok ())
    (hfresh : SortedMap.contains MappedDependence.edge plan.edge builder.dependences = false) :
    parseTransport builder plan.edge (UncheckedModuloMappingBuilder.kindOf plan.domain)
        plan.requiredSeparationCycles (transportJson plan)
      = .ok { builder with dependences := builder.dependences ++
          [⟨plan.edge, UncheckedModuloMappingBuilder.kindOf plan.domain,
            plan.requiredSeparationCycles, some plan⟩] } := by
  have hfield : (transportJson plan).field? "actions"
    = some (.arr (plan.actions.map actionJson)) := by
    simp [transportJson]
  rw [parseTransport, if_neg (by simp [transportJson])]
  refine bind_eq_ok.mpr ⟨domainName plan.domain, required_string (by simp [transportJson]), ?_⟩
  refine bind_eq_ok.mpr ⟨plan.domain, domainFromName_name plan.domain, ?_⟩
  rw [if_neg (not_not_intro rfl), hfield]
  refine bind_eq_ok.mpr ⟨plan.actions,
    mapM_written fun action haction ↦ parseAction_actionJson (hfits action haction), ?_⟩
  exact UncheckedModuloMappingBuilder.setTransport_eq_ok hactions hfresh

theorem parseDependence_dependenceJson {dependence : MappedDependence} (hfits : dependence.Fits)
    (hrecorded : dependence.Recorded)
    (hfresh :
      SortedMap.contains MappedDependence.edge dependence.edge builder.dependences = false) :
    parseDependence builder (dependenceJson dependence)
      = .ok { builder with dependences := builder.dependences ++ [dependence] } := by
  obtain ⟨hedge, hseparation, hactions⟩ := hfits
  refine bind_eq_ok.mpr ⟨dependence.edge,
    required_unsigned (by simp [dependenceJson]) hedge, ?_⟩
  refine bind_eq_ok.mpr ⟨kindName dependence.kind,
    required_string (by simp [dependenceJson]), ?_⟩
  refine bind_eq_ok.mpr ⟨dependence.kind, kindFromName_name _, ?_⟩
  refine bind_eq_ok.mpr ⟨dependence.requiredSeparationCycles,
    required_unsigned (by simp [dependenceJson]) hseparation, ?_⟩
  rcases hrecorded with ⟨edge, cycles⟩ | ⟨plan, hchecked⟩
  · rw [if_pos rfl, if_neg (by simp [dependenceJson, Json.contains])]
    exact UncheckedModuloMappingBuilder.setMemorySeparation_eq_ok hfresh
  · have hfield : (dependenceJson ⟨plan.edge, UncheckedModuloMappingBuilder.kindOf plan.domain,
        plan.requiredSeparationCycles, some plan⟩).field? "transport"
          = some (transportJson plan) := by
      simp [dependenceJson]
    rw [if_neg (UncheckedModuloMappingBuilder.kindOf_ne_memory plan.domain), hfield]
    exact parseTransport_transportJson (hactions plan rfl) hchecked hfresh

/-! ## Whole mappings -/

/-- **A mapping is read back** when a builder could have made it and its numbers fit. -/
theorem parse_toJson {mapping : ModuloMapping} (hbuilt : mapping.Built) (hfits : mapping.Fits) :
    parse (toJson mapping) = .ok mapping := by
  refine bind_eq_ok.mpr ⟨(), checkSchema_of_field rfl (by simp [toJson]), ?_⟩
  refine bind_eq_ok.mpr ⟨mapping.targetName, required_string (by simp [toJson]), ?_⟩
  refine bind_eq_ok.mpr ⟨mapping.ii, required_unsigned (by simp [toJson]) hfits.ii_lt, ?_⟩
  refine bind_eq_ok.mpr ⟨_, if_neg hbuilt.ii_pos, ?_⟩
  refine bind_eq_ok.mpr ⟨.arr (mapping.placements.map placementJson),
    atKey_of_field (by simp [toJson]), ?_⟩
  refine bind_eq_ok.mpr ⟨_, getArray_arr _ _, ?_⟩
  have hplacements : (mapping.placements.map placementJson).foldlM parsePlacement
      ⟨mapping.targetName, mapping.ii, [], []⟩
        = .ok ⟨mapping.targetName, mapping.ii, mapping.placements, []⟩ := by
    apply foldlM_written (s := fun placements ↦
      (⟨mapping.targetName, mapping.ii, placements, []⟩ : UncheckedModuloMappingBuilder))
    intro before placement after hsplit
    have hmem : placement ∈ mapping.placements := by
      rw [hsplit]
      exact List.mem_append_right _ List.mem_cons_self
    apply parsePlacement_placementJson (hfits.placements placement hmem)
      (hbuilt.slots placement hmem)
    exact (hsplit ▸ hbuilt.placements).fresh
  have hdependences : (mapping.dependences.map dependenceJson).foldlM parseDependence
      ⟨mapping.targetName, mapping.ii, mapping.placements, []⟩
        = .ok ⟨mapping.targetName, mapping.ii, mapping.placements, mapping.dependences⟩ := by
    apply foldlM_written (s := fun dependences ↦
      (⟨mapping.targetName, mapping.ii, mapping.placements, dependences⟩ :
        UncheckedModuloMappingBuilder))
    intro before dependence after hsplit
    have hmem : dependence ∈ mapping.dependences := by
      rw [hsplit]
      exact List.mem_append_right _ List.mem_cons_self
    apply parseDependence_dependenceJson (hfits.dependences dependence hmem)
      (hbuilt.recorded dependence hmem)
    exact (hsplit ▸ hbuilt.dependences).fresh
  refine bind_eq_ok.mpr ⟨_, hplacements, ?_⟩
  refine bind_eq_ok.mpr ⟨.arr (mapping.dependences.map dependenceJson),
    atKey_of_field (by simp [toJson]), ?_⟩
  refine bind_eq_ok.mpr ⟨_, getArray_arr _ _, ?_⟩
  refine bind_eq_ok.mpr ⟨_, hdependences, ?_⟩
  rw [UncheckedModuloMappingBuilder.finish, hbuilt.placements.insertionSort_eq (List.Perm.refl _),
    hbuilt.dependences.insertionSort_eq (List.Perm.refl _)]

end ModuloMappingSerialization

/-! ## What is read

The builder's checks keep the entries apart and within the interval while they come in. -/

/-- The entries a builder has taken in so far. -/
structure UncheckedModuloMappingBuilder.Sound (builder : UncheckedModuloMappingBuilder) : Prop where
  ii_pos : builder.ii ≠ 0
  ii_lt : builder.ii < 2 ^ 32
  placed : ∀ placement ∈ builder.placements, placement.issueSlot < builder.ii ∧ placement.Fits
  recorded : ∀ dependence ∈ builder.dependences, dependence.Recorded ∧ dependence.Fits
  placements : (builder.placements.map NodePlacement.node).Nodup
  dependences : (builder.dependences.map MappedDependence.edge).Nodup

namespace UncheckedModuloMappingBuilder

variable {builder later : UncheckedModuloMappingBuilder}

theorem Sound.place (h : builder.Sound) {placement : NodePlacement} (hfits : placement.Fits)
    (hplace : builder.place placement = .ok later) : later.Sound := by
  rw [UncheckedModuloMappingBuilder.place] at hplace
  split_ifs at hplace with hslot hfresh
  obtain rfl := Except.ok.inj hplace
  refine { h with placed := ?_, placements := SortedMap.nodup_append h.placements hfresh }
  intro other hother
  rcases List.mem_append.mp hother with hother | hother
  · exact h.placed other hother
  · obtain rfl := List.mem_singleton.mp hother
    exact ⟨Nat.not_le.mp hslot, hfits⟩

theorem Sound.record (h : builder.Sound) {dependence : MappedDependence}
    (hrecorded : dependence.Recorded) (hfits : dependence.Fits)
    (hfresh : ¬ (builder.dependences.any fun value ↦ value.edge == dependence.edge) = true) :
    Sound { builder with dependences := builder.dependences ++ [dependence] } := by
  refine { h with recorded := ?_, dependences := SortedMap.nodup_append h.dependences hfresh }
  intro other hother
  rcases List.mem_append.mp hother with hother | hother
  · exact h.recorded other hother
  · obtain rfl := List.mem_singleton.mp hother
    exact ⟨hrecorded, hfits⟩

theorem Sound.setMemorySeparation (h : builder.Sound) {edge : TargetEdgeId} {cycles : ℕ}
    (hedge : edge < 2 ^ 32) (hcycles : cycles < 2 ^ 32)
    (hset : builder.setMemorySeparation edge cycles = .ok later) : later.Sound := by
  rw [UncheckedModuloMappingBuilder.setMemorySeparation] at hset
  split_ifs at hset with hfresh
  obtain rfl := Except.ok.inj hset
  refine h.record (.memory edge cycles) ⟨hedge, hcycles, ?_⟩ hfresh
  intro plan hplan
  cases hplan

theorem Sound.setTransport (h : builder.Sound) {plan : TransportPlan} {edge : TargetEdgeId}
    (hedge : plan.edge < 2 ^ 32) (hseparation : plan.requiredSeparationCycles < 2 ^ 32)
    (hactions : ∀ action ∈ plan.actions, action.Fits)
    (hset : builder.setTransport edge plan = .ok later) : later.Sound := by
  rw [UncheckedModuloMappingBuilder.setTransport] at hset
  split_ifs at hset with hsame hfresh
  obtain rfl : plan.edge = edge := not_not.mp hsame
  split at hset
  · cases hset
  · rename_i hchecked
    obtain rfl := Except.ok.inj hset
    refine h.record (.transport plan (exists_ok_of_forM hchecked)) ⟨hedge, hseparation, ?_⟩ hfresh
    intro other hother
    obtain rfl := Option.some.inj hother
    exact hactions

/-- Sorting the entries makes them a mapping. -/
theorem Sound.finish (h : builder.Sound) : builder.finish.Built ∧ builder.finish.Fits := by
  have hplacements : ∀ placement, placement ∈ builder.finish.placements
      ↔ placement ∈ builder.placements := fun _ ↦ List.mem_insertionSort _
  have hdependences : ∀ dependence, dependence ∈ builder.finish.dependences
      ↔ dependence ∈ builder.dependences := fun _ ↦ List.mem_insertionSort _
  refine ⟨⟨⟨SortedMap.sorted_insertionSort h.placements,
    SortedMap.sorted_insertionSort h.dependences⟩, h.ii_pos, ?_, ?_⟩, h.ii_lt, ?_, ?_⟩
  · exact fun placement hmem ↦ (h.placed placement ((hplacements placement).mp hmem)).1
  · exact fun dependence hmem ↦ (h.recorded dependence ((hdependences dependence).mp hmem)).1
  · exact fun placement hmem ↦ (h.placed placement ((hplacements placement).mp hmem)).2
  · exact fun dependence hmem ↦ (h.recorded dependence ((hdependences dependence).mp hmem)).2

end UncheckedModuloMappingBuilder

namespace ModuloMappingSerialization

variable {builder later : UncheckedModuloMappingBuilder} {value : Json}

theorem lt_of_field {key : String} {n : ℕ} (h : required (getUnsigned 32) value key = .ok n) :
    n < 2 ^ 32 :=
  lt_of_required (by decide) h

theorem sound_of_parsePlacement (h : builder.Sound)
    (hparse : parsePlacement builder value = .ok later) : later.Sound := by
  obtain ⟨node, hnode, hparse⟩ := bind_eq_ok.mp hparse
  obtain ⟨tileValue, -, hparse⟩ := bind_eq_ok.mp hparse
  obtain ⟨tile, htile, hparse⟩ := bind_eq_ok.mp hparse
  obtain ⟨slot, hslot, hparse⟩ := bind_eq_ok.mp hparse
  exact h.place ⟨lt_of_field hnode, fits_of_parseTile htile, lt_of_field hslot⟩ hparse

theorem sound_of_parseTransport (h : builder.Sound) {edge : TargetEdgeId} {kind : EdgeKind}
    {separation : ℕ} (hedge : edge < 2 ^ 32) (hseparation : separation < 2 ^ 32)
    (hparse : parseTransport builder edge kind separation value = .ok later) : later.Sound := by
  rw [parseTransport] at hparse
  split_ifs at hparse
  obtain ⟨name, -, hparse⟩ := bind_eq_ok.mp hparse
  obtain ⟨domain, -, hparse⟩ := bind_eq_ok.mp hparse
  split_ifs at hparse
  split at hparse
  · obtain ⟨actions, hactions, hparse⟩ := bind_eq_ok.mp hparse
    refine h.setTransport hedge hseparation ?_ hparse
    intro action haction
    obtain ⟨source, -, hsource⟩ := exists_source_of_mem hactions haction
    exact fits_of_parseAction hsource
  · cases hparse

theorem sound_of_parseDependence (h : builder.Sound)
    (hparse : parseDependence builder value = .ok later) : later.Sound := by
  obtain ⟨edge, hedge, hparse⟩ := bind_eq_ok.mp hparse
  obtain ⟨name, -, hparse⟩ := bind_eq_ok.mp hparse
  obtain ⟨kind, -, hparse⟩ := bind_eq_ok.mp hparse
  obtain ⟨separation, hseparation, hparse⟩ := bind_eq_ok.mp hparse
  have hedge := lt_of_field hedge
  have hseparation := lt_of_field hseparation
  split_ifs at hparse
  · exact h.setMemorySeparation hedge hseparation hparse
  · split at hparse
    · cases hparse
    · exact sound_of_parseTransport h hedge hseparation hparse

/-- **What is read was built.** -/
theorem built_of_parse {root : Json} {mapping : ModuloMapping} (h : parse root = .ok mapping) :
    mapping.Built ∧ mapping.Fits := by
  obtain ⟨-, -, h⟩ := bind_eq_ok.mp h
  obtain ⟨targetName, -, h⟩ := bind_eq_ok.mp h
  obtain ⟨ii, hii, h⟩ := bind_eq_ok.mp h
  obtain ⟨start, hstart, h⟩ := bind_eq_ok.mp h
  obtain ⟨placementsValue, -, h⟩ := bind_eq_ok.mp h
  obtain ⟨placements, -, h⟩ := bind_eq_ok.mp h
  obtain ⟨placed, hplaced, h⟩ := bind_eq_ok.mp h
  obtain ⟨dependencesValue, -, h⟩ := bind_eq_ok.mp h
  obtain ⟨dependences, -, h⟩ := bind_eq_ok.mp h
  obtain ⟨done, hdone, h⟩ := bind_eq_ok.mp h
  obtain rfl := Except.ok.inj h
  rw [UncheckedModuloMappingBuilder.create] at hstart
  split_ifs at hstart with hpos
  obtain rfl := Except.ok.inj hstart
  have hsound : UncheckedModuloMappingBuilder.Sound ⟨targetName, ii, [], []⟩ :=
    ⟨hpos, lt_of_field hii, List.forall_mem_nil _, List.forall_mem_nil _,
      List.nodup_nil, List.nodup_nil⟩
  have hplacedSound := foldlM_invariant (fun b value b' _ hb hstep ↦
    sound_of_parsePlacement hb hstep) hsound hplaced
  have hdoneSound := foldlM_invariant (fun b value b' _ hb hstep ↦
    sound_of_parseDependence hb hstep) hplacedSound hdone
  exact hdoneSound.finish

/-- **The mappings that survive** being written and read are those a builder can have made, with
numbers that fit. -/
theorem parse_toJson_iff (mapping : ModuloMapping) :
    parse (toJson mapping) = .ok mapping ↔ mapping.Built ∧ mapping.Fits :=
  ⟨built_of_parse, fun h ↦ parse_toJson h.1 h.2⟩

end ModuloMappingSerialization

/-! ## Accepted mappings

The verifier looks at every entry through the graph: the entries of a node or an edge of the graph,
and that there are no others. What it asks of an entry is more than what a builder asks. -/

/-- A hold along a chain waits for a while. -/
theorem TransportChain.waits {target : TargetModel} {hopLatency : ℕ} {base time time' : ℤ}
    {tile tile' : TileCoord} {actions : List TransportAction}
    (h : TransportChain target hopLatency base tile time actions tile' time') :
    ∀ hold, .virtualHold hold ∈ actions → hold.captureElapsed < hold.releaseElapsed := by
  induction h with
  | nil tile time =>
    intro hold hmem
    exact absurd hmem List.not_mem_nil
  | link source launch neighbor rest ih =>
    intro hold hmem
    rcases List.mem_cons.mp hmem with heq | hmem
    · cases heq
    · exact ih hold hmem
  | hold onTile capture release rest ih =>
    intro hold hmem
    rcases List.mem_cons.mp hmem with heq | hmem
    · obtain rfl := TransportAction.virtualHold.inj heq
      omega
    · exact ih hold hmem

namespace ModuloMappingVerifier

variable {dfg : TargetDFG} {target : TargetModel} {mapping : ModuloMapping}
  {table later : ResourceReservationTable}

theorem checkAction_eq_ok {plan : TransportPlan}
    (hdomains : ∀ action ∈ plan.actions, action.domain = plan.domain)
    (hwaits : ∀ hold, .virtualHold hold ∈ plan.actions →
      hold.captureElapsed < hold.releaseElapsed) :
    ∀ action ∈ plan.actions, ModuloMappingBuilder.checkAction plan action = .ok () := by
  intro action haction
  rw [ModuloMappingBuilder.checkAction.eq_def, if_neg (not_not_intro (hdomains action haction))]
  rcases action with link | hold
  · rfl
  · exact if_neg (Nat.not_le.mpr (hwaits hold haction))

/-- A clean edge step has met a dependence of the edge's kind. -/
theorem kind_of_checkDependence {edge : TargetEdge} {dependence : MappedDependence}
    (hentries : mapping.dependenceEntries edge.id = [dependence])
    (h : checkDependence dfg target mapping table edge = .ok (later, [])) :
    dependence.kind = edge.kind := by
  rw [checkDependence, hentries] at h
  by_contra hkind
  simp [hkind] at h

/-- A clean edge step has met a dependence that a builder could have recorded. -/
theorem recorded_of_checkDependence {edge : TargetEdge} {dependence : MappedDependence}
    {src dst : NodePlacement} (hentries : mapping.dependenceEntries edge.id = [dependence])
    (hsrc : mapping.placementEntries edge.src = [src])
    (hdst : mapping.placementEntries edge.dst = [dst])
    (h : checkDependence dfg target mapping table edge = .ok (later, [])) :
    dependence.Recorded := by
  have hid : dependence.edge = edge.id := by
    have hself : dependence ∈ mapping.dependenceEntries edge.id := by
      rw [hentries]
      exact List.mem_singleton_self _
    simpa using (List.mem_filter.mp hself).2
  have hkind := kind_of_checkDependence hentries h
  obtain ⟨-, hrealized⟩ := checkDependence_clean hentries hsrc hdst h
  by_cases hmemory : edge.kind = .memory
  · obtain ⟨kind, hinfo⟩ := TargetEdge.kind_eq_memory_iff.mp hmemory
    obtain ⟨htransport, -⟩ := hrealized.memory kind hinfo
    rw [hmemory] at hkind
    rcases dependence with ⟨id, _, cycles, _⟩
    obtain rfl := hkind
    obtain rfl := htransport
    exact .memory id cycles
  · have hwalk := verifyValueTransport_of_checkDependence hentries hsrc hdst hmemory h
    obtain ⟨plan, _, _, available, hplan, hedge, hdomain, -, -, -, -, hfinish⟩ :=
      verifyValueTransport_walks hwalk
    obtain ⟨-, -, -, hseparation, -, -, -⟩ := finishTransport_clean hfinish
    obtain ⟨-, _, _, routed, route, -, -, hrouted, -, hroute⟩ :=
      verifyValueTransport_clean hsrc hdst hwalk
    obtain rfl := Option.some.inj (hplan.symm.trans hrouted)
    have hactions := checkAction_eq_ok hroute.domains (hroute.chain 0).waits
    have hkindOf : UncheckedModuloMappingBuilder.kindOf plan.domain = dependence.kind := by
      rw [hdomain, hkind]
      rcases hedgeKind : edge.kind with _ | _ | _
      · rfl
      · rfl
      · exact absurd hedgeKind hmemory
    rcases dependence with ⟨id, kind, cycles, transport⟩
    obtain rfl : transport = some plan := hplan
    obtain rfl : cycles = plan.requiredSeparationCycles := hseparation
    obtain rfl : id = plan.edge := hid.trans hedge.symm
    obtain rfl := hkindOf
    exact .transport plan hactions

/-- Every entry of an accepted mapping belongs to the graph. -/
theorem known_of_verify (h : verify dfg target mapping = .ok []) :
    (∀ placement ∈ mapping.placements, ∃ node ∈ dfg.nodes, node.id = placement.node) ∧
      ∀ dependence ∈ mapping.dependences, ∃ edge ∈ dfg.edges, edge.id = dependence.edge := by
  simp only [verify, stage_eq_ok_nil_iff] at h
  obtain ⟨-, -, -, -, hrest⟩ := h
  split at hrest
  · cases hrest
  · simp only [Except.ok.injEq, List.append_eq_nil_iff, checkPlacementEntries,
      checkDependenceEntries, List.flatMap_eq_nil_iff, List.mem_insertionSort, List.mem_dedup,
      List.mem_map, require_eq_nil_iff, forall_exists_index, and_imp, forall_apply_eq_imp_iff₂]
      at hrest
    obtain ⟨⟨⟨hplacements, hdependences⟩, -⟩, -⟩ := hrest
    refine ⟨fun placement hmem ↦ ?_, fun dependence hmem ↦ ?_⟩
    · obtain ⟨node, hnode⟩ := Option.isSome_iff_exists.mp (hplacements placement hmem).1
      exact ⟨node, TargetDFG.mem_of_findNode hnode, TargetDFG.findNode_id hnode⟩
    · obtain ⟨edge, hedge⟩ := Option.isSome_iff_exists.mp (hdependences dependence hmem).1
      exact ⟨edge, TargetDFG.mem_of_findEdge hedge, TargetDFG.findEdge_id hedge⟩

/-- **An accepted mapping could have been built,** up to the order of its entries. -/
theorem built_of_verify (h : verify dfg target mapping = .ok []) (hordered : mapping.Ordered) :
    mapping.Built := by
  obtain ⟨-, -, hii, -, hreservations, hmissing⟩ := preconditions_of_verify h
  obtain ⟨hknownNodes, hknownEdges⟩ := known_of_verify h
  obtain ⟨hplaced, hrealized⟩ := entries_of_checkMissingEntries hmissing
  have hverified := verified_of_verify h
  obtain ⟨table, hnodes, hedges⟩ := @exists_table_of_verifyReservations dfg target mapping
    (fun node _ ↦ ∀ placement ∈ mapping.placementEntries node.id, placement.issueSlot < mapping.ii)
    (fun edge _ ↦ ∀ dependence ∈ mapping.dependenceEntries edge.id, dependence.Recorded)
    (fun node a b hslots hext ↦ hslots)
    (fun edge a b hrecorded hext ↦ hrecorded)
    (fun node hmem a b hsize hstep ↦ by
      obtain ⟨placement, hentries⟩ := hplaced node hmem
      obtain ⟨operation, hagrees⟩ := hverified.graph.agrees node hmem
      obtain ⟨hlength, hext, footprint, hclean⟩ :=
        checkPlacement_clean hentries hagrees.found hsize hstep
      refine ⟨hlength, hext, fun other hother ↦ ?_⟩
      rw [hentries, List.mem_singleton] at hother
      rw [hother]
      exact hclean.slot_lt)
    (fun edge hmem a b hstep ↦ by
      obtain ⟨dependence, hentries⟩ := hrealized edge hmem
      obtain ⟨src, dst, hsrc, hdst⟩ := endpoints_placed hverified.graph hplaced hmem
      obtain ⟨hext, -⟩ := checkDependence_clean hentries hsrc hdst hstep
      refine ⟨hext, fun other hother ↦ ?_⟩
      rw [hentries, List.mem_singleton] at hother
      rw [hother]
      exact recorded_of_checkDependence hentries hsrc hdst hstep)
    hreservations
  refine ⟨hordered, hii, fun placement hmem ↦ ?_, fun dependence hmem ↦ ?_⟩
  · obtain ⟨node, hnode, hid⟩ := hknownNodes placement hmem
    exact hnodes node hnode placement (List.mem_filter.mpr ⟨hmem, by simp [hid]⟩)
  · obtain ⟨edge, hedge, hid⟩ := hknownEdges dependence hmem
    exact hedges edge hedge dependence (List.mem_filter.mpr ⟨hmem, by simp [hid]⟩)

end ModuloMappingVerifier

end PredicatedMesh
