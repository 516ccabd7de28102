import PredicatedMesh.Mapping.RoundTrip
import PredicatedMesh.Schedule.StageScheduler

/-!
# Staged mappings as documents

The document of a staged mapping holds the document of its modulo mapping, and repeats the target
and the interval beside it; the reader compares the two. The stages are sorted again when they are
read, so a staged mapping comes back exactly when its modulo mapping does.
-/

namespace PredicatedMesh

open Json Scan

/-- Every number of a staged mapping fits the integer type that holds it. -/
structure StagedMapping.Fits (mapping : StagedMapping) : Prop where
  modulo : mapping.modulo.Fits
  stages : ∀ entry ∈ mapping.stages, entry.node < 2 ^ 32 ∧ entry.stage < 2 ^ 64

namespace StagedMappingSerialization

def required {α : Type} (get : Json → Except String α) (object : Json) (key : String) :
    Except String α :=
  object.required "staged mapping JSON missing " "staged mapping JSON field " get key

def stageJson (entry : NodeStage) : Json := .obj
  [("node", .nat entry.node), ("stage", .nat entry.stage)]

def toJson (mapping : StagedMapping) : Json := .obj
  [("schema", .str "cgra.staged_mapping.debug.v1"), ("target", .str mapping.modulo.targetName),
    ("ii", .nat mapping.modulo.ii),
    ("modulo_mapping", ModuloMappingSerialization.toJson mapping.modulo),
    ("stages", .arr (mapping.stages.map stageJson))]

def parseStage (entry : Json) : Except String NodeStage := do
  let node ← required (getUnsigned 32) entry "node"
  let stage ← required (getUnsigned 64) entry "stage"
  .ok ⟨node, stage⟩

def parse (root : Json) : Except String StagedMapping := do
  let schema ← required getString root "schema"
  if schema ≠ "cgra.staged_mapping.debug.v1" then .error "unsupported staged mapping schema"
  else
    match root.field? "modulo_mapping" with
    | some (.obj fields) =>
      let modulo ← ModuloMappingSerialization.parse (.obj fields)
      let ii ← required (getUnsigned 32) root "ii"
      if ii ≠ modulo.ii then
        .error "staged mapping metadata disagrees with embedded modulo mapping"
      else
        let target ← required getString root "target"
        if target ≠ modulo.targetName then
          .error "staged mapping metadata disagrees with embedded modulo mapping"
        else
          let stages ← root.atKey "stages"
          let stages ← stages.getArray "staged mapping stages must be an array"
          let stages ← stages.mapM parseStage
          StagedMapping.create modulo stages
    | _ => .error "staged mapping JSON requires modulo_mapping object"

theorem parseStage_stageJson {entry : NodeStage} (hnode : entry.node < 2 ^ 32)
    (hstage : entry.stage < 2 ^ 64) : parseStage (stageJson entry) = .ok entry := by
  refine bind_eq_ok.mpr ⟨entry.node, required_unsigned (by simp [stageJson]) hnode, ?_⟩
  exact bind_eq_ok.mpr ⟨entry.stage, required_unsigned (by simp [stageJson]) hstage, rfl⟩

/-- **A staged mapping is read back.** -/
theorem parse_toJson {mapping : StagedMapping} (hbuilt : mapping.modulo.Built)
    (hfits : mapping.Fits) : parse (toJson mapping) = .ok mapping := by
  have hmodulo : (toJson mapping).field? "modulo_mapping"
      = some (ModuloMappingSerialization.toJson mapping.modulo) := by
    simp [toJson]
  refine bind_eq_ok.mpr ⟨_, required_string (by simp [toJson]; rfl), ?_⟩
  rw [if_neg (not_not_intro rfl), hmodulo]
  refine bind_eq_ok.mpr ⟨mapping.modulo,
    ModuloMappingSerialization.parse_toJson hbuilt hfits.modulo, ?_⟩
  refine bind_eq_ok.mpr ⟨mapping.modulo.ii,
    required_unsigned (by simp [toJson]) hfits.modulo.ii_lt, ?_⟩
  rw [if_neg (not_not_intro rfl)]
  refine bind_eq_ok.mpr ⟨mapping.modulo.targetName, required_string (by simp [toJson]), ?_⟩
  rw [if_neg (not_not_intro rfl)]
  refine bind_eq_ok.mpr ⟨.arr (mapping.stages.map stageJson), atKey_of_field (by simp [toJson]), ?_⟩
  refine bind_eq_ok.mpr ⟨_, getArray_arr _ _, ?_⟩
  refine bind_eq_ok.mpr ⟨mapping.stages, mapM_written fun entry hentry ↦
    parseStage_stageJson (hfits.stages entry hentry).1 (hfits.stages entry hentry).2, ?_⟩
  have hsorted : mapping.stages.insertionSort (fun lhs rhs ↦ lhs.node ≤ rhs.node)
      = mapping.stages :=
    @SortedMap.Sorted.insertionSort_eq _ _ _ NodeStage.node _ mapping.sorted _ (List.Perm.refl _)
  rw [StagedMapping.create]
  simp only [hsorted]
  rw [dif_pos mapping.sorted]

/-- What is read was built, and its numbers fit. -/
theorem built_of_parse {root : Json} {mapping : StagedMapping} (h : parse root = .ok mapping) :
    mapping.modulo.Built ∧ mapping.Fits := by
  obtain ⟨schema, -, h⟩ := bind_eq_ok.mp h
  split_ifs at h
  split at h
  · obtain ⟨modulo, hmodulo, h⟩ := bind_eq_ok.mp h
    obtain ⟨ii, -, h⟩ := bind_eq_ok.mp h
    split_ifs at h
    obtain ⟨target, -, h⟩ := bind_eq_ok.mp h
    split_ifs at h
    obtain ⟨stagesValue, -, h⟩ := bind_eq_ok.mp h
    obtain ⟨items, -, h⟩ := bind_eq_ok.mp h
    obtain ⟨stages, hstages, h⟩ := bind_eq_ok.mp h
    obtain ⟨hbuilt, hfits⟩ := ModuloMappingSerialization.built_of_parse hmodulo
    rw [StagedMapping.create] at h
    split_ifs at h
    obtain rfl := Except.ok.inj h
    refine ⟨hbuilt, hfits, fun entry hentry ↦ ?_⟩
    obtain ⟨value, -, hvalue⟩ :=
      exists_source_of_mem hstages ((List.mem_insertionSort _).mp hentry)
    obtain ⟨node, hnode, hvalue⟩ := bind_eq_ok.mp hvalue
    obtain ⟨stage, hstage, hvalue⟩ := bind_eq_ok.mp hvalue
    obtain rfl := Except.ok.inj hvalue
    exact ⟨lt_of_required (by decide) hnode, lt_of_required (by decide) hstage⟩
  · cases h

end StagedMappingSerialization

end PredicatedMesh
