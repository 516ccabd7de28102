import PredicatedMesh.RegisterAllocation.Soundness
import PredicatedMesh.RegisterAllocation.Allocator
import PredicatedMesh.Schedule.StagedSerialization

/-!
# Register allocations as documents

An allocated mapping is written as one record for each storage segment: the segment itself, where it
comes from, its register and its ports. The tile is written once, for the segment and its register
alike, and the allocations are looked up by segment, so what is written is less than what a mapping
holds. The verifier makes up for it: in an accepted mapping every segment has one allocation, on its
own tile, and there are no others.

`RFAllocatedMapping.Stored` says when nothing is lost. Together with the sizes of the numbers it is
exactly the condition under which a mapping is read back as it was.
-/

namespace PredicatedMesh

open Json Scan

namespace RFAllocatedMappingSerialization

def required {α : Type} (get : Json → Except String α) (object : Json) (key : String) :
    Except String α :=
  object.required "RF mapping JSON missing " "RF mapping JSON field " get key

def domainName : RegisterBankDomain → String
  | .data => "data"
  | .predicate => "predicate"

def domainFromName (name : String) : Except String RegisterBankDomain :=
  if name = "data" then .ok .data
  else if name = "predicate" then .ok .predicate
  else .error "unknown RF bank domain"

def originKindName : StorageOriginKind → String
  | .explicitVirtualHold => "virtual_hold"
  | .terminalSlack => "terminal_slack"

def originKindFromName (name : String) : Except String StorageOriginKind :=
  if name = "virtual_hold" then .ok .explicitVirtualHold
  else if name = "terminal_slack" then .ok .terminalSlack
  else .error ("unknown RF storage origin kind: " ++ name)

def originJson (origin : StorageOrigin) : Json := .obj
  ([("kind", .str (originKindName origin.kind)), ("edge", .nat origin.edge)]
  ++ origin.transportActionIndex.elim [] fun index ↦ [("action", .nat index)])

def parseOrigin (origin : Json) : Except String StorageOrigin := do
  let kind ← required getString origin "kind"
  let kind ← originKindFromName kind
  let edge ← required (getUnsigned 32) origin "edge"
  let action ← origin.optional (getUnsigned 32) "action"
  .ok ⟨kind, edge, action⟩

/-- The record of a segment with its allocation. -/
def segmentJson (segment : StorageSegment) (allocation : StorageAllocation) : Json := .obj
  ([("id", .nat segment.id), ("edge", .nat segment.edge),
    ("tile", ModuloMappingSerialization.tileJson segment.tile),
    ("bank", .str allocation.reg.bank), ("domain", .str (domainName segment.domain)),
    ("write_time", .nat segment.writeTime), ("read_time", .nat segment.readTime),
    ("origins", .arr (segment.origins.map originJson)), ("register", .nat allocation.reg.index),
    ("read_port", .nat allocation.readPort), ("write_port", .nat allocation.writePort)]
  ++ allocation.boundaryWritePort.elim [] fun port ↦ [("boundary_write_port", .nat port)])

def parseSegment (entry : Json) : Except String (StorageSegment × StorageAllocation) := do
  let id ← required (getUnsigned 32) entry "id"
  let tile ← entry.atKey "tile"
  let tile ← ModuloMappingSerialization.parseTile "RF mapping tile must be [row, col]" tile
  let domain ← required getString entry "domain"
  let domain ← domainFromName domain
  let origins ← ((entry.field? "origins").elim [] Json.elements).mapM parseOrigin
  let edge ← required (getUnsigned 32) entry "edge"
  let writeTime ← required (getUnsigned 64) entry "write_time"
  let readTime ← required (getUnsigned 64) entry "read_time"
  let bank ← required getString entry "bank"
  let index ← required (getUnsigned 32) entry "register"
  let readPort ← entry.optional (getUnsigned 32) "read_port"
  let writePort ← entry.optional (getUnsigned 32) "write_port"
  let boundaryWritePort ← entry.nullable (getUnsigned 32) "boundary_write_port"
  .ok (⟨id, edge, tile, domain, writeTime, readTime, origins⟩,
    ⟨id, ⟨tile, bank, index⟩, readPort.getD 0, writePort.getD 0, boundaryWritePort⟩)

/-- The record of a segment of a mapping. -/
def recordJson (mapping : RFAllocatedMapping) (segment : StorageSegment) : Except String Json :=
  match mapping.allocationFor segment.id with
  | none => .error "storage segment has no physical register allocation"
  | some allocation => .ok (segmentJson segment allocation)

def toJson (mapping : RFAllocatedMapping) : Except String Json := do
  let segments ← mapping.storageRequirements.segments.mapM (recordJson mapping)
  .ok (.obj
    [("schema", .str "cgra.rf_allocated_mapping.debug.v1"), ("ii", .nat mapping.staged.modulo.ii),
      ("staged_mapping", StagedMappingSerialization.toJson mapping.staged),
      ("storage_segments", .arr segments)])

def parse (root : Json) : Except String RFAllocatedMapping := do
  let schema ← required getString root "schema"
  if schema ≠ "cgra.rf_allocated_mapping.debug.v1" then
    .error "unsupported RF allocated mapping schema"
  else
    let staged ← required getJson root "staged_mapping"
    let staged ← StagedMappingSerialization.parse staged
    let segments ← root.atKey "storage_segments"
    let segments ← segments.getArray "RF mapping storage_segments must be an array"
    let entries ← segments.mapM parseSegment
    RFAllocatedMapping.create staged ⟨staged.modulo.ii, entries.map Prod.fst⟩
      (entries.map Prod.snd)

/-! ## What survives -/

end RFAllocatedMappingSerialization

def StorageOrigin.Fits (origin : StorageOrigin) : Prop :=
  origin.edge < 2 ^ 32 ∧ ∀ index, origin.transportActionIndex = some index → index < 2 ^ 32

def StorageSegment.Fits (segment : StorageSegment) : Prop :=
  segment.id < 2 ^ 32 ∧ segment.edge < 2 ^ 32 ∧ segment.tile.Fits ∧ segment.writeTime < 2 ^ 64 ∧
    segment.readTime < 2 ^ 64 ∧ ∀ origin ∈ segment.origins, origin.Fits

def StorageAllocation.Fits (allocation : StorageAllocation) : Prop :=
  allocation.reg.index < 2 ^ 32 ∧ allocation.readPort < 2 ^ 32 ∧ allocation.writePort < 2 ^ 32 ∧
    ∀ port, allocation.boundaryWritePort = some port → port < 2 ^ 32

namespace RFAllocatedMapping

variable (mapping : RFAllocatedMapping)

/-- Every number of an allocated mapping fits the integer type that holds it. -/
structure Fits : Prop where
  staged : mapping.staged.Fits
  segments : ∀ segment ∈ mapping.storageRequirements.segments, segment.Fits
  allocations : ∀ allocation ∈ mapping.allocations, allocation.Fits

/-- Nothing is lost when the segments are written with their allocations: there is one allocation
for each segment and no other, on the segment's tile. -/
structure Stored : Prop where
  built : mapping.staged.modulo.Built
  ii_eq : mapping.storageRequirements.ii = mapping.staged.modulo.ii
  segments : (mapping.allocations.map StorageAllocation.segment).Perm
    (mapping.storageRequirements.segments.map StorageSegment.id)
  tile : ∀ segment ∈ mapping.storageRequirements.segments, ∀ allocation,
    mapping.allocationFor segment.id = some allocation → allocation.reg.tile = segment.tile

end RFAllocatedMapping

namespace RFAllocatedMappingSerialization

/-! ## Records -/

@[simp] theorem domainFromName_name (domain : RegisterBankDomain) :
    domainFromName (domainName domain) = .ok domain := by
  cases domain <;> decide

@[simp] theorem originKindFromName_name (kind : StorageOriginKind) :
    originKindFromName (originKindName kind) = .ok kind := by
  cases kind <;> decide

theorem parseOrigin_originJson {origin : StorageOrigin} (h : origin.Fits) :
    parseOrigin (originJson origin) = .ok origin := by
  obtain ⟨hedge, hindex⟩ := h
  refine bind_eq_ok.mpr ⟨originKindName origin.kind, required_string (by simp [originJson]), ?_⟩
  refine bind_eq_ok.mpr ⟨origin.kind, originKindFromName_name _, ?_⟩
  refine bind_eq_ok.mpr ⟨origin.edge, required_unsigned (by simp [originJson]) hedge, ?_⟩
  refine bind_eq_ok.mpr ⟨origin.transportActionIndex, ?_, rfl⟩
  rcases haction : origin.transportActionIndex with _ | index
  · exact optional_of_missing (by simp [originJson, haction])
  · exact optional_of_number (by simp [originJson, haction]) (hindex index haction)

theorem parseSegment_segmentJson {segment : StorageSegment} {allocation : StorageAllocation}
    (hsegment : segment.Fits) (hallocation : allocation.Fits)
    (hid : allocation.segment = segment.id) (htile : allocation.reg.tile = segment.tile) :
    parseSegment (segmentJson segment allocation) = .ok (segment, allocation) := by
  obtain ⟨hidFits, hedge, htileFits, hwrite, hread, horigins⟩ := hsegment
  obtain ⟨hindex, hreadPort, hwritePort, hboundary⟩ := hallocation
  refine bind_eq_ok.mpr ⟨segment.id, required_unsigned (by simp [segmentJson]) hidFits, ?_⟩
  refine bind_eq_ok.mpr ⟨ModuloMappingSerialization.tileJson segment.tile,
    atKey_of_field (by simp [segmentJson]), ?_⟩
  refine bind_eq_ok.mpr ⟨segment.tile,
    ModuloMappingSerialization.parseTile_tileJson htileFits _, ?_⟩
  refine bind_eq_ok.mpr ⟨domainName segment.domain, required_string (by simp [segmentJson]), ?_⟩
  refine bind_eq_ok.mpr ⟨segment.domain, domainFromName_name _, ?_⟩
  have horiginsField : (segmentJson segment allocation).field? "origins"
      = some (.arr (segment.origins.map originJson)) := by
    simp [segmentJson]
  rw [horiginsField, Option.elim_some, elements_arr]
  refine bind_eq_ok.mpr ⟨segment.origins,
    mapM_written fun origin horigin ↦ parseOrigin_originJson (horigins origin horigin), ?_⟩
  refine bind_eq_ok.mpr ⟨segment.edge, required_unsigned (by simp [segmentJson]) hedge, ?_⟩
  refine bind_eq_ok.mpr ⟨segment.writeTime, required_unsigned (by simp [segmentJson]) hwrite, ?_⟩
  refine bind_eq_ok.mpr ⟨segment.readTime, required_unsigned (by simp [segmentJson]) hread, ?_⟩
  refine bind_eq_ok.mpr ⟨allocation.reg.bank, required_string (by simp [segmentJson]), ?_⟩
  refine bind_eq_ok.mpr ⟨allocation.reg.index,
    required_unsigned (by simp [segmentJson]) hindex, ?_⟩
  refine bind_eq_ok.mpr ⟨some allocation.readPort,
    optional_of_number (by simp [segmentJson]) hreadPort, ?_⟩
  refine bind_eq_ok.mpr ⟨some allocation.writePort,
    optional_of_number (by simp [segmentJson]) hwritePort, ?_⟩
  refine bind_eq_ok.mpr ⟨allocation.boundaryWritePort, ?_, ?_⟩
  · rcases hport : allocation.boundaryWritePort with _ | port
    · exact nullable_of_missing (by simp [segmentJson, hport])
    · exact nullable_of_number (by simp [segmentJson, hport]) (hboundary port hport)
  · rcases allocation with ⟨id, ⟨tile, bank, index⟩, readPort, writePort, boundary⟩
    obtain rfl : id = segment.id := hid
    obtain rfl : tile = segment.tile := htile
    rfl

/-! ## Whole mappings -/

/-- The allocation of a segment. -/
def allocationOf (mapping : RFAllocatedMapping) (segment : StorageSegment) : StorageAllocation :=
  (mapping.allocationFor segment.id).getD ⟨0, ⟨⟨0, 0⟩, "", 0⟩, 0, 0, none⟩

section Whole

variable {mapping : RFAllocatedMapping}

theorem allocationFor_eq (hstored : mapping.Stored) {segment : StorageSegment}
    (hsegment : segment ∈ mapping.storageRequirements.segments) :
    mapping.allocationFor segment.id = some (allocationOf mapping segment) := by
  have hid : segment.id ∈ mapping.allocations.map StorageAllocation.segment :=
    hstored.segments.mem_iff.mpr (List.mem_map_of_mem hsegment)
  obtain ⟨allocation, hallocation, hkey⟩ := List.mem_map.mp hid
  have hfound : mapping.allocationFor segment.id = some allocation := by
    rw [← hkey]
    exact SortedMap.Sorted.lookup_of_mem mapping.sorted hallocation
  rw [allocationOf, hfound, Option.getD_some]

/-- **An allocated mapping is read back** when nothing of it is lost and its numbers fit. -/
theorem parse_toJson (hstored : mapping.Stored) (hfits : mapping.Fits) :
    ∃ json, toJson mapping = .ok json ∧ parse json = .ok mapping := by
  have hrecords : mapping.storageRequirements.segments.mapM (recordJson mapping) = .ok
      (mapping.storageRequirements.segments.map fun segment ↦
        segmentJson segment (allocationOf mapping segment)) := by
    apply mapM_eq_map
    intro segment hsegment
    rw [recordJson, allocationFor_eq hstored hsegment]
  have hentries : (mapping.storageRequirements.segments.map fun segment ↦
      segmentJson segment (allocationOf mapping segment)).mapM parseSegment = .ok
        (mapping.storageRequirements.segments.map fun segment ↦
          (segment, allocationOf mapping segment)) := by
    have hread : ∀ entry ∈ mapping.storageRequirements.segments.map fun segment ↦
        (segment, allocationOf mapping segment),
          parseSegment (segmentJson entry.1 entry.2) = .ok entry := by
      intro entry hentry
      obtain ⟨segment, hsegment, rfl⟩ := List.mem_map.mp hentry
      have hfound := allocationFor_eq hstored hsegment
      have hmem := List.mem_of_find?_eq_some hfound
      refine parseSegment_segmentJson (hfits.segments segment hsegment)
        (hfits.allocations _ hmem) ?_ (hstored.tile segment hsegment _ hfound)
      simpa using List.find?_some hfound
    have hwritten := mapM_written hread
    rw [List.map_map] at hwritten
    exact hwritten
  refine ⟨_, bind_eq_ok.mpr ⟨_, hrecords, rfl⟩, ?_⟩
  refine bind_eq_ok.mpr ⟨"cgra.rf_allocated_mapping.debug.v1", required_string (by simp), ?_⟩
  rw [if_neg (not_not_intro rfl)]
  refine bind_eq_ok.mpr ⟨StagedMappingSerialization.toJson mapping.staged,
    required_of_field (by simp) (getJson_eq _), ?_⟩
  refine bind_eq_ok.mpr ⟨mapping.staged,
    StagedMappingSerialization.parse_toJson hstored.built hfits.staged, ?_⟩
  refine bind_eq_ok.mpr ⟨.arr (mapping.storageRequirements.segments.map fun segment ↦
    segmentJson segment (allocationOf mapping segment)), atKey_of_field (by simp), ?_⟩
  refine bind_eq_ok.mpr ⟨_, getArray_arr _ _, ?_⟩
  refine bind_eq_ok.mpr ⟨_, hentries, ?_⟩
  have hsorted : (mapping.storageRequirements.segments.map (allocationOf mapping)).insertionSort
      (fun a b ↦ a.segment ≤ b.segment) = mapping.allocations := by
    apply @SortedMap.Sorted.insertionSort_eq _ _ _ StorageAllocation.segment _ mapping.sorted
    exact @SortedMap.Sorted.perm_map_lookup _ _ _ StorageAllocation.segment _ _
      StorageSegment.id _ mapping.sorted hstored.segments _
  rw [List.map_map, List.map_map, ← hstored.ii_eq]
  change RFAllocatedMapping.create mapping.staged ⟨mapping.storageRequirements.ii,
    mapping.storageRequirements.segments.map id⟩
      (mapping.storageRequirements.segments.map (allocationOf mapping)) = .ok mapping
  rw [List.map_id, RFAllocatedMapping.create]
  simp only [hsorted]
  rw [dif_pos mapping.sorted]

/-- A record holds a segment and an allocation that belong together, and its numbers fit. -/
theorem spec_of_parseSegment {value : Json} {entry : StorageSegment × StorageAllocation}
    (h : parseSegment value = .ok entry) : entry.2.segment = entry.1.id ∧
      entry.2.reg.tile = entry.1.tile ∧ entry.1.Fits ∧ entry.2.Fits := by
  obtain ⟨id, hid, h⟩ := bind_eq_ok.mp h
  obtain ⟨tileValue, -, h⟩ := bind_eq_ok.mp h
  obtain ⟨tile, htile, h⟩ := bind_eq_ok.mp h
  obtain ⟨name, -, h⟩ := bind_eq_ok.mp h
  obtain ⟨domain, -, h⟩ := bind_eq_ok.mp h
  obtain ⟨origins, horigins, h⟩ := bind_eq_ok.mp h
  obtain ⟨edge, hedge, h⟩ := bind_eq_ok.mp h
  obtain ⟨writeTime, hwrite, h⟩ := bind_eq_ok.mp h
  obtain ⟨readTime, hread, h⟩ := bind_eq_ok.mp h
  obtain ⟨bank, -, h⟩ := bind_eq_ok.mp h
  obtain ⟨index, hindex, h⟩ := bind_eq_ok.mp h
  obtain ⟨readPort, hreadPort, h⟩ := bind_eq_ok.mp h
  obtain ⟨writePort, hwritePort, h⟩ := bind_eq_ok.mp h
  obtain ⟨boundary, hboundary, h⟩ := bind_eq_ok.mp h
  obtain rfl := Except.ok.inj h
  have hport : ∀ {key : String} {port : Option ℕ},
      value.optional (getUnsigned 32) key = .ok port → port.getD 0 < 2 ^ 32 := by
    intro key port hoptional
    rcases port with _ | n
    · decide
    · obtain ⟨source, hsource⟩ := exists_of_optional hoptional
      exact lt_of_getUnsigned (by decide) hsource
  refine ⟨rfl, rfl, ⟨lt_of_required (by decide) hid, lt_of_required (by decide) hedge,
    ModuloMappingSerialization.fits_of_parseTile htile, lt_of_required (by decide) hwrite,
    lt_of_required (by decide) hread, ?_⟩, lt_of_required (by decide) hindex, hport hreadPort,
    hport hwritePort, ?_⟩
  · intro origin horigin
    obtain ⟨source, -, hsource⟩ := exists_source_of_mem horigins horigin
    obtain ⟨kindName, -, hsource⟩ := bind_eq_ok.mp hsource
    obtain ⟨kind, -, hsource⟩ := bind_eq_ok.mp hsource
    obtain ⟨originEdge, horiginEdge, hsource⟩ := bind_eq_ok.mp hsource
    obtain ⟨action, haction, hsource⟩ := bind_eq_ok.mp hsource
    obtain rfl := Except.ok.inj hsource
    refine ⟨lt_of_required (by decide) horiginEdge, fun index hindex ↦ ?_⟩
    obtain rfl : action = some index := hindex
    obtain ⟨number, hnumber⟩ := exists_of_optional haction
    exact lt_of_getUnsigned (by decide) hnumber
  · intro port hport
    obtain rfl : boundary = some port := hport
    obtain ⟨number, hnumber⟩ := exists_of_nullable hboundary
    exact lt_of_getUnsigned (by decide) hnumber

/-- **What is read is stored without loss.** -/
theorem stored_of_parse {root : Json} (h : parse root = .ok mapping) :
    mapping.Stored ∧ mapping.Fits := by
  obtain ⟨schema, -, h⟩ := bind_eq_ok.mp h
  split_ifs at h
  obtain ⟨stagedValue, -, h⟩ := bind_eq_ok.mp h
  obtain ⟨staged, hstaged, h⟩ := bind_eq_ok.mp h
  obtain ⟨segmentsValue, -, h⟩ := bind_eq_ok.mp h
  obtain ⟨records, -, h⟩ := bind_eq_ok.mp h
  obtain ⟨entries, hentries, h⟩ := bind_eq_ok.mp h
  obtain ⟨hbuilt, hstagedFits⟩ := StagedMappingSerialization.built_of_parse hstaged
  rw [RFAllocatedMapping.create] at h
  split_ifs at h with hsorted
  obtain rfl := Except.ok.inj h
  have hspec : ∀ entry ∈ entries, entry.2.segment = entry.1.id ∧ entry.2.reg.tile = entry.1.tile ∧
      entry.1.Fits ∧ entry.2.Fits := by
    intro entry hentry
    obtain ⟨value, -, hvalue⟩ := exists_source_of_mem hentries hentry
    exact spec_of_parseSegment hvalue
  have hsort := List.perm_insertionSort
    (fun a b : StorageAllocation ↦ a.segment ≤ b.segment) (entries.map Prod.snd)
  have hids : (entries.map Prod.snd).map StorageAllocation.segment
      = (entries.map Prod.fst).map StorageSegment.id := by
    rw [List.map_map, List.map_map]
    exact List.map_congr_left fun entry hentry ↦ (hspec entry hentry).1
  refine ⟨⟨hbuilt, rfl, (hsort.map _).trans (List.Perm.of_eq hids), ?_⟩, hstagedFits, ?_, ?_⟩
  · intro segment hsegment allocation hallocation
    obtain ⟨entry, hentry, rfl⟩ := List.mem_map.mp hsegment
    obtain ⟨hid, htile, -, -⟩ := hspec entry hentry
    have hmem : entry.2 ∈ (entries.map Prod.snd).insertionSort
        fun a b : StorageAllocation ↦ a.segment ≤ b.segment :=
      hsort.mem_iff.mpr (List.mem_map_of_mem hentry)
    have hfound : SortedMap.lookup StorageAllocation.segment entry.2.segment
        ((entries.map Prod.snd).insertionSort fun a b ↦ a.segment ≤ b.segment)
          = some entry.2 := SortedMap.Sorted.lookup_of_mem hsorted hmem
    rw [hid] at hfound
    obtain rfl := Option.some.inj (hfound.symm.trans hallocation)
    exact htile
  · intro segment hsegment
    obtain ⟨entry, hentry, rfl⟩ := List.mem_map.mp hsegment
    exact (hspec entry hentry).2.2.1
  · intro allocation hallocation
    obtain ⟨entry, hentry, rfl⟩ := List.mem_map.mp (hsort.mem_iff.mp hallocation)
    exact (hspec entry hentry).2.2.2

end Whole

end RFAllocatedMappingSerialization

/-! ## Accepted allocations -/

namespace RFAllocationVerifier

variable {dfg : TargetDFG} {target : TargetModel} {mapping : RFAllocatedMapping}

/-- The allocations of an accepted mapping are those of its segments. -/
theorem allocations_of_verify (h : verify dfg target mapping = .ok []) :
    (∀ allocation ∈ mapping.allocations, ∃ segment ∈ mapping.storageRequirements.segments,
      segment.id = allocation.segment) ∧
    ∀ segment ∈ mapping.storageRequirements.segments,
      (mapping.allocationFor segment.id).isSome = true := by
  simp only [verify, stage_eq_ok_nil_iff, require_eq_nil_iff] at h
  obtain ⟨-, h⟩ := h
  split at h
  · cases h
  simp only [stage_eq_ok_nil_iff] at h
  obtain ⟨-, h⟩ := h
  split at h
  · cases h
  · simp at h
  simp only [stage_eq_ok_nil_iff, List.append_eq_nil_iff, checkAllocations, checkAllocated,
    List.flatMap_eq_nil_iff, require_eq_nil_iff, List.any_eq_true, beq_iff_eq] at h
  obtain ⟨-, ⟨⟨hknown, -⟩, hallocated⟩, -⟩ := h
  exact ⟨hknown, hallocated⟩

/-- The modulo mapping of an accepted allocation is accepted. -/
theorem modulo_of_verify (h : verify dfg target mapping = .ok []) :
    ModuloMappingVerifier.verify dfg target mapping.staged.modulo = .ok [] := by
  obtain ⟨-, hrequirements, -, -⟩ := stages_of_verify h
  obtain ⟨hstage, -⟩ := StorageRequirementAnalysis.analyze_eq_ok hrequirements
  simp only [StageAssignmentVerifier.verify, stage_eq_ok_nil_iff] at hstage
  obtain ⟨-, -, hrest⟩ := hstage
  split at hrest
  · cases hrest
  · rename_i report hreport
    simp only [stage_eq_ok_nil_iff, require_eq_nil_iff, List.isEmpty_iff] at hrest
    rw [hreport, hrest.1]

/-- **An accepted allocation is stored without loss.** -/
theorem stored_of_verify (h : verify dfg target mapping = .ok [])
    (hordered : mapping.staged.modulo.Ordered) : mapping.Stored := by
  obtain ⟨-, hrequirements, -, -⟩ := stages_of_verify h
  obtain ⟨-, hii, -, -⟩ := StorageRequirementAnalysis.analyze_eq_ok hrequirements
  obtain ⟨hknown, hallocated⟩ := allocations_of_verify h
  refine ⟨ModuloMappingVerifier.built_of_verify (modulo_of_verify h) hordered, hii, ?_, ?_⟩
  · apply (List.perm_ext_iff_of_nodup (SortedMap.Sorted.nodup mapping.sorted)
      (StorageRequirementAnalysis.nodup_ids hrequirements)).mpr
    intro id
    constructor
    · intro hid
      obtain ⟨allocation, hallocation, rfl⟩ := List.mem_map.mp hid
      obtain ⟨segment, hsegment, heq⟩ := hknown allocation hallocation
      exact heq ▸ List.mem_map_of_mem hsegment
    · intro hid
      obtain ⟨segment, hsegment, rfl⟩ := List.mem_map.mp hid
      obtain ⟨allocation, hallocation⟩ := Option.isSome_iff_exists.mp (hallocated segment hsegment)
      have hkey : allocation.segment = segment.id := by simpa using List.find?_some hallocation
      exact hkey ▸ List.mem_map_of_mem (List.mem_of_find?_eq_some hallocation)
  · intro segment hsegment allocation hallocation
    obtain ⟨held, bank, hheld⟩ := (verified_of_verify h).held segment hsegment
    obtain rfl := Option.some.inj (hheld.entry.symm.trans hallocation)
    exact hheld.tile

end RFAllocationVerifier

namespace RFAllocatedMappingSerialization

/-- **Allocated mappings round-trip.** A mapping is read back as it was written exactly when it is
stored without loss and its numbers fit; whatever is read is so; and every mapping the verifier
accepts is stored without loss, if its entries are in the order a builder leaves them in. -/
theorem parse_toJson_exact (mapping : RFAllocatedMapping) :
    ((∃ json, toJson mapping = .ok json ∧ parse json = .ok mapping) ↔
      mapping.Stored ∧ mapping.Fits) ∧
    (∀ root, parse root = .ok mapping → mapping.Stored ∧ mapping.Fits) ∧
    ∀ dfg target, RFAllocationVerifier.verify dfg target mapping = .ok [] →
      mapping.staged.modulo.Ordered → mapping.Stored := by
  refine ⟨⟨?_, ?_⟩, fun root ↦ stored_of_parse, fun dfg target ↦
    RFAllocationVerifier.stored_of_verify⟩
  · rintro ⟨json, -, hparse⟩
    exact stored_of_parse hparse
  · rintro ⟨hstored, hfits⟩
    exact parse_toJson hstored hfits

end RFAllocatedMappingSerialization

end PredicatedMesh
