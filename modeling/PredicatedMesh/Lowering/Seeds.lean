import PredicatedMesh.Lowering.Lowerer
import PredicatedMesh.RegisterAllocation.Ports
import PredicatedMesh.Schedule.Checked
import PredicatedMesh.Target.Legalizer

/-!
# The seeds of a recurrence

A value edge of distance `d` has one seed for each of the first `d` iterations of its consumer, the
boundary value with that offset. Four passes look the seed up. The materializer and the verifier of
schedules search the listed values for the offset. Lowering takes the value at the *position* the
offset names, and register allocation looks at the *first* listed value only, to choose a port that
can write it. The verifier of generic graphs asks for the offsets `0, …, d - 1` but not for an
order.

So lowering agrees with the others exactly if sorting the listed values by offset does not change
the sequence of constants, and a boundary port serves every seed exactly if the first listed value
speaks for all of them, or the port accepts either predicate constant. `SeedsAgree_iff` is the
equivalence; `swapped_seed_differs` is an accepted graph whose seeds are listed in the other order.
-/

namespace PredicatedMesh

open Scan RFAllocationVerifier MaterializedScheduleVerifier

/-! ## Listed and ordered seeds -/

/-- The constant a provider is, if it is one. -/
def ExternalOperandBinding.constant? : ExternalOperandBinding → Option ℕ
  | .constantRef id => some id
  | .externalValueRef _ => none

theorem ExternalOperandBinding.constant?_eq_some_iff {seed : ExternalOperandBinding} {id : ℕ} :
    seed.constant? = some id ↔ seed = .constantRef id := by
  cases seed <;> simp [constant?]

namespace RecurrenceBoundary

/-- The constants of the seeds in the order they are listed. -/
def listedConstants (boundary : RecurrenceBoundary) : List (Option ℕ) :=
  boundary.values.map fun value ↦ value.value.constant?

/-- The constants of the seeds in the order of their offsets. -/
def orderedConstants (boundary : RecurrenceBoundary) : List (Option ℕ) :=
  (boundary.values.insertionSort fun a b ↦ a.iterationOffset ≤ b.iterationOffset).map
    fun value ↦ value.value.constant?

namespace Covers

variable {boundary : RecurrenceBoundary} {distance : ℕ}

/-- Sorted by offset, the value of offset `o` is the one at position `o`. -/
theorem exists_getElem?_sorted (h : boundary.Covers distance) {offset : ℕ}
    (hoffset : offset < distance) : ∃ seed,
      (boundary.values.insertionSort fun a b ↦ a.iterationOffset ≤ b.iterationOffset)[offset]?
        = some ⟨offset, seed⟩ := by
  have hrange := map_insertionSort_eq_range h.nodup fun value hvalue ↦
    h.length_eq ▸ h.offset_lt value hvalue
  have hget := congrArg (fun l : List ℕ ↦ l[offset]?) hrange
  simp only [List.getElem?_map, h.length_eq, List.getElem?_range hoffset, Option.map_eq_some_iff]
    at hget
  obtain ⟨⟨position, seed⟩, hvalue, rfl⟩ := hget
  exact ⟨seed, hvalue⟩

/-- Every offset below the distance has a value. -/
theorem exists_seed (h : boundary.Covers distance) {offset : ℕ} (hoffset : offset < distance) :
    ∃ seed, (⟨offset, seed⟩ : RecurrenceBoundaryValue) ∈ boundary.values := by
  obtain ⟨seed, hseed⟩ := h.exists_getElem?_sorted hoffset
  exact ⟨seed, (List.mem_insertionSort _).mp (List.mem_of_getElem? hseed)⟩

/-- Searching for an offset finds the value that has it. -/
theorem find?_eq (h : boundary.Covers distance) {offset : ℕ} {seed : ExternalOperandBinding}
    (hmem : (⟨offset, seed⟩ : RecurrenceBoundaryValue) ∈ boundary.values) :
    (boundary.values.find? fun value ↦ value.iterationOffset == offset) = some ⟨offset, seed⟩ :=
  find?_eq_some_of_nodup h.nodup hmem

theorem seed_unique (h : boundary.Covers distance) {offset : ℕ}
    {seed seed' : ExternalOperandBinding}
    (hmem : (⟨offset, seed⟩ : RecurrenceBoundaryValue) ∈ boundary.values)
    (hmem' : (⟨offset, seed'⟩ : RecurrenceBoundaryValue) ∈ boundary.values) : seed = seed' := by
  have heq := (h.find?_eq hmem).symm.trans (h.find?_eq hmem')
  exact (RecurrenceBoundaryValue.mk.inj (Option.some.inj heq)).2

/-- The constant of an offset is at its position among the ordered constants. -/
theorem orderedConstants_getElem? (h : boundary.Covers distance) {offset : ℕ}
    (hoffset : offset < distance) {seed : ExternalOperandBinding}
    (hmem : (⟨offset, seed⟩ : RecurrenceBoundaryValue) ∈ boundary.values) :
    boundary.orderedConstants[offset]? = some seed.constant? := by
  obtain ⟨seed', hseed'⟩ := h.exists_getElem?_sorted hoffset
  have hmem' := (List.mem_insertionSort _).mp (List.mem_of_getElem? hseed')
  rw [orderedConstants, List.getElem?_map, hseed', Option.map_some, h.seed_unique hmem' hmem]

/-- The two sequences agree exactly if, for every offset, the value at its position and the value
that has it are the same constant, or neither is one. -/
theorem listed_eq_ordered_iff (h : boundary.Covers distance) :
    boundary.listedConstants = boundary.orderedConstants ↔
      ∀ offset < distance, ∀ seed, (⟨offset, seed⟩ : RecurrenceBoundaryValue) ∈ boundary.values →
        ∀ value, boundary.values[offset]? = some value →
          value.value.constant? = seed.constant? := by
  have hlisted : boundary.listedConstants.length = distance := by
    rw [listedConstants, List.length_map, h.length_eq]
  have hordered : boundary.orderedConstants.length = distance := by
    rw [orderedConstants, List.length_map, List.length_insertionSort, h.length_eq]
  constructor
  · intro heq offset hoffset seed hmem value hvalue
    have hget := h.orderedConstants_getElem? hoffset hmem
    rw [← heq, listedConstants, List.getElem?_map, hvalue] at hget
    exact Option.some.inj hget
  · intro hagree
    refine List.ext_getElem? fun offset ↦ ?_
    rcases lt_or_ge offset distance with hoffset | hoffset
    · obtain ⟨seed, hmem⟩ := h.exists_seed hoffset
      have hlt : offset < boundary.values.length := h.length_eq ▸ hoffset
      have hvalue := List.getElem?_eq_getElem hlt
      rw [h.orderedConstants_getElem? hoffset hmem, listedConstants, List.getElem?_map, hvalue,
        Option.map_some, hagree offset hoffset seed hmem _ hvalue]
    · rw [List.getElem?_eq_none (by omega), List.getElem?_eq_none (by omega)]

end Covers

end RecurrenceBoundary

/-! ## What each pass makes of a seed -/

/-- The source that selects a constant on an edge. -/
def seedSource (edge : TargetEdge) (constant : ConstantValue) : String :=
  if edge.kind = .data then "CONST_DATA"
  else if constant.bits ≠ 0 then "CONST_TRUE" else "CONST_FALSE"

/-- The boundary port of a segment accepts a source. -/
def BoundaryPortAccepts (target : TargetModel) (mapping : RFAllocatedMapping)
    (segment : StorageSegment) (source : String) : Prop :=
  ∃ allocation bank port, mapping.allocationFor segment.id = some allocation ∧
    target.registerBank segment.domain segment.tile.row segment.tile.col = some bank ∧
    allocation.boundaryWritePort = some port ∧ port < bank.writePorts ∧
    portAccepts bank port source = true

/-- All passes make the same of the seed of an edge for an offset. -/
structure SeedAgrees (dfg : TargetDFG) (target : TargetModel) (mapping : RFAllocatedMapping)
    (edge : TargetEdge) (offset : ℕ) (seed : ExternalOperandBinding) : Prop where
  /-- The materializer finds it, and attaches it to the injection of the offset. -/
  materialized : ScheduleMaterializer.boundaryValue edge offset = some seed ∧
    ∀ shot, ScheduleMaterializer.boundaryShot dfg mapping edge offset = .ok shot →
      shot.event.boundaryValue = some seed
  /-- The verifier of schedules requires it. -/
  required : ∀ request schedule,
    MaterializedScheduleVerifier.verify dfg target mapping request schedule = .ok [] →
    ∀ item ∈ schedule.expansion, item.2.name? = some (.boundaryValueInject edge.id offset) →
      item.2.boundaryValue = some seed
  /-- Lowering selects it for the producer iteration the offset stands for. -/
  selected : ∀ id, Lowerer.boundaryConstantFor edge (offset - edge.distance) = .ok (some id) ↔
    seed = .constantRef id
  /-- The boundary port of every segment of the edge can write it. -/
  accepted : ∀ id constant, seed = .constantRef id → Lowerer.constantFor dfg id = some constant →
    ∀ segment ∈ mapping.storageRequirements.segments, segment.edge = edge.id →
      BoundaryPortAccepts target mapping segment (seedSource edge constant)

/-- Every offset of an edge has a seed the passes agree on. -/
def SeedsAgree (dfg : TargetDFG) (target : TargetModel) (mapping : RFAllocatedMapping)
    (edge : TargetEdge) : Prop :=
  ∀ offset < edge.distance, ∃ boundary seed, edge.info.boundary = some boundary ∧
    ⟨offset, seed⟩ ∈ boundary.values ∧ SeedAgrees dfg target mapping edge offset seed

/-! ## The condition -/

/-- The sources of the constants that seed an edge. -/
def seedSources (dfg : TargetDFG) (edge : TargetEdge) (boundary : RecurrenceBoundary) :
    List String :=
  boundary.listedConstants.filterMap fun constant? ↦
    (constant?.bind (Lowerer.constantFor dfg)).map (seedSource edge)

/-- The first listed value speaks for all: if it is not a constant then none is, and the sources
are all the same unless the boundary port accepts both predicate constants. -/
def FirstSpeaksForAll (dfg : TargetDFG) (target : TargetModel) (mapping : RFAllocatedMapping)
    (edge : TargetEdge) (boundary : RecurrenceBoundary) (segment : StorageSegment) : Prop :=
  (boundary.listedConstants.head? = some none → seedSources dfg edge boundary = []) ∧
    ((∀ a ∈ seedSources dfg edge boundary, ∀ b ∈ seedSources dfg edge boundary, a = b) ∨
      BoundaryPortAccepts target mapping segment "CONST_TRUE" ∧
        BoundaryPortAccepts target mapping segment "CONST_FALSE")

/-- Sorting the listed values by offset keeps the sequence of constants, and the first of them
speaks for all in every register the edge waits in. -/
def SeedsListed (dfg : TargetDFG) (target : TargetModel) (mapping : RFAllocatedMapping)
    (edge : TargetEdge) : Prop :=
  ∀ boundary, edge.info.boundary = some boundary →
    boundary.listedConstants = boundary.orderedConstants ∧
      ∀ segment ∈ mapping.storageRequirements.segments, segment.edge = edge.id →
        FirstSpeaksForAll dfg target mapping edge boundary segment

/-! ## The four look-ups -/

section Lookups

variable {dfg : TargetDFG} {target : TargetModel} {mapping : RFAllocatedMapping}
variable {edge : TargetEdge} {boundary : RecurrenceBoundary} {offset : ℕ}
variable {seed : ExternalOperandBinding}

theorem boundaryValue_eq (hboundary : edge.info.boundary = some boundary)
    (hcovers : boundary.Covers edge.distance) (hmem : ⟨offset, seed⟩ ∈ boundary.values) :
    ScheduleMaterializer.boundaryValue edge offset = some seed := by
  simp [ScheduleMaterializer.boundaryValue, hboundary, hcovers.find?_eq hmem]

theorem boundaryShot_boundaryValue
    (hvalue : ScheduleMaterializer.boundaryValue edge offset = some seed)
    {shot : ScheduleMaterializer.OneShot}
    (h : ScheduleMaterializer.boundaryShot dfg mapping edge offset = .ok shot) :
    shot.event.boundaryValue = some seed := by
  unfold ScheduleMaterializer.boundaryShot at h
  simp only [hvalue] at h
  split at h
  · cases h
  obtain ⟨source, -, h⟩ := bind_eq_ok.mp h
  obtain ⟨producer, -, h⟩ := bind_eq_ok.mp h
  obtain ⟨negativeIteration, -, h⟩ := bind_eq_ok.mp h
  obtain ⟨iterationTime, -, h⟩ := bind_eq_ok.mp h
  obtain ⟨readyOffset, -, h⟩ := bind_eq_ok.mp h
  obtain ⟨ready, -, h⟩ := bind_eq_ok.mp h
  obtain ⟨placement, -, h⟩ := bind_eq_ok.mp h
  obtain rfl := Except.ok.inj h
  rfl

/-- A checked injection carries the value that is listed for its offset. -/
theorem injected_value {request : ScheduleMaterializationRequest} {schedule : MaterializedSchedule}
    {seen : List EventRecord} {event : MaterializedEvent} {cycle : ℕ} {recorded : Bool}
    (hfound : dfg.findEdge edge.id = some edge) (hboundary : edge.info.boundary = some boundary)
    (hcovers : boundary.Covers edge.distance) (hmem : ⟨offset, seed⟩ ∈ boundary.values)
    (hedge : event.edge = some edge.id) (hoffset : event.consumerIterationOffset = some offset)
    (h : verifyBoundaryInject dfg mapping request schedule seen event cycle
      = .ok (recorded, [])) : event.boundaryValue = some seed := by
  unfold verifyBoundaryInject at h
  simp only [hedge, hoffset, Option.bind_some, hfound] at h
  cases hvalue : event.boundaryValue with
  | none => simp [hvalue] at h
  | some value =>
    simp only [hvalue] at h
    split at h
    · simp at h
    split at h
    · simp at h
    simp only [hboundary, verifyInject] at h
    split at h
    · cases h
    · cases h
    · cases h
    · simp only [Except.ok.injEq, Prod.mk.injEq, List.append_eq_nil_iff, require_eq_nil_iff,
        hcovers.find?_eq hmem, Option.any_some, beq_iff_eq] at h
      rw [h.2.1.1.1]

/-- An accepted schedule injects, for every offset, the value that is listed for it. -/
theorem required_value {request : ScheduleMaterializationRequest} {schedule : MaterializedSchedule}
    (hverify : MaterializedScheduleVerifier.verify dfg target mapping request schedule = .ok [])
    (hedge : edge ∈ dfg.edges) (hboundary : edge.info.boundary = some boundary)
    (hcovers : boundary.Covers edge.distance) (hmem : ⟨offset, seed⟩ ∈ boundary.values)
    {item : ℕ × MaterializedEvent} (hitem : item ∈ schedule.expansion)
    (hname : item.2.name? = some (.boundaryValueInject edge.id offset)) :
    item.2.boundaryValue = some seed := by
  have haccepted := accepted_of_verify hverify
  have hkind := MaterializedEvent.kind_of_inject hname
  have hexplicit : item ∈ schedule.explicitEvents := by
    rcases (MaterializedSchedule.mem_expansion_iff haccepted.shape).mp hitem with
      hitem | ⟨k, -, kernelItem, hkernel, rfl⟩
    · exact hitem
    · exact absurd hkind (haccepted.kernel_checked hkernel).1
  obtain ⟨seen, recorded, hchecked⟩ := haccepted.explicit_checked hexplicit
  simp only [verifyEvent, hkind] at hchecked
  have hfields : item.2.edge = some edge.id ∧ item.2.consumerIterationOffset = some offset := by
    simp only [MaterializedEvent.name?, hkind] at hname
    cases hid : item.2.edge with
    | none => simp [hid] at hname
    | some id =>
      cases hconsumer : item.2.consumerIterationOffset with
      | none => simp [hid, hconsumer] at hname
      | some consumer => simpa [hid, hconsumer] using hname
  exact injected_value (haccepted.graph.findEdge_of_mem hedge) hboundary hcovers hmem hfields.1
    hfields.2 hchecked

/-- Lowering selects the constant at the position of the offset. -/
theorem boundaryConstantFor_eq_ok_iff (hboundary : edge.info.boundary = some boundary)
    (hoffset : offset < edge.distance) {value : RecurrenceBoundaryValue}
    (hvalue : boundary.values[offset]? = some value) {id : ℕ} :
    Lowerer.boundaryConstantFor edge (offset - edge.distance) = .ok (some id) ↔
      value.value.constant? = some id := by
  have hposition : ((offset : ℤ) - edge.distance + edge.distance).toNat = offset := by omega
  unfold Lowerer.boundaryConstantFor
  rw [if_neg (by omega)]
  simp only
  rw [if_neg (by omega), hboundary, Option.bind_some, hposition, hvalue]
  obtain ⟨position, provider⟩ := value
  cases provider <;> simp [ExternalOperandBinding.constant?]

/-- **Lowering against the offsets.** -/
theorem selected_iff (hboundary : edge.info.boundary = some boundary)
    (hcovers : boundary.Covers edge.distance) :
    (∀ offset < edge.distance, ∀ seed, ⟨offset, seed⟩ ∈ boundary.values → ∀ id,
      (Lowerer.boundaryConstantFor edge (offset - edge.distance) = .ok (some id) ↔
        seed = .constantRef id)) ↔ boundary.listedConstants = boundary.orderedConstants := by
  rw [hcovers.listed_eq_ordered_iff]
  constructor
  · intro h offset hoffset seed hmem value hvalue
    refine Option.ext fun id ↦ ?_
    rw [← boundaryConstantFor_eq_ok_iff hboundary hoffset hvalue,
      h offset hoffset seed hmem id, ExternalOperandBinding.constant?_eq_some_iff]
  · intro h offset hoffset seed hmem id
    have hlt : offset < boundary.values.length := hcovers.length_eq ▸ hoffset
    have hvalue := List.getElem?_eq_getElem hlt
    rw [boundaryConstantFor_eq_ok_iff hboundary hoffset hvalue,
      h offset hoffset seed hmem _ hvalue, ExternalOperandBinding.constant?_eq_some_iff]

end Lookups

/-! ## The boundary port -/

section Port

variable {dfg : TargetDFG} {target : TargetModel} {mapping : RFAllocatedMapping}
variable {edge : TargetEdge} {boundary : RecurrenceBoundary} {segment : StorageSegment}

theorem mem_seedSources_iff {source : String} : source ∈ seedSources dfg edge boundary ↔
    ∃ value ∈ boundary.values, ∃ id constant, value.value = .constantRef id ∧
      Lowerer.constantFor dfg id = some constant ∧ seedSource edge constant = source := by
  simp only [seedSources, List.mem_filterMap, RecurrenceBoundary.listedConstants, List.mem_map,
    Option.map_eq_some_iff, Option.bind_eq_some_iff]
  constructor
  · rintro ⟨-, ⟨value, hvalue, rfl⟩, constant, ⟨id, hid, hconstant⟩, rfl⟩
    exact ⟨value, hvalue, id, constant, ExternalOperandBinding.constant?_eq_some_iff.mp hid,
      hconstant, rfl⟩
  · rintro ⟨value, hvalue, id, constant, hseed, hconstant, rfl⟩
    exact ⟨_, ⟨value, hvalue, rfl⟩, constant,
      ⟨id, ExternalOperandBinding.constant?_eq_some_iff.mpr hseed, hconstant⟩, rfl⟩

theorem seedSource_ne_empty (edge : TargetEdge) (constant : ConstantValue) :
    seedSource edge constant ≠ "" := by
  unfold seedSource
  split
  · decide
  · split <;> decide

/-- Sources that differ are the two predicate constants. -/
theorem predicate_of_seedSource_ne {a b : ConstantValue}
    (h : seedSource edge a ≠ seedSource edge b) :
    seedSource edge a = "CONST_TRUE" ∧ seedSource edge b = "CONST_FALSE" ∨
      seedSource edge a = "CONST_FALSE" ∧ seedSource edge b = "CONST_TRUE" := by
  unfold seedSource at *
  split_ifs at * <;> simp at *

/-- Register allocation asks for a port for the first listed value. -/
theorem boundaryWriteSource_eq (hfound : dfg.findEdge segment.edge = some edge)
    (hdistance : edge.distance ≠ 0) (hboundary : edge.info.boundary = some boundary)
    {value : RecurrenceBoundaryValue} {rest : List RecurrenceBoundaryValue}
    (hvalues : boundary.values = value :: rest) (hknown : ∀ id, value.value = .constantRef id →
      ∃ constant, Lowerer.constantFor dfg id = some constant) :
    (value.value.constant? = none ∧ boundaryWriteSource dfg segment = .ok "") ∨
      ∃ id constant, value.value = .constantRef id ∧ Lowerer.constantFor dfg id = some constant ∧
        boundaryWriteSource dfg segment = .ok (seedSource edge constant) := by
  obtain ⟨position, provider⟩ := value
  rw [boundaryWriteSource, hfound]
  simp only [hdistance, if_false, hboundary, seedConstant, Option.bind_some, hvalues]
  cases provider with
  | externalValueRef id => exact .inl ⟨rfl, rfl⟩
  | constantRef id =>
    obtain ⟨constant, hconstant⟩ := hknown id rfl
    refine .inr ⟨id, constant, rfl, hconstant, ?_⟩
    rw [Lowerer.constantFor] at hconstant
    simp only [hconstant, seedSource]
    split <;> rfl

/-- **The boundary port against the seeds**: the port chosen for the first listed value serves every
seed exactly if that value speaks for all. -/
theorem boundaryPort_accepts_iff {allocation : StorageAllocation} {bank : RegisterFileDesc}
    {source boundarySource : String}
    (hported : mapping.Ported dfg target segment allocation bank source boundarySource)
    (hfound : dfg.findEdge segment.edge = some edge) (hdistance : edge.distance ≠ 0)
    (hboundary : edge.info.boundary = some boundary)
    (hcovers : boundary.Covers edge.distance)
    (hknown : ∀ value ∈ boundary.values, ∀ id, value.value = .constantRef id →
      ∃ constant, Lowerer.constantFor dfg id = some constant) :
    (∀ a ∈ seedSources dfg edge boundary, BoundaryPortAccepts target mapping segment a) ↔
      FirstSpeaksForAll dfg target mapping edge boundary segment := by
  obtain ⟨value, rest, hvalues⟩ : ∃ value rest, boundary.values = value :: rest := by
    refine List.exists_cons_of_ne_nil fun hnil ↦ hdistance ?_
    rw [← hcovers.length_eq, hnil, List.length_nil]
  have hhead : boundary.listedConstants.head? = some value.value.constant? := by
    rw [RecurrenceBoundary.listedConstants, hvalues, List.map_cons, List.head?_cons]
  have hsource := boundaryWriteSource_eq hfound hdistance hboundary hvalues
    (hknown value (by simp [hvalues]))
  rw [hported.boundarySource_eq] at hsource
  rw [FirstSpeaksForAll, hhead]
  rcases hsource with ⟨hnone, hempty⟩ | ⟨id, constant, hseed, hconstant, heq⟩
  · -- the first value is no constant: there is no boundary port at all
    obtain rfl := Except.ok.inj hempty
    have hnoport : ∀ a, ¬ BoundaryPortAccepts target mapping segment a := by
      rintro a ⟨allocation', bank', port, hentry, -, hport, -, -⟩
      obtain rfl := Option.some.inj (hported.entry.symm.trans hentry)
      rw [hported.boundaryPort_eq_none rfl] at hport
      cases hport
    rw [hnone]
    constructor
    · intro h
      have hempty : seedSources dfg edge boundary = [] :=
        List.eq_nil_iff_forall_not_mem.mpr fun a ha ↦ hnoport a (h a ha)
      refine ⟨fun _ ↦ hempty, .inl ?_⟩
      simp [hempty]
    · rintro ⟨hnil, -⟩ a ha
      rw [hnil rfl] at ha
      exact absurd ha List.not_mem_nil
  · -- the first value is a constant, and its source is accepted
    obtain rfl := Except.ok.inj heq
    obtain ⟨port, hport, hlt, haccepts⟩ := hported.boundaryPort (seedSource_ne_empty edge constant)
    have hfirst : BoundaryPortAccepts target mapping segment (seedSource edge constant) :=
      ⟨allocation, bank, port, hported.entry, hported.registerBank, hport, hlt, haccepts⟩
    have hmem : seedSource edge constant ∈ seedSources dfg edge boundary :=
      mem_seedSources_iff.mpr ⟨value, by simp [hvalues], id, constant, hseed, hconstant, rfl⟩
    constructor
    · intro h
      refine ⟨fun hnone ↦ ?_, ?_⟩
      · rw [hseed] at hnone
        cases hnone
      · rw [or_iff_not_imp_left]
        intro hdiffer
        push Not at hdiffer
        obtain ⟨a, ha, b, hb, hne⟩ := hdiffer
        obtain ⟨-, -, -, c, -, -, rfl⟩ := mem_seedSources_iff.mp ha
        obtain ⟨-, -, -, c', -, -, rfl⟩ := mem_seedSources_iff.mp hb
        have hc := h _ ha
        have hc' := h _ hb
        rcases predicate_of_seedSource_ne hne with ⟨htrue, hfalse⟩ | ⟨hfalse, htrue⟩
        · rw [htrue] at hc
          rw [hfalse] at hc'
          exact ⟨hc, hc'⟩
        · rw [hfalse] at hc
          rw [htrue] at hc'
          exact ⟨hc', hc⟩
    · rintro ⟨-, hsame | ⟨htrue, hfalse⟩⟩ a ha
      · rw [hsame a ha _ hmem]
        exact hfirst
      · obtain ⟨-, -, -, c, -, -, rfl⟩ := mem_seedSources_iff.mp ha
        by_cases hne : seedSource edge c = seedSource edge constant
        · rw [hne]
          exact hfirst
        · rcases predicate_of_seedSource_ne hne with ⟨hc, -⟩ | ⟨hc, -⟩
          · rwa [hc]
          · rwa [hc]

end Port

/-! ## The equivalence -/

/-- **When the passes agree on the seeds of an edge.** For every graph accepted by the verifier of
generic graphs, every legalization of it and every accepted register allocation, all four passes
agree on every seed of a value edge exactly if its seeds are listed in an order that keeps the
constants where their offsets are, and the first listed value speaks for all of them. -/
theorem SeedsAgree_iff (generic : DFG) (dfg : TargetDFG) (target : TargetModel)
    (result : TargetLegalizationResult) (mapping : RFAllocatedMapping) (edge : TargetEdge)
    (hlegalize : TargetLegalizer.legalize generic target = .ok result)
    (hdfg : result.dfg = some dfg)
    (hmapping : RFAllocationVerifier.verify dfg target mapping = .ok [])
    (hedge : edge ∈ dfg.edges) (hkind : edge.kind ≠ .memory) :
    SeedsAgree dfg target mapping edge ↔ SeedsListed dfg target mapping edge := by
  obtain ⟨hgeneric, hkeeps⟩ := TargetLegalizer.keeps_of_legalize hlegalize hdfg
  obtain ⟨origin, horigin, hsame, hinfo⟩ := hkeeps.edge edge hedge
  have hboundary := DFGVerifier.boundary_of_verify hgeneric horigin (by
    rwa [Edge.kind, ← hinfo])
  rw [← hsame, ← hinfo] at hboundary
  rcases hboundary with ⟨hzero, hnone⟩ | ⟨hdistance, boundary, hboundary, hcovers, htypes⟩
  · -- no distance, no offsets and no boundary
    constructor
    · intro _ boundary hboundary
      rw [hnone] at hboundary
      cases hboundary
    · intro _ offset hoffset
      omega
  have hknown : ∀ value ∈ boundary.values, ∀ id, value.value = .constantRef id →
      ∃ constant, Lowerer.constantFor dfg id = some constant := by
    intro value hvalue id hid
    obtain ⟨type, htype⟩ := htypes value hvalue
    rw [hid, DFGVerifier.providedType, Option.map_eq_some_iff] at htype
    obtain ⟨constant, hconstant, -⟩ := htype
    rw [DFG.findConstant, ← hkeeps.constants_eq] at hconstant
    exact ⟨constant, hconstant⟩
  have hverified := verified_of_verify hmapping
  have hfound := hverified.staged.modulo.graph.findEdge_of_mem hedge
  obtain ⟨hported, -⟩ := ports_of_verify hmapping
  have hport : ∀ segment ∈ mapping.storageRequirements.segments, segment.edge = edge.id →
      ((∀ a ∈ seedSources dfg edge boundary, BoundaryPortAccepts target mapping segment a) ↔
        FirstSpeaksForAll dfg target mapping edge boundary segment) := by
    intro segment hsegment hid
    obtain ⟨allocation, bank, source, boundarySource, hported⟩ := hported segment hsegment
    exact boundaryPort_accepts_iff hported (hid ▸ hfound) hdistance hboundary hcovers hknown
  constructor
  · intro h listed hlisted
    obtain rfl := Option.some.inj (hboundary.symm.trans hlisted)
    -- the seed of an offset is the only listed value that has it
    have hseed : ∀ offset < edge.distance, ∀ seed, ⟨offset, seed⟩ ∈ boundary.values →
        SeedAgrees dfg target mapping edge offset seed := by
      intro offset hoffset seed hmem
      obtain ⟨listed, seed', hlisted, hmem', hagrees⟩ := h offset hoffset
      obtain rfl := Option.some.inj (hboundary.symm.trans hlisted)
      rwa [hcovers.seed_unique hmem hmem']
    constructor
    · rw [← selected_iff hboundary hcovers]
      exact fun offset hoffset seed hmem ↦ (hseed offset hoffset seed hmem).selected
    · intro segment hsegment hid
      rw [← hport segment hsegment hid]
      intro a ha
      obtain ⟨⟨offset, seed⟩, hmem, id, constant, hconstantRef, hconstant, rfl⟩ :=
        mem_seedSources_iff.mp ha
      exact (hseed offset (hcovers.offset_lt _ hmem) seed hmem).accepted id constant hconstantRef
        hconstant segment hsegment hid
  · intro h offset hoffset
    obtain ⟨hordered, hfirst⟩ := h boundary hboundary
    obtain ⟨seed, hmem⟩ := hcovers.exists_seed hoffset
    have hvalue := boundaryValue_eq hboundary hcovers hmem
    refine ⟨boundary, seed, hboundary, hmem, ⟨hvalue, fun shot hshot ↦ ?_⟩, ?_, ?_, ?_⟩
    · exact boundaryShot_boundaryValue hvalue hshot
    · intro request schedule hverify item hitem hname
      exact required_value hverify hedge hboundary hcovers hmem hitem hname
    · exact (selected_iff hboundary hcovers).mpr hordered offset hoffset seed hmem
    · intro id constant hconstantRef hconstant segment hsegment hid
      refine (hport segment hsegment hid).mpr (hfirst segment hsegment hid) _ ?_
      exact mem_seedSources_iff.mpr ⟨_, hmem, id, constant, hconstantRef, hconstant, rfl⟩

/-! ### Seeds listed in the other order

A sum is used two iterations later. The seeds of the first two iterations are the constants 9 and 7,
listed with the second first. -/

def swappedSeeds : DFG where
  name := "swapped_seeds"
  nodes :=
    [⟨0, .add, ValueType.integer 32, [ValueType.integer 32, ValueType.integer 32], none, none⟩,
      ⟨1, .add, ValueType.integer 32, [ValueType.integer 32, ValueType.integer 32], none, none⟩]
  edges := [⟨0, 0, 1, 2, .data 0 (some ⟨[⟨1, .constantRef 0⟩, ⟨0, .constantRef 1⟩]⟩)⟩]
  externalValues := []
  constants := [⟨0, ValueType.integer 32, 7⟩, ⟨1, ValueType.integer 32, 9⟩]
  liveOuts := []
  externalBindings := [⟨0, 0, .constantRef 0⟩, ⟨0, 1, .constantRef 0⟩, ⟨1, 1, .constantRef 0⟩]
  incomingEdges := [[], [0]]
  outgoingEdges := [[0], []]

def swappedSeedsEdge : TargetEdge :=
  ⟨0, 0, 1, 2, .data 0 (some ⟨[⟨1, .constantRef 0⟩, ⟨0, .constantRef 1⟩]⟩)⟩

def swappedSeedsDFG : TargetDFG where
  name := "swapped_seeds"
  targetName := "cgra_v3_shared4p"
  nodes := [addNode 0, addNode 1]
  edges := [swappedSeedsEdge]
  externalValues := []
  constants := [⟨0, ValueType.integer 32, 7⟩, ⟨1, ValueType.integer 32, 9⟩]
  liveOuts := []
  operandBindings := [⟨0, 0, .constantRef 0⟩, ⟨0, 1, .constantRef 0⟩, ⟨1, 1, .constantRef 0⟩]
  incomingEdges := [[], [0]]
  outgoingEdges := [[0], []]

theorem swappedSeeds_legalized : TargetLegalizer.legalize swappedSeeds shippedTarget
    = .ok ⟨some swappedSeedsDFG, [(0, [0]), (1, [1])], []⟩ := by
  decide +kernel

def swappedSeedsAllocated : RFAllocatedMapping where
  staged :=
    { modulo :=
        { targetName := "cgra_v3_shared4p"
          ii := 2
          placements := [⟨0, ⟨0, 0⟩, 0⟩, ⟨1, ⟨0, 1⟩, 0⟩]
          dependences := [⟨0, .data, 3, some
            { edge := 0
              domain := .data
              actions := [.linkStep ⟨.data, ⟨0, 0⟩, .south, 0⟩, .linkStep ⟨.data, ⟨1, 0⟩, .east, 1⟩,
                .linkStep ⟨.data, ⟨1, 1⟩, .north, 2⟩]
              requiredSeparationCycles := 3 }⟩] }
      stages := [⟨0, 0⟩, ⟨1, 0⟩]
      sorted := delayLineStaged.sorted }
  storageRequirements := ⟨2, [⟨0, 0, ⟨0, 1⟩, .data, 3, 4, [⟨.terminalSlack, 0, none⟩]⟩]⟩
  allocations := [⟨0, ⟨⟨0, 1⟩, "data_rf", 0⟩, 0, 1, some 1⟩]

theorem swappedSeedsAllocated_accepted :
    RFAllocationVerifier.verify swappedSeedsDFG shippedTarget swappedSeedsAllocated = .ok [] := by
  decide +kernel

/-- For the first iteration lowering selects the constant 7; its seed is the constant 9. -/
theorem swapped_seed_differs : DFGVerifier.verify swappedSeeds = [] ∧
    TargetLegalizer.legalize swappedSeeds shippedTarget
      = .ok ⟨some swappedSeedsDFG, [(0, [0]), (1, [1])], []⟩ ∧
    swappedSeedsEdge ∈ swappedSeedsDFG.edges ∧ swappedSeedsEdge.distance = 2 ∧
    Lowerer.boundaryConstantFor swappedSeedsEdge (0 - 2) = .ok (some 0) ∧
    ScheduleMaterializer.boundaryValue swappedSeedsEdge 0 = some (.constantRef 1) := by
  refine ⟨?_, swappedSeeds_legalized, ?_, rfl, ?_, ?_⟩
  · decide +kernel
  · decide
  · decide
  · decide

/-- The passes disagree on the seeds of the sum. -/
theorem swappedSeeds_disagree :
    ¬ SeedsAgree swappedSeedsDFG shippedTarget swappedSeedsAllocated swappedSeedsEdge := by
  rw [SeedsAgree_iff swappedSeeds swappedSeedsDFG shippedTarget _ swappedSeedsAllocated
    swappedSeedsEdge swappedSeeds_legalized rfl swappedSeedsAllocated_accepted (by decide)
    (by decide)]
  intro h
  exact absurd (h _ rfl).1 (by decide)

end PredicatedMesh
