import PredicatedMesh.Lowering.EventCalls
import PredicatedMesh.Lowering.TargetLowering

/-!
# Which storage a lowered control reads

A value that has waited on a tile is read from the register of the segment it waited in; a value
that arrives over a link is read from the input port on that side. Lowering looks the segment up by
its edge and its tile and takes the first. A route may wait twice on one tile, or wait on the tile
of the consumer and come back to it later over a link, and then the first segment need not be the
one that is read. A launch that selects a register does not set the address of its port either: that
is left to the operands of the same tile and cycle, and it is zero without them.

`TargetLowering.readsRightStorage_iff` says for which inputs every control of a lowering reads what
it should. `detour_reads_stale_register` is an accepted route for which one does not.
-/

namespace PredicatedMesh

open Scan MaterializedScheduleVerifier TargetControlProgramVerifier Lowerer

/-! ## Reading the right storage -/

/-- The source that selects a read port of a register file. -/
def readPortSource : ℕ → Option String
  | 0 => some "RF_A"
  | 1 => some "RF_B"
  | _ => none

/-- The source that selects the input port of a tile on a side. -/
def inputPort : NetworkDomain → Direction → String
  | .data, .north => "NORTH_DATA_IN"
  | .data, .south => "SOUTH_DATA_IN"
  | .data, .east => "EAST_DATA_IN"
  | .data, .west => "WEST_DATA_IN"
  | .predicate, .north => "NORTH_PRED_IN"
  | .predicate, .south => "SOUTH_PRED_IN"
  | .predicate, .east => "EAST_PRED_IN"
  | .predicate, .west => "WEST_PRED_IN"

section Reads

variable (dfg : TargetDFG) (target : TargetModel) (mapping : RFAllocatedMapping)

/-- The segment of an edge that contains the hold at a position of its plan. -/
def HoldSegment (edge : TargetEdge) (index : ℕ) (segment : StorageSegment) : Prop :=
  segment ∈ mapping.storageRequirements.segments ∧ segment.edge = edge.id ∧
    ∃ origin ∈ segment.origins, origin.kind = .explicitVirtualHold ∧
      origin.transportActionIndex = some index

/-- The segment of an edge that is read when its consumer issues. -/
def UseSegment (edge : TargetEdge) (segment : StorageSegment) : Prop :=
  segment ∈ mapping.storageRequirements.segments ∧ segment.edge = edge.id ∧
    ∃ time, mapping.staged.logicalIssueTime edge.dst = .ok time ∧
      segment.readTime = time + edge.distance * mapping.staged.modulo.ii

/-- The last action of the plan of an edge. -/
def LastLink (edge : TargetEdge) (link : LinkStep) : Prop :=
  ∃ dependence plan, mapping.staged.modulo.dependence edge.id = .ok dependence ∧
    dependence.transport = some plan ∧ plan.actions.getLast? = some (.linkStep link)

/-- A source selects the read port of a segment, whose address is its register. -/
def SelectsSegment (control : TileControl) (tile : TileCoord) (segment : StorageSegment)
    (source : String) : Prop :=
  ∃ allocation, mapping.allocationFor segment.id = some allocation ∧
    readPortSource allocation.readPort = some source ∧ allocation.reg.tile = tile ∧
    (BuilderCall.readAddressField segment.domain allocation.readPort).get control
      = allocation.reg.index

/-- A source selects the input port of a tile that a link feeds. -/
def SelectsLink (tile : TileCoord) (link : LinkStep) (source : String) : Prop :=
  target.neighbor link.source link.direction = some tile ∧
    source = inputPort link.domain link.direction.opposite

/-- A launch after another action reads what that action has left. -/
def LaunchReads (control : TileControl) (tile : TileCoord) (event : MaterializedEvent) : Prop :=
  ∀ edge plan index domain direction,
    LaunchAfter dfg mapping event edge plan index domain direction →
      (∀ hold, plan.actions[index]? = some (.virtualHold hold) →
        ∃ segment, HoldSegment mapping edge index segment ∧
          SelectsSegment mapping control tile segment
            ((BuilderCall.routeSource domain direction).get control)) ∧
      ∀ link, plan.actions[index]? = some (.linkStep link) →
        SelectsLink target tile link ((BuilderCall.routeSource domain direction).get control)

/-- An operand that an edge feeds reads the segment read at its use, or the last link if there is
no such segment. -/
def IssueReads (control : TileControl) (tile : TileCoord) (event : MaterializedEvent) : Prop :=
  ∀ edge sink, OperandOf dfg target event edge sink →
    (∃ segment, UseSegment mapping edge segment ∧
      SelectsSegment mapping control tile segment ((BuilderCall.sinkField sink).get control)) ∨
    (∀ segment, ¬ UseSegment mapping edge segment) ∧
      ∃ link, LastLink mapping edge link ∧
        SelectsLink target tile link ((BuilderCall.sinkField sink).get control)

/-- Every event of a phase that happens on a tile has a control there that reads what it should. -/
def PhaseReads (cycles : List CycleBundle) (phase : List (List TileControl)) : Prop :=
  ∀ (i : ℕ) (bundle : CycleBundle), cycles[i]? = some bundle → ∀ event ∈ bundle.events,
    event.kind ≠ .liveOutBoundaryUse → ∃ controls tile control, phase[i]? = some controls ∧
      eventTile mapping event = .ok (some tile) ∧ controlAt target controls tile = .ok control ∧
      LaunchReads dfg target mapping control tile event ∧
      IssueReads dfg target mapping control tile event

structure ReadsRightStorage (schedule : MaterializedSchedule) (program : TargetControlProgram) :
    Prop where
  prologue : PhaseReads dfg target mapping schedule.prologue.cycles program.prologue
  kernel : PhaseReads dfg target mapping schedule.kernel.body program.kernelBody
  epilogue : PhaseReads dfg target mapping schedule.epilogue.cycles program.epilogue

/-! ### The condition -/

/-- An operand of a cycle is found in a register of a tile, read through the port with an address
field. -/
def OperandRead (bundle : CycleBundle) (tile : TileCoord) (field : ControlNumber) (index : ℕ) :
    Prop :=
  ∃ event ∈ bundle.events, ∃ edge sink first allocation,
    eventTile mapping event = .ok (some tile) ∧ OperandOf dfg target event edge sink ∧
    segmentForEdgeAtTile mapping edge.id tile = some first ∧
    mapping.allocationFor first.id = some allocation ∧
    BuilderCall.readAddressField first.domain allocation.readPort = field ∧
    allocation.reg.index = index

/-- An address field is set to an index by the operands of a cycle, or is left at zero. -/
def Addressed (bundle : CycleBundle) (tile : TileCoord) (field : ControlNumber) (index : ℕ) :
    Prop :=
  OperandRead dfg target mapping bundle tile field index ∨
    index = 0 ∧ ∀ other, ¬ OperandRead dfg target mapping bundle tile field other

/-- The segment found first shares its port with the one wanted, whose register is on the tile and
is addressed. -/
def Fetched (bundle : CycleBundle) (tile : TileCoord) (first segment : StorageSegment) : Prop :=
  ∃ found allocation, mapping.allocationFor first.id = some found ∧
    mapping.allocationFor segment.id = some allocation ∧ allocation.readPort ≤ 1 ∧
    (allocation.readPort = 1 ↔ found.readPort = 1) ∧ allocation.reg.tile = tile ∧
    Addressed dfg target mapping bundle tile
      (BuilderCall.readAddressField segment.domain allocation.readPort) allocation.reg.index

def LaunchFetches (bundle : CycleBundle) (tile : TileCoord) (event : MaterializedEvent) : Prop :=
  ∀ edge plan index domain direction hold,
    LaunchAfter dfg mapping event edge plan index domain direction →
    plan.actions[index]? = some (.virtualHold hold) →
      ∃ segment first, HoldSegment mapping edge index segment ∧
        segmentForEdgeAtTile mapping edge.id hold.tile = some first ∧
        Fetched dfg target mapping bundle tile first segment

def IssueFetches (bundle : CycleBundle) (tile : TileCoord) (event : MaterializedEvent) : Prop :=
  ∀ edge sink, OperandOf dfg target event edge sink →
    (∃ segment first, UseSegment mapping edge segment ∧
      segmentForEdgeAtTile mapping edge.id tile = some first ∧
      Fetched dfg target mapping bundle tile first segment) ∨
    (∀ segment, ¬ UseSegment mapping edge segment) ∧
      segmentForEdgeAtTile mapping edge.id tile = none ∧
      ∃ placement, mapping.staged.modulo.placement edge.dst = .ok placement ∧
        placement.tile = tile

def PhaseFetches (cycles : List CycleBundle) : Prop :=
  ∀ bundle ∈ cycles, ∀ event ∈ bundle.events, ∀ tile,
    eventTile mapping event = .ok (some tile) →
      LaunchFetches dfg target mapping bundle tile event ∧
        IssueFetches dfg target mapping bundle tile event

/-- The segment found first leads to the storage wanted, in every cycle of a schedule. -/
structure FetchesRight (schedule : MaterializedSchedule) : Prop where
  prologue : PhaseFetches dfg target mapping schedule.prologue.cycles
  kernel : PhaseFetches dfg target mapping schedule.kernel.body
  epilogue : PhaseFetches dfg target mapping schedule.epilogue.cycles

end Reads

/-! ## Sources -/

theorem readPortSource_eq_iff {port found : ℕ} :
    readPortSource port = some (rfSource (found == 1)) ↔ port ≤ 1 ∧ (port = 1 ↔ found = 1) := by
  match port with
  | 0 => by_cases h : found = 1 <;> simp [readPortSource, rfSource, h]
  | 1 => by_cases h : found = 1 <;> simp [readPortSource, rfSource, h]
  | port + 2 => simp [readPortSource]

theorem edgeInput_eq {edge : TargetEdge} {direction : Direction} :
    edgeInput edge direction
      = inputPort (ModuloMappingVerifier.expectedDomain edge.kind) direction.opposite := by
  rw [edgeInput]
  rcases edge.kind with _ | _ | _ <;> rcases direction with _ | _ | _ | _ <;> rfl

/-- A register file is no input port. -/
theorem readPortSource_ne_inputPort {port : ℕ} {domain : NetworkDomain} {side : Direction} :
    readPortSource port ≠ some (inputPort domain side) := by
  match port with
  | 0 => rcases domain with _ | _ <;> rcases side with _ | _ | _ | _ <;> decide
  | 1 => rcases domain with _ | _ <;> rcases side with _ | _ | _ | _ <;> decide
  | port + 2 => exact fun h ↦ by cases h

theorem rfSource_ne_inputPort {second : Bool} {domain : NetworkDomain} {side : Direction} :
    rfSource second ≠ inputPort domain side := by
  rcases second with _ | _ <;> rcases domain with _ | _ <;> rcases side with _ | _ | _ | _ <;>
    decide

/-! ## Routes -/

/-- The plan of a value edge is routed between the placements of its ends. -/
theorem StagedMapping.Verified.routed_of_plan {dfg : TargetDFG} {target : TargetModel}
    {staged : StagedMapping} (h : staged.Verified dfg target) {edge : TargetEdge}
    (hedge : edge ∈ dfg.edges) (hkind : edge.kind ≠ .memory) {dependence : MappedDependence}
    (hdependence : staged.modulo.dependence edge.id = .ok dependence) {plan : TransportPlan}
    (hplan : dependence.transport = some plan) :
    ∃ table ready src dst route,
      staged.modulo.Routed target table edge ready src dst plan route := by
  obtain ⟨table, -, hrealized⟩ := h.modulo.reserved
  obtain ⟨dependence', hd⟩ := hrealized edge hedge
  rw [ModuloMapping.dependence_of_entries hd.entries, Except.ok.injEq] at hdependence
  subst hdependence
  obtain ⟨producer, ready, src, dst, plan', route, -, -, hplan', -, hrouted⟩ := hd.value hkind
  obtain rfl : plan = plan' := Option.some.inj (hplan.symm.trans hplan')
  exact ⟨table, ready, src, dst, route, hrouted⟩

/-! ## The control of a tile -/

section Control

variable {dfg : TargetDFG} {target : TargetModel} {mapping : RFAllocatedMapping}
variable {image : ConstantImage} {bundle : CycleBundle} {controls : List TileControl}
variable {tile : TileCoord} {control : TileControl} {event : MaterializedEvent}

theorem tileIndex_injective {other : TileCoord} {index : ℕ} (h : tileIndex target tile = .ok index)
    (hother : tileIndex target other = .ok index) : tile = other := by
  unfold tileIndex at h hother
  split at h
  · cases h
  rename_i hrange
  split at hother
  · cases hother
  rename_i hrange'
  rw [not_or, not_le, not_le] at hrange hrange'
  rw [← Except.ok.inj hother, Except.ok.injEq] at h
  have hpos : 0 < target.array.cols := (Nat.zero_le _).trans_lt hrange.2
  -- a column is what is left of an index
  have hcol : tile.col = other.col := by
    have hmod := congrArg (· % target.array.cols) h
    simp only [Nat.mul_add_mod_self_right] at hmod
    rwa [Nat.mod_eq_of_lt hrange.2, Nat.mod_eq_of_lt hrange'.2] at hmod
  have hrow : tile.row = other.row := by
    rw [hcol, Nat.add_right_cancel_iff] at h
    exact Nat.eq_of_mul_eq_mul_right hpos h
  obtain ⟨row, col⟩ := tile
  obtain ⟨row', col'⟩ := other
  rw [TileCoord.mk.injEq]
  exact ⟨hrow, hcol⟩

theorem controlAt_eq_ok (h : controlAt target controls tile = .ok control) :
    ∃ index, tileIndex target tile = .ok index ∧ controls[index]? = some control := by
  unfold TargetControlProgramVerifier.controlAt at h
  split at h
  · cases h
  rename_i index hindex
  split at h
  · cases h
  · rename_i control' hcontrol
    obtain rfl := Except.ok.inj h
    exact ⟨index, hindex, hcontrol⟩

theorem readAddressField_mem (domain : RegisterBankDomain) (port : ℕ) :
    BuilderCall.readAddressField domain port ∈ [ControlNumber.dataRfReadAddrA, .dataRfReadAddrB,
      .predicateRfReadAddrA, .predicateRfReadAddrB] := by
  rcases domain with _ | _ <;> rcases port with _ | port <;> simp [BuilderCall.readAddressField]

/-- Only a call for a read address assigns one. -/
theorem readAddress_of_mem_assignments {call : BuilderCall} {assignment : Assignment}
    (hmem : assignment ∈ call.assignments) {domain : RegisterBankDomain} {port : ℕ}
    (hkey : assignment.key = .number (BuilderCall.readAddressField domain port)) :
    ∃ domain' port' index, call = .readAddress domain' port' index ∧
      BuilderCall.readAddressField domain' port' = BuilderCall.readAddressField domain port ∧
      assignment.value = .number index := by
  have hfield := readAddressField_mem domain port
  generalize BuilderCall.readAddressField domain port = field at hkey hfield
  cases call with
  | readAddress domain' port' index =>
    rw [List.mem_singleton.mp hmem] at hkey ⊢
    exact ⟨domain', port', index, rfl, ControlKey.number.inj hkey, rfl⟩
  | merge name value =>
    simp only [BuilderCall.assignments, Option.mem_toList, Option.map_eq_some_iff] at hmem
    obtain ⟨symbol, -, rfl⟩ := hmem
    cases hkey
  | source sink value =>
    rcases List.mem_cons.mp hmem with rfl | hmem
    · cases hkey
    · split at hmem
      · rw [List.mem_singleton.mp hmem] at hkey
        cases hkey
      · cases hmem
  | route domain' direction value =>
    simp only [BuilderCall.assignments, List.mem_cons, List.not_mem_nil, or_false] at hmem
    rcases hmem with rfl | rfl <;> cases hkey
  | constant address =>
    rw [List.mem_singleton.mp hmem] at hkey
    obtain rfl := ControlKey.number.inj hkey
    exact absurd hfield (by decide)
  | dataWrite port' address value =>
    simp only [BuilderCall.assignments] at hmem
    split at hmem <;> simp only [List.mem_cons, List.not_mem_nil, or_false] at hmem
    · rcases hmem with rfl | rfl
      · cases hkey
      · obtain rfl := ControlKey.number.inj hkey
        exact absurd hfield (by decide)
    · rcases hmem with rfl | rfl | rfl
      · cases hkey
      · obtain rfl := ControlKey.number.inj hkey
        exact absurd hfield (by decide)
      · cases hkey
  | predicateWrite port' address value =>
    simp only [BuilderCall.assignments] at hmem
    split at hmem <;> simp only [List.mem_cons, List.not_mem_nil, or_false] at hmem
    · rcases hmem with rfl | rfl
      · cases hkey
      · obtain rfl := ControlKey.number.inj hkey
        exact absurd hfield (by decide)
    · rcases hmem with rfl | rfl | rfl
      · cases hkey
      · obtain rfl := ControlKey.number.inj hkey
        exact absurd hfield (by decide)
      · cases hkey

theorem Assignment.exists_number (assignment : Assignment) {field : ControlNumber}
    (h : assignment.key = .number field) : ∃ index, assignment.value = .number index := by
  cases assignment with
  | number _ value => exact ⟨value, rfl⟩
  | flag _ _ => cases h
  | symbol _ _ => cases h

/-- What is lowered at a tile happens there. -/
theorem Lowerer.LoweredAt.tile_eq {index : ℕ} {resolved : MaterializedEvent}
    (h : LoweredAt target mapping index event resolved)
    (hindex : tileIndex target tile = .ok index) :
    resolved.tile = some tile ∧ eventTile mapping event = .ok (some tile) := by
  obtain ⟨-, hresolve, tile', htile, hindex'⟩ := h
  obtain rfl := tileIndex_injective hindex' hindex
  exact ⟨htile, by rw [(resolve_eq_ok hresolve).1, htile]⟩

/-- An event of a lowered cycle has been lowered at its tile. -/
theorem exists_loweredAt (hcycle : lowerCycle dfg target mapping image bundle = .ok controls)
    (hevent : event ∈ bundle.events) (hkind : event.kind ≠ .liveOutBoundaryUse)
    (htile : eventTile mapping event = .ok (some tile)) :
    ∃ index resolved, tileIndex target tile = .ok index ∧
      LoweredAt target mapping index event resolved ∧ resolved.tile = some tile ∧
      (calls dfg target mapping image resolved).error = none := by
  obtain ⟨index, resolved, hlowered, herror⟩ := (lowerCycle_settled hcycle).2 event hevent hkind
  obtain ⟨-, hresolve, tile', htile', hindex⟩ := id hlowered
  have hsame : some tile = some tile' := by
    rw [← htile', ← Except.ok.injEq, ← htile, (resolve_eq_ok hresolve).1]
  obtain rfl := Option.some.inj hsame
  exact ⟨index, resolved, hindex, hlowered, htile', herror⟩

/-- The control of a tile holds what the calls there assign. -/
theorem get_of_mem_calls (hcycle : lowerCycle dfg target mapping image bundle = .ok controls)
    (hcontrol : controlAt target controls tile = .ok control) (hevent : event ∈ bundle.events)
    {index : ℕ} {resolved : MaterializedEvent} (hindex : tileIndex target tile = .ok index)
    (hlowered : LoweredAt target mapping index event resolved) {call : BuilderCall}
    (hcall : call ∈ (calls dfg target mapping image resolved).calls) {assignment : Assignment}
    (hassignment : assignment ∈ call.assignments) :
    assignment.key.get control = assignment.value := by
  obtain ⟨index', hindex', hget⟩ := controlAt_eq_ok hcontrol
  obtain rfl := Except.ok.inj (hindex.symm.trans hindex')
  obtain ⟨builder, rfl, hsettled⟩ := (lowerCycle_settled hcycle).1 index control hget
  refine (hsettled.holds assignment ?_).2
  refine List.mem_flatMap.mpr ⟨event, hevent, List.mem_flatMap.mpr ⟨call, ?_, hassignment⟩⟩
  exact mem_callsAt_iff.mpr ⟨resolved, hlowered, hcall⟩

/-- **The address of a read port** is the register of an operand read through it, and zero if there
is none. -/
theorem readAddress_get_iff (h : TargetDFGVerifier.verify dfg target = [])
    (hcycle : lowerCycle dfg target mapping image bundle = .ok controls)
    (hcontrol : controlAt target controls tile = .ok control) {domain : RegisterBankDomain}
    {port index : ℕ} :
    (BuilderCall.readAddressField domain port).get control = index ↔
      Addressed dfg target mapping bundle tile (BuilderCall.readAddressField domain port)
        index := by
  obtain ⟨position, hposition, hget⟩ := controlAt_eq_ok hcontrol
  obtain ⟨builder, rfl, hsettled⟩ := (lowerCycle_settled hcycle).1 position control hget
  -- the field is assigned by the operands that are read through the port
  have hassigned : ∀ other, (∃ assignment ∈ bundle.events.flatMap fun event ↦
        (callsAt dfg target mapping image position event).flatMap BuilderCall.assignments,
        assignment.key = .number (BuilderCall.readAddressField domain port) ∧
        assignment.value = .number other) ↔
      OperandRead dfg target mapping bundle tile (BuilderCall.readAddressField domain port)
        other := by
    intro other
    constructor
    · rintro ⟨assignment, hmem, hkey, hvalue⟩
      obtain ⟨event, hevent, hmem⟩ := List.mem_flatMap.mp hmem
      obtain ⟨call, hcall, hmem⟩ := List.mem_flatMap.mp hmem
      obtain ⟨resolved, hlowered, hcall⟩ := mem_callsAt_iff.mp hcall
      obtain ⟨domain', port', index', rfl, hfield, hvalue'⟩ :=
        readAddress_of_mem_assignments hmem hkey
      obtain rfl := ControlValue.number.inj (hvalue'.symm.trans hvalue)
      obtain ⟨htile, hevent'⟩ := hlowered.tile_eq hposition
      obtain ⟨position', resolved', hindex', hlowered', -, herror⟩ :=
        exists_loweredAt hcycle hevent hlowered.1 hevent'
      obtain rfl := Except.ok.inj (hlowered.2.1.symm.trans hlowered'.2.1)
      obtain ⟨tile', edge, sink, first, allocation, htile', hoperand, hfirst, hallocation, hdomain,
        hport, hregister⟩ := (readAddress_mem_calls_iff h hlowered.2.1 herror).mp hcall
      obtain rfl := Option.some.inj (htile.symm.trans htile')
      refine ⟨event, hevent, edge, sink, first, allocation, hevent', hoperand, hfirst, hallocation,
        ?_, hregister⟩
      rw [hdomain, hport, hfield]
    · rintro ⟨event, hevent, edge, sink, first, allocation, htile, hoperand, hfirst, hallocation,
        hfield, rfl⟩
      have hkind : event.kind ≠ .liveOutBoundaryUse := by simp [hoperand.kind]
      obtain ⟨position', resolved, hindex, hlowered, htile', herror⟩ :=
        exists_loweredAt hcycle hevent hkind htile
      obtain rfl := Except.ok.inj (hposition.symm.trans hindex)
      have hcall := (readAddress_mem_calls_iff h hlowered.2.1 herror).mpr
        ⟨tile, edge, sink, first, allocation, htile', hoperand, hfirst, hallocation, rfl, rfl, rfl⟩
      refine ⟨_, List.mem_flatMap.mpr ⟨event, hevent, List.mem_flatMap.mpr
        ⟨_, mem_callsAt_iff.mpr ⟨resolved, hlowered, hcall⟩, List.mem_singleton.mpr rfl⟩⟩, ?_, rfl⟩
      rw [Assignment.key, hfield]
  have hiff := hsettled.get_eq_iff (.number (BuilderCall.readAddressField domain port))
    (.number index)
  rw [hassigned, ControlKey.get, ControlValue.number.injEq] at hiff
  rw [hiff, Addressed]
  refine or_congr_right ?_
  have hnone : (∀ assignment ∈ bundle.events.flatMap fun event ↦
        (callsAt dfg target mapping image position event).flatMap BuilderCall.assignments,
        assignment.key ≠ .number (BuilderCall.readAddressField domain port)) ↔
      ∀ other, ¬ OperandRead dfg target mapping bundle tile
        (BuilderCall.readAddressField domain port) other := by
    constructor
    · intro hall other hread
      obtain ⟨assignment, hmem, hkey, -⟩ := (hassigned other).mpr hread
      exact hall assignment hmem hkey
    · intro hall assignment hmem hkey
      obtain ⟨other, hvalue⟩ := assignment.exists_number hkey
      exact hall other ((hassigned other).mp ⟨assignment, hmem, hkey, hvalue⟩)
  have hdefault : (BuilderCall.readAddressField domain port).get {} = 0 := by
    rcases domain with _ | _ <;> rcases port with _ | port <;> rfl
  rw [hnone, ControlKey.get, ControlValue.number.injEq, hdefault, and_comm, eq_comm]

/-- The port of the segment found first is that of the segment wanted. -/
theorem selectsSegment_iff (h : TargetDFGVerifier.verify dfg target = [])
    (hcycle : lowerCycle dfg target mapping image bundle = .ok controls)
    (hcontrol : controlAt target controls tile = .ok control) {first segment : StorageSegment}
    {found : StorageAllocation} (hfound : mapping.allocationFor first.id = some found) :
    SelectsSegment mapping control tile segment (rfSource (found.readPort == 1)) ↔
      Fetched dfg target mapping bundle tile first segment := by
  constructor
  · rintro ⟨allocation, hallocation, hsource, htile, haddress⟩
    obtain ⟨hport, hsame⟩ := readPortSource_eq_iff.mp hsource
    exact ⟨found, allocation, hfound, hallocation, hport, hsame, htile,
      (readAddress_get_iff h hcycle hcontrol).mp haddress⟩
  · rintro ⟨found', allocation, hfound', hallocation, hport, hsame, htile, haddress⟩
    obtain rfl := Option.some.inj (hfound.symm.trans hfound')
    exact ⟨allocation, hallocation, readPortSource_eq_iff.mpr ⟨hport, hsame⟩, htile,
      (readAddress_get_iff h hcycle hcontrol).mpr haddress⟩

/-- A launch after another starts on the tile the other leads to. -/
theorem selectsLink_of_launchAfter {request : ScheduleMaterializationRequest}
    {schedule : MaterializedSchedule} (haccepted : Accepted dfg target mapping request schedule)
    (hkind : event.kind = .linkLaunch) {cycle : ℕ} {recorded : Bool}
    (hchecked : verifyPeriodic dfg mapping request schedule event cycle = .ok (recorded, []))
    (htile : eventTile mapping event = .ok (some tile)) {edge : TargetEdge} {plan : TransportPlan}
    {index : ℕ} {domain : NetworkDomain} {direction : Direction} {prior : LinkStep}
    (hlaunch : LaunchAfter dfg mapping event edge plan index domain direction)
    (hprior : plan.actions[index]? = some (.linkStep prior)) :
    SelectsLink target tile prior (edgeInput edge prior.direction) := by
  simp only [verifyPeriodic, hkind] at hchecked
  obtain ⟨edge', dependence, plan', action, link, time, hchecked, -, hsource, -⟩ :=
    launch_geometry haccepted.ii_eq haccepted.graph hchecked
  -- the launch that was checked is this one
  have hedge : edge' = edge := by
    have hid := Option.some.inj (hchecked.edge_eq.symm.trans hlaunch.edge_eq)
    have hfind := haccepted.graph.findEdge_of_mem hchecked.mem
    rw [hid, haccepted.graph.findEdge_of_mem hlaunch.mem] at hfind
    exact (Option.some.inj hfind).symm
  subst hedge
  obtain ⟨dependence', hdependence, hplan⟩ := hlaunch.transport
  obtain rfl := Except.ok.inj (hdependence.symm.trans hchecked.dependence_eq)
  obtain rfl := Option.some.inj (hplan.symm.trans hchecked.transport_eq)
  obtain rfl := Option.some.inj (hchecked.action_eq.symm.trans hlaunch.action_eq)
  rw [eventTile_of_tile hsource, Except.ok.injEq, Option.some.injEq] at htile
  obtain ⟨_, _, _, _, _, hrouted⟩ := haccepted.allocated.staged.routed_of_plan hchecked.mem
    hchecked.kind hdependence hplan
  refine ⟨?_, ?_⟩
  · rw [← htile]
    exact (hrouted.chain 0).neighbor_of_link hprior hchecked.link_eq
  · have hdomain : prior.domain = plan.domain :=
      hrouted.domains _ (List.mem_of_getElem? hprior)
    rw [edgeInput_eq, hdomain, hrouted.domain]

theorem kind_ne_memory_of_dstOperand {edge : TargetEdge} {operand : ℕ}
    (h : edge.info.dstOperand = some operand) : edge.kind ≠ .memory := by
  intro hkind
  rw [TargetEdge.kind] at hkind
  cases hinfo : edge.info with
  | data _ _ =>
    rw [hinfo] at hkind
    cases hkind
  | predicate _ _ =>
    rw [hinfo] at hkind
    cases hkind
  | memory _ =>
    rw [hinfo] at h
    cases h

/-- **Launches.** -/
theorem launchReads_iff {request : ScheduleMaterializationRequest}
    {schedule : MaterializedSchedule} (h : TargetDFGVerifier.verify dfg target = [])
    (haccepted : Accepted dfg target mapping request schedule)
    (hperiodic : event.kind ≠ .boundaryValueInject → event.kind ≠ .liveOutBoundaryUse →
      ∃ cycle recorded, verifyPeriodic dfg mapping request schedule event cycle
        = .ok (recorded, []))
    (hcycle : lowerCycle dfg target mapping image bundle = .ok controls)
    (hcontrol : controlAt target controls tile = .ok control) (hevent : event ∈ bundle.events)
    (htile : eventTile mapping event = .ok (some tile)) :
    LaunchReads dfg target mapping control tile event ↔
      LaunchFetches dfg target mapping bundle tile event := by
  have hv := TargetDFGVerifier.verified_of_verify h
  -- what the control selects for a launch after another action
  have hhold : ∀ {edge plan index domain direction hold},
      LaunchAfter dfg mapping event edge plan index domain direction →
      plan.actions[index]? = some (.virtualHold hold) →
      ∃ first found, segmentForEdgeAtTile mapping edge.id hold.tile = some first ∧
        mapping.allocationFor first.id = some found ∧
        (BuilderCall.routeSource domain direction).get control
          = rfSource (found.readPort == 1) := by
    intro edge plan index domain direction hold hlaunch haction
    obtain ⟨position, resolved, hposition, hlowered, -, herror⟩ :=
      exists_loweredAt hcycle hevent (by simp [hlaunch.kind]) htile
    obtain ⟨first, found, hfirst, hfound, hcalls⟩ :=
      calls_launchAfter_hold hv hlaunch haction hlowered.2.1 herror
    refine ⟨first, found, hfirst, hfound, ?_⟩
    have hget := get_of_mem_calls hcycle hcontrol hevent hposition hlowered
      (hcalls ▸ List.mem_singleton_self _) (List.mem_cons_of_mem _ (List.mem_singleton_self _))
    exact ControlValue.symbol.inj hget
  have hlink : ∀ {edge plan index domain direction link},
      LaunchAfter dfg mapping event edge plan index domain direction →
      plan.actions[index]? = some (.linkStep link) →
      (BuilderCall.routeSource domain direction).get control = edgeInput edge link.direction := by
    intro edge plan index domain direction link hlaunch haction
    obtain ⟨position, resolved, hposition, hlowered, -, herror⟩ :=
      exists_loweredAt hcycle hevent (by simp [hlaunch.kind]) htile
    have hcalls := calls_launchAfter_link hv hlaunch haction hlowered.2.1 herror
    have hget := get_of_mem_calls hcycle hcontrol hevent hposition hlowered
      (hcalls ▸ List.mem_singleton_self _) (List.mem_cons_of_mem _ (List.mem_singleton_self _))
    exact ControlValue.symbol.inj hget
  constructor
  · intro hreads edge plan index domain direction hold hlaunch haction
    obtain ⟨first, found, hfirst, hfound, hget⟩ := hhold hlaunch haction
    obtain ⟨segment, hsegment, hselects⟩ :=
      (hreads edge plan index domain direction hlaunch).1 hold haction
    rw [hget] at hselects
    exact ⟨segment, first, hsegment, hfirst,
      (selectsSegment_iff h hcycle hcontrol hfound).mp hselects⟩
  · intro hfetches edge plan index domain direction hlaunch
    constructor
    · intro hold haction
      obtain ⟨first, found, hfirst, hfound, hget⟩ := hhold hlaunch haction
      obtain ⟨segment, first', hsegment, hfirst', hfetched⟩ :=
        hfetches edge plan index domain direction hold hlaunch haction
      obtain rfl := Option.some.inj (hfirst.symm.trans hfirst')
      rw [hget]
      exact ⟨segment, hsegment, (selectsSegment_iff h hcycle hcontrol hfound).mpr hfetched⟩
    · intro link haction
      have hkind := hlaunch.kind
      obtain ⟨cycle, recorded, hchecked⟩ := hperiodic (by simp [hkind]) (by simp [hkind])
      rw [hlink hlaunch haction]
      exact selectsLink_of_launchAfter haccepted hkind hchecked htile hlaunch haction

/-- **Operands.** -/
theorem issueReads_iff (h : TargetDFGVerifier.verify dfg target = [])
    (hstaged : mapping.staged.Verified dfg target)
    (hcycle : lowerCycle dfg target mapping image bundle = .ok controls)
    (hcontrol : controlAt target controls tile = .ok control) (hevent : event ∈ bundle.events)
    (htile : eventTile mapping event = .ok (some tile)) :
    IssueReads dfg target mapping control tile event ↔
      IssueFetches dfg target mapping bundle tile event := by
  refine forall₃_congr fun edge sink hoperand ↦ ?_
  obtain ⟨position, resolved, hposition, hlowered, htile', herror⟩ :=
    exists_loweredAt hcycle hevent (by simp [hoperand.kind]) htile
  obtain ⟨tile', hresolved, hclean, hsub⟩ := calls_operand h hoperand hlowered.2.1 herror
  obtain rfl := Option.some.inj (htile'.symm.trans hresolved)
  have hget : ∀ {value}, .source sink value ∈ (lowerEdgeOperand target mapping tile sink edge).calls
      → (BuilderCall.sinkField sink).get control = value := fun hmem ↦
    ControlValue.symbol.inj (get_of_mem_calls hcycle hcontrol hevent hposition hlowered
      (hsub _ hmem) List.mem_cons_self)
  rcases lowerEdgeOperand_clean hclean with
    ⟨first, found, hfirst, hfound, hcalls⟩ | ⟨hnone, dependence, plan, link, hdependence, hplan,
      hlast, hcalls⟩
  · -- found in a register
    have hsource := hget (hcalls ▸ List.mem_cons_of_mem _ (List.mem_singleton_self _))
    rw [hsource]
    constructor
    · rintro (⟨segment, hsegment, hselects⟩ | ⟨-, link, -, -, hport⟩)
      · exact .inl ⟨segment, first, hsegment, hfirst,
          (selectsSegment_iff h hcycle hcontrol hfound).mp hselects⟩
      · exact absurd hport rfSource_ne_inputPort
    · rintro (⟨segment, first', hsegment, hfirst', hfetched⟩ | ⟨-, hnone, -⟩)
      · obtain rfl := Option.some.inj (hfirst.symm.trans hfirst')
        exact .inl ⟨segment, hsegment, (selectsSegment_iff h hcycle hcontrol hfound).mpr hfetched⟩
      · rw [hfirst] at hnone
        cases hnone
  · -- read from the last link
    have hsource := hget (hcalls ▸ List.mem_singleton_self _)
    have hkind : edge.kind ≠ .memory := by
      obtain ⟨-, -, operand, -, -, -, hfed⟩ := hoperand.fed
      exact kind_ne_memory_of_dstOperand hfed
    obtain ⟨_, _, src, dst, _, hrouted⟩ :=
      hstaged.routed_of_plan hoperand.mem hkind hdependence hplan
    have hneighbor := (hrouted.chain 0).neighbor_of_last hlast
    have hdomain : link.domain = plan.domain := hrouted.domains _ (List.mem_of_getLast? hlast)
    have hplacement := ModuloMapping.placement_of_entries hrouted.dstEntries
    rw [hsource, edgeInput_eq, ← hrouted.domain, ← hdomain]
    constructor
    · rintro (⟨segment, -, allocation, -, hport, -⟩ | ⟨hnot, other,
        ⟨dependence', plan', hdependence', hplan', hlast'⟩, hneighbor', -⟩)
      · exact absurd hport readPortSource_ne_inputPort
      · obtain rfl := Except.ok.inj (hdependence.symm.trans hdependence')
        obtain rfl := Option.some.inj (hplan.symm.trans hplan')
        have hsame := Option.some.inj (hlast.symm.trans hlast')
        obtain rfl := TransportAction.linkStep.inj hsame
        refine .inr ⟨hnot, hnone, dst, hplacement, ?_⟩
        exact Option.some.inj (hneighbor.symm.trans hneighbor')
    · rintro (⟨segment, first, -, hfirst, -⟩ | ⟨hnot, -, placement, hplacement', htile⟩)
      · rw [hnone] at hfirst
        cases hfirst
      · obtain rfl := Except.ok.inj (hplacement.symm.trans hplacement')
        refine .inr ⟨hnot, link, ⟨dependence, plan, hdependence, hplan, hlast⟩, ?_, rfl⟩
        rw [hneighbor, htile]

end Control

/-! ## Phases -/

section Phases

variable {codec : ControlCodec} {dfg : TargetDFG} {target : TargetModel}
variable {mapping : RFAllocatedMapping} {request : ScheduleMaterializationRequest}
variable {schedule : MaterializedSchedule} {image : ConstantImage}

/-- A phase whose cycles have been lowered reads the right storage exactly if it fetches it. -/
theorem phaseReads_iff (h : TargetDFGVerifier.verify dfg target = [])
    (haccepted : Accepted dfg target mapping request schedule) {cycles : List CycleBundle}
    {phase : List (List TileControl)}
    (hcycles : ∀ bundle ∈ cycles, bundle ∈ schedule.prologue.cycles ∨
      bundle ∈ schedule.kernel.body ∨ bundle ∈ schedule.epilogue.cycles)
    (hlowered : ∀ (i : ℕ) (bundle : CycleBundle) (controls : List TileControl),
      cycles[i]? = some bundle → phase[i]? = some controls →
      lowerCycle dfg target mapping image bundle = .ok controls)
    (hphase : verifyPhase dfg target mapping cycles phase = .ok true) :
    PhaseReads dfg target mapping cycles phase ↔ PhaseFetches dfg target mapping cycles := by
  obtain ⟨hlength, hall⟩ := verifyPhase_iff.mp hphase
  have hevent : ∀ {i : ℕ} {bundle : CycleBundle} {controls : List TileControl}
      {event : MaterializedEvent} {tile : TileCoord} {control : TileControl},
      cycles[i]? = some bundle → phase[i]? = some controls → event ∈ bundle.events →
      eventTile mapping event = .ok (some tile) → controlAt target controls tile = .ok control →
      (LaunchReads dfg target mapping control tile event ∧
          IssueReads dfg target mapping control tile event ↔
        LaunchFetches dfg target mapping bundle tile event ∧
          IssueFetches dfg target mapping bundle tile event) := by
    intro i bundle controls event tile control hbundle hcontrols hevent htile hcontrol
    have hcycle := hlowered i bundle controls hbundle hcontrols
    exact and_congr
      (launchReads_iff h haccepted
        (periodic_checked haccepted hevent (hcycles bundle (List.mem_of_getElem? hbundle)))
        hcycle hcontrol hevent htile)
      (issueReads_iff h haccepted.allocated.staged hcycle hcontrol hevent htile)
  constructor
  · intro hreads bundle hmem event hmem' tile htile
    obtain ⟨i, hbundle⟩ := List.mem_iff_getElem?.mp hmem
    by_cases hkind : event.kind = .liveOutBoundaryUse
    · -- the use of a result outside the loop reads nothing
      constructor
      · intro edge plan index domain direction hold hlaunch
        exact absurd (hkind.symm.trans hlaunch.kind) (by decide)
      · intro edge sink hoperand
        exact absurd (hkind.symm.trans hoperand.kind) (by decide)
    obtain ⟨controls, tile', control, hcontrols, htile', hcontrol, hboth⟩ :=
      hreads i bundle hbundle event hmem' hkind
    obtain rfl := Option.some.inj (Except.ok.inj (htile.symm.trans htile'))
    exact (hevent hbundle hcontrols hmem' htile hcontrol).mp hboth
  · intro hfetches i bundle hbundle event hmem hkind
    have hlt := (List.getElem?_eq_some_iff.mp hbundle).1
    have hcontrols := List.getElem?_eq_getElem (hlt.trans_le hlength)
    -- the verifier has found the event's control
    have hlook := hall event _ ⟨i, bundle, hbundle, hcontrols, hmem⟩
    obtain ⟨tile, control, htile, hcontrol, -⟩ := control_of_verifyEvent hlook hkind
    refine ⟨_, tile, control, hcontrols, htile, hcontrol, ?_⟩
    exact (hevent hbundle hcontrols hmem htile hcontrol).mpr
      (hfetches bundle (List.mem_of_getElem? hbundle) event hmem tile htile)

/-- The controls of a lowered phase are those of its cycles. -/
theorem lowered_of_mapM {cycles : List CycleBundle} {phase : List (List TileControl)}
    (h : cycles.mapM (lowerCycle dfg target mapping image) = .ok phase) {i : ℕ}
    {bundle : CycleBundle} {controls : List TileControl} (hbundle : cycles[i]? = some bundle)
    (hcontrols : phase[i]? = some controls) :
    lowerCycle dfg target mapping image bundle = .ok controls :=
  mapM_getElem? h hbundle hcontrols

/-- A lowered program, phase by phase. -/
theorem run_eq_ok {program : TargetControlProgram}
    (h : Lowerer.run dfg target mapping schedule image = .ok program) :
    schedule.prologue.cycles.mapM (lowerCycle dfg target mapping image) = .ok program.prologue ∧
      ((List.range schedule.ii).mapM fun cycle ↦ lowerCycle dfg target mapping image
        (schedule.kernel.body[cycle]?.getD ⟨[]⟩)) = .ok program.kernelBody ∧
      schedule.epilogue.cycles.mapM (lowerCycle dfg target mapping image)
        = .ok program.epilogue := by
  unfold Lowerer.run at h
  split at h
  · cases h
  obtain ⟨prologue, hprologue, h⟩ := bind_eq_ok.mp h
  obtain ⟨body, hbody, h⟩ := bind_eq_ok.mp h
  obtain ⟨epilogue, hepilogue, h⟩ := bind_eq_ok.mp h
  obtain rfl := Except.ok.inj h
  exact ⟨hprologue, hbody, hepilogue⟩

/-- The controls of a lowered kernel are those of its cycles. -/
theorem lowered_of_kernel {body : List (List TileControl)}
    (h : ((List.range schedule.ii).mapM fun cycle ↦ lowerCycle dfg target mapping image
      (schedule.kernel.body[cycle]?.getD ⟨[]⟩)) = .ok body) {i : ℕ} {bundle : CycleBundle}
    {controls : List TileControl} (hbundle : schedule.kernel.body[i]? = some bundle)
    (hcontrols : body[i]? = some controls) :
    lowerCycle dfg target mapping image bundle = .ok controls := by
  have hlt : i < schedule.ii := by
    rw [← List.length_range (n := schedule.ii), (mapM_eq_ok.mp h).length_eq]
    exact (List.getElem?_eq_some_iff.mp hcontrols).1
  have hcycle := mapM_getElem? h (List.getElem?_range hlt) hcontrols
  rwa [hbundle, Option.getD_some] at hcycle

/-- **When lowered controls read the right storage.** For every successful lowering, each launch
after a hold reads the segment of the hold, each launch after another reads the input it feeds, and
each operand that an edge feeds reads the segment read at its use, or the last link if there is
none, exactly if the segments found first lead there. -/
theorem TargetLowering.readsRightStorage_iff (codec : ControlCodec) (dfg : TargetDFG)
    (target : TargetModel) (mapping : RFAllocatedMapping) (schedule : MaterializedSchedule)
    (result : LoweredProgram) (h : lower codec dfg target mapping schedule = .ok result) :
    ReadsRightStorage dfg target mapping schedule result.controls ↔
      FetchesRight dfg target mapping schedule := by
  obtain ⟨hdfg, -, hschedule, -, hrun, hcontrols, -⟩ := lower_eq_ok_iff.mp h
  have haccepted := accepted_of_verify hschedule
  obtain ⟨-, -, -, hprologue, hkernel, hepilogue⟩ := verify_eq_ok_none_iff.mp hcontrols
  obtain ⟨hrunPrologue, hrunKernel, hrunEpilogue⟩ := run_eq_ok hrun
  have hprologue_iff := phaseReads_iff hdfg haccepted (fun _ h ↦ .inl h)
    (fun _ _ _ hbundle ↦ lowered_of_mapM hrunPrologue hbundle) hprologue
  have hkernel_iff := phaseReads_iff hdfg haccepted (fun _ h ↦ .inr (.inl h))
    (fun _ _ _ hbundle ↦ lowered_of_kernel hrunKernel hbundle) hkernel
  have hepilogue_iff := phaseReads_iff hdfg haccepted (fun _ h ↦ .inr (.inr h))
    (fun _ _ _ hbundle ↦ lowered_of_mapM hrunEpilogue hbundle) hepilogue
  constructor
  · intro hreads
    exact ⟨hprologue_iff.mp hreads.prologue, hkernel_iff.mp hreads.kernel,
      hepilogue_iff.mp hreads.epilogue⟩
  · intro hfetches
    exact ⟨hprologue_iff.mpr hfetches.prologue, hkernel_iff.mpr hfetches.kernel,
      hepilogue_iff.mpr hfetches.epilogue⟩

end Phases

/-! ### A detour

The value waits on tile `(0,1)`, goes on to `(0,2)` and comes back to `(0,1)` over a link just when
its consumer issues there. The consumer finds the segment of the wait and reads its register. -/

def detourDFG : TargetDFG where
  name := "detour"
  targetName := "cgra_v3_shared4p"
  nodes := [passNode 0, passNode 1]
  edges := [⟨0, 0, 1, 0, .data 0 none⟩]
  externalValues := []
  constants := [⟨0, ValueType.integer 32, 7⟩]
  liveOuts := [⟨0, ValueType.integer 32, "out", 1⟩]
  operandBindings := [⟨0, 0, .constantRef 0⟩]
  incomingEdges := [[], [0]]
  outgoingEdges := [[0], []]

def detourPlan : TransportPlan where
  edge := 0
  domain := .data
  actions :=
    [.linkStep ⟨.data, ⟨0, 0⟩, .east, 0⟩, .virtualHold ⟨.data, ⟨0, 1⟩, 1, 2⟩,
      .linkStep ⟨.data, ⟨0, 1⟩, .east, 2⟩, .linkStep ⟨.data, ⟨0, 2⟩, .west, 3⟩]
  requiredSeparationCycles := 4

def detourAllocated : RFAllocatedMapping where
  staged :=
    { modulo :=
        { targetName := "cgra_v3_shared4p"
          ii := 5
          placements := [⟨0, ⟨0, 0⟩, 0⟩, ⟨1, ⟨0, 1⟩, 4⟩]
          dependences := [⟨0, .data, 4, some detourPlan⟩] }
      stages := [⟨0, 0⟩, ⟨1, 0⟩]
      sorted := delayLineStaged.sorted }
  storageRequirements :=
    ⟨5, [⟨0, 0, ⟨0, 1⟩, .data, 1, 2, [⟨.explicitVirtualHold, 0, some 1⟩]⟩]⟩
  allocations := [⟨0, ⟨⟨0, 1⟩, "data_rf", 0⟩, 0, 1, none⟩]

/-- The issue of the consumer. -/
def detourIssue : MaterializedEvent :=
  { kind := .nodeIssue, logicalIteration := 0, node := some 1 }

def detourSchedule : MaterializedSchedule :=
  let link := fun (action : ℕ) (col : ℕ) (direction : Direction) ↦
    ({ kind := .linkLaunch, logicalIteration := 0, edge := some 0
       transportActionIndex := some action, domain := some .data, tile := some ⟨0, col⟩
       direction := some direction } : MaterializedEvent)
  let access := fun (kind : MaterializedEventKind) ↦
    ({ kind := kind, logicalIteration := 0, edge := some 0, segment := some 0
       domain := some .data, tile := some ⟨0, 1⟩
       physicalRegister := some ⟨⟨0, 1⟩, "data_rf", 0⟩ } : MaterializedEvent)
  { ii := 5
    tripCount := 1
    timeOriginShift := 0
    totalLogicalCycles := 6
    prologue := ⟨[]⟩
    kernel :=
      ⟨[⟨[{ kind := .nodeIssue, logicalIteration := 0, node := some 0 }, link 0 0 .east]⟩,
        ⟨[access .rfWrite]⟩, ⟨[access .rfRead, link 2 1 .east]⟩, ⟨[link 3 2 .west]⟩,
        ⟨[detourIssue]⟩], 1⟩
    epilogue :=
      ⟨[⟨[{ kind := .liveOutBoundaryUse, logicalIteration := 0, node := some 1
            liveOut := some 0 }]⟩]⟩ }

def detourProgram : TargetControlProgram where
  ii := 5
  tripCount := 1
  prologue := []
  kernelBody :=
    [delayLineCycle
      [(0, { op := "PASS", srcA := "CONST_DATA", dataRoutes := passEast "FU_DATA_RESULT" })],
      delayLineCycle [(1, { dataWrite1Enable := true, dataWrite1Source := "WEST_DATA_IN" })],
      delayLineCycle [(1, { dataRoutes := passEast "RF_A" })],
      delayLineCycle [(2, { dataRoutes := [{}, {}, {}, ⟨true, "WEST_DATA_IN"⟩] })],
      delayLineCycle [(1, { op := "PASS", srcA := "RF_A" })]]
  kernelRepeatCount := 1
  epilogue := [delayLineCycle []]

def detourImage : ConstantImage := ⟨[⟨0, 0, 7⟩]⟩

theorem detourSchedule_materialized : ScheduleMaterializer.materialize detourDFG shippedTarget
    detourAllocated { tripCount := 1 } = .ok (.ok detourSchedule) := by
  decide +kernel

/-- The controls of the detour have words. -/
theorem detour_words : ∀ controls ∈ detourProgram.prologue ++ detourProgram.kernelBody
      ++ detourProgram.epilogue, ∀ control ∈ controls,
    control.Shaped ∧ ∃ word, shippedCodec.encode control = .ok word := by
  have hfits : ∀ controls ∈ detourProgram.prologue ++ detourProgram.kernelBody
        ++ detourProgram.epilogue, ∀ control ∈ controls, control.Shaped ∧
      ∀ field ∈ shippedControlLayout.fields, shippedCodec.fits control field = true := by
    unfold TileControl.Shaped
    decide
  intro controls hcontrols control hcontrol
  obtain ⟨hshaped, hfit⟩ := hfits controls hcontrols control hcontrol
  exact ⟨hshaped, shippedCodec_encodes hfit⟩

/-- The detour is lowered. -/
theorem detour_lowered : ∃ encoded, TargetLowering.lower shippedCodec detourDFG shippedTarget
    detourAllocated detourSchedule = .ok ⟨detourProgram, encoded, detourImage⟩ := by
  obtain ⟨encoded, hencoded⟩ :=
    TargetLowering.exists_encodeProgram shippedCodec_bijective.2.decode_encode detour_words
  have hrun : Lowerer.run detourDFG shippedTarget detourAllocated detourSchedule detourImage
      = .ok detourProgram := by decide
  have hcontrols : TargetControlProgramVerifier.verify shippedCodec detourDFG shippedTarget
      detourAllocated detourSchedule detourProgram = .ok none := by
    refine verify_eq_ok_none_iff.mpr ⟨by decide, by decide, ?_, by decide,
      by decide, by decide⟩
    exact encodingError_eq_none_iff.mpr fun controls hcontrols control hcontrol ↦
      (detour_words controls hcontrols control hcontrol).2
  have himage : TargetLowering.allocateConstants detourDFG shippedTarget = .ok detourImage := by
    decide
  exact ⟨encoded, TargetLowering.lower_eq_ok_iff.mpr ⟨by decide +kernel, by decide +kernel,
    (ScheduleMaterializer.materialize_eq_ok detourSchedule_materialized).2, himage, hrun, hcontrols,
    hencoded⟩⟩

theorem detourIssue_operand :
    OperandOf detourDFG shippedTarget detourIssue ⟨0, 0, 1, 0, .data 0 none⟩ .fuDataA where
  kind := rfl
  mem := List.mem_singleton_self _
  node_eq := rfl
  fed := by
    obtain ⟨operation, hfound, hsink⟩ : ∃ operation, shippedTarget.findOperation "PASS"
        = some operation ∧ (0, TargetControlSink.fuDataA) ∈ operation.operandSinks := by
      exact ⟨_, rfl, by decide⟩
    exact ⟨passNode 1, operation, 0, rfl, hfound, hsink, rfl⟩

/-- No segment is read when the consumer issues. -/
theorem detour_not_useSegment (segment : StorageSegment) :
    ¬ UseSegment detourAllocated ⟨0, 0, 1, 0, .data 0 none⟩ segment := by
  rintro ⟨hmem, -, time, htime, hread⟩
  obtain rfl := List.mem_singleton.mp hmem
  have hissue : detourAllocated.staged.logicalIssueTime 1 = .ok 4 := by decide
  obtain rfl := Except.ok.inj (htime.symm.trans hissue)
  exact absurd hread (by decide)

/-- The consumer of the detour reads the register its value has left. -/
theorem detour_reads_stale_register : ∃ result, TargetLowering.lower shippedCodec detourDFG
    shippedTarget detourAllocated detourSchedule = .ok result ∧
      ¬ ReadsRightStorage detourDFG shippedTarget detourAllocated detourSchedule
        result.controls := by
  obtain ⟨encoded, hlower⟩ := detour_lowered
  refine ⟨_, hlower, fun hreads ↦ ?_⟩
  obtain ⟨controls, tile, control, hcontrols, htile, hcontrol, -, hissue⟩ :=
    hreads.kernel 4 _ rfl detourIssue (List.mem_singleton_self _) (by decide)
  have hlooked : eventTile detourAllocated detourIssue = .ok (some ⟨0, 1⟩) := by decide
  obtain rfl := Option.some.inj (Except.ok.inj (htile.symm.trans hlooked))
  obtain rfl := Option.some.inj hcontrols
  have hfound : controlAt shippedTarget (delayLineCycle [(1, { op := "PASS", srcA := "RF_A" })])
      ⟨0, 1⟩ = .ok { op := "PASS", srcA := "RF_A" } := by decide
  obtain rfl := Except.ok.inj (hcontrol.symm.trans hfound)
  rcases hissue _ _ detourIssue_operand with ⟨segment, huse, -⟩ | ⟨-, link, -, -, hport⟩
  · exact detour_not_useSegment segment huse
  · have hne : rfSource false ≠ inputPort link.domain link.direction.opposite :=
      rfSource_ne_inputPort
    exact absurd hport hne

/-- The segment found first is not one read at the use. -/
theorem detour_not_reads : ∃ result, TargetLowering.lower shippedCodec detourDFG
    shippedTarget detourAllocated detourSchedule = .ok result ∧
      ¬ ReadsRightStorage detourDFG shippedTarget detourAllocated detourSchedule
        result.controls := by
  obtain ⟨encoded, hlower⟩ := detour_lowered
  refine ⟨_, hlower, ?_⟩
  rw [TargetLowering.readsRightStorage_iff shippedCodec _ _ _ _ _ hlower]
  intro hfetches
  have hlooked : eventTile detourAllocated detourIssue = .ok (some ⟨0, 1⟩) := by decide
  obtain ⟨-, hissue⟩ := hfetches.kernel ⟨[detourIssue]⟩ (by decide) detourIssue
    (List.mem_singleton_self _) ⟨0, 1⟩ hlooked
  rcases hissue _ _ detourIssue_operand with ⟨segment, -, huse, -⟩ | ⟨-, hnone, -⟩
  · exact detour_not_useSegment segment huse
  · revert hnone
    decide

end PredicatedMesh
