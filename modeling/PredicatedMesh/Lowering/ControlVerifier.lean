import PredicatedMesh.Lowering.Uniform
import PredicatedMesh.Target.ShippedControl

/-!
# Verifying a control program

`TargetControlProgramVerifier.verify` looks, for every event of a schedule, into the control of the
event's tile in the event's cycle, and asks whether the control says what the event needs.

Three things it does not ask. A node issue that names a tile is looked up there, and nothing has
compared that tile with the placement of the node. Of a register write it asks that some write port
of the bank be enabled and that not both be enabled with other addresses, so that a single enabled
port may have any address. And it walks over the cycles of the schedule, so that a program may go on
after them. `represents_iff` says that a program it accepts carries every event of the schedule
exactly if none of the three happens.
-/

namespace PredicatedMesh

open Scan MaterializedScheduleVerifier

namespace TargetControlProgramVerifier

/-! ## The verifier -/

section Verify

variable (codec : ControlCodec) (dfg : TargetDFG) (target : TargetModel)
variable (mapping : RFAllocatedMapping)

/-- The control of a tile in a cycle. -/
def controlAt (controls : List TileControl) (tile : TileCoord) : Except LoweringError TileControl :=
  match Lowerer.tileIndex target tile with
  | .error error => .error error
  | .ok index =>
    match controls[index]? with
    | none => .error (Lowerer.internal "vector::_M_range_check")
    | some control => .ok control

def verifyNodeIssue (control : TileControl) (event : MaterializedEvent) :
    Except LoweringError Bool :=
  match event.node with
  | none => .ok false
  | some id =>
    match dfg.findNode id with
    | none => .error (Lowerer.internal ("unknown target DFG node id: " ++ toString id))
    | some node =>
      match target.findOperation node.operation with
      | none => .error (Lowerer.internal ("unknown target operation: " ++ node.operation))
      | some operation =>
        match operation.encoding with
        | none => .ok false
        | some encoding =>
          .ok ((if operation.executionClass = .fu then control.op else control.lsuOp)
            == encoding.symbol)

/-- The routes of a network. -/
def routes (control : TileControl) : NetworkDomain → List RouteControl
  | .data => control.dataRoutes
  | .predicate => control.predicateRoutes

def verifyLinkLaunch (control : TileControl) (event : MaterializedEvent) : Bool :=
  match event.direction, event.domain with
  | some direction, some domain =>
    let route := routeAt (routes control domain) direction
    route.enabled && route.source != "NONE"
  | _, _ => false

/-- The two write ports of a bank: whether each is enabled, and its address. -/
def writePorts (control : TileControl) : RegisterBankDomain → (Bool × ℕ) × (Bool × ℕ)
  | .data =>
    ((control.dataWrite0Enable, control.dataWrite0Addr),
      (control.dataWrite1Enable, control.dataWrite1Addr))
  | .predicate =>
    ((control.predicateWrite0Enable, control.predicateWrite0Addr),
      (control.predicateWrite1Enable, control.predicateWrite1Addr))

/-- Some port is enabled, and not both are enabled with other addresses. -/
def writePortsAdmit (ports : (Bool × ℕ) × (Bool × ℕ)) (index : ℕ) : Bool :=
  !(!ports.1.1 && !ports.2.1)
  && !((ports.1.1 && ports.1.2 != index) && (ports.2.1 && ports.2.2 != index))

def findSegment (id : StorageSegmentId) : Except LoweringError StorageSegment :=
  match mapping.storageRequirements.segments.find? fun segment ↦ segment.id == id with
  | none => .error (Lowerer.internal "unknown storage segment")
  | some segment => .ok segment

def verifyRFWrite (control : TileControl) (event : MaterializedEvent) :
    Except LoweringError Bool :=
  match event.physicalRegister, event.segment with
  | some register, some id =>
    match findSegment mapping id with
    | .error error => .error error
    | .ok segment =>
      match target.registerBank segment.domain register.tile.row register.tile.col with
      | none => .ok false
      | some bank =>
        .ok (register.tile == segment.tile && decide (register.index < bank.depth)
          && bank.allocates register.index
          && writePortsAdmit (writePorts control segment.domain) register.index)
  | _, _ => .ok false

/-- The two read addresses of a bank. -/
def readAddresses (control : TileControl) : RegisterBankDomain → ℕ × ℕ
  | .data => (control.dataRfReadAddrA, control.dataRfReadAddrB)
  | .predicate => (control.predicateRfReadAddrA, control.predicateRfReadAddrB)

def verifyRFRead (control : TileControl) (event : MaterializedEvent) :
    Except LoweringError Bool :=
  match event.physicalRegister, event.segment with
  | some register, some id =>
    match findSegment mapping id with
    | .error error => .error error
    | .ok segment =>
      let addresses := readAddresses control segment.domain
      .ok (register.tile == segment.tile
        && (addresses.1 == register.index || addresses.2 == register.index))
  | _, _ => .ok false

/-- An event against the control of its tile. -/
def verifyControl (control : TileControl) (event : MaterializedEvent) :
    Except LoweringError Bool :=
  match event.kind with
  | .nodeIssue => verifyNodeIssue dfg target control event
  | .linkLaunch => .ok (verifyLinkLaunch control event)
  | .rfWrite => verifyRFWrite target mapping control event
  | .rfRead => verifyRFRead mapping control event
  | .boundaryValueInject | .liveOutBoundaryUse => .ok true

/-- The tile an event is looked up at: the one it names, or the placement of the node it issues. -/
def eventTile (event : MaterializedEvent) : Except LoweringError (Option TileCoord) :=
  match event.tile, event.kind, event.node with
  | some tile, _, _ => .ok (some tile)
  | none, .nodeIssue, some node =>
    (Lowerer.ofString (mapping.staged.modulo.placement node)).map fun placement ↦
      some placement.tile
  | none, _, _ => .ok none

def verifyEvent (controls : List TileControl) (event : MaterializedEvent) :
    Except LoweringError Bool :=
  if event.kind = .liveOutBoundaryUse then .ok true
  else
    match eventTile mapping event with
    | .error error => .error error
    | .ok none => .ok false
    | .ok (some tile) =>
      match controlAt target controls tile with
      | .error error => .error error
      | .ok control => verifyControl dfg target mapping control event

/-- The events of a cycle, up to the first that is not represented. -/
def verifyBundle (controls : List TileControl) : List MaterializedEvent → Except LoweringError Bool
  | [] => .ok true
  | event :: events =>
    match verifyEvent dfg target mapping controls event with
    | .error error => .error error
    | .ok false => .ok false
    | .ok true => verifyBundle controls events

/-- The cycles of a phase. A program that ends before the schedule is read past its end. -/
def verifyPhase : List CycleBundle → List (List TileControl) → Except LoweringError Bool
  | [], _ => .ok true
  | _ :: _, [] => .error (Lowerer.internal "control phase is read past its end")
  | bundle :: cycles, controls :: phase =>
    match verifyBundle dfg target mapping controls bundle.events with
    | .error error => .error error
    | .ok false => .ok false
    | .ok true => verifyPhase cycles phase

/-- Every cycle has a control for every tile. -/
def phaseShape (phase : List (List TileControl)) : Bool :=
  phase.all fun controls ↦ controls.length == target.array.rows * target.array.cols

/-- The error of the first control that has no encoding. -/
def encodingError (phase : List (List TileControl)) : Option String :=
  phase.flatten.findSome? fun control ↦
    match codec.encode control with
    | .error message => some message
    | .ok _ => none

/-- Go on if every event of a phase is represented. -/
def continueIf (result : Except LoweringError Bool) (phase : String)
    (next : Except LoweringError (Option String)) : Except LoweringError (Option String) :=
  match result with
  | .error error => .error error
  | .ok false => .ok (some (phase ++ " semantic event is not represented by target control"))
  | .ok true => next

/-- The message of the first failure; the program is accepted when there is none. -/
def verify (schedule : MaterializedSchedule) (program : TargetControlProgram) :
    Except LoweringError (Option String) :=
  if program.ii ≠ schedule.ii ∨ program.tripCount ≠ schedule.tripCount then
    .ok (some "control program metadata does not match materialized schedule")
  else if !(phaseShape target program.prologue && phaseShape target program.epilogue
      && program.kernelBody.length == program.ii && phaseShape target program.kernelBody) then
    .ok (some "control phase shape is invalid")
  else
    match encodingError codec (program.prologue ++ program.kernelBody ++ program.epilogue) with
    | some message => .ok (some message)
    | none =>
      continueIf (verifyPhase dfg target mapping schedule.prologue.cycles program.prologue)
        "prologue" <|
      continueIf (verifyPhase dfg target mapping schedule.kernel.body program.kernelBody)
        "kernel" <|
      continueIf (verifyPhase dfg target mapping schedule.epilogue.cycles program.epilogue)
        "epilogue" (.ok none)

end Verify

/-! ## What acceptance says -/

/-- An event of a phase happens in a cycle for which the program has these controls. -/
def HappensUnder (cycles : List CycleBundle) (phase : List (List TileControl))
    (event : MaterializedEvent) (controls : List TileControl) : Prop :=
  ∃ (i : ℕ) (bundle : CycleBundle),
    cycles[i]? = some bundle ∧ phase[i]? = some controls ∧ event ∈ bundle.events

section Accepted

variable {codec : ControlCodec} {dfg : TargetDFG} {target : TargetModel}
variable {mapping : RFAllocatedMapping} {schedule : MaterializedSchedule}
variable {program : TargetControlProgram}

theorem verifyBundle_iff {controls : List TileControl} {events : List MaterializedEvent} :
    verifyBundle dfg target mapping controls events = .ok true ↔
      ∀ event ∈ events, verifyEvent dfg target mapping controls event = .ok true := by
  induction events with
  | nil => simp [verifyBundle]
  | cons event events ih =>
    rw [verifyBundle, List.forall_mem_cons, ← ih]
    constructor
    · intro h
      split at h
      · cases h
      · cases h
      · exact ⟨‹_›, h⟩
    · rintro ⟨hevent, hevents⟩
      rw [hevent]
      exact hevents

/-- A walk over a phase that finds everything represented has read a control for every cycle. -/
theorem verifyPhase_iff {cycles : List CycleBundle} {phase : List (List TileControl)} :
    verifyPhase dfg target mapping cycles phase = .ok true ↔ cycles.length ≤ phase.length ∧
      ∀ event controls, HappensUnder cycles phase event controls →
        verifyEvent dfg target mapping controls event = .ok true := by
  induction cycles generalizing phase with
  | nil => simp [verifyPhase, HappensUnder]
  | cons bundle cycles ih =>
    cases phase with
    | nil => simp [verifyPhase]
    | cons controls phase =>
      rw [verifyPhase, List.length_cons, List.length_cons, Nat.add_le_add_iff_right]
      constructor
      · intro h
        split at h
        · cases h
        · cases h
        · rename_i hbundle
          obtain ⟨hlength, hrest⟩ := ih.mp h
          refine ⟨hlength, ?_⟩
          rintro event controls' ⟨i, bundle', hcycle, hphase, hevent⟩
          cases i with
          | zero =>
            obtain rfl := Option.some.inj hcycle
            obtain rfl := Option.some.inj hphase
            exact verifyBundle_iff.mp hbundle event hevent
          | succ i => exact hrest event controls' ⟨i, bundle', hcycle, hphase, hevent⟩
      · rintro ⟨hlength, hall⟩
        have hbundle : verifyBundle dfg target mapping controls bundle.events = .ok true :=
          verifyBundle_iff.mpr fun event hevent ↦ hall event controls ⟨0, bundle, rfl, rfl, hevent⟩
        rw [hbundle]
        refine ih.mpr ⟨hlength, ?_⟩
        rintro event controls' ⟨i, bundle', hcycle, hphase, hevent⟩
        exact hall event controls' ⟨i + 1, bundle', hcycle, hphase, hevent⟩

theorem continueIf_eq_ok_none_iff {result : Except LoweringError Bool} {phase : String}
    {next : Except LoweringError (Option String)} :
    continueIf result phase next = .ok none ↔ result = .ok true ∧ next = .ok none := by
  unfold continueIf
  split <;> simp

theorem encodingError_eq_none_iff {phase : List (List TileControl)} :
    encodingError codec phase = none ↔
      ∀ controls ∈ phase, ∀ control ∈ controls, ∃ word, codec.encode control = .ok word := by
  rw [encodingError, List.findSome?_eq_none_iff]
  simp only [List.mem_flatten, forall_exists_index, and_imp]
  constructor
  · intro h controls hcontrols control hcontrol
    have hnone := h control controls hcontrols hcontrol
    split at hnone
    · cases hnone
    · exact ⟨_, ‹_›⟩
  · intro h control controls hcontrols hcontrol
    obtain ⟨word, hword⟩ := h controls hcontrols control hcontrol
    rw [hword]

/-- **Acceptance**, stage by stage. -/
theorem verify_eq_ok_none_iff : verify codec dfg target mapping schedule program = .ok none ↔
    (program.ii = schedule.ii ∧ program.tripCount = schedule.tripCount) ∧
      (phaseShape target program.prologue = true ∧ phaseShape target program.epilogue = true ∧
        program.kernelBody.length = program.ii ∧ phaseShape target program.kernelBody = true) ∧
      encodingError codec (program.prologue ++ program.kernelBody ++ program.epilogue) = none ∧
      verifyPhase dfg target mapping schedule.prologue.cycles program.prologue = .ok true ∧
      verifyPhase dfg target mapping schedule.kernel.body program.kernelBody = .ok true ∧
      verifyPhase dfg target mapping schedule.epilogue.cycles program.epilogue = .ok true := by
  unfold verify
  split
  · rename_i hmetadata
    simp only [Except.ok.injEq, reduceCtorEq, false_iff]
    tauto
  · rename_i hmetadata
    rw [not_or, not_not, not_not] at hmetadata
    split
    · rename_i hshape
      simp only [Except.ok.injEq, reduceCtorEq, false_iff]
      rintro ⟨-, ⟨hprologue, hepilogue, hlength, hkernel⟩, -⟩
      simp [hprologue, hepilogue, hlength, hkernel] at hshape
    · rename_i hshape
      simp only [Bool.not_eq_true', Bool.not_eq_false, Bool.and_eq_true, beq_iff_eq,
        and_assoc] at hshape
      obtain ⟨hprologue, hepilogue, hlength, hkernel⟩ := hshape
      split
      · rename_i message hmessage
        simp only [Except.ok.injEq, reduceCtorEq, false_iff]
        rintro ⟨-, -, hencodes, -⟩
        rw [hmessage] at hencodes
        cases hencodes
      · rename_i hencodes
        rw [continueIf_eq_ok_none_iff, continueIf_eq_ok_none_iff, continueIf_eq_ok_none_iff]
        simp only [hmetadata, hprologue, hepilogue, hlength, hkernel, hencodes, true_and,
          and_true, and_self]

end Accepted

end TargetControlProgramVerifier

/-! ## Programs that represent a schedule -/

open TargetControlProgramVerifier

section Represents

variable (dfg : TargetDFG) (target : TargetModel) (mapping : RFAllocatedMapping)

/-- The control at a tile holds the operation of a node. -/
def CarriesIssue (controls : List TileControl) (id : TargetNodeId) (tile : TileCoord) : Prop :=
  ∃ node operation encoding control, dfg.findNode id = some node ∧
    target.findOperation node.operation = some operation ∧ operation.encoding = some encoding ∧
    controlAt target controls tile = .ok control ∧
    (if operation.executionClass = .fu then control.op else control.lsuOp) = encoding.symbol

/-- A port of a bank is enabled with an address. -/
def PortEnabledAt (ports : (Bool × ℕ) × (Bool × ℕ)) (index : ℕ) : Prop :=
  ports.1 = (true, index) ∨ ports.2 = (true, index)

/-- The control of the tile where the mapping puts an event carries it. -/
def Carried (controls : List TileControl) (event : MaterializedEvent) : Prop :=
  match event.kind with
  | .nodeIssue => ∃ id placement, event.node = some id ∧
      mapping.staged.modulo.placement id = .ok placement ∧
      CarriesIssue dfg target controls id placement.tile
  | .linkLaunch => ∃ edge dependence plan action link control, event.edge = some edge ∧
      event.transportActionIndex = some action ∧
      mapping.staged.modulo.dependence edge = .ok dependence ∧
      dependence.transport = some plan ∧ plan.actions[action]? = some (.linkStep link) ∧
      controlAt target controls link.source = .ok control ∧
      (routeAt (routes control link.domain) link.direction).enabled = true ∧
      (routeAt (routes control link.domain) link.direction).source ≠ "NONE"
  | .rfWrite => ∃ segment allocation control, findSegment mapping segment.id = .ok segment ∧
      event.segment = some segment.id ∧ mapping.allocationFor segment.id = some allocation ∧
      controlAt target controls segment.tile = .ok control ∧
      PortEnabledAt (writePorts control segment.domain) allocation.reg.index
  | .rfRead => ∃ segment allocation control, findSegment mapping segment.id = .ok segment ∧
      event.segment = some segment.id ∧ mapping.allocationFor segment.id = some allocation ∧
      controlAt target controls segment.tile = .ok control ∧
      ((readAddresses control segment.domain).1 = allocation.reg.index ∨
        (readAddresses control segment.domain).2 = allocation.reg.index)
  | .boundaryValueInject | .liveOutBoundaryUse => True

/-- Every event of a phase is carried. -/
def PhaseCarried (cycles : List CycleBundle) (phase : List (List TileControl)) : Prop :=
  ∀ event controls, HappensUnder cycles phase event controls →
    Carried dfg target mapping controls event

/-- A program carries every event of a schedule, and its phases last as long. The kernel of a
program always has the cycles of one interval, so that how long it lasts is in its repeat count. -/
structure Represents (schedule : MaterializedSchedule) (program : TargetControlProgram) :
    Prop where
  prologue : PhaseCarried dfg target mapping schedule.prologue.cycles program.prologue
  kernel : PhaseCarried dfg target mapping schedule.kernel.body program.kernelBody
  epilogue : PhaseCarried dfg target mapping schedule.epilogue.cycles program.epilogue
  prologue_length : program.prologue.length = schedule.prologue.cycles.length
  kernel_length : program.kernelRepeatCount * program.kernelBody.length
    = schedule.kernel.repeatCount * schedule.kernel.body.length
  epilogue_length : program.epilogue.length = schedule.epilogue.cycles.length

/-! ### The condition -/

/-- One port of a bank is enabled, and it has another address. -/
def LonePortElsewhere (ports : (Bool × ℕ) × (Bool × ℕ)) (index : ℕ) : Prop :=
  ports.1.1 ≠ ports.2.1 ∧ ¬ PortEnabledAt ports index

/-- The looks of the verifier at an event do not miss: a register write has no lone port elsewhere,
and a node issue that names another tile than its placement is carried there as well. -/
def LookedUp (controls : List TileControl) (event : MaterializedEvent) : Prop :=
  match event.kind with
  | .nodeIssue => ∀ id placement, event.node = some id →
      mapping.staged.modulo.placement id = .ok placement →
      event.tile = none ∨ event.tile = some placement.tile ∨
        CarriesIssue dfg target controls id placement.tile
  | .rfWrite => ∀ segment register tile control, event.segment = some segment.id →
      findSegment mapping segment.id = .ok segment → event.physicalRegister = some register →
      event.tile = some tile → controlAt target controls tile = .ok control →
      ¬ LonePortElsewhere (writePorts control segment.domain) register.index
  | _ => True

def PhaseLookedUp (cycles : List CycleBundle) (phase : List (List TileControl)) : Prop :=
  ∀ event controls, HappensUnder cycles phase event controls →
    LookedUp dfg target mapping controls event

/-- No look of the verifier misses, and the program does not go on after the schedule. -/
structure FullyChecked (schedule : MaterializedSchedule) (program : TargetControlProgram) :
    Prop where
  prologue : PhaseLookedUp dfg target mapping schedule.prologue.cycles program.prologue
  kernel : PhaseLookedUp dfg target mapping schedule.kernel.body program.kernelBody
  epilogue : PhaseLookedUp dfg target mapping schedule.epilogue.cycles program.epilogue
  prologue_le : program.prologue.length ≤ schedule.prologue.cycles.length
  repeatCount_eq : program.kernelRepeatCount = schedule.kernel.repeatCount
  epilogue_le : program.epilogue.length ≤ schedule.epilogue.cycles.length

end Represents

/-! ## One event -/

section Event

variable {codec : ControlCodec} {dfg : TargetDFG} {target : TargetModel}
variable {mapping : RFAllocatedMapping} {request : ScheduleMaterializationRequest}
variable {schedule : MaterializedSchedule} {program : TargetControlProgram}
variable {controls : List TileControl} {event : MaterializedEvent} {cycle : ℕ} {recorded : Bool}

/-- Ports the verifier admits have the address, unless a lone port has another. -/
theorem portEnabledAt_iff {ports : (Bool × ℕ) × (Bool × ℕ)} {index : ℕ}
    (h : writePortsAdmit ports index = true) :
    PortEnabledAt ports index ↔ ¬ LonePortElsewhere ports index := by
  obtain ⟨⟨first, firstAddress⟩, second, secondAddress⟩ := ports
  unfold writePortsAdmit at h
  unfold LonePortElsewhere PortEnabledAt
  rcases first with _ | _ <;> rcases second with _ | _ <;>
    simp only [Bool.not_true, Bool.not_false, Bool.and_true, Bool.and_false, Bool.true_and,
      Bool.false_and, Bool.and_self, Bool.not_eq_true', Bool.and_eq_false_iff, bne_eq_false_iff_eq,
      reduceCtorEq] at h <;>
    simp only [Prod.mk.injEq, reduceCtorEq, true_and, false_and, or_false, false_or, ne_eq,
      not_true_eq_false, not_false_eq_true, not_not, iff_true]
  exact h

/-- What a look at an event that happens on a tile has found there. -/
theorem control_of_verifyEvent (h : TargetControlProgramVerifier.verifyEvent dfg target mapping
      controls event = .ok true) (hkind : event.kind ≠ .liveOutBoundaryUse) :
    ∃ tile control, eventTile mapping event = .ok (some tile) ∧
      controlAt target controls tile = .ok control ∧
      verifyControl dfg target mapping control event = .ok true := by
  unfold TargetControlProgramVerifier.verifyEvent at h
  rw [if_neg hkind] at h
  split at h
  · cases h
  · cases h
  · rename_i tile htile
    split at h
    · cases h
    · rename_i control hcontrol
      exact ⟨tile, control, htile, hcontrol, h⟩

theorem eventTile_of_tile {tile : TileCoord} (h : event.tile = some tile) :
    eventTile mapping event = .ok (some tile) := by
  unfold eventTile
  rw [h]

/-- A node issue is carried where it is looked up. -/
theorem carriesIssue_of_verifyNodeIssue {control : TileControl} {id : TargetNodeId}
    {tile : TileCoord} (hnode : event.node = some id)
    (hcontrol : controlAt target controls tile = .ok control)
    (h : TargetControlProgramVerifier.verifyNodeIssue dfg target control event = .ok true) :
    CarriesIssue dfg target controls id tile := by
  unfold TargetControlProgramVerifier.verifyNodeIssue at h
  simp only [hnode] at h
  split at h
  · cases h
  rename_i node hfound
  split at h
  · cases h
  rename_i operation hoperation
  split at h
  · cases h
  rename_i encoding hencoding
  rw [Except.ok.injEq, beq_iff_eq] at h
  exact ⟨node, operation, encoding, control, hfound, hoperation, hencoding, hcontrol, h⟩

/-- **Node issues.** -/
theorem carried_issue_iff (hii : schedule.ii = mapping.staged.modulo.ii)
    (hkind : event.kind = .nodeIssue)
    (hchecked :
      MaterializedScheduleVerifier.verifyNodeIssue dfg mapping request schedule event cycle
        = .ok (recorded, []))
    (h : TargetControlProgramVerifier.verifyEvent dfg target mapping controls event = .ok true) :
    Carried dfg target mapping controls event ↔ LookedUp dfg target mapping controls event := by
  obtain ⟨-, node, -, hnode, time, htime, -⟩ := verifyNodeIssue_clean hii hchecked
  obtain ⟨placement, -, hplacement, -⟩ := StagedMapping.logicalIssueTime_eq_ok htime
  obtain ⟨tile, control, htile, hcontrol, hlook⟩ := control_of_verifyEvent h (by simp [hkind])
  simp only [verifyControl, hkind] at hlook
  have hissue := carriesIssue_of_verifyNodeIssue hnode hcontrol hlook
  simp only [Carried, LookedUp, hkind]
  constructor
  · rintro ⟨id, placement', hid, hplacement', hcarries⟩ id' placement'' hid' hplacement''
    obtain rfl := Option.some.inj (hid.symm.trans hid')
    obtain rfl := Except.ok.inj (hplacement'.symm.trans hplacement'')
    exact .inr (.inr hcarries)
  · intro hlooked
    refine ⟨node.id, placement, hnode, hplacement, ?_⟩
    rcases hlooked node.id placement hnode hplacement with hnone | hsome | hcarries
    · -- without a tile the verifier looks at the placement
      rw [eventTile, hnone, hkind, hnode] at htile
      simp only [hplacement, Lowerer.ofString, Except.map, Except.ok.injEq, Option.some.injEq]
        at htile
      rwa [htile]
    · rw [eventTile_of_tile hsome, Except.ok.injEq, Option.some.injEq] at htile
      rwa [htile]
    · exact hcarries

/-- A checked launch is the mapped action, at its source. -/
theorem launch_geometry (hii : schedule.ii = mapping.staged.modulo.ii) (hv : dfg.Verified target)
    (hchecked :
      MaterializedScheduleVerifier.verifyLinkLaunch dfg mapping request schedule event cycle
        = .ok (recorded, [])) :
    ∃ edge dependence plan action link time,
      Launch dfg mapping request schedule event cycle edge dependence plan action link time ∧
      event.domain = some link.domain ∧ event.tile = some link.source ∧
      event.direction = some link.direction := by
  obtain ⟨-, edge, dependence, plan, action, link, time, hlaunch⟩ :=
    verifyLinkLaunch_clean hii hchecked
  refine ⟨edge, dependence, plan, action, link, time, hlaunch, ?_⟩
  unfold MaterializedScheduleVerifier.verifyLinkLaunch at hchecked
  rw [if_neg (by simp [hlaunch.edge_eq])] at hchecked
  simp only [hlaunch.edge_eq, Option.bind_some, hv.findEdge_of_mem hlaunch.mem, hlaunch.action_eq,
    hlaunch.kind, if_false, hlaunch.dependence_eq, hlaunch.transport_eq,
      hlaunch.link_eq] at hchecked
  unfold verifyLink at hchecked
  split at hchecked
  · cases hchecked
  · simp only [Except.ok.injEq, Prod.mk.injEq, List.append_eq_nil_iff, require_eq_nil_iff,
      Bool.and_eq_true, beq_iff_eq] at hchecked
    obtain ⟨-, ⟨⟨⟨hdomain, htile⟩, hdirection⟩, -⟩, -⟩ := hchecked
    exact ⟨hdomain, htile, hdirection⟩

/-- **Link launches** are always carried. -/
theorem carried_launch (hii : schedule.ii = mapping.staged.modulo.ii) (hv : dfg.Verified target)
    (hkind : event.kind = .linkLaunch)
    (hchecked :
      MaterializedScheduleVerifier.verifyLinkLaunch dfg mapping request schedule event cycle
        = .ok (recorded, []))
    (h : TargetControlProgramVerifier.verifyEvent dfg target mapping controls event = .ok true) :
    Carried dfg target mapping controls event := by
  obtain ⟨edge, dependence, plan, action, link, time, hlaunch, hdomain, htile, hdirection⟩ :=
    launch_geometry hii hv hchecked
  obtain ⟨tile, control, hlookup, hcontrol, hlook⟩ := control_of_verifyEvent h (by simp [hkind])
  rw [eventTile_of_tile htile, Except.ok.injEq, Option.some.injEq] at hlookup
  subst hlookup
  simp only [verifyControl, hkind, Except.ok.injEq,
    TargetControlProgramVerifier.verifyLinkLaunch, hdomain, hdirection, Bool.and_eq_true,
    bne_iff_ne] at hlook
  simp only [Carried, hkind]
  exact ⟨edge.id, dependence, plan, action, link, control, hlaunch.edge_eq, hlaunch.action_eq,
    hlaunch.dependence_eq, hlaunch.transport_eq, hlaunch.link_eq, hcontrol, hlook.1, hlook.2⟩

/-- The look at a register access of an accepted schedule is at the tile of its segment. -/
theorem access_look {segment : StorageSegment} {edge : TargetEdge} {allocation : StorageAllocation}
    (haccess : Access dfg mapping request schedule event cycle segment edge allocation)
    (hkind : event.kind ≠ .liveOutBoundaryUse)
    (h : TargetControlProgramVerifier.verifyEvent dfg target mapping controls event = .ok true) :
    findSegment mapping segment.id = .ok segment ∧ ∃ control,
      controlAt target controls segment.tile = .ok control ∧
      verifyControl dfg target mapping control event = .ok true := by
  obtain ⟨tile, control, hlookup, hcontrol, hlook⟩ := control_of_verifyEvent h hkind
  rw [eventTile_of_tile haccess.tile_eq, Except.ok.injEq, Option.some.injEq] at hlookup
  subst hlookup
  refine ⟨?_, control, hcontrol, hlook⟩
  rw [findSegment, haccess.found]

/-- **Register reads** are always carried. -/
theorem carried_read (hii : schedule.ii = mapping.staged.modulo.ii) (hkind : event.kind = .rfRead)
    (hchecked : verifyRFAccess dfg mapping request schedule event cycle = (recorded, []))
    (h : TargetControlProgramVerifier.verifyEvent dfg target mapping controls event = .ok true) :
    Carried dfg target mapping controls event := by
  obtain ⟨-, segment, edge, allocation, haccess⟩ := verifyRFAccess_clean hii hchecked
  obtain ⟨hfound, control, hcontrol, hlook⟩ := access_look haccess (by simp [hkind]) h
  simp only [verifyControl, hkind, verifyRFRead, haccess.register_eq, haccess.segment_eq, hfound,
    Except.ok.injEq, Bool.and_eq_true, Bool.or_eq_true, beq_iff_eq] at hlook
  simp only [Carried, hkind]
  exact ⟨segment, allocation, control, hfound, haccess.segment_eq, haccess.allocation_eq, hcontrol,
    hlook.2⟩

/-- **Register writes** are carried unless a lone port is elsewhere. -/
theorem carried_write_iff (hii : schedule.ii = mapping.staged.modulo.ii)
    (hkind : event.kind = .rfWrite)
    (hchecked : verifyRFAccess dfg mapping request schedule event cycle = (recorded, []))
    (h : TargetControlProgramVerifier.verifyEvent dfg target mapping controls event = .ok true) :
    Carried dfg target mapping controls event ↔ LookedUp dfg target mapping controls event := by
  obtain ⟨-, segment, edge, allocation, haccess⟩ := verifyRFAccess_clean hii hchecked
  obtain ⟨hfound, control, hcontrol, hlook⟩ := access_look haccess (by simp [hkind]) h
  simp only [verifyControl, hkind, verifyRFWrite, haccess.register_eq, haccess.segment_eq, hfound]
    at hlook
  split at hlook
  · cases hlook
  simp only [Except.ok.injEq, Bool.and_eq_true] at hlook
  have hports := portEnabledAt_iff hlook.2
  simp only [Carried, LookedUp, hkind]
  constructor
  · rintro ⟨segment', allocation', control', hfound', hsegment', hallocation', hcontrol', henabled⟩
    intro segment'' register tile control'' hsegment'' hfound'' hregister htile hcontrol''
    -- the event names one segment, one register and one tile
    have hid : segment'.id = segment''.id := by
      rw [← Option.some_inj, ← hsegment', hsegment'']
    rw [hid] at hfound' hallocation'
    obtain rfl := Except.ok.inj (hfound'.symm.trans hfound'')
    have hid' : segment'.id = segment.id := by
      rw [← Option.some_inj, ← hsegment', haccess.segment_eq]
    rw [hid'] at hfound' hallocation'
    obtain rfl := Except.ok.inj (hfound'.symm.trans hfound)
    obtain rfl := Option.some.inj (hallocation'.symm.trans haccess.allocation_eq)
    obtain rfl := Option.some.inj (htile.symm.trans haccess.tile_eq)
    obtain rfl := Except.ok.inj (hcontrol''.symm.trans hcontrol)
    obtain rfl := Option.some.inj (hregister.symm.trans haccess.register_eq)
    obtain rfl := Except.ok.inj (hcontrol'.symm.trans hcontrol)
    exact hports.mp henabled
  · intro hlooked
    refine ⟨segment, allocation, control, hfound, haccess.segment_eq, haccess.allocation_eq,
      hcontrol, hports.mpr ?_⟩
    exact hlooked segment allocation.reg segment.tile control haccess.segment_eq hfound
      haccess.register_eq haccess.tile_eq hcontrol

/-- **An event that both verifiers have checked** is carried exactly if no look has missed. -/
theorem carried_iff_lookedUp (hii : schedule.ii = mapping.staged.modulo.ii)
    (hv : dfg.Verified target)
    (hchecked : event.kind ≠ .boundaryValueInject → event.kind ≠ .liveOutBoundaryUse →
      ∃ cycle recorded, verifyPeriodic dfg mapping request schedule event cycle
        = .ok (recorded, []))
    (h : TargetControlProgramVerifier.verifyEvent dfg target mapping controls event = .ok true) :
    Carried dfg target mapping controls event ↔ LookedUp dfg target mapping controls event := by
  cases hkind : event.kind with
  | nodeIssue =>
    obtain ⟨cycle, recorded, hperiodic⟩ := hchecked (by simp [hkind]) (by simp [hkind])
    simp only [verifyPeriodic, hkind] at hperiodic
    exact carried_issue_iff hii hkind hperiodic h
  | linkLaunch =>
    obtain ⟨cycle, recorded, hperiodic⟩ := hchecked (by simp [hkind]) (by simp [hkind])
    simp only [verifyPeriodic, hkind] at hperiodic
    exact iff_of_true (carried_launch hii hv hkind hperiodic h) (by simp [LookedUp, hkind])
  | rfRead =>
    obtain ⟨cycle, recorded, hperiodic⟩ := hchecked (by simp [hkind]) (by simp [hkind])
    simp only [verifyPeriodic, hkind, Except.ok.injEq] at hperiodic
    exact iff_of_true (carried_read hii hkind hperiodic h) (by simp [LookedUp, hkind])
  | rfWrite =>
    obtain ⟨cycle, recorded, hperiodic⟩ := hchecked (by simp [hkind]) (by simp [hkind])
    simp only [verifyPeriodic, hkind, Except.ok.injEq] at hperiodic
    exact carried_write_iff hii hkind hperiodic h
  | boundaryValueInject => simp [Carried, LookedUp, hkind]
  | liveOutBoundaryUse => simp [Carried, LookedUp, hkind]

end Event

/-! ## The equivalence -/

section Equivalence

variable {codec : ControlCodec} {dfg : TargetDFG} {target : TargetModel}
variable {mapping : RFAllocatedMapping} {request : ScheduleMaterializationRequest}
variable {schedule : MaterializedSchedule} {program : TargetControlProgram}

/-- The events of the phases of an accepted schedule have been checked. -/
theorem periodic_checked (h : Accepted dfg target mapping request schedule)
    {event : MaterializedEvent} {bundle : CycleBundle} (hevent : event ∈ bundle.events)
    (hbundle : bundle ∈ schedule.prologue.cycles ∨ bundle ∈ schedule.kernel.body ∨
      bundle ∈ schedule.epilogue.cycles)
    (hinject : event.kind ≠ .boundaryValueInject) (huse : event.kind ≠ .liveOutBoundaryUse) :
    ∃ cycle recorded, verifyPeriodic dfg mapping request schedule event cycle
      = .ok (recorded, []) := by
  have hexplicit : ∀ {base : ℕ} {cycles : List CycleBundle}, bundle ∈ cycles →
      (∀ item ∈ timed base cycles, item ∈ schedule.explicitEvents) →
      ∃ cycle recorded, verifyPeriodic dfg mapping request schedule event cycle
        = .ok (recorded, []) := by
    intro base cycles hmem hall
    obtain ⟨index, hindex⟩ := List.mem_iff_getElem?.mp hmem
    have hitem : (base + index, event) ∈ timed base cycles :=
      mem_timed_iff.mpr ⟨bundle, by simpa using hindex, Nat.le_add_right _ _, hevent⟩
    obtain ⟨seen, recorded, hchecked⟩ := h.explicit_checked (hall _ hitem)
    refine ⟨base + index, recorded, ?_⟩
    rw [MaterializedScheduleVerifier.verifyEvent] at hchecked
    split at hchecked
    · exact absurd ‹_› hinject
    · exact absurd ‹_› huse
    · exact hchecked
  rcases hbundle with hbundle | hbundle | hbundle
  · exact hexplicit hbundle fun item hitem ↦ List.mem_append_left _ hitem
  · obtain ⟨index, hindex⟩ := List.mem_iff_getElem?.mp hbundle
    have hitem : (schedule.prologue.cycles.length + index, event) ∈ schedule.kernelEvents :=
      mem_timed_iff.mpr ⟨bundle, by simpa using hindex, Nat.le_add_right _ _, hevent⟩
    obtain ⟨-, -, recorded, hchecked⟩ := h.kernel_checked hitem
    exact ⟨_, recorded, hchecked⟩
  · exact hexplicit hbundle fun item hitem ↦ List.mem_append_right _ hitem

/-- A phase is carried exactly if no look at it has missed. -/
theorem phaseCarried_iff (h : Accepted dfg target mapping request schedule)
    {cycles : List CycleBundle} {phase : List (List TileControl)}
    (hcycles : ∀ bundle ∈ cycles, bundle ∈ schedule.prologue.cycles ∨
      bundle ∈ schedule.kernel.body ∨ bundle ∈ schedule.epilogue.cycles)
    (hphase : verifyPhase dfg target mapping cycles phase = .ok true) :
    PhaseCarried dfg target mapping cycles phase ↔
      PhaseLookedUp dfg target mapping cycles phase := by
  refine forall₃_congr fun event controls hunder ↦ ?_
  have hlook := (verifyPhase_iff.mp hphase).2 event controls hunder
  obtain ⟨i, bundle, hcycle, -, hevent⟩ := hunder
  have hchecked : event.kind ≠ .boundaryValueInject → event.kind ≠ .liveOutBoundaryUse →
      ∃ cycle recorded, verifyPeriodic dfg mapping request schedule event cycle
        = .ok (recorded, []) :=
    periodic_checked h hevent (hcycles bundle (List.mem_of_getElem? hcycle))
  exact carried_iff_lookedUp h.ii_eq h.graph hchecked hlook

/-- **When an accepted program represents its schedule.** For every schedule its verifier accepts
and every control program accepted for it, the program carries every event of the schedule, in
phases as long as those of the schedule, exactly if no look of the verifier misses and the program
does not go on after the schedule. -/
theorem represents_iff (codec : ControlCodec) (dfg : TargetDFG) (target : TargetModel)
    (mapping : RFAllocatedMapping) (request : ScheduleMaterializationRequest)
    (schedule : MaterializedSchedule) (program : TargetControlProgram)
    (hschedule : MaterializedScheduleVerifier.verify dfg target mapping request schedule = .ok [])
    (hprogram : TargetControlProgramVerifier.verify codec dfg target mapping schedule program
      = .ok none) :
    Represents dfg target mapping schedule program ↔
      FullyChecked dfg target mapping schedule program := by
  have haccepted := accepted_of_verify hschedule
  obtain ⟨⟨hii, -⟩, ⟨-, -, hlength, -⟩, -, hprologue, hkernel, hepilogue⟩ :=
    verify_eq_ok_none_iff.mp hprogram
  have hpos : 0 < schedule.ii := haccepted.ii_eq ▸ haccepted.allocated.staged.ii_pos
  have hcycles : schedule.kernel.repeatCount * schedule.kernel.body.length
      = schedule.kernel.repeatCount * schedule.ii := by
    rcases Nat.eq_zero_or_pos schedule.kernel.repeatCount with hzero | hrepeat
    · rw [hzero, Nat.zero_mul, Nat.zero_mul]
    · rw [haccepted.shape.2 hrepeat.ne']
  have hrepeat : program.kernelRepeatCount * program.kernelBody.length
        = schedule.kernel.repeatCount * schedule.kernel.body.length ↔
      program.kernelRepeatCount = schedule.kernel.repeatCount := by
    rw [hcycles, hlength, hii]
    exact Nat.mul_left_inj hpos.ne'
  have hprologue_iff := phaseCarried_iff haccepted (fun _ h ↦ .inl h) hprologue
  have hkernel_iff := phaseCarried_iff haccepted (fun _ h ↦ .inr (.inl h)) hkernel
  have hepilogue_iff := phaseCarried_iff haccepted (fun _ h ↦ .inr (.inr h)) hepilogue
  constructor
  · intro h
    exact ⟨hprologue_iff.mp h.prologue, hkernel_iff.mp h.kernel, hepilogue_iff.mp h.epilogue,
      h.prologue_length.le, hrepeat.mp h.kernel_length, h.epilogue_length.le⟩
  · intro h
    exact ⟨hprologue_iff.mpr h.prologue, hkernel_iff.mpr h.kernel, hepilogue_iff.mpr h.epilogue,
      le_antisymm h.prologue_le (verifyPhase_iff.mp hprologue).1, hrepeat.mpr h.repeatCount_eq,
      le_antisymm h.epilogue_le (verifyPhase_iff.mp hepilogue).1⟩

end Equivalence

/-! ### The delay line's program, written elsewhere

The lowered program writes the value that waits on the delay line into register 0. With register 9
in its place the program is accepted as well. -/

/-- The controls of sixteen tiles, idle but for those listed. -/
def delayLineCycle (controls : List (ℕ × TileControl)) : List TileControl :=
  controls.foldl (fun cycle entry ↦ cycle.set entry.1 entry.2) (List.replicate 16 {})

def passEast (source : String) : List RouteControl :=
  [{}, {}, ⟨true, source⟩, {}]

/-- The program of the delay line, with the address its register bank is written at. -/
def delayLineProgram (address : ℕ) : TargetControlProgram where
  ii := 2
  tripCount := 3
  prologue :=
    [delayLineCycle [(0, { constantAddr := 1, dataRoutes := passEast "CONST_DATA" })],
      delayLineCycle [(1, { dataRoutes := passEast "WEST_DATA_IN" })]]
  kernelBody :=
    [delayLineCycle
      [(0, { op := "PASS", srcA := "CONST_DATA", dataRoutes := passEast "FU_DATA_RESULT" }),
        (2, { dataWrite1Enable := true, dataWrite1Addr := address
              dataWrite1Source := "CONST_DATA", constantAddr := 1 })],
      delayLineCycle
        [(1, { dataRoutes := passEast "WEST_DATA_IN" }), (2, { op := "PASS", srcA := "RF_A" })]]
  kernelRepeatCount := 2
  epilogue :=
    [delayLineCycle
      [(0, { op := "PASS", srcA := "CONST_DATA" }),
        (2, { dataWrite1Enable := true, dataWrite1Addr := address
              dataWrite1Source := "WEST_DATA_IN" })],
      delayLineCycle [(2, { op := "PASS", srcA := "RF_A" })], delayLineCycle []]

example : Lowerer.run delayLineDFG shippedTarget delayLineAllocated delayLineSchedule delayLineImage
    = .ok (delayLineProgram 0) := by
  decide

theorem delayLineSchedule_accepted :
    MaterializedScheduleVerifier.verify delayLineDFG shippedTarget delayLineAllocated
      { tripCount := 3 } delayLineSchedule = .ok [] :=
  (ScheduleMaterializer.materialize_eq_ok delayLineSchedule_materialized).2

theorem delayLineProgram_accepted :
    TargetControlProgramVerifier.verify shippedCodec delayLineDFG shippedTarget delayLineAllocated
      delayLineSchedule (delayLineProgram 9) = .ok none := by
  refine verify_eq_ok_none_iff.mpr ⟨by decide, by decide, ?_, ?_, ?_, ?_⟩
  · have hfits : ∀ controls ∈ (delayLineProgram 9).prologue ++ (delayLineProgram 9).kernelBody
          ++ (delayLineProgram 9).epilogue, ∀ control ∈ controls,
        ∀ field ∈ shippedControlLayout.fields, shippedCodec.fits control field = true := by
      decide
    apply encodingError_eq_none_iff.mpr
    intro controls hcontrols control hcontrol
    exact shippedCodec_encodes (hfits controls hcontrols control hcontrol)
  · decide
  · decide
  · decide

/-- The write of the waiting value, in the kernel. -/
def delayLineWrite : MaterializedEvent :=
  { kind := .rfWrite, logicalIteration := -1, edge := some 0, segment := some 0
    domain := some .data, tile := some ⟨0, 2⟩, physicalRegister := some ⟨⟨0, 2⟩, "data_rf", 0⟩ }

theorem delayLineWrite_happens : ∃ controls, HappensUnder delayLineSchedule.kernel.body
    (delayLineProgram 9).kernelBody delayLineWrite controls ∧
      controlAt shippedTarget controls ⟨0, 2⟩ = .ok
        { dataWrite1Enable := true, dataWrite1Addr := 9, dataWrite1Source := "CONST_DATA"
          constantAddr := 1 } :=
  ⟨_, ⟨0, _, rfl, rfl, by decide⟩, by decide⟩

/-- The program that writes register 9 is accepted, and the write of register 0 is in none of its
controls. -/
theorem misaddressed_write_accepted :
    MaterializedScheduleVerifier.verify delayLineDFG shippedTarget delayLineAllocated
        { tripCount := 3 } delayLineSchedule = .ok [] ∧
      TargetControlProgramVerifier.verify shippedCodec delayLineDFG shippedTarget
        delayLineAllocated delayLineSchedule (delayLineProgram 9) = .ok none ∧
      ¬ Represents delayLineDFG shippedTarget delayLineAllocated delayLineSchedule
        (delayLineProgram 9) := by
  refine ⟨delayLineSchedule_accepted, delayLineProgram_accepted, ?_⟩
  intro h
  obtain ⟨controls, hunder, hcontrol⟩ := delayLineWrite_happens
  obtain ⟨segment, allocation, control, hsegment, hid, hallocation, hat, hport⟩ :=
    h.kernel delayLineWrite controls hunder
  obtain hid : 0 = segment.id := Option.some.inj hid
  rw [← hid] at hsegment hallocation
  obtain rfl := Except.ok.inj hsegment
  obtain rfl := Option.some.inj hallocation
  obtain rfl := Except.ok.inj (hcontrol.symm.trans hat)
  revert hport
  unfold PortEnabledAt
  decide

/-- The lone port of the bank is elsewhere. -/
theorem misaddressed_write_not_represented :
    ¬ Represents delayLineDFG shippedTarget delayLineAllocated delayLineSchedule
      (delayLineProgram 9) := by
  rw [represents_iff shippedCodec _ _ _ { tripCount := 3 } _ _ delayLineSchedule_accepted
    delayLineProgram_accepted]
  intro h
  obtain ⟨controls, hunder, hcontrol⟩ := delayLineWrite_happens
  have hlooked := h.kernel delayLineWrite controls hunder
  refine hlooked ⟨0, 0, ⟨0, 2⟩, .data, 2, 3, [⟨.terminalSlack, 0, none⟩]⟩ ⟨⟨0, 2⟩, "data_rf", 0⟩
    ⟨0, 2⟩ _ rfl rfl rfl rfl hcontrol ?_
  unfold LonePortElsewhere PortEnabledAt
  decide

end PredicatedMesh
