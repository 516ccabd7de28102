import PredicatedMesh.Lowering.ControlVerifier

/-!
# Lowering to an encoded program

`TargetLowering.lower` verifies its inputs, lowers the schedule, verifies the controls and encodes
them. Its success is a chain of successes, which `lower_eq_ok` takes apart.
-/

namespace PredicatedMesh

/-- The words of a control program. -/
structure EncodedTargetProgram where
  prologue : List (List EncodedControl)
  kernelBody : List (List EncodedControl)
  kernelRepeatCount : ℕ
  epilogue : List (List EncodedControl)
  deriving DecidableEq

/-- The result of a successful lowering. -/
structure LoweredProgram where
  controls : TargetControlProgram
  encoded : EncodedTargetProgram
  constantImage : ConstantImage
  deriving DecidableEq

namespace TargetLowering

section Lower

variable (codec : ControlCodec) (dfg : TargetDFG) (target : TargetModel)
variable (mapping : RFAllocatedMapping) (schedule : MaterializedSchedule)

/-- Encode a control whose word decodes to a control of the same word. -/
def encodeControl (control : TileControl) : Except LoweringError EncodedControl := do
  let bits ← Lowerer.ofString (codec.encode control)
  let decoded ← Lowerer.ofString (codec.decode bits)
  let roundTrip ← Lowerer.ofString (codec.encode decoded)
  if roundTrip ≠ bits then
    .error ⟨.controlEncodingFailure, "generated control failed encode/decode round trip"⟩
  else return bits

def encodeProgram (program : TargetControlProgram) : Except LoweringError EncodedTargetProgram := do
  let prologue ← program.prologue.mapM fun controls ↦ controls.mapM (encodeControl codec)
  let body ← program.kernelBody.mapM fun controls ↦ controls.mapM (encodeControl codec)
  let epilogue ← program.epilogue.mapM fun controls ↦ controls.mapM (encodeControl codec)
  return ⟨prologue, body, program.kernelRepeatCount, epilogue⟩

/-- The verifier of an input has found nothing. -/
def requireClean {δ : Type} (report : Except String (List δ)) (error : LoweringError) :
    Except LoweringError Unit := do
  let diagnostics ← Lowerer.ofString report
  if diagnostics.isEmpty then return () else .error error

def allocateConstants : Except LoweringError ConstantImage :=
  match ConstantAllocator.allocate dfg target with
  | .error message => .error ⟨.constantCapacityExceeded, message⟩
  | .ok image => .ok image

def verifyControls (program : TargetControlProgram) : Except LoweringError Unit := do
  match ← TargetControlProgramVerifier.verify codec dfg target mapping schedule program with
  | some message => .error ⟨.verificationFailure, message⟩
  | none => return ()

def lower : Except LoweringError LoweredProgram := do
  requireClean (.ok (TargetDFGVerifier.verify dfg target))
    ⟨.invalidTargetDFG, "TargetDFG verification failed"⟩
  requireClean (RFAllocationVerifier.verify dfg target mapping)
    ⟨.invalidRFAllocatedMapping, "RF allocation verification failed"⟩
  requireClean (MaterializedScheduleVerifier.verify dfg target mapping
      { tripCount := schedule.tripCount } schedule)
    ⟨.invalidMaterializedSchedule, "materialized schedule verification failed"⟩
  let image ← allocateConstants dfg target
  let controls ← Lowerer.run dfg target mapping schedule image
  verifyControls codec dfg target mapping schedule controls
  let encoded ← encodeProgram codec controls
  return ⟨controls, encoded, image⟩

end Lower

variable {codec : ControlCodec} {dfg : TargetDFG} {target : TargetModel}
variable {mapping : RFAllocatedMapping} {schedule : MaterializedSchedule}

/-- A program is encoded if each of its controls is. -/
theorem encodeProgram_isOk_iff {program : TargetControlProgram} :
    (∃ encoded, encodeProgram codec program = .ok encoded) ↔
      ∀ controls ∈ program.prologue ++ program.kernelBody ++ program.epilogue,
        ∀ control ∈ controls, ∃ word, encodeControl codec control = .ok word := by
  constructor
  · rintro ⟨encoded, h⟩ controls hmem control hcontrol
    obtain ⟨prologue, hprologue, h⟩ := Scan.bind_eq_ok.mp h
    obtain ⟨body, hbody, h⟩ := Scan.bind_eq_ok.mp h
    obtain ⟨epilogue, hepilogue, -⟩ := Scan.bind_eq_ok.mp h
    have hcycle : ∃ words, controls.mapM (encodeControl codec) = .ok words := by
      rcases List.mem_append.mp hmem with hmem | hmem
      · rcases List.mem_append.mp hmem with hmem | hmem
        · obtain ⟨words, -, hwords⟩ := Scan.exists_result_of_mem hprologue hmem
          exact ⟨words, hwords⟩
        · obtain ⟨words, -, hwords⟩ := Scan.exists_result_of_mem hbody hmem
          exact ⟨words, hwords⟩
      · obtain ⟨words, -, hwords⟩ := Scan.exists_result_of_mem hepilogue hmem
        exact ⟨words, hwords⟩
    obtain ⟨words, hwords⟩ := hcycle
    obtain ⟨word, -, hword⟩ := Scan.exists_result_of_mem hwords hcontrol
    exact ⟨word, hword⟩
  · intro h
    have hphase : ∀ phase : List (List TileControl),
        (∀ controls ∈ phase, controls ∈ program.prologue ++ program.kernelBody
          ++ program.epilogue) →
        ∃ words, phase.mapM (fun controls ↦ controls.mapM (encodeControl codec)) = .ok words :=
      fun phase hphase ↦ Scan.exists_mapM fun controls hcontrols ↦
        Scan.exists_mapM fun control hmem ↦ h controls (hphase controls hcontrols) control hmem
    obtain ⟨prologue, hprologue⟩ := hphase program.prologue fun _ h ↦
      List.mem_append_left _ (List.mem_append_left _ h)
    obtain ⟨body, hbody⟩ := hphase program.kernelBody fun _ h ↦
      List.mem_append_left _ (List.mem_append_right _ h)
    obtain ⟨epilogue, hepilogue⟩ := hphase program.epilogue fun _ h ↦ List.mem_append_right _ h
    refine ⟨⟨prologue, body, program.kernelRepeatCount, epilogue⟩, ?_⟩
    refine Scan.bind_eq_ok.mpr ⟨prologue, hprologue, ?_⟩
    refine Scan.bind_eq_ok.mpr ⟨body, hbody, ?_⟩
    exact Scan.bind_eq_ok.mpr ⟨epilogue, hepilogue, rfl⟩

/-- A codec that decodes what it encodes encodes a program all of whose controls have a word. -/
theorem exists_encodeProgram (hcodec : ∀ control : TileControl, control.Shaped → ∀ word,
      codec.encode control = .ok word → codec.decode word = .ok control)
    {program : TargetControlProgram}
    (h : ∀ controls ∈ program.prologue ++ program.kernelBody ++ program.epilogue,
      ∀ control ∈ controls, control.Shaped ∧ ∃ word, codec.encode control = .ok word) :
    ∃ encoded, encodeProgram codec program = .ok encoded := by
  rw [encodeProgram_isOk_iff]
  intro controls hcontrols control hcontrol
  obtain ⟨hshaped, word, hword⟩ := h controls hcontrols control hcontrol
  refine ⟨word, Scan.bind_eq_ok.mpr ⟨word, by rw [hword]; rfl, ?_⟩⟩
  have hdecode := hcodec control hshaped word hword
  refine Scan.bind_eq_ok.mpr ⟨control, by rw [hdecode]; rfl, ?_⟩
  exact Scan.bind_eq_ok.mpr ⟨word, by rw [hword]; rfl, if_neg (not_not.mpr rfl)⟩

theorem requireClean_eq_ok_iff {δ : Type} {report : Except String (List δ)}
    {error : LoweringError} {u : Unit} :
    requireClean report error = .ok u ↔ report = .ok [] := by
  unfold requireClean
  rw [Scan.bind_eq_ok]
  constructor
  · rintro ⟨diagnostics, hreport, h⟩
    split at h
    · rename_i hempty
      rw [List.isEmpty_iff] at hempty
      subst hempty
      cases report with
      | error e => cases hreport
      | ok diagnostics => rw [Except.ok.inj hreport]
    · cases h
  · rintro rfl
    exact ⟨[], rfl, rfl⟩

theorem verifyControls_eq_ok_iff {program : TargetControlProgram} {u : Unit} :
    verifyControls codec dfg target mapping schedule program = .ok u ↔
      TargetControlProgramVerifier.verify codec dfg target mapping schedule program
        = .ok none := by
  unfold verifyControls
  rw [Scan.bind_eq_ok]
  constructor
  · rintro ⟨result, hresult, h⟩
    cases result with
    | some message => cases h
    | none => exact hresult
  · intro h
    exact ⟨none, h, rfl⟩

/-- **A success**, step by step. -/
theorem lower_eq_ok_iff {result : LoweredProgram} :
    lower codec dfg target mapping schedule = .ok result ↔
      TargetDFGVerifier.verify dfg target = [] ∧
      RFAllocationVerifier.verify dfg target mapping = .ok [] ∧
      MaterializedScheduleVerifier.verify dfg target mapping { tripCount := schedule.tripCount }
        schedule = .ok [] ∧
      allocateConstants dfg target = .ok result.constantImage ∧
      Lowerer.run dfg target mapping schedule result.constantImage = .ok result.controls ∧
      TargetControlProgramVerifier.verify codec dfg target mapping schedule result.controls
        = .ok none ∧
      encodeProgram codec result.controls = .ok result.encoded := by
  unfold lower
  constructor
  · intro h
    obtain ⟨_, hdfg, h⟩ := Scan.bind_eq_ok.mp h
    obtain ⟨_, hmapping, h⟩ := Scan.bind_eq_ok.mp h
    obtain ⟨_, hschedule, h⟩ := Scan.bind_eq_ok.mp h
    obtain ⟨image, himage, h⟩ := Scan.bind_eq_ok.mp h
    obtain ⟨controls, hrun, h⟩ := Scan.bind_eq_ok.mp h
    obtain ⟨_, hcontrols, h⟩ := Scan.bind_eq_ok.mp h
    obtain ⟨encoded, hencoded, h⟩ := Scan.bind_eq_ok.mp h
    obtain rfl := Except.ok.inj h
    exact ⟨Except.ok.inj (requireClean_eq_ok_iff.mp hdfg), requireClean_eq_ok_iff.mp hmapping,
      requireClean_eq_ok_iff.mp hschedule, himage, hrun, verifyControls_eq_ok_iff.mp hcontrols,
      hencoded⟩
  · rintro ⟨hdfg, hmapping, hschedule, himage, hrun, hcontrols, hencoded⟩
    refine Scan.bind_eq_ok.mpr ⟨(), requireClean_eq_ok_iff.mpr (by rw [hdfg]), ?_⟩
    refine Scan.bind_eq_ok.mpr ⟨(), requireClean_eq_ok_iff.mpr hmapping, ?_⟩
    refine Scan.bind_eq_ok.mpr ⟨(), requireClean_eq_ok_iff.mpr hschedule, ?_⟩
    refine Scan.bind_eq_ok.mpr ⟨_, himage, ?_⟩
    refine Scan.bind_eq_ok.mpr ⟨_, hrun, ?_⟩
    refine Scan.bind_eq_ok.mpr ⟨(), verifyControls_eq_ok_iff.mpr hcontrols, ?_⟩
    exact Scan.bind_eq_ok.mpr ⟨_, hencoded, rfl⟩

end TargetLowering

end PredicatedMesh
