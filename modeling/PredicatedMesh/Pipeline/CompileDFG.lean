import PredicatedMesh.Analysis.MII
import PredicatedMesh.Lowering.Manifest
import PredicatedMesh.Schedule.Materializer
import PredicatedMesh.Target.Legalizer

/-!
# The compile pipeline

The stages in turn, each followed by its verifier. The three searches in the middle, for a mapping,
a stage assignment and a register allocation, are parameters: what they return is verified before it
is used. The program that is emitted is the one lowering has returned.
-/

namespace PredicatedMesh

inductive CompileDFGStatus
  | genericDFGVerificationFailure
  | targetLegalizationFailure
  | targetDFGVerificationFailure
  | miiAnalysisFailure
  | mappingFailure
  | moduloMappingVerificationFailure
  | stageSchedulingFailure
  | stageVerificationFailure
  | rfAllocationFailure
  | rfVerificationFailure
  | materializationFailure
  | materializedScheduleVerificationFailure
  | targetLoweringFailure
  | targetControlVerificationFailure
  | internalError
  deriving DecidableEq, Repr

structure CompileDFGOptions where
  tripCount : ℕ := 1
  targetPath : String := ""
  materializationBudget : ScheduleMaterializationBudget := {}
  scratchpadPreload : List (ℕ × BitVec 32) := []
  programName : String := "compiled-dfg"

def CompileDFGOptions.lowering (options : CompileDFGOptions) : TargetLoweringOptions where
  programName := options.programName
  targetPath := options.targetPath
  observation := "compiler E2E scratchpad stores"
  scratchpadPreload := options.scratchpadPreload

/-- The searches of the pipeline. Each may find nothing, and may raise an exception. -/
structure Searches where
  map : TargetDFG → TargetModel → Except String (Option ModuloMapping)
  schedule : TargetDFG → TargetModel → ModuloMapping → Except String (Option StagedMapping)
  allocate : TargetDFG → TargetModel → StagedMapping → Except String (Option RFAllocatedMapping)

structure CompiledProgram where
  schedule : MaterializedSchedule
  lowered : LoweredProgram
  manifest : Json

namespace Pipeline

/-- An exception ends the pipeline. -/
def guarded {α : Type} : Except String α → Except CompileDFGStatus α
  | .error _ => .error .internalError
  | .ok a => .ok a

/-- A stage that has to find nothing. -/
def verified {δ : Type} (report : Except String (List δ)) (status : CompileDFGStatus) :
    Except CompileDFGStatus Unit := do
  let diagnostics ← guarded report
  if diagnostics.isEmpty then return () else .error status

/-- A stage that has to find something. -/
def found {α : Type} (result : Except String (Option α)) (status : CompileDFGStatus) :
    Except CompileDFGStatus α := do
  match ← guarded result with
  | none => .error status
  | some a => return a

def analyzed (result : MIIResult) : Except CompileDFGStatus Unit :=
  if result.status = .success then .ok () else .error .miiAnalysisFailure

def materialized {α : Type} : Except ScheduleMaterializationFailure α → Except CompileDFGStatus α
  | .error _ => .error .materializationFailure
  | .ok a => .ok a

def lowered {α : Type} : Except LoweringError α → Except CompileDFGStatus α
  | .error _ => .error .targetLoweringFailure
  | .ok a => .ok a

/-- The controls are verified once more after the lowering. -/
def controlsVerified : Except LoweringError (Option String) → Except CompileDFGStatus Unit
  | .error _ => .error .internalError
  | .ok (some _) => .error .targetControlVerificationFailure
  | .ok none => .ok ()

def compileGenericDFG (codec : ControlCodec) (searches : Searches) (dfg : DFG)
    (target : TargetModel) (options : CompileDFGOptions) :
    Except CompileDFGStatus CompiledProgram := do
  verified (.ok (DFGVerifier.verify dfg)) .genericDFGVerificationFailure
  let legalization ← guarded (TargetLegalizer.legalize dfg target)
  let targetDFG ← found
    (.ok (if legalization.ok then legalization.dfg else none)) .targetLegalizationFailure
  verified (.ok (TargetDFGVerifier.verify targetDFG target (some dfg)))
    .targetDFGVerificationFailure
  let mii ← guarded (MIIAnalyzer.analyze targetDFG target)
  analyzed mii
  let mapped ← found (searches.map targetDFG target) .mappingFailure
  verified (ModuloMappingVerifier.verify targetDFG target mapped) .moduloMappingVerificationFailure
  let staged ← found (searches.schedule targetDFG target mapped) .stageSchedulingFailure
  verified (StageAssignmentVerifier.verify targetDFG target staged) .stageVerificationFailure
  let allocated ← found (searches.allocate targetDFG target staged) .rfAllocationFailure
  verified (RFAllocationVerifier.verify targetDFG target allocated) .rfVerificationFailure
  let request : ScheduleMaterializationRequest :=
    ⟨options.tripCount, options.materializationBudget⟩
  let materialization ← guarded
    (ScheduleMaterializer.materialize targetDFG target allocated request)
  let schedule ← materialized materialization
  verified (MaterializedScheduleVerifier.verify targetDFG target allocated request schedule)
    .materializedScheduleVerificationFailure
  let (result, manifest) ← lowered (TargetLowering.lowerToManifest codec targetDFG target allocated
    schedule options.lowering)
  controlsVerified (TargetControlProgramVerifier.verify codec targetDFG target allocated schedule
    result.controls)
  return ⟨schedule, result, manifest⟩

/-- **What is emitted** has been lowered. -/
theorem compileGenericDFG_lowered {codec : ControlCodec} {searches : Searches} {dfg : DFG}
    {target : TargetModel} {options : CompileDFGOptions} {program : CompiledProgram}
    (h : compileGenericDFG codec searches dfg target options = .ok program) :
    ∃ targetDFG mapping, TargetLowering.lowerToManifest codec targetDFG target mapping
      program.schedule options.lowering = .ok (program.lowered, program.manifest) := by
  obtain ⟨_, -, h⟩ := Scan.bind_eq_ok.mp h
  obtain ⟨legalization, -, h⟩ := Scan.bind_eq_ok.mp h
  obtain ⟨targetDFG, -, h⟩ := Scan.bind_eq_ok.mp h
  obtain ⟨_, -, h⟩ := Scan.bind_eq_ok.mp h
  obtain ⟨mii, -, h⟩ := Scan.bind_eq_ok.mp h
  obtain ⟨_, -, h⟩ := Scan.bind_eq_ok.mp h
  obtain ⟨mapped, -, h⟩ := Scan.bind_eq_ok.mp h
  obtain ⟨_, -, h⟩ := Scan.bind_eq_ok.mp h
  obtain ⟨staged, -, h⟩ := Scan.bind_eq_ok.mp h
  obtain ⟨_, -, h⟩ := Scan.bind_eq_ok.mp h
  obtain ⟨allocated, -, h⟩ := Scan.bind_eq_ok.mp h
  obtain ⟨_, -, h⟩ := Scan.bind_eq_ok.mp h
  obtain ⟨materialization, -, h⟩ := Scan.bind_eq_ok.mp h
  obtain ⟨schedule, -, h⟩ := Scan.bind_eq_ok.mp h
  obtain ⟨_, -, h⟩ := Scan.bind_eq_ok.mp h
  obtain ⟨⟨result, manifest⟩, hlowered, h⟩ := Scan.bind_eq_ok.mp h
  obtain ⟨_, -, h⟩ := Scan.bind_eq_ok.mp h
  obtain rfl := Except.ok.inj h
  refine ⟨targetDFG, allocated, ?_⟩
  rcases hlower : TargetLowering.lowerToManifest codec targetDFG target allocated schedule
      options.lowering with error | both
  · rw [hlower] at hlowered
    cases hlowered
  · rw [hlower] at hlowered
    exact congrArg Except.ok (Except.ok.inj hlowered)

end Pipeline

end PredicatedMesh
