import Mathlib.Tactic

/-!
# The sequencer of the array

The top module has three states. In CONFIG it takes configuration writes, and a start moves it to
RUN; RUN walks the control memories and ends in DONE, which lasts one cycle. A run is either flat,
with a cycle count given at the start, or follows a loop descriptor that was committed before.

A descriptor is written field by field into shadow registers and takes effect when it is committed.
All registers are clocked together, so a step reads the registers of the cycle it ends: in
particular a commit and a start in the same cycle do not see each other.

Every slice of a tile's control word is gated by a register of its own, which is meant to be set
exactly in RUN. These registers are fed by a prediction of the next state, `nextRunActive`, made
apart from the state register itself.
-/

namespace PredicatedMesh.RTL

/-! ## Parameters -/

def arrayRows : ℕ := 4

def arrayCols : ℕ := 4

def tiles : ℕ := arrayRows * arrayCols

def ctrlMemDepth : ℕ := 256

def controlWidth : ℕ := 128

def runControlSliceWidth : ℕ := 16

/-- The gates of one control word. -/
def runControlReplicas : ℕ := controlWidth / runControlSliceWidth

/-! ## Interface -/

inductive CfgMemType
  | control
  | const
  | scratch
  | loopDesc
  deriving DecidableEq, Repr

/-- The inputs of a cycle after reset. -/
structure TopInputs where
  cfgValid : Bool := false
  cfgWe : Bool := false
  cfgMemType : CfgMemType := .control
  cfgTileRow : BitVec 8 := 0
  cfgTileCol : BitVec 8 := 0
  cfgAddr : BitVec 12 := 0
  cfgWordIdx : BitVec 2 := 0
  cfgWdata : BitVec 32 := 0
  start : Bool := false
  runCycles : BitVec 8 := 0
  deriving DecidableEq, Repr

/-! ## Registers -/

inductive TopStage
  | config
  | run
  | done
  deriving DecidableEq, Repr

inductive LoopPhase
  | flat
  | prologue
  | kernel
  | epilogue
  deriving DecidableEq, Repr

/-- The registers a loop descriptor is written to. -/
structure LoopRegisters where
  prologueShadow : BitVec 32 := 0
  iiShadow : BitVec 32 := 0
  tripCountShadow : BitVec 32 := 0
  epilogueShadow : BitVec 32 := 0
  shadowValid : BitVec 4 := 0
  prologueCycles : BitVec 32 := 0
  iiCycles : BitVec 32 := 0
  tripCount : BitVec 32 := 0
  epilogueCycles : BitVec 32 := 0
  committed : Bool := false
  deriving DecidableEq, Repr

/-- The registers of the state machine. -/
structure SequencerRegisters where
  stage : TopStage := .config
  kernelPc : BitVec 8 := 0
  cyclesLeft : BitVec 8 := 0
  loopPhase : LoopPhase := .flat
  loopPhaseCount : BitVec 32 := 0
  loopIterationsLeft : BitVec 32 := 0
  loopIteration : BitVec 32 := 0
  loopKernelSlot : BitVec 8 := 0
  deriving DecidableEq, Repr

/-- All registers; the defaults are their reset values. -/
structure TopState where
  loop : LoopRegisters := {}
  seq : SequencerRegisters := {}
  /-- The gate of each slice of each tile's control word. -/
  runActive : Fin tiles → Fin runControlReplicas → Bool := fun _ _ ↦ false

/-! ## Combinational logic -/

section Combinational

variable (s : TopState) (u : TopInputs)

def loopDescriptorValid (prologueCycles iiCycles tripCount epilogueCycles : BitVec 32) : Bool :=
  iiCycles ≠ 0 ∧ tripCount ≠ 0 ∧
    prologueCycles.toNat + iiCycles.toNat + epilogueCycles.toNat ≤ ctrlMemDepth

def cfgInBounds : Bool := u.cfgTileRow.toNat < arrayRows ∧ u.cfgTileCol.toNat < arrayCols

def cfgReady : Bool := s.seq.stage ≠ .run

def cfgAccept : Bool := u.cfgValid && cfgReady s && u.cfgWe && cfgInBounds u

def loopDescCfgAccept : Bool :=
  s.seq.stage = .config ∧ cfgAccept s u = true ∧ u.cfgMemType = .loopDesc ∧ u.cfgTileRow = 0 ∧
    u.cfgTileCol = 0 ∧ u.cfgWordIdx = 0 ∧ u.cfgAddr ≤ 4

/-- The last cycle of a run that follows the descriptor. -/
def loopLastCycle : Bool :=
  if s.loop.committed then
    match s.seq.loopPhase with
    | .kernel =>
      decide (s.seq.loopKernelSlot.setWidth 32 + 1 ≥ s.loop.iiCycles) &&
        decide (s.seq.loopIterationsLeft ≤ 1) && decide (s.loop.epilogueCycles = 0)
    | .epilogue => decide (s.seq.loopPhaseCount ≤ 1)
    | _ => false
  else false

/-- The prediction that feeds the gates. -/
def nextRunActive : Bool :=
  match s.seq.stage with
  | .config => u.start
  | .run =>
    !(if s.loop.committed then loopLastCycle s else decide (s.seq.cyclesLeft ≤ 1))
  | .done => false

/-- A simulation stops on a configuration the module forbids. The check that the gates agree with
the state is left out here: it is the subject of a theorem. -/
def fatal : Bool :=
  (u.cfgValid && cfgReady s && u.cfgWe && !cfgInBounds u) ||
  (u.cfgValid && u.cfgWe && u.cfgMemType == .loopDesc &&
    (s.seq.stage != .config || u.cfgTileRow != 0 || u.cfgTileCol != 0 || u.cfgWordIdx != 0 ||
      decide (u.cfgAddr > 4) || (u.cfgAddr == 4 && decide (u.cfgWdata > 1)))) ||
  (u.cfgValid && u.cfgWe && u.cfgMemType == .scratch &&
    (s.seq.stage != .config || u.cfgTileRow != 0 || u.cfgTileCol != 0 || u.cfgWordIdx != 0)) ||
  (loopDescCfgAccept s u && u.cfgAddr == 4 && u.cfgWdata != 0 &&
    (s.loop.shadowValid != 15 ||
      !loopDescriptorValid s.loop.prologueShadow s.loop.iiShadow s.loop.tripCountShadow
        s.loop.epilogueShadow))

/-- The slice of a control word that reaches the mesh. -/
def gatedControlSlice (controlMemReadData : Fin tiles → BitVec 128) (tile : Fin tiles)
    (replica : Fin runControlReplicas) : BitVec 16 :=
  if s.runActive tile replica then
    (controlMemReadData tile).extractLsb' (replica * runControlSliceWidth) 16
  else 0

end Combinational

/-! ## One clock edge -/

/-- An accepted write to the loop descriptor. -/
def writeLoopDesc (l : LoopRegisters) (u : TopInputs) : LoopRegisters :=
  match u.cfgAddr.toNat with
  | 0 => { l with prologueShadow := u.cfgWdata, shadowValid := l.shadowValid ||| 1 }
  | 1 => { l with iiShadow := u.cfgWdata, shadowValid := l.shadowValid ||| 2 }
  | 2 => { l with tripCountShadow := u.cfgWdata, shadowValid := l.shadowValid ||| 4 }
  | 3 => { l with epilogueShadow := u.cfgWdata, shadowValid := l.shadowValid ||| 8 }
  | 4 =>
    if u.cfgWdata = 0 then { l with committed := false }
    else if l.shadowValid ≠ 15 then { l with committed := false }
    else if loopDescriptorValid l.prologueShadow l.iiShadow l.tripCountShadow l.epilogueShadow then
      { l with
        prologueCycles := l.prologueShadow
        iiCycles := l.iiShadow
        tripCount := l.tripCountShadow
        epilogueCycles := l.epilogueShadow
        committed := true }
    else { l with committed := false }
  | _ => l

/-- A start in CONFIG. -/
def startRun (l : LoopRegisters) (u : TopInputs) : SequencerRegisters :=
  if l.committed then
    if l.prologueCycles ≠ 0 then
      { stage := .run
        loopIterationsLeft := l.tripCount
        loopPhase := .prologue
        loopPhaseCount := l.prologueCycles }
    else
      { stage := .run
        loopIterationsLeft := l.tripCount
        loopPhase := .kernel
        kernelPc := l.prologueCycles.setWidth 8 }
  else { stage := .run, cyclesLeft := u.runCycles }

/-- A cycle of a run that follows the descriptor and is not its last. -/
def loopCycle (l : LoopRegisters) (q : SequencerRegisters) : SequencerRegisters :=
  match q.loopPhase with
  | .prologue =>
    if q.loopPhaseCount ≤ 1 then
      { q with
        loopPhase := .kernel
        loopPhaseCount := 0
        loopKernelSlot := 0
        kernelPc := l.prologueCycles.setWidth 8 }
    else { q with loopPhaseCount := q.loopPhaseCount - 1, kernelPc := q.kernelPc + 1 }
  | .kernel =>
    if q.loopKernelSlot.setWidth 32 + 1 < l.iiCycles then
      { q with loopKernelSlot := q.loopKernelSlot + 1, kernelPc := q.kernelPc + 1 }
    else if q.loopIterationsLeft > 1 then
      { q with
        loopIterationsLeft := q.loopIterationsLeft - 1
        loopIteration := q.loopIteration + 1
        loopKernelSlot := 0
        kernelPc := l.prologueCycles.setWidth 8 }
    else
      { q with
        loopPhase := .epilogue
        loopPhaseCount := l.epilogueCycles
        loopIteration := l.tripCount
        loopKernelSlot := 0
        kernelPc := (l.prologueCycles + l.iiCycles).setWidth 8 }
  | .epilogue => { q with loopPhaseCount := q.loopPhaseCount - 1, kernelPc := q.kernelPc + 1 }
  | .flat => { q with stage := .done }

/-- The state machine; the registers it reads are those before the edge. -/
def sequence (s : TopState) (u : TopInputs) : SequencerRegisters :=
  match s.seq.stage with
  | .config => if u.start then startRun s.loop u else {}
  | .run =>
    if s.loop.committed then
      if loopLastCycle s then
        { s.seq with stage := .done, loopPhaseCount := 0, loopIterationsLeft := 0 }
      else loopCycle s.loop s.seq
    else if s.seq.cyclesLeft ≤ 1 then { s.seq with stage := .done, cyclesLeft := 0 }
    else { s.seq with cyclesLeft := s.seq.cyclesLeft - 1, kernelPc := s.seq.kernelPc + 1 }
  | .done => {}

def step (s : TopState) (u : TopInputs) : TopState where
  loop := if loopDescCfgAccept s u then writeLoopDesc s.loop u else s.loop
  seq := sequence s u
  runActive _ _ := nextRunActive s u

/-- The state before cycle `n`, after a reset. -/
def run (inputs : ℕ → TopInputs) : ℕ → TopState
  | 0 => {}
  | n + 1 => step (run inputs n) (inputs n)

/-! ## Basic facts -/

section Basic

variable {s : TopState} {u : TopInputs}

theorem stage_of_loopDescCfgAccept (h : loopDescCfgAccept s u = true) : s.seq.stage = .config := by
  rw [loopDescCfgAccept, decide_eq_true_eq] at h
  exact h.1

/-- The descriptor does not change during a run. -/
theorem step_loop_of_ne_config (h : s.seq.stage ≠ .config) : (step s u).loop = s.loop := by
  have hnot : ¬loopDescCfgAccept s u = true := fun haccept ↦
    h (stage_of_loopDescCfgAccept haccept)
  exact if_neg hnot

end Basic

end PredicatedMesh.RTL
