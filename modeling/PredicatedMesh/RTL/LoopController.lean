import PredicatedMesh.Golden.Execution
import PredicatedMesh.RTL.Sequencer

/-!
# The loop controller runs the golden expansion

A descriptor that was written and committed stays in its registers until the next commit, and the
registers do not change during a run. From a start on, the sequencer then goes through the cycles of
the golden expansion one by one. `AtStep` says what its registers hold in each of them; a step of
the machine takes it from one cycle to the next, and from the last one to DONE.

The narrow registers never wrap: an address or a slot stays below the depth of the control memory,
and the counters count down from 32-bit values.
-/

namespace PredicatedMesh.RTL

open Golden

/-! ## Descriptors in registers -/

/-- The shadow register of a field of the descriptor. -/
def LoopRegisters.shadow (l : LoopRegisters) : Fin 4 → BitVec 32
  | 0 => l.prologueShadow
  | 1 => l.iiShadow
  | 2 => l.tripCountShadow
  | 3 => l.epilogueShadow

/-- A field of a descriptor, in the order of its addresses. -/
def field (d : LoopDescriptor) : Fin 4 → ℕ
  | 0 => d.prologueCycles
  | 1 => d.ii
  | 2 => d.tripCount
  | 3 => d.epilogueCycles

/-- An accepted write to an address of the descriptor. -/
def WritesLoopDesc (s : TopState) (u : TopInputs) (addr : ℕ) : Prop :=
  loopDescCfgAccept s u = true ∧ u.cfgAddr.toNat = addr

/-- The committed descriptor. -/
structure Commits (l : LoopRegisters) (d : LoopDescriptor) : Prop where
  committed : l.committed = true
  prologueCycles : l.prologueCycles.toNat = d.prologueCycles
  ii : l.iiCycles.toNat = d.ii
  tripCount : l.tripCount.toNat = d.tripCount
  epilogueCycles : l.epilogueCycles.toNat = d.epilogueCycles

/-- A descriptor the module accepts. -/
structure ValidDescriptor (d : LoopDescriptor) : Prop where
  ii : d.ii ≠ 0
  tripCount : d.tripCount ≠ 0
  span : d.prologueCycles + d.ii + d.epilogueCycles ≤ ctrlMemDepth

section Registers

variable {l : LoopRegisters} {s : TopState} {u : TopInputs} {d : LoopDescriptor}

/-- A field that has been written: its value, and the bit that says so. -/
def HoldsField (l : LoopRegisters) (f : Fin 4) (value : ℕ) : Prop :=
  (l.shadow f).toNat = value ∧ l.shadowValid.getLsbD f = true

theorem writeLoopDesc_field {f : Fin 4} (haddr : u.cfgAddr.toNat = f) :
    HoldsField (writeLoopDesc l u) f u.cfgWdata.toNat := by
  fin_cases f <;> simp [writeLoopDesc, haddr, HoldsField, LoopRegisters.shadow]

/-- A write elsewhere leaves a written field alone. -/
theorem writeLoopDesc_keeps {f : Fin 4} {value : ℕ} (hne : u.cfgAddr.toNat ≠ f)
    (h : HoldsField l f value) : HoldsField (writeLoopDesc l u) f value := by
  obtain ⟨hvalue, hvalid⟩ := h
  unfold writeLoopDesc
  split
  case h_5 =>
    split_ifs <;> exact ⟨hvalue, hvalid⟩
  case h_6 => exact ⟨hvalue, hvalid⟩
  all_goals
    rename_i haddr
    refine ⟨?_, by simp [hvalid]⟩
    fin_cases f <;> simp_all [LoopRegisters.shadow]

theorem step_keeps_field {f : Fin 4} {value : ℕ} (hnot : ¬WritesLoopDesc s u f)
    (h : HoldsField s.loop f value) : HoldsField (step s u).loop f value := by
  rw [step]
  by_cases haccept : loopDescCfgAccept s u = true
  · rw [if_pos haccept]
    exact writeLoopDesc_keeps (fun haddr ↦ hnot ⟨haccept, haddr⟩) h
  · rw [if_neg haccept]
    exact h

/-- A commit of four written fields. -/
theorem writeLoopDesc_commits (hvalid : ValidDescriptor d) (haddr : u.cfgAddr.toNat = 4)
    (hdata : u.cfgWdata ≠ 0) (hfields : ∀ f, HoldsField l f (field d f)) :
    Commits (writeLoopDesc l u) d := by
  have hmask : l.shadowValid = 15 := by
    apply BitVec.eq_of_getLsbD_eq
    intro i hi
    have hbit := (hfields ⟨i, hi⟩).2
    rw [hbit]
    interval_cases i <;> rfl
  have h₀ : l.prologueShadow.toNat = d.prologueCycles := (hfields 0).1
  have h₁ : l.iiShadow.toNat = d.ii := (hfields 1).1
  have h₂ : l.tripCountShadow.toNat = d.tripCount := (hfields 2).1
  have h₃ : l.epilogueShadow.toNat = d.epilogueCycles := (hfields 3).1
  have hdesc : loopDescriptorValid l.prologueShadow l.iiShadow l.tripCountShadow
      l.epilogueShadow = true := by
    rw [loopDescriptorValid, decide_eq_true_eq]
    refine ⟨?_, ?_, ?_⟩
    · rintro hzero
      exact hvalid.ii (by rw [← h₁, hzero]; rfl)
    · rintro hzero
      exact hvalid.tripCount (by rw [← h₂, hzero]; rfl)
    · rw [h₀, h₁, h₃]
      exact hvalid.span
  simp only [writeLoopDesc, haddr]
  rw [if_neg hdata, if_neg (not_not.mpr hmask), if_pos hdesc]
  exact ⟨rfl, h₀, h₁, h₂, h₃⟩

/-- Without a commit the committed descriptor stays. -/
theorem step_keeps_commit (hnot : ¬WritesLoopDesc s u 4) (h : Commits s.loop d) :
    Commits (step s u).loop d := by
  rw [step]
  by_cases haccept : loopDescCfgAccept s u = true
  · rw [if_pos haccept]
    unfold writeLoopDesc
    split
    case h_5 haddr => exact absurd ⟨haccept, haddr⟩ hnot
    all_goals exact ⟨h.committed, h.prologueCycles, h.ii, h.tripCount, h.epilogueCycles⟩
  · rw [if_neg haccept]
    exact h

end Registers

/-! ## Commits over a run -/

section Commit

variable {inputs : ℕ → TopInputs} {d : LoopDescriptor}

/-- A field keeps its last written value. -/
theorem holdsField_run {f : Fin 4} {w c : ℕ} (hwc : w < c)
    (hwrite : WritesLoopDesc (run inputs w) (inputs w) f)
    (hlast : ∀ m, w < m → m < c → ¬WritesLoopDesc (run inputs m) (inputs m) f) :
    HoldsField (run inputs c).loop f (inputs w).cfgWdata.toNat := by
  induction c, hwc using Nat.le_induction with
  | base =>
    rw [run, step, if_pos hwrite.1]
    exact writeLoopDesc_field hwrite.2
  | succ c hwc ih =>
    have hkept := ih fun m hm hmc ↦ hlast m hm (Nat.lt_succ_of_lt hmc)
    exact step_keeps_field (hlast c hwc (Nat.lt_succ_self c)) hkept

/-- A committed descriptor stays committed until the next commit. -/
theorem commits_run {c t : ℕ} (hct : c < t) (hcommit : Commits (run inputs (c + 1)).loop d)
    (hlast : ∀ m, c < m → m < t → ¬WritesLoopDesc (run inputs m) (inputs m) 4) :
    Commits (run inputs t).loop d := by
  induction t, hct using Nat.le_induction with
  | base => exact hcommit
  | succ t hct ih =>
    have hkept := ih fun m hm hmt ↦ hlast m hm (Nat.lt_succ_of_lt hmt)
    exact step_keeps_commit (hlast t hct (Nat.lt_succ_self t)) hkept

end Commit

/-! ## The cycles of a run -/

/-- What the registers hold in cycle `k` of a run that follows the descriptor. -/
inductive AtStep (d : LoopDescriptor) (q : SequencerRegisters) : ℕ → Prop
  | prologue {k : ℕ} (hk : k < d.prologueCycles) (hphase : q.loopPhase = .prologue)
      (hcount : q.loopPhaseCount.toNat = d.prologueCycles - k)
      (hleft : q.loopIterationsLeft.toNat = d.tripCount) (hiteration : q.loopIteration.toNat = 0)
      (hslot : q.loopKernelSlot.toNat = 0) (hpc : q.kernelPc.toNat = k) : AtStep d q k
  | kernel {iteration slot : ℕ} (hi : iteration < d.tripCount) (hs : slot < d.ii)
      (hphase : q.loopPhase = .kernel)
      (hleft : q.loopIterationsLeft.toNat = d.tripCount - iteration)
      (hiteration : q.loopIteration.toNat = iteration) (hslot : q.loopKernelSlot.toNat = slot)
      (hpc : q.kernelPc.toNat = d.prologueCycles + slot) :
      AtStep d q (d.prologueCycles + (d.ii * iteration + slot))
  | epilogue {offset : ℕ} (ho : offset < d.epilogueCycles) (hphase : q.loopPhase = .epilogue)
      (hcount : q.loopPhaseCount.toNat = d.epilogueCycles - offset)
      (hiteration : q.loopIteration.toNat = d.tripCount) (hslot : q.loopKernelSlot.toNat = 0)
      (hpc : q.kernelPc.toNat = d.prologueCycles + d.ii + offset) :
      AtStep d q (d.prologueCycles + d.ii * d.tripCount + offset)

def LoopPhase.code : LoopPhase → ℕ
  | .flat => 0
  | .prologue => 1
  | .kernel => 2
  | .epilogue => 3

/-- The cycle a state shows. -/
def observedStep (s : TopState) : ExecutionStep :=
  ⟨s.seq.kernelPc.toNat, some s.seq.loopPhase.code, some s.seq.loopIteration.toNat,
    some s.seq.loopKernelSlot.toNat⟩

section Run

variable {d : LoopDescriptor} {s : TopState} {u : TopInputs} {k : ℕ}

theorem AtStep.lt_runCycles (h : AtStep d s.seq k) : k < d.runCycles := by
  rw [LoopDescriptor.runCycles]
  induction h with
  | prologue hk => omega
  | @kernel iteration slot hi hs =>
    have hbound : d.ii * (iteration + 1) ≤ d.ii * d.tripCount := Nat.mul_le_mul_left d.ii hi
    rw [Nat.mul_succ] at hbound
    omega
  | epilogue ho => omega

/-- In each cycle the module shows what the golden model lists. -/
theorem AtStep.observed (h : AtStep d s.seq k) :
    d.executionSteps[k]? = some (observedStep s) := by
  induction h with
  | prologue hk hphase hcount hleft hiteration hslot hpc =>
    rw [LoopDescriptor.getElem?_executionSteps_prologue hk, observedStep, hphase, hiteration,
      hslot, hpc]
    rfl
  | kernel hi hs hphase hleft hiteration hslot hpc =>
    rw [LoopDescriptor.getElem?_executionSteps_kernel hi hs, observedStep, hphase, hiteration,
      hslot, hpc]
    rfl
  | epilogue ho hphase hcount hiteration hslot hpc =>
    rw [LoopDescriptor.getElem?_executionSteps_epilogue ho, observedStep, hphase, hiteration,
      hslot, hpc]
    rfl

/-- A start with a committed descriptor is cycle zero. -/
theorem atStep_start (hvalid : ValidDescriptor d) (h : Commits s.loop d) :
    AtStep d (startRun s.loop u) 0 ∧ (startRun s.loop u).stage = .run := by
  have hii := Nat.pos_of_ne_zero hvalid.ii
  have htrip := Nat.pos_of_ne_zero hvalid.tripCount
  rw [startRun, if_pos h.committed]
  by_cases hzero : s.loop.prologueCycles = 0
  · rw [if_neg (not_not.mpr hzero)]
    have hprologue : d.prologueCycles = 0 := by
      rw [← h.prologueCycles, hzero]
      rfl
    refine ⟨?_, rfl⟩
    have hkernel : AtStep d
        { stage := .run
          loopIterationsLeft := s.loop.tripCount
          loopPhase := .kernel
          kernelPc := s.loop.prologueCycles.setWidth 8 } (d.prologueCycles + (d.ii * 0 + 0)) :=
      .kernel htrip hii rfl h.tripCount rfl rfl (by simp [hzero, hprologue])
    simpa [hprologue] using hkernel
  · rw [if_pos hzero]
    have hpos : 0 < d.prologueCycles := by
      rw [← h.prologueCycles]
      exact Nat.pos_of_ne_zero fun hnat ↦ hzero (BitVec.eq_of_toNat_eq hnat)
    exact ⟨.prologue hpos rfl h.prologueCycles h.tripCount rfl rfl rfl, rfl⟩

/-! ### One cycle to the next -/

theorem toNat_slot_succ (q : SequencerRegisters) :
    (q.loopKernelSlot.setWidth 32 + 1).toNat = q.loopKernelSlot.toNat + 1 := by
  have hlt := q.loopKernelSlot.isLt
  simp only [BitVec.toNat_add, BitVec.toNat_setWidth, BitVec.ofNat_eq_ofNat, BitVec.toNat_ofNat]
  omega

/-- The outcome of a cycle: the next cycle of the run, or its end. -/
def Advances (d : LoopDescriptor) (q : SequencerRegisters) (k : ℕ) : Prop :=
  q.stage = .run ∧ AtStep d q (k + 1) ∨ q.stage = .done ∧ k + 1 = d.runCycles

theorem advances_prologue (hvalid : ValidDescriptor d) (hcommits : Commits s.loop d)
    (hrun : s.seq.stage = .run) (hk : k < d.prologueCycles)
    (hphase : s.seq.loopPhase = .prologue)
    (hcount : s.seq.loopPhaseCount.toNat = d.prologueCycles - k)
    (hleft : s.seq.loopIterationsLeft.toNat = d.tripCount)
    (hiteration : s.seq.loopIteration.toNat = 0) (hslot : s.seq.loopKernelSlot.toNat = 0)
    (hpc : s.seq.kernelPc.toNat = k) : Advances d (sequence s u) k := by
  have hspan := hvalid.span
  have hii := Nat.pos_of_ne_zero hvalid.ii
  rw [ctrlMemDepth] at hspan
  have hlast : loopLastCycle s = false := by simp [loopLastCycle, hphase]
  have hsequence : sequence s u = loopCycle s.loop s.seq := by
    simp [sequence, hrun, hcommits.committed, hlast]
  rw [Advances, hsequence, loopCycle, hphase]
  refine .inl ?_
  by_cases hone : s.seq.loopPhaseCount ≤ 1
  · have hend : k + 1 = d.prologueCycles := by
      rw [BitVec.le_def, hcount] at hone
      simp only [BitVec.ofNat_eq_ofNat, BitVec.toNat_ofNat] at hone
      omega
    simp only [if_pos hone]
    refine ⟨hrun, ?_⟩
    rw [hend, show d.prologueCycles = d.prologueCycles + (d.ii * 0 + 0) by simp]
    refine .kernel (Nat.pos_of_ne_zero hvalid.tripCount) hii rfl hleft hiteration rfl ?_
    rw [BitVec.toNat_setWidth, hcommits.prologueCycles]
    omega
  · simp only [if_neg hone]
    have hmore : k + 1 < d.prologueCycles := by
      rw [BitVec.le_def, hcount] at hone
      simp only [BitVec.ofNat_eq_ofNat, BitVec.toNat_ofNat] at hone
      omega
    refine ⟨hrun, .prologue hmore rfl ?_ hleft hiteration hslot ?_⟩
    · rw [BitVec.toNat_sub, hcount]
      simp only [BitVec.ofNat_eq_ofNat, BitVec.toNat_ofNat]
      have hlt := s.seq.loopPhaseCount.isLt
      omega
    · rw [BitVec.toNat_add, hpc]
      simp only [BitVec.ofNat_eq_ofNat, BitVec.toNat_ofNat]
      omega

theorem advances_kernel {iteration slot : ℕ} (hvalid : ValidDescriptor d)
    (hcommits : Commits s.loop d) (hrun : s.seq.stage = .run) (hi : iteration < d.tripCount)
    (hs : slot < d.ii) (hphase : s.seq.loopPhase = .kernel)
    (hleft : s.seq.loopIterationsLeft.toNat = d.tripCount - iteration)
    (hiteration : s.seq.loopIteration.toNat = iteration)
    (hslot : s.seq.loopKernelSlot.toNat = slot)
    (hpc : s.seq.kernelPc.toNat = d.prologueCycles + slot) :
    Advances d (sequence s u) (d.prologueCycles + (d.ii * iteration + slot)) := by
  have hspan := hvalid.span
  have htrip : d.tripCount < 2 ^ 32 := by
    rw [← hcommits.tripCount]
    exact s.loop.tripCount.isLt
  rw [ctrlMemDepth] at hspan
  have hlt : s.seq.loopKernelSlot.setWidth 32 + 1 < s.loop.iiCycles ↔ slot + 1 < d.ii := by
    rw [BitVec.lt_def, toNat_slot_succ, hslot, hcommits.ii]
  have hge : s.loop.iiCycles ≤ s.seq.loopKernelSlot.setWidth 32 + 1 ↔ d.ii ≤ slot + 1 := by
    rw [BitVec.le_def, toNat_slot_succ, hslot, hcommits.ii]
  have hleftOne : s.seq.loopIterationsLeft ≤ 1 ↔ iteration + 1 = d.tripCount := by
    rw [BitVec.le_def, hleft]
    simp only [BitVec.ofNat_eq_ofNat, BitVec.toNat_ofNat]
    omega
  have hleftMore : 1 < s.seq.loopIterationsLeft ↔ iteration + 1 < d.tripCount := by
    rw [BitVec.lt_def, hleft]
    simp only [BitVec.ofNat_eq_ofNat, BitVec.toNat_ofNat]
    omega
  have hepilogue : s.loop.epilogueCycles = 0 ↔ d.epilogueCycles = 0 := by
    rw [← hcommits.epilogueCycles, BitVec.toNat_eq]
    rfl
  have hlast : loopLastCycle s = true ↔
      slot + 1 = d.ii ∧ iteration + 1 = d.tripCount ∧ d.epilogueCycles = 0 := by
    rw [loopLastCycle, if_pos hcommits.committed, hphase]
    simp only [Bool.and_eq_true, decide_eq_true_eq, hleftOne, hepilogue, ge_iff_le, hge]
    constructor
    · rintro ⟨⟨hfull, hfinal⟩, hzero⟩
      exact ⟨by omega, hfinal, hzero⟩
    · rintro ⟨hfull, hfinal, hzero⟩
      exact ⟨⟨by omega, hfinal⟩, hzero⟩
  rw [Advances]
  by_cases hend : slot + 1 = d.ii ∧ iteration + 1 = d.tripCount ∧ d.epilogueCycles = 0
  · -- the last slot of the last iteration, with no epilogue to follow
    obtain ⟨hfull, hfinal, hzero⟩ := hend
    refine .inr ⟨?_, ?_⟩
    · simp [sequence, hrun, hcommits.committed, hlast.mpr ⟨hfull, hfinal, hzero⟩]
    · rw [LoopDescriptor.runCycles, hzero, ← hfinal, Nat.mul_succ]
      omega
  · have hsequence : sequence s u = loopCycle s.loop s.seq := by
      have hnot : loopLastCycle s = false := by
        rw [← Bool.not_eq_true]
        exact fun h ↦ hend (hlast.mp h)
      simp [sequence, hrun, hcommits.committed, hnot]
    refine .inl ?_
    rw [hsequence, loopCycle, hphase]
    by_cases hnext : slot + 1 < d.ii
    · simp only [if_pos (hlt.mpr hnext)]
      refine ⟨hrun, ?_⟩
      rw [Nat.add_assoc, Nat.add_assoc]
      refine .kernel hi hnext rfl hleft hiteration ?_ ?_
      · rw [BitVec.toNat_add, hslot]
        simp only [BitVec.ofNat_eq_ofNat, BitVec.toNat_ofNat]
        omega
      · rw [BitVec.toNat_add, hpc]
        simp only [BitVec.ofNat_eq_ofNat, BitVec.toNat_ofNat]
        omega
    · simp only [if_neg (fun h ↦ hnext (hlt.mp h))]
      by_cases hmore : iteration + 1 = d.tripCount
      · -- the kernel is over and there is an epilogue
        have hpos : 0 < d.epilogueCycles := by
          refine Nat.pos_of_ne_zero fun hzero ↦ hend ⟨by omega, hmore, hzero⟩
        simp only [gt_iff_lt, if_neg (fun h ↦ absurd (hleftMore.mp h) (by omega))]
        refine ⟨hrun, ?_⟩
        have hk : d.prologueCycles + (d.ii * iteration + slot) + 1
            = d.prologueCycles + d.ii * d.tripCount + 0 := by
          rw [← hmore, Nat.mul_succ]
          omega
        rw [hk]
        refine .epilogue hpos rfl (by simpa using hcommits.epilogueCycles) hcommits.tripCount rfl ?_
        rw [BitVec.toNat_setWidth, BitVec.toNat_add, hcommits.prologueCycles, hcommits.ii]
        omega
      · simp only [gt_iff_lt, if_pos (hleftMore.mpr (by omega))]
        refine ⟨hrun, ?_⟩
        have hk : d.prologueCycles + (d.ii * iteration + slot) + 1
            = d.prologueCycles + (d.ii * (iteration + 1) + 0) := by
          rw [Nat.mul_succ]
          omega
        rw [hk]
        refine .kernel (by omega) (by omega) rfl ?_ ?_ rfl ?_
        · rw [BitVec.toNat_sub, hleft]
          simp only [BitVec.ofNat_eq_ofNat, BitVec.toNat_ofNat]
          omega
        · rw [BitVec.toNat_add, hiteration]
          simp only [BitVec.ofNat_eq_ofNat, BitVec.toNat_ofNat]
          omega
        · rw [BitVec.toNat_setWidth, hcommits.prologueCycles]
          omega

theorem advances_epilogue {offset : ℕ} (hvalid : ValidDescriptor d) (hcommits : Commits s.loop d)
    (hrun : s.seq.stage = .run) (ho : offset < d.epilogueCycles)
    (hphase : s.seq.loopPhase = .epilogue)
    (hcount : s.seq.loopPhaseCount.toNat = d.epilogueCycles - offset)
    (hiteration : s.seq.loopIteration.toNat = d.tripCount)
    (hslot : s.seq.loopKernelSlot.toNat = 0)
    (hpc : s.seq.kernelPc.toNat = d.prologueCycles + d.ii + offset) :
    Advances d (sequence s u) (d.prologueCycles + d.ii * d.tripCount + offset) := by
  have hspan := hvalid.span
  have hcountLt := s.seq.loopPhaseCount.isLt
  rw [ctrlMemDepth] at hspan
  have hlast : loopLastCycle s = true ↔ offset + 1 = d.epilogueCycles := by
    rw [loopLastCycle, if_pos hcommits.committed, hphase]
    simp only [decide_eq_true_eq, BitVec.le_def, hcount, BitVec.ofNat_eq_ofNat,
      BitVec.toNat_ofNat]
    omega
  rw [Advances]
  by_cases hend : offset + 1 = d.epilogueCycles
  · refine .inr ⟨?_, ?_⟩
    · simp [sequence, hrun, hcommits.committed, hlast.mpr hend]
    · rw [LoopDescriptor.runCycles, ← hend]
      omega
  · have hsequence : sequence s u = loopCycle s.loop s.seq := by
      have hnot : loopLastCycle s = false := by
        rw [← Bool.not_eq_true]
        exact fun h ↦ hend (hlast.mp h)
      simp [sequence, hrun, hcommits.committed, hnot]
    refine .inl ?_
    rw [hsequence, loopCycle, hphase]
    refine ⟨hrun, ?_⟩
    rw [Nat.add_assoc]
    refine .epilogue (by omega) rfl ?_ hiteration hslot ?_
    · rw [BitVec.toNat_sub, hcount]
      simp only [BitVec.ofNat_eq_ofNat, BitVec.toNat_ofNat]
      omega
    · rw [BitVec.toNat_add, hpc]
      simp only [BitVec.ofNat_eq_ofNat, BitVec.toNat_ofNat]
      omega

/-- The step lemma: a cycle of the run leads to the next cycle, and the last one to DONE. -/
theorem AtStep.advances (h : AtStep d s.seq k) (hvalid : ValidDescriptor d)
    (hcommits : Commits s.loop d) (hrun : s.seq.stage = .run) :
    Advances d (sequence s u) k := by
  induction h with
  | prologue hk hphase hcount hleft hiteration hslot hpc =>
    exact advances_prologue hvalid hcommits hrun hk hphase hcount hleft hiteration hslot hpc
  | kernel hi hs hphase hleft hiteration hslot hpc =>
    exact advances_kernel hvalid hcommits hrun hi hs hphase hleft hiteration hslot hpc
  | epilogue ho hphase hcount hiteration hslot hpc =>
    exact advances_epilogue hvalid hcommits hrun ho hphase hcount hiteration hslot hpc

end Run

/-! ## Whole runs -/

section WholeRun

variable {inputs : ℕ → TopInputs} {d : LoopDescriptor} {t : ℕ}

/-- The run lemma: from a start on, cycle by cycle, whatever the inputs. -/
theorem atStep_run (hvalid : ValidDescriptor d) (hcommits : Commits (run inputs (t + 1)).loop d)
    (hrun : (run inputs (t + 1)).seq.stage = .run) (hfirst : AtStep d (run inputs (t + 1)).seq 0)
    {k : ℕ} (hk : k < d.runCycles) :
    (run inputs (t + 1 + k)).seq.stage = .run ∧ AtStep d (run inputs (t + 1 + k)).seq k ∧
      Commits (run inputs (t + 1 + k)).loop d := by
  induction k with
  | zero => exact ⟨hrun, hfirst, hcommits⟩
  | succ k ih =>
    obtain ⟨hstage, hat, hcommitted⟩ := ih (Nat.lt_of_succ_lt hk)
    rw [← Nat.add_assoc]
    rcases hat.advances (u := inputs (t + 1 + k)) hvalid hcommitted hstage with
      ⟨hnext, hatNext⟩ | ⟨-, hend⟩
    · refine ⟨hnext, hatNext, ?_⟩
      rw [run, step_loop_of_ne_config (by simp [hstage])]
      exact hcommitted
    · omega

end WholeRun

/-- **The loop controller.** Let a descriptor be written field by field, committed, and not
committed over until a start in CONFIG, in a cycle without a configuration write. Then, whatever the
other inputs are, the cycles of RUN are those of the golden expansion, and DONE and CONFIG follow.
-/
theorem loop_run_eq_executionSteps (inputs : ℕ → TopInputs) (d : LoopDescriptor)
    (hvalid : ValidDescriptor d) (c t : ℕ) (hct : c < t)
    (hwritten : ∀ f : Fin 4, ∃ w < c, WritesLoopDesc (run inputs w) (inputs w) f ∧
      (inputs w).cfgWdata.toNat = field d f ∧
      ∀ m, w < m → m < c → ¬WritesLoopDesc (run inputs m) (inputs m) f)
    (hcommit : WritesLoopDesc (run inputs c) (inputs c) 4) (hdata : (inputs c).cfgWdata ≠ 0)
    (hkept : ∀ m, c < m → m < t → ¬WritesLoopDesc (run inputs m) (inputs m) 4)
    (hconfig : (run inputs t).seq.stage = .config) (hstart : (inputs t).start = true)
    (hquiet : ((inputs t).cfgValid && (inputs t).cfgWe) = false) :
    let steps := manifestExecutionSteps (some d) d.runCycles
    steps.length = d.prologueCycles + d.ii * d.tripCount + d.epilogueCycles ∧
      (∀ k < steps.length, (run inputs (t + 1 + k)).seq.stage = .run ∧
        steps[k]? = some (observedStep (run inputs (t + 1 + k)))) ∧
      (run inputs (t + 1 + steps.length)).seq.stage = .done ∧
      (run inputs (t + 1 + steps.length + 1)).seq.stage = .config := by
  intro steps
  have hlength : steps.length = d.runCycles := LoopDescriptor.length_executionSteps d
  have hfields : ∀ f, HoldsField (run inputs c).loop f (field d f) := by
    intro f
    obtain ⟨w, hw, hwrite, hvalue, hlast⟩ := hwritten f
    rw [← hvalue]
    exact holdsField_run hw hwrite hlast
  have hcommitted : Commits (run inputs (c + 1)).loop d := by
    rw [run, step, if_pos hcommit.1]
    exact writeLoopDesc_commits hvalid hcommit.2 hdata hfields
  have hbefore : Commits (run inputs t).loop d := commits_run hct hcommitted hkept
  have hafter : Commits (run inputs (t + 1)).loop d := by
    refine step_keeps_commit ?_ hbefore
    rintro ⟨haccept, -⟩
    -- a write that is accepted is valid
    rw [loopDescCfgAccept, decide_eq_true_eq] at haccept
    have hcfg := haccept.2.1
    simp only [cfgAccept, Bool.and_eq_true] at hcfg
    simp [hcfg.1.1.1, hcfg.1.2] at hquiet
  have hseq : (run inputs (t + 1)).seq = startRun (run inputs t).loop (inputs t) := by
    rw [run]
    simp [step, sequence, hconfig, hstart]
  have hfirst : AtStep d (run inputs (t + 1)).seq 0 ∧ (run inputs (t + 1)).seq.stage = .run := by
    rw [hseq]
    exact atStep_start hvalid hbefore
  have hcycles : ∀ k < d.runCycles, (run inputs (t + 1 + k)).seq.stage = .run ∧
      AtStep d (run inputs (t + 1 + k)).seq k ∧ Commits (run inputs (t + 1 + k)).loop d :=
    fun k hk ↦ atStep_run hvalid hafter hfirst.2 hfirst.1 hk
  have hdone : (run inputs (t + 1 + d.runCycles)).seq.stage = .done := by
    have hpos : 0 < d.runCycles := hfirst.1.lt_runCycles
    obtain ⟨hstage, hat, hcommits⟩ := hcycles (d.runCycles - 1) (by omega)
    have hsucc : t + 1 + d.runCycles = t + 1 + (d.runCycles - 1) + 1 := by omega
    rw [hsucc, run]
    rcases hat.advances (u := inputs (t + 1 + (d.runCycles - 1))) hvalid hcommits hstage with
      ⟨-, hnext⟩ | ⟨hdone, -⟩
    · have hlt := AtStep.lt_runCycles (s := step _ _) hnext
      omega
    · exact hdone
  rw [hlength]
  refine ⟨rfl, ?_, hdone, ?_⟩
  · intro k hk
    obtain ⟨hstage, hat, -⟩ := hcycles k hk
    exact ⟨hstage, hat.observed⟩
  · rw [run]
    simp [step, sequence, hdone]

/-- The descriptor of a short loop, a commit, and a start. -/
def shortLoop : ℕ → TopInputs
  | 0 => { cfgValid := true, cfgWe := true, cfgMemType := .loopDesc, cfgAddr := 0, cfgWdata := 1 }
  | 1 => { cfgValid := true, cfgWe := true, cfgMemType := .loopDesc, cfgAddr := 1, cfgWdata := 2 }
  | 2 => { cfgValid := true, cfgWe := true, cfgMemType := .loopDesc, cfgAddr := 2, cfgWdata := 3 }
  | 3 => { cfgValid := true, cfgWe := true, cfgMemType := .loopDesc, cfgAddr := 3, cfgWdata := 1 }
  | 4 => { cfgValid := true, cfgWe := true, cfgMemType := .loopDesc, cfgAddr := 4, cfgWdata := 1 }
  | 5 => { start := true }
  | _ => {}

theorem shortLoop_run :
    (∀ k < 8, (run shortLoop (6 + k)).seq.stage = .run) ∧
      (run shortLoop 14).seq.stage = .done ∧ (run shortLoop 15).seq.stage = .config := by
  have hrun := loop_run_eq_executionSteps shortLoop ⟨1, 2, 3, 1⟩ ⟨by decide, by decide, by decide⟩
    4 5 (by decide)
    (by
      intro f
      refine ⟨f, by omega, ?_, ?_, ?_⟩
      · revert f
        simp only [WritesLoopDesc]
        decide
      · revert f
        decide
      · intro m hfm hm
        simp only [WritesLoopDesc]
        revert f
        interval_cases m <;> decide)
    ⟨by decide, by decide⟩ (by decide) (by intro m hm hm'; omega) (by decide) (by decide)
    (by decide)
  exact ⟨fun k hk ↦ (hrun.2.1 k hk).1, hrun.2.2.1, hrun.2.2.2⟩

end PredicatedMesh.RTL
