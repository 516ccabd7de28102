import PredicatedMesh.RTL.Sequencer

/-!
# When the run gates follow the state

The gates are set from `nextRunActive`, the state register from its own case analysis. The two agree
as long as a run that follows a descriptor is in one of the three phases of the descriptor. A start
enters such a phase only if the descriptor was committed before; the one way to be in RUN with a
descriptor but in no phase is to commit it in the cycle of the start. The state machine then falls
through to DONE after one cycle while the gates stay open.

So the gates follow the state in every reachable state exactly when no cycle commits a descriptor
and starts at once.
-/

namespace PredicatedMesh.RTL

/-! ## Agreement -/

/-- Every gate is open exactly in RUN. -/
def Gated (s : TopState) : Prop :=
  ∀ tile replica, s.runActive tile replica = decide (s.seq.stage = .run)

/-- An accepted write that commits the descriptor in the shadow registers. -/
def commitsDescriptor (s : TopState) (u : TopInputs) : Bool :=
  loopDescCfgAccept s u && u.cfgAddr == 4 && u.cfgWdata != 0 && s.loop.shadowValid == 15 &&
    loopDescriptorValid s.loop.prologueShadow s.loop.iiShadow s.loop.tripCountShadow
      s.loop.epilogueShadow

/-- A start without a descriptor in the very cycle that commits one. -/
def CommitsAtStart (s : TopState) (u : TopInputs) : Prop :=
  u.start = true ∧ s.loop.committed = false ∧ commitsDescriptor s u = true

/-- The invariant: the gates agree, and a run with a descriptor is in one of its phases. -/
structure Synchronised (s : TopState) : Prop where
  gated : Gated s
  phase : s.seq.stage = .run → s.loop.committed = true → s.seq.loopPhase ≠ .flat

section Step

variable {s : TopState} {u : TopInputs}

theorem commitsDescriptor_of_committed (hbefore : s.loop.committed = false)
    (hafter : (step s u).loop.committed = true) : commitsDescriptor s u = true := by
  by_cases haccept : loopDescCfgAccept s u = true
  · have haddr : u.cfgAddr ≤ 4 := by
      rw [loopDescCfgAccept, decide_eq_true_eq] at haccept
      exact haccept.2.2.2.2.2.2
    simp only [step, haccept, if_true, writeLoopDesc] at hafter
    split at hafter
    case h_5 h4 =>
      have haddr4 : u.cfgAddr = 4 := BitVec.eq_of_toNat_eq h4
      split_ifs at hafter with hzero hvalid hdesc
      · rw [commitsDescriptor, haccept, haddr4, hdesc, not_not.mp hvalid]
        simpa using hzero
    all_goals
      rw [hbefore] at hafter
      cases hafter
  · simp only [step, haccept] at hafter
    rw [if_neg (by simp), hbefore] at hafter
    cases hafter

theorem committed_of_commitsDescriptor (h : commitsDescriptor s u = true) :
    (step s u).loop.committed = true := by
  simp only [commitsDescriptor, Bool.and_eq_true, beq_iff_eq, bne_iff_ne] at h
  obtain ⟨⟨⟨⟨haccept, haddr⟩, hdata⟩, hvalid⟩, hdesc⟩ := h
  have haddr4 : u.cfgAddr.toNat = 4 := by rw [haddr]; rfl
  simp only [step, haccept, if_true, writeLoopDesc, haddr4]
  rw [if_neg hdata, if_neg (not_not.mpr hvalid), if_pos hdesc]

theorem startRun_stage (l : LoopRegisters) : (startRun l u).stage = .run := by
  unfold startRun
  split_ifs <;> rfl

/-- A start with a descriptor enters one of its phases, a start without one enters none. -/
theorem startRun_phase (l : LoopRegisters) :
    (startRun l u).loopPhase = .flat ↔ l.committed = false := by
  unfold startRun
  split_ifs <;> simp_all

theorem loopCycle_stage {l : LoopRegisters} {q : SequencerRegisters} (h : q.loopPhase ≠ .flat) :
    (loopCycle l q).stage = q.stage ∧ (loopCycle l q).loopPhase ≠ .flat := by
  unfold loopCycle
  split
  · split_ifs <;> simp_all
  · split_ifs <;> simp_all
  · simp_all
  · simp_all

/-- What a step does to the state, given the phase invariant: the prediction comes true. -/
theorem sequence_stage_iff (hphase : s.seq.stage = .run → s.loop.committed = true →
    s.seq.loopPhase ≠ .flat) :
    (sequence s u).stage = .run ↔ nextRunActive s u = true := by
  unfold sequence nextRunActive
  cases hstage : s.seq.stage with
  | config =>
    by_cases hstart : u.start = true
    · simp [hstart, startRun_stage]
    · simp [hstart]
  | run =>
    by_cases hcommitted : s.loop.committed = true
    · by_cases hlast : loopLastCycle s = true
      · simp [hcommitted, hlast]
      · have hcycle := loopCycle_stage (l := s.loop) (hphase hstage hcommitted)
        simp [hcommitted, hlast, hcycle.1, hstage]
    · simp only [if_neg hcommitted]
      by_cases hleft : s.seq.cyclesLeft ≤ 1
      · rw [if_pos hleft, decide_eq_true hleft]
        simp
      · rw [if_neg hleft, decide_eq_false hleft]
        simp [hstage]
  | done => simp

/-- The step lemma: without a commit at the start, the invariant is kept. -/
theorem Synchronised.step (h : Synchronised s) (hsafe : ¬CommitsAtStart s u) :
    Synchronised (step s u) := by
  have hiff := sequence_stage_iff (u := u) h.phase
  constructor
  · intro tile replica
    rw [Bool.eq_iff_iff, decide_eq_true_eq]
    exact hiff.symm
  · intro hrun hcommitted
    change (sequence s u).stage = .run at hrun
    change (sequence s u).loopPhase ≠ .flat
    cases hstage : s.seq.stage with
    | config =>
      simp only [sequence, hstage] at hrun ⊢
      by_cases hstart : u.start = true
      · rw [if_pos hstart, Ne, startRun_phase, Bool.not_eq_false]
        -- a descriptor that is there after the start was there before it
        by_contra hbefore
        rw [Bool.not_eq_true] at hbefore
        exact hsafe ⟨hstart, hbefore, commitsDescriptor_of_committed hbefore hcommitted⟩
      · rw [if_neg hstart] at hrun
        cases hrun
    | run =>
      rw [step_loop_of_ne_config (by simp [hstage])] at hcommitted
      simp only [sequence, hstage, hcommitted, if_true] at hrun ⊢
      by_cases hlast : loopLastCycle s = true
      · rw [if_pos hlast] at hrun
        cases hrun
      · rw [if_neg hlast]
        exact (loopCycle_stage (h.phase hstage hcommitted)).2
    | done =>
      simp only [sequence, hstage] at hrun
      cases hrun

end Step

/-! ## Whole runs -/

section Run

variable {inputs : ℕ → TopInputs}

theorem synchronised_reset : Synchronised {} where
  gated _ _ := rfl
  phase h := by cases h

/-- Up to any cycle before which no step commits at a start, the gates follow the state. -/
theorem synchronised_run {n : ℕ}
    (hsafe : ∀ m < n, ¬CommitsAtStart (run inputs m) (inputs m)) : Synchronised (run inputs n) := by
  induction n with
  | zero => exact synchronised_reset
  | succ n ih =>
    rw [run]
    exact (ih fun m hm ↦ hsafe m (Nat.lt_succ_of_lt hm)).step (hsafe n (Nat.lt_succ_self n))

/-- Two cycles after a commit at the start the gates are open in DONE. -/
theorem not_gated_of_commitsAtStart {n : ℕ} (h : CommitsAtStart (run inputs n) (inputs n)) :
    ¬Gated (run inputs (n + 2)) := by
  obtain ⟨hstart, hbefore, hcommit⟩ := h
  have haccept : loopDescCfgAccept (run inputs n) (inputs n) = true := by
    simp only [commitsDescriptor, Bool.and_eq_true] at hcommit
    exact hcommit.1.1.1.1
  have hstage : (run inputs n).seq.stage = .config := stage_of_loopDescCfgAccept haccept
  have hcommitted : (run inputs (n + 1)).loop.committed = true :=
    committed_of_commitsDescriptor hcommit
  have hseq : (run inputs (n + 1)).seq = startRun (run inputs n).loop (inputs n) := by
    rw [run]
    simp [step, sequence, hstage, hstart]
  have hrun : (run inputs (n + 1)).seq.stage = .run := by rw [hseq, startRun_stage]
  have hflat : (run inputs (n + 1)).seq.loopPhase = .flat := by
    rw [hseq]
    exact (startRun_phase _).mpr hbefore
  have hlast : loopLastCycle (run inputs (n + 1)) = false := by
    simp [loopLastCycle, hflat]
  intro hgated
  have hgate := hgated ⟨0, by decide⟩ ⟨0, by decide⟩
  rw [run] at hgate
  simp [step, nextRunActive, sequence, loopCycle, hrun, hcommitted, hlast, hflat] at hgate

/-- **The run gates.** In a run from reset, for any inputs, the gates follow the state in every
state reached if and only if no cycle starts a run and commits its descriptor at once. -/
theorem gated_iff_no_commit_at_start (inputs : ℕ → TopInputs) :
    (∀ n, Gated (run inputs n)) ↔ ∀ n, ¬CommitsAtStart (run inputs n) (inputs n) := by
  constructor
  · intro h n hbad
    exact not_gated_of_commitsAtStart hbad (h (n + 2))
  · intro h n
    exact (synchronised_run fun m _ ↦ h m).gated

/-- Where the gates follow the state, control words reach the mesh exactly in RUN. -/
theorem Gated.gatedControlSlice_eq {s : TopState} (h : Gated s)
    (controlMemReadData : Fin tiles → BitVec 128) (tile : Fin tiles)
    (replica : Fin runControlReplicas) :
    gatedControlSlice s controlMemReadData tile replica =
      if s.seq.stage = .run then
        (controlMemReadData tile).extractLsb' (replica * runControlSliceWidth) 16
      else 0 := by
  rw [gatedControlSlice, h tile replica]
  simp

end Run

/-! ## A commit in the cycle of the start -/

/-- A write to a field of the loop descriptor. -/
def loopDescWrite (addr : BitVec 12) (data : BitVec 32) : TopInputs :=
  { cfgValid := true, cfgWe := true, cfgMemType := .loopDesc, cfgAddr := addr, cfgWdata := data }

/-- The four fields of a one-cycle loop, and then a commit together with the start. -/
def commitAtStart : ℕ → TopInputs
  | 0 => loopDescWrite 0 0
  | 1 => loopDescWrite 1 1
  | 2 => loopDescWrite 2 1
  | 3 => loopDescWrite 3 0
  | 4 => { loopDescWrite 4 1 with start := true }
  | _ => {}

/-- No other check of the module stops this run, and in cycle 6 the gates are open in DONE. -/
theorem commitAtStart_diverges :
    (∀ n, fatal (run commitAtStart n) (commitAtStart n) = false) ∧
      (run commitAtStart 6).seq.stage = .done ∧ ¬Gated (run commitAtStart 6) := by
  refine ⟨?_, by decide, ?_⟩
  · intro n
    rcases n with - | - | - | - | - | n
    · decide
    · decide
    · decide
    · decide
    · decide
    · have hidle : commitAtStart (n + 5) = {} := rfl
      simp [fatal, loopDescCfgAccept, cfgAccept, hidle]
  · intro h
    exact absurd (h ⟨0, by decide⟩ ⟨0, by decide⟩) (by decide)

end PredicatedMesh.RTL
