import PredicatedMesh.RTL.RunGate
import PredicatedMesh.RTL.ControlPkg

/-!
# Configuration writes

The top module takes configuration writes whenever it is not in RUN. Each kind of memory has a write
enable of its own: the control memories and the scratchpad take writes in CONFIG only, the constant
memories in DONE as well. For the scratchpad and for the loop descriptor a simulation stops on a
write in DONE; for the control memories it does not, and the write is lost. The address is cut to
the width of the memory, so that one beyond the depth of a control or constant memory is that of
another word.

The scratchpad is also written by the load-store units. Their control words are gated to zero
outside RUN, and a control word of zero asks for no access, so that nothing else changes when a
write is taken. `config_write_exact_iff` says which writes arrive, and only there.
-/

namespace PredicatedMesh.RTL

/-! ## The memories -/

def constMemDepth : ℕ := 16

/-- The contents of the control, constant and scratchpad memories. The other depths are those of the
address widths. -/
structure ConfigMemories where
  control : Fin tiles → BitVec 8 → BitVec 128
  const : Fin tiles → BitVec 4 → BitVec 32
  scratch : BitVec 12 → BitVec 32

/-- A word of 32 bits of some memory. -/
inductive ConfigWord
  | control (tile : Fin tiles) (addr : BitVec 8) (chunk : BitVec 2)
  | const (tile : Fin tiles) (addr : BitVec 4)
  | scratch (addr : BitVec 12)
  deriving DecidableEq, Repr

def chunkOf (bits : BitVec 128) (chunk : BitVec 2) : BitVec 32 :=
  bits.extractLsb' (chunk.toNat * 32) 32

def ConfigMemories.word (m : ConfigMemories) : ConfigWord → BitVec 32
  | .control tile addr chunk => chunkOf (m.control tile addr) chunk
  | .const tile addr => m.const tile addr
  | .scratch addr => m.scratch addr

/-- Assign one chunk of a control word. -/
def writeChunk (bits : BitVec 128) (chunk : BitVec 2) (data : BitVec 32) : BitVec 128 :=
  (bits &&& ~~~((BitVec.allOnes 32).setWidth 128 <<< (chunk.toNat * 32))) |||
    data.setWidth 128 <<< (chunk.toNat * 32)

/-! ## Accesses of the load-store units -/

/-- What the source multiplexers of a tile deliver to its load-store unit. -/
structure LsuOperands where
  addrData : BitVec 32
  addrValid : Bool
  storeData : BitVec 32
  storeDataValid : Bool
  commitPred : Bool
  commitPredValid : Bool
  deriving DecidableEq, Repr

structure MemRequest where
  valid : Bool
  write : Bool
  addr : BitVec 12
  wdata : BitVec 32
  deriving DecidableEq, Repr

/-- The request of a load-store unit. -/
def lsuRequest (ctrl : LsuCtrl) (o : LsuOperands) : MemRequest :=
  let commitAllow := !ctrl.lsuCommitPredEnable ||
    if ctrl.lsuCommitPredInvert then !o.commitPred else o.commitPred
  let storeCommit := ctrl.lsuOp == LsuOpE.store.value && o.addrValid && o.storeDataValid &&
    (!ctrl.lsuCommitPredEnable || o.commitPredValid) && commitAllow
  let issueLoad := ctrl.lsuOp == LsuOpE.load.value && o.addrValid
  { valid := issueLoad || storeCommit
    write := storeCommit
    addr := o.addrData.setWidth 12
    wdata := o.storeData }

/-- The first tile of each row has a load-store unit. -/
def hasLsu (tile : Fin tiles) : Bool := tile.val % arrayCols = 0

/-- The control word that reaches a tile of the mesh, slice by slice. -/
def meshControlWord (s : TopState) (controlMemReadData : Fin tiles → BitVec 128)
    (tile : Fin tiles) : BitVec 128 :=
  (List.finRange runControlReplicas).foldl (fun bits replica ↦
    bits ||| (gatedControlSlice s controlMemReadData tile replica).setWidth 128
      <<< (replica.val * runControlSliceWidth)) 0

/-- The requests to the scratchpad, port by port. -/
def memRequests (s : TopState) (m : ConfigMemories) (operands : Fin tiles → LsuOperands) :
    List MemRequest :=
  ((List.finRange tiles).filter hasLsu).map fun tile ↦
    lsuRequest (unpackTileControlWord
      (meshControlWord s (fun tile ↦ m.control tile s.seq.kernelPc) tile)).lsuCtrl (operands tile)

/-! ## Configuration writes -/

section Writes

variable (s : TopState) (u : TopInputs)

def cfgTileIdx : Fin tiles :=
  ⟨(u.cfgTileRow.toNat * arrayCols + u.cfgTileCol.toNat) % tiles, Nat.mod_lt _ (by decide)⟩

def controlCfgWe (tile : Fin tiles) : Bool :=
  s.seq.stage = .config ∧ cfgAccept s u = true ∧ u.cfgMemType = .control ∧ tile = cfgTileIdx u

def constCfgWe (tile : Fin tiles) : Bool :=
  cfgAccept s u = true ∧ u.cfgMemType = .const ∧ tile = cfgTileIdx u

def scratchCfgAccept : Bool :=
  s.seq.stage = .config ∧ cfgAccept s u = true ∧ u.cfgMemType = .scratch ∧ u.cfgTileRow = 0 ∧
    u.cfgTileCol = 0 ∧ u.cfgWordIdx = 0

/-- The stores of a cycle, in the order of the ports. -/
def performRequests (scratch : BitVec 12 → BitVec 32) (requests : List MemRequest) :
    BitVec 12 → BitVec 32 :=
  requests.foldl (fun scratch request ↦
    if request.valid && request.write then Function.update scratch request.addr request.wdata
    else scratch) scratch

/-- The memories after a clock edge. -/
def stepMemories (operands : Fin tiles → LsuOperands) (m : ConfigMemories) : ConfigMemories where
  control tile addr :=
    if controlCfgWe s u tile ∧ addr = u.cfgAddr.setWidth 8 then
      writeChunk (m.control tile addr) u.cfgWordIdx u.cfgWdata
    else m.control tile addr
  const tile addr :=
    if constCfgWe s u tile ∧ addr = u.cfgAddr.setWidth 4 then u.cfgWdata else m.const tile addr
  scratch :=
    let stored := performRequests m.scratch (memRequests s m operands)
    if scratchCfgAccept s u then Function.update stored u.cfgAddr u.cfgWdata else stored

end Writes

/-- The memories before cycle `n`, given what they held at the reset and what the multiplexers
deliver. -/
def memories (inputs : ℕ → TopInputs) (operands : ℕ → Fin tiles → LsuOperands)
    (initial : ConfigMemories) : ℕ → ConfigMemories
  | 0 => initial
  | n + 1 =>
    stepMemories (run inputs n) (inputs n) (operands n) (memories inputs operands initial n)

/-! ## Arrival -/

/-- The word a configuration write names, if there is one. -/
def addressed (u : TopInputs) : Option ConfigWord :=
  match u.cfgMemType with
  | .control =>
    if u.cfgAddr.toNat < ctrlMemDepth then
      some (.control (cfgTileIdx u) (u.cfgAddr.setWidth 8) u.cfgWordIdx)
    else none
  | .const =>
    if u.cfgAddr.toNat < constMemDepth ∧ u.cfgWordIdx = 0 then
      some (.const (cfgTileIdx u) (u.cfgAddr.setWidth 4))
    else none
  | .scratch => some (.scratch u.cfgAddr)
  | .loopDesc => none

/-- The word named by a write has its data, and no other word has changed. -/
def WritesExactly (before after : ConfigMemories) (u : TopInputs) : Prop :=
  ∀ word, after.word word = if addressed u = some word then u.cfgWdata else before.word word

/-- The word at the cut address. -/
def landing (u : TopInputs) : ConfigWord :=
  match u.cfgMemType with
  | .control => .control (cfgTileIdx u) (u.cfgAddr.setWidth 8) u.cfgWordIdx
  | .const => .const (cfgTileIdx u) (u.cfgAddr.setWidth 4)
  | _ => .scratch u.cfgAddr

/-- A write to a control memory is in CONFIG exactly if its address is in range, one to a constant
memory is in range; else the word at the cut address has the data already. -/
def Arrives (stage : TopStage) (m : ConfigMemories) (u : TopInputs) : Prop :=
  match u.cfgMemType with
  | .control =>
    (stage = .config ↔ u.cfgAddr.toNat < ctrlMemDepth) ∨ m.word (landing u) = u.cfgWdata
  | .const =>
    (u.cfgAddr.toNat < constMemDepth ∧ u.cfgWordIdx = 0) ∨ m.word (landing u) = u.cfgWdata
  | _ => True

/-! ## Chunks -/

/-- A write to a chunk is a write to no other. -/
theorem chunkOf_writeChunk (bits : BitVec 128) (chunk other : BitVec 2) (data : BitVec 32) :
    chunkOf (writeChunk bits chunk data) other
      = if other = chunk then data else chunkOf bits other := by
  have hchunk := chunk.isLt
  have hother := other.isLt
  apply BitVec.eq_of_getLsbD_eq
  intro i hi
  have hlt : other.toNat * 32 + i < 128 := by omega
  simp only [chunkOf, writeChunk, BitVec.getLsbD_extractLsb', hi, decide_true, Bool.true_and,
    BitVec.getLsbD_or, BitVec.getLsbD_and, BitVec.getLsbD_not, BitVec.getLsbD_shiftLeft,
    BitVec.getLsbD_setWidth, BitVec.getLsbD_allOnes, hlt]
  by_cases heq : other = chunk
  · subst heq
    have hsub : other.toNat * 32 + i - other.toNat * 32 = i := by omega
    have hle : ¬ other.toNat * 32 + i < other.toNat * 32 := by omega
    rw [if_pos rfl, hsub]
    simp [hle, hi, show i < 128 by omega]
  · -- the other chunks are below the shift or beyond its data
    have hne : other.toNat ≠ chunk.toNat := fun h ↦ heq (BitVec.eq_of_toNat_eq h)
    rw [if_neg heq]
    rcases Nat.lt_or_gt_of_ne hne with hlow | hhigh
    · have hbelow : other.toNat * 32 + i < chunk.toNat * 32 := by omega
      simp [hbelow, hi]
    · have habove : ¬ other.toNat * 32 + i - chunk.toNat * 32 < 32 := by omega
      have hdata : data.getLsbD (other.toNat * 32 + i - chunk.toNat * 32) = false :=
        BitVec.getLsbD_of_ge _ _ (by omega)
      simp [habove, hdata, hi]

/-! ## Outside RUN the load-store units are idle -/

section Idle

variable {s : TopState} {m : ConfigMemories} {operands : Fin tiles → LsuOperands}

theorem meshControlWord_eq_zero (hgated : Gated s) (hstage : s.seq.stage ≠ .run)
    (controlMemReadData : Fin tiles → BitVec 128) (tile : Fin tiles) :
    meshControlWord s controlMemReadData tile = 0 := by
  have hslice : ∀ replica, gatedControlSlice s controlMemReadData tile replica = 0 := by
    intro replica
    rw [hgated.gatedControlSlice_eq, if_neg hstage]
  unfold meshControlWord
  generalize List.finRange runControlReplicas = replicas
  induction replicas with
  | nil => rfl
  | cons replica replicas ih =>
    rw [List.foldl_cons, hslice]
    simpa using ih

/-- A control word of zero asks for no access. -/
theorem lsuRequest_idle (o : LsuOperands) :
    (lsuRequest (unpackTileControlWord 0).lsuCtrl o).valid = false := by
  have hop : (unpackTileControlWord 0).lsuCtrl.lsuOp = LsuOpE.none.value := by decide
  rw [lsuRequest, hop]
  simp [LsuOpE.value]

theorem performRequests_idle {scratch : BitVec 12 → BitVec 32} {requests : List MemRequest}
    (h : ∀ request ∈ requests, request.valid = false) :
    performRequests scratch requests = scratch := by
  induction requests with
  | nil => rfl
  | cons request requests ih =>
    obtain ⟨hrequest, hrest⟩ := List.forall_mem_cons.mp h
    rw [performRequests, List.foldl_cons, if_neg (by simp [hrequest])]
    exact ih hrest

/-- Outside RUN nothing is stored. -/
theorem stored_eq (hgated : Gated s) (hstage : s.seq.stage ≠ .run) :
    performRequests m.scratch (memRequests s m operands) = m.scratch := by
  apply performRequests_idle
  intro request hrequest
  obtain ⟨tile, -, rfl⟩ := List.mem_map.mp hrequest
  rw [meshControlWord_eq_zero hgated hstage]
  exact lsuRequest_idle _

end Idle

/-! ## One cycle -/

section Step

variable {s : TopState} {u : TopInputs} {m : ConfigMemories}
variable {operands : Fin tiles → LsuOperands}

/-- A cycle that offers a write outside RUN, and in which no simulation stops. -/
structure Offered (s : TopState) (u : TopInputs) : Prop where
  valid : u.cfgValid = true
  ready : cfgReady s = true
  we : u.cfgWe = true
  clean : fatal s u = false
  gated : Gated s

theorem Offered.accept (h : Offered s u) : cfgAccept s u = true := by
  have hclean := h.clean
  simp only [fatal, h.valid, h.ready, h.we, Bool.true_and, Bool.or_eq_false_iff,
    Bool.not_eq_false'] at hclean
  simp only [cfgAccept, h.valid, h.ready, h.we, hclean.1.1.1, Bool.and_self]

theorem Offered.stage_ne_run (h : Offered s u) : s.seq.stage ≠ .run := by
  have hready := h.ready
  rwa [cfgReady, decide_eq_true_eq] at hready

/-- A write to the scratchpad that stops no simulation is taken. -/
theorem Offered.scratch (h : Offered s u) (htype : u.cfgMemType = .scratch) :
    scratchCfgAccept s u = true := by
  have hclean := h.clean
  simp only [fatal, h.valid, h.we, htype, Bool.true_and, Bool.or_eq_false_iff, beq_self_eq_true,
    bne_eq_false_iff_eq] at hclean
  obtain ⟨⟨-, ⟨⟨hstage, hrow⟩, hcol⟩, hidx⟩, -⟩ := hclean
  rw [scratchCfgAccept, decide_eq_true_eq]
  exact ⟨hstage, h.accept, htype, hrow, hcol, hidx⟩

/-- **An offered write** changes the word at the cut address and no other; to a control memory it
does so in CONFIG only. -/
theorem stepMemories_word (h : Offered s u) (htype : u.cfgMemType ≠ .loopDesc)
    (word : ConfigWord) :
    (stepMemories s u operands m).word word
      = if (u.cfgMemType = .control → s.seq.stage = .config) ∧ word = landing u then u.cfgWdata
        else m.word word := by
  have haccept := h.accept
  have hidle : performRequests m.scratch (memRequests s m operands) = m.scratch :=
    stored_eq h.gated h.stage_ne_run
  cases hmem : u.cfgMemType with
  | loopDesc => exact absurd hmem htype
  | control =>
    cases word with
    | control tile addr chunk =>
      simp only [ConfigMemories.word, stepMemories, controlCfgWe, haccept, hmem, landing,
        decide_eq_true_eq, true_and, true_implies, ConfigWord.control.injEq]
      by_cases hbank : (s.seq.stage = .config ∧ tile = cfgTileIdx u) ∧ addr = u.cfgAddr.setWidth 8
      · obtain ⟨⟨hstage, rfl⟩, rfl⟩ := hbank
        simp only [hstage, and_self, if_true, true_and, chunkOf_writeChunk]
      · rw [if_neg hbank, if_neg]
        rintro ⟨hstage, htile, haddr, -⟩
        exact hbank ⟨⟨hstage, htile⟩, haddr⟩
    | const tile addr =>
      simp [ConfigMemories.word, stepMemories, constCfgWe, hmem, landing]
    | scratch addr =>
      simp [ConfigMemories.word, stepMemories, scratchCfgAccept, hmem, landing, hidle]
  | const =>
    cases word with
    | control tile addr chunk =>
      simp [ConfigMemories.word, stepMemories, controlCfgWe, hmem, landing]
    | const tile addr =>
      simp [ConfigMemories.word, stepMemories, constCfgWe, hmem, haccept, landing]
    | scratch addr =>
      simp [ConfigMemories.word, stepMemories, scratchCfgAccept, hmem, landing, hidle]
  | scratch =>
    have hscratch := h.scratch hmem
    cases word with
    | control tile addr chunk =>
      simp [ConfigMemories.word, stepMemories, controlCfgWe, hmem, landing]
    | const tile addr =>
      simp [ConfigMemories.word, stepMemories, constCfgWe, hmem, landing]
    | scratch addr =>
      simp only [ConfigMemories.word, stepMemories, hscratch, if_true, hidle, hmem, landing,
        reduceCtorEq, false_implies, true_and, ConfigWord.scratch.injEq]
      rw [Function.update_apply]

/-- A named word is the one at the cut address. -/
theorem landing_of_addressed {word : ConfigWord} (h : addressed u = some word) :
    word = landing u := by
  unfold addressed at h
  unfold landing
  split at h
  · split at h
    · rename_i hmem _
      rw [hmem]
      exact (Option.some.inj h).symm
    · cases h
  · split at h
    · rename_i hmem _
      rw [hmem]
      exact (Option.some.inj h).symm
    · cases h
  · rename_i hmem
    rw [hmem]
    exact (Option.some.inj h).symm
  · cases h

/-- A cycle writes exactly if what it enables agrees with what is named, or the word at the cut
address has the data already. -/
theorem writesExactly_iff (h : Offered s u) (htype : u.cfgMemType ≠ .loopDesc) :
    WritesExactly m (stepMemories s u operands m) u ↔
      ((u.cfgMemType = .control → s.seq.stage = .config) ↔ addressed u = some (landing u)) ∨
        m.word (landing u) = u.cfgWdata := by
  unfold WritesExactly
  constructor
  · intro hexact
    have hlanding := hexact (landing u)
    rw [stepMemories_word h htype] at hlanding
    by_cases henabled : u.cfgMemType = .control → s.seq.stage = .config
    · by_cases hnamed : addressed u = some (landing u)
      · exact .inl ⟨fun _ ↦ hnamed, fun _ ↦ henabled⟩
      · rw [if_pos ⟨henabled, rfl⟩, if_neg hnamed] at hlanding
        exact .inr hlanding.symm
    · by_cases hnamed : addressed u = some (landing u)
      · rw [if_neg fun hboth ↦ henabled hboth.1, if_pos hnamed] at hlanding
        exact .inr hlanding
      · exact .inl ⟨fun hyes ↦ absurd hyes henabled, fun hyes ↦ absurd hyes hnamed⟩
  · intro hagree word
    rw [stepMemories_word h htype]
    by_cases hword : word = landing u
    · subst hword
      rcases hagree with hiff | hsame
      · simp only [and_true, hiff]
      · rw [hsame, ite_self, ite_self]
    · rw [if_neg fun hboth ↦ hword hboth.2, if_neg fun hnamed ↦ hword (landing_of_addressed hnamed)]

/-- Which words are named. -/
theorem arrives_iff (htype : u.cfgMemType ≠ .loopDesc) :
    ((u.cfgMemType = .control → s.seq.stage = .config) ↔ addressed u = some (landing u)) ∨
        m.word (landing u) = u.cfgWdata ↔
      Arrives s.seq.stage m u := by
  cases hmem : u.cfgMemType with
  | loopDesc => exact absurd hmem htype
  | control => by_cases hlt : u.cfgAddr.toNat < ctrlMemDepth <;>
      simp [Arrives, addressed, landing, hmem, hlt]
  | const => by_cases hlt : u.cfgAddr.toNat < constMemDepth ∧ u.cfgWordIdx = 0 <;>
      simp [Arrives, addressed, landing, hmem, hlt]
  | scratch => simp [Arrives, addressed, landing, hmem]

end Step

/-! ## Whole runs -/

/-- **Configuration writes.** In a run from reset, for any inputs, memory contents and data paths, a
write that is offered while the module is ready, in a cycle in which no simulation stops, changes
the word it names and no other exactly if it arrives. -/
theorem config_write_exact_iff (inputs : ℕ → TopInputs) (operands : ℕ → Fin tiles → LsuOperands)
    (initial : ConfigMemories) (n : ℕ) (h : Offered (run inputs n) (inputs n))
    (htype : (inputs n).cfgMemType ≠ .loopDesc) :
    WritesExactly (memories inputs operands initial n) (memories inputs operands initial (n + 1))
        (inputs n) ↔
      Arrives (run inputs n).seq.stage (memories inputs operands initial n) (inputs n) := by
  rw [memories, writesExactly_iff h htype, arrives_iff htype]

/-! ### A write in DONE

A run of one cycle, and then a write to the first control word in DONE. -/

def writeInDone : ℕ → TopInputs
  | 0 => { start := true, runCycles := 1 }
  | 2 => { cfgValid := true, cfgWe := true, cfgMemType := .control, cfgWdata := 1 }
  | _ => {}

/-- Memories of zeros. -/
def blank : ConfigMemories := ⟨fun _ _ ↦ 0, fun _ _ ↦ 0, fun _ ↦ 0⟩

def noOperands : ℕ → Fin tiles → LsuOperands := fun _ _ ↦ ⟨0, false, 0, false, false, false⟩

theorem writeInDone_offered : Offered (run writeInDone 2) (writeInDone 2) where
  valid := rfl
  ready := by decide
  we := rfl
  clean := by decide
  gated := by
    unfold Gated
    decide

theorem writeInDone_blank :
    (memories writeInDone noOperands blank 2).word (landing (writeInDone 2)) = 0 := by
  decide

/-- A write to a control memory in DONE is offered, stops no simulation, and is lost. -/
theorem write_in_done_lost :
    Offered (run writeInDone 2) (writeInDone 2) ∧
      ¬ WritesExactly (memories writeInDone noOperands blank 2)
        (memories writeInDone noOperands blank 3) (writeInDone 2) := by
  refine ⟨writeInDone_offered, fun h ↦ ?_⟩
  have hword := h (landing (writeInDone 2))
  revert hword
  decide

/-- Neither is the module in CONFIG nor does the word have the data. -/
theorem write_in_done_not_exact :
    ¬ WritesExactly (memories writeInDone noOperands blank 2)
      (memories writeInDone noOperands blank 3) (writeInDone 2) := by
  rw [config_write_exact_iff writeInDone noOperands blank 2 writeInDone_offered (by decide)]
  rintro (hiff | hsame)
  · revert hiff
    decide
  · have hzero := writeInDone_blank.symm.trans hsame
    revert hzero
    decide

end PredicatedMesh.RTL
