import PredicatedMesh.Schedule.Checked
import PredicatedMesh.Schedule.KernelWindow

/-!
# Placing the events

Every stream has one event in the kernel body, which stands for as many iterations as the kernel is
repeated; the iterations before and after are written out, and so are the boundary events. Unrolled,
the phases hold every iteration of every stream once, which makes the schedule one that the verifier
accepts.
-/

namespace PredicatedMesh

open Scan

/-! ## Bundles -/

/-- The events of consecutive bundles are those placed in their cycles. -/
theorem ScheduleMaterializer.timed_bundles (offset base count : ℕ)
    (placed : List (ℕ × MaterializedEvent)) :
    (timed (offset + base) (bundles base count placed)).Perm
      ((placed.filter fun item ↦ base ≤ item.1 && item.1 < base + count).map fun item ↦
        (offset + item.1, item.2)) := by
  induction count generalizing base with
  | zero =>
    have hnone : (placed.filter fun item ↦ base ≤ item.1 && item.1 < base + 0) = [] := by
      rw [List.filter_eq_nil_iff]
      intro item _
      simp
    rw [hnone]
    exact List.Perm.refl _
  | succ count ih =>
    have hsplit := List.filter_append_perm (fun item : ℕ × MaterializedEvent ↦ item.1 == base)
      (placed.filter fun item ↦ base ≤ item.1 && item.1 < base + (count + 1))
    have hhere : (placed.filter fun item ↦ base ≤ item.1 && item.1 < base + (count + 1)).filter
        (fun item ↦ item.1 == base) = placed.filter fun item ↦ item.1 == base := by
      rw [List.filter_filter]
      refine List.filter_congr fun item _ ↦ ?_
      rw [Bool.eq_iff_iff]
      simp only [Bool.and_eq_true, beq_iff_eq, decide_eq_true_eq]
      omega
    have hlater : (placed.filter fun item ↦ base ≤ item.1 && item.1 < base + (count + 1)).filter
        (fun item ↦ !(item.1 == base))
          = placed.filter fun item ↦ base + 1 ≤ item.1 && item.1 < base + 1 + count := by
      rw [List.filter_filter]
      refine List.filter_congr fun item _ ↦ ?_
      rw [Bool.eq_iff_iff]
      simp only [Bool.and_eq_true, Bool.not_eq_true', beq_eq_false_iff_ne, decide_eq_true_eq]
      omega
    rw [hhere, hlater] at hsplit
    have hcycle : ((placed.filter fun item ↦ item.1 == base).map fun item ↦
        (offset + item.1, item.2)) = ((placed.filter fun item ↦ item.1 == base).map Prod.snd).map
          fun event ↦ (offset + base, event) := by
      rw [List.map_map]
      refine List.map_congr_left fun item hitem ↦ ?_
      have hbase : item.1 = base := by simpa using (List.mem_filter.mp hitem).2
      rw [Function.comp_apply, hbase]
    rw [bundles, List.range'_succ, List.map_cons, timed_cons]
    refine List.Perm.trans ?_ (hsplit.map _)
    rw [List.map_append, hcycle]
    exact ((List.perm_insertionSort _ _).map _).append (ih (base + 1))

namespace ScheduleMaterializer

/-! ## The layout of the phases -/

/-- A layout whose kernel, if there is one, lies between whole periods before the end, with an event
of every stream in each of its periods. -/
structure PhaseLayout.Sound (layout : PhaseLayout) (ii totalCycles : ℕ)
    (streams : List (Timed PeriodicStream)) (shots : List (Timed OneShot)) : Prop where
  ii_eq : layout.ii = ii
  totalCycles_eq : layout.totalCycles = totalCycles
  kernel : layout.hasKernel = true → layout.first ≤ layout.last ∧
    layout.kernelRepeatCount = layout.last - layout.first + 1 ∧
    layout.kernelStartCycle = layout.first * ii ∧
    layout.kernelEndCycle = (layout.last + 1) * ii ∧ layout.kernelEndCycle ≤ totalCycles
  none : layout.hasKernel = false → layout.kernelRepeatCount = 0 ∧ layout.kernelEndCycle = 0
  covered : layout.hasKernel = true → ∀ stream ∈ streams,
    InStream ii stream layout.first ∧ InStream ii stream layout.last
  free : layout.hasKernel = true → ∀ shot ∈ shots,
    shot.cycle / ii < layout.first ∨ layout.last < shot.cycle / ii

/-- A cycle outside the kernel. -/
def PhaseLayout.Outside (layout : PhaseLayout) (cycle : ℕ) : Prop :=
  cycle < layout.prologueCycles ∨ layout.hasKernel = true ∧ layout.kernelEndCycle ≤ cycle

/-- The iterations of a stream before the kernel and after it. -/
def PhaseLayout.before (layout : PhaseLayout) (stream : Timed PeriodicStream) : ℕ :=
  if layout.hasKernel then layout.first - stream.cycle / layout.ii else stream.item.count

def PhaseLayout.after (layout : PhaseLayout) (stream : Timed PeriodicStream) : ℕ :=
  if layout.hasKernel then
    stream.cycle / layout.ii + stream.item.count - (layout.last + 1) else 0

/-- Iteration `j` of a stream and its cycle. -/
def occurrence (ii : ℕ) (stream : Timed PeriodicStream) (j : ℕ) : ℕ × MaterializedEvent :=
  (stream.cycle + j * ii, stream.item.event.advance j)

/-- The layout of a window has a kernel when the window has a period, and covers it. -/
theorem layoutOf_spec {ii totalCycles : ℕ} {hasStreams : Bool} {window : ℕ × ℕ}
    {layout : PhaseLayout} (h : layoutOf ii totalCycles hasStreams window = .ok layout) :
    layout.ii = ii ∧ layout.totalCycles = totalCycles ∧
      layout.hasKernel = (hasStreams && decide (window.1 ≤ window.2)) ∧
      (layout.hasKernel = true → layout.first = window.1 ∧ layout.last = window.2 ∧
        layout.kernelRepeatCount = window.2 - window.1 + 1 ∧
        layout.kernelStartCycle = window.1 * ii ∧ layout.kernelEndCycle = (window.2 + 1) * ii) ∧
      (layout.hasKernel = false → layout.kernelRepeatCount = 0 ∧ layout.kernelEndCycle = 0) := by
  unfold layoutOf at h
  split at h
  · rename_i hkernel
    obtain ⟨repeatCount, hrepeat, h⟩ := bind_eq_ok.mp h
    obtain ⟨kernelStart, hstart, h⟩ := bind_eq_ok.mp h
    obtain ⟨kernelEnd, hend, h⟩ := bind_eq_ok.mp h
    obtain rfl := Except.ok.inj h
    obtain ⟨endPlusOne, hplus, hend⟩ := Option.bind_eq_some_iff.mp (orOverflow_eq_ok.mp hend)
    refine ⟨rfl, rfl, by simp [hkernel], fun _ ↦ ⟨rfl, rfl, ?_, ?_, ?_⟩, fun hnone ↦ by cases hnone⟩
    · exact addUnsigned_eq_some (orOverflow_eq_ok.mp hrepeat)
    · exact mulUnsigned_eq_some (orOverflow_eq_ok.mp hstart)
    · rw [mulUnsigned_eq_some hend, addUnsigned_eq_some hplus]
  · rename_i hkernel
    obtain rfl := Except.ok.inj h
    refine ⟨rfl, rfl, ?_, fun hsome ↦ (by cases hsome), fun _ ↦ ⟨rfl, rfl⟩⟩
    simpa using hkernel

theorem exists_layoutOf {ii totalCycles : ℕ} {hasStreams : Bool} {window : ℕ × ℕ} (hii : 0 < ii)
    (h : hasStreams = true → window.1 ≤ window.2 → (window.2 + 1) * ii ≤ uint64Max) :
    ∃ layout, layoutOf ii totalCycles hasStreams window = .ok layout := by
  unfold layoutOf
  split
  · rename_i hkernel
    have hend := h hkernel.1 hkernel.2
    have hlast : window.2 + 1 ≤ uint64Max := (Nat.le_mul_of_pos_right _ hii).trans hend
    have hstart : window.1 * ii ≤ uint64Max :=
      (Nat.mul_le_mul_right ii (hkernel.2.trans (Nat.le_succ _))).trans hend
    have hkernelEnd : ((addUnsigned window.2 1).bind fun endPlusOne ↦ mulUnsigned endPlusOne ii)
        = some ((window.2 + 1) * ii) := by
      rw [addUnsigned_of_le hlast, Option.bind_some, mulUnsigned_of_le hend]
    exact ⟨_, bind_eq_ok.mpr ⟨_, orOverflow_eq_ok.mpr (addUnsigned_of_le (by omega)),
      bind_eq_ok.mpr ⟨_, orOverflow_eq_ok.mpr (mulUnsigned_of_le hstart),
      bind_eq_ok.mpr ⟨_, orOverflow_eq_ok.mpr hkernelEnd, rfl⟩⟩⟩⟩
  · exact ⟨_, rfl⟩

namespace PhaseLayout.Sound

variable {layout : PhaseLayout} {ii totalCycles : ℕ} {streams : List (Timed PeriodicStream)}
variable {shots : List (Timed OneShot)}

/-- The phases cover the cycles. -/
theorem phases_eq (h : layout.Sound ii totalCycles streams shots) (htotal : totalCycles < 2 ^ 64) :
    layout.prologueCycles + layout.kernelRepeatCount * ii + layout.epilogueCycles = totalCycles ∧
      (layout.hasKernel = true →
        layout.prologueCycles + layout.kernelRepeatCount * ii = layout.kernelEndCycle) := by
  have htotalEq := h.totalCycles_eq
  cases hkernel : layout.hasKernel with
  | false =>
    obtain ⟨hrepeat, -⟩ := h.none hkernel
    simp [prologueCycles, epilogueCycles, hkernel, hrepeat, htotalEq]
  | true =>
    obtain ⟨hle, hrepeat, hstart, hend, hfits⟩ := h.kernel hkernel
    have hcover : layout.prologueCycles + layout.kernelRepeatCount * ii
        = layout.kernelEndCycle := by
      rw [prologueCycles, if_pos hkernel, hrepeat, hstart, hend, ← Nat.add_mul]
      congr 1
      omega
    refine ⟨?_, fun _ ↦ hcover⟩
    rw [hcover, epilogueCycles, if_pos hkernel, htotalEq, subtractUnsigned]
    omega

/-- The iterations before the kernel, in it and after it are all there are. -/
theorem before_add (h : layout.Sound ii totalCycles streams shots) {stream : Timed PeriodicStream}
    (hstream : stream ∈ streams) (hcount : stream.item.count ≠ 0) :
    layout.before stream + layout.kernelRepeatCount + layout.after stream
      = stream.item.count := by
  rw [before, after, h.ii_eq]
  cases hkernel : layout.hasKernel with
  | false => simp [(h.none hkernel).1]
  | true =>
    obtain ⟨hle, hrepeat, -⟩ := h.kernel hkernel
    obtain ⟨⟨hfirst, -⟩, -, hlast⟩ := h.covered hkernel stream hstream
    simp only [if_true, hrepeat]
    omega

/-- The iterations before the kernel lie outside it. -/
theorem outside_before (h : layout.Sound ii totalCycles streams shots) (hii : 0 < ii)
    {stream : Timed PeriodicStream} {j : ℕ} (hj : j < layout.before stream)
    (hlt : stream.cycle + j * ii < totalCycles) : layout.Outside (stream.cycle + j * ii) := by
  left
  rw [before, h.ii_eq] at hj
  rw [prologueCycles]
  split
  · rename_i hkernel
    rw [if_pos hkernel] at hj
    rw [(h.kernel hkernel).2.2.1, ← Nat.div_lt_iff_lt_mul hii, Nat.add_mul_div_right _ _ hii]
    omega
  · rw [h.totalCycles_eq]
    exact hlt

/-- The iterations after the kernel lie outside it. -/
theorem outside_after (h : layout.Sound ii totalCycles streams shots) (hii : 0 < ii)
    {stream : Timed PeriodicStream} {j : ℕ} (hj : j < stream.item.count)
    (hafter : stream.item.count - layout.after stream ≤ j) :
    layout.Outside (stream.cycle + j * ii) := by
  rw [after, h.ii_eq] at hafter
  split at hafter
  · rename_i hkernel
    refine .inr ⟨hkernel, ?_⟩
    rw [(h.kernel hkernel).2.2.2.1, ← Nat.le_div_iff_mul_le hii, Nat.add_mul_div_right _ _ hii]
    omega
  · omega

/-- Boundary events lie outside the kernel. -/
theorem outside_shot (h : layout.Sound ii totalCycles streams shots) (hii : 0 < ii)
    {shot : Timed OneShot} (hshot : shot ∈ shots) (hlt : shot.cycle < totalCycles) :
    layout.Outside shot.cycle := by
  cases hkernel : layout.hasKernel with
  | false =>
    left
    rw [prologueCycles, hkernel, h.totalCycles_eq]
    exact hlt
  | true =>
    obtain ⟨-, -, hstart, hend, -⟩ := h.kernel hkernel
    rcases h.free hkernel shot hshot with hbefore | hafter
    · left
      rw [prologueCycles, if_pos hkernel, hstart, ← Nat.div_lt_iff_lt_mul hii]
      exact hbefore
    · right
      refine ⟨hkernel, ?_⟩
      rw [hend, ← Nat.le_div_iff_mul_le hii]
      exact hafter

/-- The event of a stream in the kernel body is its first iteration in the kernel. -/
theorem kernel_cycle (h : layout.Sound ii totalCycles streams shots)
    (hkernel : layout.hasKernel = true) {stream : Timed PeriodicStream}
    (hstream : stream ∈ streams) :
    layout.prologueCycles + (stream.cycle + layout.before stream * ii) % ii
      = stream.cycle + layout.before stream * ii := by
  obtain ⟨⟨hfirst, -⟩, -⟩ := h.covered hkernel stream hstream
  have hcycle := Nat.div_add_mod stream.cycle ii
  have hbefore : layout.first = stream.cycle / ii + layout.before stream := by
    rw [before, if_pos hkernel, h.ii_eq]
    omega
  rw [prologueCycles, if_pos hkernel, (h.kernel hkernel).2.2.1, Nat.add_mul_mod_self_right, hbefore,
    Nat.add_mul]
  rw [Nat.mul_comm] at hcycle
  omega

end PhaseLayout.Sound

/-! ## Every stream -/

section Streams

variable {dfg : TargetDFG} {target : TargetModel} {mapping : RFAllocatedMapping}
variable {tripCount shift : ℕ} {streams : List (Timed PeriodicStream)}
variable {shots : List (Timed OneShot)}
variable {layout : PhaseLayout} {totalCycles : ℕ}

theorem appendExplicit_eq {ii : ℕ} (h : layout.Sound ii totalCycles streams shots)
    (htotal : totalCycles < 2 ^ 64) {cycle : ℕ} (hout : layout.Outside cycle)
    (hlt : cycle < totalCycles) (event : MaterializedEvent) :
    appendExplicit layout event cycle = .ok (cycle, event) := by
  unfold appendExplicit
  split
  · rfl
  rename_i hprologue
  obtain ⟨hkernel, hend⟩ := hout.resolve_left hprologue
  have hindex : subtractUnsigned cycle layout.kernelEndCycle = cycle - layout.kernelEndCycle := by
    rw [subtractUnsigned]
    omega
  have hepilogue : layout.epilogueCycles = totalCycles - layout.kernelEndCycle := by
    rw [PhaseLayout.epilogueCycles, if_pos hkernel, h.totalCycles_eq, subtractUnsigned]
    omega
  rw [hindex, hepilogue]
  simp only
  rw [if_neg (by omega), Nat.add_sub_cancel' hend]

/-- The cycles of a placed stream fit, and so do its iterations. -/
theorem occurrence_fits (hs : Schedulable dfg target mapping tripCount shift) {key : PeriodicKey}
    {stream : Timed PeriodicStream} (hplaced : Placed dfg mapping tripCount shift key stream)
    {j : ℕ} (hj : j < tripCount) :
    ((stream.cycle + j * mapping.staged.modulo.ii : ℕ) : ℤ) < int64Max ∧
      int64Min ≤ stream.item.event.logicalIteration ∧
      stream.item.event.logicalIteration + j ≤ int64Max ∧
      stream.item.event.logicalIteration ≤ 0 := by
  obtain ⟨time, last, hstream, -⟩ := hplaced.carries.genuine
  have hreach := hs.fits.first_le hs.verified hs.pos hstream
  have hcount := hs.count_le
  have hmin : int64Min = -int64Max - 1 := by decide
  exact ⟨hs.fits.lt _ _ (hplaced.occursAt hj), by omega, by omega, hreach.2⟩

/-- An iteration outside the kernel is written out. -/
theorem appendStreamInstance_eq (hs : Schedulable dfg target mapping tripCount shift)
    (h : layout.Sound mapping.staged.modulo.ii totalCycles streams shots)
    (htotal : totalCycles < 2 ^ 64) {key : PeriodicKey} {stream : Timed PeriodicStream}
    (hplaced : Placed dfg mapping tripCount shift key stream) {j : ℕ} (hj : j < tripCount)
    (hout : layout.Outside (stream.cycle + j * mapping.staged.modulo.ii))
    (hlt : stream.cycle + j * mapping.staged.modulo.ii < totalCycles) :
    appendStreamInstance layout stream j
      = .ok [occurrence mapping.staged.modulo.ii stream j] := by
  obtain ⟨hcycle, hlower, hupper, hnonpos⟩ := occurrence_fits hs hplaced hj
  have hmin : int64Min = -int64Max - 1 := by decide
  have hspanNonneg : (0 : ℤ) ≤ (j : ℤ) * mapping.staged.modulo.ii := by positivity
  push_cast at hcycle
  have hlogical : addSigned stream.item.event.logicalIteration j
      = some (stream.item.event.logicalIteration + j) :=
    addSigned_of_has (int64_has.mpr ⟨hlower, by omega⟩) (int64_has.mpr ⟨by omega, hupper⟩)
  have hspan : mulSigned j layout.ii = some ((j : ℤ) * layout.ii) := by
    rw [h.ii_eq]
    exact mulSigned_of_has (int64_has.mpr ⟨by omega, by omega⟩)
  have hsum : (mulSigned j layout.ii).bind (fun span ↦ addSigned stream.cycle span)
      = some ((stream.cycle + j * mapping.staged.modulo.ii : ℕ) : ℤ) := by
    rw [hspan, Option.bind_some, h.ii_eq, addSigned_of_has (int64_has.mpr ⟨by omega, by omega⟩)
      (int64_has.mpr ⟨by omega, by omega⟩)]
    push_cast
    rfl
  refine bind_eq_ok.mpr ⟨_, orOverflow_eq_ok.mpr hlogical, bind_eq_ok.mpr
    ⟨_, orOverflow_eq_ok.mpr hsum, ?_⟩⟩
  have houtside : layout.hasKernel = false
      ∨ ((stream.cycle + j * mapping.staged.modulo.ii : ℕ) : ℤ) < layout.kernelStartCycle
      ∨ ((stream.cycle + j * mapping.staged.modulo.ii : ℕ) : ℤ) ≥ layout.kernelEndCycle := by
    rcases hout with hbefore | ⟨-, hafter⟩
    · rw [PhaseLayout.prologueCycles] at hbefore
      split at hbefore
      · exact .inr (.inl (by exact_mod_cast hbefore))
      · rename_i hnone
        exact .inl (by simpa using hnone)
    · exact .inr (.inr (by exact_mod_cast hafter))
  rw [if_neg (not_lt.mpr (Int.natCast_nonneg _)), if_pos houtside, Int.toNat_natCast]
  exact bind_eq_ok.mpr ⟨_, appendExplicit_eq h htotal hout hlt _, rfl⟩

/-- The events of a stream in the kernel body and outside the kernel. -/
def kernelItems (layout : PhaseLayout) (ii : ℕ) (stream : Timed PeriodicStream) :
    List (ℕ × MaterializedEvent) :=
  if layout.hasKernel then
    [((stream.cycle + layout.before stream * ii) % ii,
      stream.item.event.advance (layout.before stream))]
  else []

def explicitItems (layout : PhaseLayout) (ii : ℕ) (stream : Timed PeriodicStream) :
    List (ℕ × MaterializedEvent) :=
  (List.range (layout.before stream)).map (occurrence ii stream)
    ++ (List.range' (stream.item.count - layout.after stream) (layout.after stream)).map
      (occurrence ii stream)

theorem kernelEvent_eq (hs : Schedulable dfg target mapping tripCount shift)
    (h : layout.Sound mapping.staged.modulo.ii totalCycles streams shots) {key : PeriodicKey}
    {stream : Timed PeriodicStream} (hstream : stream ∈ streams)
    (hplaced : Placed dfg mapping tripCount shift key stream) :
    kernelEvent layout stream = .ok (kernelItems layout mapping.staged.modulo.ii stream) := by
  unfold kernelEvent kernelItems
  split
  · rename_i hkernel
    obtain ⟨⟨hfirst, hlast⟩, -⟩ := h.covered hkernel stream hstream
    have hbefore : layout.first - stream.cycle / layout.ii = layout.before stream := by
      rw [PhaseLayout.before, if_pos hkernel]
    have hpos := hs.pos
    have hcount := hplaced.carries.count_eq
    have hlt : layout.before stream < stream.item.count := by
      rw [← hbefore, h.ii_eq]
      omega
    have hmax : (int64Max : ℤ) ≤ uint64Max := by decide
    have hcycle := (occurrence_fits hs hplaced (hcount ▸ hlt)).1
    have hsum : ((mulUnsigned (layout.before stream) layout.ii).bind fun offset ↦
        addUnsigned stream.cycle offset)
          = some (stream.cycle + layout.before stream * mapping.staged.modulo.ii) := by
      rw [h.ii_eq, mulUnsigned_of_le (by omega), Option.bind_some, addUnsigned_of_le (by omega)]
    simp only [hbefore]
    rw [if_neg (by omega), hsum, h.ii_eq]
    rfl
  · rfl

theorem outsideKernel_eq (hs : Schedulable dfg target mapping tripCount shift)
    (h : layout.Sound mapping.staged.modulo.ii totalCycles streams shots)
    (htotal : totalCycles < 2 ^ 64) {key : PeriodicKey} {stream : Timed PeriodicStream}
    (hplaced : Placed dfg mapping tripCount shift key stream) :
    outsideKernel layout stream = .ok (layout.before stream, layout.after stream) := by
  unfold outsideKernel PhaseLayout.before PhaseLayout.after
  split
  · rename_i hkernel
    obtain ⟨-, -, -, hend, hle⟩ := h.kernel hkernel
    have hfits : layout.last + 1 ≤ totalCycles :=
      (Nat.le_mul_of_pos_right _ hs.verified.staged.ii_pos).trans (hend ▸ hle)
    have hcycle := (occurrence_fits hs hplaced (Nat.pos_of_ne_zero hs.pos)).1
    have hdiv := Nat.div_le_self stream.cycle layout.ii
    have hcount := hs.count_le
    have hcountEq := hplaced.carries.count_eq
    have hmax : 2 * int64Max ≤ uint64Max := by decide
    have hunsigned : uint64Max = 2 ^ 64 - 1 := by decide
    refine bind_eq_ok.mpr ⟨_, orOverflow_eq_ok.mpr (addUnsigned_of_le (by omega)), bind_eq_ok.mpr
      ⟨_, orOverflow_eq_ok.mpr (addUnsigned_of_le (by omega)), ?_⟩⟩
    split
    · rfl
    · rename_i hle
      rw [Nat.sub_eq_zero_of_le (not_lt.mp hle)]
      rfl
  · rfl

/-- **Every stream is placed**, within the budget of explicit events. -/
theorem placeStreams_eq (hs : Schedulable dfg target mapping tripCount shift)
    (h : layout.Sound mapping.staged.modulo.ii totalCycles streams shots)
    (htotal : totalCycles < 2 ^ 64)
    (hlt : ∀ name cycle, OccursAt dfg mapping tripCount shift name cycle →
      cycle < (totalCycles : ℤ))
    {budget : ℕ} (hbudget : budget ≤ uint64Max) {placed : List (Timed PeriodicStream)}
    (hplaced : ∀ stream ∈ placed, stream ∈ streams ∧ ∃ key,
      Placed dfg mapping tripCount shift key stream)
    {planned : ℕ} (hplanned : planned
      + (placed.map fun stream ↦ layout.before stream + layout.after stream).sum ≤ budget) :
    placeStreams layout budget planned placed
      = .ok (placed.flatMap (kernelItems layout mapping.staged.modulo.ii),
        placed.flatMap (explicitItems layout mapping.staged.modulo.ii)) := by
  have hii := hs.verified.staged.ii_pos
  induction placed generalizing planned with
  | nil => rfl
  | cons stream placed ih =>
    obtain ⟨⟨hmem, key, hstream⟩, hrest⟩ := List.forall_mem_cons.mp hplaced
    have hcount := hstream.carries.count_eq
    have hall := h.before_add hmem (hcount ▸ hs.pos)
    rw [List.map_cons, List.sum_cons] at hplanned
    have hcycle : ∀ j < tripCount,
        stream.cycle + j * mapping.staged.modulo.ii < totalCycles := fun j hj ↦ by
      exact_mod_cast hlt _ _ (hstream.occursAt hj)
    have hbefore : (List.range (layout.before stream)).mapM (appendStreamInstance layout stream)
        = .ok ((List.range (layout.before stream)).map fun j ↦
          [occurrence mapping.staged.modulo.ii stream j]) := by
      refine mapM_eq_map fun j hj ↦ ?_
      have hj := List.mem_range.mp hj
      exact appendStreamInstance_eq hs h htotal hstream (by omega)
        (h.outside_before hii hj (hcycle j (by omega))) (hcycle j (by omega))
    have hafter : (if layout.hasKernel then
          List.range' (stream.item.count - layout.after stream) (layout.after stream)
          else []).mapM (appendStreamInstance layout stream)
        = .ok ((List.range' (stream.item.count - layout.after stream)
          (layout.after stream)).map fun j ↦ [occurrence mapping.staged.modulo.ii stream j]) := by
      split
      · refine mapM_eq_map fun j hj ↦ ?_
        have hj := List.mem_range'_1.mp hj
        exact appendStreamInstance_eq hs h htotal hstream (by omega)
          (h.outside_after hii (by omega) hj.1) (hcycle j (by omega))
      · rename_i hkernel
        have hnone : layout.after stream = 0 := by rw [PhaseLayout.after, if_neg hkernel]
        rw [hnone]
        rfl
    have hsum : (addUnsigned (layout.before stream) (layout.after stream)).bind
        (addUnsigned planned) = some (planned + (layout.before stream + layout.after stream)) := by
      rw [addUnsigned_of_le (by omega), Option.bind_some, addUnsigned_of_le (by omega)]
    refine bind_eq_ok.mpr ⟨_, kernelEvent_eq hs h hmem hstream, bind_eq_ok.mpr
      ⟨_, outsideKernel_eq hs h htotal hstream, ?_⟩⟩
    simp only [hsum]
    rw [if_neg (by omega)]
    refine bind_eq_ok.mpr ⟨_, hbefore, bind_eq_ok.mpr ⟨_, hafter, bind_eq_ok.mpr
      ⟨_, ih hrest (by omega), ?_⟩⟩⟩
    simp [explicitItems, pure, Except.pure, ← List.flatMap_def, ← List.map_eq_flatMap]

/-! ## The schedule unrolled -/

/-- What is written out. -/
def written (layout : PhaseLayout) (streams : List (Timed PeriodicStream))
    (shots : List (Timed OneShot)) : List (ℕ × MaterializedEvent) :=
  streams.flatMap (explicitItems layout layout.ii)
    ++ shots.map fun shot ↦ (shot.cycle, shot.item.event)

/-- The schedule of what is placed. -/
def scheduleOf (layout : PhaseLayout) (tripCount shift : ℕ)
    (streams : List (Timed PeriodicStream)) (shots : List (Timed OneShot)) : MaterializedSchedule :=
  ⟨layout.ii, tripCount, shift, layout.totalCycles,
    ⟨bundles 0 layout.prologueCycles (written layout streams shots)⟩,
    ⟨if layout.hasKernel then
        bundles 0 layout.ii (streams.flatMap (kernelItems layout layout.ii)) else [],
      layout.kernelRepeatCount⟩,
    ⟨bundles layout.kernelEndCycle layout.epilogueCycles (written layout streams shots)⟩⟩

@[simp] theorem length_bundles (base count : ℕ) (placed : List (ℕ × MaterializedEvent)) :
    (bundles base count placed).length = count := by
  simp [bundles]

theorem scheduleOf_shape {ii : ℕ} (h : layout.Sound ii totalCycles streams shots) :
    (scheduleOf layout tripCount shift streams shots).KernelShape := by
  constructor
  · intro hzero
    cases hkernel : layout.hasKernel with
    | false => simp [scheduleOf, hkernel]
    | true =>
      obtain ⟨-, hrepeat, -⟩ := h.kernel hkernel
      simp [scheduleOf, hrepeat] at hzero
  · intro hne
    cases hkernel : layout.hasKernel with
    | false => exact absurd (h.none hkernel).1 hne
    | true => simp [scheduleOf, hkernel]

theorem checkPhases_scheduleOf {ii : ℕ} (h : layout.Sound ii totalCycles streams shots)
    (htotal : totalCycles < 2 ^ 64) (tripCount shift : ℕ) :
    MaterializedScheduleVerifier.checkPhases (scheduleOf layout tripCount shift streams shots)
      = [] := by
  obtain ⟨hphases, -⟩ := h.phases_eq htotal
  have hmax : uint64Max = 2 ^ 64 - 1 := by decide
  have hkernel : ¬ (layout.kernelRepeatCount ≠ 0
      ∧ ii > uint64Max / layout.kernelRepeatCount) := by
    rintro ⟨hne, hlarge⟩
    rw [gt_iff_lt, Nat.div_lt_iff_lt_mul (Nat.pos_of_ne_zero hne), Nat.mul_comm] at hlarge
    omega
  simp only [MaterializedScheduleVerifier.checkPhases, scheduleOf, length_bundles,
    h.totalCycles_eq, h.ii_eq]
  rw [if_neg hkernel]
  simp only [require_eq_nil_iff, Bool.and_eq_true, decide_eq_true_eq, beq_iff_eq]
  omega

theorem later_occurrence (ii k j : ℕ) (stream : Timed PeriodicStream) :
    later ii k (occurrence ii stream j) = occurrence ii stream (j + k) := by
  simp only [later, occurrence, MaterializedEvent.advance, Prod.mk.injEq]
  refine ⟨by ring, ?_⟩
  simp [add_assoc]

/-- What is written out lies outside the kernel, in the cycles of the schedule. -/
theorem written_outside (hs : Schedulable dfg target mapping tripCount shift)
    (h : layout.Sound mapping.staged.modulo.ii totalCycles streams shots)
    (hlisted : Listed dfg mapping tripCount shift streams shots)
    (hlt : ∀ name cycle, OccursAt dfg mapping tripCount shift name cycle →
      cycle < (totalCycles : ℤ)) {item : ℕ × MaterializedEvent}
    (hitem : item ∈ written layout streams shots) :
    layout.Outside item.1 ∧ item.1 < totalCycles := by
  have hii := hs.verified.staged.ii_pos
  rw [written, h.ii_eq] at hitem
  rcases List.mem_append.mp hitem with hitem | hitem
  · obtain ⟨stream, hmem, hitem⟩ := List.mem_flatMap.mp hitem
    obtain ⟨key, -, hplaced⟩ := exists_of_forall₂ hlisted.streams.flip stream hmem
    have hcount := hplaced.carries.count_eq
    have hall := h.before_add hmem (hcount ▸ hs.pos)
    have hcycle : ∀ j < tripCount,
        stream.cycle + j * mapping.staged.modulo.ii < totalCycles := fun j hj ↦ by
      exact_mod_cast hlt _ _ (hplaced.occursAt hj)
    rcases List.mem_append.mp hitem with hitem | hitem
    · obtain ⟨j, hj, rfl⟩ := List.mem_map.mp hitem
      have hj := List.mem_range.mp hj
      exact ⟨h.outside_before hii hj (hcycle j (by omega)), hcycle j (by omega)⟩
    · obtain ⟨j, hj, rfl⟩ := List.mem_map.mp hitem
      have hj := List.mem_range'_1.mp hj
      exact ⟨h.outside_after hii (by omega) hj.1, hcycle j (by omega)⟩
  · obtain ⟨shot, hmem, rfl⟩ := List.mem_map.mp hitem
    obtain ⟨name, -, hplaced⟩ := exists_of_forall₂ hlisted.shots.flip shot hmem
    have hcycle : shot.cycle < totalCycles := by exact_mod_cast hlt _ _ hplaced.occursAt
    exact ⟨h.outside_shot hii hmem hcycle, hcycle⟩

/-- The prologue and the epilogue hold what is written out. -/
theorem explicitEvents_perm {ii : ℕ} (h : layout.Sound ii totalCycles streams shots)
    (htotal : totalCycles < 2 ^ 64)
    (hwritten : ∀ item ∈ written layout streams shots,
      layout.Outside item.1 ∧ item.1 < totalCycles) :
    (scheduleOf layout tripCount shift streams shots).explicitEvents.Perm
      (written layout streams shots) := by
  obtain ⟨hphases, hkernelEnd⟩ := h.phases_eq htotal
  have hsplit := List.filter_append_perm (fun item ↦ decide (item.1 < layout.prologueCycles))
    (written layout streams shots)
  refine List.Perm.trans (List.Perm.append ?_ ?_) hsplit
  · have hprologue := timed_bundles 0 0 layout.prologueCycles (written layout streams shots)
    simpa [scheduleOf] using hprologue
  · have hepilogue := timed_bundles 0 layout.kernelEndCycle layout.epilogueCycles
      (written layout streams shots)
    have hbase : timed (scheduleOf layout tripCount shift streams shots).kernelEnd
        (scheduleOf layout tripCount shift streams shots).epilogue.cycles
          = timed (0 + layout.kernelEndCycle) (bundles layout.kernelEndCycle layout.epilogueCycles
              (written layout streams shots)) := by
      cases hkernel : layout.hasKernel with
      | false => simp [scheduleOf, PhaseLayout.epilogueCycles, hkernel, bundles, timed]
      | true =>
        rw [Nat.zero_add, ← hkernelEnd hkernel]
        simp [scheduleOf, MaterializedSchedule.kernelEnd, h.ii_eq, hkernelEnd hkernel]
    have hrest : (written layout streams shots).filter (fun item ↦
          layout.kernelEndCycle ≤ item.1
            && item.1 < layout.kernelEndCycle + layout.epilogueCycles)
        = (written layout streams shots).filter fun item ↦
          !decide (item.1 < layout.prologueCycles) := by
      refine List.filter_congr fun item hitem ↦ ?_
      obtain ⟨hout, hlt⟩ := hwritten item hitem
      rw [PhaseLayout.Outside] at hout
      rw [Bool.eq_iff_iff]
      simp only [Bool.and_eq_true, Bool.not_eq_true', decide_eq_true_eq, decide_eq_false_iff_not]
      cases hkernel : layout.hasKernel with
      | false =>
        have hnone : layout.epilogueCycles = 0 := by simp [PhaseLayout.epilogueCycles, hkernel]
        have hzero := (h.none hkernel).2
        simp only [hkernel, Bool.false_eq_true, false_and, or_false] at hout
        omega
      | true =>
        have hcover := hkernelEnd hkernel
        simp only [hkernel, true_and] at hout
        omega
    rw [hbase]
    rw [hrest] at hepilogue
    simpa using hepilogue

/-- The kernel body holds the first iteration of every stream in the kernel. -/
theorem kernelEvents_perm {ii : ℕ} (hii : 0 < ii)
    (h : layout.Sound ii totalCycles streams shots) :
    (scheduleOf layout tripCount shift streams shots).kernelEvents.Perm
      (if layout.hasKernel then
        streams.map fun stream ↦ occurrence ii stream (layout.before stream) else []) := by
  rw [MaterializedSchedule.kernelEvents]
  split
  · rename_i hkernel
    have hbody := timed_bundles layout.prologueCycles 0 ii
      (streams.flatMap (kernelItems layout ii))
    have hitems : streams.flatMap (kernelItems layout ii) = streams.map fun stream ↦
        ((stream.cycle + layout.before stream * ii) % ii,
          stream.item.event.advance (layout.before stream)) := by
      rw [List.map_eq_flatMap]
      congr 1
      funext stream
      rw [kernelItems, if_pos hkernel]
    have hall : (streams.flatMap (kernelItems layout ii)).filter
        (fun item ↦ decide (0 ≤ item.1) && decide (item.1 < 0 + ii))
          = streams.flatMap (kernelItems layout ii) := by
      rw [List.filter_eq_self, hitems]
      intro item hitem
      obtain ⟨stream, -, rfl⟩ := List.mem_map.mp hitem
      simp [Nat.mod_lt _ hii]
    have hmoved : (streams.flatMap (kernelItems layout ii)).map
        (fun item ↦ (layout.prologueCycles + item.1, item.2))
          = streams.map fun stream ↦ occurrence ii stream (layout.before stream) := by
      rw [hitems, List.map_map]
      refine List.map_congr_left fun stream hstream ↦ ?_
      rw [Function.comp_apply, h.kernel_cycle hkernel hstream, occurrence]
    rw [hall, hmoved] at hbody
    simpa [scheduleOf, hkernel, h.ii_eq] using hbody
  · rename_i hkernel
    simp [scheduleOf, hkernel, timed]

/-- The iterations of a stream, written out and in the kernel, are all of them. -/
theorem iterations_perm {ii : ℕ} (h : layout.Sound ii totalCycles streams shots)
    {stream : Timed PeriodicStream} (hstream : stream ∈ streams) (hcount : stream.item.count ≠ 0) :
    (explicitItems layout ii stream ++ (List.range layout.kernelRepeatCount).map fun k ↦
        occurrence ii stream (layout.before stream + k)).Perm
      ((List.range stream.item.count).map (occurrence ii stream)) := by
  have hall := h.before_add hstream hcount
  have hsince : stream.item.count - layout.after stream
      = layout.before stream + layout.kernelRepeatCount := by omega
  rw [explicitItems, hsince, List.range'_eq_map_range, ← hall, List.range_add, List.range_add,
    List.map_append, List.map_append, List.map_map, List.map_map, List.append_assoc,
    List.append_assoc]
  exact List.perm_append_comm.append_left _

/-- **The schedule unrolled** is every iteration of every stream, and the boundary events. -/
theorem expansion_perm (hs : Schedulable dfg target mapping tripCount shift)
    (h : layout.Sound mapping.staged.modulo.ii totalCycles streams shots)
    (htotal : totalCycles < 2 ^ 64) (hlisted : Listed dfg mapping tripCount shift streams shots)
    (hlt : ∀ name cycle, OccursAt dfg mapping tripCount shift name cycle →
      cycle < (totalCycles : ℤ)) :
    (scheduleOf layout tripCount shift streams shots).expansion.Perm
      ((streams.flatMap fun stream ↦
          (List.range tripCount).map (occurrence mapping.staged.modulo.ii stream))
        ++ shots.map fun shot ↦ (shot.cycle, shot.item.event)) := by
  have hwritten := fun item ↦ @written_outside _ _ _ _ _ _ _ _ _ hs h hlisted hlt item
  have hexplicit := @explicitEvents_perm tripCount shift _ _ _ _ _ h htotal hwritten
  have hkernel := @kernelEvents_perm tripCount shift _ _ _ _ _ hs.verified.staged.ii_pos h
  -- the kernel, stream by stream
  have hrepeated : ((if layout.hasKernel then streams.map fun stream ↦
        occurrence mapping.staged.modulo.ii stream (layout.before stream) else []).flatMap fun x ↦
          (List.range layout.kernelRepeatCount).map fun k ↦ later mapping.staged.modulo.ii k x)
      = streams.flatMap fun stream ↦ (List.range layout.kernelRepeatCount).map fun k ↦
          occurrence mapping.staged.modulo.ii stream (layout.before stream + k) := by
    cases hsome : layout.hasKernel with
    | false => simp [(h.none hsome).1]
    | true => simp [List.flatMap_map, later_occurrence]
  refine (MaterializedSchedule.expansion_perm (scheduleOf_shape h)).trans ?_
  refine (hexplicit.append (hkernel.flatMap_right _)).trans ?_
  have hii : (scheduleOf layout tripCount shift streams shots).ii = mapping.staged.modulo.ii :=
    h.ii_eq
  have hcount : (scheduleOf layout tripCount shift streams shots).kernel.repeatCount
      = layout.kernelRepeatCount := rfl
  rw [hii, hcount, hrepeated, written, h.ii_eq, List.append_assoc]
  refine (List.perm_append_comm.append_left _).trans ?_
  rw [← List.append_assoc]
  refine List.Perm.append_right _ ((List.flatMap_append_perm _ _ _).trans ?_)
  refine List.Perm.flatMap_left _ fun stream hmem ↦ ?_
  obtain ⟨key, -, hplaced⟩ := exists_of_forall₂ hlisted.streams.flip stream hmem
  have hall := iterations_perm h hmem (hplaced.carries.count_eq ▸ hs.pos)
  rw [hplaced.carries.count_eq] at hall
  exact hall

/-! ## The schedule is a proper one -/

/-- Iterations of listed streams and boundary events are events of the loop. -/
theorem genuine_of_mem (hlisted : Listed dfg mapping tripCount shift streams shots)
    {x : ℕ × MaterializedEvent}
    (hx : x ∈ (streams.flatMap fun stream ↦
        (List.range tripCount).map (occurrence mapping.staged.modulo.ii stream))
      ++ shots.map fun shot ↦ (shot.cycle, shot.item.event)) :
    ∃ name, EventFor dfg mapping tripCount name x.2 ∧
      OccursAt dfg mapping tripCount shift name x.1 := by
  rcases List.mem_append.mp hx with hx | hx
  · obtain ⟨stream, hmem, hx⟩ := List.mem_flatMap.mp hx
    obtain ⟨j, hj, rfl⟩ := List.mem_map.mp hx
    obtain ⟨key, -, hplaced⟩ := exists_of_forall₂ hlisted.streams.flip stream hmem
    exact ⟨_, hplaced.eventFor j, hplaced.occursAt (List.mem_range.mp hj)⟩
  · obtain ⟨shot, hmem, rfl⟩ := List.mem_map.mp hx
    obtain ⟨name, -, hplaced⟩ := exists_of_forall₂ hlisted.shots.flip shot hmem
    exact ⟨name, hplaced.carries.event, hplaced.occursAt⟩

/-- No two of them have the same name. -/
theorem nodup_names (hv : mapping.Verified dfg target)
    (hlisted : Listed dfg mapping tripCount shift streams shots) :
    (((streams.flatMap fun stream ↦
        (List.range tripCount).map (occurrence mapping.staged.modulo.ii stream))
      ++ shots.map fun shot ↦ (shot.cycle, shot.item.event)).map fun x ↦ x.2.name?).Nodup := by
  have hname : ∀ {key stream}, Placed dfg mapping tripCount shift key stream → ∀ j,
      (occurrence mapping.staged.modulo.ii stream j).2.name?
        = some (.periodic key (stream.item.event.logicalIteration + j)) :=
    fun hplaced j ↦ (hplaced.eventFor j).name
  rw [List.map_append, List.map_flatMap, List.nodup_append']
  refine ⟨List.nodup_flatMap.mpr ⟨fun stream hmem ↦ ?_, ?_⟩, ?_, fun name hstream hshot ↦ ?_⟩
  · obtain ⟨key, -, hplaced⟩ := exists_of_forall₂ hlisted.streams.flip stream hmem
    rw [List.map_map]
    refine List.nodup_range.map fun i j hij ↦ ?_
    simp only [Function.comp_apply, hname hplaced, Option.some.injEq, EventName.periodic.injEq,
      true_and] at hij
    omega
  · refine pairwise_of_forall₂ (fun key key' stream stream' hne hplaced hplaced' name hi hj ↦ ?_)
      hlisted.streams (nodup_streamKeys hv)
    simp only [List.map_map, List.mem_map, Function.comp_apply, hname hplaced,
      hname hplaced'] at hi hj
    obtain ⟨i, -, rfl⟩ := hi
    obtain ⟨j, -, hsame⟩ := hj
    exact hne (EventName.periodic.inj (Option.some.inj hsame)).1.symm
  · have hnames := map_eq_of_forall₂ (f := some) (g := fun shot : Timed OneShot ↦
      shot.item.event.name?) (fun name shot h ↦ h.carries.event.name.symm) hlisted.shots
    rw [List.map_map]
    simp only [Function.comp_def]
    rw [← hnames]
    exact (nodup_shotNames hv.staged.modulo.graph tripCount).map (Option.some_injective _)
  · -- a boundary event is no iteration of a stream
    obtain ⟨stream, hmem, hstream⟩ := List.mem_flatMap.mp hstream
    obtain ⟨key, -, hplaced⟩ := exists_of_forall₂ hlisted.streams.flip stream hmem
    simp only [List.map_map, List.mem_map, Function.comp_apply, hname hplaced] at hstream hshot
    obtain ⟨j, -, rfl⟩ := hstream
    obtain ⟨shot, hmem, hsame⟩ := hshot
    obtain ⟨name, hlistedName, hplacedOnce⟩ := exists_of_forall₂ hlisted.shots.flip shot hmem
    rw [hplacedOnce.carries.event.name] at hsame
    exact (mem_shotNames hplacedOnce.carries.occurs).mp hlistedName _ _ (Option.some.inj hsame)

/-- Every event of the loop is among them. -/
theorem exists_mem_of_occursAt (hv : mapping.Verified dfg target)
    (hlisted : Listed dfg mapping tripCount shift streams shots) {name : EventName} {cycle : ℤ}
    (hoccurs : OccursAt dfg mapping tripCount shift name cycle) :
    ∃ x ∈ (streams.flatMap fun stream ↦
        (List.range tripCount).map (occurrence mapping.staged.modulo.ii stream))
      ++ shots.map fun shot ↦ (shot.cycle, shot.item.event),
      x.2.name? = some name ∧ (x.1 : ℤ) = cycle := by
  by_cases hname : ∀ key iteration, name ≠ .periodic key iteration
  · obtain ⟨shot, hmem, hplaced, hcycle⟩ := hlisted.exists_shot hv hoccurs hname
    exact ⟨_, List.mem_append_right _ (List.mem_map_of_mem hmem), hplaced.carries.event.name,
      hcycle⟩
  · simp only [not_forall, not_not] at hname
    obtain ⟨key, iteration, rfl⟩ := hname
    obtain ⟨time, first, last, hstream, hfirst, hlast, rfl⟩ := hoccurs.of_periodic
    obtain ⟨stream, hmem, hplaced, rfl, hcycle⟩ := hlisted.exists_stream hv hstream
    have hend := hstream.last_eq
    obtain ⟨j, hj⟩ := Int.eq_ofNat_of_zero_le (sub_nonneg.mpr hfirst)
    have hiteration : iteration = stream.item.event.logicalIteration + j := by omega
    refine ⟨occurrence mapping.staged.modulo.ii stream j, List.mem_append_left _
      (List.mem_flatMap.mpr ⟨stream, hmem, List.mem_map_of_mem (List.mem_range.mpr (by omega))⟩),
      ?_, ?_⟩
    · rw [hiteration]
      exact (hplaced.eventFor j).name
    · rw [occurrence, hiteration]
      push_cast
      rw [hcycle]
      ring

/-- **The schedule of what is placed is proper.** -/
theorem proper (hs : Schedulable dfg target mapping tripCount shift)
    (h : layout.Sound mapping.staged.modulo.ii totalCycles streams shots)
    (htotal : totalCycles < 2 ^ 64) (hlisted : Listed dfg mapping tripCount shift streams shots)
    (hfirst : ∀ time, IsLeast (EventTime dfg mapping tripCount) time →
      (shift : ℤ) = if time < 0 then -time else 0)
    (hlast : ∀ time, IsGreatest (EventTime dfg mapping tripCount) time →
      (totalCycles : ℤ) = time + shift + 1)
    (hlt : ∀ name cycle, OccursAt dfg mapping tripCount shift name cycle →
      cycle < (totalCycles : ℤ)) :
    (scheduleOf layout tripCount shift streams shots).Proper dfg mapping tripCount := by
  have hperm := expansion_perm hs h htotal hlisted hlt
  have hshape := @scheduleOf_shape tripCount shift _ _ _ _ _ h
  have hmem : ∀ x ∈ (scheduleOf layout tripCount shift streams shots).expansion,
      ∃ name, EventFor dfg mapping tripCount name x.2 ∧
        OccursAt dfg mapping tripCount shift name x.1 := fun x hx ↦
    genuine_of_mem hlisted (hperm.mem_iff.mp hx)
  obtain ⟨hphases, hkernelEnd⟩ := h.phases_eq htotal
  have hchecked : MaterializedScheduleVerifier.checkPhases
      (scheduleOf layout tripCount shift streams shots) = [] :=
    checkPhases_scheduleOf h htotal tripCount shift
  exact
    { tripCount_eq := rfl
      ii_eq := h.ii_eq
      shape := hshape
      phases := hchecked
      exact :=
        { named := fun x hx ↦ by
            obtain ⟨name, hevent, -⟩ := hmem x hx
            exact ⟨name, hevent.name⟩
          nodup := by
            rw [(hperm.map _).nodup_iff]
            exact nodup_names hs.verified hlisted
          mem_iff := fun name cycle ↦ by
            constructor
            · rintro ⟨x, hx, hname, rfl⟩
              obtain ⟨name', hevent, hoccurs⟩ := hmem x hx
              obtain rfl := Option.some.inj (hevent.name.symm.trans hname)
              exact hoccurs
            · intro hoccurs
              obtain ⟨x, hx, hname, hcycle⟩ := exists_mem_of_occursAt hs.verified hlisted hoccurs
              exact ⟨x, hperm.mem_iff.mpr hx, hname, hcycle⟩
          length_cycles :=
            MaterializedScheduleVerifier.length_cycles_of_checkPhases hshape hchecked }
      explicit := fun item hitem ↦ by
        obtain ⟨name, hevent, -⟩ :=
          hmem item ((MaterializedSchedule.mem_expansion_iff hshape).mpr (.inl hitem))
        exact ⟨name, hevent⟩
      kernel := fun item hitem ↦ by
        rw [(@kernelEvents_perm tripCount shift _ _ _ _ _ hs.verified.staged.ii_pos h).mem_iff]
          at hitem
        split at hitem
        · obtain ⟨stream, hmem, rfl⟩ := List.mem_map.mp hitem
          obtain ⟨key, -, hplaced⟩ := exists_of_forall₂ hlisted.streams.flip stream hmem
          exact ⟨key, hplaced.eventFor (layout.before stream)⟩
        · cases hitem
      shift_eq := hfirst
      total_eq := fun time htime ↦ by
        have hcycles := hlast time htime
        rw [← h.totalCycles_eq] at hcycles
        exact hcycles }

end Streams

end ScheduleMaterializer

end PredicatedMesh
