import PredicatedMesh.Library.Predecessor
import PredicatedMesh.Schedule.StageScheduler

/-!
# Relaxing stage constraints

The constraint of an edge is the dependence inequality between logical times, written between
stages: rounding up loses nothing because stages are integers, whatever the sign of the difference
(`ceilDivSigned_le_iff`). The stages never fall below zero, so the scheduler's clamp is never what
decides, and its rounds are those of relaxation with noted predecessors. They end with the least
solution, or with a cycle of noted constraints of positive total.
-/

namespace PredicatedMesh

open Scan

namespace StageScheduler

/-! ## Rounding up -/

/-- **Rounding up is exact.** -/
theorem ceilDivSigned_le_iff {numerator denominator q : ℤ}
    (h : ceilDivSigned numerator denominator = .ok q) (z : ℤ) :
    q ≤ z ↔ numerator ≤ z * denominator := by
  unfold ceilDivSigned at h
  split at h
  · cases h
  rename_i hpos
  rw [not_le] at hpos
  have hsplit := Int.mul_tdiv_add_tmod numerator denominator
  have hlt : numerator.tmod denominator < denominator := Int.tmod_lt_of_pos numerator hpos
  set quotient := numerator.tdiv denominator
  set remainder := numerator.tmod denominator
  have hcomm : denominator * quotient = quotient * denominator := Int.mul_comm _ _
  simp only at h
  split at h
  · rename_i hrounds
    have hnonneg : 0 ≤ remainder := Int.tmod_nonneg denominator hrounds.2.le
    have hremainder : 0 < remainder := lt_of_le_of_ne hnonneg (Ne.symm hrounds.1)
    split at h
    · cases h
    obtain rfl := Except.ok.inj h
    constructor
    · intro hz
      have := Int.mul_le_mul_of_nonneg_right hz hpos.le
      rw [Int.add_mul] at this
      omega
    · intro hz
      by_contra! hz'
      have := Int.mul_le_mul_of_nonneg_right (Int.lt_add_one_iff.mp hz') hpos.le
      omega
  · rename_i hkeeps
    obtain rfl := Except.ok.inj h
    -- what is cut off is not positive
    have hremainder : remainder ≤ 0 := by
      by_cases hzero : remainder = 0
      · exact hzero.le
      · have hnumerator : numerator ≤ 0 := not_lt.mp fun hn ↦ hkeeps ⟨hzero, hn⟩
        have := Int.tmod_nonneg denominator (neg_nonneg.mpr hnumerator)
        rw [Int.neg_tmod] at this
        omega
    have hgt : -denominator < remainder := by
      have := Int.tmod_lt_of_pos (-numerator) hpos
      rw [Int.neg_tmod] at this
      omega
    constructor
    · intro hz
      have := Int.mul_le_mul_of_nonneg_right hz hpos.le
      omega
    · intro hz
      by_contra! hz'
      have := Int.mul_le_mul_of_nonneg_right (Int.le_sub_one_of_lt hz') hpos.le
      rw [Int.sub_mul] at this
      omega

theorem ceilDivSigned_eq_ceil {numerator denominator q : ℤ} (hpos : 0 < denominator)
    (h : ceilDivSigned numerator denominator = .ok q) : q = ⌈(numerator : ℚ) / denominator⌉ := by
  refine eq_of_forall_ge_iff fun z ↦ ?_
  rw [ceilDivSigned_le_iff h, Int.ceil_le, div_le_iff₀ (by exact_mod_cast hpos)]
  exact_mod_cast Iff.rfl

/-! ## The constraint of an edge -/

/-- An early return because of an overflow. -/
def Stop.Overflow (stop : Stop) : Prop :=
  ∃ diagnostic, stop = .returned (failed .arithmeticOverflow diagnostic)

/-- What an edge asks of the stages, by the slots and the separation of the mapping. -/
structure Constrains (mapping : ModuloMapping) (edge : TargetEdge) (c : StageConstraint)
    (source destination : NodePlacement) (dependence : MappedDependence) : Prop where
  source_eq : mapping.placement edge.src = .ok source
  destination_eq : mapping.placement edge.dst = .ok destination
  dependence_eq : mapping.dependence edge.id = .ok dependence
  edge_eq : c.edge = edge.id
  src_eq : c.src = edge.src
  dst_eq : c.dst = edge.dst
  delta_eq : 0 < mapping.ii → c.minimumStageDelta
    = ⌈((dependence.requiredSeparationCycles
      - ((destination.issueSlot : ℤ) - source.issueSlot) : ℤ) : ℚ) / mapping.ii⌉ - edge.distance
  /-- The difference of the stages is large enough exactly when the times are. -/
  delta_le_iff : ∀ s s' : ℤ, s + c.minimumStageDelta ≤ s' ↔
    s * mapping.ii + source.issueSlot + dependence.requiredSeparationCycles
      ≤ s' * mapping.ii + destination.issueSlot + edge.distance * mapping.ii

section Constraint

variable {mapping : ModuloMapping} {edge : TargetEdge}

theorem lookup_eq_ok {α : Type} {r : Except String α} {a : α} (h : lookup r = .ok a) :
    r = .ok a := by
  cases r with
  | ok b => exact congrArg _ (Except.ok.inj h)
  | error message => cases h

theorem constrains_of_constraintFor {c : StageConstraint}
    (h : constraintFor mapping edge = .ok c) :
    ∃ source destination dependence, Constrains mapping edge c source destination dependence := by
  obtain ⟨source, hsource, h⟩ := bind_eq_ok.mp h
  obtain ⟨destination, hdestination, h⟩ := bind_eq_ok.mp h
  obtain ⟨dependence, hdependence, h⟩ := bind_eq_ok.mp h
  obtain ⟨delta, hdelta, h⟩ := bind_eq_ok.mp h
  split at h
  · cases h
  obtain rfl := Except.ok.inj h
  refine ⟨source, destination, dependence, lookup_eq_ok hsource, lookup_eq_ok hdestination,
    lookup_eq_ok hdependence, rfl, rfl, rfl, fun hii ↦ ?_, fun s s' ↦ ?_⟩
  · have hceil := ceilDivSigned_eq_ceil (by exact_mod_cast hii) hdelta
    rw [hceil]
    rfl
  have hround := ceilDivSigned_le_iff hdelta (s' - s + edge.distance)
  rw [Int.add_mul, Int.sub_mul] at hround
  simp only
  constructor
  · intro hle
    have := hround.mp (by omega)
    omega
  · intro hle
    have := hround.mpr (by omega)
    omega

/-- A failure to round up is an overflow. -/
theorem overflow_of_ceilDivSigned {numerator denominator : ℤ} {stop : Stop}
    (hpos : 0 < denominator) (h : ceilDivSigned numerator denominator = .error stop) :
    stop.Overflow := by
  unfold ceilDivSigned at h
  rw [if_neg (not_le.mpr hpos)] at h
  simp only at h
  split at h
  · split at h
    · exact ⟨_, (Except.error.inj h).symm⟩
    · cases h
  · cases h

/-- If the mapping has what the constraint reads, only an overflow stands against it. -/
theorem overflow_of_constraintFor {source destination : NodePlacement}
    {dependence : MappedDependence} {stop : Stop} (hii : 0 < mapping.ii)
    (hsource : mapping.placement edge.src = .ok source)
    (hdestination : mapping.placement edge.dst = .ok destination)
    (hdependence : mapping.dependence edge.id = .ok dependence)
    (h : constraintFor mapping edge = .error stop) : stop.Overflow := by
  have hrest : ((ceilDivSigned (dependence.requiredSeparationCycles
        - ((destination.issueSlot : ℤ) - source.issueSlot)) mapping.ii) >>= fun delta ↦
      if (edge.distance : ℤ) > delta ∧ delta < int64Min + edge.distance then
        overflow "stage constraint distance subtraction overflows int64" none (some edge.id)
      else
        return (⟨edge.id, edge.src, edge.dst, delta - edge.distance, edge.distance,
          dependence.requiredSeparationCycles⟩ : StageConstraint)) = .error stop := by
    rw [← h, constraintFor, hsource, hdestination, hdependence]
    rfl
  rcases bind_eq_error.mp hrest with hdelta | ⟨delta, -, h⟩
  · exact overflow_of_ceilDivSigned (by exact_mod_cast hii) hdelta
  · split at h
    · exact ⟨_, (Except.error.inj h).symm⟩
    · cases h

end Constraint

/-! ## Indices -/

section Indices

variable {n : ℕ} {nodes : List TargetNodeId}

/-- The point of a node. -/
def point (n : ℕ) (nodes : List TargetNodeId) (id : TargetNodeId) : Fin (n + 1) :=
  Fin.ofNat (n + 1) ((nodeIndex nodes id).getD 0)

/-- The constraint between the points of its nodes. -/
def arc (n : ℕ) (nodes : List TargetNodeId) (c : StageConstraint) :
    Relaxation.Constraint (Fin (n + 1)) :=
  ⟨point n nodes c.src, point n nodes c.dst, c.minimumStageDelta⟩

theorem getElem_of_nodeIndex {id : TargetNodeId} {index : ℕ} (h : nodeIndex nodes id = some index) :
    nodes[index]? = some id := by
  obtain ⟨hlt, hnode, -⟩ := List.findIdx?_eq_some_iff_getElem.mp h
  rw [List.getElem?_eq_getElem hlt, beq_iff_eq.mp hnode]

theorem exists_nodeIndex {id : TargetNodeId} (h : id ∈ nodes) :
    ∃ index, nodeIndex nodes id = some index := by
  rw [← Option.isSome_iff_exists, nodeIndex, List.findIdx?_isSome, List.any_eq_true]
  exact ⟨id, h, beq_self_eq_true id⟩

theorem point_val (hlength : nodes.length = n + 1) {id : TargetNodeId} {index : ℕ}
    (h : nodeIndex nodes id = some index) : (point n nodes id).val = index := by
  obtain ⟨hlt, -⟩ := List.getElem?_eq_some_iff.mp (getElem_of_nodeIndex h)
  rw [point, h, Option.getD_some, Fin.val_ofNat, Nat.mod_eq_of_lt (hlength ▸ hlt)]

theorem getElem?_point (hlength : nodes.length = n + 1) {id : TargetNodeId} (h : id ∈ nodes) :
    nodes[(point n nodes id).val]? = some id := by
  obtain ⟨index, hindex⟩ := exists_nodeIndex h
  rw [point_val hlength hindex]
  exact getElem_of_nodeIndex hindex

/-- The node at a point. -/
theorem getD_point (hlength : nodes.length = n + 1) {id : TargetNodeId} (h : id ∈ nodes) :
    nodes.getD (point n nodes id).val 0 = id := by
  rw [List.getD_eq_getElem?_getD, getElem?_point hlength h, Option.getD_some]

/-- Nodes can be read off their points. -/
theorem map_getD_point (hlength : nodes.length = n + 1) {ids : List TargetNodeId}
    (h : ∀ id ∈ ids, id ∈ nodes) :
    (ids.map (point n nodes)).map (fun i ↦ nodes.getD i.val 0) = ids := by
  rw [List.map_map]
  conv_rhs => rw [← List.map_id ids]
  exact List.map_congr_left fun id hid ↦ getD_point hlength (h id hid)

end Indices

/-! ## The scheduler's rounds -/

section Rounds

variable {n k : ℕ} {nodes : List TargetNodeId} {cs : List StageConstraint}
variable {t : Relaxation.Tracked (Fin (n + 1)) StageConstraint} {s s' : Relaxing}

/-- A state of the scheduler, as values with their constraints, in round `k` that started from
some values. -/
structure Follows (nodes : List TargetNodeId) (k : ℕ) (start : Fin (n + 1) → ℤ)
    (t : Relaxation.Tracked (Fin (n + 1)) StageConstraint) (s : Relaxing) : Prop where
  stages_length : s.stages.length = n + 1
  predecessor_length : s.predecessor.length = n + 1
  edge_length : s.predecessorEdge.length = n + 1
  value : ∀ i : Fin (n + 1), t.value i = s.stages.getD i 0
  predecessor : ∀ i : Fin (n + 1),
    s.predecessor.getD i none = (t.pred i).map fun c ↦ (arc n nodes c).src.val
  edge : ∀ i : Fin (n + 1), s.predecessorEdge.getD i none = (t.pred i).map StageConstraint.edge
  unchanged : s.lastUpdated = none → t.value = start
  changed : ∀ d, s.lastUpdated = some d → ∃ i : Fin (n + 1), i.val = d ∧ t.stamp i = k

theorem getD_set {α : Type} {l : List α} {i : Fin (n + 1)} (hl : l.length = n + 1) (v d : α)
    (j : Fin (n + 1)) : (l.set i v).getD j d = if j = i then v else l.getD j d := by
  by_cases hj : j = i
  · subst hj
    rw [if_pos rfl, List.getD_eq_getElem?_getD, List.getElem?_set_self (by rw [hl]; exact j.isLt),
      Option.getD_some]
  · rw [if_neg hj]
    simp [List.getD_eq_getElem?_getD, List.getElem?_set_ne (fun h ↦ hj (Fin.ext h.symm))]

/-- **A step of the scheduler relaxes and notes.** -/
theorem Follows.step {start : Fin (n + 1) → ℤ} (hlength : nodes.length = n + 1)
    (h : Follows nodes k start t s) {c : StageConstraint} (hstep : relaxStep nodes s c = .ok s') :
    Follows nodes k start (Relaxation.track (arc n nodes) k t c) s' := by
  unfold relaxStep at hstep
  split at hstep
  case h_2 => cases hstep
  rename_i source destination hsource hdestination
  have hsrc : (arc n nodes c).src.val = source := point_val hlength hsource
  have hdst : (arc n nodes c).dst.val = destination := point_val hlength hdestination
  have hvalueSrc := h.value (arc n nodes c).src
  have hvalueDst := h.value (arc n nodes c).dst
  rw [hsrc] at hvalueSrc
  rw [hdst] at hvalueDst
  simp only at hstep
  split at hstep
  · cases hstep
  split at hstep
  · cases hstep
  rename_i candidate hcandidate
  have hsum := addSigned_eq_some hcandidate
  have hweight : (arc n nodes c).weight = c.minimumStageDelta := rfl
  unfold Relaxation.track
  split at hstep
  · rename_i hraises
    obtain rfl := Except.ok.inj hstep
    rw [if_pos (by omega)]
    have hcast : (candidate.toNat : ℤ) = candidate := Int.toNat_of_nonneg hraises.1.le
    subst hdst
    refine ⟨by simp [h.stages_length], by simp [h.predecessor_length], by simp [h.edge_length],
      fun i ↦ ?_, fun i ↦ ?_, fun i ↦ ?_, nofun, fun d hd ↦ ?_⟩
    · simp only [getD_set h.stages_length, Function.update_apply]
      split
      · omega
      · exact h.value i
    · simp only [getD_set h.predecessor_length, Function.update_apply]
      split
      · rw [Option.map_some, hsrc]
      · exact h.predecessor i
    · simp only [getD_set h.edge_length, Function.update_apply]
      split
      · rfl
      · exact h.edge i
    · exact ⟨_, Option.some.inj hd, Function.update_self _ _ _⟩
  · rename_i hkeeps
    obtain rfl := Except.ok.inj hstep
    -- stages are not negative, so a candidate above one is positive
    rw [if_neg (by omega)]
    exact h

theorem Follows.steps {start : Fin (n + 1) → ℤ} (hlength : nodes.length = n + 1)
    (h : Follows nodes k start t s) (hsteps : cs.foldlM (relaxStep nodes) s = .ok s') :
    Follows nodes k start (Relaxation.trackRound (arc n nodes) cs k t) s' := by
  induction cs generalizing t s with
  | nil =>
    obtain rfl := Except.ok.inj hsteps
    exact h
  | cons c cs ih =>
    obtain ⟨s₁, hstep, hsteps⟩ := foldlM_cons_eq_ok.mp hsteps
    exact ih (h.step hlength hstep) hsteps

/-- A round of the scheduler. -/
theorem Follows.round {start : Fin (n + 1) → ℤ} (hlength : nodes.length = n + 1)
    (h : Follows nodes k start (Relaxation.tracked (arc n nodes) cs k) s)
    (hround : relaxRound nodes cs s = .ok s') :
    Follows nodes (k + 1) (Relaxation.tracked (arc n nodes) cs k).value
      (Relaxation.tracked (arc n nodes) cs (k + 1)) s' := by
  have hstart : Follows nodes (k + 1) (Relaxation.tracked (arc n nodes) cs k).value
      (Relaxation.tracked (arc n nodes) cs k) { s with lastUpdated := none } :=
    ⟨h.stages_length, h.predecessor_length, h.edge_length, h.value, h.predecessor, h.edge,
      fun _ ↦ rfl, nofun⟩
  exact hstart.steps hlength hround

/-- A round that changes nothing has found a solution. -/
theorem Follows.satisfies
    (h : Follows nodes (k + 1) (Relaxation.tracked (arc n nodes) cs k).value
      (Relaxation.tracked (arc n nodes) cs (k + 1)) s) (hnone : s.lastUpdated = none) :
    Relaxation.Satisfies (Relaxation.tracked (arc n nodes) cs (k + 1)).value
      (cs.map (arc n nodes)) := by
  have hsame := h.unchanged hnone
  rw [hsame]
  rw [Relaxation.tracked, Relaxation.trackRound_value] at hsame
  exact Relaxation.satisfies_of_round_eq hsame

/-- **The rounds of the scheduler.** Either they end with stages that satisfy the constraints, or a
node has changed in the last of them. -/
theorem relaxRounds_spec {start : Fin (n + 1) → ℤ} (hlength : nodes.length = n + 1) (rounds : ℕ)
    {infeasible : Option ℕ}
    (h : Follows nodes k start (Relaxation.tracked (arc n nodes) cs k) s)
    (hrounds : relaxRounds nodes cs (rounds + 1) s = .ok (infeasible, s')) :
    (infeasible = none ∧ ∃ j start', Follows nodes j start'
        (Relaxation.tracked (arc n nodes) cs j) s' ∧
        Relaxation.Satisfies (Relaxation.tracked (arc n nodes) cs j).value
          (cs.map (arc n nodes))) ∨
      ∃ (i : Fin (n + 1)) (start' : Fin (n + 1) → ℤ), infeasible = some i.val ∧
        Follows nodes (k + rounds + 1) start'
          (Relaxation.tracked (arc n nodes) cs (k + rounds + 1)) s' ∧
        (Relaxation.tracked (arc n nodes) cs (k + rounds + 1)).stamp i = k + rounds + 1 := by
  induction rounds generalizing k start s with
  | zero =>
    obtain ⟨s₁, hround, hrest⟩ := bind_eq_ok.mp hrounds
    have hfollows := h.round hlength hround
    split at hrest
    · rename_i hnone
      obtain ⟨rfl, rfl⟩ := Prod.mk.inj (Except.ok.inj hrest)
      exact .inl ⟨rfl, k + 1, _, hfollows, hfollows.satisfies hnone⟩
    · rename_i updated hupdated
      obtain ⟨rfl, rfl⟩ := Prod.mk.inj (Except.ok.inj hrest)
      obtain ⟨i, rfl, hstamp⟩ := hfollows.changed updated hupdated
      exact .inr ⟨i, _, rfl, hfollows, hstamp⟩
  | succ rounds ih =>
    obtain ⟨s₁, hround, hrest⟩ := bind_eq_ok.mp hrounds
    have hfollows := h.round hlength hround
    split at hrest
    · rename_i hnone
      obtain ⟨rfl, rfl⟩ := Prod.mk.inj (Except.ok.inj hrest)
      exact .inl ⟨rfl, k + 1, _, hfollows, hfollows.satisfies hnone⟩
    · rw [if_neg (Nat.succ_ne_zero rounds)] at hrest
      have hnext := ih hfollows hrest
      rwa [show k + 1 + rounds + 1 = k + (rounds + 1) + 1 by omega] at hnext

theorem follows_initial : Follows nodes 0 0 (Relaxation.tracked (arc n nodes) cs 0)
    (initial (n + 1)) := by
  refine ⟨by simp [initial], by simp [initial], by simp [initial], fun i ↦ ?_, fun i ↦ ?_,
    fun i ↦ ?_, fun _ ↦ rfl, nofun⟩
  all_goals simp [initial, Relaxation.tracked, i.is_le]

end Rounds

/-! ## The cycle that is collected -/

section Collect

variable {n k : ℕ} {nodes : List TargetNodeId} {cs : List StageConstraint}
variable {start : Fin (n + 1) → ℤ}
variable {t : Relaxation.Tracked (Fin (n + 1)) StageConstraint} {s : Relaxing}

/-- The scheduler follows the noted constraints back. -/
theorem followBack_eq (h : Follows nodes k start t s) (m : ℕ) {i : Fin (n + 1)}
    (hnoted : ∀ j < m, ∃ c, t.pred ((Relaxation.back (arc n nodes) t.pred)^[j] i) = some c) :
    followBack s m i = some ((Relaxation.back (arc n nodes) t.pred)^[m] i).val := by
  induction m generalizing i with
  | zero => rfl
  | succ m ih =>
    obtain ⟨c, hc⟩ := hnoted 0 (Nat.succ_pos m)
    rw [Function.iterate_zero_apply] at hc
    have hback := Relaxation.back_of_some (f := arc n nodes) hc
    rw [followBack, h.predecessor, h.edge, hc, Option.map_some, Option.map_some]
    simp only
    rw [← hback, Function.iterate_succ_apply]
    refine ih fun j hj ↦ ?_
    rw [← Function.iterate_succ_apply]
    exact hnoted (j + 1) (Nat.succ_lt_succ hj)

/-- The scheduler collects a cycle of noted constraints. -/
theorem collectCycle_eq (h : Follows nodes k start t s)
    (hdst : ∀ i c, t.pred i = some c → (arc n nodes c).dst = i) {i j : Fin (n + 1)}
    {l : List StageConstraint} (hchain : Relaxation.Chain (arc n nodes) t.pred i l j)
    (hne : l ≠ []) (hfirst : j ∉ (Relaxation.targets (arc n nodes) l).tail) {fuel : ℕ}
    (hfuel : l.length ≤ fuel) :
    collectCycle s j fuel i = some (l.map fun c ↦ ((arc n nodes c).dst.val, c.edge)) := by
  induction hchain generalizing fuel with
  | nil i => exact absurd rfl hne
  | @cons i j c l head tail ih =>
    obtain ⟨fuel, rfl⟩ : ∃ rest, fuel = rest + 1 :=
      ⟨fuel - 1, by rw [List.length_cons] at hfuel; omega⟩
    rw [collectCycle, h.predecessor, h.edge, head, Option.map_some, Option.map_some]
    simp only [Fin.val_inj, List.map_cons, hdst i c head]
    rcases l with _ | ⟨d, l⟩
    · -- the last constraint leads to the start
      cases tail
      rw [if_pos rfl, List.map_nil]
    · have hd : (arc n nodes d).dst = (arc n nodes c).src := by
        rcases tail with _ | ⟨head', -⟩
        exact hdst _ d head'
      simp only [Relaxation.targets, List.map_cons, List.tail_cons, List.mem_cons, not_or, hd]
        at hfirst
      rw [if_neg (Ne.symm hfirst.1)]
      rw [ih (by simp) (by simpa [Relaxation.targets] using hfirst.2)
        (by simp only [List.length_cons] at hfuel ⊢; omega)]
      rfl

end Collect

/-! ## What relaxation finds -/

/-- Stages that satisfy the constraints. -/
def Solves (constraints : List StageConstraint) (x : TargetNodeId → ℕ) : Prop :=
  ∀ c ∈ constraints, (x c.src : ℤ) + c.minimumStageDelta ≤ x c.dst

/-- The stage a node was left with. -/
def stageOf (nodes : List TargetNodeId) (state : Relaxing) (id : TargetNodeId) : ℕ :=
  state.stages.getD ((nodeIndex nodes id).getD 0) 0

/-- A cycle of constraints in which the source of each is the destination of the next. It meets no
node twice. -/
structure Circular (constraints l : List StageConstraint) : Prop where
  mem : ∀ c ∈ l, c ∈ constraints
  closed : l.map StageConstraint.src = (l.map StageConstraint.dst).rotate 1
  simple : (l.map StageConstraint.dst).Nodup

def deltaSum (l : List StageConstraint) : ℤ := (l.map StageConstraint.minimumStageDelta).sum

/-- The sums that adding up from the left goes through. -/
def PrefixesFit (l : List StageConstraint) : Prop :=
  ∀ p, p <+: l → int64Min ≤ deltaSum p ∧ deltaSum p ≤ int64Max

section Found

variable {n : ℕ} {nodes : List TargetNodeId} {cs constraints l : List StageConstraint}
variable {state : Relaxing}

theorem checkedSignedAdd_eq_some {lhs rhs : ℤ} (hmin : int64Min ≤ lhs + rhs)
    (hmax : lhs + rhs ≤ int64Max) : checkedSignedAdd lhs rhs = some (lhs + rhs) := by
  rw [checkedSignedAdd, addSigned, if_neg (by omega)]

/-- Deltas whose sums fit are added up. -/
theorem totalDelta_eq (hnodup : (constraints.map StageConstraint.edge).Nodup)
    (hmem : ∀ c ∈ l, c ∈ constraints) (hfits : PrefixesFit l) :
    totalDelta constraints (l.map StageConstraint.edge) = some (deltaSum l) := by
  suffices hfold : ∀ total : ℤ,
      (∀ p, p <+: l → int64Min ≤ total + deltaSum p ∧ total + deltaSum p ≤ int64Max) →
      (l.map StageConstraint.edge).foldlM (fun total edge ↦ do
        let found ← constraints.find? fun constraint ↦ constraint.edge == edge
        checkedSignedAdd total found.minimumStageDelta) total = some (total + deltaSum l) by
    have := hfold 0 fun p hp ↦ by simpa using hfits p hp
    rwa [Int.zero_add] at this
  clear hfits
  induction l with
  | nil => simp [deltaSum]
  | cons c l ih =>
    intro total hfits
    obtain ⟨hc, hmem⟩ := List.forall_mem_cons.mp hmem
    have hfirst := hfits [c] (List.prefix_cons_inj c |>.mpr (List.nil_prefix))
    simp only [deltaSum, List.map_cons, List.map_nil, List.sum_cons, List.sum_nil, Int.add_zero]
      at hfirst
    rw [List.map_cons, List.foldlM_cons, find?_eq_some_of_nodup hnodup hc]
    simp only [Option.bind_eq_bind, Option.bind_some,
      checkedSignedAdd_eq_some hfirst.1 hfirst.2]
    have hrest := ih hmem (total + c.minimumStageDelta) fun p hp ↦ by
      have := hfits (c :: p) ((List.prefix_cons_inj c).mpr hp)
      simpa only [deltaSum, List.map_cons, List.sum_cons, Int.add_assoc] using this
    simp only [Option.bind_eq_bind] at hrest
    rw [hrest, deltaSum, deltaSum, List.map_cons, List.sum_cons, Int.add_assoc]

/-- A solution leaves no cycle of positive total. -/
theorem Circular.deltaSum_le_zero (h : Circular constraints l) {x : TargetNodeId → ℕ}
    (hx : Solves constraints x) : deltaSum l ≤ 0 := by
  have hsum : ((l.map StageConstraint.src).map fun id ↦ (x id : ℤ)).sum + deltaSum l
      ≤ ((l.map StageConstraint.dst).map fun id ↦ (x id : ℤ)).sum := by
    have hmem := h.mem
    clear h
    induction l with
    | nil => simp [deltaSum]
    | cons c l ih =>
      obtain ⟨hc, hmem⟩ := List.forall_mem_cons.mp hmem
      have hrest := ih hmem
      have := hx c hc
      simp only [deltaSum, List.map_cons, List.sum_cons] at hrest ⊢
      omega
  have hperm := ((List.rotate_perm (l.map StageConstraint.dst) 1).map
    fun id ↦ (x id : ℤ)).sum_eq
  rw [h.closed, hperm] at hsum
  omega

/-- Sums fit if the deltas fit together, whatever their signs. -/
theorem Circular.prefixesFit (h : Circular constraints l)
    (hfits : (constraints.map fun c ↦ |c.minimumStageDelta|).sum ≤ int64Max) : PrefixesFit l := by
  intro p hp
  have hnodup : p.Nodup := (h.simple.of_map).sublist hp.sublist
  have hsubperm : p.Subperm constraints :=
    hnodup.subperm fun c hc ↦ h.mem c (hp.subset hc)
  have hle : (p.map fun c ↦ |c.minimumStageDelta|).sum
      ≤ (constraints.map fun c ↦ |c.minimumStageDelta|).sum := by
    obtain ⟨q, hq, hsub⟩ := hsubperm
    rw [← (hq.map _).sum_eq]
    exact (hsub.map _).sum_le_sum (List.forall_mem_map.mpr fun c _ ↦ abs_nonneg _)
  have habs : |deltaSum p| ≤ (p.map fun c ↦ |c.minimumStageDelta|).sum := by
    clear hp hnodup hsubperm hle
    induction p with
    | nil => simp [deltaSum]
    | cons c p ih =>
      simp only [deltaSum, List.map_cons, List.sum_cons] at ih ⊢
      exact (abs_add_le _ _).trans (by omega)
  have hbounds := abs_le.mp (habs.trans (hle.trans hfits))
  simp only [int64Min, int64Max] at hbounds ⊢
  omega

theorem Circular.rotate (h : Circular constraints l) (r : ℕ) :
    Circular constraints (l.rotate r) where
  mem c hc := h.mem c (List.mem_rotate.mp hc)
  closed := by
    rw [List.map_rotate, List.map_rotate, h.closed, List.rotate_rotate, List.rotate_rotate,
      Nat.add_comm]
  simple := by
    rw [List.map_rotate, List.nodup_rotate]
    exact h.simple

theorem deltaSum_rotate (l : List StageConstraint) (r : ℕ) :
    deltaSum (l.rotate r) = deltaSum l :=
  ((List.rotate_perm l r).map StageConstraint.minimumStageDelta).sum_eq

theorem value_point {k : ℕ} {start : Fin (n + 1) → ℤ}
    {t : Relaxation.Tracked (Fin (n + 1)) StageConstraint} (hlength : nodes.length = n + 1)
    (h : Follows nodes k start t state) {id : TargetNodeId} (hid : id ∈ nodes) :
    t.value (point n nodes id) = stageOf nodes state id := by
  obtain ⟨index, hindex⟩ := exists_nodeIndex hid
  rw [h.value, point_val hlength hindex, stageOf, hindex, Option.getD_some]

/-- **The stages of rounds that ended are the least solution.** -/
theorem solves_stageOf {k : ℕ} {start : Fin (n + 1) → ℤ} (hlength : nodes.length = n + 1)
    (hends : ∀ c ∈ cs, c.src ∈ nodes ∧ c.dst ∈ nodes)
    (h : Follows nodes k start (Relaxation.tracked (arc n nodes) cs k) state)
    (hsatisfies : Relaxation.Satisfies (Relaxation.tracked (arc n nodes) cs k).value
      (cs.map (arc n nodes))) :
    Solves cs (stageOf nodes state) ∧
      ∀ x, Solves cs x → ∀ id ∈ nodes, stageOf nodes state id ≤ x id := by
  refine ⟨fun c hc ↦ ?_, fun x hx id hid ↦ ?_⟩
  · have hholds := hsatisfies _ (List.mem_map_of_mem hc)
    rw [← value_point hlength h (hends c hc).1, ← value_point hlength h (hends c hc).2]
    exact hholds
  · -- a solution bounds relaxation from above
    have hbound := @Relaxation.iterate_le _ _ (cs.map (arc n nodes))
      (fun i ↦ (x (nodes.getD i.val 0) : ℤ)) (fun i ↦ Int.natCast_nonneg _)
      (fun d hd ↦ by
        obtain ⟨c, hc, rfl⟩ := List.mem_map.mp hd
        have hholds := hx c hc
        simp only [Relaxation.Constraint.Holds, arc, getD_point hlength (hends c hc).1,
          getD_point hlength (hends c hc).2]
        exact hholds) k (point n nodes id)
    simp only [← Relaxation.tracked_value, value_point hlength h hid, getD_point hlength hid]
      at hbound
    exact_mod_cast hbound

/-- **A change in the last round shows a cycle of positive total**, and it is the witness if its
sums fit. -/
theorem exists_circular {start : Fin (n + 1) → ℤ} (hlength : nodes.length = n + 1)
    (hends : ∀ c ∈ cs, c.src ∈ nodes ∧ c.dst ∈ nodes)
    (h : Follows nodes (n + 1) start (Relaxation.tracked (arc n nodes) cs (n + 1)) state)
    {i : Fin (n + 1)} (hstamp : (Relaxation.tracked (arc n nodes) cs (n + 1)).stamp i = n + 1)
    (hnodup : (constraints.map StageConstraint.edge).Nodup)
    (hperm : ∀ c, c ∈ cs ↔ c ∈ constraints) :
    ∃ l, Circular constraints l ∧ 0 < deltaSum l ∧ (PrefixesFit l →
      witnessFor nodes state i.val constraints
        = some ⟨l.map StageConstraint.dst, l.map StageConstraint.edge, deltaSum l⟩) := by
  have hsound := Relaxation.sound_tracked (arc n nodes) cs (n + 1)
  have hstamped := (Relaxation.stamped_tracked (arc n nodes) cs (n + 1)).1
  obtain ⟨l, hne, hshort, hsimple, hchain⟩ := Relaxation.exists_cycle hsound hstamped
    (Fintype.card_fin (n + 1)).le hstamp.ge
  have hdst := fun i a ha ↦ (hsound.linked i a ha).2.1
  have hmem := hchain.forall_mem fun i a ha ↦ (hsound.linked i a ha).1
  have hpositive : 0 < deltaSum l := hsound.positive _ l hne hchain hsimple
  -- the nodes of the points
  have htargets : Relaxation.targets (arc n nodes) l
      = (l.map StageConstraint.dst).map (point n nodes) := by
    rw [List.map_map]
    rfl
  have hsources : l.map (fun c ↦ (arc n nodes c).src)
      = (l.map StageConstraint.src).map (point n nodes) := by
    rw [List.map_map]
    rfl
  have hsrcs : ∀ id ∈ l.map StageConstraint.src, id ∈ nodes :=
    List.forall_mem_map.mpr fun c hc ↦ (hends c (hmem c hc)).1
  have hdsts : ∀ id ∈ l.map StageConstraint.dst, id ∈ nodes :=
    List.forall_mem_map.mpr fun c hc ↦ (hends c (hmem c hc)).2
  have hclosed : l.map StageConstraint.src = (l.map StageConstraint.dst).rotate 1 := by
    have hpoints := hchain.sources_eq_rotate hdst
    rw [htargets, hsources, ← List.map_rotate] at hpoints
    have hnodes := congrArg (List.map fun i ↦ nodes.getD i.val 0) hpoints
    rwa [map_getD_point hlength hsrcs,
      map_getD_point hlength fun id hid ↦ hdsts id (List.mem_rotate.mp hid)] at hnodes
  have hcircular : Circular constraints l :=
    ⟨fun c hc ↦ (hperm c).mp (hmem c hc), hclosed, by
      rw [htargets] at hsimple
      exact List.Nodup.of_map _ hsimple⟩
  -- the scheduler walks back to the cycle and collects it
  have hfirst : (Relaxation.back (arc n nodes)
      (Relaxation.tracked (arc n nodes) cs (n + 1)).pred)^[n + 1] i
        ∉ (Relaxation.targets (arc n nodes) l).tail := by
    have hhead := hchain.head_targets hdst hne
    obtain ⟨first, rest, hcons⟩ := List.exists_cons_of_ne_nil hhead.1
    rw [hcons] at hsimple hhead ⊢
    rw [← Option.some.inj hhead.2]
    exact (List.nodup_cons.mp hsimple).1
  have hback := followBack_eq h (n + 1) fun j hj ↦ (hstamped.iterate_stamp hstamp.ge hj).2
  have hcollect := collectCycle_eq h hdst hchain hne hfirst (hshort.trans (Nat.le_succ _))
  have hcollected : (l.map fun c ↦ ((arc n nodes c).dst.val, c.edge)).map
      (fun entry ↦ nodes.getD entry.1 0) = l.map StageConstraint.dst := by
    rw [List.map_map]
    exact List.map_congr_left fun c hc ↦ getD_point hlength (hends c (hmem c hc)).2
  have hedges : (l.map fun c ↦ ((arc n nodes c).dst.val, c.edge)).map Prod.snd
      = l.map StageConstraint.edge := by
    rw [List.map_map]
    rfl
  obtain ⟨minimum, hminimum⟩ : ∃ m, (l.map StageConstraint.dst).min? = some m := by
    rw [← Option.isSome_iff_exists, List.isSome_min?_iff]
    simpa using hne
  refine ⟨l.rotate ((l.map StageConstraint.dst).idxOf minimum), hcircular.rotate _, ?_,
    fun hfits ↦ ?_⟩
  · rwa [deltaSum_rotate]
  · have htotal := totalDelta_eq hnodup (hcircular.rotate _).mem hfits
    rw [witnessFor, hlength]
    refine Option.bind_eq_some_iff.mpr ⟨_, hback, Option.bind_eq_some_iff.mpr ⟨_, hcollect, ?_⟩⟩
    simp only [hcollected, hedges, ← List.map_rotate]
    exact Option.bind_eq_some_iff.mpr ⟨_, hminimum,
      Option.bind_eq_some_iff.mpr ⟨_, htotal, rfl⟩⟩

end Found

end StageScheduler

end PredicatedMesh
