import PredicatedMesh.Analysis.LowerBound
import PredicatedMesh.Library.Predecessor
import Mathlib.Algebra.Order.Floor.Div

/-!
# The recurrence bound is exact

The analyzer decides a candidate interval by relaxing for as many rounds as there are nodes and
remembers where values came from. If nothing changes any more the values are potentials, and no
directed cycle asks for more than it gives; otherwise the remembered arcs lead back into a cycle
that does. Feasibility is therefore the absence of positive cycles, which is monotone in the
interval, and the bisection finds the least feasible one; the cycle found just below it is the
witness.
-/

namespace PredicatedMesh

open Scan

namespace MIIAnalyzer

/-! ## The analyzer's rounds -/

section Rounds

variable {n ii k : ℕ} {cs : List IndexedConstraint}

/-- The constraint of an arc. -/
def arc (n ii : ℕ) (a : IndexedConstraint × ℕ) : Relaxation.Constraint (Fin (n + 1)) :=
  difference n ii a.1

/-- A state of the analyzer, as values with their arcs. -/
structure Follows (n : ℕ) (t : Relaxation.Tracked (Fin (n + 1)) (IndexedConstraint × ℕ))
    (s : Relaxed) : Prop where
  longest_length : s.longest.length = n + 1
  node_length : s.predecessorNode.length = n + 1
  constraint_length : s.predecessorConstraint.length = n + 1
  value : values s.longest = t.value
  node : ∀ i : Fin (n + 1),
    s.predecessorNode.getD i none = (t.pred i).map fun a ↦ a.1.srcIndex
  constraint : ∀ i : Fin (n + 1), s.predecessorConstraint.getD i none = (t.pred i).map Prod.snd

theorem getD_set {α : Type} {l : List α} {i : ℕ} (hl : l.length = n + 1) (hi : i < n + 1) (v d : α)
    (j : Fin (n + 1)) :
    (l.set i v).getD j d = if j = Fin.ofNat (n + 1) i then v else l.getD j d := by
  by_cases hj : j = Fin.ofNat (n + 1) i
  · subst hj
    rw [if_pos rfl, Fin.val_ofNat, Nat.mod_eq_of_lt hi]
    simp [hl, hi]
  · have hne : i ≠ j := by
      rintro rfl
      exact hj (Fin.ofNat_val_eq_self j).symm
    rw [if_neg hj]
    simp [List.getD_eq_getElem?_getD, List.getElem?_set_ne hne]

/-- A step of the analyzer relaxes and notes. -/
theorem Follows.step {t : Relaxation.Tracked (Fin (n + 1)) (IndexedConstraint × ℕ)} {s : Relaxed}
    (h : Follows n t s) {a : IndexedConstraint × ℕ} (ha : InRange n a.1) (k : ℕ) :
    Follows n (Relaxation.track (arc n ii) k t a) (relaxStep ii s a) := by
  have hsrc := values_ofNat s.longest ha.1
  have hdst := values_ofNat s.longest ha.2
  rw [h.value] at hsrc hdst
  unfold Relaxation.track relaxStep
  simp only [arc, difference, hsrc, hdst]
  split
  · refine ⟨by simp [h.longest_length], by simp [h.node_length], by simp [h.constraint_length],
      ?_, fun i ↦ ?_, fun i ↦ ?_⟩
    · rw [values_set h.longest_length ha.2, h.value]
    · simp only [getD_set h.node_length ha.2, Function.update_apply]
      split
      · rfl
      · exact h.node i
    · simp only [getD_set h.constraint_length ha.2, Function.update_apply]
      split
      · rfl
      · exact h.constraint i
  · exact h

/-- What a round says about the last change. -/
structure LastChange (n k : ℕ) (initial : Fin (n + 1) → ℤ)
    (t : Relaxation.Tracked (Fin (n + 1)) (IndexedConstraint × ℕ)) (s : Relaxed) : Prop where
  none : s.lastUpdated = none → t.value = initial
  some : ∀ d, s.lastUpdated = some d → ∃ i : Fin (n + 1), i.val = d ∧ t.stamp i = k

theorem LastChange.step {initial : Fin (n + 1) → ℤ}
    {t : Relaxation.Tracked (Fin (n + 1)) (IndexedConstraint × ℕ)} {s : Relaxed}
    (hfollows : Follows n t s) (h : LastChange n k initial t s) {a : IndexedConstraint × ℕ}
    (ha : InRange n a.1) :
    LastChange n k initial (Relaxation.track (arc n ii) k t a) (relaxStep ii s a) := by
  have hsrc := values_ofNat s.longest ha.1
  have hdst := values_ofNat s.longest ha.2
  rw [hfollows.value] at hsrc hdst
  unfold Relaxation.track relaxStep
  simp only [arc, difference, hsrc, hdst]
  split
  · refine ⟨fun hnone ↦ (by cases hnone), fun d hd ↦ ?_⟩
    obtain rfl := Option.some.inj hd
    refine ⟨Fin.ofNat (n + 1) a.1.dstIndex, ?_, ?_⟩
    · rw [Fin.val_ofNat, Nat.mod_eq_of_lt ha.2]
    · exact Function.update_self _ _ _
  · exact h

theorem follows_steps {initial : Fin (n + 1) → ℤ} {arcs : List (IndexedConstraint × ℕ)}
    (harcs : ∀ a ∈ arcs, InRange n a.1)
    {t : Relaxation.Tracked (Fin (n + 1)) (IndexedConstraint × ℕ)} {s : Relaxed}
    (hfollows : Follows n t s) (hlast : LastChange n k initial t s) :
    Follows n (Relaxation.trackRound (arc n ii) arcs k t) (arcs.foldl (relaxStep ii) s) ∧
      LastChange n k initial (Relaxation.trackRound (arc n ii) arcs k t)
        (arcs.foldl (relaxStep ii) s) := by
  induction arcs generalizing t s with
  | nil => exact ⟨hfollows, hlast⟩
  | cons a arcs ih =>
    obtain ⟨ha, harcs⟩ := List.forall_mem_cons.mp harcs
    exact ih harcs (hfollows.step ha k) (hlast.step hfollows ha)

theorem inRange_zipIdx (hcs : ∀ c ∈ cs, InRange n c) : ∀ a ∈ cs.zipIdx, InRange n a.1 := by
  intro a ha
  exact hcs a.1 (List.fst_mem_of_mem_zipIdx ha)

/-- A round of the analyzer. -/
theorem Follows.round (hcs : ∀ c ∈ cs, InRange n c) {s : Relaxed}
    (h : Follows n (Relaxation.tracked (arc n ii) cs.zipIdx k) s) :
    Follows n (Relaxation.tracked (arc n ii) cs.zipIdx (k + 1)) (relaxRound cs ii s) ∧
      LastChange n (k + 1) (Relaxation.tracked (arc n ii) cs.zipIdx k).value
        (Relaxation.tracked (arc n ii) cs.zipIdx (k + 1)) (relaxRound cs ii s) := by
  have hstart : Follows n (Relaxation.tracked (arc n ii) cs.zipIdx k)
      { s with lastUpdated := none } :=
    ⟨h.longest_length, h.node_length, h.constraint_length, h.value, h.node, h.constraint⟩
  exact follows_steps (inRange_zipIdx hcs) hstart ⟨fun _ ↦ rfl, fun d hd ↦ by cases hd⟩

/-- **The rounds of the analyzer.** Either they end with values that satisfy the constraints, or a
point has changed in the last of them. -/
theorem relaxRounds_spec (hcs : ∀ c ∈ cs, InRange n c) (rounds : ℕ) {s : Relaxed}
    (h : Follows n (Relaxation.tracked (arc n ii) cs.zipIdx k) s) :
    ((relaxRounds cs ii rounds s).1 = true ∧
        ∃ x, Relaxation.Satisfies x (cs.map (difference n ii))) ∨
      ((relaxRounds cs ii rounds s).1 = false ∧
        Follows n (Relaxation.tracked (arc n ii) cs.zipIdx (k + rounds))
          (relaxRounds cs ii rounds s).2 ∧
        (0 < rounds → ∃ i : Fin (n + 1), (relaxRounds cs ii rounds s).2.lastUpdated = some i.val ∧
          (Relaxation.tracked (arc n ii) cs.zipIdx (k + rounds)).stamp i = k + rounds)) := by
  induction rounds generalizing k s with
  | zero => exact .inr ⟨rfl, h, fun hpos ↦ absurd hpos (lt_irrefl 0)⟩
  | succ rounds ih =>
    obtain ⟨hround, hlast⟩ := h.round hcs
    rw [relaxRounds]
    split
    · rename_i hnone
      refine .inl ⟨rfl, (Relaxation.tracked (arc n ii) cs.zipIdx k).value, ?_⟩
      -- the round has changed nothing
      have hsame := hlast.none (Option.isNone_iff_eq_none.mp hnone)
      rw [Relaxation.tracked, Relaxation.trackRound_value] at hsame
      have hmap : cs.zipIdx.map (arc n ii) = cs.map (difference n ii) := by
        conv_rhs => rw [← List.zipIdx_map_fst 0 cs, List.map_map]
        rfl
      rw [hmap] at hsame
      exact Relaxation.satisfies_of_round_eq hsame
    · rename_i hsome
      rcases ih hround with hdone | ⟨hfalse, hfollows, hchange⟩
      · exact .inl hdone
      · right
        rw [Nat.add_assoc, Nat.add_comm 1] at hfollows hchange
        refine ⟨hfalse, hfollows, fun _ ↦ ?_⟩
        rcases Nat.eq_zero_or_pos rounds with rfl | hpos
        · obtain ⟨d, hd⟩ := Option.ne_none_iff_exists'.mp
            (fun hnone ↦ hsome (Option.isNone_iff_eq_none.mpr hnone))
          obtain ⟨i, rfl, hstamp⟩ := hlast.some d hd
          exact ⟨i, hd, hstamp⟩
        · exact hchange hpos

end Rounds

/-! ## The cycle that is collected -/

section Collect

variable {n ii : ℕ} {cs : List IndexedConstraint}
variable {t : Relaxation.Tracked (Fin (n + 1)) (IndexedConstraint × ℕ)} {s : Relaxed}

/-- The source of a noted arc is a node. -/
theorem arc_src_val (hcs : ∀ c ∈ cs, InRange n c) {a : IndexedConstraint × ℕ}
    (ha : a ∈ cs.zipIdx) : (arc n ii a).src.val = a.1.srcIndex := by
  have hrange := inRange_zipIdx hcs a ha
  rw [arc, difference, Fin.val_ofNat, Nat.mod_eq_of_lt hrange.1]

/-- The analyzer follows the noted arcs back. -/
theorem followBack_eq (hcs : ∀ c ∈ cs, InRange n c) (h : Follows n t s)
    (hsound : t.Sound (arc n ii) cs.zipIdx) (m : ℕ) {i : Fin (n + 1)}
    (hnoted : ∀ j < m, ∃ a, t.pred ((Relaxation.back (arc n ii) t.pred)^[j] i) = some a) :
    followBack s m i = some ((Relaxation.back (arc n ii) t.pred)^[m] i).val := by
  induction m generalizing i with
  | zero => rfl
  | succ m ih =>
    obtain ⟨a, ha⟩ := hnoted 0 (Nat.succ_pos m)
    rw [Function.iterate_zero_apply] at ha
    have hback := Relaxation.back_of_some (f := arc n ii) ha
    have hsrc : (arc n ii a).src.val = a.1.srcIndex := arc_src_val hcs (hsound.linked i a ha).1
    rw [followBack, h.node, ha, Option.map_some, Option.bind_some, ← hsrc, ← hback,
      Function.iterate_succ_apply]
    refine ih fun j hj ↦ ?_
    rw [← Function.iterate_succ_apply]
    exact hnoted (j + 1) (Nat.succ_lt_succ hj)

/-- The analyzer collects a cycle of noted arcs. -/
theorem collectCycle_eq (hcs : ∀ c ∈ cs, InRange n c) (h : Follows n t s)
    (hsound : t.Sound (arc n ii) cs.zipIdx) {i j : Fin (n + 1)} {l : List (IndexedConstraint × ℕ)}
    (hchain : Relaxation.Chain (arc n ii) t.pred i l j) (hne : l ≠ [])
    (hfirst : j ∉ (Relaxation.targets (arc n ii) l).tail) {fuel : ℕ} (hfuel : l.length ≤ fuel) :
    collectCycle s j fuel i = some (l.map Prod.snd) := by
  induction hchain generalizing fuel with
  | nil i => exact absurd rfl hne
  | @cons i j a l head tail ih =>
    obtain ⟨fuel, rfl⟩ : ∃ rest, fuel = rest + 1 :=
      ⟨fuel - 1, by rw [List.length_cons] at hfuel; omega⟩
    obtain ⟨ha, -, -⟩ := hsound.linked i a head
    have hsrc : (arc n ii a).src.val = a.1.srcIndex := arc_src_val hcs ha
    rw [collectCycle, h.node, h.constraint, head, Option.map_some, Option.map_some]
    simp only [← hsrc, Fin.val_inj]
    rcases l with _ | ⟨b, l⟩
    · -- the last arc leads to the start
      cases tail
      rw [if_pos rfl, List.map_cons, List.map_nil]
    · have hb : (arc n ii b).dst = (arc n ii a).src := by
        rcases tail with _ | ⟨head', -⟩
        exact (hsound.linked _ b head').2.1
      simp only [Relaxation.targets, List.map_cons, List.tail_cons, List.mem_cons, not_or, hb]
        at hfirst
      rw [if_neg (Ne.symm hfirst.1)]
      rw [ih (by simp) (by simpa [Relaxation.targets] using hfirst.2)
        (by simp only [List.length_cons] at hfuel ⊢; omega)]
      rfl

/-! ### Its witness -/

def separationSum (l : List (IndexedConstraint × ℕ)) : ℕ :=
  (l.map fun a ↦ a.1.constraint.intrinsicSeparation).sum

def distanceSum (l : List (IndexedConstraint × ℕ)) : ℕ :=
  (l.map fun a ↦ a.1.constraint.distance).sum

theorem weightOf_arc (l : List (IndexedConstraint × ℕ)) :
    Relaxation.weightOf (arc n ii) l = separationSum l - distanceSum l * ii := by
  induction l with
  | nil => simp [Relaxation.weightOf, separationSum, distanceSum]
  | cons a l ih =>
    simp only [Relaxation.weightOf, separationSum, distanceSum, List.map_cons, List.sum_cons]
      at ih ⊢
    rw [ih]
    simp only [arc, difference, weight]
    push_cast
    ring

/-- The totals of a witness that fit are summed up. -/
theorem sumWitness_eq {members : List RecurrenceConstraint} {w : RecurrenceWitness}
    (hseparation : w.totalSeparation + (members.map RecurrenceConstraint.intrinsicSeparation).sum
      ≤ uint64Max)
    (hdistance : w.totalDistance + (members.map RecurrenceConstraint.distance).sum ≤ uint64Max) :
    members.foldlM (fun witness member ↦ do
        let separation ← checkedAdd witness.totalSeparation member.intrinsicSeparation
        let distance ← checkedAdd witness.totalDistance member.distance
        return ⟨witness.edges ++ [member.edge], separation, distance⟩) w
      = some (⟨w.edges ++ members.map RecurrenceConstraint.edge,
          w.totalSeparation + (members.map RecurrenceConstraint.intrinsicSeparation).sum,
          w.totalDistance + (members.map RecurrenceConstraint.distance).sum⟩
          : RecurrenceWitness) := by
  induction members generalizing w with
  | nil => simp
  | cons member members ih =>
    rw [List.map_cons, List.sum_cons, ← Nat.add_assoc] at hseparation hdistance
    have hseparation' : checkedAdd w.totalSeparation member.intrinsicSeparation
        = some (w.totalSeparation + member.intrinsicSeparation) := if_neg (by omega)
    have hdistance' : checkedAdd w.totalDistance member.distance
        = some (w.totalDistance + member.distance) := if_neg (by omega)
    have hrest := ih (w := ⟨w.edges ++ [member.edge],
      w.totalSeparation + member.intrinsicSeparation, w.totalDistance + member.distance⟩)
      hseparation hdistance
    rw [List.foldlM_cons, hseparation', hdistance']
    exact hrest.trans (by simp [Nat.add_assoc])

/-- The witness of a collected cycle. -/
def witnessOf (l : List (IndexedConstraint × ℕ)) : RecurrenceWitness where
  edges := ((l.map fun a ↦ a.1.constraint).insertionSort fun lhs rhs ↦ lhs.edge ≤ rhs.edge).map
    RecurrenceConstraint.edge
  totalSeparation := separationSum l
  totalDistance := distanceSum l

/-- **Deciding a candidate.** Either the constraints have a solution, or a cycle of them has
positive weight, and it is the witness if its totals fit. -/
theorem evaluate_spec (hcs : ∀ c ∈ cs, InRange n c) (ii : ℕ) :
    ((evaluate cs (n + 1) ii).feasible = true ∧
        ∃ x, Relaxation.Satisfies x (cs.map (difference n ii))) ∨
      ((evaluate cs (n + 1) ii).feasible = false ∧ ∃ pred i l, l ≠ [] ∧ (∀ a ∈ l, a ∈ cs.zipIdx) ∧
        (∀ i a, pred i = some a → (arc n ii a).dst = i) ∧
        Relaxation.Chain (arc n ii) pred i l i ∧ (Relaxation.targets (arc n ii) l).Nodup ∧
        distanceSum l * ii < separationSum l ∧
        (separationSum l ≤ uint64Max → distanceSum l ≤ uint64Max →
          (evaluate cs (n + 1) ii).witness = some (witnessOf l))) := by
  have hstart : Follows n (Relaxation.tracked (arc n ii) cs.zipIdx 0)
      ⟨List.replicate (n + 1) 0, List.replicate (n + 1) none, List.replicate (n + 1) none,
        none⟩ := by
    refine ⟨by simp, by simp, by simp, ?_, fun i ↦ ?_, fun i ↦ ?_⟩
    · funext i
      simp [values, List.getD_eq_getElem?_getD, i.isLt, Relaxation.tracked]
    · simp [List.getD_eq_getElem?_getD, i.isLt, Relaxation.tracked]
    · simp [List.getD_eq_getElem?_getD, i.isLt, Relaxation.tracked]
  rcases relaxRounds_spec hcs (n + 1) hstart with ⟨htrue, hsolution⟩ | ⟨hfalse, hfollows, hchange⟩
  · exact .inl ⟨htrue, hsolution⟩
  right
  rw [Nat.zero_add] at hfollows hchange
  obtain ⟨i, hlast, hstamp⟩ := hchange (Nat.succ_pos n)
  have hsound := Relaxation.sound_tracked (arc n ii) cs.zipIdx (n + 1)
  have hstamped := (Relaxation.stamped_tracked (arc n ii) cs.zipIdx (n + 1)).1
  obtain ⟨l, hne, hlength, hnodup, hchain⟩ := Relaxation.exists_cycle hsound hstamped
    (Fintype.card_fin (n + 1)).le hstamp.ge
  have hdst := fun i a ha ↦ (hsound.linked i a ha).2.1
  have hmem := hchain.forall_mem fun i a ha ↦ (hsound.linked i a ha).1
  have hpositive := hsound.positive _ l hne hchain hnodup
  rw [weightOf_arc, sub_pos] at hpositive
  refine ⟨hfalse, _, _, l, hne, hmem, hdst, hchain, hnodup, by exact_mod_cast hpositive, ?_⟩
  intro hseparation hdistance
  -- the start of the cycle is not met again
  have hfirst : (Relaxation.back (arc n ii)
      (Relaxation.tracked (arc n ii) cs.zipIdx (n + 1)).pred)^[n + 1] i
        ∉ (Relaxation.targets (arc n ii) l).tail := by
    have hhead := hchain.head_targets hdst hne
    obtain ⟨first, rest, htargets⟩ := List.exists_cons_of_ne_nil hhead.1
    rw [htargets] at hnodup hhead ⊢
    rw [← Option.some.inj hhead.2]
    exact (List.nodup_cons.mp hnodup).1
  have hback := followBack_eq hcs hfollows hsound (n + 1) fun j hj ↦
    (hstamped.iterate_stamp hstamp.ge hj).2
  have hcollect := collectCycle_eq hcs hfollows hsound hchain hne hfirst
    (hlength.trans (Nat.le_succ _))
  have hmembers : (l.map Prod.snd).filterMap
      (fun index ↦ cs[index]?.map IndexedConstraint.constraint)
        = l.map fun a ↦ a.1.constraint := by
    rw [List.filterMap_map, ← List.filterMap_eq_map]
    refine List.filterMap_congr fun a ha ↦ ?_
    have hget : cs[a.2]? = some a.1 := List.mem_zipIdx_iff_getElem?.mp (hmem a ha)
    simp only [Function.comp_apply, hget, Option.map_some]
  have hperm := List.perm_insertionSort
    (fun lhs rhs : RecurrenceConstraint ↦ lhs.edge ≤ rhs.edge) (l.map fun a ↦ a.1.constraint)
  have hseparations := (hperm.map RecurrenceConstraint.intrinsicSeparation).sum_eq
  have hdistances := (hperm.map RecurrenceConstraint.distance).sum_eq
  rw [List.map_map] at hseparations hdistances
  have hwitness : buildWitness (relaxRounds cs ii (n + 1) ⟨List.replicate (n + 1) 0,
      List.replicate (n + 1) none, List.replicate (n + 1) none, none⟩).2 cs (n + 1)
        = some (witnessOf l) := by
    unfold buildWitness
    refine Option.bind_eq_some_iff.mpr ⟨_, hlast, Option.bind_eq_some_iff.mpr
      ⟨_, hback, Option.bind_eq_some_iff.mpr ⟨_, hcollect, ?_⟩⟩⟩
    rw [hmembers, sumWitness_eq]
    · rw [witnessOf, separationSum, distanceSum, hseparations, hdistances]
      simp [Function.comp_def]
    · rw [hseparations, Nat.zero_add]
      exact hseparation
    · rw [hdistances, Nat.zero_add]
      exact hdistance
  rw [evaluate, hfalse]
  exact hwitness

end Collect

/-! ## Cycles of dependences -/

section Cycles

/-- The separation the analyzer takes an edge to need. -/
def separation (dfg : TargetDFG) (target : TargetModel) (edge : TargetEdge) : ℕ :=
  match intrinsicSeparation dfg target edge with
  | .ok (.inl separation) => separation
  | _ => 0

/-- Edges that follow each other. -/
inductive Walk : TargetNodeId → List TargetEdge → TargetNodeId → Prop
  | nil (v : TargetNodeId) : Walk v [] v
  | cons {edge : TargetEdge} {edges : List TargetEdge} {w : TargetNodeId}
      (rest : Walk edge.dst edges w) : Walk edge.src (edge :: edges) w

/-- A directed cycle of some edges. It may meet a node more than once. -/
structure DirectedCycle (edges cycle : List TargetEdge) : Prop where
  ne_nil : cycle ≠ []
  mem : ∀ edge ∈ cycle, edge ∈ edges
  closed : ∃ v, Walk v cycle v

/-- A cycle that meets no node twice. -/
def Simple (cycle : List TargetEdge) : Prop := (cycle.map TargetEdge.dst).Nodup

variable (dfg : TargetDFG) (target : TargetModel)

def totalSeparation (cycle : List TargetEdge) : ℕ := (cycle.map (separation dfg target)).sum

def totalDistance (cycle : List TargetEdge) : ℕ := (cycle.map TargetEdge.distance).sum

/-- The constraint of an edge. -/
structure FromEdge (edge : TargetEdge) (c : IndexedConstraint) : Prop where
  edge_eq : c.constraint.edge = edge.id
  distance_eq : c.constraint.distance = edge.distance
  separation_eq : intrinsicSeparation dfg target edge = .ok (.inl c.constraint.intrinsicSeparation)
  src_eq : nodeIndex dfg edge.src = some c.srcIndex
  dst_eq : nodeIndex dfg edge.dst = some c.dstIndex

variable {dfg target}

theorem FromEdge.separation_eq' {edge : TargetEdge} {c : IndexedConstraint}
    (h : FromEdge dfg target edge c) :
    separation dfg target edge = c.constraint.intrinsicSeparation := by
  rw [separation, h.separation_eq]

/-- Separations are positive. -/
theorem FromEdge.separation_pos {edge : TargetEdge} {c : IndexedConstraint}
    (h : FromEdge dfg target edge c) : 0 < separation dfg target edge := by
  rw [h.separation_eq']
  have hseparation := h.separation_eq
  unfold intrinsicSeparation at hseparation
  split at hseparation
  · simp only [Except.ok.injEq] at hseparation
    split at hseparation
    · cases hseparation
    · rw [← Sum.inl.inj hseparation]
      exact Nat.pos_of_ne_zero ‹_›
  · split at hseparation
    · cases hseparation
    split at hseparation
    · cases hseparation
    · simp only [Except.ok.injEq] at hseparation
      split at hseparation
      · cases hseparation
      · rw [← Sum.inl.inj hseparation]
        exact Nat.pos_of_ne_zero ‹_›

theorem FromEdge.inRange {n : ℕ} (hn : dfg.nodes.length = n + 1) {edge : TargetEdge}
    {c : IndexedConstraint} (h : FromEdge dfg target edge c) : InRange n c :=
  ⟨hn ▸ (nodeIndex_eq_some h.src_eq).1, hn ▸ (nodeIndex_eq_some h.dst_eq).1⟩

/-- **The constraints** are those of the edges, in order, and their separations have been summed. -/
theorem buildConstraints_eq_ok {total total' : ℕ} {edges : List TargetEdge}
    {constraints : List IndexedConstraint}
    (h : buildConstraints dfg target total edges = .ok (constraints, total', [])) :
    List.Forall₂ (FromEdge dfg target) edges constraints ∧
      total' = total + totalSeparation dfg target edges := by
  induction edges generalizing total constraints with
  | nil =>
    obtain ⟨rfl, htotal⟩ := Prod.mk.inj (Except.ok.inj h)
    exact ⟨.nil, (Prod.mk.inj htotal).1.symm⟩
  | cons edge edges ih =>
    rw [buildConstraints] at h
    obtain ⟨separation?, hseparation, h⟩ := bind_eq_ok.mp h
    split at h
    · obtain ⟨rest, -, h⟩ := bind_eq_ok.mp h
      simp [pure, Except.pure] at h
    split at h
    · rename_i src dst hsrc hdst
      simp only at h
      split at h
      · rename_i sum hsum
        obtain ⟨rest, hrest, h⟩ := bind_eq_ok.mp h
        simp only [pure, Except.pure, Except.ok.injEq, Prod.mk.injEq] at h
        obtain ⟨rfl, rfl, hfailures⟩ := h
        obtain ⟨hall, htotal⟩ := ih (by rw [hrest, ← hfailures])
        have hfrom : FromEdge dfg target edge
            ⟨⟨edge.id, edge.src, edge.dst, edge.distance, _⟩, src, dst⟩ :=
          ⟨rfl, rfl, hseparation, hsrc, hdst⟩
        refine ⟨.cons hfrom hall, ?_⟩
        rw [htotal, checkedAdd_eq hsum, totalSeparation, totalSeparation, List.map_cons,
          List.sum_cons, hfrom.separation_eq', Nat.add_assoc]
      · obtain ⟨rest, -, h⟩ := bind_eq_ok.mp h
        simp [pure, Except.pure] at h
    · obtain ⟨rest, -, h⟩ := bind_eq_ok.mp h
      simp [pure, Except.pure] at h

/-! ### Potentials bound cycles -/

/-- The value of a solution at a node. -/
def potential (dfg : TargetDFG) {n : ℕ} (x : Fin (n + 1) → ℤ) (id : TargetNodeId) : ℤ :=
  x (@Fin.ofNat (n + 1) Nat.instNeZeroSucc ((nodeIndex dfg id).getD 0))

/-- A solution rises along a walk by what the walk asks for. -/
theorem Walk.potential_le {n ii : ℕ} {edges : List TargetEdge} {cs : List IndexedConstraint}
    (hcs : List.Forall₂ (FromEdge dfg target) edges cs) {x : Fin (n + 1) → ℤ}
    (hx : Relaxation.Satisfies x (cs.map (difference n ii))) {v w : TargetNodeId}
    {walk : List TargetEdge} (h : Walk v walk w) (hmem : ∀ edge ∈ walk, edge ∈ edges) :
    potential dfg x v + totalSeparation dfg target walk
      ≤ potential dfg x w + totalDistance walk * ii := by
  induction h with
  | nil v => simp [totalSeparation, totalDistance]
  | @cons edge walk w rest ih =>
    obtain ⟨hedge, hrest⟩ := List.forall_mem_cons.mp hmem
    obtain ⟨i, hi⟩ := List.mem_iff_getElem?.mp hedge
    obtain ⟨hlt, rfl⟩ := List.getElem?_eq_some_iff.mp hi
    have hlt' : i < cs.length := hcs.length_eq ▸ hlt
    have hfrom : FromEdge dfg target edges[i] cs[i] := hcs.get hlt hlt'
    have hholds := hx _ (List.mem_map_of_mem (List.getElem_mem hlt'))
    have ih := ih hrest
    have hsrc : potential dfg x edges[i].src = x (Fin.ofNat (n + 1) cs[i].srcIndex) := by
      rw [potential, hfrom.src_eq, Option.getD_some]
    have hdst : potential dfg x edges[i].dst = x (Fin.ofNat (n + 1) cs[i].dstIndex) := by
      rw [potential, hfrom.dst_eq, Option.getD_some]
    simp only [Relaxation.Constraint.Holds, difference, ← hsrc, ← hdst, weight,
      ← hfrom.separation_eq', hfrom.distance_eq] at hholds
    simp only [totalSeparation, totalDistance, List.map_cons, List.sum_cons] at ih ⊢
    push_cast at ih ⊢
    linarith

theorem nodeIndex_inj {v w : TargetNodeId} {index : ℕ} (hv : nodeIndex dfg v = some index)
    (hw : nodeIndex dfg w = some index) : v = w := by
  obtain ⟨-, node, hnode, rfl⟩ := nodeIndex_eq_some hv
  obtain ⟨-, node', hnode', rfl⟩ := nodeIndex_eq_some hw
  rw [Option.some.inj (hnode.symm.trans hnode')]

/-! ### A cycle of arcs is a cycle of edges -/

theorem Walk.concat {v w : TargetNodeId} {walk : List TargetEdge} (h : Walk v walk w)
    {edge : TargetEdge} (hsrc : edge.src = w) : Walk v (walk ++ [edge]) edge.dst := by
  induction h with
  | nil v =>
    subst hsrc
    exact .cons (.nil edge.dst)
  | cons _ ih => exact .cons (ih hsrc)

variable (dfg target) in
/-- The edges of some arcs. -/
def EdgesOf (edges : List TargetEdge) : List (IndexedConstraint × ℕ) → List TargetEdge → Prop :=
  List.Forall₂ fun a edge ↦ edges[a.2]? = some edge ∧ FromEdge dfg target edge a.1

theorem exists_edgesOf {edges : List TargetEdge} {cs : List IndexedConstraint}
    (hcs : List.Forall₂ (FromEdge dfg target) edges cs) {l : List (IndexedConstraint × ℕ)}
    (hmem : ∀ a ∈ l, a ∈ cs.zipIdx) : ∃ walk, EdgesOf dfg target edges l walk := by
  induction l with
  | nil => exact ⟨[], .nil⟩
  | cons a l ih =>
    obtain ⟨ha, hl⟩ := List.forall_mem_cons.mp hmem
    obtain ⟨walk, hwalk⟩ := ih hl
    obtain ⟨hlt, hget⟩ := List.getElem?_eq_some_iff.mp (List.mem_zipIdx_iff_getElem?.mp ha)
    have hlt' : a.2 < edges.length := hcs.length_eq ▸ hlt
    refine ⟨edges[a.2] :: walk, .cons ⟨List.getElem?_eq_getElem hlt', ?_⟩ hwalk⟩
    rw [← hget]
    exact hcs.get hlt' hlt

section EdgesOf

variable {n ii : ℕ} {edges walk : List TargetEdge} {l : List (IndexedConstraint × ℕ)}

theorem EdgesOf.mem (h : EdgesOf dfg target edges l walk) : ∀ edge ∈ walk, edge ∈ edges := by
  induction h with
  | nil => simp
  | cons ha _ ih => exact List.forall_mem_cons.mpr ⟨List.mem_of_getElem? ha.1, ih⟩

theorem EdgesOf.separation_eq (h : EdgesOf dfg target edges l walk) :
    totalSeparation dfg target walk = separationSum l :=
  congrArg List.sum (map_eq_of_forall₂ (fun _ _ ha ↦ ha.2.separation_eq'.symm) h).symm

theorem EdgesOf.distance_eq (h : EdgesOf dfg target edges l walk) :
    totalDistance walk = distanceSum l :=
  congrArg List.sum (map_eq_of_forall₂ (fun _ _ ha ↦ ha.2.distance_eq) h).symm

theorem EdgesOf.ids_eq (h : EdgesOf dfg target edges l walk) :
    walk.map TargetEdge.id = l.map fun a ↦ a.1.constraint.edge :=
  (map_eq_of_forall₂ (fun _ _ ha ↦ ha.2.edge_eq) h).symm

/-- Arcs that lead to different points are edges that lead to different nodes. -/
theorem EdgesOf.simple (h : EdgesOf dfg target edges l walk)
    (hnodup : (Relaxation.targets (arc n ii) l).Nodup) : Simple walk := by
  refine List.Nodup.of_map (fun id ↦ Fin.ofNat (n + 1) ((nodeIndex dfg id).getD 0)) ?_
  rw [List.map_map]
  convert hnodup using 1
  refine (map_eq_of_forall₂ (fun a edge ha ↦ ?_) h).symm
  simp only [Function.comp_apply, ha.2.dst_eq, Option.getD_some]
  rfl

/-- A walk back along arcs is a walk along the edges. -/
theorem EdgesOf.exists_walk (hn : dfg.nodes.length = n + 1)
    {pred : Fin (n + 1) → Option (IndexedConstraint × ℕ)}
    (hdst : ∀ i a, pred i = some a → (arc n ii a).dst = i) {i j : Fin (n + 1)}
    (hchain : Relaxation.Chain (arc n ii) pred i l j) (h : EdgesOf dfg target edges l walk)
    {v : TargetNodeId} (hv : nodeIndex dfg v = some j.val) :
    ∃ w, nodeIndex dfg w = some i.val ∧ Walk v walk.reverse w := by
  induction hchain generalizing walk with
  | nil i =>
    rcases h with _ | _
    exact ⟨v, hv, .nil v⟩
  | @cons i j a l head tail ih =>
    rcases h with _ | ⟨ha, hrest⟩
    rename_i edge walk
    obtain ⟨w, hw, hwalk⟩ := ih hrest hv
    have hrange := ha.2.inRange hn
    -- the walk so far ends where the edge starts
    have hsrc : edge.src = w := by
      refine nodeIndex_inj ha.2.src_eq ?_
      rw [hw, arc, difference, Fin.val_ofNat, Nat.mod_eq_of_lt hrange.1]
    refine ⟨edge.dst, ?_, ?_⟩
    · rw [ha.2.dst_eq, ← hdst i a head, arc, difference, Fin.val_ofNat, Nat.mod_eq_of_lt hrange.2]
    · rw [List.reverse_cons]
      exact hwalk.concat hsrc

/-- **A cycle of arcs is a simple cycle of edges.** -/
theorem EdgesOf.directedCycle (hn : dfg.nodes.length = n + 1)
    {pred : Fin (n + 1) → Option (IndexedConstraint × ℕ)}
    (hdst : ∀ i a, pred i = some a → (arc n ii a).dst = i) {i : Fin (n + 1)}
    (hchain : Relaxation.Chain (arc n ii) pred i l i) (hne : l ≠ [])
    (h : EdgesOf dfg target edges l walk) : DirectedCycle edges walk.reverse := by
  obtain ⟨v, hv⟩ : ∃ v, nodeIndex dfg v = some i.val := by
    rcases hchain with _ | ⟨head, -⟩
    · exact absurd rfl hne
    · rename_i a l
      rcases h with _ | ⟨ha, -⟩
      rename_i edge walk
      refine ⟨edge.dst, ?_⟩
      rw [ha.2.dst_eq, ← hdst i a head, arc, difference, Fin.val_ofNat,
        Nat.mod_eq_of_lt (ha.2.inRange hn).2]
  obtain ⟨w, hw, hwalk⟩ := EdgesOf.exists_walk hn hdst hchain h hv
  refine ⟨?_, fun edge hedge ↦ EdgesOf.mem h edge (List.mem_reverse.mp hedge), v,
    nodeIndex_inj hw hv ▸ hwalk⟩
  rw [ne_eq, List.reverse_eq_nil_iff, ← List.length_eq_zero_iff, ← List.Forall₂.length_eq h,
    List.length_eq_zero_iff]
  exact hne

end EdgesOf

/-! ### Deciding a candidate -/

/-- A witness describes a cycle. -/
structure Witnesses (dfg : TargetDFG) (target : TargetModel) (witness : RecurrenceWitness)
    (cycle : List TargetEdge) : Prop where
  edges : witness.edges.Perm (cycle.map TargetEdge.id)
  totalSeparation : witness.totalSeparation = totalSeparation dfg target cycle
  totalDistance : witness.totalDistance = totalDistance cycle

theorem witnesses_witnessOf {edges walk : List TargetEdge} {l : List (IndexedConstraint × ℕ)}
    (h : EdgesOf dfg target edges l walk) : Witnesses dfg target (witnessOf l) walk.reverse := by
  refine ⟨?_, ?_, ?_⟩
  · refine ((List.perm_insertionSort _ _).map _).trans ?_
    rw [List.map_map, List.map_reverse, EdgesOf.ids_eq h]
    exact (List.reverse_perm _).symm
  · rw [totalSeparation, List.map_reverse, List.sum_reverse, ← totalSeparation,
      EdgesOf.separation_eq h]
    rfl
  · rw [totalDistance, List.map_reverse, List.sum_reverse, ← totalDistance, EdgesOf.distance_eq h]
    rfl

/-- **Deciding a candidate.** Either no cycle asks for more than the interval gives it, or a simple
one does, and it is the witness if its totals fit. -/
theorem evaluate_cycles {n : ℕ} (hn : dfg.nodes.length = n + 1) {edges : List TargetEdge}
    {cs : List IndexedConstraint} (hcs : List.Forall₂ (FromEdge dfg target) edges cs) (ii : ℕ) :
    ((evaluate cs (n + 1) ii).feasible = true ∧ ∀ cycle, DirectedCycle edges cycle →
        totalSeparation dfg target cycle ≤ totalDistance cycle * ii) ∨
      ((evaluate cs (n + 1) ii).feasible = false ∧ ∃ cycle, DirectedCycle edges cycle ∧
        Simple cycle ∧ totalDistance cycle * ii < totalSeparation dfg target cycle ∧
        (totalSeparation dfg target cycle ≤ uint64Max → totalDistance cycle ≤ uint64Max →
          ∃ witness, (evaluate cs (n + 1) ii).witness = some witness ∧
            Witnesses dfg target witness cycle)) := by
  have hrange : ∀ c ∈ cs, InRange n c := by
    intro c hc
    obtain ⟨i, hlt, rfl⟩ := List.getElem_of_mem hc
    exact (hcs.get (hcs.length_eq ▸ hlt) hlt).inRange hn
  rcases evaluate_spec hrange ii with ⟨hfeasible, x, hx⟩ |
    ⟨hinfeasible, pred, i, l, hne, hmem, hdst, hchain, hnodup, hlt, hwitness⟩
  · left
    refine ⟨hfeasible, fun cycle hcycle ↦ ?_⟩
    obtain ⟨v, hwalk⟩ := hcycle.closed
    have hle := hwalk.potential_le hcs hx hcycle.mem
    zify
    linarith
  · right
    obtain ⟨walk, hwalk⟩ := exists_edgesOf hcs hmem
    have hwitnesses := witnesses_witnessOf hwalk
    have hseparation : totalSeparation dfg target walk.reverse = separationSum l :=
      hwitnesses.totalSeparation.symm
    have hdistance : totalDistance walk.reverse = distanceSum l := hwitnesses.totalDistance.symm
    refine ⟨hinfeasible, walk.reverse, EdgesOf.directedCycle hn hdst hchain hne hwalk, ?_, ?_, ?_⟩
    · rw [Simple, List.map_reverse, List.nodup_reverse]
      exact EdgesOf.simple hwalk hnodup
    · rw [hseparation, hdistance]
      exact hlt
    · intro hfits hfits'
      exact ⟨_, hwitness (hseparation ▸ hfits) (hdistance ▸ hfits'), hwitnesses⟩

/-- Feasibility is the absence of cycles that ask for too much. -/
theorem evaluate_feasible_iff {n : ℕ} (hn : dfg.nodes.length = n + 1) {edges : List TargetEdge}
    {cs : List IndexedConstraint} (hcs : List.Forall₂ (FromEdge dfg target) edges cs) {ii : ℕ} :
    (evaluate cs (n + 1) ii).feasible = true ↔ ∀ cycle, DirectedCycle edges cycle →
      totalSeparation dfg target cycle ≤ totalDistance cycle * ii := by
  rcases evaluate_cycles hn hcs ii with ⟨hfeasible, hall⟩ | ⟨hinfeasible, cycle, hcycle, -, hlt, -⟩
  · exact iff_of_true hfeasible hall
  · rw [hinfeasible]
    exact iff_of_false Bool.false_ne_true fun hall ↦ absurd (hall cycle hcycle) (not_le.mpr hlt)

/-! ### Cycles without distance -/

/-- A cycle all of whose dependences are within one iteration. -/
def ZeroDistanceCycle (edges cycle : List TargetEdge) : Prop :=
  DirectedCycle edges cycle ∧ ∀ edge ∈ cycle, edge.distance = 0

theorem totalDistance_eq_zero_iff {cycle : List TargetEdge} :
    totalDistance cycle = 0 ↔ ∀ edge ∈ cycle, edge.distance = 0 := by
  rw [totalDistance, List.sum_eq_zero_iff, List.forall_mem_map]

theorem totalSeparation_pos {edges : List TargetEdge} {cs : List IndexedConstraint}
    (hcs : List.Forall₂ (FromEdge dfg target) edges cs) {cycle : List TargetEdge}
    (h : DirectedCycle edges cycle) : 0 < totalSeparation dfg target cycle := by
  obtain ⟨edge, hedge⟩ := List.exists_mem_of_ne_nil cycle h.ne_nil
  obtain ⟨i, hlt, rfl⟩ := List.getElem_of_mem (h.mem edge hedge)
  have hpos := (hcs.get hlt (hcs.length_eq ▸ hlt)).separation_pos
  exact hpos.trans_le (List.single_le_sum (fun _ _ ↦ Nat.zero_le _) _ (List.mem_map_of_mem hedge))

/-- **The first test** looks for a cycle without distance. -/
theorem zeroDistance_feasible_iff {n : ℕ} (hn : dfg.nodes.length = n + 1) {edges : List TargetEdge}
    {cs : List IndexedConstraint} (hcs : List.Forall₂ (FromEdge dfg target) edges cs) :
    (evaluate (cs.filter fun c ↦ c.constraint.distance == 0) (n + 1) 0).feasible = true ↔
      ¬ ∃ cycle, ZeroDistanceCycle edges cycle := by
  have hfilter := forall₂_filter (p := fun edge ↦ edge.distance == 0)
    (q := fun c ↦ c.constraint.distance == 0) (fun _ _ hfrom ↦ by rw [hfrom.distance_eq]) hcs
  rw [evaluate_feasible_iff hn hfilter]
  constructor
  · rintro hall ⟨cycle, hcycle, hzero⟩
    have hle := hall cycle ⟨hcycle.ne_nil, fun edge hedge ↦ List.mem_filter.mpr
      ⟨hcycle.mem edge hedge, by simp [hzero edge hedge]⟩, hcycle.closed⟩
    have hpos := totalSeparation_pos hcs hcycle
    rw [Nat.mul_zero] at hle
    omega
  · intro hnone cycle hcycle
    refine absurd ⟨cycle, ⟨hcycle.ne_nil, fun edge hedge ↦ ?_, hcycle.closed⟩, fun edge hedge ↦ ?_⟩
      hnone
    · exact (List.mem_filter.mp (hcycle.mem edge hedge)).1
    · simpa using (List.mem_filter.mp (hcycle.mem edge hedge)).2

/-! ### A simple cycle is part of the graph -/

theorem Simple.subperm {edges cycle : List TargetEdge} (h : Simple cycle)
    (hmem : ∀ edge ∈ cycle, edge ∈ edges) : cycle.Subperm edges :=
  (List.Nodup.of_map _ h).subperm hmem

theorem Simple.totalSeparation_le {edges cycle : List TargetEdge} (h : Simple cycle)
    (hmem : ∀ edge ∈ cycle, edge ∈ edges) :
    totalSeparation dfg target cycle ≤ totalSeparation dfg target edges := by
  obtain ⟨l, hperm, hsublist⟩ := h.subperm hmem
  rw [totalSeparation, ← (hperm.map _).sum_eq]
  exact (hsublist.map _).sum_le_sum fun _ _ ↦ Nat.zero_le _

/-- There are no more edges than their separations sum to. -/
theorem length_le_totalSeparation {edges : List TargetEdge} {cs : List IndexedConstraint}
    (hcs : List.Forall₂ (FromEdge dfg target) edges cs) :
    edges.length ≤ totalSeparation dfg target edges := by
  induction hcs with
  | nil => exact Nat.zero_le _
  | cons hfrom _ ih =>
    have hpos := hfrom.separation_pos
    simp only [totalSeparation, List.map_cons, List.sum_cons, List.length_cons] at ih ⊢
    omega

theorem totalDistance_le {cycle : List TargetEdge} {bound : ℕ}
    (h : ∀ edge ∈ cycle, edge.distance ≤ bound) : totalDistance cycle ≤ cycle.length * bound := by
  have hle := List.sum_le_card_nsmul (cycle.map TargetEdge.distance) bound
    (List.forall_mem_map.mpr h)
  rwa [List.length_map, smul_eq_mul] at hle

/-! ## Bisection -/

/-- **Bisection finds the least feasible candidate.** -/
theorem bisect_isLeast {feasible : ℕ → Bool}
    (hmono : ∀ ii ii', ii ≤ ii' → feasible ii = true → feasible ii' = true) {fuel low high : ℕ}
    (hle : low ≤ high) (hfuel : high - low ≤ fuel) (hhigh : feasible high = true) :
    IsLeast {ii | low ≤ ii ∧ feasible ii = true} (bisect feasible fuel low high) := by
  have hdone : ∀ {low high : ℕ}, low = high → feasible high = true →
      IsLeast {ii | low ≤ ii ∧ feasible ii = true} low := by
    rintro low _ rfl hfeasible
    exact ⟨⟨le_rfl, hfeasible⟩, fun ii hii ↦ hii.1⟩
  induction fuel generalizing low high with
  | zero => exact hdone (by omega) hhigh
  | succ fuel ih =>
    rw [bisect]
    split
    · simp only
      split
      · rename_i hmid
        exact ih (by omega) (by omega) hmid
      · rename_i hmid
        have hleast : IsLeast {ii | low + (high - low) / 2 + 1 ≤ ii ∧ feasible ii = true}
            (bisect feasible fuel (low + (high - low) / 2 + 1) high) :=
          ih (by omega) (by omega) hhigh
        -- nothing up to the middle is feasible
        have hset : {ii | low ≤ ii ∧ feasible ii = true}
            = {ii | low + (high - low) / 2 + 1 ≤ ii ∧ feasible ii = true} := by
          ext ii
          refine and_congr_left fun hii ↦ ⟨fun _ ↦ ?_, fun _ ↦ by omega⟩
          by_contra! hlt
          exact hmid (hmono ii _ (by omega) hii)
        rwa [hset]
    · exact hdone (by omega) hhigh

/-! ## The recurrence bound -/

/-- The intervals that give every cycle what it asks for. -/
def Sufficient (dfg : TargetDFG) (target : TargetModel) (edges : List TargetEdge) : Set ℕ :=
  {ii | 1 ≤ ii ∧ ∀ cycle, DirectedCycle edges cycle →
    totalSeparation dfg target cycle ≤ totalDistance cycle * ii}

/-- One, and the ratios of separation to distance of the cycles. -/
def Ratios (dfg : TargetDFG) (target : TargetModel) (edges : List TargetEdge) : Set ℕ :=
  {1} ∪ {bound | ∃ cycle, DirectedCycle edges cycle ∧
    totalSeparation dfg target cycle ⌈/⌉ totalDistance cycle = bound}

/-- A recurrence bound that is exact, with the cycle that needs it. -/
structure RecurrenceExact (dfg : TargetDFG) (target : TargetModel) (edges : List TargetEdge)
    (bound : ℕ) (witness : Option RecurrenceWitness) : Prop where
  least : IsLeast (Sufficient dfg target edges) bound
  greatest : IsGreatest (Ratios dfg target edges) bound
  witnessed : 1 < bound → ∃ w cycle, witness = some w ∧ DirectedCycle edges cycle ∧ Simple cycle ∧
    Witnesses dfg target w cycle ∧ w.totalSeparation ⌈/⌉ w.totalDistance = bound

theorem ceilDiv_eq {separation distance bound : ℕ} (hpos : 0 < distance)
    (hle : separation ≤ distance * bound) (hlt : distance * (bound - 1) < separation) :
    separation ⌈/⌉ distance = bound := by
  have hupper := (ceilDiv_le_iff_le_mul hpos).mpr hle
  have hlower : ¬ separation ⌈/⌉ distance ≤ bound - 1 := fun h ↦
    absurd ((ceilDiv_le_iff_le_mul hpos).mp h) (not_le.mpr hlt)
  omega

theorem totalDistance_pos {edges cycle : List TargetEdge}
    (hnone : ¬ ∃ cycle, ZeroDistanceCycle edges cycle) (h : DirectedCycle edges cycle) :
    0 < totalDistance cycle :=
  Nat.pos_of_ne_zero fun hzero ↦ hnone ⟨cycle, h, totalDistance_eq_zero_iff.mp hzero⟩

/-- The least sufficient interval is the greatest ratio. -/
theorem isGreatest_ratios {edges : List TargetEdge} {bound : ℕ}
    (hnone : ¬ ∃ cycle, ZeroDistanceCycle edges cycle)
    (hleast : IsLeast (Sufficient dfg target edges) bound) :
    IsGreatest (Ratios dfg target edges) bound := by
  constructor
  · by_cases hone : bound = 1
    · exact .inl hone
    · have hpos := hleast.1.1
      have hless : bound - 1 ∉ Sufficient dfg target edges := fun hmem ↦ by
        have := hleast.2 hmem
        omega
      have hnot : ¬ ∀ cycle, DirectedCycle edges cycle →
          totalSeparation dfg target cycle ≤ totalDistance cycle * (bound - 1) :=
        fun hall ↦ hless ⟨by omega, hall⟩
      push Not at hnot
      obtain ⟨cycle, hcycle, hlt⟩ := hnot
      exact .inr ⟨cycle, hcycle,
        ceilDiv_eq (totalDistance_pos hnone hcycle) (hleast.1.2 cycle hcycle) hlt⟩
  · rintro ratio (rfl | ⟨cycle, hcycle, rfl⟩)
    · exact hleast.1.1
    · exact (ceilDiv_le_iff_le_mul (totalDistance_pos hnone hcycle)).mpr (hleast.1.2 cycle hcycle)

/-- Widths of the analyzer's data. -/
structure Fits (dfg : TargetDFG) (target : TargetModel) (edges : List TargetEdge) : Prop where
  separation : totalSeparation dfg target edges ≤ uint32Max
  distance : ∀ edge ∈ edges, edge.distance ≤ uint32Max

/-- The totals of a simple cycle fit. -/
theorem Fits.totals {edges cycle : List TargetEdge} (h : Fits dfg target edges)
    {cs : List IndexedConstraint} (hcs : List.Forall₂ (FromEdge dfg target) edges cs)
    (hcycle : DirectedCycle edges cycle) (hsimple : Simple cycle) :
    totalSeparation dfg target cycle ≤ uint64Max ∧ totalDistance cycle ≤ uint64Max := by
  have hle : totalSeparation dfg target cycle ≤ totalSeparation dfg target edges :=
    hsimple.totalSeparation_le hcycle.mem
  have hseparation := hle.trans h.separation
  have hlength := ((hsimple.subperm hcycle.mem).length_le.trans
    (length_le_totalSeparation hcs)).trans h.separation
  have hdistance := totalDistance_le fun edge hedge ↦ h.distance edge (hcycle.mem edge hedge)
  have hmul := Nat.mul_le_mul_right uint32Max hlength
  simp only [uint32Max, uint64Max] at *
  omega

/-- Every cycle gets what it asks for at the sum of all separations. -/
theorem evaluate_total {n : ℕ} (hn : dfg.nodes.length = n + 1) {edges : List TargetEdge}
    {cs : List IndexedConstraint} (hcs : List.Forall₂ (FromEdge dfg target) edges cs)
    (hnone : ¬ ∃ cycle, ZeroDistanceCycle edges cycle) {high : ℕ}
    (hhigh : totalSeparation dfg target edges ≤ high) :
    (evaluate cs (n + 1) high).feasible = true := by
  rcases evaluate_cycles hn hcs high with ⟨hfeasible, -⟩ | ⟨-, cycle, hcycle, hsimple, hlt, -⟩
  · exact hfeasible
  · have hle : totalSeparation dfg target cycle ≤ totalSeparation dfg target edges :=
      hsimple.totalSeparation_le hcycle.mem
    have hpos := totalDistance_pos hnone hcycle
    have hmul := Nat.le_mul_of_pos_left high hpos
    omega

/-- A larger interval gives every cycle more. -/
theorem evaluate_mono {n : ℕ} (hn : dfg.nodes.length = n + 1) {edges : List TargetEdge}
    {cs : List IndexedConstraint} (hcs : List.Forall₂ (FromEdge dfg target) edges cs) {ii ii' : ℕ}
    (hle : ii ≤ ii') (h : (evaluate cs (n + 1) ii).feasible = true) :
    (evaluate cs (n + 1) ii').feasible = true := by
  rw [evaluate_feasible_iff hn hcs] at h ⊢
  intro cycle hcycle
  exact (h cycle hcycle).trans (Nat.mul_le_mul_left _ hle)

/-- What the search finds is exact. -/
theorem recurrenceExact_bisect {n : ℕ} (hn : dfg.nodes.length = n + 1) {edges : List TargetEdge}
    {cs : List IndexedConstraint} (hcs : List.Forall₂ (FromEdge dfg target) edges cs)
    (hnone : ¬ ∃ cycle, ZeroDistanceCycle edges cycle) (hfits : Fits dfg target edges) {high : ℕ}
    (hpos : 1 ≤ high) (hhigh : totalSeparation dfg target edges ≤ high) :
    let bound := bisect (fun ii ↦ (evaluate cs (n + 1) ii).feasible) (high - 1) 1 high
    RecurrenceExact dfg target edges bound
      (if bound > 1 then (evaluate cs (n + 1) (bound - 1)).witness else none) := by
  intro bound
  have hleast : IsLeast (Sufficient dfg target edges) bound := by
    have hfound : IsLeast {ii | 1 ≤ ii ∧ (evaluate cs (n + 1) ii).feasible = true} bound :=
      bisect_isLeast (fun _ _ hle h ↦ evaluate_mono hn hcs hle h) hpos le_rfl
        (evaluate_total hn hcs hnone hhigh)
    simp only [evaluate_feasible_iff hn hcs] at hfound
    exact hfound
  refine ⟨hleast, isGreatest_ratios hnone hleast, fun hone ↦ ?_⟩
  rw [if_pos hone]
  rcases evaluate_cycles hn hcs (bound - 1) with
    ⟨-, hall⟩ | ⟨-, cycle, hcycle, hsimple, hlt, hwitness⟩
  · -- the bound would not be the least
    have hsmaller := hleast.2 (show bound - 1 ∈ Sufficient dfg target edges from ⟨by omega, hall⟩)
    omega
  · obtain ⟨hseparation, hdistance⟩ := hfits.totals hcs hcycle hsimple
    obtain ⟨w, hw, hwitnesses⟩ := hwitness hseparation hdistance
    refine ⟨w, cycle, hw, hcycle, hsimple, hwitnesses, ?_⟩
    rw [hwitnesses.totalSeparation, hwitnesses.totalDistance]
    exact ceilDiv_eq (totalDistance_pos hnone hcycle) (hleast.1.2 cycle hcycle) hlt

/-- **The search for the recurrence bound** finds the exact one, unless a cycle has no distance. -/
theorem recurrenceBound_spec (result : MIIResult) {edges : List TargetEdge}
    {cs : List IndexedConstraint} (hcs : List.Forall₂ (FromEdge dfg target) edges cs)
    (hfits : Fits dfg target edges) :
    (¬ (∃ cycle, ZeroDistanceCycle edges cycle) ∧ ∃ recurrence,
        recurrenceBound result dfg.nodes.length cs (totalSeparation dfg target edges)
          = .ok recurrence ∧
        RecurrenceExact dfg target edges recurrence.1 recurrence.2) ∨
      ((∃ cycle, ZeroDistanceCycle edges cycle) ∧ ∃ returned,
        recurrenceBound result dfg.nodes.length cs (totalSeparation dfg target edges)
          = .error (.returned returned) ∧
        returned.status = .unschedulableZeroDistanceCycle) := by
  rcases hcs with _ | ⟨hfrom, hrest⟩
  · -- without edges there are no cycles
    have hno : ∀ cycle, ¬ DirectedCycle [] cycle := fun cycle hcycle ↦ by
      obtain ⟨edge, hedge⟩ := List.exists_mem_of_ne_nil cycle hcycle.ne_nil
      exact List.not_mem_nil (hcycle.mem edge hedge)
    have hnone : ¬ ∃ cycle, ZeroDistanceCycle [] cycle := fun ⟨cycle, hcycle⟩ ↦ hno cycle hcycle.1
    have hleast : IsLeast (Sufficient dfg target []) 1 :=
      ⟨⟨le_rfl, fun cycle hcycle ↦ absurd hcycle (hno cycle)⟩, fun ii hii ↦ hii.1⟩
    exact .inl ⟨hnone, (1, none), rfl, hleast, isGreatest_ratios hnone hleast, by simp⟩
  rename_i edge c edges cs
  have hcs : List.Forall₂ (FromEdge dfg target) (edge :: edges) (c :: cs) := .cons hfrom hrest
  obtain ⟨n, hn⟩ : ∃ n, dfg.nodes.length = n + 1 :=
    ⟨dfg.nodes.length - 1, by have := (nodeIndex_eq_some hfrom.src_eq).1; omega⟩
  have hzero := zeroDistance_feasible_iff hn hcs
  rw [hn, recurrenceBound, if_neg (by simp)]
  simp only
  by_cases hnone : ∃ cycle, ZeroDistanceCycle (edge :: edges) cycle
  · right
    have hinfeasible := Bool.eq_false_iff.mpr fun h ↦ hzero.mp h hnone
    rw [hinfeasible]
    exact ⟨hnone, _, rfl, rfl⟩
  · left
    have htotal : totalSeparation dfg target (edge :: edges) ≠ 0 := by
      have hpos := hfrom.separation_pos
      rw [totalSeparation, List.map_cons, List.sum_cons]
      omega
    have hhigh := evaluate_total hn hcs hnone
      (le_max_right 1 (totalSeparation dfg target (edge :: edges)))
    rw [hzero.mpr hnone, if_neg (by simp), if_neg htotal, if_neg (not_lt.mpr hfits.separation),
      hhigh, if_neg (by simp)]
    exact ⟨hnone, _, rfl, recurrenceExact_bisect hn hcs hnone hfits (le_max_left _ _)
      (le_max_right _ _)⟩

/-! ## The analysis -/

/-- The checks before the search for the recurrence bound find nothing. -/
structure PassesChecks (dfg : TargetDFG) (target : TargetModel) : Prop where
  valid : TargetDFGVerifier.verify dfg target = []
  targetName : dfg.targetName = target.name
  capacity : ∃ breakdown, resourceBreakdown dfg target = .ok breakdown
  timing : ∃ constraints total,
    buildConstraints dfg target 0 dfg.edgesById = .ok (constraints, total, [])

theorem directedCycle_congr {edges edges' : List TargetEdge}
    (h : ∀ edge, edge ∈ edges ↔ edge ∈ edges') :
    (DirectedCycle edges : List TargetEdge → Prop) = DirectedCycle edges' := by
  funext cycle
  refine propext ⟨fun hcycle ↦ ?_, fun hcycle ↦ ?_⟩
  · exact ⟨hcycle.ne_nil, fun edge hedge ↦ (h edge).mp (hcycle.mem edge hedge), hcycle.closed⟩
  · exact ⟨hcycle.ne_nil, fun edge hedge ↦ (h edge).mpr (hcycle.mem edge hedge), hcycle.closed⟩

theorem RecurrenceExact.congr {edges edges' : List TargetEdge}
    (h : ∀ edge, edge ∈ edges ↔ edge ∈ edges') {bound : ℕ} {witness : Option RecurrenceWitness}
    (hexact : RecurrenceExact dfg target edges bound witness) :
    RecurrenceExact dfg target edges' bound witness := by
  obtain ⟨hleast, hgreatest, hwitnessed⟩ := hexact
  have hcycles := directedCycle_congr h
  refine ⟨?_, ?_, ?_⟩
  · rwa [Sufficient, hcycles] at hleast
  · rwa [Ratios, hcycles] at hgreatest
  · rwa [hcycles] at hwitnessed

/-- **The recurrence bound is exact and witnessed.** Once the checks have passed, the analysis
either succeeds with the exact bound, when every cycle has a distance, or it finds that one has
none; it ends in no other way. -/
theorem analyze_recurrence (dfg : TargetDFG) (target : TargetModel)
    (hchecks : PassesChecks dfg target) (hfits : Fits dfg target dfg.edges) :
    ∃ result, analyze dfg target = .ok result ∧
      ((result.status = .success ∧ ¬ (∃ cycle, ZeroDistanceCycle dfg.edges cycle) ∧
          RecurrenceExact dfg target dfg.edges result.recurrenceMII result.recurrenceWitness) ∨
        (result.status = .unschedulableZeroDistanceCycle ∧
          ∃ cycle, ZeroDistanceCycle dfg.edges cycle)) := by
  obtain ⟨breakdown, hbreakdown⟩ := hchecks.capacity
  obtain ⟨constraints, total, hconstraints⟩ := hchecks.timing
  obtain ⟨hcs, htotal⟩ := buildConstraints_eq_ok hconstraints
  rw [Nat.zero_add] at htotal
  subst htotal
  have hedges : ∀ edge, edge ∈ dfg.edgesById ↔ edge ∈ dfg.edges := fun _ ↦ TargetDFG.mem_edgesById
  have hfits' : Fits dfg target dfg.edgesById := by
    refine ⟨?_, fun edge hedge ↦ hfits.distance edge ((hedges edge).mp hedge)⟩
    rw [totalSeparation, (dfg.edgesById_perm.map _).sum_eq]
    exact hfits.separation
  have hzero : (∃ cycle, ZeroDistanceCycle dfg.edgesById cycle) ↔
      ∃ cycle, ZeroDistanceCycle dfg.edges cycle := by
    simp only [ZeroDistanceCycle, directedCycle_congr hedges]
  have hspec := recurrenceBound_spec
    { resourceBreakdown := breakdown, resourceMII := resourceMII breakdown } hcs hfits'
  rw [hzero] at hspec
  rcases hspec with ⟨hnone, recurrence, hrecurrence, hexact⟩ | ⟨hcycle, returned, hreturned,
    hstatus⟩
  · obtain ⟨result, hrun, hstatus, hbound, hwitness⟩ : ∃ result,
        analyzeOrStop dfg target = .ok result ∧ result.status = .success ∧
        result.recurrenceMII = recurrence.1 ∧ result.recurrenceWitness = recurrence.2 := by
      unfold analyzeOrStop
      simp only [hchecks.valid, List.isEmpty_nil, Bool.not_true, Bool.false_eq_true, if_false,
        hchecks.targetName, ne_eq, not_true_eq_false, hbreakdown, hconstraints, hrecurrence, bind,
        Except.bind]
      exact ⟨_, rfl, rfl, rfl, rfl⟩
    rw [analyze, hrun]
    refine ⟨result, rfl, .inl ⟨hstatus, hnone, ?_⟩⟩
    rw [hbound, hwitness]
    exact hexact.congr hedges
  · have hrun : analyzeOrStop dfg target = .error (.returned returned) := by
      unfold analyzeOrStop
      simp only [hchecks.valid, List.isEmpty_nil, Bool.not_true, Bool.false_eq_true, if_false,
        hchecks.targetName, ne_eq, not_true_eq_false, hbreakdown, hconstraints, hreturned, bind,
        Except.bind]
    rw [analyze, hrun]
    exact ⟨_, rfl, .inr ⟨hstatus, hcycle⟩⟩

end Cycles

end MIIAnalyzer

/-- A turn takes two cycles. -/
theorem ring_recurrence : MIIAnalyzer.PassesChecks ringDFG shippedTarget ∧
    MIIAnalyzer.Fits ringDFG shippedTarget ringDFG.edges ∧
    MIIAnalyzer.analyze ringDFG shippedTarget = .ok
      { resourceMII := 1, recurrenceMII := 2, mii := 2, recurrenceWitness := some ⟨[0, 1], 2, 1⟩ } ∧
    ∃ result, MIIAnalyzer.analyze ringDFG shippedTarget = .ok result ∧
      ((result.status = .success ∧
          ¬ (∃ cycle, MIIAnalyzer.ZeroDistanceCycle ringDFG.edges cycle) ∧
          MIIAnalyzer.RecurrenceExact ringDFG shippedTarget ringDFG.edges
            result.recurrenceMII result.recurrenceWitness) ∨
        (result.status = .unschedulableZeroDistanceCycle ∧
          ∃ cycle, MIIAnalyzer.ZeroDistanceCycle ringDFG.edges cycle)) := by
  have hchecks : MIIAnalyzer.PassesChecks ringDFG shippedTarget :=
    ⟨by decide +kernel, by decide +kernel, ⟨_, rfl⟩, ⟨_, _, rfl⟩⟩
  have hfits : MIIAnalyzer.Fits ringDFG shippedTarget ringDFG.edges :=
    ⟨by decide +kernel, by decide +kernel⟩
  exact ⟨hchecks, hfits, by decide +kernel, MIIAnalyzer.analyze_recurrence _ _ hchecks hfits⟩

end PredicatedMesh
