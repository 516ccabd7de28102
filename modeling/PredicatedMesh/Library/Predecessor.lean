import PredicatedMesh.Library.Relaxation
import Mathlib.Dynamics.PeriodicPts.Defs

/-!
# Relaxation that remembers where values came from

Relaxation can note, for each point it raises, the arc that raised it last. Following these arcs
back from a point leads through the points its value came from, and if the values keep rising it
leads into a cycle.

Two invariants make this precise. A value is at most what its arc asks for now, since sources only
rise (`Sound.linked`), and therefore a cycle of noted arcs has positive weight: the arc that closed
it raised a value beyond what the rest of the cycle accounts for (`Sound.positive`). And the source
of a noted arc was raised at most one round before its target (`Stamped.step`), for a constraint
whose source did not change in a round holds after it. So a point that is still raised in round `n`
has `n` arcs behind it (`Stamped.iterate_stamp`), and with `n` points some point repeats
(`exists_cycle`).
-/

namespace Relaxation

variable {ι κ : Type*} [DecidableEq ι]

/-- Values, the arc that raised each point last, and the round it did so in; zero is for never. -/
structure Tracked (ι κ : Type*) where
  value : ι → ℤ
  pred : ι → Option κ
  stamp : ι → ℕ

section Defs

variable (f : κ → Constraint ι)

/-- Relax the constraint of an arc in some round. -/
def track (k : ℕ) (t : Tracked ι κ) (a : κ) : Tracked ι κ :=
  if t.value (f a).dst < t.value (f a).src + (f a).weight then
    { value := Function.update t.value (f a).dst (t.value (f a).src + (f a).weight)
      pred := Function.update t.pred (f a).dst (some a)
      stamp := Function.update t.stamp (f a).dst k }
  else t

def trackRound (arcs : List κ) (k : ℕ) (t : Tracked ι κ) : Tracked ι κ := arcs.foldl (track f k) t

/-- Rounds one after the other, from zero. -/
def tracked (arcs : List κ) : ℕ → Tracked ι κ
  | 0 => ⟨0, fun _ ↦ none, 0⟩
  | k + 1 => trackRound f arcs (k + 1) (tracked arcs k)

omit [DecidableEq ι] in
/-- A walk back along noted arcs. -/
inductive Chain (pred : ι → Option κ) : ι → List κ → ι → Prop
  | nil (i : ι) : Chain pred i [] i
  | cons {i j : ι} {a : κ} {l : List κ} (head : pred i = some a)
      (tail : Chain pred (f a).src l j) : Chain pred i (a :: l) j

/-- The weight of a list of arcs. -/
def weightOf (l : List κ) : ℤ := (l.map fun a ↦ (f a).weight).sum

/-- The points a list of arcs leads to. -/
def targets (l : List κ) : List ι := l.map fun a ↦ (f a).dst

end Defs

variable {f : κ → Constraint ι} {arcs : List κ} {k : ℕ} {t : Tracked ι κ}

theorem track_value (k : ℕ) (t : Tracked ι κ) (a : κ) :
    (track f k t a).value = relax t.value (f a) := by
  rw [track, relax]
  split <;> rfl

theorem trackRound_value (arcs : List κ) (k : ℕ) (t : Tracked ι κ) :
    (trackRound f arcs k t).value = round (arcs.map f) t.value := by
  induction arcs generalizing t with
  | nil => rfl
  | cons a arcs ih =>
    rw [trackRound, List.foldl_cons, List.map_cons, round, List.foldl_cons, ← track_value k t a]
    exact ih (track f k t a)

/-- The values after some rounds are those of relaxation. -/
theorem tracked_value (f : κ → Constraint ι) (arcs : List κ) (k : ℕ) :
    (tracked f arcs k).value = (round (arcs.map f))^[k] 0 := by
  induction k with
  | zero => rfl
  | succ k ih => rw [tracked, trackRound_value, ih, Function.iterate_succ_apply']

/-! ## Cycles of noted arcs -/

/-- Noted arcs account for the values, and their cycles have positive weight. -/
structure Tracked.Sound (f : κ → Constraint ι) (arcs : List κ) (t : Tracked ι κ) : Prop where
  linked : ∀ i a, t.pred i = some a →
    a ∈ arcs ∧ (f a).dst = i ∧ t.value i ≤ t.value (f a).src + (f a).weight
  positive : ∀ i l, l ≠ [] → Chain f t.pred i l i → (targets f l).Nodup → 0 < weightOf f l

omit [DecidableEq ι] in
/-- A walk back accounts for the value at its start. -/
theorem Chain.value_le {value : ι → ℤ} {pred : ι → Option κ}
    (hlinked : ∀ i a, pred i = some a → value i ≤ value (f a).src + (f a).weight)
    {i j : ι} {l : List κ} (h : Chain f pred i l j) : value i ≤ value j + weightOf f l := by
  induction h with
  | nil i => simp [weightOf]
  | cons head _ ih =>
    have hhead := hlinked _ _ head
    simp only [weightOf, List.map_cons, List.sum_cons] at ih ⊢
    omega

/-- A walk that does not lead through a point does not notice what is noted there. -/
theorem Chain.of_update {pred : ι → Option κ} {d : ι} {a : Option κ} {i j : ι} {l : List κ}
    (h : Chain f (Function.update pred d a) i l j)
    (hdst : ∀ i b, Function.update pred d a i = some b → (f b).dst = i)
    (hnot : d ∉ targets f l) : Chain f pred i l j := by
  induction h with
  | nil i => exact .nil i
  | @cons i j b l head _ ih =>
    rw [targets, List.map_cons, List.mem_cons, not_or, hdst _ _ head] at hnot
    rw [Function.update_of_ne (Ne.symm hnot.1)] at head
    exact .cons head (ih hnot.2)

omit [DecidableEq ι] in
/-- A walk can be cut at an arc. -/
theorem Chain.split {pred : ι → Option κ} {i j : ι} {l l' : List κ} {a : κ}
    (h : Chain f pred i (l ++ a :: l') j) :
    ∃ d, Chain f pred i l d ∧ pred d = some a ∧ Chain f pred (f a).src l' j := by
  induction l generalizing i with
  | nil =>
    rcases h with _ | ⟨head, tail⟩
    exact ⟨i, .nil i, head, tail⟩
  | cons b l ih =>
    rcases h with _ | ⟨head, tail⟩
    obtain ⟨d, hfirst, hd, hrest⟩ := ih tail
    exact ⟨d, .cons head hfirst, hd, hrest⟩

omit [DecidableEq ι] in
/-- The arcs of a walk are noted ones. -/
theorem Chain.forall_mem {pred : ι → Option κ} {P : κ → Prop} (hP : ∀ i a, pred i = some a → P a)
    {i j : ι} {l : List κ} (h : Chain f pred i l j) : ∀ a ∈ l, P a := by
  induction h with
  | nil i => simp
  | cons head _ ih => exact List.forall_mem_cons.mpr ⟨hP _ _ head, ih⟩

omit [DecidableEq ι] in
/-- A walk starts at its first target. -/
theorem Chain.head_targets {pred : ι → Option κ} (hdst : ∀ i a, pred i = some a → (f a).dst = i)
    {i j : ι} {l : List κ} (h : Chain f pred i l j) (hne : l ≠ []) :
    targets f l ≠ [] ∧ (targets f l).head? = some i := by
  rcases h with _ | ⟨head, tail⟩
  · exact absurd rfl hne
  · rw [targets, List.map_cons, hdst _ _ head]
    exact ⟨List.cons_ne_nil _ _, rfl⟩

omit [DecidableEq ι] in
/-- The sources of a walk are its targets, moved on by one. -/
theorem Chain.cons_sources {pred : ι → Option κ} (hdst : ∀ i a, pred i = some a → (f a).dst = i)
    {i j : ι} {l : List κ} (h : Chain f pred i l j) :
    i :: l.map (fun a ↦ (f a).src) = targets f l ++ [j] := by
  induction h with
  | nil i => rfl
  | cons head _ ih => rw [List.map_cons, ih, targets, targets, List.map_cons, hdst _ _ head]; rfl

omit [DecidableEq ι] in
/-- In a closed walk every arc leaves the target of the next. -/
theorem Chain.sources_eq_rotate {pred : ι → Option κ}
    (hdst : ∀ i a, pred i = some a → (f a).dst = i) {i : ι} {l : List κ}
    (h : Chain f pred i l i) : l.map (fun a ↦ (f a).src) = (targets f l).rotate 1 := by
  have hmoved := h.cons_sources hdst
  rcases htargets : targets f l with _ | ⟨j, rest⟩
  · rw [htargets] at hmoved
    simpa using (List.cons.inj hmoved).2
  · rw [htargets, List.cons_append] at hmoved
    obtain ⟨rfl, hrest⟩ := List.cons.inj hmoved
    rw [hrest, List.rotate_cons_succ, List.rotate_zero]

/-- **Relaxing keeps cycles positive.** A cycle that uses the new arc consists of it and of two old
walks, which account for the values at its ends; the arc itself raised its target beyond that. -/
theorem Tracked.Sound.track (h : t.Sound f arcs) {a : κ} (ha : a ∈ arcs) (k : ℕ) :
    (track f k t a).Sound f arcs := by
  unfold Relaxation.track
  split
  case isFalse => exact h
  rename_i hlt
  have hle : ∀ i, t.value i
      ≤ Function.update t.value (f a).dst (t.value (f a).src + (f a).weight) i :=
    le_update_iff.mpr ⟨hlt.le, fun _ _ ↦ le_rfl⟩
  have hdst : ∀ i b, Function.update t.pred (f a).dst (some a) i = some b → (f b).dst = i := by
    intro i b hb
    by_cases hi : i = (f a).dst
    · subst hi
      rw [Function.update_self, Option.some.injEq] at hb
      rw [hb]
    · rw [Function.update_of_ne hi] at hb
      exact (h.linked i b hb).2.1
  refine ⟨fun i b hb ↦ ?_, fun i l hne hchain hnodup ↦ ?_⟩
  · by_cases hi : i = (f a).dst
    · subst hi
      simp only [Function.update_self, Option.some.injEq] at hb ⊢
      subst hb
      exact ⟨ha, rfl, by have := hle (f a).src; omega⟩
    · simp only [Function.update_of_ne hi] at hb ⊢
      obtain ⟨hmem, hb', hvalue⟩ := h.linked i b hb
      exact ⟨hmem, hb', by have := hle (f b).src; omega⟩
  · by_cases hd : (f a).dst ∈ targets f l
    · -- the cycle leads through the raised point
      obtain ⟨b, hb, hbdst⟩ := List.mem_map.mp hd
      obtain ⟨before, after, rfl⟩ := List.append_of_mem hb
      obtain ⟨d, hfirst, hnoted, hrest⟩ := hchain.split
      have hd' : d = (f a).dst := (hdst d b hnoted).symm.trans hbdst
      subst hd'
      simp only [Function.update_self, Option.some.injEq] at hnoted
      subst hnoted
      simp only [targets, List.map_append, List.map_cons] at hnodup
      have hnodup' := List.nodup_middle.mp hnodup
      rw [List.nodup_cons, List.mem_append, not_or] at hnodup'
      have hle₁ := (hfirst.of_update hdst hnodup'.1.1).value_le fun i b hb ↦ (h.linked i b hb).2.2
      have hle₂ := (hrest.of_update hdst hnodup'.1.2).value_le fun i b hb ↦ (h.linked i b hb).2.2
      simp only [weightOf, List.map_append, List.map_cons, List.sum_append, List.sum_cons]
        at hle₁ hle₂ ⊢
      omega
    · exact h.positive i l hne (hchain.of_update hdst hd) hnodup

theorem Tracked.Sound.trackRound (h : t.Sound f arcs) {round : List κ}
    (hround : ∀ a ∈ round, a ∈ arcs) (k : ℕ) : (trackRound f round k t).Sound f arcs := by
  induction round generalizing t with
  | nil => exact h
  | cons a round ih =>
    obtain ⟨ha, hround⟩ := List.forall_mem_cons.mp hround
    exact ih (h.track ha k) hround

/-- **The values of all rounds are accounted for.** -/
theorem sound_tracked (f : κ → Constraint ι) (arcs : List κ) (k : ℕ) :
    (tracked f arcs k).Sound f arcs := by
  induction k with
  | zero =>
    refine ⟨fun i a h ↦ (by cases h), fun i l hne hchain ↦ ?_⟩
    rcases hchain with _ | ⟨head, -⟩
    · exact absurd rfl hne
    · cases head
  | succ k ih => exact ih.trackRound (fun _ ha ↦ ha) (k + 1)

/-! ## Rounds -/

/-- What the rounds of the last changes say, within round `k`. -/
structure Tracked.Stamped (f : κ → Constraint ι) (arcs : List κ) (k : ℕ) (t : Tracked ι κ) :
    Prop where
  le : ∀ i, t.stamp i ≤ k
  noted : ∀ i, 0 < t.stamp i → ∃ a, t.pred i = some a
  /-- The source of a noted arc was raised at most one round before its target. -/
  step : ∀ i a, t.pred i = some a → t.stamp i ≤ t.stamp (f a).src + 1
  /-- A constraint whose source has not been raised lately holds. -/
  settled : ∀ a ∈ arcs, t.stamp (f a).src + 1 < k → (f a).Holds t.value

theorem Tracked.Stamped.track (h : t.Stamped f arcs k) {a : κ} (ha : a ∈ arcs) :
    (Relaxation.track f k t a).Stamped f arcs k := by
  unfold Relaxation.track
  split
  case isFalse => exact h
  rename_i hlt
  -- the source has been raised lately, or the constraint would hold
  have hsrc : k ≤ t.stamp (f a).src + 1 := by
    by_contra! hold
    exact absurd (h.settled a ha hold) (not_le.mpr hlt)
  have hge : ∀ i, t.stamp i ≤ Function.update t.stamp (f a).dst k i :=
    le_update_iff.mpr ⟨h.le _, fun _ _ ↦ le_rfl⟩
  refine ⟨fun i ↦ ?_, fun i hi ↦ ?_, fun i b hb ↦ ?_, fun b hb hold ↦ ?_⟩
  · by_cases hi : i = (f a).dst
    · subst hi
      simp
    · simpa [Function.update_of_ne hi] using h.le i
  · by_cases hi' : i = (f a).dst
    · subst hi'
      exact ⟨a, by simp⟩
    · simp only [Function.update_of_ne hi'] at hi ⊢
      exact h.noted i hi
  · by_cases hi : i = (f a).dst
    · subst hi
      simp only [Function.update_self, Option.some.injEq] at hb ⊢
      subst hb
      exact hsrc.trans (Nat.add_le_add_right (hge _) 1)
    · simp only [Function.update_of_ne hi] at hb ⊢
      exact (h.step i b hb).trans (Nat.add_le_add_right (hge _) 1)
  · by_cases hsrc' : (f b).src = (f a).dst
    · simp only [hsrc', Function.update_self] at hold
      omega
    · simp only [Function.update_of_ne hsrc'] at hold
      have hholds := h.settled b hb hold
      unfold Constraint.Holds at hholds ⊢
      simp only [Function.update_of_ne hsrc']
      refine hholds.trans ?_
      by_cases hdst : (f b).dst = (f a).dst
      · rw [hdst, Function.update_self]
        exact hlt.le
      · rw [Function.update_of_ne hdst]

theorem Tracked.Stamped.trackRound (h : t.Stamped f arcs k) {round : List κ}
    (hround : ∀ a ∈ round, a ∈ arcs) : (Relaxation.trackRound f round k t).Stamped f arcs k := by
  induction round generalizing t with
  | nil => exact h
  | cons a round ih =>
    obtain ⟨ha, hround⟩ := List.forall_mem_cons.mp hround
    exact ih (h.track ha) hround

/-- A point whose last change was before a round has kept its value in it. -/
theorem trackRound_of_stamp_lt {i : ι} (h : (trackRound f arcs k t).stamp i < k) :
    (trackRound f arcs k t).value i = t.value i ∧ t.stamp i < k := by
  induction arcs generalizing t with
  | nil => exact ⟨rfl, h⟩
  | cons a arcs ih =>
    obtain ⟨hvalue, hstamp⟩ := ih h
    have hrest : trackRound f (a :: arcs) k t = trackRound f arcs k (track f k t a) := rfl
    rw [hrest, hvalue]
    unfold track at hstamp ⊢
    split at hstamp
    · rename_i hlt
      rw [if_pos hlt]
      by_cases hi : i = (f a).dst
      · subst hi
        simp at hstamp
      · simp only [Function.update_of_ne hi, true_and] at hstamp ⊢
        exact hstamp
    · rename_i hge
      rw [if_neg hge]
      exact ⟨rfl, hstamp⟩

/-- **The rounds of the last changes**, when round `k + 1` begins. -/
theorem stamped_tracked (f : κ → Constraint ι) (arcs : List κ) (k : ℕ) :
    (tracked f arcs k).Stamped f arcs (k + 1) ∧ ∀ i, (tracked f arcs k).stamp i ≤ k := by
  induction k with
  | zero =>
    refine ⟨⟨fun i ↦ Nat.zero_le _, fun i hi ↦ absurd hi (lt_irrefl 0), fun i a h ↦ (by cases h),
      fun a _ h ↦ ?_⟩, fun i ↦ le_rfl⟩
    exact absurd h (by omega)
  | succ k ih =>
    have hround : (tracked f arcs (k + 1)).Stamped f arcs (k + 1) :=
      ih.1.trackRound fun _ ha ↦ ha
    refine ⟨⟨fun i ↦ (hround.le i).trans (Nat.le_succ _), hround.noted, hround.step,
      fun a ha hold ↦ ?_⟩, hround.le⟩
    -- the round has relaxed the constraint, and its source has not changed
    obtain ⟨hkept, -⟩ := trackRound_of_stamp_lt (Nat.lt_of_succ_lt_succ hold)
    have hraised := le_round_dst (List.mem_map_of_mem (f := f) ha) (tracked f arcs k).value
    rw [← trackRound_value arcs (k + 1), ← hkept] at hraised
    exact hraised

/-! ## Walking back -/

/-- The point an arc was noted from; a point without an arc stays. -/
def back (f : κ → Constraint ι) (pred : ι → Option κ) (i : ι) : ι :=
  (pred i).elim i fun a ↦ (f a).src

omit [DecidableEq ι] in
theorem back_of_some {pred : ι → Option κ} {i : ι} {a : κ} (h : pred i = some a) :
    back f pred i = (f a).src := by
  rw [back, h, Option.elim_some]

omit [DecidableEq ι] in
/-- A point raised in a late round has many arcs behind it. -/
theorem Tracked.Stamped.iterate_stamp {arcs' : List κ} (h : t.Stamped f arcs' k) {i : ι} {m : ℕ}
    {n : ℕ} (hi : n ≤ t.stamp i) (hm : m < n) :
    n ≤ t.stamp ((back f t.pred)^[m] i) + m ∧ ∃ a, t.pred ((back f t.pred)^[m] i) = some a := by
  have hstamp : n ≤ t.stamp ((back f t.pred)^[m] i) + m := by
    induction m with
    | zero => exact hi
    | succ m ih =>
      have hm' := ih (Nat.lt_of_succ_lt hm)
      obtain ⟨a, ha⟩ := h.noted ((back f t.pred)^[m] i) (by omega)
      have hstep := h.step _ a ha
      rw [Function.iterate_succ_apply', back_of_some ha]
      omega
  exact ⟨hstamp, h.noted _ (by omega)⟩

omit [DecidableEq ι] in
/-- The arcs met on a walk back. -/
theorem exists_chain {pred : ι → Option κ} (hdst : ∀ i a, pred i = some a → (f a).dst = i) (m : ℕ)
    {i : ι} (h : ∀ n < m, ∃ a, pred ((back f pred)^[n] i) = some a) :
    ∃ l, Chain f pred i l ((back f pred)^[m] i) ∧ l.length = m ∧
      targets f l = (List.range m).map fun n ↦ (back f pred)^[n] i := by
  induction m generalizing i with
  | zero => exact ⟨[], .nil i, rfl, rfl⟩
  | succ m ih =>
    obtain ⟨a, ha⟩ := h 0 (Nat.succ_pos m)
    have hback : back f pred i = (f a).src := back_of_some ha
    obtain ⟨l, hchain, hlength, htargets⟩ := ih (i := back f pred i) fun n hn ↦ by
      have hnext := h (n + 1) (Nat.succ_lt_succ hn)
      rwa [Function.iterate_succ_apply] at hnext
    rw [Function.iterate_succ_apply]
    rw [hback] at hchain
    refine ⟨a :: l, .cons ha (hback ▸ hchain), by rw [List.length_cons, hlength], ?_⟩
    rw [targets, List.map_cons, hdst i a ha, List.range_succ_eq_map, List.map_cons, List.map_map]
    refine congrArg (i :: ·) (htargets.trans (List.map_congr_left fun n _ ↦ ?_))
    rw [Function.comp_apply, Function.iterate_succ_apply]

omit [DecidableEq ι] in
/-- **A cycle of noted arcs.** A point still raised in round `n`, where there are at most `n`
points, leads back to a cycle after `n` arcs. -/
theorem exists_cycle [Fintype ι] (hsound : t.Sound f arcs) (hstamped : t.Stamped f arcs k) {n : ℕ}
    (hn : Fintype.card ι ≤ n) {i : ι} (hi : n ≤ t.stamp i) :
    ∃ l, l ≠ [] ∧ l.length ≤ n ∧ (targets f l).Nodup ∧
      Chain f t.pred ((back f t.pred)^[n] i) l ((back f t.pred)^[n] i) := by
  -- among the points after up to `n` arcs two are the same
  obtain ⟨a, b, hne, hsame⟩ := Fintype.exists_ne_map_eq_of_card_lt
    (fun m : Fin (n + 1) ↦ (back f t.pred)^[m] i) (by rw [Fintype.card_fin]; omega)
  wlog hlt : a < b generalizing a b
  · exact this b a hne.symm hsame.symm (lt_of_le_of_ne (not_lt.mp hlt) hne.symm)
  have hb : b.val ≤ n := Nat.lt_succ_iff.mp b.isLt
  have hab : a.val < b.val := hlt
  have hperiodic : ∀ m, a.val ≤ m →
      Function.IsPeriodicPt (back f t.pred) (b.val - a.val) ((back f t.pred)^[m] i) := by
    intro m hm
    have hcycle : Function.IsPeriodicPt (back f t.pred) (b.val - a.val)
      ((back f t.pred)^[a] i) := by
      rw [Function.IsPeriodicPt, Function.IsFixedPt, ← Function.iterate_add_apply,
        Nat.sub_add_cancel hab.le]
      exact hsame.symm
    have hmore := hcycle.apply_iterate (m - a.val)
    rwa [← Function.iterate_add_apply, Nat.sub_add_cancel hm] at hmore
  -- every point of the cycle has been met before, so it has an arc
  have hnoted : ∀ m, a.val ≤ m → ∃ c, t.pred ((back f t.pred)^[m] i) = some c := by
    intro m hm
    have hmod := (hperiodic a.val le_rfl).iterate_mod_apply (m - a.val)
    rw [← Function.iterate_add_apply, ← Function.iterate_add_apply, Nat.sub_add_cancel hm] at hmod
    have hrest : (m - a.val) % (b.val - a.val) < b.val - a.val := Nat.mod_lt _ (by omega)
    rw [← hmod]
    exact (hstamped.iterate_stamp hi (by omega)).2
  have hlast := hperiodic n (by omega)
  have hpos : 0 < b.val - a.val := by omega
  obtain ⟨l, hchain, hlength, htargets⟩ := exists_chain
    (fun i a ha ↦ (hsound.linked i a ha).2.1)
    (Function.minimalPeriod (back f t.pred) ((back f t.pred)^[n] i))
    (i := (back f t.pred)^[n] i) fun m _ ↦ by
      rw [← Function.iterate_add_apply]
      exact hnoted _ (by omega)
  rw [Function.iterate_minimalPeriod] at hchain
  have hperiod := hlast.minimalPeriod_pos hpos
  have hle := hlast.minimalPeriod_le hpos
  refine ⟨l, ?_, by omega, ?_, hchain⟩
  · rintro rfl
    rw [List.length_nil] at hlength
    omega
  · rw [htargets]
    refine List.Nodup.map_on ?_ List.nodup_range
    intro x hx y hy heq
    exact Function.iterate_injOn_Iio_minimalPeriod (List.mem_range.mp hx) (List.mem_range.mp hy) heq

end Relaxation
