import Mathlib.Data.Int.ModEq
import Mathlib.Tactic

/-!
# Periodic events

A software-pipelined loop repeats one pattern of events every `p` cycles, for every iteration in
`ℤ`. A checker sees only residues; this module is what carries its finite checks to all iterations.

## Points

Two periodic events meet in a cycle only if their residues agree (`emod_add_mul`), and if they are
the same event they meet only in the same iteration (`iteration_eq`). Events that run for a window
of iterations only meet exactly if one window, shifted by the periods between them, overlaps the
other (`meet_iff`).

## Intervals

An interval of length at most `p` meets only its own period and the two neighbouring ones, so
comparing residues with shifts `-p`, `0` and `p` decides all pairs of iterations
(`apart_of_shifts`). `Apart gap` is the relation the check establishes: one interval ends at least
`gap` cycles before the other begins. A gap of zero lets the end of one touch the beginning of the
other, a gap of one does not.

## Storage

`IsTrace` is the behaviour of a set of storage cells under a schedule of writes: a cell that is
written in a cycle holds one of the values written to it in the next, and a cell that is not keeps
its value. Nothing is assumed about cells written twice in one cycle beyond that. A read sees the
contents before the writes of its own cycle; it returns the value of a given write if that write
has its cycle and the cycles up to the read to itself (`IsTrace.read_eq`).
-/

namespace Periodic

/-! ## Points -/

/-- The residue of an event: its time modulo the period, in any iteration and at any offset. -/
theorem emod_add_mul (p q s k i : ℤ) : (q * p + s + k * p + i) % p = (s + i) % p := by
  rw [show q * p + s + k * p + i = s + i + (q + k) * p from by ring, Int.add_mul_emod_self_right]

theorem iteration_eq {p t k l : ℤ} (hp : 0 < p) (h : t + k * p = t + l * p) : k = l := by
  have hkl : k * p = l * p := by omega
  exact mul_right_cancel₀ hp.ne' hkl

/-- Two events, each repeated for the iterations of a window that contains its first bound and not
its second, share a cycle. -/
def Meet (p w w' : ℤ) (I J : ℤ × ℤ) : Prop :=
  p ∣ w' - w ∧ max I.1 ((w' - w) / p + J.1) < min I.2 ((w' - w) / p + J.2)

instance (p w w' : ℤ) (I J : ℤ × ℤ) : Decidable (Meet p w w' I J) :=
  inferInstanceAs (Decidable (p ∣ w' - w ∧
    max I.1 ((w' - w) / p + J.1) < min I.2 ((w' - w) / p + J.2)))

theorem meet_iff {p w w' : ℤ} (hp : 0 < p) {I J : ℤ × ℤ} : Meet p w w' I J ↔
    ∃ i j, (I.1 ≤ i ∧ i < I.2) ∧ (J.1 ≤ j ∧ j < J.2) ∧ w + i * p = w' + j * p := by
  constructor
  · rintro ⟨⟨k, hk⟩, hlt⟩
    rw [hk, Int.mul_ediv_cancel_left k hp.ne', max_lt_iff, lt_min_iff, lt_min_iff] at hlt
    -- the first iteration both windows have reached
    refine ⟨max I.1 (k + J.1), max I.1 (k + J.1) - k, ⟨le_max_left _ _, ?_⟩, ⟨?_, ?_⟩, ?_⟩
    · exact max_lt hlt.1.1 hlt.2.1
    · have := le_max_right I.1 (k + J.1)
      omega
    · have := max_lt hlt.1.2 hlt.2.2
      omega
    · rw [sub_mul, mul_comm k p, ← hk]
      ring
  · rintro ⟨i, j, hi, hj, heq⟩
    have hk : w' - w = p * (i - j) := by
      rw [mul_sub, mul_comm p i, mul_comm p j]
      omega
    refine ⟨⟨i - j, hk⟩, ?_⟩
    rw [hk, Int.mul_ediv_cancel_left _ hp.ne', max_lt_iff, lt_min_iff, lt_min_iff]
    omega

/-! ## Intervals -/

/-- One of the two intervals ends at least `gap` before the other begins. -/
def Apart (gap w r w' r' : ℤ) : Prop := r + gap ≤ w' ∨ r' + gap ≤ w

theorem Apart.symm {gap w r w' r' : ℤ} (h : Apart gap w r w' r') : Apart gap w' r' w r :=
  Or.symm h

/-- Only the difference of two iterations matters. -/
theorem Apart.of_sub {gap w r w' r' p k l : ℤ}
    (h : Apart gap w r (w' + (l - k) * p) (r' + (l - k) * p)) :
    Apart gap (w + k * p) (r + k * p) (w' + l * p) (r' + l * p) := by
  rw [sub_mul] at h
  rcases h with h | h
  · exact Or.inl (by omega)
  · exact Or.inr (by omega)

theorem Apart.mono {gap gap' w r w' r' : ℤ} (hgap : gap' ≤ gap) (h : Apart gap w r w' r') :
    Apart gap' w r w' r' := by
  rcases h with h | h
  · exact Or.inl (by omega)
  · exact Or.inr (by omega)

/-- **Three shifts decide all iterations.** The two intervals have length at most `p` and start at
the residues of `w` and `w'`; a gap larger than one would not survive the reduction. -/
theorem apart_of_shifts {p gap w w' d d' : ℤ} (hp : 0 < p) (hgap : gap ≤ 1) (hd : d ≤ p)
    (hd' : d' ≤ p)
    (h : ∀ s : ℤ, s = -1 ∨ s = 0 ∨ s = 1 →
      Apart gap (w % p) (w % p + d) (w' % p + s * p) (w' % p + d' + s * p)) (k : ℤ) :
    Apart gap w (w + d) (w' + k * p) (w' + d' + k * p) := by
  have hw := Int.emod_add_mul_ediv w p
  have hw' := Int.emod_add_mul_ediv w' p
  have h0 := Int.emod_nonneg w hp.ne'
  have h0' := Int.emod_nonneg w' hp.ne'
  have hlt := Int.emod_lt_of_pos w hp
  have hlt' := Int.emod_lt_of_pos w' hp
  -- the distance between the two periods the intervals start in
  obtain ⟨s, hs⟩ : ∃ s, s = w' / p + k - w / p := ⟨_, rfl⟩
  have hshift : w' + k * p = w' % p + s * p + p * (w / p) := by
    rw [hs]
    linear_combination -hw'
  rcases lt_trichotomy s 0 with hneg | hzero | hpos
  · rcases eq_or_lt_of_le (show s ≤ -1 by omega) with rfl | hfar
    · rcases h (-1) (Or.inl rfl) with hc | hc
      · exact Or.inl (by omega)
      · exact Or.inr (by omega)
    · -- two or more periods earlier: the second interval has long ended
      have hmul : s * p ≤ -2 * p := mul_le_mul_of_nonneg_right (by omega) hp.le
      exact Or.inr (by omega)
  · rcases h 0 (Or.inr (Or.inl rfl)) with hc | hc
    · exact Or.inl (by rw [hzero] at hshift; omega)
    · exact Or.inr (by rw [hzero] at hshift; omega)
  · rcases eq_or_lt_of_le (show 1 ≤ s by omega) with hone | hfar
    · rcases h 1 (Or.inr (Or.inr rfl)) with hc | hc
      · exact Or.inl (by rw [← hone] at hshift; omega)
      · exact Or.inr (by rw [← hone] at hshift; omega)
    · have hmul : 2 * p ≤ s * p := mul_le_mul_of_nonneg_right (by omega) hp.le
      exact Or.inl (by omega)

/-- An interval of length at most `p - gap` is apart from its own other iterations. -/
theorem apart_self {p gap w d k : ℤ} (hp : 0 < p) (hd : d + gap ≤ p) (hk : k ≠ 0) :
    Apart gap w (w + d) (w + k * p) (w + d + k * p) := by
  rcases lt_or_gt_of_ne hk with hneg | hpos
  · have hmul : k * p ≤ -1 * p := mul_le_mul_of_nonneg_right (by omega) hp.le
    exact Or.inr (by omega)
  · have hmul : 1 * p ≤ k * p := mul_le_mul_of_nonneg_right (by omega) hp.le
    exact Or.inl (by omega)

/-! ## Storage -/

variable {ι ρ V : Type*}

/-- `contents c x` is the value of cell `x` before the writes of cycle `c`. Instance `i` writes its
value to its cell in cycle `writeTime i`. -/
structure IsTrace (writeTime : ι → ℤ) (cell : ι → ρ) (value : ι → V) (contents : ℤ → ρ → V) :
    Prop where
  /-- A written cell takes the value of one of its writers. -/
  written : ∀ i, ∃ j, writeTime j = writeTime i ∧ cell j = cell i ∧
    contents (writeTime i + 1) (cell i) = value j
  /-- A cell nobody writes keeps its value. -/
  kept : ∀ c x, (∀ i, writeTime i = c → cell i ≠ x) → contents (c + 1) x = contents c x

/-- Every schedule of writes has a behaviour: let a cell hold the value of its latest write. -/
theorem exists_isTrace [Nonempty V] (writeTime : ι → ℤ) (cell : ι → ρ) (value : ι → V) :
    ∃ contents, IsTrace writeTime cell value contents := by
  classical
  let latest : ℤ → ρ → ι → Prop := fun c x i ↦
    cell i = x ∧ writeTime i < c ∧ ∀ j, cell j = x → writeTime j < c → writeTime j ≤ writeTime i
  refine ⟨fun c x ↦ if h : ∃ i, latest c x i then value h.choose else Classical.arbitrary V, ?_, ?_⟩
  · intro i
    have h : ∃ j, latest (writeTime i + 1) (cell i) j :=
      ⟨i, rfl, by omega, fun j _ hj ↦ by omega⟩
    obtain ⟨hcell, hlt, hmax⟩ := h.choose_spec
    have hge := hmax i rfl (by omega)
    exact ⟨h.choose, by omega, hcell, dif_pos h⟩
  · intro c x hquiet
    have hsame : latest (c + 1) x = latest c x := by
      -- without a write in cycle `c`, earlier than `c + 1` is earlier than `c`
      have hlt : ∀ i, cell i = x → (writeTime i < c + 1 ↔ writeTime i < c) := fun i hi ↦ by
        have hne : writeTime i ≠ c := fun hc ↦ hquiet i hc hi
        omega
      funext i
      refine propext ⟨fun ⟨hi, hw, hmax⟩ ↦ ?_, fun ⟨hi, hw, hmax⟩ ↦ ?_⟩
      · exact ⟨hi, (hlt i hi).mp hw, fun j hj hjw ↦ hmax j hj ((hlt j hj).mpr hjw)⟩
      · exact ⟨hi, (hlt i hi).mpr hw, fun j hj hjw ↦ hmax j hj ((hlt j hj).mp hjw)⟩
    simp only [hsame]

/-- **A read returns what was written**, when no other write to the cell falls into the cycles from
the write up to the read. -/
theorem IsTrace.read_eq {writeTime : ι → ℤ} {cell : ι → ρ} {value : ι → V}
    {contents : ℤ → ρ → V} (h : IsTrace writeTime cell value contents) {i : ι} {r : ℤ}
    (hr : writeTime i < r)
    (halone : ∀ j, cell j = cell i → writeTime i ≤ writeTime j → writeTime j < r → j = i) :
    contents r (cell i) = value i := by
  obtain ⟨n, hn⟩ : ∃ n : ℕ, r = writeTime i + 1 + n := ⟨(r - (writeTime i + 1)).toNat, by omega⟩
  subst hn
  induction n with
  | zero =>
    obtain ⟨j, hj, hcell, hvalue⟩ := h.written i
    have hji : j = i := halone j hcell hj.ge (by omega)
    rw [hji] at hvalue
    simpa using hvalue
  | succ n ih =>
    have hstep : contents (writeTime i + 1 + n + 1) (cell i)
        = contents (writeTime i + 1 + n) (cell i) := by
      refine h.kept _ _ fun j hj hcell ↦ ?_
      have hji : j = i := halone j hcell (by omega) (by push_cast; omega)
      rw [hji] at hj
      omega
    rw [show writeTime i + 1 + ((n + 1 : ℕ) : ℤ) = writeTime i + 1 + n + 1 from by push_cast; ring,
      hstep]
    exact ih (by omega) fun j hcell hle hlt ↦ halone j hcell hle (by push_cast; omega)

end Periodic
