import Mathlib.Data.List.Pairwise
import Mathlib.Tactic

/-!
# Bit fields of a word

A word is the sequence of its bits, `ℕ → Bool`; a finite word is one that is false from some
position on. A span is a run of consecutive positions. Reading a span gives the number whose binary
digits are the bits there, and depositing a number into a span sets those bits that are one in it.

Deposits only ever set bits, so a word is packed correctly only if its spans were clear before. That
is what disjointness is for: packing pairwise disjoint spans can be read back span by span
(`read_pack`), and a word with no bit outside its spans is determined by what they read
(`eq_of_read_eq`).
-/

namespace BitField

/-- A run of consecutive bit positions. -/
structure Span where
  lsb : ℕ
  width : ℕ
  deriving DecidableEq, Repr

namespace Span

def Covers (s : Span) (p : ℕ) : Prop := s.lsb ≤ p ∧ p < s.lsb + s.width

instance (s : Span) (p : ℕ) : Decidable (s.Covers p) := inferInstanceAs (Decidable (_ ∧ _))

def Disjoint (s t : Span) : Prop := ∀ p, s.Covers p → ¬ t.Covers p

theorem Disjoint.symm {s t : Span} (h : s.Disjoint t) : t.Disjoint s :=
  fun p ht hs ↦ h p hs ht

theorem covers_add {s : Span} {i : ℕ} (h : i < s.width) : s.Covers (s.lsb + i) :=
  ⟨Nat.le_add_right _ _, Nat.add_lt_add_left h _⟩

end Span

/-! ## Reading and depositing -/

/-- The number a span holds. -/
def read (w : ℕ → Bool) (s : Span) : ℕ := Nat.ofBits fun i : Fin s.width ↦ w (s.lsb + i)

/-- Set the bits of a span that are one in a number. -/
def deposit (w : ℕ → Bool) (s : Span) (v : ℕ) : ℕ → Bool :=
  fun p ↦ w p || (decide (s.Covers p) && v.testBit (p - s.lsb))

variable {w w' : ℕ → Bool} {s t : Span} {v : ℕ}

theorem testBit_read (i : ℕ) :
    (read w s).testBit i = (decide (i < s.width) && w (s.lsb + i)) := by
  rw [read, Nat.testBit_ofBits]
  by_cases h : i < s.width <;> simp [h]

theorem read_lt (w : ℕ → Bool) (s : Span) : read w s < 2 ^ s.width :=
  Nat.ofBits_lt_two_pow _

theorem read_congr (h : ∀ p, s.Covers p → w p = w' p) : read w s = read w' s := by
  apply Nat.eq_of_testBit_eq
  intro i
  rw [testBit_read, testBit_read]
  by_cases hi : i < s.width
  · rw [h _ (Span.covers_add hi)]
  · simp [hi]

theorem read_eq_zero_iff : read w s = 0 ↔ ∀ p, s.Covers p → w p = false := by
  constructor
  · intro h p hp
    have hbit := testBit_read (w := w) (s := s) (p - s.lsb)
    have hlt : p - s.lsb < s.width := by have := hp.1; have := hp.2; omega
    rw [h, Nat.zero_testBit, Nat.add_sub_cancel' hp.1] at hbit
    simpa [hlt] using hbit.symm
  · intro h
    apply Nat.eq_of_testBit_eq
    intro i
    rw [testBit_read, Nat.zero_testBit]
    by_cases hi : i < s.width
    · simp [h _ (Span.covers_add hi)]
    · simp [hi]

/-- A number that fits is read back from a span that was clear. -/
theorem read_deposit_self (hv : v < 2 ^ s.width) (hw : ∀ p, s.Covers p → w p = false) :
    read (deposit w s v) s = v := by
  apply Nat.eq_of_testBit_eq
  intro i
  rw [testBit_read, deposit]
  by_cases hi : i < s.width
  · simp [hi, hw _ (Span.covers_add hi), Span.covers_add hi]
  · have hpow : 2 ^ s.width ≤ 2 ^ i := Nat.pow_le_pow_right Nat.two_pos (Nat.le_of_not_lt hi)
    simp [hi, Nat.testBit_lt_two_pow (lt_of_lt_of_le hv hpow)]

theorem deposit_of_not_covers {p : ℕ} (h : ¬ s.Covers p) : deposit w s v p = w p := by
  simp [deposit, h]

/-! ## One bit more -/

theorem toNat_injective {a b : Bool} (h : a.toNat = b.toNat) : a = b := by
  cases a <;> cases b <;> first | rfl | cases h

theorem deposit_succ (lsb n p : ℕ) :
    deposit w ⟨lsb, n + 1⟩ v p =
      (deposit w ⟨lsb, n⟩ v p || (decide (p = lsb + n) && v.testBit n)) := by
  rw [deposit, deposit, Bool.or_assoc]
  congr 1
  by_cases hp : p = lsb + n
  · subst hp
    simp [Span.Covers]
  · have hcov : Span.Covers ⟨lsb, n + 1⟩ p ↔ Span.Covers ⟨lsb, n⟩ p := by
      simp only [Span.Covers]
      omega
    simp [hp, hcov]

theorem read_succ (lsb n : ℕ) :
    read w ⟨lsb, n + 1⟩ = read w ⟨lsb, n⟩ ||| (w (lsb + n)).toNat <<< n := by
  apply Nat.eq_of_testBit_eq
  intro i
  rw [Nat.testBit_or, testBit_read, testBit_read, Nat.testBit_shiftLeft]
  rcases Nat.lt_trichotomy i n with hi | rfl | hi
  · have hi' : i < n + 1 := by omega
    have hnot : ¬ n ≤ i := by omega
    simp [hi, hi', hnot]
  · cases w (lsb + i) <;> simp
  · have hzero : ((w (lsb + n)).toNat).testBit (i - n) = false := by
      apply Nat.testBit_lt_two_pow
      have hone : (w (lsb + n)).toNat ≤ 1 := Bool.toNat_le _
      have hpow : 2 ^ 1 ≤ 2 ^ (i - n) := Nat.pow_le_pow_right (by decide) (by omega)
      omega
    have hi' : ¬ i < n + 1 := by omega
    have hi'' : ¬ i < n := by omega
    simp [hi', hi'', hzero]

/-! ## Packing -/

/-- Deposit numbers one after the other. -/
def pack (w : ℕ → Bool) (l : List (Span × ℕ)) : ℕ → Bool :=
  l.foldl (fun w e ↦ deposit w e.1 e.2) w

@[simp] theorem pack_nil : pack w [] = w := rfl

@[simp] theorem pack_cons (e : Span × ℕ) (l : List (Span × ℕ)) :
    pack w (e :: l) = pack (deposit w e.1 e.2) l := rfl

theorem pack_of_not_covers {l : List (Span × ℕ)} {p : ℕ} (h : ∀ e ∈ l, ¬ e.1.Covers p) :
    pack w l p = w p := by
  induction l generalizing w with
  | nil => rfl
  | cons e l ih =>
    rw [pack_cons, ih fun e he ↦ h e (List.mem_cons_of_mem _ he)]
    exact deposit_of_not_covers (h e List.mem_cons_self)

/-- **Packed spans read back.** -/
theorem read_pack {l : List (Span × ℕ)} (hdis : l.Pairwise fun a b ↦ a.1.Disjoint b.1)
    (hfit : ∀ e ∈ l, e.2 < 2 ^ e.1.width) (hclear : ∀ e ∈ l, ∀ p, e.1.Covers p → w p = false)
    {e : Span × ℕ} (he : e ∈ l) : read (pack w l) e.1 = e.2 := by
  induction l generalizing w with
  | nil => exact absurd he List.not_mem_nil
  | cons a l ih =>
    obtain ⟨ha, hdis⟩ := List.pairwise_cons.mp hdis
    rw [pack_cons]
    rcases List.mem_cons.mp he with rfl | he
    · -- the later spans leave this one alone
      rw [read_congr fun p hp ↦ pack_of_not_covers fun b hb ↦ ha b hb p hp]
      exact read_deposit_self (hfit _ List.mem_cons_self) (hclear _ List.mem_cons_self)
    · apply ih hdis (fun b hb ↦ hfit b (List.mem_cons_of_mem _ hb)) _ he
      intro b hb p hp
      rw [deposit_of_not_covers fun hap ↦ ha b hb p hap hp]
      exact hclear b (List.mem_cons_of_mem _ hb) p hp

/-- A word without bits outside its spans is determined by what they read. -/
theorem eq_of_read_eq {l : List Span} (hread : ∀ s ∈ l, read w s = read w' s)
    (hout : ∀ p, (∀ s ∈ l, ¬ s.Covers p) → w p = w' p) : w = w' := by
  funext p
  by_cases h : ∀ s ∈ l, ¬ s.Covers p
  · exact hout p h
  · push Not at h
    obtain ⟨s, hs, hp⟩ := h
    have hbit := congrArg (fun n ↦ Nat.testBit n (p - s.lsb)) (hread s hs)
    have hlt : p - s.lsb < s.width := by have := hp.1; have := hp.2; omega
    simpa [testBit_read, hlt, Nat.add_sub_cancel' hp.1] using hbit

end BitField
