import PredicatedMesh.Library.BitField
import PredicatedMesh.Target.ControlLayout

/-!
# Control words as bits

The codec moves fields one bit at a time, through chunks that a field may straddle. Here the four
chunks become one sequence of bits, and inserting and extracting become depositing into and reading
from a span of it; nothing after this module mentions a chunk.
-/

namespace PredicatedMesh

open BitField

def ControlField.span (field : ControlField) : Span := ⟨field.lsb, field.width⟩

namespace EncodedControl

/-- The bits of the four chunks, least significant chunk first. -/
def bits (encoded : EncodedControl) (p : ℕ) : Bool :=
  if h : p / 32 < 4 then (encoded.chunks ⟨p / 32, h⟩).getLsbD (p % 32) else false

/-- The word with given bits. -/
def ofBits (f : ℕ → Bool) : EncodedControl where
  chunks i := BitVec.ofNat 32 (read f ⟨32 * i, 32⟩)

variable {encoded encoded' : EncodedControl} {lsb width value : ℕ}

theorem bits_of_le {p : ℕ} (h : 128 ≤ p) : encoded.bits p = false := by
  have hchunk : ¬ p / 32 < 4 := by omega
  simp [bits, hchunk]

theorem bits_chunk (encoded : EncodedControl) (i : Fin 4) {j : ℕ} (h : j < 32) :
    encoded.bits (32 * i + j) = (encoded.chunks i).getLsbD j := by
  have hdiv : (32 * (i : ℕ) + j) / 32 = i := by omega
  have hmod : (32 * (i : ℕ) + j) % 32 = j := by omega
  simp [bits, hdiv, hmod]

theorem bits_ofBits {f : ℕ → Bool} {p : ℕ} (h : p < 128) : (ofBits f).bits p = f p := by
  have hchunk : p / 32 < 4 := by omega
  have hbit : p % 32 < 32 := Nat.mod_lt _ (by decide)
  have hp : 32 * (p / 32) + p % 32 = p := Nat.div_add_mod p 32
  rw [bits, dif_pos hchunk, ofBits, BitVec.getLsbD_ofNat, testBit_read]
  simp [hbit, hp]

theorem ext_bits (h : encoded.bits = encoded'.bits) : encoded = encoded' := by
  suffices hchunks : encoded.chunks = encoded'.chunks by
    cases encoded
    cases encoded'
    exact congrArg EncodedControl.mk hchunks
  funext i
  apply BitVec.eq_of_getLsbD_eq
  intro j hj
  rw [← bits_chunk encoded i hj, ← bits_chunk encoded' i hj, h]

@[simp] theorem bits_default : ({} : EncodedControl).bits = fun _ ↦ false := by
  funext p
  simp [bits]

/-! ## One bit -/

theorem setBit_eq_ok (encoded : EncodedControl) {p : ℕ} (h : p < 128) :
    ∃ next, encoded.setBit p = .ok next ∧
      ∀ q, next.bits q = (encoded.bits q || decide (q = p)) := by
  have hchunk : p / 32 < 4 := by omega
  refine ⟨_, dif_pos hchunk, fun q ↦ ?_⟩
  unfold bits
  by_cases hq : q / 32 < 4
  · rw [dif_pos hq, dif_pos hq]
    by_cases hsame : q / 32 = p / 32
    · have hfin : (⟨q / 32, hq⟩ : Fin 4) = ⟨p / 32, hchunk⟩ := Fin.ext hsame
      have hlt : q % 32 < 32 := Nat.mod_lt _ (by decide)
      simp only [hfin]
      rw [Function.update_self, BitVec.getLsbD_or, BitVec.getLsbD_shiftLeft]
      -- the one set bit of the shifted constant is at position `p % 32`
      have hone : ((1#32).getLsbD (q % 32 - p % 32) = true) ↔ q % 32 - p % 32 = 0 := by
        rw [BitVec.getLsbD_one]
        simp
      have hbit : (decide (q % 32 < 32) && !decide (q % 32 < p % 32) &&
          (1#32).getLsbD (q % 32 - p % 32)) = decide (q = p) := by
        rw [Bool.eq_iff_iff]
        simp only [Bool.and_eq_true, Bool.not_eq_true', decide_eq_true_eq, decide_eq_false_iff_not,
          hone]
        omega
      rw [hbit]
    · have hfin : (⟨q / 32, hq⟩ : Fin 4) ≠ ⟨p / 32, hchunk⟩ := fun heq ↦ hsame (Fin.ext_iff.mp heq)
      have hne : q ≠ p := fun heq ↦ hsame (heq ▸ rfl)
      simp only [Function.update_of_ne hfin]
      simp [hne]
  · have hne : q ≠ p := fun heq ↦ hq (heq ▸ hchunk)
    simp [hq, hne]

theorem getBit_eq_ok {p : ℕ} (h : p < 128) : encoded.getBit p = .ok (encoded.bits p).toNat := by
  have hchunk : p / 32 < 4 := by omega
  rw [getBit, dif_pos hchunk, bits, dif_pos hchunk]
  congr 1
  rw [BitVec.toNat_and, BitVec.toNat_ofNat, Nat.one_mod_two_pow (by decide), Nat.and_one_is_mod,
    BitVec.toNat_ushiftRight, BitVec.getLsbD, Nat.testBit_eq_decide_div_mod_eq,
    Nat.shiftRight_eq_div_pow]
  rcases Nat.mod_two_eq_zero_or_one ((encoded.chunks ⟨p / 32, hchunk⟩).toNat / 2 ^ (p % 32))
    with hmod | hmod <;> simp [hmod]

/-! ## A run of bits -/

theorem insertBits_eq_error (encoded : EncodedControl) (lsb : ℕ) (h : 2 ^ width ≤ value)
    (name : String) :
    ∃ e, encoded.insertBits lsb width value name = .error e := by
  have hpos : 0 < 2 ^ width := Nat.two_pow_pos width
  have hlimit : fieldLimit width < value := by rw [fieldLimit]; omega
  exact ⟨_, if_pos hlimit⟩

/-- The insertion loop after some of its rounds. -/
theorem insert_rounds (h : lsb + width ≤ 128) : ∀ rounds ≤ width, ∃ next,
    (List.range rounds).foldlM
      (fun encoded bit ↦ if value.testBit bit then encoded.setBit (lsb + bit) else .ok encoded)
      encoded = (.ok next : Except String EncodedControl) ∧
    next.bits = deposit encoded.bits ⟨lsb, rounds⟩ value := by
  intro rounds
  induction rounds with
  | zero =>
    intro _
    refine ⟨encoded, rfl, ?_⟩
    funext q
    rw [deposit_of_not_covers fun hq ↦ by have := hq.1; have := hq.2; simp at *; omega]
  | succ rounds ih =>
    intro hle
    obtain ⟨next, hrun, hbits⟩ := ih (by omega)
    rw [List.range_succ, List.foldlM_append, hrun]
    by_cases hbit : value.testBit rounds = true
    · obtain ⟨last, hset, hlast⟩ := setBit_eq_ok next (p := lsb + rounds) (by omega)
      refine ⟨last, by simp [hbit, hset, bind, Except.bind, pure, Except.pure], ?_⟩
      funext q
      rw [hlast, hbits, deposit_succ, hbit, Bool.and_true]
    · refine ⟨next, by simp [hbit, bind, Except.bind, pure, Except.pure], ?_⟩
      funext q
      rw [hbits, deposit_succ]
      simp [hbit]

/-- **Inserting deposits.** -/
theorem insertBits_eq_ok (encoded : EncodedControl) (h : lsb + width ≤ 128)
    (hvalue : value < 2 ^ width) (name : String) : ∃ next,
    encoded.insertBits lsb width value name = .ok next ∧
      next.bits = deposit encoded.bits ⟨lsb, width⟩ value := by
  have hlimit : ¬ fieldLimit width < value := by rw [fieldLimit]; omega
  rw [insertBits, if_neg hlimit]
  exact insert_rounds h width le_rfl

theorem extract_rounds (h : lsb + width ≤ 128) : ∀ rounds ≤ width,
    encoded.extractBits lsb rounds = .ok (read encoded.bits ⟨lsb, rounds⟩) := by
  intro rounds
  induction rounds with
  | zero =>
    intro _
    rw [read_eq_zero_iff.mpr fun p hp ↦ by have := hp.1; have := hp.2; simp at *; omega]
    rfl
  | succ rounds ih =>
    intro hle
    have hrun := ih (by omega)
    rw [extractBits] at hrun
    rw [extractBits, List.range_succ, List.foldlM_append, hrun]
    simp only [List.foldlM_cons, List.foldlM_nil, getBit_eq_ok (show lsb + rounds < 128 by omega),
      bind, Except.bind, pure, Except.pure]
    rw [read_succ]

/-- **Extracting reads.** -/
theorem extractBits_eq_ok (h : lsb + width ≤ 128) :
    encoded.extractBits lsb width = .ok (read encoded.bits ⟨lsb, width⟩) :=
  extract_rounds h width le_rfl

end EncodedControl

end PredicatedMesh
