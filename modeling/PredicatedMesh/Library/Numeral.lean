import Mathlib.Data.List.TakeWhile
import PredicatedMesh.Library.Json

/-!
# The numerals a reader of integers accepts

`Hex.readInt` reads more than digits: blanks may stand around a numeral, a sign and a radix in front
of it, and single underscores between its digits. `Numeral` is that grammar, stated without the
reader, and `isSome_readInt` says that the reader reads exactly the texts in it. Digits after a
radix that is already there leave less room, which is `isSome_readInt_prefixed`.
-/

namespace PredicatedMesh.Hex

def IsDigit (c : Char) : Prop := (digitValue c).isSome = true

instance (c : Char) : Decidable (IsDigit c) := inferInstanceAs (Decidable (_ = true))

/-- Digits with single underscores between them. -/
inductive Digits : List Char → Prop
  | one {c : Char} (digit : IsDigit c) : Digits [c]
  | next {c : Char} {l : List Char} (digit : IsDigit c) (rest : Digits l) : Digits (c :: l)
  | underscore {c : Char} {l : List Char} (digit : IsDigit c) (rest : Digits l) :
      Digits (c :: '_' :: l)

/-- Digits, or digits after a radix that one underscore may keep apart from them. -/
def Unsigned (l : List Char) : Prop :=
  Digits l ∨ ∃ r rest, l = '0' :: r :: rest ∧ (r = 'x' ∨ r = 'X') ∧ Digits (afterRadix rest)

def Signed (l : List Char) : Prop :=
  Unsigned l ∨ ∃ sign rest, l = sign :: rest ∧ (sign = '-' ∨ sign = '+') ∧ Unsigned rest

/-- A numeral with blanks around it. -/
def Numeral (l : List Char) : Prop :=
  ∃ before core after, l = before ++ core ++ after ∧ (∀ c ∈ before, blank c = true) ∧
    (∀ c ∈ after, blank c = true) ∧ Signed core

/-! ## Digits -/

/-- What a digit is not. -/
theorem IsDigit.plain {c : Char} (h : IsDigit c) : blank c = false ∧ c ≠ '-' ∧ c ≠ '+' ∧ c ≠ 'x' ∧
    c ≠ 'X' ∧ c ≠ '_' ∧ c.toNat < 128 := by
  have hrange : (48 ≤ c.toNat ∧ c.toNat ≤ 57) ∨ (97 ≤ c.toNat ∧ c.toNat ≤ 102) ∨
      (65 ≤ c.toNat ∧ c.toNat ≤ 70) := by
    rw [IsDigit, digitValue] at h
    split at h
    · rename_i h'
      exact .inl h'
    · split at h
      · rename_i h'
        exact .inr (.inl h')
      · split at h
        · rename_i h'
          exact .inr (.inr h')
        · exact absurd h Bool.false_ne_true
  have hne : ∀ d : Char, d.toNat ≠ c.toNat → c ≠ d := by
    rintro d hd rfl
    exact hd rfl
  refine ⟨?_, hne _ ?_, hne _ ?_, hne _ ?_, hne _ ?_, hne _ ?_, by omega⟩
  · rw [blank, Bool.or_eq_false_iff, beq_eq_false_iff_ne, Bool.and_eq_false_iff,
      decide_eq_false_iff_not, decide_eq_false_iff_not]
    refine ⟨hne _ ?_, by omega⟩
    change 32 ≠ _
    omega
  · change 45 ≠ _
    omega
  · change 43 ≠ _
    omega
  · change 120 ≠ _
    omega
  · change 88 ≠ _
    omega
  · change 95 ≠ _
    omega

theorem Digits.exists_head {l : List Char} (h : Digits l) :
    ∃ c rest, l = c :: rest ∧ IsDigit c := by
  rcases h with ⟨hc⟩ | ⟨hc, -⟩ | ⟨hc, -⟩
  · exact ⟨_, _, rfl, hc⟩
  · exact ⟨_, _, rfl, hc⟩
  · exact ⟨_, _, rfl, hc⟩

/-- Digits have no blank among them. -/
theorem Digits.not_blank {l : List Char} (h : Digits l) : ∀ c ∈ l, blank c = false := by
  induction h with
  | one hc => exact List.forall_mem_singleton.mpr hc.plain.1
  | next hc _ ih => exact List.forall_mem_cons.mpr ⟨hc.plain.1, ih⟩
  | underscore hc _ ih =>
    rw [List.forall_mem_cons, List.forall_mem_cons]
    exact ⟨hc.plain.1, by decide, ih⟩

theorem digits_of_forall {l : List Char} (hne : l ≠ []) (h : ∀ c ∈ l, IsDigit c) : Digits l := by
  induction l with
  | nil => exact absurd rfl hne
  | cons c l ih =>
    rw [List.forall_mem_cons] at h
    rcases l with _ | ⟨d, l⟩
    · exact .one h.1
    · exact .next h.1 (ih (List.cons_ne_nil _ _) h.2)

theorem digits_cons_iff {c : Char} {l : List Char} : Digits (c :: l) ↔
    IsDigit c ∧ (l = [] ∨ Digits l ∨ ∃ rest, l = '_' :: rest ∧ Digits rest) := by
  constructor
  · rintro (⟨hc⟩ | ⟨hc, hrest⟩ | ⟨hc, hrest⟩)
    · exact ⟨hc, .inl rfl⟩
    · exact ⟨hc, .inr (.inl hrest)⟩
    · exact ⟨hc, .inr (.inr ⟨_, rfl, hrest⟩)⟩
  · rintro ⟨hc, rfl | hrest | ⟨rest, rfl, hrest⟩⟩
    · exact .one hc
    · exact .next hc hrest
    · exact .underscore hc hrest

/-- After a digit the text may end, go on, or go on after an underscore; elsewhere digits begin. -/
theorem isSome_readDigits {l : List Char} : ∀ value : ℕ,
    ((readDigits true l value).isSome = true ↔
      l = [] ∨ Digits l ∨ ∃ rest, l = '_' :: rest ∧ Digits rest) ∧
    ((readDigits false l value).isSome = true ↔ Digits l) := by
  induction l with
  | nil =>
    refine fun value ↦ ⟨by simp [readDigits], ⟨fun h ↦ absurd h (by simp [readDigits]), fun h ↦ ?_⟩⟩
    obtain ⟨_, _, hnil, -⟩ := h.exists_head
    cases hnil
  | cons c l ih =>
    intro value
    rw [digits_cons_iff]
    rcases hdigit : digitValue c with _ | d
    · have hnot : ¬IsDigit c := by rw [IsDigit, hdigit]; exact Bool.false_ne_true
      rw [readDigits, readDigits, hdigit]
      by_cases hc : c = '_'
      · subst hc
        simp only [and_self, if_true, Bool.false_eq_true, (ih value).2]
        constructor
        · constructor
          · exact fun h ↦ .inr (.inr ⟨l, rfl, h⟩)
          · rintro (h | h | ⟨rest, h, hrest⟩)
            · exact absurd h (List.cons_ne_nil _ _)
            · exact absurd h.1 hnot
            · exact (List.cons.inj h).2 ▸ hrest
        · exact ⟨fun h ↦ absurd h Bool.false_ne_true, fun h ↦ absurd h.1 hnot⟩
      · simp only [hc, false_and, if_false]
        constructor
        · constructor
          · exact fun h ↦ absurd h Bool.false_ne_true
          · rintro (h | h | ⟨rest, h, -⟩)
            · exact absurd h (List.cons_ne_nil _ _)
            · exact absurd h.1 hnot
            · exact absurd (List.cons.inj h).1 hc
        · exact ⟨fun h ↦ absurd h Bool.false_ne_true, fun h ↦ absurd h.1 hnot⟩
    · have hc : IsDigit c := by rw [IsDigit, hdigit]; rfl
      rw [readDigits, readDigits, hdigit]
      simp only [(ih _).1]
      constructor
      · constructor
        · exact fun h ↦ .inr (.inl ⟨hc, h⟩)
        · rintro (h | h | ⟨rest, h, -⟩)
          · exact absurd h (List.cons_ne_nil _ _)
          · exact h.2
          · exact absurd (List.cons.inj h).1 hc.plain.2.2.2.2.2.1
      · exact ⟨fun h ↦ ⟨hc, h⟩, fun h ↦ h.2⟩

theorem isSome_readDigits_false {l : List Char} {value : ℕ} :
    (readDigits false l value).isSome = true ↔ Digits l :=
  (isSome_readDigits value).2

theorem digitValue_lt {c : Char} {d : ℕ} (h : digitValue c = some d) : d < 16 := by
  rw [digitValue] at h
  split at h
  · rename_i hrange
    have hle : c.toNat ≤ 57 := hrange.2
    obtain rfl := Option.some.inj h
    change c.toNat - 48 < 16
    omega
  · split at h
    · rename_i hrange
      have hle : c.toNat ≤ 102 := hrange.2
      obtain rfl := Option.some.inj h
      change c.toNat - 97 + 10 < 16
      omega
    · split at h
      · rename_i hrange
        have hle : c.toNat ≤ 70 := hrange.2
        obtain rfl := Option.some.inj h
        change c.toNat - 65 + 10 < 16
        omega
      · cases h

/-- A text of so many characters stands for a number of at most as many digits. -/
theorem readDigits_lt {l : List Char} {afterDigit : Bool} {value n : ℕ}
    (h : readDigits afterDigit l value = some n) : n < 16 ^ l.length * (value + 1) := by
  induction l generalizing afterDigit value with
  | nil =>
    rw [readDigits] at h
    split at h
    · obtain rfl := Option.some.inj h
      rw [List.length_nil, pow_zero]
      omega
    · cases h
  | cons c l ih =>
    rw [readDigits] at h
    rw [List.length_cons, pow_succ]
    split at h
    · rename_i d hd
      have hlt := digitValue_lt hd
      calc n < 16 ^ l.length * (16 * value + d + 1) := ih h
        _ ≤ 16 ^ l.length * (16 * (value + 1)) := Nat.mul_le_mul_left _ (by omega)
        _ = 16 ^ l.length * 16 * (value + 1) := by rw [Nat.mul_assoc]
    · split at h
      · calc n < 16 ^ l.length * (value + 1) := ih h
          _ ≤ 16 ^ l.length * 16 * (value + 1) := by
            rw [Nat.mul_assoc]
            exact Nat.mul_le_mul_left _ (by omega)
      · cases h

/-! ## Numerals -/

theorem isSome_readUnsigned {l : List Char} : (readUnsigned l).isSome = true ↔ Unsigned l := by
  unfold readUnsigned
  split
  · rename_i c r rest
    by_cases hradix : c = '0' ∧ (r = 'x' ∨ r = 'X')
    · rw [if_pos hradix, isSome_readDigits_false]
      obtain ⟨rfl, hr⟩ := hradix
      constructor
      · exact fun h ↦ .inr ⟨r, rest, rfl, hr, h⟩
      · rintro (h | ⟨r', rest', h, -, hrest⟩)
        · rcases (digits_cons_iff.mp h).2 with h | h | ⟨rest', h, -⟩
          · exact absurd h (List.cons_ne_nil _ _)
          · obtain ⟨c, rest', h, hc⟩ := h.exists_head
            obtain rfl := (List.cons.inj h).1
            rcases hr with rfl | rfl
            · exact absurd rfl hc.plain.2.2.2.1
            · exact absurd rfl hc.plain.2.2.2.2.1
          · obtain rfl := (List.cons.inj h).1
            rcases hr with hr | hr
            · exact absurd hr (by decide)
            · exact absurd hr (by decide)
        · exact (List.cons.inj (List.cons.inj h).2).2 ▸ hrest
    · rw [if_neg hradix, isSome_readDigits_false]
      refine ⟨.inl, ?_⟩
      rintro (h | ⟨r', rest', h, hr, -⟩)
      · exact h
      · obtain ⟨hc, h⟩ := List.cons.inj h
        obtain ⟨rfl, -⟩ := List.cons.inj h
        exact absurd ⟨hc, hr⟩ hradix
  · rename_i hshort
    rw [isSome_readDigits_false]
    refine ⟨.inl, ?_⟩
    rintro (h | ⟨r, rest, rfl, -⟩)
    · exact h
    · exact absurd rfl (hshort _ _ _)

theorem Unsigned.exists_head {l : List Char} (h : Unsigned l) :
    ∃ c rest, l = c :: rest ∧ IsDigit c := by
  rcases h with h | ⟨r, rest, rfl, -⟩
  · exact h.exists_head
  · exact ⟨_, _, rfl, by decide⟩

theorem isSome_cast (found : Option ℕ) :
    (do return ((← found : ℕ) : ℤ) : Option ℤ).isSome = found.isSome := by
  rcases found with _ | _
  · rfl
  · rfl

theorem isSome_readSigned {l : List Char} : (readSigned l).isSome = true ↔ Signed l := by
  rcases l with _ | ⟨c, rest⟩
  · refine ⟨fun h ↦ absurd h Bool.false_ne_true, ?_⟩
    rintro (h | ⟨_, _, h, -⟩)
    · obtain ⟨_, _, hnil, -⟩ := h.exists_head
      exact absurd hnil nofun
    · exact absurd h nofun
  · by_cases hsign : c = '-' ∨ c = '+'
    · have hread : (readSigned (c :: rest)).isSome = (readUnsigned rest).isSome := by
        rw [readSigned]
        rcases hsign with rfl | rfl
        · rw [if_pos rfl, Option.isSome_map]
          exact isSome_cast _
        · rw [if_neg (by decide), if_pos rfl, Option.isSome_map]
          exact isSome_cast _
      rw [hread, isSome_readUnsigned]
      constructor
      · exact fun h ↦ .inr ⟨c, rest, rfl, hsign, h⟩
      · rintro (h | ⟨_, _, h, -, hrest⟩)
        · obtain ⟨d, _, h, hd⟩ := h.exists_head
          obtain rfl := (List.cons.inj h).1
          rcases hsign with rfl | rfl
          · exact absurd rfl hd.plain.2.1
          · exact absurd rfl hd.plain.2.2.1
        · exact (List.cons.inj h).2 ▸ hrest
    · rw [not_or] at hsign
      rw [readSigned, if_neg hsign.1, if_neg hsign.2, Option.isSome_map]
      refine (Bool.eq_iff_iff.mp (isSome_cast _)).trans (isSome_readUnsigned.trans ?_)
      refine ⟨.inl, ?_⟩
      rintro (h | ⟨sign, _, h, hs, -⟩)
      · exact h
      · obtain rfl := (List.cons.inj h).1
        exact absurd hs (by tauto)

theorem Unsigned.not_blank {l : List Char} (h : Unsigned l) : ∀ c ∈ l, blank c = false := by
  rcases h with h | ⟨r, rest, rfl, hr, h⟩
  · exact h.not_blank
  · rw [List.forall_mem_cons, List.forall_mem_cons]
    refine ⟨by decide, by rcases hr with rfl | rfl <;> decide, ?_⟩
    rcases rest with _ | ⟨c, rest⟩
    · exact fun c hc ↦ absurd hc List.not_mem_nil
    · rw [afterRadix] at h
      split at h
      · rename_i hc
        exact List.forall_mem_cons.mpr ⟨by rw [hc]; decide, h.not_blank⟩
      · exact h.not_blank

theorem Signed.not_blank {l : List Char} (h : Signed l) : ∀ c ∈ l, blank c = false := by
  rcases h with h | ⟨sign, rest, rfl, hsign, h⟩
  · exact h.not_blank
  · exact List.forall_mem_cons.mpr ⟨by rcases hsign with rfl | rfl <;> decide, h.not_blank⟩

/-! ## Blanks -/

/-- A text without the blanks at its end. -/
def trimEnd (l : List Char) : List Char := (l.reverse.dropWhile blank).reverse

theorem dropWhile_of_not_blank {l : List Char} (h : ∀ c ∈ l, blank c = false) :
    l.dropWhile blank = l := by
  rcases l with _ | ⟨c, rest⟩
  · rfl
  · exact List.dropWhile_cons_of_neg (by rw [h c List.mem_cons_self]; decide)

theorem dropWhile_append_blank {before rest : List Char} (h : ∀ c ∈ before, blank c = true) :
    (before ++ rest).dropWhile blank = rest.dropWhile blank := by
  rw [List.dropWhile_append, List.dropWhile_eq_nil_iff.mpr h, List.isEmpty_nil, if_pos rfl]

theorem trimEnd_append {core after : List Char} (hcore : ∀ c ∈ core, blank c = false)
    (h : ∀ c ∈ after, blank c = true) : trimEnd (core ++ after) = core := by
  rw [trimEnd, List.reverse_append,
    dropWhile_append_blank fun c hc ↦ h c (List.mem_reverse.mp hc),
    dropWhile_of_not_blank fun c hc ↦ hcore c (List.mem_reverse.mp hc), List.reverse_reverse]

theorem exists_trimEnd (l : List Char) :
    ∃ after, l = trimEnd l ++ after ∧ ∀ c ∈ after, blank c = true := by
  refine ⟨(l.reverse.takeWhile blank).reverse, ?_, fun c hc ↦ ?_⟩
  · rw [trimEnd, ← List.reverse_append, List.takeWhile_append_dropWhile, List.reverse_reverse]
  · exact List.mem_takeWhile_imp (List.mem_reverse.mp hc)

/-- **The reader of integers reads the numerals.** -/
theorem isSome_readInt {text : String} :
    (readInt text).isSome = true ↔ Numeral (text.toList.map toAscii) := by
  generalize hl : text.toList.map toAscii = l
  rw [readInt, hl, isSome_readSigned]
  change Signed (trimEnd (l.dropWhile blank)) ↔ _
  constructor
  · intro h
    obtain ⟨after, hafter, hblank⟩ := exists_trimEnd (l.dropWhile blank)
    refine ⟨l.takeWhile blank, trimEnd (l.dropWhile blank), after, ?_,
      fun c hc ↦ List.mem_takeWhile_imp hc, hblank, h⟩
    rw [List.append_assoc, ← hafter, List.takeWhile_append_dropWhile]
  · rintro ⟨before, core, after, rfl, hbefore, hafter, hcore⟩
    rw [List.append_assoc, dropWhile_append_blank hbefore]
    have hdrop : (core ++ after).dropWhile blank = core ++ after := by
      rcases core with _ | ⟨c, rest⟩
      · exact absurd (isSome_readSigned.mpr hcore) Bool.false_ne_true
      · exact List.dropWhile_cons_of_neg
          (by rw [hcore.not_blank c List.mem_cons_self]; decide)
    rw [hdrop, trimEnd_append hcore.not_blank hafter]
    exact hcore

/-! ## Behind a radix -/

section Prefixed

variable {text : String} {l : List Char}

/-- What stands behind a radix is read as digits. -/
theorem readInt_prefixed (h : text.toList = '0' :: 'x' :: l) :
    readInt text = (readDigits false (afterRadix (trimEnd (l.map toAscii))) 0).map Int.ofNat := by
  have htrim : trimEnd ('0' :: 'x' :: l.map toAscii) = '0' :: 'x' :: trimEnd (l.map toAscii) := by
    rw [trimEnd, List.reverse_cons, List.reverse_cons, List.append_assoc, List.dropWhile_append]
    split
    · rename_i hempty
      rw [trimEnd, List.isEmpty_iff.mp hempty]
      rfl
    · rw [List.reverse_append]
      rfl
  have hzero : toAscii '0' = '0' := toAscii_of_lt (by decide)
  have hx : toAscii 'x' = 'x' := toAscii_of_lt (by decide)
  rw [readInt, h, List.map_cons, List.map_cons, hzero, hx,
    List.dropWhile_cons_of_neg (by decide)]
  change readSigned (trimEnd _) = _
  rw [htrim, readSigned, if_neg (by decide), if_neg (by decide), readUnsigned,
    if_pos (by decide)]
  rcases readDigits false (afterRadix (trimEnd (l.map toAscii))) 0 with _ | _
  · rfl
  · rfl

theorem isSome_readInt_prefixed (h : text.toList = '0' :: 'x' :: l) :
    (readInt text).isSome = true ↔ Digits (afterRadix (trimEnd (l.map toAscii))) := by
  rw [readInt_prefixed h, Option.isSome_map, isSome_readDigits_false]

/-- The number behind a radix has no more digits than there are characters. -/
theorem range_of_readInt_prefixed {value : ℤ} (h : text.toList = '0' :: 'x' :: l)
    (hread : readInt text = some value) : 0 ≤ value ∧ value < (16 ^ l.length : ℕ) := by
  rw [readInt_prefixed h] at hread
  obtain ⟨n, hn, rfl⟩ := Option.map_eq_some_iff.mp hread
  have hlt := readDigits_lt hn
  rw [Nat.zero_add, Nat.mul_one] at hlt
  have hlength : (afterRadix (trimEnd (l.map toAscii))).length ≤ l.length := by
    obtain ⟨after, hafter, -⟩ := exists_trimEnd (l.map toAscii)
    have hsum := congrArg List.length hafter
    rw [List.length_append, List.length_map] at hsum
    have hradix : ∀ u : List Char, (afterRadix u).length ≤ u.length := by
      intro u
      rcases u with _ | ⟨c, u⟩
      · exact le_rfl
      · rw [afterRadix]
        split
        · exact Nat.le_succ _
        · exact le_rfl
    have hle := hradix (trimEnd (l.map toAscii))
    omega
  exact ⟨Int.natCast_nonneg n,
    Int.ofNat_lt.mpr (hlt.trans_le (Nat.pow_le_pow_right (by decide) hlength))⟩

end Prefixed

/-! ## Words in lower case -/

/-- The digits that are written. -/
def IsLowerDigit (c : Char) : Prop := ∃ d < 16, c = Nat.digitChar d

/-- Eight digits behind a radix. -/
def LowerWord (text : String) : Prop :=
  ∃ l, text.toList = '0' :: 'x' :: l ∧ l.length = 8 ∧ ∀ c ∈ l, IsLowerDigit c

theorem digits_add_mul (width n k : ℕ) : digits width (n + 16 ^ width * k) = digits width n := by
  have hdigits : ∀ w ≤ width, digits w (n + 16 ^ width * k) = digits w n := by
    intro w
    induction w with
    | zero => exact fun _ ↦ rfl
    | succ w ih =>
      intro hw
      have hpow : 16 ^ width = 16 ^ w * (16 * 16 ^ (width - (w + 1))) := by
        rw [← mul_assoc, ← pow_succ, ← pow_add]
        congr 1
        omega
      have hdigit : (n + 16 ^ width * k) / 16 ^ w % 16 = n / 16 ^ w % 16 := by
        rw [hpow, mul_assoc, Nat.add_mul_div_left _ _ (by positivity), mul_assoc,
          Nat.add_mul_mod_self_left]
      rw [digits, digits, hdigit, ih (Nat.le_of_succ_le hw)]
  exact hdigits width le_rfl

theorem exists_digits {l : List Char} (h : ∀ c ∈ l, IsLowerDigit c) :
    ∃ n < 16 ^ l.length, l = digits l.length n := by
  induction l with
  | nil => exact ⟨0, by decide, rfl⟩
  | cons c l ih =>
    rw [List.forall_mem_cons] at h
    obtain ⟨⟨d, hd, rfl⟩, h⟩ := h
    obtain ⟨n, hn, hl⟩ := ih h
    refine ⟨n + 16 ^ l.length * d, ?_, ?_⟩
    · rw [List.length_cons, pow_succ]
      calc n + 16 ^ l.length * d < 16 ^ l.length + 16 ^ l.length * d := Nat.add_lt_add_right hn _
        _ = 16 ^ l.length * (d + 1) := by ring
        _ ≤ 16 ^ l.length * 16 := Nat.mul_le_mul_left _ hd
    · rw [List.length_cons, digits, digits_add_mul, ← hl, Nat.add_mul_div_left _ _ (by positivity),
        Nat.div_eq_of_lt hn, Nat.zero_add, Nat.mod_eq_of_lt hd]

/-- The texts in lower case are those that are written. -/
theorem lowerWord_iff {text : String} : LowerWord text ↔ ∃ w, text = word w := by
  constructor
  · rintro ⟨l, htext, hlength, hl⟩
    obtain ⟨n, hn, heq⟩ := exists_digits hl
    rw [hlength] at hn heq
    refine ⟨BitVec.ofNat 32 n, String.toList_inj.mp ?_⟩
    rw [htext, toList_word, BitVec.toNat_ofNat, Nat.mod_eq_of_lt (by exact hn), heq]
  · rintro ⟨w, rfl⟩
    exact ⟨_, toList_word w, length_digits 8 _, fun c hc ↦ exists_digit hc⟩

theorem digits_succ_last (width n : ℕ) :
    digits (width + 1) n = digits width (n / 16) ++ [Nat.digitChar (n % 16)] := by
  induction width with
  | zero => rw [digits, digits, digits, pow_zero, Nat.div_one, List.nil_append]
  | succ width ih =>
    rw [digits, ih, digits, List.cons_append, Nat.div_div_eq_div_mul, pow_succ']

/-- A number in base sixteen with zeros in front of it. -/
theorem pad_toDigits {width n : ℕ} (h : n < 16 ^ (width + 1)) :
    List.replicate (width + 1 - (Nat.toDigits 16 n).length) '0' ++ Nat.toDigits 16 n
      = digits (width + 1) n := by
  have hzero : ∀ width, digits width 0 = List.replicate width '0' := by
    intro width
    induction width with
    | zero => rfl
    | succ width ih =>
      rw [digits, ih, List.replicate_succ, Nat.zero_div]
      rfl
  induction width generalizing n with
  | zero =>
    have hlt : n < 16 := h
    rw [Nat.toDigits_of_lt_base hlt, digits_succ_last, Nat.mod_eq_of_lt hlt]
    rfl
  | succ width ih =>
    rw [digits_succ_last]
    by_cases hlt : n < 16
    · rw [Nat.toDigits_of_lt_base hlt, Nat.div_eq_of_lt hlt, hzero, Nat.mod_eq_of_lt hlt]
      rfl
    · rw [Nat.toDigits_of_base_le (by decide) (not_lt.mp hlt), List.length_append,
        List.length_singleton, Nat.add_sub_add_right, ← List.append_assoc,
        ih (Nat.div_lt_of_lt_mul (by rw [← pow_succ']; exact h))]

end PredicatedMesh.Hex
