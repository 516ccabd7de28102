import Mathlib.Tactic

/-!
# JSON values

The values two programs exchange through a JSON file, after the text has been parsed. Integers,
strings, arrays and objects are kept as they are; floating-point numbers do not occur. A reader
takes values apart with partial accessors, so a document of the wrong shape is not read at all.

Words are written as hexadecimal text. `Hex.readInt` reads what `Hex.word` writes, and everything
else that `int` reads in base sixteen.
-/

namespace PredicatedMesh

inductive Json
  | null
  | bool (value : Bool)
  | num (value : ℤ)
  | str (value : String)
  | arr (items : List Json)
  | obj (fields : List (String × Json))

namespace Json

def nat (n : ℕ) : Json := .num n

/-- The value of a field of an object. -/
def field? (value : Json) (name : String) : Option Json :=
  match value with
  | .obj fields => fields.lookup name
  | _ => none

def items? : Json → Option (List Json)
  | .arr items => some items
  | _ => none

def int? : Json → Option ℤ
  | .num value => some value
  | _ => none

/-- A number that is not negative. -/
def nat? : Json → Option ℕ
  | .num (.ofNat n) => some n
  | _ => none

def str? : Json → Option String
  | .str value => some value
  | _ => none

def bool? : Json → Option Bool
  | .bool value => some value
  | _ => none

def isObj : Json → Bool
  | .obj _ => true
  | _ => false

/-- Fields are looked up in the order they are written in. -/
@[simp] theorem field?_cons (key : String) (value : Json) (fields : List (String × Json))
    (name : String) : (Json.obj ((key, value) :: fields)).field? name
      = if name = key then some value else (Json.obj fields).field? name := by
  by_cases h : name = key
  · subst h
    rw [field?, List.lookup_cons_self, if_pos rfl]
  · rw [field?, List.lookup_cons, beq_eq_false_iff_ne.mpr h, if_neg h, field?]

@[simp] theorem field?_nil (name : String) : (Json.obj []).field? name = none := rfl

@[simp] theorem items?_arr (items : List Json) : (Json.arr items).items? = some items := rfl

@[simp] theorem int?_nat (n : ℕ) : (Json.nat n).int? = some (n : ℤ) := rfl

@[simp] theorem nat?_nat (n : ℕ) : (Json.nat n).nat? = some n := rfl

@[simp] theorem str?_str (value : String) : (Json.str value).str? = some value := rfl

@[simp] theorem bool?_bool (value : Bool) : (Json.bool value).bool? = some value := rfl

@[simp] theorem isObj_obj (fields : List (String × Json)) : (Json.obj fields).isObj = true := rfl

end Json

/-! ## Hexadecimal words -/

namespace Hex

/-- The digits of a number, most significant first. -/
def digits : ℕ → ℕ → List Char
  | 0, _ => []
  | width + 1, n => Nat.digitChar (n / 16 ^ width % 16) :: digits width n

/-- A 32-bit word as eight digits. -/
def word (w : BitVec 32) : String := "0x" ++ String.ofList (digits 8 w.toNat)

def digitValue (c : Char) : Option ℕ :=
  if '0' ≤ c ∧ c ≤ '9' then some (c.toNat - '0'.toNat)
  else if 'a' ≤ c ∧ c ≤ 'f' then some (c.toNat - 'a'.toNat + 10)
  else if 'A' ≤ c ∧ c ≤ 'F' then some (c.toNat - 'A'.toNat + 10)
  else none

/-- The value of digits with single underscores between them. -/
def readDigits : Bool → List Char → ℕ → Option ℕ
  | afterDigit, [], value => if afterDigit then some value else none
  | afterDigit, c :: rest, value =>
    match digitValue c with
    | some d => readDigits true rest (16 * value + d)
    | none => if c = '_' ∧ afterDigit then readDigits false rest value else none

/-- The digits after a radix, which one underscore may keep apart. -/
def afterRadix : List Char → List Char
  | [] => []
  | c :: rest => if c = '_' then rest else c :: rest

/-- A numeral with an optional radix in front of it. -/
def readUnsigned : List Char → Option ℕ
  | c :: r :: rest =>
    if c = '0' ∧ (r = 'x' ∨ r = 'X') then readDigits false (afterRadix rest) 0
    else readDigits false (c :: r :: rest) 0
  | chars => readDigits false chars 0

def readSigned : List Char → Option ℤ
  | [] => none
  | c :: rest =>
    if c = '-' then (readUnsigned rest).map fun n ↦ -(n : ℤ)
    else if c = '+' then (readUnsigned rest).map fun n ↦ (n : ℤ)
    else (readUnsigned (c :: rest)).map fun n ↦ (n : ℤ)

/-- The zeros of the decimal digits beyond ASCII; the other nine digits follow each of them. -/
def decimalZeros : List ℕ :=
  [0x660, 0x6f0, 0x7c0, 0x966, 0x9e6, 0xa66, 0xae6, 0xb66, 0xbe6, 0xc66, 0xce6, 0xd66, 0xde6, 0xe50,
    0xed0, 0xf20, 0x1040, 0x1090, 0x17e0, 0x1810, 0x1946, 0x19d0, 0x1a80, 0x1a90, 0x1b50, 0x1bb0,
    0x1c40, 0x1c50, 0xa620, 0xa8d0, 0xa900, 0xa9d0, 0xa9f0, 0xaa50, 0xabf0, 0xff10, 0x104a0,
    0x10d30, 0x11066, 0x110f0, 0x11136, 0x111d0, 0x112f0, 0x11450, 0x114d0, 0x11650, 0x116c0,
    0x11730, 0x118e0, 0x11950, 0x11c50, 0x11d50, 0x11da0, 0x16a60, 0x16ac0, 0x16b50, 0x1d7ce,
    0x1d7d8, 0x1d7e2, 0x1d7ec, 0x1d7f6, 0x1e140, 0x1e2f0, 0x1e950, 0x1fbf0]

/-- The blanks beyond ASCII. -/
def otherBlanks : List ℕ :=
  [0x85, 0xa0, 0x1680, 0x2000, 0x2001, 0x2002, 0x2003, 0x2004, 0x2005, 0x2006, 0x2007, 0x2008,
    0x2009, 0x200a, 0x2028, 0x2029, 0x202f, 0x205f, 0x3000]

/-- Decimal digits and blanks beyond ASCII count as those of ASCII. -/
def toAscii (c : Char) : Char :=
  match decimalZeros.find? fun first ↦ first ≤ c.toNat && c.toNat < first + 10 with
  | some first => Nat.digitChar (c.toNat - first)
  | none => if otherBlanks.contains c.toNat then ' ' else c

def blank (c : Char) : Bool := c == ' ' || (9 ≤ c.toNat && c.toNat ≤ 13)

/-- The integer a text stands for in base sixteen, leaving out blanks around it. -/
def readInt (text : String) : Option ℤ :=
  readSigned (((text.toList.map toAscii).dropWhile blank).reverse.dropWhile blank).reverse

/-! ### Reading what has been written -/

theorem digitValue_digitChar : ∀ d < 16, digitValue (Nat.digitChar d) = some d := by
  decide

/-- A digit is no blank, sign, radix or underscore. -/
theorem digitChar_plain : ∀ d < 16, blank (Nat.digitChar d) = false ∧
    Nat.digitChar d ≠ '-' ∧ Nat.digitChar d ≠ '+' ∧ Nat.digitChar d ≠ 'x' ∧
      Nat.digitChar d ≠ 'X' ∧ Nat.digitChar d ≠ '_' := by
  decide

theorem length_digits (width n : ℕ) : (digits width n).length = width := by
  induction width with
  | zero => rfl
  | succ width ih => rw [digits, List.length_cons, ih]

theorem exists_digit {width n : ℕ} {c : Char} (h : c ∈ digits width n) :
    ∃ d < 16, c = Nat.digitChar d := by
  induction width with
  | zero => exact absurd h List.not_mem_nil
  | succ width ih =>
    rw [digits, List.mem_cons] at h
    rcases h with rfl | h
    · exact ⟨_, Nat.mod_lt _ (by decide), rfl⟩
    · exact ih h

theorem readDigits_digits (n value : ℕ) {width : ℕ} (hwidth : width ≠ 0) (afterDigit : Bool) :
    readDigits afterDigit (digits width n) value = some (16 ^ width * value + n % 16 ^ width) := by
  have hread : ∀ (width value : ℕ) (afterDigit : Bool), width ≠ 0 ∨ afterDigit = true →
      readDigits afterDigit (digits width n) value
        = some (16 ^ width * value + n % 16 ^ width) := by
    intro width
    induction width with
    | zero =>
      rintro value afterDigit (h | rfl)
      · exact absurd rfl h
      · rw [digits, readDigits, if_pos rfl, pow_zero, one_mul, Nat.mod_one, Nat.add_zero]
    | succ width ih =>
      intro value afterDigit _
      rw [digits, readDigits, digitValue_digitChar _ (Nat.mod_lt _ (by decide))]
      simp only
      rw [ih _ _ (.inr rfl), Option.some.injEq]
      have hsplit : n % 16 ^ (width + 1) = 16 ^ width * (n / 16 ^ width % 16) + n % 16 ^ width := by
        rw [pow_succ, Nat.mod_mul, Nat.add_comm]
      rw [hsplit]
      ring
  exact hread width value afterDigit (.inl hwidth)

/-- A text without blanks is not shortened. -/
theorem dropWhile_plain {l : List Char} (h : ∀ c ∈ l, blank c = false) :
    ((l.dropWhile blank).reverse.dropWhile blank).reverse = l := by
  have hdrop : ∀ l : List Char, (∀ c ∈ l, blank c = false) → l.dropWhile blank = l := by
    intro l hl
    rcases l with _ | ⟨c, rest⟩
    · rfl
    · exact List.dropWhile_cons_of_neg (by rw [hl c List.mem_cons_self]; decide)
  rw [hdrop l h, hdrop _ fun c hc ↦ h c (List.mem_reverse.mp hc), List.reverse_reverse]

theorem digits_plain {width n : ℕ} : ∀ c ∈ digits width n, blank c = false := by
  intro c hc
  obtain ⟨d, hd, rfl⟩ := exists_digit hc
  exact (digitChar_plain d hd).1

/-- ASCII is left as it is. -/
theorem toAscii_of_lt {c : Char} (h : c.toNat < 128) : toAscii c = c := by
  have hzeros : ∀ first ∈ decimalZeros, 128 ≤ first := by decide
  have hblanks : ∀ value ∈ otherBlanks, 128 ≤ value := by decide
  have hnone : (decimalZeros.find? fun first ↦ first ≤ c.toNat && c.toNat < first + 10)
      = none := by
    refine List.find?_eq_none.mpr fun first hfirst hin ↦ ?_
    simp only [Bool.and_eq_true, decide_eq_true_eq] at hin
    have hle := hzeros first hfirst
    omega
  have hother : otherBlanks.contains c.toNat = false := by
    rw [List.contains_eq_mem, decide_eq_false_iff_not]
    intro hmem
    have hle := hblanks _ hmem
    omega
  rw [toAscii, hnone, hother]
  rfl

theorem map_toAscii {l : List Char} (h : ∀ c ∈ l, c.toNat < 128) : l.map toAscii = l :=
  (List.map_congr_left fun c hc ↦ toAscii_of_lt (h c hc)).trans (List.map_id' l)

theorem digits_ascii {width n : ℕ} : ∀ c ∈ digits width n, c.toNat < 128 := by
  have hall : ∀ d < 16, (Nat.digitChar d).toNat < 128 := by decide
  intro c hc
  obtain ⟨d, hd, rfl⟩ := exists_digit hc
  exact hall d hd

/-- Digits alone are read as their number. -/
theorem readInt_digits {width n : ℕ} (hwidth : 2 ≤ width) :
    readInt (String.ofList (digits width n)) = some ((n % 16 ^ width : ℕ) : ℤ) := by
  have hread : readUnsigned (digits width n) = some (n % 16 ^ width) := by
    have hdigits := readDigits_digits n 0 (by omega : width ≠ 0) false
    rw [Nat.mul_zero, Nat.zero_add] at hdigits
    obtain ⟨width, rfl⟩ := Nat.exists_eq_add_of_le' hwidth
    rw [digits, digits] at hdigits ⊢
    have hplain := digitChar_plain _ (Nat.mod_lt (n / 16 ^ width) (by decide : 0 < 16))
    rw [readUnsigned, if_neg (by tauto), hdigits]
  rw [readInt, String.toList_ofList, map_toAscii digits_ascii, dropWhile_plain digits_plain]
  obtain ⟨width, rfl⟩ := Nat.exists_eq_add_of_le' hwidth
  rw [digits] at hread ⊢
  have hplain := digitChar_plain _ (Nat.mod_lt (n / 16 ^ (width + 1)) (by decide : 0 < 16))
  rw [readSigned, if_neg hplain.2.1, if_neg hplain.2.2.1, hread]
  rfl

theorem toList_word (w : BitVec 32) : (word w).toList = '0' :: 'x' :: digits 8 w.toNat := by
  rw [word, String.toList_append, String.toList_ofList]
  simp

/-- **A word is read back.** -/
theorem readInt_word (w : BitVec 32) : readInt (word w) = some (w.toNat : ℤ) := by
  have hdigits := readDigits_digits w.toNat 0 (by decide : 8 ≠ 0) false
  rw [Nat.mul_zero, Nat.zero_add, Nat.mod_eq_of_lt (by exact w.isLt)] at hdigits
  have hradix : afterRadix (digits 8 w.toNat) = digits 8 w.toNat := by
    have hplain := digitChar_plain _ (Nat.mod_lt (w.toNat / 16 ^ 7) (by decide : 0 < 16))
    rw [digits, afterRadix, if_neg hplain.2.2.2.2.2]
  have hplain : ∀ c ∈ '0' :: 'x' :: digits 8 w.toNat, blank c = false := by
    rw [List.forall_mem_cons, List.forall_mem_cons]
    exact ⟨by decide, by decide, digits_plain⟩
  have hascii : ∀ c ∈ '0' :: 'x' :: digits 8 w.toNat, c.toNat < 128 := by
    rw [List.forall_mem_cons, List.forall_mem_cons]
    exact ⟨by decide, by decide, digits_ascii⟩
  rw [readInt, toList_word, map_toAscii hascii, dropWhile_plain hplain, readSigned,
    if_neg (by decide), if_neg (by decide), readUnsigned, if_pos (by decide), hradix, hdigits]
  rfl

end Hex

end PredicatedMesh
