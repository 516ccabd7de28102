import PredicatedMesh.Library.Numeral
import PredicatedMesh.Target.CodecAgreement
import PredicatedMesh.Tools.ConfigStream

/-!
# The spelling of words

The validator lets a text pass as a word when the eight characters behind its radix can be read as
an integer. A reader of integers allows more than digits, so some texts pass that are no words, and
the tools that come later read the whole text, with the radix in front. There a sign or a blank in
front of the digits is no longer allowed, while blanks behind them and underscores between them
still are.

The emitter is stricter than all of them. It writes a control word again, in lower case, and refuses
one that does not come out as the same text.
-/

namespace PredicatedMesh

open ProgramValidator ProgramImage ConfigStream Scan

/-! ## Texts that pass -/

/-- Eight hexadecimal digits behind a radix, in either case. -/
def HexWord (text : String) : Prop :=
  ∃ l, text.toList = '0' :: 'x' :: l ∧ l.length = 8 ∧ ∀ c ∈ l, Hex.IsDigit c

/-- Eight characters behind a radix that make up a numeral and are not all digits. -/
def Lenient (text : String) : Prop :=
  ∃ l, text.toList = '0' :: 'x' :: l ∧ l.length = 8 ∧ Hex.Numeral (l.map Hex.toAscii) ∧
    ∃ c ∈ l, ¬Hex.IsDigit c

/-- Digits behind a radix, with single underscores between them and blanks after them. -/
def Plain (text : String) : Prop :=
  ∃ l digits after, text.toList = '0' :: 'x' :: l ∧ l.map Hex.toAscii = digits ++ after ∧
    Hex.Digits digits ∧ ∀ c ∈ after, Hex.blank c = true

theorem isHex32_iff {text : String} : isHex32 (some (.str text)) = true ↔
    ∃ l, text.toList = '0' :: 'x' :: l ∧ l.length = 8 ∧ Hex.Numeral (l.map Hex.toAscii) := by
  rw [isHex32, Bool.and_eq_true, Bool.and_eq_true, Hex.isSome_readInt, String.toList_ofList,
    String.toList_ofList, List.isPrefixOf_iff_prefix, beq_iff_eq]
  constructor
  · rintro ⟨⟨⟨l, hl⟩, hlength⟩, hnumeral⟩
    rw [← hl] at hlength hnumeral
    exact ⟨l, hl.symm, hlength, hnumeral⟩
  · rintro ⟨l, hl, hlength, hnumeral⟩
    rw [hl]
    exact ⟨⟨⟨l, rfl⟩, hlength⟩, hnumeral⟩

/-- Digits are a numeral. -/
theorem numeral_of_digits {l : List Char} (hne : l ≠ []) (h : ∀ c ∈ l, Hex.IsDigit c) :
    Hex.Numeral (l.map Hex.toAscii) := by
  rw [Hex.map_toAscii fun c hc ↦ (h c hc).plain.2.2.2.2.2.2]
  refine ⟨[], l, [], by rw [List.append_nil, List.nil_append], by simp, by simp, ?_⟩
  exact .inl (.inl (Hex.digits_of_forall hne h))

theorem isHex32_of_hexWord {text : String} (h : HexWord text) :
    isHex32 (some (.str text)) = true := by
  obtain ⟨l, htext, hlength, hdigits⟩ := h
  refine isHex32_iff.mpr ⟨l, htext, hlength, numeral_of_digits ?_ hdigits⟩
  rintro rfl
  exact absurd hlength (by decide)

/-- A text is let through as a word it is not exactly when it is lenient. -/
theorem isHex32_exact_iff {text : String} :
    (isHex32 (some (.str text)) = true ↔ HexWord text) ↔ ¬Lenient text := by
  constructor
  · rintro hexact ⟨l, htext, hlength, hnumeral, c, hc, hdigit⟩
    obtain ⟨l', htext', -, hdigits⟩ := hexact.mp (isHex32_iff.mpr ⟨l, htext, hlength, hnumeral⟩)
    obtain rfl := (List.cons.inj (List.cons.inj (htext.symm.trans htext')).2).2
    exact hdigit (hdigits c hc)
  · intro hstrict
    refine ⟨fun h ↦ ?_, isHex32_of_hexWord⟩
    obtain ⟨l, htext, hlength, hnumeral⟩ := isHex32_iff.mp h
    refine ⟨l, htext, hlength, fun c hc ↦ ?_⟩
    by_contra hdigit
    exact hstrict ⟨l, htext, hlength, hnumeral, c, hc, hdigit⟩

/-! ## Texts that are read -/

/-- A text is read as a number of thirty-two bits. -/
def Readable (text : String) : Prop :=
  ∃ value, Hex.readInt text = some value ∧ 0 ≤ value ∧ value < 2 ^ 32

/-- A text that passes is read, with its radix, exactly when it is plain. -/
theorem readable_iff {text : String} (h : isHex32 (some (.str text)) = true) :
    Readable text ↔ Plain text := by
  obtain ⟨l, htext, hlength, before, core, after, hl, hbefore, hafter, hcore⟩ := isHex32_iff.mp h
  have hsome : Readable text ↔ Hex.Digits (Hex.afterRadix (Hex.trimEnd (l.map Hex.toAscii))) := by
    rw [← Hex.isSome_readInt_prefixed htext, Option.isSome_iff_exists]
    constructor
    · rintro ⟨value, hread, -⟩
      exact ⟨value, hread⟩
    · rintro ⟨value, hread⟩
      have hrange := Hex.range_of_readInt_prefixed htext hread
      rw [hlength] at hrange
      exact ⟨value, hread, hrange⟩
  rw [hsome]
  constructor
  · intro hdigits
    obtain ⟨rest, hrest, hblank⟩ := Hex.exists_trimEnd (l.map Hex.toAscii)
    refine ⟨l, Hex.trimEnd (l.map Hex.toAscii), rest, htext, hrest, ?_, hblank⟩
    -- an underscore behind the radix would already stand in front of the numeral
    generalize Hex.trimEnd (l.map Hex.toAscii) = u at hdigits hrest
    rcases u with _ | ⟨c, u⟩
    · exact hdigits
    · rw [Hex.afterRadix] at hdigits
      split at hdigits
      · rename_i hc
        subst hc
        exfalso
        rw [hl, List.append_assoc] at hrest
        rcases before with _ | ⟨b, before⟩
        · rcases hcore with hcore | ⟨sign, tail, rfl, hsign, -⟩
          · obtain ⟨d, tail, rfl, hd⟩ := hcore.exists_head
            obtain rfl := (List.cons.inj hrest).1
            exact hd.plain.2.2.2.2.2.1 rfl
          · obtain rfl := (List.cons.inj hrest).1
            rcases hsign with hsign | hsign
            · exact absurd hsign (by decide)
            · exact absurd hsign (by decide)
        · obtain rfl := (List.cons.inj hrest).1
          exact absurd (hbefore '_' List.mem_cons_self) (by decide)
      · exact hdigits
  · rintro ⟨l', digits, rest, htext', hrest, hdigits, hblank⟩
    obtain rfl := (List.cons.inj (List.cons.inj (htext'.symm.trans htext)).2).2
    rw [hrest, Hex.trimEnd_append hdigits.not_blank hblank]
    obtain ⟨c, tail, rfl, hc⟩ := hdigits.exists_head
    rw [Hex.afterRadix, if_neg hc.plain.2.2.2.2.2.1]
    exact hdigits

theorem readable_of_lowerWord {text : String} (h : Hex.LowerWord text) : Readable text := by
  obtain ⟨w, rfl⟩ := Hex.lowerWord_iff.mp h
  exact ⟨w.toNat, Hex.readInt_word w, Int.natCast_nonneg _, by exact_mod_cast w.isLt⟩

/-! ## Faults of a word -/

/-- What can be wrong about a word whose texts are read. -/
def WordFault (message : String) : Prop :=
  message = "control word padding bits must be zero" ∨
    ∃ (field : String) (value : ℕ),
      message = "invalid " ++ field ++ " enum value " ++ toString value

/-- A computation that fails with faults of a word only. -/
def Faulty {α : Type} (found : Except String α) : Prop := ∀ e, found = .error e → WordFault e

theorem Faulty.ok {α : Type} (a : α) : Faulty (.ok a : Except String α) := fun _ h ↦ absurd h nofun

theorem Faulty.bind {α β : Type} {found : Except String α} {next : α → Except String β}
    (h : Faulty found) (hnext : ∀ a, Faulty (next a)) : Faulty (found >>= next) := by
  intro e he
  rcases bind_eq_error.mp he with he | ⟨a, -, he⟩
  · exact h e he
  · exact hnext a e he

theorem faulty_enum (mapping : List (ℕ × String)) (value : ℕ) (field : String) :
    Faulty (Golden.enum mapping value field) := by
  intro e he
  rw [Golden.enum] at he
  split at he
  · exact .inr ⟨field, value, (Except.error.inj he).symm⟩
  · cases he

theorem faulty_decodeRoute (mapping : List (ℕ × String)) (word lsb srcWidth : ℕ) (field : String) :
    Faulty (Golden.decodeRoute mapping word lsb srcWidth field) :=
  .bind (faulty_enum _ _ _) fun _ ↦ .ok _

theorem faulty_decodeRoutes (mapping : List (ℕ × String)) (word routeLsb srcWidth : ℕ)
    (field : String) : Faulty (Golden.decodeRoutes mapping word routeLsb srcWidth field) :=
  .bind (faulty_decodeRoute _ _ _ _ _) fun _ ↦ .bind (faulty_decodeRoute _ _ _ _ _) fun _ ↦
    .bind (faulty_decodeRoute _ _ _ _ _) fun _ ↦ .bind (faulty_decodeRoute _ _ _ _ _) fun _ ↦ .ok _

/-- The fields of a word fail only for their values. -/
theorem faulty_decodeWord (word : ℕ) (target : Golden.Target) :
    Faulty (Golden.decodeWord word target) := by
  have hsymbol {mapping : List (ℕ × String)} {value : ℕ} {field : String}
      {next : String → Except String Golden.TileControl} (h : ∀ symbol, Faulty (next symbol)) :
      Faulty (Golden.enum mapping value field >>= next) :=
    .bind (faulty_enum mapping value field) h
  have hroutes {mapping : List (ℕ × String)} {word routeLsb srcWidth : ℕ} {field : String}
      {next : (Direction → Golden.RouteDirControl) → Except String Golden.TileControl}
      (h : ∀ routes, Faulty (next routes)) :
      Faulty (Golden.decodeRoutes mapping word routeLsb srcWidth field >>= next) :=
    .bind (faulty_decodeRoutes mapping word routeLsb srcWidth field) h
  refine hsymbol fun op ↦ hsymbol fun srcA ↦ hsymbol fun srcB ↦ hsymbol fun srcP0 ↦ ?_
  refine hsymbol fun srcP1 ↦ hsymbol fun dataW1Src ↦ hsymbol fun predW1Src ↦ ?_
  refine hroutes fun dataRoutes ↦ hroutes fun predRoutes ↦ ?_
  refine hsymbol fun lsuOp ↦ hsymbol fun lsuAddrSrc ↦ hsymbol fun lsuStoreDataSrc ↦ ?_
  exact hsymbol fun lsuCommitPredSrc ↦ .ok _

theorem assemble_in_range {values : List ℤ} (h : ∀ value ∈ values, 0 ≤ value ∧ value < 2 ^ 32)
    (index word : ℕ) : ∃ result, Golden.assemble index word values = .ok result := by
  induction values generalizing index word with
  | nil => exact ⟨word, rfl⟩
  | cons value values ih =>
    rw [List.forall_mem_cons] at h
    have hmask : (Golden.mask32 : ℤ) = 2 ^ 32 - 1 := rfl
    rw [Golden.assemble, if_neg (by omega)]
    exact ih h.2 _ _

theorem readTexts_eq_ok {chunks : List String} (h : ∀ chunk ∈ chunks, Readable chunk)
    (index : ℕ) : ∃ values, readTexts index chunks = .ok values ∧
      chunks.mapM Hex.readInt = some values ∧ values.length = chunks.length ∧
        ∀ value ∈ values, 0 ≤ value ∧ value < 2 ^ 32 := by
  induction chunks generalizing index with
  | nil => exact ⟨[], rfl, rfl, rfl, by simp⟩
  | cons chunk chunks ih =>
    rw [List.forall_mem_cons] at h
    obtain ⟨⟨value, hvalue, hrange⟩, h⟩ := h
    obtain ⟨values, hread, hmap, hlength, hvalues⟩ := ih h (index + 1)
    have hmask : (Golden.mask32 : ℤ) = 2 ^ 32 - 1 := rfl
    refine ⟨value :: values, ?_, ?_, congrArg (· + 1) hlength,
      List.forall_mem_cons.mpr ⟨hrange, hvalues⟩⟩
    · rw [readTexts, hvalue]
      simp only
      rw [if_neg (by omega), hread]
      rfl
    · rw [List.mapM_cons, hvalue, hmap]
      rfl

/-- Texts that are read fail only for what they stand for. -/
theorem faulty_decodeTexts {chunks : List String} {target : Golden.Target}
    (hlength : chunks.length = target.controlWordChunks) (h : ∀ chunk ∈ chunks, Readable chunk) :
    Faulty (decodeTexts chunks target) := by
  obtain ⟨values, hread, -, hsame, hvalues⟩ := readTexts_eq_ok h 0
  obtain ⟨word, hword⟩ := assemble_in_range hvalues 0 0
  rw [decodeTexts, if_neg (not_not.mpr hlength), hread]
  change Faulty (Golden.decodeControlChunks values target)
  rw [Golden.decodeControlChunks, if_neg (not_not.mpr (hsame.trans hlength)), hword]
  intro e he
  simp only [Except.bind, bind] at he
  split at he
  · exact .inl (Except.error.inj he).symm
  · exact faulty_decodeWord word target e he

/-! ## The way through the codec -/

/-- The word of four numbers. -/
theorem exists_chunkList {values : List ℤ} (hlength : values.length = 4)
    (h : ∀ value ∈ values, 0 ≤ value ∧ value < 2 ^ 32) :
    ∃ encoded, Golden.chunkList encoded = values := by
  obtain ⟨a, b, c, d, rfl⟩ := List.length_eq_four.mp hlength
  simp only [List.forall_mem_cons] at h
  obtain ⟨ha, hb, hc, hd, -⟩ := h
  have hword : ∀ value : ℤ, 0 ≤ value ∧ value < 2 ^ 32 →
      ((BitVec.ofNat 32 value.toNat).toNat : ℤ) = value := by
    intro value hvalue
    rw [BitVec.toNat_ofNat, Nat.mod_eq_of_lt (by omega)]
    omega
  refine ⟨⟨![BitVec.ofNat 32 a.toNat, BitVec.ofNat 32 b.toNat, BitVec.ofNat 32 c.toNat,
    BitVec.ofNat 32 d.toNat]⟩, ?_⟩
  rw [Golden.chunkList]
  exact congrArg₂ List.cons (hword a ha) (congrArg₂ List.cons (hword b hb)
    (congrArg₂ List.cons (hword c hc) (congrArg₂ List.cons (hword d hd) rfl)))

/-- A word without padding whose symbols are all listed. -/
def Listed (encoded : EncodedControl) : Prop :=
  (∀ p, 126 ≤ p → encoded.bits p = false) ∧
    ∀ k : ControlSymbol, ∃ symbol,
      (symbol, BitField.read encoded.bits (symbolSpan k)) ∈ shippedCodec.table k.domain

theorem listed_iff {encoded : EncodedControl} :
    Listed encoded ↔ ∃ control, shippedCodec.decode encoded = .ok control := by
  rw [shippedCodec_valid.loaded.decode_isOk_iff]
  refine and_congr Iff.rfl ⟨fun h field hfield domain hdomain ↦ ?_, fun h k ↦ ?_⟩
  · rcases shippedFields_iff.mp hfield with ⟨k, rfl⟩ | ⟨k, rfl⟩
    · obtain rfl := Option.some.inj hdomain
      obtain ⟨symbol, hsymbol⟩ := h k
      rw [shippedCodec_valid.read_mod shippedCodec_narrow hfield]
      exact List.mem_map.mpr ⟨_, hsymbol, rfl⟩
    · exact absurd hdomain nofun
  · have hfield : k.field ∈ shippedCodec.layout.fields := shippedFields_iff.mpr (.inl ⟨k, rfl⟩)
    have hmem := h k.field hfield k.domain rfl
    rw [shippedCodec_valid.read_mod shippedCodec_narrow hfield] at hmem
    obtain ⟨entry, hentry, hvalue⟩ := List.mem_map.mp hmem
    refine ⟨entry.1, ?_⟩
    rw [← show entry.2 = BitField.read encoded.bits (symbolSpan k) from hvalue]
    exact hentry

section Word

variable {chunks : List String} {encoded : EncodedControl} (hlength : chunks.length = 4)
  (hread : readTexts 0 chunks = .ok (Golden.chunkList encoded))
include hlength hread

theorem decodeTexts_eq : decodeTexts chunks Golden.shippedGoldenTarget
    = Golden.decodeControlChunks (Golden.chunkList encoded) Golden.shippedGoldenTarget := by
  have hcount : chunks.length = Golden.shippedGoldenTarget.controlWordChunks := hlength
  rw [decodeTexts, if_neg (not_not.mpr hcount), hread]
  rfl

/-- Texts decode exactly when they stand for a listed word. -/
theorem decodeTexts_iff :
    (∃ ctrl, decodeTexts chunks Golden.shippedGoldenTarget = .ok ctrl) ↔ Listed encoded := by
  rw [decodeTexts_eq hlength hread, listed_iff]
  constructor
  · rintro ⟨g, hg⟩
    exact ⟨g.toCompiler, Golden.decodeControlChunks_eq_ok_iff.mp hg⟩
  · rintro ⟨control, hcontrol⟩
    refine ⟨Golden.TileControl.ofCompiler control, ?_⟩
    rw [Golden.decodeControlChunks_eq_ok_iff, Golden.toCompiler_ofCompiler, hcontrol]
    exact (shipped_decode_eq_ok_iff.mp hcontrol).1

/-- The texts of a listed word are encoded as its chunks. -/
theorem packAgain_eq_ok (hlisted : Listed encoded) :
    packAgain chunks Golden.shippedGoldenTarget = .ok (Golden.hexChunks encoded) := by
  obtain ⟨g, hg⟩ := (decodeTexts_iff hlength hread).mpr hlisted
  have hg' := hg
  rw [decodeTexts_eq hlength hread, Golden.decodeControlChunks_eq_ok_iff] at hg'
  rw [packAgain, hg]
  exact Golden.encodeControlChunks_eq_ok
    (shipped_encode_eq_ok_iff.mpr (shipped_decode_eq_ok_iff.mp hg').2)

end Word

/-- A number that is printed is a word in lower case. -/
theorem hexChunk_toNat (w : BitVec 32) : Golden.hexChunk w.toNat = Hex.word w := by
  have hmask : w.toNat &&& Golden.mask32 = w.toNat := by
    have hmask32 : Golden.mask32 = 2 ^ 32 - 1 := rfl
    rw [hmask32, Nat.and_two_pow_sub_one_eq_mod, Nat.mod_eq_of_lt w.isLt]
  have hpad := Hex.pad_toDigits (show w.toNat < 16 ^ (7 + 1) from w.isLt)
  rw [Golden.hexChunk, hmask, Hex.word, ← hpad]
  simp only [String.length_ofList, String.ofList_append, String.append_assoc]

theorem hexChunk_eq_iff {chunk : String} {w : BitVec 32}
    (hread : Hex.readInt chunk = some (w.toNat : ℤ)) :
    Golden.hexChunk w.toNat = chunk ↔ Hex.LowerWord chunk := by
  rw [hexChunk_toNat, Hex.lowerWord_iff]
  constructor
  · exact fun h ↦ ⟨w, h.symm⟩
  · rintro ⟨v, rfl⟩
    rw [Hex.readInt_word, Option.some.injEq, Int.natCast_inj] at hread
    rw [BitVec.toNat_inj.mp hread]

/-- Texts are printed as they were exactly when they are in lower case. -/
theorem map_hexChunk_eq_iff {chunks : List String} {words : List (BitVec 32)}
    (hread : chunks.mapM Hex.readInt = some (words.map fun w ↦ (w.toNat : ℤ))) :
    words.map (fun w ↦ Golden.hexChunk w.toNat) = chunks ↔
      ∀ chunk ∈ chunks, Hex.LowerWord chunk := by
  induction chunks generalizing words with
  | nil =>
    have hnil := List.map_eq_nil_iff.mp (Option.some.inj hread).symm
    simp [hnil]
  | cons chunk chunks ih =>
    rw [List.mapM_cons] at hread
    obtain ⟨value, hvalue, hread⟩ := Option.bind_eq_some_iff.mp hread
    obtain ⟨values, hvalues, hread⟩ := Option.bind_eq_some_iff.mp hread
    obtain ⟨w, words, rfl, rfl, rfl⟩ := List.map_eq_cons_iff.mp (Option.some.inj hread).symm
    rw [List.map_cons, List.cons_eq_cons, List.forall_mem_cons, ih hvalues, hexChunk_eq_iff hvalue]

/-! ## Manifests -/

namespace ProgramImage

/-- The control words of an image. -/
def controls (image : ProgramImage) : List ControlImage := image.tiles.flatMap TileImage.control

/-- The texts of an image. -/
def texts (image : ProgramImage) : List String :=
  image.controls.flatMap ControlImage.chunks
    ++ image.tiles.flatMap fun tile ↦
      (tile.constMemory ++ tile.scratchpadPreload).map WordImage.value

end ProgramImage

/-- No tool fails on an image because of how a number is spelled: every text is read, a word is
refused only for what it stands for, and the emitter refuses no word that the decoder takes. -/
structure SpellingHarmless (target : Golden.Target) (image : ProgramImage) : Prop where
  reads : ∀ text ∈ image.texts, Readable text
  decodes : ∀ entry ∈ image.controls, ∀ e, decodeTexts entry.chunks target = .error e → WordFault e
  emits : ∀ entry ∈ image.controls, ∀ context e,
    roundTripChunks entry.chunks target context = .error e →
      ∃ fault, WordFault fault ∧ decodeTexts entry.chunks target = .error fault

/-- The texts are plain, and in lower case where they make up a listed control word. -/
def WellSpelled (image : ProgramImage) : Prop :=
  (∀ text ∈ image.texts, Plain text) ∧ ∀ entry ∈ image.controls, ∀ encoded,
    entry.chunks.mapM Hex.readInt = some (Golden.chunkList encoded) → Listed encoded →
      ∀ chunk ∈ entry.chunks, Hex.LowerWord chunk

theorem roundTripChunks_iff {chunks : List String} {encoded : EncodedControl}
    (hlength : chunks.length = 4) (hread : readTexts 0 chunks = .ok (Golden.chunkList encoded))
    (hvalues : chunks.mapM Hex.readInt = some (Golden.chunkList encoded)) (hlisted : Listed encoded)
    (context : String) :
    (∃ e, roundTripChunks chunks Golden.shippedGoldenTarget context = .error e) ↔
      ¬∀ chunk ∈ chunks, Hex.LowerWord chunk := by
  have hsame : Golden.hexChunks encoded = chunks ↔ ∀ chunk ∈ chunks, Hex.LowerWord chunk :=
    @map_hexChunk_eq_iff chunks
      [encoded.chunks 0, encoded.chunks 1, encoded.chunks 2, encoded.chunks 3] hvalues
  rw [roundTripChunks, packAgain_eq_ok hlength hread hlisted]
  simp only
  by_cases heq : Golden.hexChunks encoded = chunks
  · rw [if_neg (not_not.mpr heq)]
    refine ⟨fun ⟨_, h⟩ ↦ absurd h nofun, fun h ↦ absurd (hsame.mp heq) h⟩
  · rw [if_pos heq]
    exact ⟨fun _ h ↦ heq (hsame.mpr h), fun _ ↦ ⟨_, rfl⟩⟩

/-- The spelling of a validated image is harmless exactly when it is the right one. -/
theorem spellingHarmless_iff {image : ProgramImage}
    (hhex : ∀ text ∈ image.texts, isHex32 (some (.str text)) = true)
    (hlength : ∀ entry ∈ image.controls, entry.chunks.length = 4) :
    SpellingHarmless Golden.shippedGoldenTarget image ↔ WellSpelled image := by
  have hchunk : ∀ entry ∈ image.controls, ∀ chunk ∈ entry.chunks, chunk ∈ image.texts := by
    intro entry hentry chunk hchunk
    exact List.mem_append_left _ (List.mem_flatMap.mpr ⟨entry, hentry, hchunk⟩)
  have hword : (∀ text ∈ image.texts, Readable text) → ∀ entry ∈ image.controls, ∃ encoded,
      readTexts 0 entry.chunks = .ok (Golden.chunkList encoded) ∧
        entry.chunks.mapM Hex.readInt = some (Golden.chunkList encoded) := by
    intro hreads entry hentry
    obtain ⟨values, hread, hmap, hcount, hrange⟩ :=
      readTexts_eq_ok (fun chunk h ↦ hreads chunk (hchunk entry hentry chunk h)) 0
    obtain ⟨encoded, rfl⟩ := exists_chunkList (hcount.trans (hlength entry hentry)) hrange
    exact ⟨encoded, hread, hmap⟩
  constructor
  · rintro ⟨hreads, -, hemits⟩
    refine ⟨fun text h ↦ (readable_iff (hhex text h)).mp (hreads text h),
      fun entry hentry encoded hvalues hlisted ↦ ?_⟩
    obtain ⟨word, hread, hmap⟩ := hword hreads entry hentry
    rw [hmap] at hvalues
    rw [Option.some.inj hvalues] at hread hmap
    by_contra hnot
    obtain ⟨e, he⟩ :=
      (roundTripChunks_iff (hlength entry hentry) hread hmap hlisted "").mpr hnot
    obtain ⟨fault, -, hfault⟩ := hemits entry hentry "" e he
    obtain ⟨ctrl, hctrl⟩ := (decodeTexts_iff (hlength entry hentry) hread).mpr hlisted
    exact absurd (hfault.symm.trans hctrl) nofun
  · rintro ⟨hplain, hlower⟩
    have hreads : ∀ text ∈ image.texts, Readable text :=
      fun text h ↦ (readable_iff (hhex text h)).mpr (hplain text h)
    have hfaulty : ∀ entry ∈ image.controls,
        Faulty (decodeTexts entry.chunks Golden.shippedGoldenTarget) := fun entry hentry ↦
      faulty_decodeTexts (hlength entry hentry)
        fun chunk h ↦ hreads chunk (hchunk entry hentry chunk h)
    refine ⟨hreads, hfaulty, fun entry hentry context e he ↦ ?_⟩
    obtain ⟨encoded, hread, hmap⟩ := hword hreads entry hentry
    by_cases hlisted : Listed encoded
    · have hnot := (roundTripChunks_iff (hlength entry hentry) hread hmap hlisted context).mp
        ⟨e, he⟩
      exact absurd (hlower entry hentry encoded hmap hlisted) hnot
    · rw [← decodeTexts_iff (hlength entry hentry) hread] at hlisted
      rcases hdecode : decodeTexts entry.chunks Golden.shippedGoldenTarget with fault | ctrl
      · exact ⟨fault, hfaulty entry hentry fault hdecode, rfl⟩
      · exact absurd ⟨ctrl, hdecode⟩ hlisted

section Accepted

variable {files : String → Option Json} {manifest contract params : Json} {limits : Limits}
  {rows cols scratchDepth : ℤ} {image : ProgramImage}
  (accepted : Accepted files manifest contract params limits rows cols scratchDepth image)
include accepted

theorem texts_hex : ∀ text ∈ image.texts, isHex32 (some (.str text)) = true := by
  intro text htext
  rcases List.mem_append.mp htext with htext | htext
  · obtain ⟨entry, hentry, hchunk⟩ := List.mem_flatMap.mp htext
    obtain ⟨tile, htile, hentry⟩ := List.mem_flatMap.mp hentry
    exact ((accepted.valid.tiles tile htile).control entry hentry).chunks_hex text hchunk
  · obtain ⟨tile, htile, htext⟩ := List.mem_flatMap.mp htext
    obtain ⟨entry, hentry, rfl⟩ := List.mem_map.mp htext
    have hvalid := accepted.valid.tiles tile htile
    rcases List.mem_append.mp hentry with hentry | hentry
    · exact (hvalid.constMemory entry hentry).value_hex
    · exact (hvalid.scratchpad entry hentry).value_hex

theorem chunks_length {target : Golden.Target} (hgolden : goldenTarget contract = some target) :
    ∀ entry ∈ image.controls, entry.chunks.length = target.controlWordChunks := by
  intro entry hentry
  obtain ⟨tile, htile, hentry⟩ := List.mem_flatMap.mp hentry
  have hcount := ((accepted.valid.tiles tile htile).control entry hentry).chunks_length
  rw [chunksPerControl_eq accepted hgolden] at hcount
  exact Int.natCast_inj.mp hcount

end Accepted

/-- **When the validator's words are words.** A text passes for a word that it is not exactly when
it is lenient, and the tools that read an accepted manifest for a contract with the fields and
widths of the shipped ones fail on no spelling exactly when its texts are well spelled. -/
theorem hex_grammar_iff (text : String) (files : String → Option Json) (manifest contract : Json)
    (image : ProgramImage) :
    ((isHex32 (some (.str text)) = true ↔ HexWord text) ↔ ¬Lenient text) ∧
    (validateProgram files manifest = .ok [] → targetFor files manifest = .ok contract →
      goldenTarget contract = some Golden.shippedGoldenTarget → readProgram manifest = some image →
        (SpellingHarmless Golden.shippedGoldenTarget image ↔ WellSpelled image)) := by
  refine ⟨isHex32_exact_iff, fun h hfor hgolden hread ↦ ?_⟩
  obtain ⟨contract', params, limits, rows, cols, scratchDepth, image', accepted⟩ := exists_image h
  obtain rfl := Except.ok.inj (hfor.symm.trans (targetFor_eq_ok accepted))
  obtain rfl := Option.some.inj (hread.symm.trans accepted.read)
  exact spellingHarmless_iff (texts_hex accepted) (chunks_length accepted hgolden)

/-- The grammar for a small manifest. -/
theorem small_hex_grammar :
    validateProgram repositoryFiles (smallManifest [] "0x00000002" "0x0000002A") = .ok [] ∧
    ∃ image, readProgram (smallManifest [] "0x00000002" "0x0000002A") = some image ∧
      image.texts.length = 5 ∧
      (SpellingHarmless Golden.shippedGoldenTarget image ↔ WellSpelled image) := by
  have haccepted : validateProgram repositoryFiles
      (smallManifest [] "0x00000002" "0x0000002A") = .ok [] := by decide
  exact ⟨haccepted, _, rfl, rfl, (hex_grammar_iff "0x0000002A" _ _ _ _).2 haccepted rfl rfl rfl⟩

/-- A text with a sign passes for a word, and is not read when its radix stands in front. -/
theorem signed_text_passes : isHex32 (some (.str "0x+1234567")) = true ∧ ¬HexWord "0x+1234567" ∧
    Hex.readInt "0x+1234567" = none ∧
    validateProgram repositoryFiles (smallManifest [] "0x00000002" "0x+1234567") = .ok [] := by
  refine ⟨by decide, ?_, by decide, by decide⟩
  rintro ⟨l, htext, -, hdigits⟩
  have hl : l = "+1234567".toList := (List.cons.inj (List.cons.inj htext).2).2.symm
  have hsign : '+' ∈ l := by
    rw [hl]
    decide
  exact absurd (hdigits '+' hsign) (by decide)

end PredicatedMesh
