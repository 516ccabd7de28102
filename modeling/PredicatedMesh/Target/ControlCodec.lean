import PredicatedMesh.Target.ControlFields
import PredicatedMesh.Target.ControlWord

/-!
# The control codec is a bijection

The layout is data, so what the codec can promise is what the loader checks. The first half of this
module collects that: tables number their symbols injectively, and the fields tile the raw bits of
the word.

On such a layout both directions of the codec compute the same relation. A control *agrees* with a
word when every field contributes exactly the number its span holds; encoding finds the one
unpadded word that agrees with a control, decoding the one control that agrees with an unpadded
word, and the two round trips are immediate.

## The width of an enumerated field

Decoding looks a symbol up through a parameter of 32 bits, while fields may have up to 64. A wider
enumerated field is therefore decoded modulo `2 ^ 32`, and a number that is in no table can pass
for one that is. The theorem is an equivalence: the codec keeps its promises exactly when no
enumerated field is that wide.
-/

namespace PredicatedMesh

open BitField

variable {control control' : TileControl}

/-! ## What loading establishes -/

/-- The tables a loaded contract has. -/
structure ValidTables (encodings : EncodingTables) : Prop where
  nonempty : ∀ table ∈ encodings, table.2 ≠ []
  symbols : ∀ table ∈ encodings, (table.2.map Prod.fst).Nodup
  values : ∀ table ∈ encodings, (table.2.map Prod.snd).Nodup
  lt : ∀ table ∈ encodings, ∀ entry ∈ table.2, entry.2 < 2 ^ 32

/-- The layouts a loaded contract has: the fields tile the raw bits, and the padding the rest. -/
structure ValidLayout (encodings : EncodingTables) (layout : ControlLayout) : Prop where
  rawWidth_le : layout.rawWidth ≤ 128
  paddingLsb : layout.paddingLsb = layout.rawWidth
  paddingWidth : layout.paddingWidth = 128 - layout.rawWidth
  paddingValue : layout.paddingValue = 0
  names : (layout.fields.map ControlField.name).Nodup
  bounded : ∀ field ∈ layout.fields, field.lsb + field.width ≤ layout.rawWidth
  disjoint : layout.fields.Pairwise fun a b ↦ a.span.Disjoint b.span
  covered : ∀ p < layout.rawWidth, ∃ field ∈ layout.fields, field.span.Covers p
  tables : ∀ field ∈ layout.fields, ∀ domain, field.encoding = some domain →
    ∃ table ∈ encodings, encodings.find? (fun entry ↦ entry.1 == domain) = some table ∧
      ∀ entry ∈ table.2, field.width < 64 → entry.2 < 2 ^ field.width

namespace ControlCodec

theorem failIf_eq_ok {condition : Bool} {context message : String} {u : Unit} :
    failIf condition context message = .ok u ↔ condition = false := by
  cases condition <;> simp [failIf, fail]

theorem loadEntries_eq_ok {domain : String} {entries : List (String × ℤ)}
    {loaded : List (String × ℕ)} {seen : List ℕ}
    (h : loadEntries domain seen entries = .ok loaded) :
    loaded.map Prod.fst = entries.map Prod.fst ∧ (loaded.map Prod.snd).Nodup ∧
      ∀ entry ∈ loaded, entry.2 < 2 ^ 32 ∧ entry.2 ∉ seen := by
  induction entries generalizing seen loaded with
  | nil =>
    rw [loadEntries] at h
    obtain rfl := Except.ok.inj h
    simp
  | cons entry entries ih =>
    obtain ⟨name, signedValue⟩ := entry
    rw [loadEntries] at h
    obtain ⟨_, hfit, h⟩ := Scan.bind_eq_ok.mp h
    obtain ⟨_, hnew, h⟩ := Scan.bind_eq_ok.mp h
    obtain ⟨rest, hrest, h⟩ := Scan.bind_eq_ok.mp h
    obtain rfl := Except.ok.inj h
    rw [failIf_eq_ok, decide_eq_false_iff_not, not_or, not_lt, not_lt] at hfit
    rw [failIf_eq_ok, List.contains_eq_mem, decide_eq_false_iff_not] at hnew
    obtain ⟨hnames, hnodup, hlt⟩ := ih hrest
    refine ⟨by simp [hnames], ?_, ?_⟩
    · rw [List.map_cons, List.nodup_cons]
      refine ⟨fun hmem ↦ ?_, hnodup⟩
      obtain ⟨other, hother, heq⟩ := List.mem_map.mp hmem
      exact (hlt other hother).2 (heq ▸ List.mem_cons_self)
    · intro e he
      rcases List.mem_cons.mp he with rfl | he
      · refine ⟨?_, hnew⟩
        have hval : (signedValue.toNat : ℤ) = signedValue := Int.toNat_of_nonneg hfit.1
        have hle := hfit.2
        show signedValue.toNat < 2 ^ 32
        omega
      · exact ⟨(hlt e he).1, fun hs ↦ (hlt e he).2 (List.mem_cons_of_mem _ hs)⟩

theorem loadEncodings_valid {encodings : JsonObject (JsonObject ℤ)} {tables : EncodingTables}
    (h : loadEncodings encodings = .ok tables) : ValidTables tables := by
  -- every table comes from one object of the section
  have hsource : ∀ table ∈ tables, ∃ domain ∈ encodings.entries,
      domain.2.entries ≠ [] ∧ loadEntries domain.1 [] domain.2.entries = .ok table.2 := by
    intro table htable
    obtain ⟨domain, hdomain, hload⟩ := Scan.exists_source_of_mem h htable
    rw [loadDomain] at hload
    obtain ⟨_, hne, hload⟩ := Scan.bind_eq_ok.mp hload
    obtain ⟨entries, hentries, hload⟩ := Scan.bind_eq_ok.mp hload
    obtain rfl := Except.ok.inj hload
    rw [failIf_eq_ok, List.isEmpty_eq_false_iff] at hne
    exact ⟨domain, hdomain, hne, hentries⟩
  constructor
  · intro table htable hnil
    obtain ⟨domain, -, hne, hload⟩ := hsource table htable
    have hnames := (loadEntries_eq_ok hload).1
    rw [hnil] at hnames
    exact hne (List.map_eq_nil_iff.mp hnames.symm)
  · intro table htable
    obtain ⟨domain, -, -, hload⟩ := hsource table htable
    rw [(loadEntries_eq_ok hload).1]
    exact domain.2.nodup
  · intro table htable
    obtain ⟨domain, -, -, hload⟩ := hsource table htable
    exact (loadEntries_eq_ok hload).2.1
  · intro table htable entry hentry
    obtain ⟨domain, -, -, hload⟩ := hsource table htable
    exact ((loadEntries_eq_ok hload).2.2 entry hentry).1

theorem coverBits_eq_ok {context : String} {bits : List ℕ} {covered covered' : List Bool}
    (hin : ∀ b ∈ bits, b < covered.length) (h : coverBits context bits covered = .ok covered') :
    covered'.length = covered.length ∧ (∀ b ∈ bits, covered[b]?.getD false = false) ∧
      ∀ p, covered'[p]?.getD false = true ↔ covered[p]?.getD false = true ∨ p ∈ bits := by
  induction bits generalizing covered with
  | nil =>
    rw [coverBits] at h
    obtain rfl := Except.ok.inj h
    simp
  | cons bit bits ih =>
    rw [coverBits] at h
    obtain ⟨_, hfree, h⟩ := Scan.bind_eq_ok.mp h
    rw [failIf_eq_ok] at hfree
    have hbit : bit < covered.length := hin bit List.mem_cons_self
    have hset : ∀ p, (covered.set bit true)[p]?.getD false = true ↔
        covered[p]?.getD false = true ∨ p = bit := by
      intro p
      rw [List.getElem?_set]
      by_cases hp : bit = p
      · subst hp
        simp [hbit]
      · simp [hp, Ne.symm hp]
    obtain ⟨hlen, hclear, hcov⟩ :=
      ih (fun b hb ↦ by simpa using hin b (List.mem_cons_of_mem _ hb)) h
    refine ⟨by simpa using hlen, ?_, ?_⟩
    · intro b hb
      rcases List.mem_cons.mp hb with rfl | hb
      · exact hfree
      · by_contra htrue
        have hlater := hclear b hb
        rw [Bool.not_eq_false] at htrue
        rw [(hset b).mpr (.inl htrue)] at hlater
        cases hlater
    · intro p
      rw [hcov, hset, List.mem_cons, or_assoc]

/-- What the loop over the fields keeps. -/
structure LayoutInv (encodings : EncodingTables) (rawWidth : ℕ) (state : LayoutState) : Prop where
  length : state.covered.length = rawWidth
  covered : ∀ p, state.covered[p]?.getD false = true ↔
    ∃ field ∈ state.fields, field.span.Covers p
  names : (state.fields.map ControlField.name).Nodup
  bounded : ∀ field ∈ state.fields, field.lsb + field.width ≤ rawWidth
  disjoint : state.fields.Pairwise fun a b ↦ a.span.Disjoint b.span
  tables : ∀ field ∈ state.fields, ∀ domain, field.encoding = some domain →
    ∃ table ∈ encodings, encodings.find? (fun entry ↦ entry.1 == domain) = some table ∧
      ∀ entry ∈ table.2, field.width < 64 → entry.2 < 2 ^ field.width

theorem checkFieldEncoding_eq_ok {encodings : EncodingTables} {context : String}
    {field : ControlField} {u : Unit} (h : checkFieldEncoding encodings context field = .ok u)
    {domain : String} (hdomain : field.encoding = some domain) :
    ∃ table ∈ encodings, encodings.find? (fun entry ↦ entry.1 == domain) = some table ∧
      ∀ entry ∈ table.2, field.width < 64 → entry.2 < 2 ^ field.width := by
  rw [checkFieldEncoding, hdomain] at h
  simp only at h
  split at h
  · cases h
  · rename_i table htable
    refine ⟨table, List.mem_of_find?_eq_some htable, htable, fun entry hentry hwidth ↦ ?_⟩
    have hfit := Scan.exists_ok_of_forM h entry hentry
    rw [failIf_eq_ok, decide_eq_false_iff_not] at hfit
    have hpos : 0 < 2 ^ field.width := Nat.two_pow_pos _
    omega

theorem loadField_inv {encodings : EncodingTables} {rawWidth : ℕ} {state state' : LayoutState}
    {entry : ControlField × ℕ} (hinv : LayoutInv encodings rawWidth state)
    (h : loadField encodings rawWidth state entry = .ok state') :
    LayoutInv encodings rawWidth state' := by
  obtain ⟨field, index⟩ := entry
  rw [loadField] at h
  obtain ⟨_, hpos, h⟩ := Scan.bind_eq_ok.mp h
  obtain ⟨_, -, h⟩ := Scan.bind_eq_ok.mp h
  obtain ⟨_, hin, h⟩ := Scan.bind_eq_ok.mp h
  obtain ⟨_, hnew, h⟩ := Scan.bind_eq_ok.mp h
  obtain ⟨covered, hcover, h⟩ := Scan.bind_eq_ok.mp h
  obtain ⟨_, htable, h⟩ := Scan.bind_eq_ok.mp h
  obtain rfl := Except.ok.inj h
  rw [failIf_eq_ok, decide_eq_false_iff_not, not_or, not_lt, not_lt] at hin
  rw [failIf_eq_ok, List.any_eq_false] at hnew
  have hle : field.lsb + field.width ≤ rawWidth := by
    have := hin.1
    have := hin.2
    simp only at *
    omega
  have hmem : ∀ p, p ∈ List.range' field.lsb field.width ↔ field.span.Covers p := by
    intro p
    rw [List.mem_range'_1]
    rfl
  obtain ⟨hlen, hclear, hcov⟩ := coverBits_eq_ok
    (fun b hb ↦ hinv.length.symm ▸ lt_of_lt_of_le ((hmem b).mp hb).2 hle) hcover
  constructor
  · exact hlen.trans hinv.length
  · intro p
    rw [hcov, hinv.covered, hmem]
    simp [or_and_right, exists_or]
  · rw [List.map_append, List.nodup_append]
    refine ⟨hinv.names, by simp, ?_⟩
    intro name hname other hother heq
    obtain ⟨f, hf, rfl⟩ := List.mem_map.mp hname
    have hother' : other = field.name := by simpa using hother
    exact hnew f hf (by simp [heq, hother'])
  · intro f hf
    rcases List.mem_append.mp hf with hf | hf
    · exact hinv.bounded f hf
    · rw [List.mem_singleton.mp hf]
      exact hle
  · rw [List.pairwise_append]
    refine ⟨hinv.disjoint, List.pairwise_singleton _ _, ?_⟩
    intro f hf g hg p hfp hgp
    rw [List.mem_singleton.mp hg] at hgp
    have hfree := hclear p ((hmem p).mpr hgp)
    rw [(hinv.covered p).mpr ⟨f, hf, hfp⟩] at hfree
    cases hfree
  · intro f hf
    rcases List.mem_append.mp hf with hf | hf
    · exact hinv.tables f hf
    · rw [List.mem_singleton.mp hf]
      exact fun domain hdomain ↦ checkFieldEncoding_eq_ok htable hdomain

/-- **The loader's checks on a layout.** -/
theorem loadLayout_valid {encodings : EncodingTables} {layout loaded : ControlLayout}
    (h : loadLayout encodings layout = .ok loaded) : ValidLayout encodings loaded := by
  rw [loadLayout] at h
  obtain ⟨_, -, h⟩ := Scan.bind_eq_ok.mp h
  obtain ⟨_, -, h⟩ := Scan.bind_eq_ok.mp h
  obtain ⟨_, -, h⟩ := Scan.bind_eq_ok.mp h
  obtain ⟨_, -, h⟩ := Scan.bind_eq_ok.mp h
  obtain ⟨_, hraw, h⟩ := Scan.bind_eq_ok.mp h
  obtain ⟨_, hchunks, h⟩ := Scan.bind_eq_ok.mp h
  obtain ⟨_, hphysical, h⟩ := Scan.bind_eq_ok.mp h
  obtain ⟨_, -, h⟩ := Scan.bind_eq_ok.mp h
  obtain ⟨_, hpadding, h⟩ := Scan.bind_eq_ok.mp h
  obtain ⟨_, hvalue, h⟩ := Scan.bind_eq_ok.mp h
  obtain ⟨_, -, h⟩ := Scan.bind_eq_ok.mp h
  obtain ⟨state, hstate, h⟩ := Scan.bind_eq_ok.mp h
  obtain ⟨_, hfull, h⟩ := Scan.bind_eq_ok.mp h
  obtain rfl := Except.ok.inj h
  rw [failIf_eq_ok] at hraw hchunks hphysical hpadding hvalue hfull
  simp only [decide_eq_false_iff_not, not_lt, Bool.or_eq_false_iff, bne_eq_false_iff_eq]
    at hraw hchunks hphysical hpadding hvalue
  rw [hchunks.1, hchunks.2] at hphysical
  have hinit : LayoutInv encodings layout.rawWidth
      ⟨List.replicate layout.rawWidth false, []⟩ := by
    constructor <;> simp [List.getElem?_replicate]
    intro p
    split <;> simp
  have hinv := Scan.foldlM_invariant (fun _ _ _ _ ↦ loadField_inv) hinit hstate
  constructor
  · show layout.rawWidth ≤ 128
    omega
  · exact hpadding.1
  · rw [hpadding.2, ← hphysical]
  · exact hvalue
  · exact hinv.names
  · exact hinv.bounded
  · exact hinv.disjoint
  · intro p hp
    apply (hinv.covered p).mp
    have hlt : p < state.covered.length := hinv.length ▸ hp
    rw [List.contains_eq_mem, decide_eq_false_iff_not] at hfull
    rw [List.getElem?_eq_getElem hlt, Option.getD_some]
    by_contra hfalse
    rw [Bool.not_eq_true] at hfalse
    exact hfull (hfalse ▸ List.getElem_mem hlt)
  · exact hinv.tables

end ControlCodec

/-! ## Layouts that list the fields of a control -/

/-- The layout lists exactly the fields of a control: the symbolic ones with a domain, the others
without. -/
structure ListsTileControl (layout : ControlLayout) : Prop where
  integers : ∀ k : ControlInteger, ∃ field ∈ layout.fields, field.name = k.name ∧
    field.encoding = none
  symbols : ∀ k : ControlSymbol, ∃ field ∈ layout.fields, field.name = k.name ∧
    field.encoding.isSome
  only : ∀ field ∈ layout.fields, (∃ k : ControlInteger, field.name = k.name) ∨
    ∃ k : ControlSymbol, field.name = k.name

/-- Flags are one bit wide, addresses fit an `unsigned`, and no run of bits exceeds 64. -/
structure SupportedWidths (layout : ControlLayout) : Prop where
  flags : ∀ field ∈ layout.fields, ∀ k : ControlFlag, field.name = k.name → field.width = 1
  numbers : ∀ field ∈ layout.fields, ∀ k : ControlNumber, field.name = k.name → field.width ≤ 32
  fields : ∀ field ∈ layout.fields, field.width ≤ 64
  padding : layout.paddingWidth ≤ 64

namespace ControlCodec

variable (codec : ControlCodec)

/-- The entries of a domain. -/
def table (domain : String) : List (String × ℕ) :=
  ((codec.encodings.find? fun entry ↦ entry.1 == domain).map Prod.snd).getD []

/-- The codec is a bijection between the controls it encodes and the words it decodes, and it fails
for no other reasons than those listed. -/
structure Bijective : Prop where
  decode_encode : ∀ control : TileControl, control.Shaped → ∀ encoded,
    codec.encode control = .ok encoded → codec.decode encoded = .ok control
  encode_decode : ∀ encoded control, codec.decode encoded = .ok control →
    codec.encode control = .ok encoded
  /-- A symbol outside its table, or a number that does not fit. -/
  encode_fails : ∀ control : TileControl, control.Shaped →
    ((∃ e, codec.encode control = .error e) ↔
      (∃ field ∈ codec.layout.fields, ∃ k : ControlSymbol, field.name = k.name ∧
        ∃ domain, field.encoding = some domain ∧
          k.get control ∉ (codec.table domain).map Prod.fst) ∨
      ∃ field ∈ codec.layout.fields, ∃ k : ControlInteger, field.name = k.name ∧
        2 ^ field.width ≤ k.get control)
  /-- A padding bit, or a number outside its table. -/
  decode_fails : ∀ encoded : EncodedControl,
    ((∃ e, codec.decode encoded = .error e) ↔
      (∃ p, codec.layout.rawWidth ≤ p ∧ p < 128 ∧ encoded.bits p = true) ∨
      ∃ field ∈ codec.layout.fields, ∃ domain, field.encoding = some domain ∧
        read encoded.bits field.span ∉ (codec.table domain).map Prod.snd)

end ControlCodec

/-- A codec as loaded, for a layout of the fields of a control. -/
structure ValidCodec (codec : ControlCodec) : Prop where
  tables : ValidTables codec.encodings
  layout : ValidLayout codec.encodings codec.layout
  lists : ListsTileControl codec.layout
  widths : SupportedWidths codec.layout

/-- A codec whose sections the loader accepts, for a layout that names fields of a control: the
symbolic ones with a domain, the others without. -/
structure LoadedCodec (codec : ControlCodec) : Prop where
  tables : ValidTables codec.encodings
  layout : ValidLayout codec.encodings codec.layout
  known : ∀ {field : ControlField}, field ∈ codec.layout.fields →
    (∃ k : ControlInteger, field.name = k.name ∧ field.encoding = none) ∨
      ∃ k : ControlSymbol, ∃ domain, field.name = k.name ∧ field.encoding = some domain

namespace LoadedCodec

variable {codec : ControlCodec} (loaded : LoadedCodec codec) {field : ControlField}
include loaded

/-- The table of a symbolic field. -/
theorem table_of_field (hfield : field ∈ codec.layout.fields) {domain : String}
    (hdomain : field.encoding = some domain) :
    ∃ entries, codec.encodings.find? (fun entry ↦ entry.1 == domain) = some entries ∧
      codec.table domain = entries.2 ∧ entries.2 ≠ [] ∧ (entries.2.map Prod.fst).Nodup ∧
      (entries.2.map Prod.snd).Nodup ∧
      ∀ entry ∈ entries.2, entry.2 < 2 ^ 32 ∧ entry.2 < 2 ^ field.width := by
  obtain ⟨entries, hmem, hfind, hfit⟩ := loaded.layout.tables field hfield domain hdomain
  refine ⟨entries, hfind, by simp [ControlCodec.table, hfind], loaded.tables.nonempty _ hmem,
    loaded.tables.symbols _ hmem, loaded.tables.values _ hmem, fun entry hentry ↦ ?_⟩
  have hlt := loaded.tables.lt _ hmem entry hentry
  refine ⟨hlt, ?_⟩
  by_cases hwidth : field.width < 64
  · exact hfit entry hentry hwidth
  · exact lt_of_lt_of_le hlt (Nat.pow_le_pow_right (by decide) (by omega))

/-! ### Symbols and numbers -/

theorem encodingValue_eq_ok_iff (hfield : field ∈ codec.layout.fields) {domain symbol : String}
    (hdomain : field.encoding = some domain) {v : ℕ} :
    codec.encodingValue domain symbol = .ok v ↔ (symbol, v) ∈ codec.table domain := by
  obtain ⟨entries, hfind, htable, -, hsymbols, -, -⟩ := loaded.table_of_field hfield hdomain
  have hlookup : codec.encodingValue domain symbol =
      (entries.2.find? fun entry ↦ entry.1 == symbol).elim
        (.error ("unknown target encoding " ++ domain ++ "." ++ symbol)) fun entry ↦
          .ok entry.2 := by
    simp only [ControlCodec.encodingValue, hfind]
    cases entries.2.find? fun entry ↦ entry.1 == symbol <;> rfl
  rw [hlookup, Scan.lookup_eq_ok_iff hsymbols, htable]
  constructor
  · rintro ⟨entry, hentry, rfl, rfl⟩
    exact hentry
  · intro hentry
    exact ⟨_, hentry, rfl, rfl⟩

theorem encodingName_eq_ok_iff (hfield : field ∈ codec.layout.fields) {domain symbol : String}
    (hdomain : field.encoding = some domain) {v : ℕ} :
    codec.encodingName domain v = .ok symbol ↔ (symbol, v % 2 ^ 32) ∈ codec.table domain := by
  obtain ⟨entries, hfind, htable, -, -, hvalues, -⟩ := loaded.table_of_field hfield hdomain
  have hlookup : codec.encodingName domain v =
      (entries.2.find? fun entry ↦ entry.2 == v % 2 ^ 32).elim
        (.error ("unknown numeric target encoding " ++ domain ++ "=" ++ toString (v % 2 ^ 32)))
        fun entry ↦ .ok entry.1 := by
    simp only [ControlCodec.encodingName, hfind]
    cases entries.2.find? fun entry ↦ entry.2 == v % 2 ^ 32 <;> rfl
  rw [hlookup, Scan.lookup_eq_ok_iff hvalues, htable]
  constructor
  · rintro ⟨entry, hentry, hval, rfl⟩
    exact hval ▸ hentry
  · intro hentry
    exact ⟨_, hentry, rfl, rfl⟩

omit loaded in
theorem fieldValue_integer {k : ControlInteger} (hname : field.name = k.name)
    (hnone : field.encoding = none) : codec.fieldValue control field = .ok (k.get control) := by
  rw [ControlCodec.fieldValue, hnone, hname]
  simp only [semanticInteger, integerField_name]
  rfl

omit loaded in
theorem fieldValue_symbol {k : ControlSymbol} {domain : String} (hname : field.name = k.name)
    (hdomain : field.encoding = some domain) :
    codec.fieldValue control field = codec.encodingValue domain (k.get control) := by
  rw [ControlCodec.fieldValue, hdomain, hname]
  simp only [semanticEncoding, symbolField_name]
  rfl

/-! ### Encoding -/

/-- The control and the word agree on every field. -/
def Agree (codec : ControlCodec) (control : TileControl) (encoded : EncodedControl) : Prop :=
  ∀ field ∈ codec.layout.fields,
    codec.fieldValue control field = .ok (read encoded.bits field.span)

/-- No bit is set above the raw width. -/
def Unpadded (codec : ControlCodec) (encoded : EncodedControl) : Prop :=
  ∀ p, codec.layout.rawWidth ≤ p → encoded.bits p = false

theorem field_le (hfield : field ∈ codec.layout.fields) : field.lsb + field.width ≤ 128 :=
  (loaded.layout.bounded field hfield).trans loaded.layout.rawWidth_le

/-- The padding check reads zero exactly on unpadded words. -/
theorem padding_eq_ok (encoded : EncodedControl) :
    ∃ padding, encoded.extractBits codec.layout.paddingLsb codec.layout.paddingWidth =
      .ok padding ∧ (padding = 0 ↔ Unpadded codec encoded) := by
  have hraw := loaded.layout.rawWidth_le
  have hlsb := loaded.layout.paddingLsb
  have hwidth := loaded.layout.paddingWidth
  refine ⟨_, EncodedControl.extractBits_eq_ok (by omega), ?_⟩
  rw [read_eq_zero_iff]
  constructor
  · intro h p hp
    by_cases hlt : p < 128
    · apply h
      constructor
      · show codec.layout.paddingLsb ≤ p
        omega
      · show p < codec.layout.paddingLsb + codec.layout.paddingWidth
        omega
    · exact EncodedControl.bits_of_le (not_lt.mp hlt)
  · intro h p hp
    exact h p (hlsb ▸ hp.1)

/-- The number a field contributes, when it has one. -/
def valueOf (codec : ControlCodec) (control : TileControl) (field : ControlField) : ℕ :=
  (codec.fieldValue control field).toOption.getD 0

omit loaded in
theorem valueOf_eq {v : ℕ} (h : codec.fieldValue control field = .ok v) :
    valueOf codec control field = v := by
  rw [valueOf, h]
  rfl

omit loaded in
/-- The insertion of the fields in turn, as one packing. -/
theorem insertFields_eq_ok_iff (codec : ControlCodec) (control : TileControl)
    (encoded encoded' : EncodedControl) {fields : List ControlField}
    (hin : ∀ field ∈ fields, field.lsb + field.width ≤ 128) :
    fields.foldlM (fun encoded field ↦ do
        let value ← codec.fieldValue control field
        encoded.insertBits field.lsb field.width value field.name) encoded = .ok encoded' ↔
      (∀ field ∈ fields, ∃ v, codec.fieldValue control field = .ok v ∧ v < 2 ^ field.width) ∧
        encoded'.bits = pack encoded.bits
          (fields.map fun field ↦ (field.span, valueOf codec control field)) := by
  induction fields generalizing encoded with
  | nil =>
    simp only [List.foldlM_nil, List.map_nil, pack_nil, List.not_mem_nil, false_imp_iff,
      implies_true, true_and]
    constructor
    · intro h
      rw [Except.ok.inj h]
    · intro h
      rw [EncodedControl.ext_bits h]
      rfl
  | cons field fields ih =>
    have hle := hin field List.mem_cons_self
    have hin' := fun f hf ↦ hin f (List.mem_cons_of_mem field hf)
    rw [Scan.foldlM_cons_eq_ok, List.forall_mem_cons, List.map_cons, pack_cons]
    constructor
    · rintro ⟨next, hnext, hrest⟩
      obtain ⟨v, hv, hinsert⟩ := Scan.bind_eq_ok.mp hnext
      have hfit : v < 2 ^ field.width := by
        by_contra hbig
        obtain ⟨e, he⟩ := encoded.insertBits_eq_error field.lsb (not_lt.mp hbig) field.name
        rw [he] at hinsert
        cases hinsert
      obtain ⟨next', hnext', hbits⟩ := encoded.insertBits_eq_ok hle hfit field.name
      rw [hinsert] at hnext'
      obtain rfl := Except.ok.inj hnext'
      obtain ⟨hvalues, hpack⟩ := (ih _ hin').mp hrest
      refine ⟨⟨⟨v, hv, hfit⟩, hvalues⟩, ?_⟩
      rw [hpack, hbits, valueOf_eq hv]
      rfl
    · rintro ⟨⟨⟨v, hv, hfit⟩, hvalues⟩, hpack⟩
      obtain ⟨next, hinsert, hbits⟩ := encoded.insertBits_eq_ok hle hfit field.name
      refine ⟨next, Scan.bind_eq_ok.mpr ⟨v, hv, hinsert⟩, (ih _ hin').mpr ⟨hvalues, ?_⟩⟩
      rw [hpack, hbits, valueOf_eq hv]
      rfl

/-- The word that holds given numbers. -/
def packFields (codec : ControlCodec) (values : ControlField → ℕ) : ℕ → Bool :=
  pack (fun _ ↦ false) (codec.layout.fields.map fun field ↦ (field.span, values field))

theorem packFields_of_le {values : ControlField → ℕ} {p : ℕ} (h : codec.layout.rawWidth ≤ p) :
    packFields codec values p = false := by
  apply pack_of_not_covers
  intro e he hcov
  obtain ⟨field, hfield, rfl⟩ := List.mem_map.mp he
  exact absurd (hcov.2.trans_le (loaded.layout.bounded field hfield)) (not_lt.mpr h)

theorem read_packFields {values : ControlField → ℕ}
    (hfit : ∀ field ∈ codec.layout.fields, values field < 2 ^ field.width)
    (hfield : field ∈ codec.layout.fields) :
    read (packFields codec values) field.span = values field := by
  apply read_pack (e := (field.span, values field))
  · rw [List.pairwise_map]
    exact loaded.layout.disjoint
  · intro e he
    obtain ⟨other, hother, rfl⟩ := List.mem_map.mp he
    exact hfit other hother
  · exact fun _ _ _ _ ↦ rfl
  · exact List.mem_map_of_mem hfield

/-- An unpadded word is the packing of what its fields read. -/
theorem eq_packFields {values : ControlField → ℕ} {encoded : EncodedControl}
    (hread : ∀ field ∈ codec.layout.fields, read encoded.bits field.span = values field)
    (hpad : Unpadded codec encoded) : encoded.bits = packFields codec values := by
  have hfit : ∀ field ∈ codec.layout.fields, values field < 2 ^ field.width := by
    intro field hfield
    rw [← hread field hfield]
    exact read_lt _ field.span
  apply eq_of_read_eq (l := codec.layout.fields.map ControlField.span)
  · intro s hs
    obtain ⟨field, hfield, rfl⟩ := List.mem_map.mp hs
    rw [hread field hfield, loaded.read_packFields hfit hfield]
  · intro p hp
    -- every raw bit belongs to a field
    have hraw : codec.layout.rawWidth ≤ p := by
      by_contra hlt
      obtain ⟨field, hfield, hcov⟩ := loaded.layout.covered p (not_le.mp hlt)
      exact hp _ (List.mem_map_of_mem hfield) hcov
    rw [hpad p hraw, loaded.packFields_of_le hraw]

/-- Every assignment of numbers that fit is held by an unpadded word. -/
theorem exists_word {values : ControlField → ℕ}
    (hfit : ∀ field ∈ codec.layout.fields, values field < 2 ^ field.width) :
    ∃ encoded, Unpadded codec encoded ∧
      ∀ field ∈ codec.layout.fields, read encoded.bits field.span = values field := by
  have hbits : (EncodedControl.ofBits (packFields codec values)).bits =
      packFields codec values := by
    funext p
    by_cases hp : p < 128
    · exact EncodedControl.bits_ofBits hp
    · have hraw : codec.layout.rawWidth ≤ p := loaded.layout.rawWidth_le.trans (not_lt.mp hp)
      rw [EncodedControl.bits_of_le (not_lt.mp hp), loaded.packFields_of_le hraw]
  refine ⟨.ofBits (packFields codec values), ?_, ?_⟩
  · intro p hp
    rw [hbits, loaded.packFields_of_le hp]
  · intro field hfield
    rw [hbits, loaded.read_packFields hfit hfield]

/-- **What encoding computes**: the unpadded word that agrees with the control. -/
theorem encode_eq_ok_iff {encoded : EncodedControl} :
    codec.encode control = .ok encoded ↔
      Agree codec control encoded ∧ Unpadded codec encoded := by
  have hinsert := fun word ↦ insertFields_eq_ok_iff codec control {} word
    fun _ hfield ↦ loaded.field_le hfield
  rw [EncodedControl.bits_default] at hinsert
  rw [ControlCodec.encode, Scan.bind_eq_ok]
  constructor
  · rintro ⟨word, hword, h⟩
    obtain ⟨padding, -, h⟩ := Scan.bind_eq_ok.mp h
    split at h
    · cases h
    · obtain rfl := Except.ok.inj h
      obtain ⟨hvalues, hbits⟩ := (hinsert word).mp hword
      have hfit : ∀ field ∈ codec.layout.fields,
          valueOf codec control field < 2 ^ field.width := by
        intro field hfield
        obtain ⟨v, hv, hlt⟩ := hvalues field hfield
        rw [valueOf_eq hv]
        exact hlt
      constructor
      · intro field hfield
        obtain ⟨v, hv, -⟩ := hvalues field hfield
        rw [hv, hbits, ← valueOf_eq hv]
        exact congrArg _ (loaded.read_packFields hfit hfield).symm
      · intro p hp
        rw [hbits]
        exact loaded.packFields_of_le hp
  · rintro ⟨hagree, hpad⟩
    refine ⟨encoded, (hinsert encoded).mpr ⟨fun field hfield ↦ ?_, ?_⟩, ?_⟩
    · exact ⟨_, hagree field hfield, read_lt _ field.span⟩
    · apply loaded.eq_packFields _ hpad
      intro field hfield
      rw [valueOf_eq (hagree field hfield)]
    · obtain ⟨padding, hpadding, hzero⟩ := loaded.padding_eq_ok encoded
      rw [hpadding, hzero.mpr hpad]
      rfl

/-- Encoding succeeds exactly when every field has a number that fits. -/
theorem encode_isOk_iff : (∃ encoded, codec.encode control = .ok encoded) ↔
    ∀ field ∈ codec.layout.fields,
      ∃ v, codec.fieldValue control field = .ok v ∧ v < 2 ^ field.width := by
  constructor
  · rintro ⟨encoded, h⟩ field hfield
    exact ⟨_, (loaded.encode_eq_ok_iff.mp h).1 field hfield, read_lt _ field.span⟩
  · intro h
    have hfit : ∀ field ∈ codec.layout.fields, valueOf codec control field < 2 ^ field.width := by
      intro field hfield
      obtain ⟨v, hv, hlt⟩ := h field hfield
      rw [valueOf_eq hv]
      exact hlt
    obtain ⟨encoded, hpad, hread⟩ := loaded.exists_word hfit
    refine ⟨encoded, loaded.encode_eq_ok_iff.mpr ⟨fun field hfield ↦ ?_, hpad⟩⟩
    obtain ⟨v, hv, -⟩ := h field hfield
    rw [hread field hfield, valueOf_eq hv, hv]

/-! ### Decoding -/

/-- Assigning a field can only fail for a number its table does not list. -/
theorem setField_isOk_iff (hfield : field ∈ codec.layout.fields) (control : TileControl) (v : ℕ) :
    (∃ next, codec.setField control field v = .ok next) ↔
      ∀ domain, field.encoding = some domain →
        v % 2 ^ 32 ∈ (codec.table domain).map Prod.snd := by
  rcases loaded.known hfield with ⟨k, hname, hnone⟩ | ⟨k, domain, hname, hdomain⟩
  · rw [ControlCodec.setField, hnone, hname]
    simp only [setSemanticInteger, integerField_name, reduceCtorEq, false_imp_iff, implies_true,
      iff_true]
    exact ⟨_, rfl⟩
  · rw [ControlCodec.setField, hdomain, hname]
    simp only [setSemanticEncoding, symbolField_name, Option.some.injEq, forall_eq']
    constructor
    · rintro ⟨next, h⟩
      obtain ⟨symbol, hsymbol, -⟩ := Scan.bind_eq_ok.mp h
      exact List.mem_map.mpr ⟨_, (loaded.encodingName_eq_ok_iff hfield hdomain).mp hsymbol, rfl⟩
    · intro hmem
      obtain ⟨entry, hentry, hval⟩ := List.mem_map.mp hmem
      have hsymbol : codec.encodingName domain v = .ok entry.1 :=
        (loaded.encodingName_eq_ok_iff hfield hdomain).mpr (hval ▸ hentry)
      exact ⟨_, Scan.bind_eq_ok.mpr ⟨entry.1, hsymbol, rfl⟩⟩

/-- **One assignment**: the field takes the number, reduced to 32 bits, and the other fields stay
as they were. -/
theorem setField_spec (hfield : field ∈ codec.layout.fields) (hshape : control.Shaped) {v : ℕ}
    (hflag : ∀ k : ControlFlag, field.name = k.name → v < 2) {next : TileControl}
    (h : codec.setField control field v = .ok next) :
    next.Shaped ∧ codec.fieldValue next field = .ok (v % 2 ^ 32) ∧
      ∀ other ∈ codec.layout.fields, other.name ≠ field.name →
        codec.fieldValue next other = codec.fieldValue control other := by
  rcases loaded.known hfield with ⟨k, hname, hnone⟩ | ⟨k, domain, hname, hdomain⟩
  · rw [ControlCodec.setField, hnone, hname] at h
    simp only [setSemanticInteger, integerField_name] at h
    obtain rfl := Except.ok.inj h
    refine ⟨ControlInteger.shaped_set hshape k v, ?_, ?_⟩
    · rw [fieldValue_integer hname hnone]
      cases k with
      | number k => simp [ControlInteger.set, ControlInteger.get]
      | flag k =>
        have hv := hflag k hname
        have hbit : v = 0 ∨ v = 1 := by omega
        rcases hbit with rfl | rfl <;>
          simp [ControlInteger.set, ControlInteger.get, ControlFlag.get_flag_set hshape]
    · intro other hother hne
      rcases loaded.known hother with ⟨j, hj, hjnone⟩ | ⟨j, domain, hj, hjdomain⟩
      · have hkj : k ≠ j := fun heq ↦ hne (hj.trans (heq ▸ hname.symm))
        rw [fieldValue_integer hj hjnone, fieldValue_integer hj hjnone,
          ControlInteger.get_integer_set_of_ne hshape hkj]
      · rw [fieldValue_symbol hj hjdomain, fieldValue_symbol hj hjdomain,
          ControlSymbol.get_integer_set hshape]
  · rw [ControlCodec.setField, hdomain, hname] at h
    simp only [setSemanticEncoding, symbolField_name] at h
    obtain ⟨symbol, hsymbol, h⟩ := Scan.bind_eq_ok.mp h
    obtain rfl := Except.ok.inj h
    refine ⟨hshape.set_symbol k symbol, ?_, ?_⟩
    · rw [fieldValue_symbol hname hdomain, ControlSymbol.get_symbol_set hshape, if_pos rfl,
        loaded.encodingValue_eq_ok_iff hfield hdomain]
      exact (loaded.encodingName_eq_ok_iff hfield hdomain).mp hsymbol
    · intro other hother hne
      rcases loaded.known hother with ⟨j, hj, hjnone⟩ | ⟨j, domain, hj, hjdomain⟩
      · rw [fieldValue_integer hj hjnone, fieldValue_integer hj hjnone,
          ControlInteger.get_symbol_set hshape]
      · have hkj : k ≠ j := fun heq ↦ hne (hj.trans (heq ▸ hname.symm))
        rw [fieldValue_symbol hj hjdomain, fieldValue_symbol hj hjdomain,
          ControlSymbol.get_symbol_set hshape, if_neg hkj]

/-- The loop of the decoder. -/
def decodeFields (codec : ControlCodec) (encoded : EncodedControl) (control : TileControl)
    (fields : List ControlField) : Except String TileControl :=
  fields.foldlM (fun control field ↦
    codec.setField control field (read encoded.bits field.span)) control

theorem decodeFields_spec {encoded : EncodedControl} {next : TileControl}
    {fields : List ControlField} (hmem : ∀ field ∈ fields, field ∈ codec.layout.fields)
    (hflags : ∀ field ∈ fields, ∀ k : ControlFlag, field.name = k.name →
      read encoded.bits field.span < 2)
    (hnames : (fields.map ControlField.name).Nodup) (hshape : control.Shaped)
    (h : decodeFields codec encoded control fields = .ok next) :
    next.Shaped ∧
      (∀ field ∈ fields,
        codec.fieldValue next field = .ok (read encoded.bits field.span % 2 ^ 32)) ∧
      ∀ other ∈ codec.layout.fields, other.name ∉ fields.map ControlField.name →
        codec.fieldValue next other = codec.fieldValue control other := by
  induction fields generalizing control with
  | nil =>
    obtain rfl := Except.ok.inj h
    exact ⟨hshape, by simp, fun _ _ _ ↦ rfl⟩
  | cons field fields ih =>
    obtain ⟨middle, hfirst, hrest⟩ := Scan.foldlM_cons_eq_ok.mp h
    rw [List.map_cons, List.nodup_cons] at hnames
    obtain ⟨hshape', hvalue, hframe⟩ :=
      loaded.setField_spec (hmem field List.mem_cons_self) hshape
        (hflags field List.mem_cons_self) hfirst
    obtain ⟨hshape'', hvalues, hframe'⟩ :=
      ih (fun f hf ↦ hmem f (List.mem_cons_of_mem _ hf))
        (fun f hf ↦ hflags f (List.mem_cons_of_mem _ hf)) hnames.2 hshape' hrest
    refine ⟨hshape'', ?_, ?_⟩
    · rw [List.forall_mem_cons]
      refine ⟨?_, hvalues⟩
      rw [hframe' field (hmem field List.mem_cons_self) hnames.1, hvalue]
    · intro other hother hnot
      rw [List.map_cons, List.mem_cons, not_or] at hnot
      rw [hframe' other hother hnot.2, hframe other hother hnot.1]

theorem decodeFields_isOk_iff {encoded : EncodedControl} {fields : List ControlField}
    (hmem : ∀ field ∈ fields, field ∈ codec.layout.fields) (control : TileControl) :
    (∃ next, decodeFields codec encoded control fields = .ok next) ↔
      ∀ field ∈ fields, ∀ domain, field.encoding = some domain →
        read encoded.bits field.span % 2 ^ 32 ∈ (codec.table domain).map Prod.snd := by
  induction fields generalizing control with
  | nil => exact ⟨fun _ ↦ by simp, fun _ ↦ ⟨control, rfl⟩⟩
  | cons field fields ih =>
    have hstep := loaded.setField_isOk_iff (hmem field List.mem_cons_self) control
      (read encoded.bits field.span)
    have ih' := ih fun f hf ↦ hmem f (List.mem_cons_of_mem _ hf)
    rw [List.forall_mem_cons, ← hstep]
    constructor
    · rintro ⟨next, h⟩
      obtain ⟨middle, hfirst, hrest⟩ := Scan.foldlM_cons_eq_ok.mp h
      exact ⟨⟨middle, hfirst⟩, (ih' middle).mp ⟨next, hrest⟩⟩
    · rintro ⟨⟨middle, hfirst⟩, hall⟩
      obtain ⟨next, hrest⟩ := (ih' middle).mpr hall
      exact ⟨next, Scan.foldlM_cons_eq_ok.mpr ⟨middle, hfirst, hrest⟩⟩

theorem decode_eq_ok_iff_fields (encoded : EncodedControl) {control : TileControl} :
    codec.decode encoded = .ok control ↔
      Unpadded codec encoded ∧ decodeFields codec encoded {} codec.layout.fields = .ok control := by
  obtain ⟨padding, hpadding, hzero⟩ := loaded.padding_eq_ok encoded
  have hfields : codec.layout.fields.foldlM (fun control field ↦ do
        let value ← encoded.extractBits field.lsb field.width
        codec.setField control field value) {} =
      decodeFields codec encoded {} codec.layout.fields := by
    apply Scan.foldlM_congr
    intro control field hfield
    rw [EncodedControl.extractBits_eq_ok (loaded.field_le hfield)]
    rfl
  rw [ControlCodec.decode, hpadding, hfields, loaded.layout.paddingValue, ← hzero]
  by_cases hpad : padding = 0
  · simp [hpad, bind, Except.bind]
  · simp [hpad, bind, Except.bind]

/-- Decoding succeeds exactly on unpadded words whose enumerated fields are listed *after* their
value is reduced to 32 bits. -/
theorem decode_isOk_iff (encoded : EncodedControl) :
    (∃ control, codec.decode encoded = .ok control) ↔
      Unpadded codec encoded ∧
        ∀ field ∈ codec.layout.fields, ∀ domain, field.encoding = some domain →
          read encoded.bits field.span % 2 ^ 32 ∈ (codec.table domain).map Prod.snd := by
  rw [← loaded.decodeFields_isOk_iff (fun _ h ↦ h) {}]
  simp only [loaded.decode_eq_ok_iff_fields]
  exact exists_and_left

/-- Encoding fails for the listed reasons only. -/
theorem encode_fails_iff (control : TileControl) :
    (∃ e, codec.encode control = .error e) ↔
      (∃ field ∈ codec.layout.fields, ∃ k : ControlSymbol, field.name = k.name ∧
        ∃ domain, field.encoding = some domain ∧
          k.get control ∉ (codec.table domain).map Prod.fst) ∨
      ∃ field ∈ codec.layout.fields, ∃ k : ControlInteger, field.name = k.name ∧
        2 ^ field.width ≤ k.get control := by
  have hnot : (∃ e, codec.encode control = .error e) ↔
      ¬ ∃ encoded, codec.encode control = .ok encoded := by
    cases codec.encode control <;> simp
  rw [hnot, loaded.encode_isOk_iff, not_forall]
  constructor
  · rintro ⟨field, hfield⟩
    rw [Classical.not_imp] at hfield
    obtain ⟨hfield, hvalue⟩ := hfield
    rcases loaded.known hfield with ⟨k, hname, hnone⟩ | ⟨k, domain, hname, hdomain⟩
    · refine .inr ⟨field, hfield, k, hname, ?_⟩
      by_contra hlt
      exact hvalue ⟨_, fieldValue_integer hname hnone, not_le.mp hlt⟩
    · refine .inl ⟨field, hfield, k, hname, domain, hdomain, fun hmem ↦ hvalue ?_⟩
      obtain ⟨entry, hentry, heq⟩ := List.mem_map.mp hmem
      obtain ⟨entries, -, htable, -, -, -, hfit⟩ := loaded.table_of_field hfield hdomain
      refine ⟨entry.2, ?_, (hfit entry (htable ▸ hentry)).2⟩
      rw [fieldValue_symbol hname hdomain, loaded.encodingValue_eq_ok_iff hfield hdomain, ← heq]
      exact hentry
  · rintro (⟨field, hfield, k, hname, domain, hdomain, hnot⟩ | ⟨field, hfield, k, hname, hbig⟩)
    · refine ⟨field, fun h ↦ hnot ?_⟩
      obtain ⟨v, hv, -⟩ := h hfield
      rw [fieldValue_symbol hname hdomain, loaded.encodingValue_eq_ok_iff hfield hdomain] at hv
      exact List.mem_map.mpr ⟨_, hv, rfl⟩
    · refine ⟨field, fun h ↦ ?_⟩
      obtain ⟨v, hv, hlt⟩ := h hfield
      rcases loaded.known hfield with ⟨j, hj, hnone⟩ | ⟨j, _, hj, -⟩
      · have hkj : k = j := ControlInteger.name_injective (hname.symm.trans hj)
        rw [fieldValue_integer hj hnone, ← hkj] at hv
        rw [← Except.ok.inj hv] at hlt
        exact absurd hlt (not_lt.mpr hbig)
      · exact absurd (hname.symm.trans hj) (integer_name_ne_symbol_name k j)

/-- The failures of the decoder, with the reduction its table lookup makes. -/
theorem decode_fails_iff (encoded : EncodedControl) :
    (∃ e, codec.decode encoded = .error e) ↔
      (∃ p, codec.layout.rawWidth ≤ p ∧ p < 128 ∧ encoded.bits p = true) ∨
      ∃ field ∈ codec.layout.fields, ∃ domain, field.encoding = some domain ∧
        read encoded.bits field.span % 2 ^ 32 ∉ (codec.table domain).map Prod.snd := by
  have hnot : (∃ e, codec.decode encoded = .error e) ↔
      ¬ ∃ control, codec.decode encoded = .ok control := by
    cases codec.decode encoded <;> simp
  have hpad : ¬ Unpadded codec encoded ↔
      ∃ p, codec.layout.rawWidth ≤ p ∧ p < 128 ∧ encoded.bits p = true := by
    rw [Unpadded, not_forall]
    constructor
    · rintro ⟨p, hp⟩
      rw [Classical.not_imp, Bool.not_eq_false] at hp
      refine ⟨p, hp.1, ?_, hp.2⟩
      by_contra hle
      rw [EncodedControl.bits_of_le (not_lt.mp hle)] at hp
      cases hp.2
    · rintro ⟨p, hraw, -, hbit⟩
      exact ⟨p, fun h ↦ by rw [h hraw] at hbit; cases hbit⟩
  rw [hnot, loaded.decode_isOk_iff, not_and_or, hpad]
  push Not
  rfl

/-- The word that a field wider than 32 bits lets through. -/
theorem exists_unlisted_word (hfield : field ∈ codec.layout.fields) {domain : String}
    (hdomain : field.encoding = some domain) (hwide : 32 < field.width) :
    ∃ encoded, (∃ control, codec.decode encoded = .ok control) ∧
      read encoded.bits field.span ∉ (codec.table domain).map Prod.snd := by
  -- a listed number for every enumerated field, with bit 32 added in the wide one
  let listed := fun other : ControlField ↦
    ((other.encoding.map codec.table).bind List.head?).elim 0 Prod.snd
  let values := fun other : ControlField ↦
    if other = field then listed other + 2 ^ 32 else listed other
  have hlisted : ∀ other ∈ codec.layout.fields, ∀ domain, other.encoding = some domain →
      listed other ∈ (codec.table domain).map Prod.snd ∧ listed other < 2 ^ 32 ∧
        listed other < 2 ^ other.width := by
    intro other hother domain hdomain
    obtain ⟨entries, -, htable, hne, -, -, hfit⟩ := loaded.table_of_field hother hdomain
    obtain ⟨entry, rest, hentries⟩ := List.exists_cons_of_ne_nil hne
    have hvalue : listed other = entry.2 := by
      simp [listed, hdomain, htable, hentries]
    have hmem : entry ∈ entries.2 := hentries ▸ List.mem_cons_self
    rw [hvalue, htable]
    exact ⟨List.mem_map_of_mem hmem, hfit entry hmem⟩
  have hlt : ∀ other ∈ codec.layout.fields, listed other < 2 ^ other.width := by
    intro other hother
    cases henc : other.encoding with
    | none => simp [listed, henc]
    | some domain => exact (hlisted other hother domain henc).2.2
  have hfit : ∀ other ∈ codec.layout.fields, values other < 2 ^ other.width := by
    intro other hother
    by_cases heq : other = field
    · subst heq
      have hsmall := (hlisted other hother domain hdomain).2.1
      have hpow : 2 ^ 33 ≤ 2 ^ other.width := Nat.pow_le_pow_right (by decide) hwide
      simp only [values, if_true]
      omega
    · simp only [values, if_neg heq]
      exact hlt other hother
  obtain ⟨encoded, hpad, hread⟩ := loaded.exists_word hfit
  refine ⟨encoded, (loaded.decode_isOk_iff encoded).mpr ⟨hpad, ?_⟩, ?_⟩
  · intro other hother domain' hdomain'
    obtain ⟨hmem, hsmall, -⟩ := hlisted other hother domain' hdomain'
    rw [hread other hother]
    have hmod : values other % 2 ^ 32 = listed other := by
      by_cases heq : other = field
      · simp only [values, if_pos heq, Nat.add_mod_right]
        exact Nat.mod_eq_of_lt hsmall
      · simp only [values, if_neg heq]
        exact Nat.mod_eq_of_lt hsmall
    rw [hmod]
    exact hmem
  · rw [hread field hfield]
    intro hmem
    obtain ⟨entry, hentry, hval⟩ := List.mem_map.mp hmem
    obtain ⟨entries, -, htable, -, -, -, hfit⟩ := loaded.table_of_field hfield hdomain
    have hsmall := (hfit entry (htable ▸ hentry)).1
    simp only [values, if_true] at hval
    omega

end LoadedCodec

namespace ValidCodec

open LoadedCodec

variable {codec : ControlCodec} (valid : ValidCodec codec) {field : ControlField}
include valid

/-- A field of the layout is an integer or a symbol of the control. -/
theorem field_cases (hfield : field ∈ codec.layout.fields) :
    (∃ k : ControlInteger, field.name = k.name ∧ field.encoding = none) ∨
      ∃ k : ControlSymbol, ∃ domain, field.name = k.name ∧ field.encoding = some domain := by
  have hsame : ∀ other ∈ codec.layout.fields, other.name = field.name → other = field := by
    intro other hother hname
    exact List.inj_on_of_nodup_map valid.layout.names hother hfield hname
  rcases valid.lists.only field hfield with ⟨k, hk⟩ | ⟨k, hk⟩
  · obtain ⟨other, hother, hname, hnone⟩ := valid.lists.integers k
    obtain rfl := hsame other hother (hname.trans hk.symm)
    exact .inl ⟨k, hk, hnone⟩
  · obtain ⟨other, hother, hname, hsome⟩ := valid.lists.symbols k
    obtain rfl := hsame other hother (hname.trans hk.symm)
    obtain ⟨domain, hdomain⟩ := Option.isSome_iff_exists.mp hsome
    exact .inr ⟨k, domain, hk, hdomain⟩

/-- A listing layout names fields of a control. -/
theorem loaded : LoadedCodec codec := ⟨valid.tables, valid.layout, valid.field_cases⟩

theorem flag_lt {encoded : EncodedControl} : ∀ field ∈ codec.layout.fields, ∀ k : ControlFlag,
    field.name = k.name → read encoded.bits field.span < 2 := by
  intro field hfield k hname
  have hlt := read_lt encoded.bits field.span
  rw [show field.span.width = 1 from valid.widths.flags field hfield k hname] at hlt
  exact hlt

/-- Two controls with the same numbers are the same. -/
theorem control_ext (hshape : control.Shaped) (hshape' : control'.Shaped)
    (hvalue : ∀ field ∈ codec.layout.fields, ∃ v, codec.fieldValue control field = .ok v ∧
      codec.fieldValue control' field = .ok v) : control = control' := by
  have hinteger : ∀ k : ControlInteger, k.get control = k.get control' := by
    intro k
    obtain ⟨field, hfield, hname, hnone⟩ := valid.lists.integers k
    obtain ⟨v, hv, hv'⟩ := hvalue field hfield
    rw [fieldValue_integer hname hnone] at hv hv'
    exact Except.ok.inj (hv.trans hv'.symm)
  apply TileControl.ext_fields hshape hshape'
  · exact fun k ↦ hinteger (.number k)
  · exact fun k ↦ toNat_injective (hinteger (.flag k))
  · intro k
    obtain ⟨field, hfield, hname, hsome⟩ := valid.lists.symbols k
    obtain ⟨domain, hdomain⟩ := Option.isSome_iff_exists.mp hsome
    obtain ⟨v, hv, hv'⟩ := hvalue field hfield
    rw [fieldValue_symbol hname hdomain, valid.loaded.encodingValue_eq_ok_iff hfield hdomain]
      at hv hv'
    obtain ⟨entries, -, htable, -, -, hvalues, -⟩ := valid.loaded.table_of_field hfield hdomain
    rw [htable] at hv hv'
    exact congrArg Prod.fst (List.inj_on_of_nodup_map hvalues hv hv' rfl)

/-! ### The theorem -/

section Narrow

variable (hnarrow : ∀ field ∈ codec.layout.fields, field.encoding.isSome → field.width ≤ 32)
include hnarrow

/-- No field is wider than the codec's 32-bit values. -/
theorem read_mod (hfield : field ∈ codec.layout.fields) (encoded : EncodedControl) :
    read encoded.bits field.span % 2 ^ 32 = read encoded.bits field.span := by
  have hwidth : field.width ≤ 32 := by
    rcases valid.field_cases hfield with ⟨k, hname, -⟩ | ⟨k, domain, hname, hdomain⟩
    · cases k with
      | number k => exact valid.widths.numbers field hfield k hname
      | flag k =>
        rw [valid.widths.flags field hfield k hname]
        decide
    · exact hnarrow field hfield (by rw [hdomain]; rfl)
  apply Nat.mod_eq_of_lt
  exact (read_lt _ field.span).trans_le (Nat.pow_le_pow_right (by decide) hwidth)

/-- **What decoding computes**: the control that agrees with an unpadded word. -/
theorem decode_eq_ok_iff (encoded : EncodedControl) {control : TileControl} :
    codec.decode encoded = .ok control ↔
      control.Shaped ∧ Agree codec control encoded ∧ Unpadded codec encoded := by
  have hforward : ∀ control, codec.decode encoded = .ok control →
      control.Shaped ∧ Agree codec control encoded ∧ Unpadded codec encoded := by
    intro control h
    obtain ⟨hpad, hfields⟩ := (valid.loaded.decode_eq_ok_iff_fields encoded).mp h
    obtain ⟨hshape, hvalues, -⟩ := valid.loaded.decodeFields_spec (fun _ h ↦ h)
      valid.flag_lt valid.layout.names ⟨rfl, rfl⟩ hfields
    refine ⟨hshape, fun field hfield ↦ ?_, hpad⟩
    rw [hvalues field hfield, valid.read_mod hnarrow hfield]
  constructor
  · exact hforward control
  · rintro ⟨hshape, hagree, hpad⟩
    have hlisted : ∀ field ∈ codec.layout.fields, ∀ domain, field.encoding = some domain →
        read encoded.bits field.span % 2 ^ 32 ∈ (codec.table domain).map Prod.snd := by
      intro field hfield domain hdomain
      rw [valid.read_mod hnarrow hfield]
      rcases valid.field_cases hfield with ⟨k, -, hnone⟩ | ⟨k, _, hname, -⟩
      · rw [hnone] at hdomain
        cases hdomain
      · have hvalue := hagree field hfield
        rw [fieldValue_symbol hname hdomain, valid.loaded.encodingValue_eq_ok_iff hfield hdomain]
          at hvalue
        exact List.mem_map.mpr ⟨_, hvalue, rfl⟩
    obtain ⟨decoded, hdecoded⟩ := (valid.loaded.decode_isOk_iff encoded).mpr ⟨hpad, hlisted⟩
    obtain ⟨hshape', hagree', -⟩ := hforward decoded hdecoded
    rw [valid.control_ext hshape hshape' fun field hfield ↦
      ⟨_, hagree field hfield, hagree' field hfield⟩]
    exact hdecoded

end Narrow

end ValidCodec

/-- **The codec of a loaded contract.** It is a bijection onto its image, failing only for the
listed reasons, exactly when no enumerated field is wider than the 32-bit parameter of the reverse
lookup. -/
theorem codec_bijective_iff {encodings : JsonObject (JsonObject ℤ)} {layout : ControlLayout}
    {codec : ControlCodec} (hload : ControlCodec.load encodings layout = .ok codec)
    (hlists : ListsTileControl codec.layout) (hwidths : SupportedWidths codec.layout) :
    codec.Bijective ↔
      ∀ field ∈ codec.layout.fields, field.encoding.isSome → field.width ≤ 32 := by
  obtain ⟨tables, htables, hload⟩ := Scan.bind_eq_ok.mp hload
  obtain ⟨loaded, hlayout, hload⟩ := Scan.bind_eq_ok.mp hload
  obtain rfl := Except.ok.inj hload
  have valid : ValidCodec ⟨tables, loaded⟩ :=
    ⟨ControlCodec.loadEncodings_valid htables, ControlCodec.loadLayout_valid hlayout, hlists,
      hwidths⟩
  constructor
  · intro hbij field hfield hsome
    obtain ⟨domain, hdomain⟩ := Option.isSome_iff_exists.mp hsome
    by_contra hwide
    obtain ⟨encoded, ⟨control, hcontrol⟩, hunlisted⟩ :=
      valid.loaded.exists_unlisted_word hfield hdomain (not_le.mp hwide)
    obtain ⟨e, he⟩ := (hbij.decode_fails encoded).mpr
      (.inr ⟨field, hfield, domain, hdomain, hunlisted⟩)
    rw [hcontrol] at he
    cases he
  · intro hnarrow
    constructor
    · intro control hshape encoded h
      exact (valid.decode_eq_ok_iff hnarrow encoded).mpr
        ⟨hshape, valid.loaded.encode_eq_ok_iff.mp h⟩
    · intro encoded control h
      exact valid.loaded.encode_eq_ok_iff.mpr ((valid.decode_eq_ok_iff hnarrow encoded).mp h).2
    · exact fun control _ ↦ valid.loaded.encode_fails_iff control
    · intro encoded
      rw [valid.loaded.decode_fails_iff]
      apply or_congr_right
      constructor
      · rintro ⟨field, hfield, domain, hdomain, hnot⟩
        rw [valid.read_mod hnarrow hfield] at hnot
        exact ⟨field, hfield, domain, hdomain, hnot⟩
      · rintro ⟨field, hfield, domain, hdomain, hnot⟩
        refine ⟨field, hfield, domain, hdomain, ?_⟩
        rw [valid.read_mod hnarrow hfield]
        exact hnot

end PredicatedMesh
