import PredicatedMesh.Golden.Control
import PredicatedMesh.RTL.ControlPkg
import PredicatedMesh.Target.ShippedControl

/-!
# Three codecs for one control word

The compiler interprets the layout of the contract, the golden model adds widths up, and the
hardware slices a packed record. For the shipped contract the three read every word alike.

The argument goes through one table of positions, `symbolSpan` and `integerSpan`. The compiler's
codec agrees with it because the table lists the fields of the layout; the golden model and the
hardware because every position they compute evaluates to an entry of it.
-/

namespace PredicatedMesh

open BitField

/-! ## Positions of the shipped layout -/

def ControlSymbol.domain : ControlSymbol → String
  | .op => "op"
  | .srcA | .srcB | .dataWrite1Source | .lsuAddrSource | .lsuStoreDataSource => "data_source"
  | .srcP0 | .srcP1 | .predicateWrite1Source | .lsuCommitPredicateSource => "predicate_source"
  | .lsuOp => "lsu_op"
  | .dataRouteSource _ => "route_data_source"
  | .predicateRouteSource _ => "route_predicate_source"

def symbolSpan : ControlSymbol → Span
  | .op => ⟨0, 6⟩
  | .srcA => ⟨6, 4⟩
  | .srcB => ⟨10, 4⟩
  | .srcP0 => ⟨14, 4⟩
  | .srcP1 => ⟨18, 4⟩
  | .dataWrite1Source => ⟨48, 4⟩
  | .predicateWrite1Source => ⟨62, 4⟩
  | .dataRouteSource direction => ⟨66 + 5 * directionIndex direction + 1, 4⟩
  | .predicateRouteSource direction => ⟨86 + 5 * directionIndex direction + 1, 4⟩
  | .lsuOp => ⟨110, 2⟩
  | .lsuAddrSource => ⟨112, 4⟩
  | .lsuStoreDataSource => ⟨116, 4⟩
  | .lsuCommitPredicateSource => ⟨122, 4⟩

def numberSpan : ControlNumber → Span
  | .dataRfReadAddrA => ⟨22, 4⟩
  | .dataRfReadAddrB => ⟨26, 4⟩
  | .predicateRfReadAddrA => ⟨30, 4⟩
  | .predicateRfReadAddrB => ⟨34, 4⟩
  | .dataWrite0Addr => ⟨39, 4⟩
  | .dataWrite1Addr => ⟨44, 4⟩
  | .predicateWrite0Addr => ⟨53, 4⟩
  | .predicateWrite1Addr => ⟨58, 4⟩
  | .constantAddr => ⟨106, 4⟩

def flagBit : ControlFlag → ℕ
  | .dataWrite0Enable => 38
  | .dataWrite1Enable => 43
  | .predicateWrite0Enable => 52
  | .predicateWrite1Enable => 57
  | .dataRouteEnable direction => 66 + 5 * directionIndex direction
  | .predicateRouteEnable direction => 86 + 5 * directionIndex direction
  | .lsuCommitPredicateEnable => 120
  | .lsuCommitPredicateInvert => 121

def integerSpan : ControlInteger → Span
  | .number k => numberSpan k
  | .flag k => ⟨flagBit k, 1⟩

def ControlSymbol.field (k : ControlSymbol) : ControlField :=
  ⟨k.name, (symbolSpan k).lsb, (symbolSpan k).width, some k.domain⟩

def ControlInteger.field (k : ControlInteger) : ControlField :=
  ⟨k.name, (integerSpan k).lsb, (integerSpan k).width, none⟩

/-- The table lists the fields of the layout. -/
theorem shippedFields_iff {field : ControlField} :
    field ∈ shippedControlLayout.fields ↔
      (∃ k : ControlSymbol, field = k.field) ∨ ∃ k : ControlInteger, field = k.field := by
  have hfields : ∀ field ∈ shippedControlLayout.fields,
      (∃ k ∈ ControlSymbol.all, field = k.field) ∨ ∃ k ∈ ControlInteger.all, field = k.field := by
    decide
  have hsymbols : ∀ k ∈ ControlSymbol.all, k.field ∈ shippedControlLayout.fields := by
    decide
  have hintegers : ∀ k ∈ ControlInteger.all, k.field ∈ shippedControlLayout.fields := by
    decide
  constructor
  · intro hfield
    rcases hfields field hfield with ⟨k, -, hk⟩ | ⟨k, -, hk⟩
    · exact .inl ⟨k, hk⟩
    · exact .inr ⟨k, hk⟩
  · rintro (⟨k, rfl⟩ | ⟨k, rfl⟩)
    · exact hsymbols k k.mem_all
    · exact hintegers k k.mem_all

theorem shippedCodec_narrow : ∀ field ∈ shippedCodec.layout.fields, field.encoding.isSome →
    field.width ≤ 32 := by
  decide

/-- What a control and a word that agree have in common, field by field. -/
structure Fields (control : TileControl) (encoded : EncodedControl) : Prop where
  symbols : ∀ k : ControlSymbol,
    (k.get control, read encoded.bits (symbolSpan k)) ∈ shippedCodec.table k.domain
  integers : ∀ k : ControlInteger, k.get control = read encoded.bits (integerSpan k)
  padding : ∀ p, 126 ≤ p → encoded.bits p = false

theorem fields_iff {control : TileControl} {encoded : EncodedControl} :
    Fields control encoded ↔ LoadedCodec.Agree shippedCodec control encoded ∧
      LoadedCodec.Unpadded shippedCodec encoded := by
  have hsymbol : ∀ k : ControlSymbol, k.field ∈ shippedCodec.layout.fields :=
    fun k ↦ shippedFields_iff.mpr (.inl ⟨k, rfl⟩)
  have hinteger : ∀ k : ControlInteger, k.field ∈ shippedCodec.layout.fields :=
    fun k ↦ shippedFields_iff.mpr (.inr ⟨k, rfl⟩)
  constructor
  · rintro ⟨hs, hi, hp⟩
    refine ⟨fun field hfield ↦ ?_, hp⟩
    rcases shippedFields_iff.mp hfield with ⟨k, rfl⟩ | ⟨k, rfl⟩
    · rw [LoadedCodec.fieldValue_symbol (k := k) rfl rfl,
        shippedCodec_valid.loaded.encodingValue_eq_ok_iff (hsymbol k) rfl]
      exact hs k
    · rw [LoadedCodec.fieldValue_integer (k := k) rfl rfl, hi k]
      rfl
  · rintro ⟨hagree, hp⟩
    refine ⟨fun k ↦ ?_, fun k ↦ ?_, hp⟩
    · have hvalue := hagree k.field (hsymbol k)
      rw [LoadedCodec.fieldValue_symbol (k := k) rfl rfl,
        shippedCodec_valid.loaded.encodingValue_eq_ok_iff (hsymbol k) rfl] at hvalue
      exact hvalue
    · have hvalue := hagree k.field (hinteger k)
      rw [LoadedCodec.fieldValue_integer (k := k) rfl rfl] at hvalue
      exact Except.ok.inj hvalue

theorem shipped_decode_eq_ok_iff {control : TileControl} {encoded : EncodedControl} :
    shippedCodec.decode encoded = .ok control ↔ control.Shaped ∧ Fields control encoded := by
  rw [shippedCodec_valid.decode_eq_ok_iff shippedCodec_narrow, fields_iff]

theorem shipped_encode_eq_ok_iff {control : TileControl} {encoded : EncodedControl} :
    shippedCodec.encode control = .ok encoded ↔ Fields control encoded := by
  rw [shippedCodec_valid.loaded.encode_eq_ok_iff, fields_iff]

/-! ## The golden model -/

namespace Golden

def shippedGoldenTarget : Target where
  controlWordChunks := 4
  rawControlWordWidthBits := 126
  physicalControlWordWidthBits := 128
  dataRfAddrWidth := 4
  predRfAddrWidth := 4
  constAddrWidth := 4

/-- The same control in the compiler's record. -/
def TileControl.toCompiler (g : TileControl) : PredicatedMesh.TileControl where
  op := g.op
  srcA := g.srcA
  srcB := g.srcB
  srcP0 := g.srcP0
  srcP1 := g.srcP1
  dataRfReadAddrA := g.dataRfRaddrA
  dataRfReadAddrB := g.dataRfRaddrB
  predicateRfReadAddrA := g.predRfRaddrA
  predicateRfReadAddrB := g.predRfRaddrB
  dataWrite0Enable := g.dataW0We
  dataWrite0Addr := g.dataW0Addr
  dataWrite1Enable := g.dataW1We
  dataWrite1Addr := g.dataW1Addr
  dataWrite1Source := g.dataW1Src
  predicateWrite0Enable := g.predW0We
  predicateWrite0Addr := g.predW0Addr
  predicateWrite1Enable := g.predW1We
  predicateWrite1Addr := g.predW1Addr
  predicateWrite1Source := g.predW1Src
  dataRoutes := [Direction.north, .south, .east, .west].map fun d ↦
    ⟨(g.dataRoutes d).we, (g.dataRoutes d).src⟩
  predicateRoutes := [Direction.north, .south, .east, .west].map fun d ↦
    ⟨(g.predRoutes d).we, (g.predRoutes d).src⟩
  constantAddr := g.constAddr
  lsuOp := g.lsuOp
  lsuAddrSource := g.lsuAddrSrc
  lsuStoreDataSource := g.lsuStoreDataSrc
  lsuCommitPredicateEnable := g.lsuCommitPredEnable
  lsuCommitPredicateInvert := g.lsuCommitPredInvert
  lsuCommitPredicateSource := g.lsuCommitPredSrc

theorem TileControl.toCompiler_shaped (g : TileControl) : g.toCompiler.Shaped := ⟨rfl, rfl⟩

theorem get_dataRouteSource (g : TileControl) (d : Direction) :
    (ControlSymbol.dataRouteSource d).get g.toCompiler = (g.dataRoutes d).src := by
  cases d <;> rfl

theorem get_predicateRouteSource (g : TileControl) (d : Direction) :
    (ControlSymbol.predicateRouteSource d).get g.toCompiler = (g.predRoutes d).src := by
  cases d <;> rfl

theorem get_dataRouteEnable (g : TileControl) (d : Direction) :
    (ControlFlag.dataRouteEnable d).get g.toCompiler = (g.dataRoutes d).we := by
  cases d <;> rfl

theorem get_predicateRouteEnable (g : TileControl) (d : Direction) :
    (ControlFlag.predicateRouteEnable d).get g.toCompiler = (g.predRoutes d).we := by
  cases d <;> rfl

/-! ### Bits -/

theorem extract_eq_read (word lsb width : ℕ) :
    extract word lsb width = read word.testBit ⟨lsb, width⟩ := by
  apply Nat.eq_of_testBit_eq
  intro i
  rw [testBit_read, extract, Nat.testBit_and, Nat.testBit_shiftRight, Nat.one_shiftLeft,
    Nat.testBit_two_pow_sub_one, Bool.and_comm]

theorem testBit_insert (word v lsb width p : ℕ) :
    (insert word v lsb width).testBit p =
      if Span.Covers ⟨lsb, width⟩ p then v.testBit (p - lsb) else word.testBit p := by
  rw [insert]
  simp only [andNot, Nat.testBit_or, Nat.testBit_xor, Nat.testBit_and, Nat.testBit_shiftLeft,
    Nat.one_shiftLeft, Nat.testBit_two_pow_sub_one]
  by_cases hcov : Span.Covers ⟨lsb, width⟩ p
  · have hlow : lsb ≤ p := hcov.1
    have hhigh : p - lsb < width := by have := hcov.2; simp only at this; omega
    simp [hcov, hlow, hhigh]
  · have hout : ¬ (lsb ≤ p ∧ p - lsb < width) := by
      simp only [Span.Covers] at hcov
      omega
    simp only [hcov, if_false]
    by_cases hlow : lsb ≤ p
    · have hhigh : ¬ p - lsb < width := fun h ↦ hout ⟨hlow, h⟩
      simp [hhigh]
    · simp [hlow]

/-- On a clear span, inserting deposits. -/
theorem testBit_insert_eq_deposit {word v : ℕ} {s : Span}
    (hclear : ∀ p, s.Covers p → word.testBit p = false) :
    (insert word v s.lsb s.width).testBit = deposit word.testBit s v := by
  funext p
  rw [testBit_insert, deposit]
  by_cases hcov : s.Covers p
  · simp [hcov, hclear p hcov]
  · simp [hcov]

/-- Insertions at disjoint spans, as one packing. -/
theorem testBit_foldl_insert {l : List (Span × ℕ)} (hdis : l.Pairwise fun a b ↦ a.1.Disjoint b.1)
    {word : ℕ} (hclear : ∀ e ∈ l, ∀ p, e.1.Covers p → word.testBit p = false) :
    (l.foldl (fun word e ↦ insert word e.2 e.1.lsb e.1.width) word).testBit =
      pack word.testBit l := by
  induction l generalizing word with
  | nil => rfl
  | cons e l ih =>
    obtain ⟨he, hdis⟩ := List.pairwise_cons.mp hdis
    have hstep : (insert word e.2 e.1.lsb e.1.width).testBit = deposit word.testBit e.1 e.2 :=
      testBit_insert_eq_deposit (hclear e List.mem_cons_self)
    rw [List.foldl_cons, pack_cons, ← hstep]
    apply ih hdis
    intro a ha p hp
    rw [hstep, deposit_of_not_covers fun hep ↦ he a ha p hep hp]
    exact hclear a (List.mem_cons_of_mem _ ha) p hp

theorem bit_eq_toNat (value : Bool) : bit value = value.toNat := by
  cases value <;> rfl

/-! ### Chunks -/

/-- The chunks of a word as the golden model receives them. -/
def chunkList (encoded : EncodedControl) : List ℤ :=
  [(encoded.chunks 0).toNat, (encoded.chunks 1).toNat, (encoded.chunks 2).toNat,
    (encoded.chunks 3).toNat]

theorem assemble_chunkList (encoded : EncodedControl) :
    ∃ word, assemble 0 0 (chunkList encoded) = .ok word ∧ word.testBit = encoded.bits := by
  have hchunk : ∀ i, ¬ (((encoded.chunks i).toNat : ℤ) < 0 ∨
      (mask32 : ℤ) < (encoded.chunks i).toNat) := by
    intro i
    have hlt := (encoded.chunks i).isLt
    simp only [mask32]
    omega
  simp only [chunkList, assemble, hchunk, if_false, Int.toNat_natCast]
  refine ⟨_, rfl, ?_⟩
  funext p
  -- a chunk has no bits from position 32 on
  have hhigh : ∀ (i : Fin 4) (j : ℕ), 32 ≤ j → (encoded.chunks i).toNat.testBit j = false :=
    fun i j hj ↦ BitVec.getLsbD_of_ge (encoded.chunks i) j hj
  simp only [Nat.testBit_or, Nat.testBit_shiftLeft, Nat.zero_testBit, Bool.false_or]
  by_cases hp : p < 128
  · have hlow : ∀ i : Fin 4, p / 32 = i → encoded.bits p =
        (encoded.chunks i).toNat.testBit (p - 32 * i) := by
      intro i hi
      have hsplit : 32 * (i : ℕ) + (p - 32 * i) = p := by omega
      have hbit := encoded.bits_chunk i (j := p - 32 * i) (by omega)
      rw [hsplit] at hbit
      exact hbit
    obtain h | h | h | h : p / 32 = 0 ∨ p / 32 = 1 ∨ p / 32 = 2 ∨ p / 32 = 3 := by omega
    · have h1 : ¬ 32 ≤ p := by omega
      have h2 : ¬ 64 ≤ p := by omega
      have h3 : ¬ 96 ≤ p := by omega
      simp [hlow 0 h, h1, h2, h3]
    · have h1 : 32 ≤ p := by omega
      have h2 : ¬ 64 ≤ p := by omega
      have h3 : ¬ 96 ≤ p := by omega
      simp [hlow 1 h, hhigh 0 p h1, h1, h2, h3]
    · have h1 : 32 ≤ p := by omega
      have h2 : 64 ≤ p := by omega
      have h3 : ¬ 96 ≤ p := by omega
      simp [hlow 2 h, hhigh 0 p h1, hhigh 1 (p - 32) (by omega), h1, h2, h3]
    · have h1 : 32 ≤ p := by omega
      have h2 : 64 ≤ p := by omega
      have h3 : 96 ≤ p := by omega
      simp [hlow 3 h, hhigh 0 p h1, hhigh 1 (p - 32) (by omega), hhigh 2 (p - 64) (by omega), h1,
        h2, h3]
  · rw [EncodedControl.bits_of_le (not_lt.mp hp)]
    simp (disch := omega) [hhigh]

/-! ### Tables -/

theorem enum_eq_ok_iff {mapping : List (ℕ × String)} (hnd : (mapping.map Prod.fst).Nodup)
    {value : ℕ} {field symbol : String} :
    enum mapping value field = .ok symbol ↔ (value, symbol) ∈ mapping := by
  have hlookup : enum mapping value field =
      (mapping.find? fun entry ↦ entry.1 == value).elim
        (.error ("invalid " ++ field ++ " enum value " ++ toString value))
        fun entry ↦ .ok entry.2 := by
    rw [enum]
    cases mapping.find? fun entry ↦ entry.1 == value <;> rfl
  rw [hlookup, Scan.lookup_eq_ok_iff hnd]
  constructor
  · rintro ⟨entry, hentry, rfl, rfl⟩
    exact hentry
  · intro hentry
    exact ⟨_, hentry, rfl, rfl⟩

theorem valueOf_eq_ok_iff {mapping : List (ℕ × String)} (hnd : (mapping.map Prod.snd).Nodup)
    {value : ℕ} {symbol : String} :
    valueOf mapping symbol = .ok value ↔ (value, symbol) ∈ mapping := by
  have hlookup : valueOf mapping symbol =
      (mapping.find? fun entry ↦ entry.2 == symbol).elim (.error ("KeyError: " ++ symbol))
        fun entry ↦ .ok entry.1 := by
    rw [valueOf]
    cases mapping.find? fun entry ↦ entry.2 == symbol <;> rfl
  rw [hlookup, Scan.lookup_eq_ok_iff hnd]
  constructor
  · rintro ⟨entry, hentry, rfl, rfl⟩
    exact hentry
  · intro hentry
    exact ⟨_, hentry, rfl, rfl⟩

/-- A table of the golden model is the contract's table of a domain, turned around. -/
structure Mirrors (mapping : List (ℕ × String)) (domain : String) : Prop where
  values : (mapping.map Prod.fst).Nodup
  symbols : (mapping.map Prod.snd).Nodup
  table : mapping.map Prod.swap = shippedCodec.table domain

namespace Mirrors

variable {mapping : List (ℕ × String)} {domain : String} (h : Mirrors mapping domain)
include h

theorem mem_iff {value : ℕ} {symbol : String} :
    (value, symbol) ∈ mapping ↔ (symbol, value) ∈ shippedCodec.table domain := by
  rw [← h.table, List.mem_map]
  constructor
  · intro hmem
    exact ⟨_, hmem, rfl⟩
  · rintro ⟨entry, hmem, heq⟩
    have hentry : entry = (value, symbol) := Prod.swap_eq_iff_eq_swap.mp heq
    exact hentry ▸ hmem

theorem enum_iff {word lsb width : ℕ} {f symbol : String} :
    enum mapping (extract word lsb width) f = .ok symbol ↔
      (symbol, read word.testBit ⟨lsb, width⟩) ∈ shippedCodec.table domain := by
  rw [enum_eq_ok_iff h.values, h.mem_iff, extract_eq_read]

theorem valueOf_iff {value : ℕ} {symbol : String} :
    valueOf mapping symbol = .ok value ↔ (symbol, value) ∈ shippedCodec.table domain := by
  rw [valueOf_eq_ok_iff h.symbols, h.mem_iff]

end Mirrors

theorem op_mirrors : Mirrors opByValue "op" := by
  constructor <;> decide

theorem dataSrc_mirrors : Mirrors dataSrcByValue "data_source" := by
  constructor <;> decide

theorem predSrc_mirrors : Mirrors predSrcByValue "predicate_source" := by
  constructor <;> decide

theorem dataRouteSrc_mirrors : Mirrors dataRouteSrcByValue "route_data_source" := by
  constructor <;> decide

theorem predRouteSrc_mirrors : Mirrors predRouteSrcByValue "route_predicate_source" := by
  constructor <;> decide

theorem lsuOp_mirrors : Mirrors lsuOpByValue "lsu_op" := by
  constructor <;> decide

/-! ### Decoding -/

theorem flag_iff {word p : ℕ} {value : Bool} :
    (extract word p 1 != 0) = value ↔ value.toNat = read word.testBit ⟨p, 1⟩ := by
  rw [extract_eq_read]
  have hlt := read_lt word.testBit ⟨p, 1⟩
  generalize read word.testBit ⟨p, 1⟩ = v at *
  have hbit : v = 0 ∨ v = 1 := by simp only [pow_one] at hlt; omega
  rcases hbit with rfl | rfl <;> cases value <;> simp

theorem decodeRoute_eq_ok_iff {mapping : List (ℕ × String)} {domain field : String}
    (h : Mirrors mapping domain) {word lsb : ℕ} {route : RouteDirControl} :
    decodeRoute mapping word lsb 4 field = .ok route ↔
      (route.src, read word.testBit ⟨lsb + 1, 4⟩) ∈ shippedCodec.table domain ∧
        route.we.toNat = read word.testBit ⟨lsb, 1⟩ := by
  rw [decodeRoute, Scan.bind_eq_ok, ← flag_iff, ← h.enum_iff (f := field)]
  constructor
  · rintro ⟨src, hsrc, hroute⟩
    obtain rfl := Except.ok.inj hroute
    exact ⟨hsrc, rfl⟩
  · rintro ⟨hsrc, hwe⟩
    exact ⟨route.src, hsrc, by rw [hwe]; rfl⟩

/-- The routes of the four directions, five bits apart. -/
theorem decodeRoutes_eq_ok_iff {mapping : List (ℕ × String)} {domain field : String}
    (h : Mirrors mapping domain) {word routeLsb : ℕ} {routes : Direction → RouteDirControl} :
    decodeRoutes mapping word routeLsb 4 field = .ok routes ↔
      ∀ d, ((routes d).src, read word.testBit ⟨routeLsb + 5 * directionIndex d + 1, 4⟩) ∈
          shippedCodec.table domain ∧
        (routes d).we.toNat = read word.testBit ⟨routeLsb + 5 * directionIndex d, 1⟩ := by
  rw [decodeRoutes]
  constructor
  · intro hroutes
    obtain ⟨north, hnorth, hroutes⟩ := Scan.bind_eq_ok.mp hroutes
    obtain ⟨south, hsouth, hroutes⟩ := Scan.bind_eq_ok.mp hroutes
    obtain ⟨east, heast, hroutes⟩ := Scan.bind_eq_ok.mp hroutes
    obtain ⟨west, hwest, hroutes⟩ := Scan.bind_eq_ok.mp hroutes
    obtain rfl := Except.ok.inj hroutes
    intro d
    cases d with
    | north => exact (decodeRoute_eq_ok_iff h).mp hnorth
    | south => exact (decodeRoute_eq_ok_iff h).mp hsouth
    | east => exact (decodeRoute_eq_ok_iff h).mp heast
    | west => exact (decodeRoute_eq_ok_iff h).mp hwest
  · intro hroutes
    refine Scan.bind_eq_ok.mpr ⟨_, (decodeRoute_eq_ok_iff h).mpr (hroutes .north), ?_⟩
    refine Scan.bind_eq_ok.mpr ⟨_, (decodeRoute_eq_ok_iff h).mpr (hroutes .south), ?_⟩
    refine Scan.bind_eq_ok.mpr ⟨_, (decodeRoute_eq_ok_iff h).mpr (hroutes .east), ?_⟩
    refine Scan.bind_eq_ok.mpr ⟨_, (decodeRoute_eq_ok_iff h).mpr (hroutes .west), ?_⟩
    apply congrArg Except.ok
    funext d
    cases d <;> rfl

/-- **What the golden model reads out of a word.** -/
theorem decodeWord_eq_ok_iff {word : ℕ} {g : TileControl} :
    decodeWord word shippedGoldenTarget = .ok g ↔
      (∀ k : ControlSymbol,
        (k.get g.toCompiler, read word.testBit (symbolSpan k)) ∈ shippedCodec.table k.domain) ∧
      ∀ k : ControlInteger, k.get g.toCompiler = read word.testBit (integerSpan k) := by
  rw [decodeWord]
  constructor
  · intro h
    obtain ⟨op, hop, h⟩ := Scan.bind_eq_ok.mp h
    obtain ⟨srcA, hsrcA, h⟩ := Scan.bind_eq_ok.mp h
    obtain ⟨srcB, hsrcB, h⟩ := Scan.bind_eq_ok.mp h
    obtain ⟨srcP0, hsrcP0, h⟩ := Scan.bind_eq_ok.mp h
    obtain ⟨srcP1, hsrcP1, h⟩ := Scan.bind_eq_ok.mp h
    obtain ⟨dataW1Src, hdataW1Src, h⟩ := Scan.bind_eq_ok.mp h
    obtain ⟨predW1Src, hpredW1Src, h⟩ := Scan.bind_eq_ok.mp h
    obtain ⟨dataRoutes, hdataRoutes, h⟩ := Scan.bind_eq_ok.mp h
    obtain ⟨predRoutes, hpredRoutes, h⟩ := Scan.bind_eq_ok.mp h
    obtain ⟨lsuOp, hlsuOp, h⟩ := Scan.bind_eq_ok.mp h
    obtain ⟨lsuAddrSrc, hlsuAddrSrc, h⟩ := Scan.bind_eq_ok.mp h
    obtain ⟨lsuStoreDataSrc, hlsuStoreDataSrc, h⟩ := Scan.bind_eq_ok.mp h
    obtain ⟨lsuCommitPredSrc, hlsuCommitPredSrc, h⟩ := Scan.bind_eq_ok.mp h
    obtain rfl := Except.ok.inj h
    have hdata := (decodeRoutes_eq_ok_iff dataRouteSrc_mirrors).mp hdataRoutes
    have hpred := (decodeRoutes_eq_ok_iff predRouteSrc_mirrors).mp hpredRoutes
    constructor
    · intro k
      cases k with
      | op => exact op_mirrors.enum_iff.mp hop
      | srcA => exact dataSrc_mirrors.enum_iff.mp hsrcA
      | srcB => exact dataSrc_mirrors.enum_iff.mp hsrcB
      | srcP0 => exact predSrc_mirrors.enum_iff.mp hsrcP0
      | srcP1 => exact predSrc_mirrors.enum_iff.mp hsrcP1
      | dataWrite1Source => exact dataSrc_mirrors.enum_iff.mp hdataW1Src
      | predicateWrite1Source => exact predSrc_mirrors.enum_iff.mp hpredW1Src
      | lsuOp => exact lsuOp_mirrors.enum_iff.mp hlsuOp
      | lsuAddrSource => exact dataSrc_mirrors.enum_iff.mp hlsuAddrSrc
      | lsuStoreDataSource => exact dataSrc_mirrors.enum_iff.mp hlsuStoreDataSrc
      | lsuCommitPredicateSource => exact predSrc_mirrors.enum_iff.mp hlsuCommitPredSrc
      | dataRouteSource d =>
        rw [get_dataRouteSource]
        exact (hdata d).1
      | predicateRouteSource d =>
        rw [get_predicateRouteSource]
        exact (hpred d).1
    · intro k
      cases k with
      | number k => cases k <;> exact extract_eq_read _ _ _
      | flag k =>
        cases k with
        | dataRouteEnable d =>
          rw [ControlInteger.get, get_dataRouteEnable]
          exact (hdata d).2
        | predicateRouteEnable d =>
          rw [ControlInteger.get, get_predicateRouteEnable]
          exact (hpred d).2
        | _ => exact flag_iff.mp rfl
  · rintro ⟨hs, hi⟩
    have hnumber : ∀ k : ControlNumber, extract word (numberSpan k).lsb (numberSpan k).width =
        k.get g.toCompiler := by
      intro k
      rw [extract_eq_read]
      exact (hi (.number k)).symm
    have hflag : ∀ k : ControlFlag, (extract word (flagBit k) 1 != 0) = k.get g.toCompiler :=
      fun k ↦ flag_iff.mpr (hi (.flag k))
    have hdata : decodeRoutes dataRouteSrcByValue word 66 4 "data_route_" = .ok g.dataRoutes := by
      rw [decodeRoutes_eq_ok_iff dataRouteSrc_mirrors]
      intro d
      rw [← get_dataRouteSource, ← get_dataRouteEnable]
      exact ⟨hs (.dataRouteSource d), hi (.flag (.dataRouteEnable d))⟩
    have hpred : decodeRoutes predRouteSrcByValue word 86 4 "pred_route_" = .ok g.predRoutes := by
      rw [decodeRoutes_eq_ok_iff predRouteSrc_mirrors]
      intro d
      rw [← get_predicateRouteSource, ← get_predicateRouteEnable]
      exact ⟨hs (.predicateRouteSource d), hi (.flag (.predicateRouteEnable d))⟩
    refine Scan.bind_eq_ok.mpr ⟨_, op_mirrors.enum_iff.mpr (hs .op), ?_⟩
    refine Scan.bind_eq_ok.mpr ⟨_, dataSrc_mirrors.enum_iff.mpr (hs .srcA), ?_⟩
    refine Scan.bind_eq_ok.mpr ⟨_, dataSrc_mirrors.enum_iff.mpr (hs .srcB), ?_⟩
    refine Scan.bind_eq_ok.mpr ⟨_, predSrc_mirrors.enum_iff.mpr (hs .srcP0), ?_⟩
    refine Scan.bind_eq_ok.mpr ⟨_, predSrc_mirrors.enum_iff.mpr (hs .srcP1), ?_⟩
    refine Scan.bind_eq_ok.mpr ⟨_, dataSrc_mirrors.enum_iff.mpr (hs .dataWrite1Source), ?_⟩
    refine Scan.bind_eq_ok.mpr ⟨_, predSrc_mirrors.enum_iff.mpr (hs .predicateWrite1Source), ?_⟩
    refine Scan.bind_eq_ok.mpr ⟨_, hdata, ?_⟩
    refine Scan.bind_eq_ok.mpr ⟨_, hpred, ?_⟩
    refine Scan.bind_eq_ok.mpr ⟨_, lsuOp_mirrors.enum_iff.mpr (hs .lsuOp), ?_⟩
    refine Scan.bind_eq_ok.mpr ⟨_, dataSrc_mirrors.enum_iff.mpr (hs .lsuAddrSource), ?_⟩
    refine Scan.bind_eq_ok.mpr ⟨_, dataSrc_mirrors.enum_iff.mpr (hs .lsuStoreDataSource), ?_⟩
    refine Scan.bind_eq_ok.mpr ⟨_, predSrc_mirrors.enum_iff.mpr (hs .lsuCommitPredicateSource), ?_⟩
    apply congrArg Except.ok
    cases g
    rw [TileControl.mk.injEq]
    exact ⟨rfl, rfl, rfl, rfl, rfl, hnumber .dataRfReadAddrA, hnumber .dataRfReadAddrB,
      hnumber .predicateRfReadAddrA, hnumber .predicateRfReadAddrB, hflag .dataWrite0Enable,
      hnumber .dataWrite0Addr, hflag .dataWrite1Enable, hnumber .dataWrite1Addr, rfl,
      hflag .predicateWrite0Enable, hnumber .predicateWrite0Addr, hflag .predicateWrite1Enable,
      hnumber .predicateWrite1Addr, rfl, rfl, rfl, hnumber .constantAddr, rfl, rfl, rfl,
      hflag .lsuCommitPredicateEnable, hflag .lsuCommitPredicateInvert, rfl⟩

/-- The golden decoder accepts a word, with the same control, exactly when the compiler's does. -/
theorem decodeControlChunks_eq_ok_iff {encoded : EncodedControl} {g : TileControl} :
    decodeControlChunks (chunkList encoded) shippedGoldenTarget = .ok g ↔
      shippedCodec.decode encoded = .ok g.toCompiler := by
  obtain ⟨word, hword, hbits⟩ := assemble_chunkList encoded
  have hpadding : extract word 126 2 = 0 ↔ ∀ p, 126 ≤ p → encoded.bits p = false := by
    rw [extract_eq_read, hbits, read_eq_zero_iff]
    constructor
    · intro h p hp
      by_cases hlt : p < 128
      · exact h p ⟨hp, hlt⟩
      · exact EncodedControl.bits_of_le (not_lt.mp hlt)
    · exact fun h p hp ↦ h p hp.1
  have hdecode : decodeControlChunks (chunkList encoded) shippedGoldenTarget =
      if extract word 126 2 ≠ 0 then .error "control word padding bits must be zero"
      else decodeWord word shippedGoldenTarget := by
    rw [decodeControlChunks, if_neg (by simp [chunkList, shippedGoldenTarget]), hword]
    rfl
  rw [hdecode, shipped_decode_eq_ok_iff]
  by_cases hpad : extract word 126 2 = 0
  · rw [if_neg (not_not.mpr hpad), decodeWord_eq_ok_iff, hbits]
    constructor
    · rintro ⟨hs, hi⟩
      exact ⟨g.toCompiler_shaped, hs, hi, hpadding.mp hpad⟩
    · rintro ⟨-, hs, hi, -⟩
      exact ⟨hs, hi⟩
  · rw [if_pos hpad]
    constructor
    · intro h
      cases h
    · rintro ⟨-, -, -, hclear⟩
      exact absurd (hpadding.mpr hclear) hpad

/-! ### Encoding -/

/-- The fields of one route of a word, inserted into another. -/
def copyRoute (bits : ℕ → Bool) (routeLsb word : ℕ) (d : Direction) : ℕ :=
  let lsb := routeLsb + 5 * directionIndex d
  insert (insert word (read bits ⟨lsb, 1⟩) lsb 1) (read bits ⟨lsb + 1, 4⟩) (lsb + 1) 4

/-- The insertions of the four routes of a network. -/
theorem insertRoutes_eq_ok {mapping : List (ℕ × String)} {domain : String}
    (h : Mirrors mapping domain) {routes : Direction → RouteDirControl} (bits : ℕ → Bool)
    (routeLsb word : ℕ)
    (hsrc : ∀ d, ((routes d).src, read bits ⟨routeLsb + 5 * directionIndex d + 1, 4⟩) ∈
      shippedCodec.table domain)
    (hwe : ∀ d, (routes d).we.toNat = read bits ⟨routeLsb + 5 * directionIndex d, 1⟩) :
    insertRoutes mapping word routeLsb 4 routes =
      .ok ([Direction.north, .south, .east, .west].foldl (copyRoute bits routeLsb) word) := by
  have hroute : ∀ (d : Direction) (word : ℕ),
      insertRoute mapping word (routeLsb + 5 * directionIndex d) 4 (routes d) =
        .ok (copyRoute bits routeLsb word d) := by
    intro d word
    rw [insertRoute, bit_eq_toNat, hwe d, h.valueOf_iff.mpr (hsrc d)]
    rfl
  rw [insertRoutes]
  refine Scan.bind_eq_ok.mpr ⟨_, hroute .north word, ?_⟩
  refine Scan.bind_eq_ok.mpr ⟨_, hroute .south _, ?_⟩
  refine Scan.bind_eq_ok.mpr ⟨_, hroute .east _, ?_⟩
  exact hroute .west _

/-- The golden encoder packs the numbers of the word the compiler's encoder makes. -/
theorem encodeWord_eq_ok {g : TileControl} {encoded : EncodedControl}
    (h : Fields g.toCompiler encoded) :
    encodeWord g shippedGoldenTarget = .ok
      ((shippedControlLayout.fields.map fun field ↦
        (field.span, read encoded.bits field.span)).foldl
        (fun word e ↦ insert word e.2 e.1.lsb e.1.width) 0) := by
  have hs := h.symbols
  have hnumber := fun k ↦ h.integers (.number k)
  have hflag : ∀ k : ControlFlag, bit (k.get g.toCompiler) = read encoded.bits ⟨flagBit k, 1⟩ :=
    fun k ↦ (bit_eq_toNat _).trans (h.integers (.flag k))
  have hdata : ∀ word, insertRoutes dataRouteSrcByValue word 66 4 g.dataRoutes =
      .ok ([Direction.north, .south, .east, .west].foldl (copyRoute encoded.bits 66) word) := by
    intro word
    apply insertRoutes_eq_ok dataRouteSrc_mirrors
    · intro d
      rw [← get_dataRouteSource]
      exact hs (.dataRouteSource d)
    · intro d
      rw [← get_dataRouteEnable]
      exact h.integers (.flag (.dataRouteEnable d))
  have hpred : ∀ word, insertRoutes predRouteSrcByValue word 86 4 g.predRoutes =
      .ok ([Direction.north, .south, .east, .west].foldl (copyRoute encoded.bits 86) word) := by
    intro word
    apply insertRoutes_eq_ok predRouteSrc_mirrors
    · intro d
      rw [← get_predicateRouteSource]
      exact hs (.predicateRouteSource d)
    · intro d
      rw [← get_predicateRouteEnable]
      exact h.integers (.flag (.predicateRouteEnable d))
  have hra : g.dataRfRaddrA = read encoded.bits ⟨22, 4⟩ := hnumber .dataRfReadAddrA
  have hrb : g.dataRfRaddrB = read encoded.bits ⟨26, 4⟩ := hnumber .dataRfReadAddrB
  have hpa : g.predRfRaddrA = read encoded.bits ⟨30, 4⟩ := hnumber .predicateRfReadAddrA
  have hpb : g.predRfRaddrB = read encoded.bits ⟨34, 4⟩ := hnumber .predicateRfReadAddrB
  have hd0 : bit g.dataW0We = read encoded.bits ⟨38, 1⟩ := hflag .dataWrite0Enable
  have hd0a : g.dataW0Addr = read encoded.bits ⟨39, 4⟩ := hnumber .dataWrite0Addr
  have hd1 : bit g.dataW1We = read encoded.bits ⟨43, 1⟩ := hflag .dataWrite1Enable
  have hd1a : g.dataW1Addr = read encoded.bits ⟨44, 4⟩ := hnumber .dataWrite1Addr
  have hp0 : bit g.predW0We = read encoded.bits ⟨52, 1⟩ := hflag .predicateWrite0Enable
  have hp0a : g.predW0Addr = read encoded.bits ⟨53, 4⟩ := hnumber .predicateWrite0Addr
  have hp1 : bit g.predW1We = read encoded.bits ⟨57, 1⟩ := hflag .predicateWrite1Enable
  have hp1a : g.predW1Addr = read encoded.bits ⟨58, 4⟩ := hnumber .predicateWrite1Addr
  have hc : g.constAddr = read encoded.bits ⟨106, 4⟩ := hnumber .constantAddr
  have hle : bit g.lsuCommitPredEnable = read encoded.bits ⟨120, 1⟩ :=
    hflag .lsuCommitPredicateEnable
  have hli : bit g.lsuCommitPredInvert = read encoded.bits ⟨121, 1⟩ :=
    hflag .lsuCommitPredicateInvert
  rw [encodeWord, hra, hrb, hpa, hpb, hd0, hd0a, hd1, hd1a, hp0, hp0a, hp1, hp1a, hc, hle, hli]
  refine Scan.bind_eq_ok.mpr ⟨_, op_mirrors.valueOf_iff.mpr (hs .op), ?_⟩
  refine Scan.bind_eq_ok.mpr ⟨_, dataSrc_mirrors.valueOf_iff.mpr (hs .srcA), ?_⟩
  refine Scan.bind_eq_ok.mpr ⟨_, dataSrc_mirrors.valueOf_iff.mpr (hs .srcB), ?_⟩
  refine Scan.bind_eq_ok.mpr ⟨_, predSrc_mirrors.valueOf_iff.mpr (hs .srcP0), ?_⟩
  refine Scan.bind_eq_ok.mpr ⟨_, predSrc_mirrors.valueOf_iff.mpr (hs .srcP1), ?_⟩
  refine Scan.bind_eq_ok.mpr ⟨_, dataSrc_mirrors.valueOf_iff.mpr (hs .dataWrite1Source), ?_⟩
  refine Scan.bind_eq_ok.mpr ⟨_, predSrc_mirrors.valueOf_iff.mpr (hs .predicateWrite1Source), ?_⟩
  refine Scan.bind_eq_ok.mpr ⟨_, hdata _, ?_⟩
  refine Scan.bind_eq_ok.mpr ⟨_, hpred _, ?_⟩
  refine Scan.bind_eq_ok.mpr ⟨_, lsuOp_mirrors.valueOf_iff.mpr (hs .lsuOp), ?_⟩
  refine Scan.bind_eq_ok.mpr ⟨_, dataSrc_mirrors.valueOf_iff.mpr (hs .lsuAddrSource), ?_⟩
  refine Scan.bind_eq_ok.mpr ⟨_, dataSrc_mirrors.valueOf_iff.mpr (hs .lsuStoreDataSource), ?_⟩
  refine Scan.bind_eq_ok.mpr
    ⟨_, predSrc_mirrors.valueOf_iff.mpr (hs .lsuCommitPredicateSource), ?_⟩
  rfl

/-- The word of the golden encoder has the bits of the compiler's. -/
theorem exists_encodeWord {g : TileControl} {encoded : EncodedControl}
    (h : Fields g.toCompiler encoded) :
    ∃ word, encodeWord g shippedGoldenTarget = .ok word ∧ word.testBit = encoded.bits := by
  refine ⟨_, encodeWord_eq_ok h, ?_⟩
  have hzero : Nat.testBit 0 = fun _ ↦ false := by
    funext p
    exact Nat.zero_testBit p
  rw [testBit_foldl_insert, hzero]
  · exact (shippedCodec_valid.loaded.eq_packFields (fun _ _ ↦ rfl) h.padding).symm
  · rw [List.pairwise_map]
    exact shippedCodec_valid.layout.disjoint
  · intro e _ p _
    exact Nat.zero_testBit p

/-- The chunks of a word as the golden model prints them. -/
def hexChunks (encoded : EncodedControl) : List String :=
  [hexChunk (encoded.chunks 0).toNat, hexChunk (encoded.chunks 1).toNat,
    hexChunk (encoded.chunks 2).toNat, hexChunk (encoded.chunks 3).toNat]

theorem hexChunk_shiftRight {word : ℕ} {encoded : EncodedControl}
    (h : word.testBit = encoded.bits) (i : Fin 4) :
    hexChunk (word >>> (32 * (i : ℕ))) = hexChunk (encoded.chunks i).toNat := by
  have hmask : (word >>> (32 * (i : ℕ))) &&& mask32 = (encoded.chunks i).toNat &&& mask32 := by
    apply Nat.eq_of_testBit_eq
    intro j
    have hmask32 : mask32 = 2 ^ 32 - 1 := rfl
    rw [Nat.testBit_and, Nat.testBit_and, hmask32, Nat.testBit_two_pow_sub_one,
      Nat.testBit_shiftRight, h]
    by_cases hj : j < 32
    · rw [encoded.bits_chunk i hj]
      rfl
    · simp [hj]
  rw [hexChunk, hexChunk, hmask]

/-- **What the compiler encodes, the golden model encodes alike.** -/
theorem encodeControlChunks_eq_ok {g : TileControl} {encoded : EncodedControl}
    (h : shippedCodec.encode g.toCompiler = .ok encoded) :
    encodeControlChunks g shippedGoldenTarget = .ok (hexChunks encoded) := by
  obtain ⟨word, hword, hbits⟩ := exists_encodeWord (shipped_encode_eq_ok_iff.mp h)
  rw [encodeControlChunks, hword]
  show Except.ok [hexChunk (word >>> (32 * 0)), hexChunk (word >>> (32 * 1)),
    hexChunk (word >>> (32 * 2)), hexChunk (word >>> (32 * 3))] = _
  have hchunk := hexChunk_shiftRight hbits
  rw [hexChunks, ← hchunk 0, ← hchunk 1, ← hchunk 2, ← hchunk 3]
  rfl

/-- The golden control of one of the compiler. -/
def TileControl.ofCompiler (control : PredicatedMesh.TileControl) : TileControl where
  op := control.op
  srcA := control.srcA
  srcB := control.srcB
  srcP0 := control.srcP0
  srcP1 := control.srcP1
  dataRfRaddrA := control.dataRfReadAddrA
  dataRfRaddrB := control.dataRfReadAddrB
  predRfRaddrA := control.predicateRfReadAddrA
  predRfRaddrB := control.predicateRfReadAddrB
  dataW0We := control.dataWrite0Enable
  dataW0Addr := control.dataWrite0Addr
  dataW1We := control.dataWrite1Enable
  dataW1Addr := control.dataWrite1Addr
  dataW1Src := control.dataWrite1Source
  predW0We := control.predicateWrite0Enable
  predW0Addr := control.predicateWrite0Addr
  predW1We := control.predicateWrite1Enable
  predW1Addr := control.predicateWrite1Addr
  predW1Src := control.predicateWrite1Source
  dataRoutes d := ⟨(routeAt control.dataRoutes d).enabled, (routeAt control.dataRoutes d).source⟩
  predRoutes d :=
    ⟨(routeAt control.predicateRoutes d).enabled, (routeAt control.predicateRoutes d).source⟩
  constAddr := control.constantAddr
  lsuOp := control.lsuOp
  lsuAddrSrc := control.lsuAddrSource
  lsuStoreDataSrc := control.lsuStoreDataSource
  lsuCommitPredEnable := control.lsuCommitPredicateEnable
  lsuCommitPredInvert := control.lsuCommitPredicateInvert
  lsuCommitPredSrc := control.lsuCommitPredicateSource

/-- Every control of the compiler with its routes in place is one of the golden model. -/
theorem toCompiler_ofCompiler {control : PredicatedMesh.TileControl} (h : control.Shaped) :
    (TileControl.ofCompiler control).toCompiler = control := by
  apply TileControl.ext_fields (TileControl.toCompiler_shaped _) h
  · intro k
    cases k <;> rfl
  · intro k
    cases k with
    | dataRouteEnable d => rw [get_dataRouteEnable]; rfl
    | predicateRouteEnable d => rw [get_predicateRouteEnable]; rfl
    | _ => rfl
  · intro k
    cases k with
    | dataRouteSource d => rw [get_dataRouteSource]; rfl
    | predicateRouteSource d => rw [get_predicateRouteSource]; rfl
    | _ => rfl

end Golden

/-! ## The hardware -/

namespace RTL

/-- A word as one bit vector, chunk 0 least significant. -/
def wordOf (encoded : EncodedControl) : BitVec 128 :=
  encoded.chunks 3 ++ encoded.chunks 2 ++ encoded.chunks 1 ++ encoded.chunks 0

theorem getLsbD_wordOf (encoded : EncodedControl) {p : ℕ} (hp : p < 128) :
    (wordOf encoded).getLsbD p = encoded.bits p := by
  have hlow : ∀ i : Fin 4, p / 32 = i → encoded.bits p =
      (encoded.chunks i).getLsbD (p - 32 * i) := by
    intro i hi
    have hsplit : 32 * (i : ℕ) + (p - 32 * i) = p := by omega
    have hbit := encoded.bits_chunk i (j := p - 32 * i) (by omega)
    rw [hsplit] at hbit
    exact hbit
  rw [wordOf, BitVec.getLsbD_append, BitVec.getLsbD_append, BitVec.getLsbD_append]
  obtain h | h | h | h : p / 32 = 0 ∨ p / 32 = 1 ∨ p / 32 = 2 ∨ p / 32 = 3 := by omega
  · rw [if_pos (by omega), hlow 0 h]
    rfl
  · rw [if_neg (by omega), if_pos (by omega), hlow 1 h]
    rfl
  · rw [if_neg (by omega), if_neg (by omega), if_pos (by omega), hlow 2 h, Nat.sub_sub]
    rfl
  · rw [if_neg (by omega), if_neg (by omega), if_neg (by omega), hlow 3 h, Nat.sub_sub,
      Nat.sub_sub]
    rfl

/-- A slice of a slice. -/
theorem toNat_slice (encoded : EncodedControl) {a n b m : ℕ} (hb : b + m ≤ n)
    (ha : a + n ≤ 128) :
    (((wordOf encoded).extractLsb' a n).extractLsb' b m).toNat =
      read encoded.bits ⟨a + b, m⟩ := by
  apply Nat.eq_of_testBit_eq
  intro j
  rw [testBit_read, BitVec.testBit_toNat, BitVec.getLsbD_extractLsb', BitVec.getLsbD_extractLsb']
  by_cases hj : j < m
  · have hbj : b + j < n := by omega
    have hp : a + (b + j) < 128 := by omega
    simp [hj, hbj, getLsbD_wordOf encoded hp, Nat.add_assoc]
  · simp [hj]

theorem getLsbD_slice (encoded : EncodedControl) {a n b : ℕ} (hb : b < n) (ha : a + n ≤ 128) :
    (((wordOf encoded).extractLsb' a n).getLsbD b).toNat = read encoded.bits ⟨a + b, 1⟩ := by
  have hp : a + b < 128 := by omega
  have hzero : read encoded.bits ⟨a + b, 0⟩ = 0 := rfl
  rw [BitVec.getLsbD_extractLsb', read_succ, hzero]
  simp [hb, getLsbD_wordOf encoded hp]

/-- The bits are those of the enumerator the contract calls `name`. -/
def Names {α : Type} {n : ℕ} (all : List α) (value : α → BitVec n) (symbol : α → String)
    (bits : BitVec n) (name : String) : Prop :=
  ∃ e ∈ all, value e = bits ∧ symbol e = name

theorem names_of_mem {α : Type} {n : ℕ} {all : List α} {value : α → BitVec n}
    {symbol : α → String} {domain : String}
    (htable : ∀ entry ∈ shippedCodec.table domain,
      ∃ e ∈ all, (value e).toNat = entry.2 ∧ symbol e = entry.1)
    {bits : BitVec n} {name : String} (h : (name, bits.toNat) ∈ shippedCodec.table domain) :
    Names all value symbol bits name := by
  obtain ⟨e, he, hvalue, hname⟩ := htable _ h
  exact ⟨e, he, BitVec.eq_of_toNat_eq hvalue, hname⟩

abbrev NamesOp := Names OpE.all OpE.value OpE.symbol
abbrev NamesDataSrc := Names DataSrcE.all DataSrcE.value DataSrcE.symbol
abbrev NamesPredSrc := Names PredSrcE.all PredSrcE.value PredSrcE.symbol
abbrev NamesDataRouteSrc := Names DataRouteSrcE.all DataRouteSrcE.value DataRouteSrcE.symbol
abbrev NamesPredRouteSrc := Names PredRouteSrcE.all PredRouteSrcE.value PredRouteSrcE.symbol
abbrev NamesLsuOp := Names LsuOpE.all LsuOpE.value LsuOpE.symbol

/-- The record of the hardware has the field values of a control. -/
structure SameFields (word : TileControlWord) (control : PredicatedMesh.TileControl) : Prop where
  op : NamesOp word.execCtrl.op control.op
  srcA : NamesDataSrc word.execCtrl.srcASel control.srcA
  srcB : NamesDataSrc word.execCtrl.srcBSel control.srcB
  srcP0 : NamesPredSrc word.execCtrl.srcP0Sel control.srcP0
  srcP1 : NamesPredSrc word.execCtrl.srcP1Sel control.srcP1
  dataRfReadAddrA : word.execCtrl.dataRfRaddrA.toNat = control.dataRfReadAddrA
  dataRfReadAddrB : word.execCtrl.dataRfRaddrB.toNat = control.dataRfReadAddrB
  predicateRfReadAddrA : word.execCtrl.predRfRaddrA.toNat = control.predicateRfReadAddrA
  predicateRfReadAddrB : word.execCtrl.predRfRaddrB.toNat = control.predicateRfReadAddrB
  dataWrite0Enable : word.dataRfCtrl.dataW0We = control.dataWrite0Enable
  dataWrite0Addr : word.dataRfCtrl.dataW0Addr.toNat = control.dataWrite0Addr
  dataWrite1Enable : word.dataRfCtrl.dataW1We = control.dataWrite1Enable
  dataWrite1Addr : word.dataRfCtrl.dataW1Addr.toNat = control.dataWrite1Addr
  dataWrite1Source : NamesDataSrc word.dataRfCtrl.dataW1Src control.dataWrite1Source
  predicateWrite0Enable : word.predRfCtrl.predW0We = control.predicateWrite0Enable
  predicateWrite0Addr : word.predRfCtrl.predW0Addr.toNat = control.predicateWrite0Addr
  predicateWrite1Enable : word.predRfCtrl.predW1We = control.predicateWrite1Enable
  predicateWrite1Addr : word.predRfCtrl.predW1Addr.toNat = control.predicateWrite1Addr
  predicateWrite1Source : NamesPredSrc word.predRfCtrl.predW1Src control.predicateWrite1Source
  dataRoutes : ∀ d, (word.dataRouteCtrl.at d).we = (routeAt control.dataRoutes d).enabled ∧
    NamesDataRouteSrc (word.dataRouteCtrl.at d).src (routeAt control.dataRoutes d).source
  predicateRoutes : ∀ d,
    (word.predRouteCtrl.at d).we = (routeAt control.predicateRoutes d).enabled ∧
      NamesPredRouteSrc (word.predRouteCtrl.at d).src (routeAt control.predicateRoutes d).source
  constantAddr : word.constAddr.toNat = control.constantAddr
  lsuOp : NamesLsuOp word.lsuCtrl.lsuOp control.lsuOp
  lsuAddrSource : NamesDataSrc word.lsuCtrl.lsuAddrSrc control.lsuAddrSource
  lsuStoreDataSource : NamesDataSrc word.lsuCtrl.lsuStoreDataSrc control.lsuStoreDataSource
  lsuCommitPredicateEnable :
    word.lsuCtrl.lsuCommitPredEnable = control.lsuCommitPredicateEnable
  lsuCommitPredicateInvert :
    word.lsuCtrl.lsuCommitPredInvert = control.lsuCommitPredicateInvert
  lsuCommitPredicateSource :
    NamesPredSrc word.lsuCtrl.lsuCommitPredSrc control.lsuCommitPredicateSource

variable {control : PredicatedMesh.TileControl} {encoded : EncodedControl}

/-- A symbolic field, from the slice the record holds. -/
theorem names_slice (h : Fields control encoded) (k : ControlSymbol) {α : Type} {a n b m : ℕ}
    {all : List α} {value : α → BitVec m} {symbol : α → String}
    (htable : ∀ entry ∈ shippedCodec.table k.domain,
      ∃ e ∈ all, (value e).toNat = entry.2 ∧ symbol e = entry.1)
    (hb : b + m ≤ n) (ha : a + n ≤ 128) (hspan : symbolSpan k = ⟨a + b, m⟩) :
    Names all value symbol (((wordOf encoded).extractLsb' a n).extractLsb' b m)
      (k.get control) := by
  apply names_of_mem htable
  rw [toNat_slice encoded hb ha, ← hspan]
  exact h.symbols k

theorem number_slice (h : Fields control encoded) (k : ControlNumber) {a n b m : ℕ}
    (hb : b + m ≤ n) (ha : a + n ≤ 128) (hspan : numberSpan k = ⟨a + b, m⟩) :
    (((wordOf encoded).extractLsb' a n).extractLsb' b m).toNat = k.get control := by
  rw [toNat_slice encoded hb ha, ← hspan]
  exact (h.integers (.number k)).symm

theorem flag_slice (h : Fields control encoded) (k : ControlFlag) {a n b : ℕ} (hb : b < n)
    (ha : a + n ≤ 128) (hspan : flagBit k = a + b) :
    ((wordOf encoded).extractLsb' a n).getLsbD b = k.get control := by
  have hbit : (((wordOf encoded).extractLsb' a n).getLsbD b).toNat = (k.get control).toNat := by
    rw [getLsbD_slice encoded hb ha, ← hspan]
    exact (h.integers (.flag k)).symm
  exact toNat_injective hbit

theorem op_table : ∀ entry ∈ shippedCodec.table "op",
    ∃ e ∈ OpE.all, e.value.toNat = entry.2 ∧ e.symbol = entry.1 := by
  decide

theorem dataSrc_table : ∀ entry ∈ shippedCodec.table "data_source",
    ∃ e ∈ DataSrcE.all, e.value.toNat = entry.2 ∧ e.symbol = entry.1 := by
  decide

theorem predSrc_table : ∀ entry ∈ shippedCodec.table "predicate_source",
    ∃ e ∈ PredSrcE.all, e.value.toNat = entry.2 ∧ e.symbol = entry.1 := by
  decide

theorem dataRouteSrc_table : ∀ entry ∈ shippedCodec.table "route_data_source",
    ∃ e ∈ DataRouteSrcE.all, e.value.toNat = entry.2 ∧ e.symbol = entry.1 := by
  decide

theorem predRouteSrc_table : ∀ entry ∈ shippedCodec.table "route_predicate_source",
    ∃ e ∈ PredRouteSrcE.all, e.value.toNat = entry.2 ∧ e.symbol = entry.1 := by
  decide

theorem lsuOp_table : ∀ entry ∈ shippedCodec.table "lsu_op",
    ∃ e ∈ LsuOpE.all, e.value.toNat = entry.2 ∧ e.symbol = entry.1 := by
  decide

theorem slice_slice {w : ℕ} (bits : BitVec w) {a n b m : ℕ} (hb : b + m ≤ n) :
    (bits.extractLsb' a n).extractLsb' b m = bits.extractLsb' (a + b) m := by
  apply BitVec.eq_of_getLsbD_eq
  intro j hj
  rw [BitVec.getLsbD_extractLsb', BitVec.getLsbD_extractLsb', BitVec.getLsbD_extractLsb']
  have hbj : b + j < n := by omega
  simp [hj, hbj, Nat.add_assoc]

/-- The routes of both networks are five bits apart. -/
theorem dataRoute_at (encoded : EncodedControl) (d : Direction) :
    (unpackTileControlWord (wordOf encoded)).dataRouteCtrl.at d =
      unpackRouteDirCtrl ((wordOf encoded).extractLsb' (66 + 5 * directionIndex d) 5) := by
  cases d <;> exact congrArg unpackRouteDirCtrl (slice_slice _ (by decide))

theorem predRoute_at (encoded : EncodedControl) (d : Direction) :
    (unpackTileControlWord (wordOf encoded)).predRouteCtrl.at d =
      unpackRouteDirCtrl ((wordOf encoded).extractLsb' (86 + 5 * directionIndex d) 5) := by
  cases d <;> exact congrArg unpackRouteDirCtrl (slice_slice _ (by decide))

/-- **The record of a word the compiler accepts.** -/
theorem unpack_sameFields (h : Fields control encoded) :
    SameFields (unpackTileControlWord (wordOf encoded)) control where
  op := names_slice h .op op_table (by decide) (by decide) rfl
  srcA := names_slice h .srcA dataSrc_table (by decide) (by decide) rfl
  srcB := names_slice h .srcB dataSrc_table (by decide) (by decide) rfl
  srcP0 := names_slice h .srcP0 predSrc_table (by decide) (by decide) rfl
  srcP1 := names_slice h .srcP1 predSrc_table (by decide) (by decide) rfl
  dataRfReadAddrA := number_slice h .dataRfReadAddrA (by decide) (by decide) rfl
  dataRfReadAddrB := number_slice h .dataRfReadAddrB (by decide) (by decide) rfl
  predicateRfReadAddrA := number_slice h .predicateRfReadAddrA (by decide) (by decide) rfl
  predicateRfReadAddrB := number_slice h .predicateRfReadAddrB (by decide) (by decide) rfl
  dataWrite0Enable := flag_slice h .dataWrite0Enable (by decide) (by decide) rfl
  dataWrite0Addr := number_slice h .dataWrite0Addr (by decide) (by decide) rfl
  dataWrite1Enable := flag_slice h .dataWrite1Enable (by decide) (by decide) rfl
  dataWrite1Addr := number_slice h .dataWrite1Addr (by decide) (by decide) rfl
  dataWrite1Source := names_slice h .dataWrite1Source dataSrc_table (by decide) (by decide) rfl
  predicateWrite0Enable := flag_slice h .predicateWrite0Enable (by decide) (by decide) rfl
  predicateWrite0Addr := number_slice h .predicateWrite0Addr (by decide) (by decide) rfl
  predicateWrite1Enable := flag_slice h .predicateWrite1Enable (by decide) (by decide) rfl
  predicateWrite1Addr := number_slice h .predicateWrite1Addr (by decide) (by decide) rfl
  predicateWrite1Source :=
    names_slice h .predicateWrite1Source predSrc_table (by decide) (by decide) rfl
  dataRoutes d := by
    have hd := directionIndex_lt d
    rw [dataRoute_at]
    exact ⟨flag_slice h (.dataRouteEnable d) (by decide) (by omega) rfl,
      names_slice h (.dataRouteSource d) dataRouteSrc_table (by decide) (by omega) rfl⟩
  predicateRoutes d := by
    have hd := directionIndex_lt d
    rw [predRoute_at]
    exact ⟨flag_slice h (.predicateRouteEnable d) (by decide) (by omega) rfl,
      names_slice h (.predicateRouteSource d) predRouteSrc_table (by decide) (by omega) rfl⟩
  constantAddr := by
    have hslice := number_slice (a := 106) (n := 4) (b := 0) h .constantAddr (by decide)
      (by decide) rfl
    rwa [slice_slice _ (by decide)] at hslice
  lsuOp := names_slice h .lsuOp lsuOp_table (by decide) (by decide) rfl
  lsuAddrSource := names_slice h .lsuAddrSource dataSrc_table (by decide) (by decide) rfl
  lsuStoreDataSource := names_slice h .lsuStoreDataSource dataSrc_table (by decide) (by decide) rfl
  lsuCommitPredicateEnable := flag_slice h .lsuCommitPredicateEnable (by decide) (by decide) rfl
  lsuCommitPredicateInvert := flag_slice h .lsuCommitPredicateInvert (by decide) (by decide) rfl
  lsuCommitPredicateSource :=
    names_slice h .lsuCommitPredicateSource predSrc_table (by decide) (by decide) rfl

end RTL

/-! ## Agreement -/

/-- **The three codecs agree** on every word and on every control: the golden model accepts the
words the compiler accepts and decodes them to the same control, it encodes what the compiler can
encode to the same chunks, and the hardware's record of an accepted word has the same fields. -/
theorem control_codecs_agree :
    (∀ encoded : EncodedControl,
      (∃ control, shippedCodec.decode encoded = .ok control) ↔
        ∃ g, Golden.decodeControlChunks (Golden.chunkList encoded) Golden.shippedGoldenTarget =
          .ok g) ∧
    (∀ encoded control g, shippedCodec.decode encoded = .ok control →
      Golden.decodeControlChunks (Golden.chunkList encoded) Golden.shippedGoldenTarget = .ok g →
        g.toCompiler = control) ∧
    (∀ (g : Golden.TileControl) encoded, shippedCodec.encode g.toCompiler = .ok encoded →
      Golden.encodeControlChunks g Golden.shippedGoldenTarget = .ok (Golden.hexChunks encoded)) ∧
    ∀ encoded control, shippedCodec.decode encoded = .ok control →
      RTL.SameFields (RTL.unpackTileControlWord (RTL.wordOf encoded)) control := by
  refine ⟨fun encoded ↦ ⟨?_, ?_⟩, ?_, ?_, ?_⟩
  · rintro ⟨control, hcontrol⟩
    refine ⟨Golden.TileControl.ofCompiler control, ?_⟩
    rw [Golden.decodeControlChunks_eq_ok_iff, Golden.toCompiler_ofCompiler, hcontrol]
    exact (shipped_decode_eq_ok_iff.mp hcontrol).1
  · rintro ⟨g, hg⟩
    exact ⟨g.toCompiler, Golden.decodeControlChunks_eq_ok_iff.mp hg⟩
  · intro encoded control g hcontrol hg
    rw [Golden.decodeControlChunks_eq_ok_iff, hcontrol] at hg
    exact (Except.ok.inj hg).symm
  · exact fun g encoded ↦ Golden.encodeControlChunks_eq_ok
  · exact fun encoded control h ↦ RTL.unpack_sameFields (shipped_decode_eq_ok_iff.mp h).2

/-- A register is added to a constant, and the sum is stored and sent east. -/
def addControl : Golden.TileControl where
  op := "ADD"
  srcA := "RF_A"
  srcB := "CONST_DATA"
  dataRfRaddrA := 5
  dataW0We := true
  dataW0Addr := 3
  dataRoutes d := if d = .east then ⟨true, "FU_DATA_RESULT"⟩ else {}
  constAddr := 9

/-- The word of that control. -/
def addWord : EncodedControl where
  chunks := ![22927362, 3221750208, 45057, 478684160]

/-- The three codecs on one control and its word. -/
theorem addWord_codecs_agree :
    Golden.encodeControlChunks addControl Golden.shippedGoldenTarget
        = .ok (Golden.hexChunks addWord) ∧
      (∃ g, Golden.decodeControlChunks (Golden.chunkList addWord) Golden.shippedGoldenTarget
        = .ok g ∧ g.toCompiler = addControl.toCompiler) ∧
      RTL.SameFields (RTL.unpackTileControlWord (RTL.wordOf addWord)) addControl.toCompiler := by
  have hchunks : (shippedCodec.encode addControl.toCompiler).map (fun word ↦ List.ofFn word.chunks)
      = .ok (List.ofFn addWord.chunks) := by decide
  have hencode : shippedCodec.encode addControl.toCompiler = .ok addWord := by
    obtain ⟨word, hword, heq⟩ := Scan.map_eq_ok.mp hchunks
    have hsame : word.chunks = addWord.chunks := List.ofFn_injective heq
    exact hword.trans (congrArg Except.ok (congrArg EncodedControl.mk hsame))
  have hdecode : shippedCodec.decode addWord = .ok addControl.toCompiler := by decide
  obtain ⟨g, hg⟩ := (control_codecs_agree.1 addWord).mp ⟨_, hdecode⟩
  exact ⟨control_codecs_agree.2.2.1 addControl addWord hencode,
    ⟨g, hg, control_codecs_agree.2.1 addWord _ g hdecode hg⟩,
    control_codecs_agree.2.2.2 addWord _ hdecode⟩

end PredicatedMesh
