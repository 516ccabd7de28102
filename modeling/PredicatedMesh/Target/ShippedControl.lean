import PredicatedMesh.Target.ControlCodec
import PredicatedMesh.Target.Shipped

/-!
# The shipped control layout

The two sections of the shipped contract that describe a control word, and the codec the loader
makes of them. No field is wider than six bits, so the codec is a bijection.

The limit of 32 bits on enumerated fields is not checked by the loader. The same contract with a
wide operation field, restacked to the same 126 bits, loads and decodes a word whose operation is
not in the table.
-/

namespace PredicatedMesh

open BitField

def opEntries : JsonObject ℤ where
  entries :=
    [("NOP", 0), ("PASS", 1), ("ADD", 2), ("SUB", 3), ("MUL", 4), ("AND", 5), ("OR", 6),
      ("XOR", 7), ("SHL", 8), ("LSHR", 9), ("SELECT", 10), ("CMP_EQ", 16), ("CMP_NE", 17),
      ("CMP_ULT", 18), ("CMP_ULE", 19), ("PPASS", 32), ("PNOT", 33), ("PAND", 34), ("POR", 35)]
  nodup := by decide

def dataSourceEntries : JsonObject ℤ where
  entries :=
    [("RF_A", 0), ("RF_B", 1), ("NORTH_DATA_IN", 2), ("SOUTH_DATA_IN", 3), ("EAST_DATA_IN", 4),
      ("WEST_DATA_IN", 5), ("CONST_DATA", 6), ("LSU_LOAD_DATA", 7), ("ZERO", 8)]
  nodup := by decide

def predicateSourceEntries : JsonObject ℤ where
  entries :=
    [("RF_A", 0), ("RF_B", 1), ("NORTH_PRED_IN", 2), ("SOUTH_PRED_IN", 3), ("EAST_PRED_IN", 4),
      ("WEST_PRED_IN", 5), ("CONST_TRUE", 6), ("CONST_FALSE", 7)]
  nodup := by decide

def routeDataSourceEntries : JsonObject ℤ where
  entries :=
    [("NONE", 0), ("NORTH_DATA_IN", 1), ("SOUTH_DATA_IN", 2), ("EAST_DATA_IN", 3),
      ("WEST_DATA_IN", 4), ("FU_DATA_RESULT", 5), ("RF_A", 6), ("RF_B", 7), ("CONST_DATA", 8),
      ("LSU_LOAD_DATA", 9), ("ZERO", 10)]
  nodup := by decide

def routePredicateSourceEntries : JsonObject ℤ where
  entries :=
    [("NONE", 0), ("NORTH_PRED_IN", 1), ("SOUTH_PRED_IN", 2), ("EAST_PRED_IN", 3),
      ("WEST_PRED_IN", 4), ("FU_PRED_RESULT", 5), ("RF_A", 6), ("RF_B", 7), ("CONST_TRUE", 8),
      ("CONST_FALSE", 9)]
  nodup := by decide

def lsuOpEntries : JsonObject ℤ where
  entries :=
    [("NONE", 0), ("LOAD", 1), ("STORE", 2), ("RESERVED", 3)]
  nodup := by decide

/-- The encoding section of the shipped contract. -/
def shippedEncodingSection : JsonObject (JsonObject ℤ) where
  entries :=
    [("op", opEntries),
      ("data_source", dataSourceEntries),
      ("predicate_source", predicateSourceEntries),
      ("route_data_source", routeDataSourceEntries),
      ("route_predicate_source", routePredicateSourceEntries),
      ("lsu_op", lsuOpEntries)]
  nodup := by decide

/-- The layout section of the shipped contract. -/
def shippedControlLayout : ControlLayout where
  rawWidth := 126
  physicalWidth := 128
  chunks := 4
  chunkBits := 32
  chunkOrder := "little_word"
  paddingLsb := 126
  paddingWidth := 2
  paddingValue := 0
  fields :=
    [⟨"op", 0, 6, some "op"⟩,
      ⟨"src_a", 6, 4, some "data_source"⟩,
      ⟨"src_b", 10, 4, some "data_source"⟩,
      ⟨"src_p0", 14, 4, some "predicate_source"⟩,
      ⟨"src_p1", 18, 4, some "predicate_source"⟩,
      ⟨"data_rf_raddr_a", 22, 4, none⟩,
      ⟨"data_rf_raddr_b", 26, 4, none⟩,
      ⟨"pred_rf_raddr_a", 30, 4, none⟩,
      ⟨"pred_rf_raddr_b", 34, 4, none⟩,
      ⟨"data_w0_we", 38, 1, none⟩,
      ⟨"data_w0_addr", 39, 4, none⟩,
      ⟨"data_w1_we", 43, 1, none⟩,
      ⟨"data_w1_addr", 44, 4, none⟩,
      ⟨"data_w1_src", 48, 4, some "data_source"⟩,
      ⟨"pred_w0_we", 52, 1, none⟩,
      ⟨"pred_w0_addr", 53, 4, none⟩,
      ⟨"pred_w1_we", 57, 1, none⟩,
      ⟨"pred_w1_addr", 58, 4, none⟩,
      ⟨"pred_w1_src", 62, 4, some "predicate_source"⟩,
      ⟨"data_route_north_we", 66, 1, none⟩,
      ⟨"data_route_north_src", 67, 4, some "route_data_source"⟩,
      ⟨"data_route_south_we", 71, 1, none⟩,
      ⟨"data_route_south_src", 72, 4, some "route_data_source"⟩,
      ⟨"data_route_east_we", 76, 1, none⟩,
      ⟨"data_route_east_src", 77, 4, some "route_data_source"⟩,
      ⟨"data_route_west_we", 81, 1, none⟩,
      ⟨"data_route_west_src", 82, 4, some "route_data_source"⟩,
      ⟨"pred_route_north_we", 86, 1, none⟩,
      ⟨"pred_route_north_src", 87, 4, some "route_predicate_source"⟩,
      ⟨"pred_route_south_we", 91, 1, none⟩,
      ⟨"pred_route_south_src", 92, 4, some "route_predicate_source"⟩,
      ⟨"pred_route_east_we", 96, 1, none⟩,
      ⟨"pred_route_east_src", 97, 4, some "route_predicate_source"⟩,
      ⟨"pred_route_west_we", 101, 1, none⟩,
      ⟨"pred_route_west_src", 102, 4, some "route_predicate_source"⟩,
      ⟨"const_addr", 106, 4, none⟩,
      ⟨"lsu_op", 110, 2, some "lsu_op"⟩,
      ⟨"lsu_addr_src", 112, 4, some "data_source"⟩,
      ⟨"lsu_store_data_src", 116, 4, some "data_source"⟩,
      ⟨"lsu_commit_pred_enable", 120, 1, none⟩,
      ⟨"lsu_commit_pred_invert", 121, 1, none⟩,
      ⟨"lsu_commit_pred_src", 122, 4, some "predicate_source"⟩]

def shippedCodec : ControlCodec := ⟨shippedEncodings, shippedControlLayout⟩

theorem shippedCodec_load :
    ControlCodec.load shippedEncodingSection shippedControlLayout = .ok shippedCodec := by
  decide

/-- Listing the fields of a control is a finite check. -/
theorem listsTileControl_of_forall {layout : ControlLayout}
    (hintegers : ∀ k ∈ ControlInteger.all, ∃ field ∈ layout.fields, field.name = k.name ∧
      field.encoding = none)
    (hsymbols : ∀ k ∈ ControlSymbol.all, ∃ field ∈ layout.fields, field.name = k.name ∧
      field.encoding.isSome)
    (honly : ∀ field ∈ layout.fields, (∃ k ∈ ControlInteger.all, field.name = k.name) ∨
      ∃ k ∈ ControlSymbol.all, field.name = k.name) : ListsTileControl layout where
  integers k := hintegers k k.mem_all
  symbols k := hsymbols k k.mem_all
  only field hfield := by
    rcases honly field hfield with ⟨k, -, hk⟩ | ⟨k, -, hk⟩
    · exact .inl ⟨k, hk⟩
    · exact .inr ⟨k, hk⟩

def ControlInteger.isFlag : ControlInteger → Bool
  | .number _ => false
  | .flag _ => true

theorem supportedWidths_of_forall {layout : ControlLayout}
    (hwidths : ∀ field ∈ layout.fields, ∀ k ∈ ControlInteger.all, field.name = k.name →
      field.width ≤ 32 ∧ (k.isFlag → field.width = 1))
    (hfields : ∀ field ∈ layout.fields, field.width ≤ 64) (hpadding : layout.paddingWidth ≤ 64) :
    SupportedWidths layout where
  flags field hfield k hk := (hwidths field hfield (.flag k) (ControlInteger.mem_all _) hk).2 rfl
  numbers field hfield k hk := (hwidths field hfield (.number k) (ControlInteger.mem_all _) hk).1
  fields := hfields
  padding := hpadding

theorem shippedControlLayout_lists : ListsTileControl shippedControlLayout := by
  apply listsTileControl_of_forall <;> decide

theorem shippedControlLayout_widths : SupportedWidths shippedControlLayout := by
  apply supportedWidths_of_forall <;> decide

theorem shippedCodec_valid : ValidCodec shippedCodec := by
  obtain ⟨tables, htables, hload⟩ := Scan.bind_eq_ok.mp shippedCodec_load
  obtain ⟨loaded, hlayout, hload⟩ := Scan.bind_eq_ok.mp hload
  have hcodec := Except.ok.inj hload
  obtain rfl : tables = shippedEncodings := congrArg ControlCodec.encodings hcodec
  obtain rfl : loaded = shippedControlLayout := congrArg ControlCodec.layout hcodec
  exact ⟨ControlCodec.loadEncodings_valid htables, ControlCodec.loadLayout_valid hlayout,
    shippedControlLayout_lists, shippedControlLayout_widths⟩

/-- A field of a control has a number that fits. -/
def ControlCodec.fits (codec : ControlCodec) (control : TileControl)
    (field : ControlField) : Bool :=
  match codec.fieldValue control field with
  | .ok v => decide (v < 2 ^ field.width)
  | .error _ => false

theorem ControlCodec.fits_iff {codec : ControlCodec} {control : TileControl}
    {field : ControlField} : codec.fits control field = true ↔
      ∃ v, codec.fieldValue control field = .ok v ∧ v < 2 ^ field.width := by
  unfold ControlCodec.fits
  split
  · simp_all
  · simp_all

/-- A control is encoded if all its fields fit, which takes no bits to check. -/
theorem shippedCodec_encodes {control : TileControl}
    (h : ∀ field ∈ shippedControlLayout.fields, shippedCodec.fits control field = true) :
    ∃ word, shippedCodec.encode control = .ok word := by
  apply shippedCodec_valid.loaded.encode_isOk_iff.mpr
  intro field hfield
  exact ControlCodec.fits_iff.mp (h field hfield)

/-- The shipped codec is a bijection. -/
theorem shippedCodec_bijective :
    ControlCodec.load shippedEncodingSection shippedControlLayout = .ok shippedCodec ∧
      shippedCodec.Bijective := by
  refine ⟨shippedCodec_load, ?_⟩
  apply (codec_bijective_iff shippedCodec_load shippedControlLayout_lists
    shippedControlLayout_widths).mpr
  decide

/-! ## A wide operation field -/

/-- Lay fields out one after the other with new widths. -/
def restack (width : ControlField → ℕ) : ℕ → List ControlField → List ControlField
  | _, [] => []
  | lsb, field :: fields =>
    { field with lsb := lsb, width := width field } :: restack width (lsb + width field) fields

/-- The shipped layout with an operation field of 33 bits, at the expense of the addresses. -/
def wideOpLayout : ControlLayout :=
  { shippedControlLayout with
    fields := restack
      (fun field ↦
        if field.name = "op" then 33
        else if field.encoding = none then 1
        else field.width) 0 shippedControlLayout.fields }

def wideOpCodec : ControlCodec := ⟨shippedEncodings, wideOpLayout⟩

/-- The word with bit 32 as its only bit. -/
def wideOpWord : EncodedControl where
  chunks := ![0, 1, 0, 0]

/-- An unlisted operation is decoded. -/
theorem wideOp_unlisted_decoded :
    ControlCodec.load shippedEncodingSection wideOpLayout = .ok wideOpCodec ∧
      ListsTileControl wideOpLayout ∧ SupportedWidths wideOpLayout ∧
      (∃ control, wideOpCodec.decode wideOpWord = .ok control ∧
        wideOpCodec.encode control = .ok {}) ∧
      ¬ wideOpCodec.Bijective := by
  have hlists : ListsTileControl wideOpLayout := by
    apply listsTileControl_of_forall <;> decide
  have hwidths : SupportedWidths wideOpLayout := by
    apply supportedWidths_of_forall <;> decide
  have hdecode : (wideOpCodec.decode wideOpWord).isOk := by decide
  refine ⟨by decide, hlists, hwidths, ?_, ?_⟩
  · have hround : ((wideOpCodec.decode wideOpWord).bind fun control ↦
        wideOpCodec.encode control) = .ok {} := by decide
    exact Scan.bind_eq_ok.mp hround
  · intro hbij
    have hop : ⟨"op", 0, 33, some "op"⟩ ∈ wideOpCodec.layout.fields := by decide
    have hunlisted : read wideOpWord.bits ⟨0, 33⟩ ∉ (wideOpCodec.table "op").map Prod.snd := by
      decide
    obtain ⟨e, he⟩ := (hbij.decode_fails wideOpWord).mpr (.inr ⟨_, hop, "op", rfl, hunlisted⟩)
    rw [he] at hdecode
    cases hdecode

end PredicatedMesh
