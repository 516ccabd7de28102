import PredicatedMesh.Lowering.StorageReads

/-!
# When lowered controls are accepted

A lowering that raises no error is verified and encoded. Three of the four kinds of events the
verifier looks for are always found: an issue, a launch and a write are what the calls of the event
itself have put into the control. A register read is different. It asks for nothing, and its address
is in the control only because an operand that is read in the same cycle has put it there; a launch
after a hold selects the port and sets no address. So a read is found when some operand has
addressed its register, or when the register is number zero and a read port has been left alone.

Encoding fails for a value that the layout of the target has no room or no symbol for. The values
are those the events ask for, and the defaults of the fields that nothing asks for.
-/

namespace PredicatedMesh

open TargetControlProgramVerifier MaterializedScheduleVerifier Lowerer

/-! ## Fields that fit -/

/-- The layout names fields of a control, the symbolic ones with a domain and the others without. -/
def ControlCodec.Knows (codec : ControlCodec) : Prop :=
  ∀ {field : ControlField}, field ∈ codec.layout.fields →
    (∃ k : ControlInteger, field.name = k.name ∧ field.encoding = none) ∨
      ∃ k : ControlSymbol, ∃ domain, field.name = k.name ∧ field.encoding = some domain

/-- The field of an assignment has a number for the value, an address being 32 bits wide. -/
def ControlCodec.Takes (codec : ControlCodec) : Assignment → Prop
  | .number k value => ∀ field ∈ codec.layout.fields, field.name = k.name →
    value < 2 ^ field.width ∧ value < 2 ^ 32
  | .flag k value =>
    ∀ field ∈ codec.layout.fields, field.name = k.name → value.toNat < 2 ^ field.width
  | .symbol k value => ∀ field ∈ codec.layout.fields, field.name = k.name →
    ∀ domain, field.encoding = some domain → value ∈ (codec.table domain).map Prod.fst

/-- The assignment of a field to what a control has in it. -/
def ControlKey.held (control : TileControl) : ControlKey → Assignment
  | .number field => .number field (field.get control)
  | .flag field => .flag field (field.get control)
  | .symbol field => .symbol field (field.get control)

theorem Assignment.eq_held {control : TileControl} {assignment : Assignment}
    (h : assignment.Holds control) : assignment = assignment.key.held control := by
  rcases assignment with ⟨field, value⟩ | ⟨field, value⟩ | ⟨field, value⟩
  · rw [key, ControlKey.held, ControlValue.number.inj h]
  · rw [key, ControlKey.held, ControlValue.flag.inj h]
  · rw [key, ControlKey.held, ControlValue.symbol.inj h]

theorem ControlKey.held_eq {control control' : TileControl} {key : ControlKey}
    (h : key.get control = key.get control') : key.held control = key.held control' := by
  rcases key with field | field | field
  · rw [held, held, ControlValue.number.inj h]
  · rw [held, held, ControlValue.flag.inj h]
  · rw [held, held, ControlValue.symbol.inj h]

/-- Encoding looks every field of the layout up among those of a control. -/
theorem ControlCodec.known_of_fieldValue {codec : ControlCodec} {control : TileControl}
    {field : ControlField} {v : ℕ} (h : codec.fieldValue control field = .ok v) :
    (∃ k : ControlInteger, field.name = k.name ∧ field.encoding = none) ∨
      ∃ k : ControlSymbol, ∃ domain, field.name = k.name ∧ field.encoding = some domain := by
  rw [fieldValue] at h
  split at h
  · rename_i domain hdomain
    obtain ⟨symbol, hsymbol, -⟩ := Scan.bind_eq_ok.mp h
    obtain ⟨k, hk, -⟩ := Scan.bind_eq_ok.mp hsymbol
    rw [symbolField] at hk
    split at hk
    · cases hk
    rename_i candidate hfind
    have hname : candidate.name = field.name := by simpa using List.find?_some hfind
    exact .inr ⟨candidate, domain, hname.symm, hdomain⟩
  · rename_i hnone
    obtain ⟨k, hk, -⟩ := Scan.bind_eq_ok.mp h
    rw [integerField] at hk
    split at hk
    · cases hk
    rename_i candidate hfind
    have hname : candidate.name = field.name := by simpa using List.find?_some hfind
    exact .inl ⟨candidate, hname.symm, hnone⟩

/-- The loop of the encoder has a value for every field. -/
theorem ControlCodec.exists_fieldValue {codec : ControlCodec} {control : TileControl}
    {fields : List ControlField} {start word : EncodedControl}
    (h : fields.foldlM (fun encoded field ↦ do
        let value ← codec.fieldValue control field
        encoded.insertBits field.lsb field.width value field.name) start = .ok word)
    {field : ControlField} (hfield : field ∈ fields) :
    ∃ v, codec.fieldValue control field = .ok v := by
  induction fields generalizing start with
  | nil => exact absurd hfield List.not_mem_nil
  | cons first fields ih =>
    obtain ⟨middle, hfirst, hrest⟩ := Scan.foldlM_cons_eq_ok.mp h
    rcases List.mem_cons.mp hfield with rfl | hlater
    · obtain ⟨v, hv, -⟩ := Scan.bind_eq_ok.mp hfirst
      exact ⟨v, hv⟩
    · exact ih hrest hlater

theorem ControlCodec.knows_of_encode {codec : ControlCodec} {control : TileControl}
    {word : EncodedControl} (h : codec.encode control = .ok word) : codec.Knows := by
  obtain ⟨encoded, hfields, -⟩ := Scan.bind_eq_ok.mp h
  intro field hfield
  obtain ⟨v, hv⟩ := exists_fieldValue hfields hfield
  exact known_of_fieldValue hv

theorem ControlCodec.loadedCodec {encodings : JsonObject (JsonObject ℤ)} {layout : ControlLayout}
    {codec : ControlCodec} (hload : load encodings layout = .ok codec) (hknows : codec.Knows) :
    LoadedCodec codec := by
  obtain ⟨tables, htables, hload⟩ := Scan.bind_eq_ok.mp hload
  obtain ⟨loaded, hlayout, hload⟩ := Scan.bind_eq_ok.mp hload
  obtain rfl := Except.ok.inj hload
  exact ⟨loadEncodings_valid htables, loadLayout_valid hlayout, hknows⟩

theorem Lowerer.ofString_eq_ok_iff {α : Type} {result : Except String α} {a : α} :
    ofString result = .ok a ↔ result = .ok a := by
  rcases result with message | b <;> simp [ofString]

namespace LoadedCodec

variable {codec : ControlCodec} (loaded : LoadedCodec codec) {control : TileControl}
variable {word : EncodedControl}
include loaded

/-- What a field of an encoded control reads is listed in its table. -/
theorem listed_of_agree (hagree : Agree codec control word) {field : ControlField}
    (hfield : field ∈ codec.layout.fields) {domain : String}
    (hdomain : field.encoding = some domain) :
    BitField.read word.bits field.span ∈ (codec.table domain).map Prod.snd ∧
      BitField.read word.bits field.span < 2 ^ 32 := by
  rcases loaded.known hfield with ⟨k, -, hnone⟩ | ⟨k, _, hname, -⟩
  · rw [hnone] at hdomain
    cases hdomain
  have hvalue := hagree field hfield
  rw [fieldValue_symbol hname hdomain, loaded.encodingValue_eq_ok_iff hfield hdomain] at hvalue
  obtain ⟨entries, -, htable, -, -, -, hfit⟩ := loaded.table_of_field hfield hdomain
  exact ⟨List.mem_map.mpr ⟨_, hvalue, rfl⟩, (hfit _ (htable ▸ hvalue)).1⟩

/-- **A control is encoded** exactly if every field has a number for what the control has in it. -/
theorem encode_isOk_iff_key : (∃ word, codec.encode control = .ok word) ↔
    ∀ field ∈ codec.layout.fields,
      (∀ k : ControlInteger, field.name = k.name → k.get control < 2 ^ field.width) ∧
      ∀ k : ControlSymbol, field.name = k.name → ∀ domain, field.encoding = some domain →
        k.get control ∈ (codec.table domain).map Prod.fst := by
  have hok : (∃ word, codec.encode control = .ok word) ↔
      ¬ ∃ e, codec.encode control = .error e := by
    cases codec.encode control <;> simp
  rw [hok, loaded.encode_fails_iff, not_or]
  constructor
  · rintro ⟨hsymbols, hintegers⟩ field hfield
    constructor
    · intro k hname
      by_contra hge
      exact hintegers ⟨field, hfield, k, hname, not_lt.mp hge⟩
    · intro k hname domain hdomain
      by_contra hunlisted
      exact hsymbols ⟨field, hfield, k, hname, domain, hdomain, hunlisted⟩
  · intro hall
    constructor
    · rintro ⟨field, hfield, k, hname, domain, hdomain, hunlisted⟩
      exact hunlisted ((hall field hfield).2 k hname domain hdomain)
    · rintro ⟨field, hfield, k, hname, hge⟩
      exact absurd ((hall field hfield).1 k hname) (not_lt.mpr hge)

/-- The addresses of a control are 32 bits wide where the layout lists them. -/
def Narrow (codec : ControlCodec) (control : TileControl) : Prop :=
  ∀ field ∈ codec.layout.fields, ∀ k : ControlNumber, field.name = k.name → k.get control < 2 ^ 32

/-- What has been decoded from the word of a control has the fields of the control, reduced to the
32 bits of an address. -/
theorem decode_of_encode (h : codec.encode control = .ok word) :
    ∃ decoded, codec.decode word = .ok decoded ∧ decoded.Shaped ∧
      ∀ field ∈ codec.layout.fields, ∃ v, codec.fieldValue control field = .ok v ∧
        codec.fieldValue decoded field = .ok (v % 2 ^ 32) := by
  obtain ⟨hagree, hpad⟩ := loaded.encode_eq_ok_iff.mp h
  have hlisted : ∀ field ∈ codec.layout.fields, ∀ domain, field.encoding = some domain →
      BitField.read word.bits field.span % 2 ^ 32 ∈ (codec.table domain).map Prod.snd := by
    intro field hfield domain hdomain
    obtain ⟨hmem, hlt⟩ := loaded.listed_of_agree hagree hfield hdomain
    rw [Nat.mod_eq_of_lt hlt]
    exact hmem
  have hflags : ∀ field ∈ codec.layout.fields, ∀ k : ControlFlag, field.name = k.name →
      BitField.read word.bits field.span < 2 := by
    intro field hfield k hname
    have hvalue := hagree field hfield
    rcases loaded.known hfield with ⟨j, hj, hnone⟩ | ⟨j, _, hj, -⟩
    · obtain rfl : ControlInteger.flag k = j :=
        ControlInteger.name_injective (hname.symm.trans hj)
      rw [fieldValue_integer hj hnone] at hvalue
      rw [← Except.ok.inj hvalue]
      exact Bool.toNat_lt _
    · exact absurd (hname.symm.trans hj) (integer_name_ne_symbol_name (.flag k) j)
  obtain ⟨decoded, hdecoded⟩ := (loaded.decode_isOk_iff word).mpr ⟨hpad, hlisted⟩
  obtain ⟨-, hfields⟩ := (loaded.decode_eq_ok_iff_fields word).mp hdecoded
  obtain ⟨hshaped, hvalues, -⟩ := loaded.decodeFields_spec (fun _ h ↦ h) hflags
    loaded.layout.names ⟨rfl, rfl⟩ hfields
  exact ⟨decoded, hdecoded, hshaped, fun field hfield ↦
    ⟨_, hagree field hfield, hvalues field hfield⟩⟩

/-- A narrow control survives the encoding in every field of the layout. -/
theorem fieldValue_decoded {decoded : TileControl} (h : codec.encode control = .ok word)
    (hdecode : codec.decode word = .ok decoded) (hnarrow : Narrow codec control)
    {field : ControlField} (hfield : field ∈ codec.layout.fields) :
    codec.fieldValue decoded field = codec.fieldValue control field := by
  obtain ⟨decoded', hdecoded, -, hvalues⟩ := loaded.decode_of_encode h
  obtain rfl : decoded = decoded' := Except.ok.inj (hdecode.symm.trans hdecoded)
  obtain ⟨v, hv, hv'⟩ := hvalues field hfield
  rw [hv', hv, Except.ok.injEq]
  apply Nat.mod_eq_of_lt
  obtain ⟨hagree, -⟩ := loaded.encode_eq_ok_iff.mp h
  rcases loaded.known hfield with ⟨k | k, hname, hnone⟩ | ⟨k, domain, hname, hdomain⟩
  · rw [fieldValue_integer hname hnone] at hv
    rw [← Except.ok.inj hv]
    exact hnarrow field hfield k hname
  · rw [fieldValue_integer hname hnone] at hv
    rw [← Except.ok.inj hv]
    exact (Bool.toNat_lt _).trans (by decide)
  · rw [hagree field hfield] at hv
    rw [← Except.ok.inj hv]
    exact (loaded.listed_of_agree hagree hfield hdomain).2

/-- **The round trip** adds to encoding that the addresses are 32 bits wide. -/
theorem encodeControl_isOk_iff : (∃ word, TargetLowering.encodeControl codec control = .ok word) ↔
    (∃ word, codec.encode control = .ok word) ∧ Narrow codec control := by
  constructor
  · rintro ⟨word', h⟩
    obtain ⟨word, hencode, h⟩ := Scan.bind_eq_ok.mp h
    obtain ⟨decoded, hdecode, h⟩ := Scan.bind_eq_ok.mp h
    obtain ⟨again, hagain, h⟩ := Scan.bind_eq_ok.mp h
    rw [ofString_eq_ok_iff] at hencode hdecode hagain
    split at h
    · cases h
    rename_i hsame
    obtain rfl := not_not.mp hsame
    refine ⟨⟨_, hencode⟩, ?_⟩
    intro field hfield k hname
    obtain ⟨decoded', hdecoded, -, hvalues⟩ := loaded.decode_of_encode hencode
    obtain rfl : decoded = decoded' := Except.ok.inj (hdecode.symm.trans hdecoded)
    obtain ⟨v, hv, hv'⟩ := hvalues field hfield
    -- both controls have the word, so the reduced value is the value
    have hvalue := (loaded.encode_eq_ok_iff.mp hencode).1 field hfield
    have hvalue' := (loaded.encode_eq_ok_iff.mp hagain).1 field hfield
    rw [hv, Except.ok.injEq] at hvalue
    rw [hv', Except.ok.injEq, ← hvalue] at hvalue'
    rcases loaded.known hfield with ⟨j, hj, hnone⟩ | ⟨j, _, hj, -⟩
    · obtain rfl : ControlInteger.number k = j :=
        ControlInteger.name_injective (hname.symm.trans hj)
      rw [fieldValue_integer hj hnone] at hv
      have hget : k.get control = v := Except.ok.inj hv
      rw [hget, ← hvalue']
      exact Nat.mod_lt _ (by decide)
    · exact absurd (hname.symm.trans hj) (integer_name_ne_symbol_name (.number k) j)
  · rintro ⟨⟨word, hencode⟩, hnarrow⟩
    obtain ⟨decoded, hdecode, -⟩ := loaded.decode_of_encode hencode
    have hagain : codec.encode decoded = .ok word := by
      obtain ⟨hagree, hpad⟩ := loaded.encode_eq_ok_iff.mp hencode
      refine loaded.encode_eq_ok_iff.mpr ⟨fun field hfield ↦ ?_, hpad⟩
      rw [loaded.fieldValue_decoded hencode hdecode hnarrow hfield]
      exact hagree field hfield
    refine ⟨word, Scan.bind_eq_ok.mpr ⟨word, ofString_eq_ok_iff.mpr hencode, ?_⟩⟩
    refine Scan.bind_eq_ok.mpr ⟨decoded, ofString_eq_ok_iff.mpr hdecode, ?_⟩
    exact Scan.bind_eq_ok.mpr ⟨word, ofString_eq_ok_iff.mpr hagain, if_neg (not_not.mpr rfl)⟩

/-- **A control is encoded and decoded** exactly if every field takes what the control has in it. -/
theorem encodeControl_isOk_iff_takes :
    (∃ word, TargetLowering.encodeControl codec control = .ok word) ↔
      ∀ key : ControlKey, codec.Takes (key.held control) := by
  rw [loaded.encodeControl_isOk_iff, loaded.encode_isOk_iff_key]
  constructor
  · rintro ⟨hfits, hnarrow⟩ key
    rcases key with k | k | k
    · exact fun field hfield hname ↦
        ⟨(hfits field hfield).1 (.number k) hname, hnarrow field hfield k hname⟩
    · exact fun field hfield hname ↦ (hfits field hfield).1 (.flag k) hname
    · exact fun field hfield hname ↦ (hfits field hfield).2 k hname
  · intro htakes
    refine ⟨fun field hfield ↦ ⟨fun k hname ↦ ?_, fun k hname ↦ ?_⟩, fun field hfield k hname ↦ ?_⟩
    · rcases k with k | k
      · exact (htakes (.number k) field hfield hname).1
      · exact htakes (.flag k) field hfield hname
    · exact htakes (.symbol k) field hfield hname
    · exact (htakes (.number k) field hfield hname).2

end LoadedCodec

/-! ## The condition -/

section Condition

variable (codec : ControlCodec) (dfg : TargetDFG) (target : TargetModel)
variable (mapping : RFAllocatedMapping) (image : ConstantImage)

/-- An event of a cycle asks for an assignment on a tile. -/
def Asks (bundle : CycleBundle) (tile : TileCoord) (assignment : Assignment) : Prop :=
  ∃ event ∈ bundle.events, eventTile mapping event = .ok (some tile) ∧
    ∃ call ∈ (calls dfg target mapping image { event with tile := some tile }).calls,
      assignment ∈ call.assignments

/-- The codec knows its fields and takes what the events of a cycle ask for on a tile, and the
default of every field they do not ask for. -/
def CycleFits (bundle : CycleBundle) : Prop :=
  ∀ tile, (∃ index, tileIndex target tile = .ok index) → codec.Knows ∧
    (∀ assignment, Asks dfg target mapping image bundle tile assignment → codec.Takes assignment) ∧
    ∀ key : ControlKey, (∀ assignment, Asks dfg target mapping image bundle tile assignment →
      assignment.key ≠ key) → codec.Takes (key.held {})

/-- The cycles that are lowered. A kernel that is never repeated is lowered as idle cycles. -/
def loweredCycles (schedule : MaterializedSchedule) : List CycleBundle :=
  schedule.prologue.cycles
    ++ (List.range schedule.ii).map (fun cycle ↦ schedule.kernel.body[cycle]?.getD ⟨[]⟩)
    ++ schedule.epilogue.cycles

/-- The codec has room for everything the schedule asks for. -/
def ScheduleFits (schedule : MaterializedSchedule) : Prop :=
  ∀ bundle ∈ loweredCycles schedule, CycleFits codec dfg target mapping image bundle

/-- A register read of a cycle: the address field of one of the two read ports of its bank is set to
its register, or left at zero if that is its register. -/
def ReadAddressed (bundle : CycleBundle) (event : MaterializedEvent) : Prop :=
  ∀ tile segment register, event.tile = some tile → event.physicalRegister = some register →
    findSegment mapping segment.id = .ok segment → event.segment = some segment.id →
    ∃ port, Addressed dfg target mapping bundle tile
      (BuilderCall.readAddressField segment.domain port) register.index

/-- Every register read of a schedule is addressed by an operand of its cycle. -/
def ReadsAddressed (schedule : MaterializedSchedule) : Prop :=
  ∀ bundle, bundle ∈ schedule.prologue.cycles ∨ bundle ∈ schedule.kernel.body ∨
      bundle ∈ schedule.epilogue.cycles →
    ∀ event ∈ bundle.events, event.kind = .rfRead →
      ReadAddressed dfg target mapping bundle event

end Condition

/-! ## Encoding a lowered cycle -/

section Cycle

variable {codec : ControlCodec} {dfg : TargetDFG} {target : TargetModel}
variable {mapping : RFAllocatedMapping} {image : ConstantImage} {bundle : CycleBundle}
variable {controls : List TileControl} {tile : TileCoord} {control : TileControl}

theorem lowerEvent_length {builders later : List TileBuilder} {event : MaterializedEvent}
    (h : lowerEvent dfg target mapping image builders event = .ok later) :
    later.length = builders.length := by
  unfold lowerEvent at h
  split at h
  · rw [← Except.ok.inj h]
  obtain ⟨resolved, -, h⟩ := Scan.bind_eq_ok.mp h
  split at h
  · cases h
  obtain ⟨index, -, h⟩ := Scan.bind_eq_ok.mp h
  split at h
  · cases h
  obtain ⟨next, -, h⟩ := Scan.bind_eq_ok.mp h
  rw [← Except.ok.inj h, List.length_set]

/-- A lowered cycle has a control for every tile. -/
theorem lowerCycle_length (hcycle : lowerCycle dfg target mapping image bundle = .ok controls) :
    controls.length = target.array.rows * target.array.cols := by
  obtain ⟨builders, hfold, h⟩ := Scan.bind_eq_ok.mp hcycle
  have hlength : builders.length = target.array.rows * target.array.cols :=
    Scan.foldlM_invariant (I := fun builders : List TileBuilder ↦
      builders.length = target.array.rows * target.array.cols)
      (fun _ _ _ _ hlength hstep ↦ (lowerEvent_length hstep).trans hlength) (by simp) hfold
  rw [← Except.ok.inj h, List.length_map, hlength]

/-- Every position has a tile. -/
theorem exists_tileIndex {index : ℕ} (h : index < target.array.rows * target.array.cols) :
    ∃ tile, tileIndex target tile = .ok index := by
  have hpos : 0 < target.array.cols := by
    rw [Nat.pos_iff_ne_zero]
    intro hzero
    rw [hzero, Nat.mul_zero] at h
    exact absurd h (Nat.not_lt_zero index)
  refine ⟨⟨index / target.array.cols, index % target.array.cols⟩, ?_⟩
  have hrow : index / target.array.cols < target.array.rows :=
    (Nat.div_lt_iff_lt_mul hpos).mpr h
  have hcol := Nat.mod_lt index hpos
  rw [tileIndex, if_neg (not_or.mpr ⟨not_le.mpr hrow, not_le.mpr hcol⟩), Nat.div_add_mod']

theorem tileIndex_lt {index : ℕ} (h : tileIndex target tile = .ok index) :
    index < target.array.rows * target.array.cols := by
  unfold tileIndex at h
  split at h
  · cases h
  rename_i hrange
  rw [not_or, not_le, not_le] at hrange
  rw [← Except.ok.inj h]
  calc tile.row * target.array.cols + tile.col
      < tile.row * target.array.cols + target.array.cols := Nat.add_lt_add_left hrange.2 _
    _ = (tile.row + 1) * target.array.cols := (Nat.succ_mul _ _).symm
    _ ≤ target.array.rows * target.array.cols := Nat.mul_le_mul_right _ hrange.1

/-- What has been assigned to the control of a tile is what the events there ask for. -/
theorem mem_assigned_iff (hcycle : lowerCycle dfg target mapping image bundle = .ok controls)
    {index : ℕ} (hindex : tileIndex target tile = .ok index) {assignment : Assignment} :
    (assignment ∈ bundle.events.flatMap fun event ↦
        (callsAt dfg target mapping image index event).flatMap BuilderCall.assignments) ↔
      Asks dfg target mapping image bundle tile assignment := by
  rw [List.mem_flatMap]
  refine exists_congr fun event ↦ and_congr_right fun hevent ↦ ?_
  simp only [List.mem_flatMap, mem_callsAt_iff]
  constructor
  · rintro ⟨call, ⟨resolved, hlowered, hcall⟩, hassignment⟩
    obtain ⟨htile, hevent'⟩ := hlowered.tile_eq hindex
    have hresolved := (resolve_eq_ok hlowered.2.1).2
    rw [htile] at hresolved
    exact ⟨hevent', call, hresolved ▸ hcall, hassignment⟩
  · rintro ⟨htile, call, hcall, hassignment⟩
    have hkind : event.kind ≠ .liveOutBoundaryUse := by
      intro hkind
      rw [calls] at hcall
      simp only [hkind] at hcall
      exact List.not_mem_nil hcall
    obtain ⟨index', resolved, hindex', hlowered, htile', -⟩ :=
      exists_loweredAt hcycle hevent hkind htile
    obtain rfl := Except.ok.inj (hindex.symm.trans hindex')
    have hresolved := (resolve_eq_ok hlowered.2.1).2
    rw [htile'] at hresolved
    exact ⟨call, ⟨resolved, hlowered, hresolved ▸ hcall⟩, hassignment⟩

/-- **A lowered cycle is encoded** exactly if what it asks for fits. -/
theorem encodes_iff_cycleFits {encodings : JsonObject (JsonObject ℤ)} {layout : ControlLayout}
    (hload : ControlCodec.load encodings layout = .ok codec)
    (hcycle : lowerCycle dfg target mapping image bundle = .ok controls) :
    (∀ control ∈ controls, ∃ word, TargetLowering.encodeControl codec control = .ok word) ↔
      CycleFits codec dfg target mapping image bundle := by
  have hcontrol : ∀ {tile : TileCoord} {index : ℕ} {control : TileControl},
      tileIndex target tile = .ok index → controls[index]? = some control →
      ((∃ word, TargetLowering.encodeControl codec control = .ok word) ↔ codec.Knows ∧
        (∀ assignment, Asks dfg target mapping image bundle tile assignment →
          codec.Takes assignment) ∧
        ∀ key : ControlKey, (∀ assignment, Asks dfg target mapping image bundle tile assignment →
          assignment.key ≠ key) → codec.Takes (key.held {})) := by
    intro tile index control hindex hget
    obtain ⟨builder, rfl, hsettled⟩ := (lowerCycle_settled hcycle).1 index control hget
    constructor
    · rintro ⟨word, hword⟩
      have hknows : codec.Knows := by
        obtain ⟨encoded, hencoded, -⟩ := Scan.bind_eq_ok.mp hword
        exact ControlCodec.knows_of_encode (ofString_eq_ok_iff.mp hencoded)
      have htakes := (ControlCodec.loadedCodec hload hknows).encodeControl_isOk_iff_takes.mp
        ⟨word, hword⟩
      refine ⟨hknows, ?_, ?_⟩
      · intro assignment hasks
        have hholds := (hsettled.holds assignment ((mem_assigned_iff hcycle hindex).mpr hasks)).2
        rw [Assignment.eq_held hholds]
        exact htakes assignment.key
      · intro key hnone
        have hfree : key.label ∉ builder.owned := by
          intro howned
          obtain ⟨assignment, hmem, hkey⟩ := hsettled.assigned key howned
          exact hnone assignment ((mem_assigned_iff hcycle hindex).mp hmem) hkey
        rw [← ControlKey.held_eq (hsettled.default key hfree)]
        exact htakes key
    · rintro ⟨hknows, hasked, hdefault⟩
      rw [(ControlCodec.loadedCodec hload hknows).encodeControl_isOk_iff_takes]
      intro key
      by_cases howned : key.label ∈ builder.owned
      · obtain ⟨assignment, hmem, rfl⟩ := hsettled.assigned key howned
        rw [← Assignment.eq_held (hsettled.holds assignment hmem).2]
        exact hasked assignment ((mem_assigned_iff hcycle hindex).mp hmem)
      · rw [ControlKey.held_eq (hsettled.default key howned)]
        refine hdefault key fun assignment hasks hkey ↦ howned ?_
        rw [← hkey]
        exact (hsettled.holds assignment ((mem_assigned_iff hcycle hindex).mpr hasks)).1
  have hlength := lowerCycle_length hcycle
  constructor
  · rintro hall tile ⟨index, hindex⟩
    have hlt : index < controls.length := by
      rw [hlength]
      exact tileIndex_lt hindex
    exact (hcontrol hindex (List.getElem?_eq_getElem hlt)).mp (hall _ (List.getElem_mem hlt))
  · intro hfits control hmem
    obtain ⟨index, hlt, rfl⟩ := List.getElem_of_mem hmem
    obtain ⟨tile, hindex⟩ := exists_tileIndex (hlength ▸ hlt)
    exact (hcontrol hindex (List.getElem?_eq_getElem hlt)).mpr (hfits tile ⟨index, hindex⟩)

end Cycle

/-! ## What the events ask for -/

section Events

variable {dfg : TargetDFG} {target : TargetModel} {mapping : RFAllocatedMapping}
variable {image : ConstantImage} {event : MaterializedEvent}

/-- An issue asks for its operation. -/
theorem merge_mem_calls (hkind : event.kind = .nodeIssue)
    (herror : (calls dfg target mapping image event).error = none) :
    ∃ id node operation encoding, event.node = some id ∧ dfg.findNode id = some node ∧
      target.findOperation node.operation = some operation ∧
      operation.encoding = some encoding ∧
      .merge (if operation.executionClass = .fu then "op" else "lsuOp") encoding.symbol
        ∈ (calls dfg target mapping image event).calls := by
  simp only [calls, hkind] at herror ⊢
  unfold lowerNodeIssue at herror ⊢
  split at herror
  · rename_i id tile hnode htile
    split at herror
    · cases herror
    rename_i node hfound
    split at herror
    · cases herror
    rename_i operation hoperation
    split at herror
    · cases herror
    rename_i encoding hencoding
    simp only [hnode]
    exact ⟨id, node, operation, encoding, rfl, hfound, hoperation, hencoding, List.mem_cons_self⟩
  · cases herror

/-- The sources of values are no idle source. -/
theorem resultSource_ne_none {source : TargetResultSource} {name : String}
    (h : resultSource source = .ok name) : name ≠ "NONE" := by
  rcases source with _ | _ | _ | _ <;> cases h <;> decide

theorem producerSource_ne_none {edge : TargetEdge} {name : String}
    (h : producerSource dfg target edge = .ok name) : name ≠ "NONE" := by
  unfold producerSource at h
  split at h
  · cases h
  split at h
  · cases h
  · exact resultSource_ne_none h

theorem boundarySource_ne_none {edge : TargetEdge} {id : ℕ} {name : String}
    (h : boundarySource dfg edge id = .ok name) : name ≠ "NONE" := by
  unfold boundarySource at h
  split at h
  · cases h
  · rw [← Except.ok.inj h]
    split
    · split <;> decide
    · decide

theorem rfSource_ne_none (second : Bool) : rfSource second ≠ "NONE" := by
  rcases second with _ | _ <;> decide

theorem edgeInput_ne_none (edge : TargetEdge) (direction : Direction) :
    edgeInput edge direction ≠ "NONE" := by
  rw [edgeInput]
  split <;> rcases direction with _ | _ | _ | _ <;> decide

/-- What a producer's turn ends with, when nothing fails. -/
theorem mem_lowerFromProducer {edge : TargetEdge} {iteration : ℤ}
    {fallback : Except LoweringError String} {rest : Bool → String → Lowered}
    (herror : (lowerFromProducer dfg image edge iteration fallback rest).error = none) :
    ∃ boundary source, ((∃ id, boundarySource dfg edge id = .ok source) ∨ fallback = .ok source) ∧
      (rest boundary source).error = none ∧ ∀ call ∈ (rest boundary source).calls,
        call ∈ (lowerFromProducer dfg image edge iteration fallback rest).calls := by
  unfold lowerFromProducer at herror ⊢
  obtain ⟨boundary?, hboundary, hrest⟩ := bind_error herror
  rw [hrest] at herror
  rw [hrest]
  rcases boundary? with _ | ⟨address, source⟩
  · obtain ⟨source, hsource, hrest⟩ := bind_error herror
    rw [hrest] at herror
    exact ⟨false, source, .inr hsource, herror, fun call hcall ↦ by rwa [hrest]⟩
  · simp only [Lowered.call] at herror ⊢
    obtain ⟨name, hname, hrest⟩ := bind_error herror
    rw [hrest] at herror
    -- the source is that of a boundary constant
    obtain ⟨id, hid⟩ : ∃ id, source = boundarySource dfg edge id := by
      unfold boundaryProvider at hboundary
      obtain ⟨id?, -, hboundary⟩ := Scan.bind_eq_ok.mp hboundary
      rcases id? with _ | id
      · cases hboundary
      · obtain ⟨address', -, hboundary⟩ := Scan.bind_eq_ok.mp hboundary
        exact ⟨id, (Prod.mk.inj (Option.some.inj (Except.ok.inj hboundary))).2.symm⟩
    refine ⟨true, name, .inl ⟨id, hid ▸ hname⟩, herror, fun call hcall ↦ ?_⟩
    rw [hrest]
    exact List.mem_cons_of_mem _ hcall

/-- A launch asks for a route. -/
theorem route_mem_calls (hkind : event.kind = .linkLaunch)
    (herror : (calls dfg target mapping image event).error = none) :
    ∃ domain direction source, event.domain = some domain ∧ event.direction = some direction ∧
      source ≠ "NONE" ∧
      .route domain direction source ∈ (calls dfg target mapping image event).calls := by
  simp only [calls, hkind] at herror ⊢
  split at herror
  · cases herror
  rename_i htile
  rw [if_neg htile]
  unfold lowerLinkLaunch at herror ⊢
  split at herror
  · rename_i edgeId direction domain action hedge hdirection hdomain haction
    refine ⟨domain, direction, ?_⟩
    split at herror
    · cases herror
    rename_i edge hfound
    split at herror
    · cases herror
    rename_i hmemory
    obtain ⟨dependence, hdependence, hrest⟩ := bind_error herror
    rw [hrest] at herror
    simp only [hdirection, hdomain, if_neg hmemory, hrest, true_and]
    split at herror
    · cases herror
    rename_i plan hplan
    split at herror
    · cases herror
    rename_i hindex
    simp only [if_neg hindex]
    split at herror
    · rename_i hzero
      obtain ⟨boundary, source, hsource, -, hcalls⟩ := mem_lowerFromProducer herror
      refine ⟨source, ?_, ?_⟩
      · rcases hsource with ⟨id, hid⟩ | hproducer
        · exact boundarySource_ne_none hid
        · exact producerSource_ne_none hproducer
      · rw [if_pos hzero]
        exact hcalls _ List.mem_cons_self
    · rename_i hzero
      simp only [if_neg hzero]
      split at herror
      · rename_i hold hbefore
        split at herror
        · cases herror
        · rename_i segment hsegment
          obtain ⟨allocation, hallocation, hrest'⟩ := bind_error herror
          refine ⟨_, rfSource_ne_none (allocation.readPort == 1), ?_⟩
          simp only [hrest']
          exact List.mem_cons_self
      · rename_i prior hbefore
        refine ⟨_, edgeInput_ne_none edge prior.direction, ?_⟩
        exact List.mem_cons_self
      · cases herror
  · cases herror

/-- A checked write asks for a port of its bank, at its register. -/
theorem write_mem_calls {request : ScheduleMaterializationRequest} {schedule : MaterializedSchedule}
    {cycle : ℕ} {segment : StorageSegment} {edge : TargetEdge} {allocation : StorageAllocation}
    (hv : dfg.Verified target) (hkind : event.kind = .rfWrite)
    (haccess : Access dfg mapping request schedule event cycle segment edge allocation)
    (herror : (calls dfg target mapping image event).error = none) :
    ∃ port source, (if segment.domain = .data then .dataWrite port allocation.reg.index source
      else .predicateWrite port allocation.reg.index source)
        ∈ (calls dfg target mapping image event).calls := by
  rw [calls_rfWrite hv hkind haccess] at herror ⊢
  obtain ⟨boundary, source, -, -, hcalls⟩ := mem_lowerFromProducer herror
  refine ⟨if boundary then allocation.boundaryWritePort.getD allocation.writePort
    else allocation.writePort, source, hcalls _ ?_⟩
  unfold writeCall
  simp only
  split
  · exact List.mem_cons_self
  · exact List.mem_cons_self

end Events

/-! ## What the verifier finds -/

/-- The registers of the banks are inside them. -/
def AllocatesInside (target : TargetModel) : Prop :=
  ∀ domain row col bank, target.registerBank domain row col = some bank →
    ∀ index, bank.allocates index = true → index < bank.depth

section Found

variable {dfg : TargetDFG} {target : TargetModel} {mapping : RFAllocatedMapping}
variable {image : ConstantImage} {bundle : CycleBundle} {controls : List TileControl}
variable {event : MaterializedEvent} {tile : TileCoord} {control : TileControl}

/-- An event of a lowered cycle is looked up in the control of its tile, which holds what the event
has asked for. -/
theorem exists_lookup (hcycle : lowerCycle dfg target mapping image bundle = .ok controls)
    (hevent : event ∈ bundle.events) (hkind : event.kind ≠ .liveOutBoundaryUse) :
    ∃ tile control resolved, eventTile mapping event = .ok (some tile) ∧
      TargetControlProgramVerifier.controlAt target controls tile = .ok control ∧
      TargetControlProgramVerifier.verifyEvent dfg target mapping controls event
        = verifyControl dfg target mapping control event ∧
      resolved = { event with tile := some tile } ∧
      (calls dfg target mapping image resolved).error = none ∧
      ∀ call ∈ (calls dfg target mapping image resolved).calls,
        ∀ assignment ∈ call.assignments, assignment.Holds control := by
  obtain ⟨index, resolved, hlowered, herror⟩ := (lowerCycle_settled hcycle).2 event hevent hkind
  obtain ⟨-, hresolve, tile, htile, hindex⟩ := id hlowered
  obtain ⟨hevent', hresolved⟩ := resolve_eq_ok hresolve
  rw [htile] at hevent' hresolved
  have hlt : index < controls.length := by
    rw [lowerCycle_length hcycle]
    exact tileIndex_lt hindex
  have hcontrol : TargetControlProgramVerifier.controlAt target controls tile
      = .ok controls[index] := by
    rw [TargetControlProgramVerifier.controlAt, hindex]
    simp only [List.getElem?_eq_getElem hlt]
  refine ⟨tile, controls[index], resolved, hevent', hcontrol, ?_, hresolved, herror, ?_⟩
  · rw [TargetControlProgramVerifier.verifyEvent, if_neg hkind, hevent']
    simp only [hcontrol]
  · intro call hcall assignment hassignment
    exact get_of_mem_calls hcycle hcontrol hevent hindex hlowered hcall hassignment

/-- A port that is enabled with the address is admitted, whatever the other does. -/
theorem writePortsAdmit_of_enabled {ports : (Bool × ℕ) × (Bool × ℕ)} {index : ℕ}
    (h : PortEnabledAt ports index) : writePortsAdmit ports index = true := by
  obtain ⟨⟨first, firstAddress⟩, second, secondAddress⟩ := ports
  rcases h with h | h <;> obtain ⟨rfl, rfl⟩ := Prod.mk.inj h <;> simp [writePortsAdmit]

/-- A write that the control holds is enabled at its register. -/
theorem portEnabledAt_of_holds {domain : RegisterBankDomain} {port index : ℕ} {source : String}
    (h : ∀ assignment ∈ (if domain = .data then BuilderCall.dataWrite port index source
      else .predicateWrite port index source).assignments, assignment.Holds control) :
    PortEnabledAt (writePorts control domain) index := by
  rcases domain with _ | _ <;>
    simp only [if_true, reduceCtorEq, if_false, BuilderCall.assignments] at h <;>
    split at h <;>
    simp only [List.forall_mem_cons, Assignment.Holds, Assignment.key, Assignment.value,
      ControlKey.get, ControlValue.flag.injEq, ControlValue.number.injEq] at h
  · exact .inl (Prod.ext h.1 h.2.1)
  · exact .inr (Prod.ext h.1 h.2.1)
  · exact .inl (Prod.ext h.1 h.2.1)
  · exact .inr (Prod.ext h.1 h.2.1)

/-- An operation that the control holds. -/
theorem op_of_holds {executionClass : TargetExecutionClass} {name : String}
    (h : ∀ assignment ∈ (BuilderCall.merge (if executionClass = .fu then "op" else "lsuOp")
      name).assignments, assignment.Holds control) :
    (if executionClass = .fu then control.op else control.lsuOp) = name := by
  rcases executionClass with _ | _ <;>
    simp only [if_true, reduceCtorEq, if_false, BuilderCall.assignments, BuilderCall.mergeField,
      Option.map_some, Option.toList_some, List.forall_mem_cons, Assignment.Holds, Assignment.key,
      Assignment.value, ControlKey.get, ControlValue.symbol.injEq] at h ⊢
  · exact h.1
  · exact h.1

/-- A route that the control holds. -/
theorem route_of_holds {domain : NetworkDomain} {direction : Direction} {source : String}
    (h : ∀ assignment ∈ (BuilderCall.route domain direction source).assignments,
      assignment.Holds control) :
    (routeAt (routes control domain) direction).enabled = true ∧
      (routeAt (routes control domain) direction).source = source := by
  simp only [BuilderCall.assignments, List.forall_mem_cons, Assignment.Holds, Assignment.key,
    Assignment.value, ControlKey.get, ControlValue.flag.injEq, ControlValue.symbol.injEq] at h
  rcases domain with _ | _
  · exact ⟨h.1, h.2.1⟩
  · exact ⟨h.1, h.2.1⟩

/-- The two read addresses of a bank are those of its ports. -/
theorem readAddresses_eq_or {domain : RegisterBankDomain} {index : ℕ} :
    ((readAddresses control domain).1 = index ∨ (readAddresses control domain).2 = index) ↔
      ∃ port, (BuilderCall.readAddressField domain port).get control = index := by
  constructor
  · rintro (h | h)
    · exact ⟨0, by rcases domain with _ | _ <;> exact h⟩
    · exact ⟨1, by rcases domain with _ | _ <;> exact h⟩
  · rintro ⟨port, h⟩
    rcases port with _ | port
    · exact .inl (by rcases domain with _ | _ <;> exact h)
    · exact .inr (by rcases domain with _ | _ <;> exact h)

section Checked

variable {request : ScheduleMaterializationRequest} {schedule : MaterializedSchedule}

/-- **One event.** The verifier finds it in the lowered controls, unless it is a read that no
operand addresses. -/
theorem verifyEvent_iff (h : TargetDFGVerifier.verify dfg target = [])
    (hinside : AllocatesInside target) (haccepted : Accepted dfg target mapping request schedule)
    (hchecked : event.kind ≠ .boundaryValueInject → event.kind ≠ .liveOutBoundaryUse →
      ∃ cycle recorded, verifyPeriodic dfg mapping request schedule event cycle
        = .ok (recorded, []))
    (hcycle : lowerCycle dfg target mapping image bundle = .ok controls)
    (hevent : event ∈ bundle.events) :
    TargetControlProgramVerifier.verifyEvent dfg target mapping controls event = .ok true ↔
      (event.kind = .rfRead → ReadAddressed dfg target mapping bundle event) := by
  by_cases huse : event.kind = .liveOutBoundaryUse
  · rw [TargetControlProgramVerifier.verifyEvent, if_pos huse]
    simp [huse]
  obtain ⟨tile, control, resolved, htile, hcontrol, hverify, rfl, herror, hholds⟩ :=
    exists_lookup hcycle hevent huse
  rw [hverify]
  have hii := haccepted.ii_eq
  cases hkind : event.kind with
  | boundaryValueInject => simp [verifyControl, hkind]
  | liveOutBoundaryUse => exact absurd hkind huse
  | nodeIssue =>
    obtain ⟨id, node, operation, encoding, hnode, hfound, hoperation, hencoding, hcall⟩ :=
      merge_mem_calls (by exact hkind) herror
    have hop := op_of_holds (hholds _ hcall)
    simp only at hnode
    simp [verifyControl, hkind, TargetControlProgramVerifier.verifyNodeIssue, hnode, hfound,
      hoperation, hencoding, hop]
  | linkLaunch =>
    obtain ⟨domain, direction, source, hdomain, hdirection, hsource, hcall⟩ :=
      route_mem_calls (by exact hkind) herror
    obtain ⟨henabled, hname⟩ := route_of_holds (hholds _ hcall)
    simp only at hdomain hdirection
    simp [verifyControl, hkind, TargetControlProgramVerifier.verifyLinkLaunch, hdomain, hdirection,
      henabled, hname, hsource]
  | rfWrite =>
    obtain ⟨cycle, recorded, hperiodic⟩ := hchecked (by simp [hkind]) (by simp [hkind])
    simp only [verifyPeriodic, hkind, Except.ok.injEq] at hperiodic
    obtain ⟨-, segment, edge, allocation, haccess⟩ := verifyRFAccess_clean hii hperiodic
    obtain rfl : segment.tile = tile := by
      rw [eventTile_of_tile haccess.tile_eq] at htile
      exact Option.some.inj (Except.ok.inj htile)
    have hsame : { event with tile := some segment.tile } = event := by rw [← haccess.tile_eq]
    rw [hsame] at herror hholds
    obtain ⟨port, source, hcall⟩ := write_mem_calls haccepted.graph hkind haccess herror
    have hadmit := writePortsAdmit_of_enabled (portEnabledAt_of_holds (hholds _ hcall))
    obtain ⟨allocation', bank, hheld⟩ := haccepted.allocated.held segment haccess.segment_mem
    obtain rfl := Option.some.inj (hheld.entry.symm.trans haccess.allocation_eq)
    have hsegment : findSegment mapping segment.id = .ok segment := by
      rw [findSegment, haccess.found]
    have hbank := hheld.registerBank
    have hdepth := hinside _ _ _ _ hbank _ hheld.allocates
    simp [verifyControl, hkind, verifyRFWrite, haccess.register_eq, haccess.segment_eq, hsegment,
      hheld.tile, hbank, hdepth, hheld.allocates, hadmit]
  | rfRead =>
    obtain ⟨cycle, recorded, hperiodic⟩ := hchecked (by simp [hkind]) (by simp [hkind])
    simp only [verifyPeriodic, hkind, Except.ok.injEq] at hperiodic
    obtain ⟨-, segment, edge, allocation, haccess⟩ := verifyRFAccess_clean hii hperiodic
    obtain rfl : segment.tile = tile := by
      rw [eventTile_of_tile haccess.tile_eq] at htile
      exact Option.some.inj (Except.ok.inj htile)
    obtain ⟨allocation', bank, hheld⟩ := haccepted.allocated.held segment haccess.segment_mem
    obtain rfl : allocation' = allocation :=
      Option.some.inj (hheld.entry.symm.trans haccess.allocation_eq)
    have hsegment : findSegment mapping segment.id = .ok segment := by
      rw [findSegment, haccess.found]
    have hlook : verifyControl dfg target mapping control event = .ok true ↔
        ∃ port, (BuilderCall.readAddressField segment.domain port).get control
          = allocation'.reg.index := by
      rw [← readAddresses_eq_or]
      simp [verifyControl, hkind, verifyRFRead, haccess.register_eq, haccess.segment_eq, hsegment,
        hheld.tile]
    rw [hlook]
    simp only [readAddress_get_iff h hcycle hcontrol, forall_const]
    constructor
    · intro haddressed tile' segment' register htile' hregister hsegment' hid
      -- the event names one segment, one register and one tile
      obtain rfl := Option.some.inj (htile'.symm.trans haccess.tile_eq)
      obtain rfl := Option.some.inj (hregister.symm.trans haccess.register_eq)
      rw [← Option.some.inj (haccess.segment_eq.symm.trans hid), hsegment, Except.ok.injEq]
        at hsegment'
      subst hsegment'
      exact haddressed
    · intro hread
      exact hread segment.tile segment allocation'.reg haccess.tile_eq haccess.register_eq hsegment
        haccess.segment_eq

end Checked

end Found

/-! ## Programs -/

section Programs

variable {codec : ControlCodec} {dfg : TargetDFG} {target : TargetModel}
variable {mapping : RFAllocatedMapping} {schedule : MaterializedSchedule} {image : ConstantImage}
variable {request : ScheduleMaterializationRequest} {program : TargetControlProgram}

theorem run_metadata (h : Lowerer.run dfg target mapping schedule image = .ok program) :
    program.ii = schedule.ii ∧ program.tripCount = schedule.tripCount := by
  unfold Lowerer.run at h
  split at h
  · cases h
  obtain ⟨prologue, -, h⟩ := Scan.bind_eq_ok.mp h
  obtain ⟨body, -, h⟩ := Scan.bind_eq_ok.mp h
  obtain ⟨epilogue, -, h⟩ := Scan.bind_eq_ok.mp h
  rw [← Except.ok.inj h]
  exact ⟨rfl, rfl⟩

/-- The cycles of a lowered kernel. -/
theorem lowered_kernel (h : ((List.range schedule.ii).mapM fun cycle ↦
      lowerCycle dfg target mapping image (schedule.kernel.body[cycle]?.getD ⟨[]⟩))
        = .ok program.kernelBody) :
    List.Forall₂ (fun bundle controls ↦ lowerCycle dfg target mapping image bundle = .ok controls)
      ((List.range schedule.ii).map fun cycle ↦ schedule.kernel.body[cycle]?.getD ⟨[]⟩)
      program.kernelBody :=
  List.forall₂_map_left_iff.mpr (Scan.mapM_eq_ok.mp h)

/-- The cycles of a lowered program are those of the schedule, one by one. -/
theorem lowered_cycles (h : Lowerer.run dfg target mapping schedule image = .ok program) :
    List.Forall₂ (fun bundle controls ↦ lowerCycle dfg target mapping image bundle = .ok controls)
      (loweredCycles schedule) (program.prologue ++ program.kernelBody ++ program.epilogue) := by
  obtain ⟨hprologue, hkernel, hepilogue⟩ := run_eq_ok h
  exact List.rel_append (List.rel_append (Scan.mapM_eq_ok.mp hprologue) (lowered_kernel hkernel))
    (Scan.mapM_eq_ok.mp hepilogue)

/-- The controls of a lowered program are those of its tiles. -/
theorem phaseShape_of_lowered {cycles : List CycleBundle} {phase : List (List TileControl)}
    (h : List.Forall₂ (fun bundle controls ↦ lowerCycle dfg target mapping image bundle
      = .ok controls) cycles phase) : phaseShape target phase = true := by
  rw [phaseShape, List.all_eq_true]
  induction h with
  | nil => simp
  | cons hcycle _ ih =>
    rw [List.forall_mem_cons]
    exact ⟨beq_iff_eq.mpr (lowerCycle_length hcycle), ih⟩

/-- A phase of a lowered program is found exactly if its reads are addressed. -/
theorem verifyPhase_iff_addressed (h : TargetDFGVerifier.verify dfg target = [])
    (hinside : AllocatesInside target) (haccepted : Accepted dfg target mapping request schedule)
    {cycles : List CycleBundle} {phase : List (List TileControl)}
    (hcycles : ∀ bundle ∈ cycles, bundle ∈ schedule.prologue.cycles ∨
      bundle ∈ schedule.kernel.body ∨ bundle ∈ schedule.epilogue.cycles)
    (hlength : cycles.length ≤ phase.length)
    (hlowered : ∀ (i : ℕ) (bundle : CycleBundle) (controls : List TileControl),
      cycles[i]? = some bundle → phase[i]? = some controls →
      lowerCycle dfg target mapping image bundle = .ok controls) :
    verifyPhase dfg target mapping cycles phase = .ok true ↔
      ∀ bundle ∈ cycles, ∀ event ∈ bundle.events, event.kind = .rfRead →
        ReadAddressed dfg target mapping bundle event := by
  have hevent : ∀ {i : ℕ} {bundle : CycleBundle} {controls : List TileControl}
      {event : MaterializedEvent}, cycles[i]? = some bundle → phase[i]? = some controls →
      event ∈ bundle.events →
      (TargetControlProgramVerifier.verifyEvent dfg target mapping controls event = .ok true ↔
        (event.kind = .rfRead → ReadAddressed dfg target mapping bundle event)) := by
    intro i bundle controls event hbundle hcontrols hmem
    exact verifyEvent_iff h hinside haccepted
      (periodic_checked haccepted hmem (hcycles bundle (List.mem_of_getElem? hbundle)))
      (hlowered i bundle controls hbundle hcontrols) hmem
  rw [verifyPhase_iff]
  constructor
  · rintro ⟨-, hall⟩ bundle hbundle event hmem
    obtain ⟨i, hi⟩ := List.mem_iff_getElem?.mp hbundle
    have hlt := (List.getElem?_eq_some_iff.mp hi).1
    have hcontrols := List.getElem?_eq_getElem (hlt.trans_le hlength)
    exact (hevent hi hcontrols hmem).mp (hall event _ ⟨i, bundle, hi, hcontrols, hmem⟩)
  · intro hall
    refine ⟨hlength, ?_⟩
    rintro event controls ⟨i, bundle, hi, hcontrols, hmem⟩
    exact (hevent hi hcontrols hmem).mpr (hall bundle (List.mem_of_getElem? hi) event hmem)

/-- **The lowerer's own output** is accepted exactly if its register reads are addressed and its
controls are encoded. -/
theorem verify_run_iff (h : TargetDFGVerifier.verify dfg target = [])
    (hinside : AllocatesInside target) (haccepted : Accepted dfg target mapping request schedule)
    (hrun : Lowerer.run dfg target mapping schedule image = .ok program) :
    TargetControlProgramVerifier.verify codec dfg target mapping schedule program = .ok none ↔
      ReadsAddressed dfg target mapping schedule ∧
        encodingError codec (program.prologue ++ program.kernelBody ++ program.epilogue)
          = none := by
  obtain ⟨hprologue, hkernel, hepilogue⟩ := run_eq_ok hrun
  obtain ⟨hii, htrip⟩ := run_metadata hrun
  have hprologue' := Scan.mapM_eq_ok.mp hprologue
  have hkernel' := lowered_kernel hkernel
  have hepilogue' := Scan.mapM_eq_ok.mp hepilogue
  have hbody : program.kernelBody.length = program.ii := by
    rw [hii, ← (Scan.mapM_eq_ok.mp hkernel).length_eq, List.length_range]
  have hshort : schedule.kernel.body.length ≤ program.kernelBody.length := by
    rw [hbody, hii]
    by_cases hrepeat : schedule.kernel.repeatCount = 0
    · rw [haccepted.shape.1 hrepeat]
      exact Nat.zero_le _
    · rw [haccepted.shape.2 hrepeat]
  -- the phases
  have hphase := verifyPhase_iff_addressed h hinside haccepted (fun _ h ↦ .inl h)
    hprologue'.length_eq.le fun _ _ _ hbundle ↦ lowered_of_mapM hprologue hbundle
  have hphase' := verifyPhase_iff_addressed h hinside haccepted (fun _ h ↦ .inr (.inl h))
    hshort fun _ _ _ hbundle ↦ lowered_of_kernel hkernel hbundle
  have hphase'' := verifyPhase_iff_addressed h hinside haccepted (fun _ h ↦ .inr (.inr h))
    hepilogue'.length_eq.le fun _ _ _ hbundle ↦ lowered_of_mapM hepilogue hbundle
  rw [verify_eq_ok_none_iff, hphase, hphase', hphase'']
  constructor
  · rintro ⟨-, -, hencodes, hfirst, hsecond, hthird⟩
    refine ⟨?_, hencodes⟩
    rintro bundle (hbundle | hbundle | hbundle)
    · exact hfirst bundle hbundle
    · exact hsecond bundle hbundle
    · exact hthird bundle hbundle
  · rintro ⟨hreads, hencodes⟩
    exact ⟨⟨hii, htrip⟩, ⟨phaseShape_of_lowered hprologue', phaseShape_of_lowered hepilogue', hbody,
      phaseShape_of_lowered hkernel'⟩, hencodes,
      fun bundle hbundle ↦ hreads bundle (.inl hbundle),
      fun bundle hbundle ↦ hreads bundle (.inr (.inl hbundle)),
      fun bundle hbundle ↦ hreads bundle (.inr (.inr hbundle))⟩

/-- **A lowered program is encoded** exactly if what the schedule asks for fits. -/
theorem encodeProgram_run_iff {encodings : JsonObject (JsonObject ℤ)} {layout : ControlLayout}
    (hload : ControlCodec.load encodings layout = .ok codec)
    (hrun : Lowerer.run dfg target mapping schedule image = .ok program) :
    (∃ encoded, TargetLowering.encodeProgram codec program = .ok encoded) ↔
      ScheduleFits codec dfg target mapping image schedule := by
  rw [TargetLowering.encodeProgram_isOk_iff]
  exact Scan.forall_iff_of_forall₂ (fun _ _ hcycle ↦ encodes_iff_cycleFits hload hcycle)
    (lowered_cycles hrun)

/-- **When lowering succeeds.** For inputs their verifiers accept whose lowering raises no error,
the controls pass verification and the encoding round trip exactly if every register read of the
schedule is addressed by an operand of its cycle and the layout has room for every value that is
asked for. -/
theorem TargetLowering.lower_succeeds_iff {encodings : JsonObject (JsonObject ℤ)}
    {layout : ControlLayout} (codec : ControlCodec)
    (hload : ControlCodec.load encodings layout = .ok codec)
    (dfg : TargetDFG) (target : TargetModel) (mapping : RFAllocatedMapping)
    (schedule : MaterializedSchedule) (hinside : AllocatesInside target)
    (hdfg : TargetDFGVerifier.verify dfg target = [])
    (hmapping : RFAllocationVerifier.verify dfg target mapping = .ok [])
    (hschedule : MaterializedScheduleVerifier.verify dfg target mapping
      { tripCount := schedule.tripCount } schedule = .ok [])
    (image : ConstantImage) (himage : allocateConstants dfg target = .ok image)
    (program : TargetControlProgram)
    (hrun : Lowerer.run dfg target mapping schedule image = .ok program) :
    (∃ encoded, lower codec dfg target mapping schedule = .ok ⟨program, encoded, image⟩) ↔
      ReadsAddressed dfg target mapping schedule ∧
        ScheduleFits codec dfg target mapping image schedule := by
  have haccepted := accepted_of_verify hschedule
  rw [← encodeProgram_run_iff hload hrun]
  constructor
  · rintro ⟨encoded, hlower⟩
    obtain ⟨-, -, -, -, -, hverify, hencoded⟩ := lower_eq_ok_iff.mp hlower
    exact ⟨((verify_run_iff hdfg hinside haccepted hrun).mp hverify).1, encoded, hencoded⟩
  · rintro ⟨hreads, encoded, hencoded⟩
    have hencodes : encodingError codec
        (program.prologue ++ program.kernelBody ++ program.epilogue) = none := by
      rw [encodingError_eq_none_iff]
      intro controls hcontrols control hcontrol
      obtain ⟨word, hword⟩ := encodeProgram_isOk_iff.mp ⟨encoded, hencoded⟩ controls hcontrols
        control hcontrol
      obtain ⟨word', hword', -⟩ := Scan.bind_eq_ok.mp hword
      exact ⟨word', ofString_eq_ok_iff.mp hword'⟩
    exact ⟨encoded, lower_eq_ok_iff.mpr ⟨hdfg, hmapping, hschedule, himage, hrun,
      (verify_run_iff hdfg hinside haccepted hrun).mpr ⟨hreads, hencodes⟩, hencoded⟩⟩

end Programs

/-! ### A relay

The value waits in a register of the tile on its way and is launched again from there. Nothing else
reads a register in that cycle, so nothing puts the address of the register into the control. With
the register of `detour_lowered`, number zero, none is needed. -/

theorem shippedTarget_allocatesInside : AllocatesInside shippedTarget := by
  intro domain row col bank hbank index hallocates
  obtain rfl := TargetModel.registerBank_eq_some hbank
  have hindices : ∀ domain, ∀ index ∈ (shippedTarget.bankDesc domain).allocatableIndices,
      index < (shippedTarget.bankDesc domain).depth := by
    intro domain
    rcases domain with _ | _ <;> decide
  exact hindices domain index (by simpa [RegisterFileDesc.allocates] using hallocates)

/-- The register reads of the detour are addressed, and all it asks for fits. -/
theorem detour_addressed : ReadsAddressed detourDFG shippedTarget detourAllocated detourSchedule ∧
    ScheduleFits shippedCodec detourDFG shippedTarget detourAllocated detourImage
      detourSchedule := by
  obtain ⟨encoded, hlower⟩ := detour_lowered
  obtain ⟨hdfg, hmapping, hschedule, himage, hrun, -, -⟩ := TargetLowering.lower_eq_ok_iff.mp hlower
  exact (TargetLowering.lower_succeeds_iff shippedCodec shippedCodec_load detourDFG shippedTarget
    detourAllocated detourSchedule shippedTarget_allocatesInside hdfg hmapping hschedule detourImage
    himage detourProgram hrun).mp ⟨encoded, hlower⟩

def relayPlan : TransportPlan where
  edge := 0
  domain := .data
  actions :=
    [.linkStep ⟨.data, ⟨0, 0⟩, .east, 0⟩, .virtualHold ⟨.data, ⟨0, 1⟩, 1, 2⟩,
      .linkStep ⟨.data, ⟨0, 1⟩, .east, 2⟩]
  requiredSeparationCycles := 3

/-- The value waits in register one of tile `(0,1)`. -/
def relayAllocated : RFAllocatedMapping where
  staged :=
    { modulo :=
        { targetName := "cgra_v3_shared4p"
          ii := 4
          placements := [⟨0, ⟨0, 0⟩, 0⟩, ⟨1, ⟨0, 2⟩, 3⟩]
          dependences := [⟨0, .data, 3, some relayPlan⟩] }
      stages := [⟨0, 0⟩, ⟨1, 0⟩]
      sorted := delayLineStaged.sorted }
  storageRequirements :=
    ⟨4, [⟨0, 0, ⟨0, 1⟩, .data, 1, 2, [⟨.explicitVirtualHold, 0, some 1⟩]⟩]⟩
  allocations := [⟨0, ⟨⟨0, 1⟩, "data_rf", 1⟩, 0, 1, none⟩]

def relaySchedule : MaterializedSchedule :=
  let link := fun (action : ℕ) (col : ℕ) ↦
    ({ kind := .linkLaunch, logicalIteration := 0, edge := some 0
       transportActionIndex := some action, domain := some .data, tile := some ⟨0, col⟩
       direction := some .east } : MaterializedEvent)
  let access := fun (kind : MaterializedEventKind) ↦
    ({ kind := kind, logicalIteration := 0, edge := some 0, segment := some 0
       domain := some .data, tile := some ⟨0, 1⟩
       physicalRegister := some ⟨⟨0, 1⟩, "data_rf", 1⟩ } : MaterializedEvent)
  { ii := 4
    tripCount := 1
    timeOriginShift := 0
    totalLogicalCycles := 5
    prologue := ⟨[]⟩
    kernel :=
      ⟨[⟨[{ kind := .nodeIssue, logicalIteration := 0, node := some 0 }, link 0 0]⟩,
        ⟨[access .rfWrite]⟩, ⟨[access .rfRead, link 2 1]⟩,
        ⟨[{ kind := .nodeIssue, logicalIteration := 0, node := some 1 }]⟩], 1⟩
    epilogue :=
      ⟨[⟨[{ kind := .liveOutBoundaryUse, logicalIteration := 0, node := some 1
            liveOut := some 0 }]⟩]⟩ }

/-- The launch of cycle two selects the read port, whose address stays zero. -/
def relayProgram : TargetControlProgram where
  ii := 4
  tripCount := 1
  prologue := []
  kernelBody :=
    [delayLineCycle
      [(0, { op := "PASS", srcA := "CONST_DATA", dataRoutes := passEast "FU_DATA_RESULT" })],
      delayLineCycle
        [(1,
          { dataWrite1Enable := true, dataWrite1Addr := 1, dataWrite1Source := "WEST_DATA_IN" })],
      delayLineCycle [(1, { dataRoutes := passEast "RF_A" })],
      delayLineCycle [(2, { op := "PASS", srcA := "WEST_DATA_IN" })]]
  kernelRepeatCount := 1
  epilogue := [delayLineCycle []]

theorem relaySchedule_materialized : ScheduleMaterializer.materialize detourDFG shippedTarget
    relayAllocated { tripCount := 1 } = .ok (.ok relaySchedule) := by
  decide +kernel

theorem relay_encodes : encodingError shippedCodec
    (relayProgram.prologue ++ relayProgram.kernelBody ++ relayProgram.epilogue) = none := by
  have hfits : ∀ controls ∈ relayProgram.prologue ++ relayProgram.kernelBody
        ++ relayProgram.epilogue, ∀ control ∈ controls,
      ∀ field ∈ shippedControlLayout.fields, shippedCodec.fits control field = true := by
    decide
  exact encodingError_eq_none_iff.mpr fun controls hcontrols control hcontrol ↦
    shippedCodec_encodes (hfits controls hcontrols control hcontrol)

/-- An accepted mapping and schedule, lowered without an error, whose controls the verifier
refuses. -/
theorem relay_not_represented :
    TargetDFGVerifier.verify detourDFG shippedTarget = [] ∧
    RFAllocationVerifier.verify detourDFG shippedTarget relayAllocated = .ok [] ∧
    MaterializedScheduleVerifier.verify detourDFG shippedTarget relayAllocated
      { tripCount := relaySchedule.tripCount } relaySchedule = .ok [] ∧
    TargetLowering.allocateConstants detourDFG shippedTarget = .ok detourImage ∧
    Lowerer.run detourDFG shippedTarget relayAllocated relaySchedule detourImage
      = .ok relayProgram ∧
    TargetLowering.lower shippedCodec detourDFG shippedTarget relayAllocated relaySchedule
      = .error ⟨.verificationFailure,
        "kernel semantic event is not represented by target control"⟩ := by
  have hdfg : TargetDFGVerifier.verify detourDFG shippedTarget = [] := by decide
  have hmapping : RFAllocationVerifier.verify detourDFG shippedTarget relayAllocated = .ok [] := by
    decide +kernel
  have hschedule : MaterializedScheduleVerifier.verify detourDFG shippedTarget relayAllocated
      { tripCount := relaySchedule.tripCount } relaySchedule = .ok [] :=
    (ScheduleMaterializer.materialize_eq_ok relaySchedule_materialized).2
  have himage : TargetLowering.allocateConstants detourDFG shippedTarget = .ok detourImage := by
    decide
  have hrun : Lowerer.run detourDFG shippedTarget relayAllocated relaySchedule detourImage
      = .ok relayProgram := by decide
  have hprologue : verifyPhase detourDFG shippedTarget relayAllocated relaySchedule.prologue.cycles
      relayProgram.prologue = .ok true := by decide
  have hkernel : verifyPhase detourDFG shippedTarget relayAllocated relaySchedule.kernel.body
      relayProgram.kernelBody = .ok false := by decide
  have hverify : TargetControlProgramVerifier.verify shippedCodec detourDFG shippedTarget
      relayAllocated relaySchedule relayProgram
      = .ok (some "kernel semantic event is not represented by target control") := by
    rw [TargetControlProgramVerifier.verify, if_neg (by decide), if_neg (by decide),
      relay_encodes]
    simp only [hprologue, hkernel, continueIf]
    rfl
  refine ⟨hdfg, hmapping, hschedule, himage, hrun, ?_⟩
  simp only [TargetLowering.lower, TargetLowering.requireClean, hdfg, hmapping, hschedule, himage,
    hrun, TargetLowering.verifyControls, hverify, ofString, bind, Except.bind, pure, Except.pure,
    List.isEmpty_nil, if_true]

end PredicatedMesh
