import Mathlib.Data.BitVec
import PredicatedMesh.Frontend.AddressLowering
import PredicatedMesh.Frontend.MemorySoundness

/-!
# Which addresses are lowered faithfully

The descriptor of an access and the address nodes of its pointer operand both start from the object
the pointer is based on, and both add the offset of one pointer operation only, the outermost. The
descriptor adds it when that operation is a `getelementptr` instruction, wherever it stands. The
address nodes are there when it is a `getelementptr` of the loop that has not been left out.

What lies below the outermost operation is lost in both. `addressLowering_iff` says that this, a
`getelementptr` without address nodes, and an index that has been left out are the only ways for
the address of an access to be wrong.
-/

namespace PredicatedMesh.Frontend

/-! ## What a pointer denotes -/

/-- One run of the loop. Words are four bytes, and the offsets that `collectOffset` declines to
describe are given as they are. -/
structure AddressRun where
  /-- The word address of an object. -/
  base : PointerRoot → ℤ
  /-- The value of a scalar in an iteration. -/
  value : Scalar → ℕ → ℤ
  /-- The external values the graph is given. -/
  external : Scalar → BitVec 32
  /-- The values the nodes of the graph compute. -/
  computed : Scalar → ℕ → BitVec 32
  undescribed : Site → ℕ → ℤ

variable (run : AddressRun)

def GEPOffset.bytes (offset : GEPOffset) (i : ℕ) : ℤ :=
  offset.constantOffset + (offset.variableOffsets.map fun entry ↦ entry.2 * run.value entry.1 i).sum

namespace Pointer

/-- The distance in bytes from the object a pointer is based on. -/
def byteOffset : Pointer → ℕ → ℤ
  | .root _, _ => 0
  | .cast _ base, i => byteOffset base i
  | .gep _ base (some offset), i => byteOffset base i + offset.bytes run i
  | .gep site base none, i => byteOffset base i + run.undescribed site i

def byteAddress (pointer : Pointer) (i : ℕ) : ℤ :=
  4 * run.base pointer.underlying + pointer.byteOffset run i

/-- The pointer below the outermost operation. -/
def inner : Pointer → Pointer
  | .root object => .root object
  | .gep _ base _ => base
  | .cast _ base => base

/-- The dynamic indices of the outermost operation with their scales in bytes. -/
def dynamicIndices : Pointer → List (Scalar × ℤ)
  | .gep _ _ (some offset) => offset.variableOffsets
  | _ => []

theorem byteOffset_of_asGEPInst {pointer : Pointer} {offset : GEPOffset}
    (h : pointer.asGEPInst = some (some offset)) (i : ℕ) :
    pointer.byteOffset run i = pointer.inner.byteOffset run i + offset.bytes run i ∧
      pointer.dynamicIndices = offset.variableOffsets := by
  unfold asGEPInst at h
  split at h
  · obtain rfl := Option.some.inj h
    exact ⟨rfl, rfl⟩
  · obtain rfl := Option.some.inj h
    exact ⟨rfl, rfl⟩
  · cases h

end Pointer

namespace AddressTerm

/-- The value of an operand in an iteration. -/
def eval (i : ℕ) : AddressTerm → BitVec 32
  | .object root => BitVec.ofInt 32 (run.base root)
  | .external value => run.external value
  | .computed value => run.computed value i
  | .constant bits => bits
  | .add lhs rhs => lhs.eval i + rhs.eval i
  | .mul lhs rhs => lhs.eval i * rhs.eval i

end AddressTerm

/-- What `ScalarEvolution` says is so. -/
def AddressRun.Follows (analyses : LLVMAnalyses) : Prop :=
  ∀ scalar affine, affineValue analyses scalar = some affine →
    ∀ i, run.value scalar i = affine.offset + i * affine.stride

/-- In an iteration, the descriptor and the address nodes give the word that the pointer operand
denotes. -/
structure Faithful (access : LLVMMemoryAccessDescriptor) (address : AddressTerm) (i : ℕ) :
    Prop where
  descriptor : 4 * touchedWord run.base access i = access.address.byteAddress run i
  lowered : ∃ word, 4 * word = access.address.byteAddress run i ∧
    address.eval run i = BitVec.ofInt 32 word

/-! ## What the descriptor says -/

section Descriptor

variable {analyses : LLVMAnalyses} {run}

/-- What the analysis finds out about an access: its offset is that of the outermost operation when
this is a `getelementptr` instruction, and zero otherwise. -/
structure Described (run : AddressRun) (access : LLVMMemoryAccessDescriptor) : Prop where
  base_eq : access.base = access.address.underlying
  offset_fits : fitsAddressWord access.constantOffsetWords = true
  stride_fits : fitsAddressWord access.iterationStrideWords = true
  of_none : access.address.asGEPInst = none →
    access.constantOffsetWords = 0 ∧ access.iterationStrideWords = 0
  of_some : ∀ collected, access.address.asGEPInst = some collected →
    ∃ offset, collected = some offset ∧
      (∀ i : ℕ, 4 * (access.constantOffsetWords + i * access.iterationStrideWords)
        = offset.bytes run i) ∧
      (access.dynamicIndex = none ∧ offset.variableOffsets = [] ∧
          access.constantOffsetWords = access.gepConstantOffsetWords ∧
          access.iterationStrideWords = 0 ∨
        ∃ index scaleBytes, access.dynamicIndex = some index ∧
          offset.variableOffsets = [(index, scaleBytes)] ∧
          access.dynamicScaleWords = scaleBytes.tdiv 4 ∧
          ∀ i : ℕ, access.constantOffsetWords + i * access.iterationStrideWords
            = access.gepConstantOffsetWords + scaleBytes.tdiv 4 * run.value index i)

theorem mul_tdiv_four {bytes : ℤ} (h : bytes.tmod 4 = 0) : 4 * bytes.tdiv 4 = bytes := by
  have hdivision := Int.mul_tdiv_add_tmod bytes 4
  omega

theorem described_of_analyzeAccess (hunderlying : ∀ pointer : Pointer,
      analyses.getUnderlyingObject pointer = pointer.underlying) (hscev : run.Follows analyses)
    {instruction : MemoryInstruction} {access : LLVMMemoryAccessDescriptor}
    (h : analyzeAccess analyses instruction = .ok access) : Described run access := by
  rcases analyzeAccess_ok h with ⟨hnone, rfl⟩ | ⟨collected, hsome, h⟩
  · refine ⟨hunderlying _, rfl, rfl, fun _ ↦ ⟨rfl, rfl⟩, fun collected hsome ↦ ?_⟩
    rw [show (initialDescriptor analyses instruction).address = instruction.address from rfl,
      hnone] at hsome
    cases hsome
  · obtain ⟨offset, rfl, haligned, hgep, ⟨hvariable, rfl⟩ |
      ⟨index, scaleBytes, affine, hindex, rfl⟩⟩ := describeOffset_ok h
    · refine ⟨hunderlying _, hgep, rfl, fun hnone ↦ ?_, fun collected' hsome' ↦ ?_⟩
      · cases hsome.symm.trans hnone
      · obtain rfl := Option.some.inj (hsome'.symm.trans hsome)
        refine ⟨offset, rfl, fun i ↦ ?_, .inl ⟨rfl, hvariable, rfl, rfl⟩⟩
        have hbytes := mul_tdiv_four haligned
        simp only [GEPOffset.bytes, hvariable, initialDescriptor, List.map_nil, List.sum_nil]
        linarith
    · refine ⟨hunderlying _, hindex.derivedOffset, hindex.derivedStride, fun hnone ↦ ?_,
        fun collected' hsome' ↦ ?_⟩
      · cases hsome.symm.trans hnone
      · obtain rfl := Option.some.inj (hsome'.symm.trans hsome)
        have hbytes := mul_tdiv_four haligned
        have hscale := mul_tdiv_four hindex.aligned
        have hvalue := hscev index affine hindex.affineValue
        refine ⟨offset, rfl, fun i ↦ ?_,
          .inr ⟨index, scaleBytes, rfl, hindex.variableOffsets, rfl, fun i ↦ ?_⟩⟩
        · simp only [GEPOffset.bytes, hindex.variableOffsets, List.map_cons, List.map_nil,
            List.sum_cons, List.sum_nil, hvalue i]
          linear_combination hbytes + (affine.offset + i * affine.stride) * hscale
        · simp only [hvalue i]
          ring

theorem described_of_mem (hunderlying : ∀ pointer : Pointer,
      analyses.getUnderlyingObject pointer = pointer.underlying) (hscev : run.Follows analyses)
    {instructions : List MemoryInstruction} {result : LLVMMemoryAnalysisResult}
    (h : analyzeMemoryDependences analyses instructions = .ok result)
    {access : LLVMMemoryAccessDescriptor} (hmem : access ∈ result.accesses) :
    Described run access := by
  obtain ⟨described, hdescribed, h⟩ := Scan.bind_eq_ok.mp h
  obtain ⟨state, -, h⟩ := Scan.bind_eq_ok.mp h
  obtain rfl := Except.ok.inj h
  obtain ⟨id, hid, rfl⟩ := List.mem_mapIdx.mp hmem
  obtain ⟨instruction, -, hok⟩ := Scan.exists_source_of_mem hdescribed (List.getElem_mem hid)
  have hd := described_of_analyzeAccess hunderlying hscev hok
  exact ⟨hd.base_eq, hd.offset_fits, hd.stride_fits, hd.of_none, hd.of_some⟩

/-- The descriptor is right when nothing lies below the operation it describes. -/
theorem descriptor_iff {access : LLVMMemoryAccessDescriptor} (h : Described run access) (i : ℕ) :
    4 * touchedWord run.base access i = access.address.byteAddress run i ↔
      (access.address.asGEPInst = none → access.address.byteOffset run i = 0) ∧
        (access.address.asGEPInst ≠ none → access.address.inner.byteOffset run i = 0) := by
  rw [touchedWord, Pointer.byteAddress, h.base_eq]
  cases hgep : access.address.asGEPInst with
  | none =>
    obtain ⟨hoffset, hstride⟩ := h.of_none hgep
    rw [hoffset, hstride]
    simp only [forall_true_left, ne_eq, not_true_eq_false, false_implies, and_true]
    constructor
    · intro hsame
      linarith
    · intro hzero
      linarith
  | some collected =>
    obtain ⟨offset, rfl, hbytes, -⟩ := h.of_some _ hgep
    obtain ⟨hsplit, -⟩ := Pointer.byteOffset_of_asGEPInst run hgep i
    have hbytes := hbytes i
    simp only [reduceCtorEq, false_implies, ne_eq, not_false_eq_true, forall_true_left, true_and]
    rw [hsplit]
    constructor
    · intro hsame
      linarith
    · intro hzero
      linarith

end Descriptor

/-! ## What the address nodes compute -/

section Nodes

variable {analyses : LLVMAnalyses} {run} {state : IfLoweringState}

/-- What the graph has for a scalar. A value that has been left out is an external value, the same
in every iteration. -/
def AddressRun.supplied (run : AddressRun) (state : IfLoweringState) : Scalar → ℕ → BitVec 32
  | .constantInt _ bits, _ => BitVec.ofNat 32 bits
  | .invariant symbol bitWidth, _ => run.external (.invariant symbol bitWidth)
  | .instruction id bitWidth, i =>
    if !state.phis id && state.shouldSkip id then run.external (.instruction id bitWidth)
    else run.computed (.instruction id bitWidth) i

/-- What the graph has for the dynamic index contributes what the index does. -/
def IndexSupplied (run : AddressRun) (state : IfLoweringState) (pointer : Pointer) (i : ℕ) : Prop :=
  ∀ entry ∈ pointer.dynamicIndices,
    BitVec.ofInt 32 (entry.2.tdiv 4) * run.supplied state entry.1 i
      = BitVec.ofInt 32 (entry.2.tdiv 4 * run.value entry.1 i)

theorem eval_provider {value : Scalar} {term : AddressTerm}
    (h : provider state value = .ok term) (i : ℕ) :
    term.eval run i = run.supplied state value i := by
  unfold provider at h
  split at h
  · cases h
  · split at h
    · obtain rfl := Except.ok.inj h
      rfl
    · obtain rfl := Except.ok.inj h
      rfl
    · rename_i id bitWidth _
      unfold AddressRun.supplied
      split at h
      · rename_i hphi
        split at h
        · obtain rfl := Except.ok.inj h
          simp [hphi, AddressTerm.eval]
        · cases h
      · rename_i hphi
        split at h
        · rename_i hskip
          obtain rfl := Except.ok.inj h
          simp [hphi, hskip, AddressTerm.eval]
        · rename_i hskip
          obtain rfl := Except.ok.inj h
          simp [hskip, AddressTerm.eval]

theorem eval_addressConstant (value : ℤ) (i : ℕ) :
    (addressConstant value).eval run i = BitVec.ofInt 32 value := rfl

/-- The address nodes add the object, the constant offset and the scaled index. -/
theorem eval_gepAddress {access : LLVMMemoryAccessDescriptor} {address : AddressTerm}
    (h : gepAddress state access = .ok address) (i : ℕ) :
    (access.dynamicIndex = none ∧ address.eval run i = BitVec.ofInt 32 (run.base access.base)
        + BitVec.ofInt 32 access.gepConstantOffsetWords) ∨
      ∃ index term, access.dynamicIndex = some index ∧ provider state index = .ok term ∧
        address.eval run i = BitVec.ofInt 32 (run.base access.base)
          + (BitVec.ofInt 32 access.gepConstantOffsetWords
            + BitVec.ofInt 32 access.dynamicScaleWords * term.eval run i) := by
  unfold gepAddress at h
  split at h
  · rename_i hindex
    obtain rfl := Except.ok.inj h
    exact .inl ⟨hindex, rfl⟩
  · rename_i index hindex
    obtain ⟨term, hterm, h⟩ := Scan.bind_eq_ok.mp h
    obtain rfl := Except.ok.inj h
    refine .inr ⟨index, term, hindex, hterm, ?_⟩
    have hscaled : (if access.dynamicScaleWords ≠ 1 then
          AddressTerm.mul term (addressConstant access.dynamicScaleWords) else term).eval run i
        = BitVec.ofInt 32 access.dynamicScaleWords * term.eval run i := by
      split
      · rw [AddressTerm.eval, eval_addressConstant, mul_comm]
      · rename_i hone
        rw [not_ne_iff.mp hone]
        exact (one_mul _).symm
    rw [AddressTerm.eval, AddressTerm.eval]
    congr 1
    split
    · rw [AddressTerm.eval, hscaled, eval_addressConstant, add_comm]
    · rename_i hzero
      rw [hscaled, not_ne_iff.mp hzero]
      exact (zero_add _).symm

/-- Address nodes are right when what the graph has for the index is. -/
theorem gepAddress_iff {access : LLVMMemoryAccessDescriptor} (hd : Described run access)
    (hgep : access.address.asGEPInst ≠ none) {address : AddressTerm}
    (h : gepAddress state access = .ok address) (i : ℕ) :
    address.eval run i = BitVec.ofInt 32 (touchedWord run.base access i) ↔
      IndexSupplied run state access.address i := by
  obtain ⟨collected, hsome⟩ := Option.ne_none_iff_exists'.mp hgep
  obtain ⟨offset, rfl, -, hindex⟩ := hd.of_some _ hsome
  obtain ⟨-, hindices⟩ := Pointer.byteOffset_of_asGEPInst run hsome i
  rw [touchedWord, IndexSupplied, hindices]
  rcases hindex with ⟨hnone, hvariable, hconstant, hstride⟩ |
    ⟨index, scaleBytes, hindex, hvariable, hscale, hwords⟩
  · rcases @eval_gepAddress run _ _ _ h i with ⟨-, heval⟩ | ⟨index, term, hindex, -⟩
    · rw [heval, hconstant, hstride, hvariable, mul_zero, add_zero, BitVec.ofInt_add]
      simp
    · cases hnone.symm.trans hindex
  · rcases @eval_gepAddress run _ _ _ h i with ⟨hnone, -⟩ | ⟨index', term, hindex', hterm, heval⟩
    · cases hnone.symm.trans hindex
    · obtain rfl := Option.some.inj (hindex.symm.trans hindex')
      rw [heval, add_assoc, hwords i, BitVec.ofInt_add, BitVec.ofInt_add, add_right_inj,
        add_right_inj, hscale, hvariable, eval_provider hterm]
      constructor
      · intro hsame entry hentry
        obtain rfl := List.mem_singleton.mp hentry
        exact hsame
      · intro hall
        exact hall (index, scaleBytes) (List.mem_singleton_self _)

end Nodes

/-! ## Which pointers have address nodes -/

/-- A `getelementptr` of the loop that has not been left out. -/
def LoopBody.HasNode (body : LoopBody) (pointer : Pointer) : Prop :=
  pointer ∈ body.pointers ∧ ∃ id base offset,
    pointer = .gep (.inLoop id) base offset ∧ body.state.shouldSkip id = false

section Providers

variable {analyses : LLVMAnalyses} {body : LoopBody} {accesses : List LLVMMemoryAccessDescriptor}

theorem LoopBody.HasNode.asGEPInst_ne {pointer : Pointer} (h : body.HasNode pointer) :
    pointer.asGEPInst ≠ none := by
  obtain ⟨-, id, base, offset, rfl, -⟩ := h
  exact Option.some_ne_none _

/-- What the lowering of a pointer operation adds. -/
theorem lowerPointer_ok {pointer : Pointer} {own : List (Pointer × AddressTerm)}
    (hpointer : pointer ∈ body.pointers)
    (h : lowerPointer body.state accesses pointer = .ok own) :
    (∀ entry ∈ own, entry.1 = pointer ∧ body.HasNode pointer ∧ ∃ access ∈ accesses,
        access.address = pointer ∧ gepAddress body.state access = .ok entry.2) ∧
      (body.HasNode pointer → ∃ address, (pointer, address) ∈ own) := by
  unfold lowerPointer at h
  split at h
  · rename_i id base offset
    split at h
    · rename_i hskip
      obtain rfl := Except.ok.inj h
      refine ⟨fun entry hentry ↦ absurd hentry List.not_mem_nil, ?_⟩
      rintro ⟨-, id', base', offset', hsame, hkeep⟩
      obtain ⟨hsite, -, -⟩ := Pointer.gep.inj hsame
      obtain rfl := Site.inLoop.inj hsite
      rw [hskip] at hkeep
      cases hkeep
    · rename_i hkeep
      split at h
      · cases h
      · rename_i access hfound
        obtain ⟨address, haddress, h⟩ := Scan.bind_eq_ok.mp h
        obtain rfl := Except.ok.inj h
        refine ⟨fun entry hentry ↦ ?_, fun _ ↦ ⟨address, List.mem_singleton_self _⟩⟩
        obtain rfl := List.mem_singleton.mp hentry
        exact ⟨rfl, ⟨hpointer, id, base, offset, rfl, Bool.not_eq_true _ ▸ hkeep⟩, access,
          List.mem_of_find?_eq_some hfound, by simpa using List.find?_some hfound, haddress⟩
  · split at h
    · obtain rfl := Except.ok.inj h
      refine ⟨fun entry hentry ↦ absurd hentry List.not_mem_nil, ?_⟩
      rintro ⟨-, id', base', offset', hsame, -⟩
      cases hsame
    · cases h
  · rename_i hgep _
    obtain rfl := Except.ok.inj h
    refine ⟨fun entry hentry ↦ absurd hentry List.not_mem_nil, ?_⟩
    rintro ⟨-, id, base, offset, hsame, -⟩
    exact absurd hsame (hgep id base offset)

/-- A pointer has the address nodes of an access with this address, or it is bound to an object. -/
theorem pointerProvider_spec {nodes : List (List (Pointer × AddressTerm))}
    (h : body.pointers.mapM (lowerPointer body.state accesses) = .ok nodes) (pointer : Pointer) :
    (body.HasNode pointer → ∃ access ∈ accesses, access.address = pointer ∧
        gepAddress body.state access = .ok (pointerProvider analyses nodes.flatten pointer)) ∧
      (¬body.HasNode pointer → pointerProvider analyses nodes.flatten pointer
        = .object (analyses.getUnderlyingObject pointer)) := by
  have hentry : ∀ entry ∈ nodes.flatten, body.HasNode entry.1 ∧ ∃ access ∈ accesses,
      access.address = entry.1 ∧ gepAddress body.state access = .ok entry.2 := by
    intro entry hmem
    obtain ⟨own, hown, hmem⟩ := List.mem_flatten.mp hmem
    obtain ⟨source, hsource, hok⟩ := Scan.exists_source_of_mem h hown
    obtain ⟨rfl, hnode, haccess⟩ := (lowerPointer_ok hsource hok).1 entry hmem
    exact ⟨hnode, haccess⟩
  unfold pointerProvider
  constructor
  · intro hnode
    obtain ⟨own, hown, hok⟩ := Scan.exists_result_of_mem h hnode.1
    obtain ⟨address, hmem⟩ := (lowerPointer_ok hnode.1 hok).2 hnode
    split
    · rename_i found hfound
      obtain ⟨before, after, hsplit, -⟩ := List.lookup_eq_some_iff.mp hfound
      exact (hentry (pointer, found) (by simp [hsplit])).2
    · rename_i hfound
      have hdifferent := List.lookup_eq_none_iff.mp hfound (pointer, address)
        (List.mem_flatten.mpr ⟨own, hown, hmem⟩)
      simp at hdifferent
  · intro hnone
    split
    · rename_i found hfound
      obtain ⟨before, after, hsplit, -⟩ := List.lookup_eq_some_iff.mp hfound
      exact absurd (hentry (pointer, found) (by simp [hsplit])).1 hnone
    · rfl

end Providers

/-! ## The theorem -/

/-- The whole offset of a pointer operand is accounted for. With address nodes, nothing lies below
the outermost operation, and the graph has the index; without, there is no offset at all. -/
structure Kept (body : LoopBody) (run : AddressRun) (tripCount : ℕ) (pointer : Pointer) : Prop where
  node : body.HasNode pointer → ∀ i < tripCount,
    pointer.inner.byteOffset run i = 0 ∧ IndexSupplied run body.state pointer i
  direct : ¬body.HasNode pointer → ∀ i < tripCount, pointer.byteOffset run i = 0 ∧
    (pointer.asGEPInst ≠ none → pointer.inner.byteOffset run i = 0)

theorem eq_zero_of_ofInt {word : ℤ} (hfits : fitsAddressWord word = true)
    (h : BitVec.ofInt 32 word = 0) : word = 0 := by
  have hbounds : -2 ^ 31 ≤ word ∧ word ≤ 2 ^ 31 - 1 := by simpa [fitsAddressWord] using hfits
  have hint : (BitVec.ofInt 32 word).toInt = word :=
    BitVec.toInt_ofInt_eq_self (by decide) (by omega) (by omega)
  rw [← hint, h]
  rfl

section Settled

variable {analyses : LLVMAnalyses} {body : LoopBody} {run : AddressRun}
  {accesses : List LLVMMemoryAccessDescriptor} {access : LLVMMemoryAccessDescriptor}

/-- An access whose pointer has address nodes. The nodes are those of the first access with this
pointer, whose descriptor says the same. -/
theorem faithful_of_hasNode (hd : ∀ access ∈ accesses, Described run access)
    {nodes : List (List (Pointer × AddressTerm))}
    (hnodes : body.pointers.mapM (lowerPointer body.state accesses) = .ok nodes)
    (hmem : access ∈ accesses) (hnode : body.HasNode access.address) (i : ℕ) :
    Faithful run access (pointerProvider analyses nodes.flatten access.address) i ↔
      access.address.inner.byteOffset run i = 0 ∧
        IndexSupplied run body.state access.address i := by
  have hgep := hnode.asGEPInst_ne
  obtain ⟨found, hfound, haddress, hgepAddress⟩ :=
    (pointerProvider_spec hnodes access.address).1 hnode
  have hiff := gepAddress_iff (hd found hfound) (haddress ▸ hgep) hgepAddress i
  have hown := descriptor_iff (hd access hmem) i
  have hfirst := descriptor_iff (hd found hfound) i
  rw [haddress] at hiff hfirst
  constructor
  · rintro ⟨hdescriptor, word, hword, heval⟩
    have hinner := (hown.mp hdescriptor).2 hgep
    have htouched := hfirst.mpr (hown.mp hdescriptor)
    refine ⟨hinner, hiff.mp ?_⟩
    rw [heval, show word = touchedWord run.base found i by linarith]
  · rintro ⟨hinner, hindex⟩
    have hzero : (access.address.asGEPInst = none → access.address.byteOffset run i = 0) ∧
        (access.address.asGEPInst ≠ none → access.address.inner.byteOffset run i = 0) :=
      ⟨fun hnone ↦ absurd hnone hgep, fun _ ↦ hinner⟩
    exact ⟨hown.mpr hzero, touchedWord run.base found i, hfirst.mpr hzero, hiff.mpr hindex⟩

/-- An access whose pointer is bound to its object. -/
theorem faithful_of_object (hunderlying : ∀ pointer : Pointer,
      analyses.getUnderlyingObject pointer = pointer.underlying) (i : ℕ) :
    Faithful run access (.object (analyses.getUnderlyingObject access.address)) i ↔
      (∃ word, access.address.byteOffset run i = 4 * word ∧ BitVec.ofInt 32 word = 0) ∧
        4 * touchedWord run.base access i = access.address.byteAddress run i := by
  constructor
  · rintro ⟨hdescriptor, word, hword, heval⟩
    refine ⟨⟨word - run.base access.address.underlying, ?_, ?_⟩, hdescriptor⟩
    · rw [Pointer.byteAddress] at hword
      linarith
    · rw [AddressTerm.eval, hunderlying] at heval
      rw [← sub_add_cancel word (run.base access.address.underlying), add_comm,
        BitVec.ofInt_add] at heval
      exact left_eq_add.mp heval
  · rintro ⟨⟨word, hword, hzero⟩, hdescriptor⟩
    refine ⟨hdescriptor, run.base access.address.underlying + word, ?_, ?_⟩
    · rw [Pointer.byteAddress, hword, mul_add]
    · rw [AddressTerm.eval, hunderlying, BitVec.ofInt_add, hzero, add_zero]

/-- Without address nodes, an offset that is a multiple of the address space in every iteration is
zero: the descriptor keeps its constant part and its stride within a word. -/
theorem byteOffset_eq_zero (hd : Described run access) {tripCount : ℕ}
    (hdescriptor : ∀ i < tripCount,
      4 * touchedWord run.base access i = access.address.byteAddress run i)
    (hbound : ∀ i < tripCount, ∃ word, access.address.byteOffset run i = 4 * word ∧
      BitVec.ofInt 32 word = 0) {i : ℕ} (hi : i < tripCount) :
    access.address.byteOffset run i = 0 := by
  cases hgep : access.address.asGEPInst with
  | none => exact ((descriptor_iff hd i).mp (hdescriptor i hi)).1 hgep
  | some collected =>
    have htouched : ∀ j < tripCount, BitVec.ofInt 32
        (access.constantOffsetWords + j * access.iterationStrideWords) = 0 ∧
        access.address.byteOffset run j
          = 4 * (access.constantOffsetWords + j * access.iterationStrideWords) := by
      intro j hj
      obtain ⟨word, hword, hzero⟩ := hbound j hj
      have hsame := hdescriptor j hj
      rw [touchedWord, Pointer.byteAddress, hd.base_eq] at hsame
      have hoffset : word = access.constantOffsetWords + j * access.iterationStrideWords := by
        linarith
      exact ⟨hoffset ▸ hzero, hoffset ▸ hword⟩
    have hconstant : access.constantOffsetWords = 0 :=
      eq_zero_of_ofInt hd.offset_fits (by simpa using (htouched 0 (by omega)).1)
    rw [(htouched i hi).2, hconstant]
    rcases Nat.eq_zero_or_pos i with rfl | hpos
    · simp
    · have hstride : access.iterationStrideWords = 0 :=
        eq_zero_of_ofInt hd.stride_fits (by simpa [hconstant] using (htouched 1 (by omega)).1)
      rw [hstride]
      simp

theorem faithful_iff_kept (hunderlying : ∀ pointer : Pointer,
      analyses.getUnderlyingObject pointer = pointer.underlying)
    (hd : ∀ access ∈ accesses, Described run access)
    {nodes : List (List (Pointer × AddressTerm))}
    (hnodes : body.pointers.mapM (lowerPointer body.state accesses) = .ok nodes)
    (hmem : access ∈ accesses) (tripCount : ℕ) :
    (∀ i < tripCount,
        Faithful run access (pointerProvider analyses nodes.flatten access.address) i) ↔
      Kept body run tripCount access.address := by
  by_cases hnode : body.HasNode access.address
  · simp only [faithful_of_hasNode hd hnodes hmem hnode]
    exact ⟨fun h ↦ ⟨fun _ ↦ h, fun hnone ↦ absurd hnode hnone⟩, fun h ↦ h.node hnode⟩
  · rw [(pointerProvider_spec hnodes access.address).2 hnode]
    simp only [faithful_of_object hunderlying]
    constructor
    · intro h
      refine ⟨fun hsome ↦ absurd hsome hnode, fun _ i hi ↦ ⟨?_, ?_⟩⟩
      · exact byteOffset_eq_zero (hd access hmem) (fun j hj ↦ (h j hj).2) (fun j hj ↦ (h j hj).1) hi
      · exact ((descriptor_iff (hd access hmem) i).mp (h i hi).2).2
    · intro h i hi
      obtain ⟨hzero, hinner⟩ := h.direct hnode i hi
      exact ⟨⟨0, by rw [hzero, mul_zero], rfl⟩,
        (descriptor_iff (hd access hmem) i).mpr ⟨fun _ ↦ hzero, hinner⟩⟩

end Settled

/-- The descriptor of an access and what its pointer operand is bound to give the word that LLVM's
pointer denotes in every iteration, exactly when the whole offset of the pointer is kept. -/
theorem addressLowering_iff {analyses : LLVMAnalyses} {body : LoopBody} {run : AddressRun}
    (hunderlying : ∀ pointer : Pointer, analyses.getUnderlyingObject pointer = pointer.underlying)
    (hscev : run.Follows analyses) {result : LLVMMemoryAnalysisResult}
    (hanalysis : analyzeMemoryDependences analyses body.instructions = .ok result)
    {addresses : List AddressTerm}
    (hlower : lowerAddresses analyses body result.accesses = .ok addresses) (tripCount : ℕ) :
    List.Forall₂ (fun access address ↦ (∀ i < tripCount, Faithful run access address i) ↔
      Kept body run tripCount access.address) result.accesses addresses := by
  obtain ⟨nodes, hnodes, hlower⟩ := Scan.bind_eq_ok.mp hlower
  split at hlower
  · cases hlower
  · obtain rfl := Except.ok.inj hlower
    rw [List.forall₂_map_right_iff, List.forall₂_same]
    exact fun access hmem ↦ faithful_iff_kept hunderlying
      (fun _ ↦ described_of_mem hunderlying hscev hanalysis) hnodes hmem tripCount

/-! ## Addresses that are kept, and one that is not -/

/-- The loop that reads `A[2 * i + 1]` and writes `A[i]`; its index is a recurrence. -/
def stridedBody : LoopBody where
  state :=
    { terminationSlice := fun _ ↦ false
      predicateSlice := fun _ ↦ false
      recurrenceBackedges := fun _ ↦ false
      phis := fun id ↦ id == 0
      recurrences := fun id ↦ id == 0
      selects := fun _ ↦ false }
  pointers := [stridedAddress 2 1 2, stridedAddress 4 0 1]
  instructions := [stridedLoad, stridedStore]

/-- The array is at word 0, and the index counts the iterations. -/
def countingRun : AddressRun where
  base _ := 0
  value _ i := i
  external _ := 0
  computed _ i := BitVec.ofInt 32 i
  undescribed _ _ := 0

theorem countingRun_follows : countingRun.Follows (stridedAnalyses .mayAlias) := by
  intro scalar affine haffine i
  obtain rfl : (⟨0, 1⟩ : AffineValue) = affine := Option.some.inj haffine
  simp [countingRun]

theorem strided_kept (gep : ℕ) (offset scale : ℤ)
    (hnode : stridedBody.HasNode (stridedAddress gep offset scale)) (tripCount : ℕ) :
    Kept stridedBody countingRun tripCount (stridedAddress gep offset scale) where
  node _ i _ := by
    refine ⟨rfl, fun entry hentry ↦ ?_⟩
    obtain rfl := List.mem_singleton.mp hentry
    exact (BitVec.ofInt_mul _ _).symm
  direct hnone := absurd hnode hnone

/-- The read and the write go to the words of the two pointers in each of eight iterations. -/
theorem strided_faithful : ∃ result addresses,
    analyzeMemoryDependences (stridedAnalyses .mayAlias) stridedBody.instructions = .ok result ∧
    lowerAddresses (stridedAnalyses .mayAlias) stridedBody result.accesses = .ok addresses ∧
    List.Forall₂ (fun access address ↦ ∀ i < 8, Faithful countingRun access address i)
      result.accesses addresses := by
  have hanalysis : ∃ dependences,
      analyzeMemoryDependences (stridedAnalyses .mayAlias) stridedBody.instructions
        = .ok ⟨[stridedAccess 0 stridedLoad 1 2, stridedAccess 1 stridedStore 0 1], dependences⟩ :=
    ⟨_, rfl⟩
  obtain ⟨dependences, hanalysis⟩ := hanalysis
  have hload : stridedBody.HasNode (stridedAddress 2 1 2) :=
    ⟨List.mem_cons_self, 2, _, _, rfl, rfl⟩
  have hstore : stridedBody.HasNode (stridedAddress 4 0 1) :=
    ⟨List.mem_cons_of_mem _ List.mem_cons_self, 4, _, _, rfl, rfl⟩
  refine ⟨_, _, hanalysis, rfl, ?_⟩
  have hiff := addressLowering_iff (fun _ ↦ rfl) countingRun_follows hanalysis rfl 8
  cases hiff with
  | cons hfirst hrest =>
    cases hrest with
    | cons hsecond _ =>
      exact .cons (hfirst.mpr (strided_kept 2 1 2 hload 8))
        (.cons (hsecond.mpr (strided_kept 4 0 1 hstore 8)) .nil)

/-- The pointer of `A + 4` in words, taken before the loop, and `i` further. -/
def shiftedAddress : Pointer :=
  .gep (.inLoop 2) (.gep (.outsideLoop 7) (.root ⟨0, .argument⟩) (some ⟨16, []⟩))
    (some ⟨0, [(stridedIndex, 4)]⟩)

def shiftedBody : LoopBody where
  state := stridedBody.state
  pointers := [shiftedAddress]
  instructions := [⟨3, 0, 3, .load, some 32, false, false, 4, 0, shiftedAddress⟩]

/-- The load is lowered to word `i` of the array, where it reads word `i + 4`. -/
theorem shifted_unfaithful : ∃ result addresses,
    analyzeMemoryDependences (stridedAnalyses .mayAlias) shiftedBody.instructions = .ok result ∧
    lowerAddresses (stridedAnalyses .mayAlias) shiftedBody result.accesses = .ok addresses ∧
    countingRun.Follows (stridedAnalyses .mayAlias) ∧
    List.Forall₂ (fun access address ↦ touchedWord countingRun.base access 1 = 1 ∧
        address.eval countingRun 1 = 1 ∧ access.address.byteAddress countingRun 1 = 4 * 5 ∧
        ¬Faithful countingRun access address 1)
      result.accesses addresses := by
  refine ⟨_, _, rfl, rfl, countingRun_follows, .cons ⟨rfl, rfl, rfl, fun h ↦ ?_⟩ .nil⟩
  exact absurd h.descriptor (by decide)

end PredicatedMesh.Frontend
