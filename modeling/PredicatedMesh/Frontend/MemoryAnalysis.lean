import PredicatedMesh.Frontend.Pointer

/-!
# Memory dependence analysis

The analysis describes every load and store of the loop by an affine word address over a root
object, and then compares the accesses two by two. Two accesses over one root with one stride are
solved exactly; any other pair is left to the alias analysis, and where that does not separate the
pair it is ordered conservatively, by a dependence in each direction.

A comparison first brings the pair into program order, which is dominance between different blocks.
A pair with no such order is rejected.
-/

namespace PredicatedMesh.Frontend

/-! ## Results -/

inductive LLVMMemoryAnalysisStatus
  | success
  | unsupportedAccessType
  | unsupportedVolatileOrAtomic
  | unsupportedAddressSpace
  | unsupportedAlignment
  | unsupportedPointerBase
  | unsupportedNonAffineAddress
  | unsupportedPathSensitiveOrder
  | internalError
  deriving DecidableEq, Repr

inductive LLVMMemoryDependenceMode
  | exactAffine
  | conservative
  deriving DecidableEq, Repr

/-- What the analysis knows about one access. -/
structure LLVMMemoryAccessDescriptor where
  id : ℕ := 0
  kind : LLVMMemoryAccessKind
  instruction : MemoryInstruction
  address : Pointer
  base : PointerRoot
  dynamicIndex : Option Scalar := none
  dynamicScaleWords : ℤ := 0
  gepConstantOffsetWords : ℤ := 0
  constantOffsetWords : ℤ := 0
  iterationStrideWords : ℤ := 0
  accessWidthBits : ℕ := 0
  exactAffine : Bool := false
  deriving DecidableEq, Repr

structure LLVMMemoryDependenceDescriptor where
  sourceAccess : ℕ
  destinationAccess : ℕ
  kind : MemoryDepKind
  distance : ℕ
  mode : LLVMMemoryDependenceMode
  reason : String
  deriving DecidableEq, Repr

structure LLVMMemoryAnalysisResult where
  accesses : List LLVMMemoryAccessDescriptor
  dependences : List LLVMMemoryDependenceDescriptor
  deriving DecidableEq, Repr

/-- A rejection with its message. -/
structure LLVMMemoryAnalysisFailure where
  status : LLVMMemoryAnalysisStatus
  message : String
  deriving DecidableEq, Repr

/-! ## One access -/

structure AffineValue where
  offset : ℤ
  stride : ℤ
  deriving DecidableEq, Repr

/-- A value of 64 signed bits. -/
def fitsSigned64 (value : ℤ) : Bool := -2 ^ 63 ≤ value ∧ value < 2 ^ 63

def signedConstant : SCEV → Option ℤ
  | .constant value => if fitsSigned64 value then some value else none
  | _ => none

def fitsAddressWord (value : ℤ) : Bool := -2 ^ 31 ≤ value ∧ value ≤ 2 ^ 31 - 1

def affineValue (analyses : LLVMAnalyses) (value : Scalar) : Option AffineValue :=
  let expression := analyses.getSCEV value
  match signedConstant expression with
  | some constant => some ⟨constant, 0⟩
  | none =>
    match expression with
    | .addRec loop isAffine startValue step =>
      if loop ≠ analyses.loop ∨ isAffine = false then none
      else
        match signedConstant startValue, signedConstant step with
        | some startWord, some stepWord => some ⟨startWord, stepWord⟩
        | _, _ => none
    | _ => none

namespace RootOrigin

/-- The roots the analysis refuses: those the loop computes, and those that may stand for several
objects. -/
def isUnsupportedBase : RootOrigin → Bool
  | .instruction opcode inLoop =>
    inLoop || opcode == .phi || opcode == .select || opcode == .load
  | _ => false

end RootOrigin

/-- The rejection of an address. -/
def nonAffine {α : Type} (message : String) : Except LLVMMemoryAnalysisFailure α :=
  .error ⟨.unsupportedNonAffineAddress, message⟩

/-- The affine part of a descriptor: the offset of the pointer operand when that is itself a
`getelementptr` instruction. -/
def describeOffset (analyses : LLVMAnalyses) (descriptor : LLVMMemoryAccessDescriptor)
    (collected : Option GEPOffset) :
    Except LLVMMemoryAnalysisFailure LLVMMemoryAccessDescriptor :=
  match collected with
  | none => nonAffine "GEP byte offset is not an exact aligned affine word offset"
  | some offset =>
    if fitsSigned64 offset.constantOffset = false ∨ offset.constantOffset.tmod 4 ≠ 0 then
      nonAffine "GEP byte offset is not an exact aligned affine word offset"
    else
      let gepConstantOffsetWords := offset.constantOffset.tdiv 4
      if fitsAddressWord gepConstantOffsetWords = false then
        nonAffine
          "GEP constant word offset is not representable by Generic i32 address arithmetic"
      else
        let descriptor :=
          { descriptor with gepConstantOffsetWords, constantOffsetWords := gepConstantOffsetWords }
        match offset.variableOffsets with
        | [] => .ok descriptor
        | [(index, scaleBytes)] =>
          if fitsSigned64 scaleBytes = false ∨ scaleBytes.tmod 4 ≠ 0 then
            nonAffine "dynamic GEP scale is not a whole scratchpad word"
          else
            let scaleWords := scaleBytes.tdiv 4
            if fitsAddressWord scaleWords = false then
              nonAffine
                "dynamic GEP word scale is not representable by Generic i32 address arithmetic"
            else
              match affineValue analyses index with
              | none => nonAffine "dynamic GEP index is not an exact affine loop expression"
              | some affine =>
                if fitsAddressWord affine.offset = false ∨
                    fitsAddressWord affine.stride = false then
                  nonAffine "affine GEP index exceeds the Generic i32 address domain"
                else
                  let derivedOffset := gepConstantOffsetWords + affine.offset * scaleWords
                  let derivedStride := affine.stride * scaleWords
                  if fitsAddressWord derivedOffset = false ∨
                      fitsAddressWord derivedStride = false then
                    nonAffine
                      "affine GEP word offset or stride exceeds the Generic i32 address domain"
                  else
                    .ok { descriptor with
                      dynamicIndex := some index
                      dynamicScaleWords := scaleWords
                      constantOffsetWords := derivedOffset
                      iterationStrideWords := derivedStride }
        | _ => nonAffine "T018 V0 accepts one affine dynamic GEP index"

/-- The descriptor of an access before its offset is known. -/
def initialDescriptor (analyses : LLVMAnalyses) (instruction : MemoryInstruction) :
    LLVMMemoryAccessDescriptor where
  kind := instruction.kind
  instruction := instruction
  address := instruction.address
  base := analyses.getUnderlyingObject instruction.address
  accessWidthBits := 32
  exactAffine := true

def analyzeAccess (analyses : LLVMAnalyses) (instruction : MemoryInstruction) :
    Except LLVMMemoryAnalysisFailure LLVMMemoryAccessDescriptor :=
  if instruction.valueWidth ≠ some 32 then
    .error ⟨.unsupportedAccessType, "T018 V0 supports only i32 Load/Store accesses"⟩
  else if instruction.isVolatile || instruction.isAtomic then
    .error ⟨.unsupportedVolatileOrAtomic,
      "volatile and atomic memory operations are outside T018 V0"⟩
  else if instruction.alignment < 4 then
    .error ⟨.unsupportedAlignment, "T018 V0 requires naturally aligned i32 memory accesses"⟩
  else if instruction.addressSpace ≠ 0 then
    .error ⟨.unsupportedAddressSpace, "T018 V0 supports only the default LLVM address space"⟩
  else
    let base := analyses.getUnderlyingObject instruction.address
    if base.origin.isUnsupportedBase then
      .error ⟨.unsupportedPointerBase, "memory address must have one loop-invariant pointer root"⟩
    else
      match instruction.address.asGEPInst with
      | none => .ok (initialDescriptor analyses instruction)
      | some offset => describeOffset analyses (initialDescriptor analyses instruction) offset

/-! ## One dependence -/

def isStore (access : LLVMMemoryAccessDescriptor) : Bool := access.kind == .store

def dependenceKind (source destination : LLVMMemoryAccessDescriptor) : MemoryDepKind :=
  if isStore source && isStore destination then .waw
  else if isStore source then .raw
  else .war

def instructionBefore (analyses : LLVMAnalyses) (lhs rhs : MemoryInstruction) : Bool :=
  if lhs.parent = rhs.parent then lhs.position < rhs.position
  else analyses.dominates lhs.parent rhs.parent

/-- The distance that solves an affine pair, when it is a positive whole number. -/
def positiveDistance (numerator stride : ℤ) : Option ℕ :=
  if stride = 0 ∨ numerator.tmod stride ≠ 0 then none
  else
    let distance := numerator.tdiv stride
    if distance ≤ 0 ∨ 2 ^ 32 - 1 < distance then none else some distance.toNat

abbrev DependenceKey := ℕ × ℕ × MemoryDepKind × ℕ

def LLVMMemoryDependenceDescriptor.key (d : LLVMMemoryDependenceDescriptor) : DependenceKey :=
  (d.sourceAccess, d.destinationAccess, d.kind, d.distance)

/-- The dependences found so far and the keys they occupy. -/
structure DependenceState where
  seen : List DependenceKey
  dependences : List LLVMMemoryDependenceDescriptor
  deriving DecidableEq, Repr

def addDependence (state : DependenceState) (dependence : LLVMMemoryDependenceDescriptor) :
    DependenceState :=
  if dependence.key ∈ state.seen then state
  else ⟨dependence.key :: state.seen, state.dependences ++ [dependence]⟩

/-! ## All pairs -/

/-- Both accesses are affine over one root with one stride. -/
def exactPair (lhs rhs : LLVMMemoryAccessDescriptor) : Bool :=
  lhs.exactAffine && rhs.exactAffine && lhs.base == rhs.base &&
    lhs.accessWidthBits == rhs.accessWidthBits &&
    lhs.iterationStrideWords == rhs.iterationStrideWords

/-- A dependence between two accesses. -/
def orderedBy (source destination : LLVMMemoryAccessDescriptor) (distance : ℕ)
    (mode : LLVMMemoryDependenceMode) (reason : String) : LLVMMemoryDependenceDescriptor :=
  ⟨source.id, destination.id, dependenceKind source destination, distance, mode, reason⟩

/-- The dependences of an affine pair in program order, each distance solved for. -/
def exactDependences (lhs rhs : LLVMMemoryAccessDescriptor) :
    List LLVMMemoryDependenceDescriptor :=
  let stride := lhs.iterationStrideWords
  let same := lhs.constantOffsetWords = rhs.constantOffsetWords
  (if same then
    [orderedBy lhs rhs 0 .exactAffine "same affine address in the same iteration"] else []) ++
  if stride = 0 then
    if same then
      [orderedBy rhs lhs 1 .exactAffine "invariant address dynamic order across iterations"]
    else []
  else
    (positiveDistance (lhs.constantOffsetWords - rhs.constantOffsetWords) stride).toList.map
      (fun distance ↦
        orderedBy lhs rhs distance .exactAffine "exact positive affine dependence distance") ++
    (positiveDistance (rhs.constantOffsetWords - lhs.constantOffsetWords) stride).toList.map
      (fun distance ↦
        orderedBy rhs lhs distance .exactAffine
          "exact reverse positive affine dependence distance")

/-- The dependences of a pair nothing is known about: program order within an iteration, and the
reverse order from one iteration to the next. -/
def conservativeDependences (lhs rhs : LLVMMemoryAccessDescriptor) :
    List LLVMMemoryDependenceDescriptor :=
  [orderedBy lhs rhs 0 .conservative "MayAlias program order within one iteration",
    orderedBy rhs lhs 1 .conservative "MayAlias reverse order across iterations"]

def pairDependences (lhs rhs : LLVMMemoryAccessDescriptor) :
    List LLVMMemoryDependenceDescriptor :=
  if exactPair lhs rhs then exactDependences lhs rhs else conservativeDependences lhs rhs

/-- The comparison of two accesses, the first one earlier in the list. -/
def comparePair (analyses : LLVMAnalyses) (lhs rhs : LLVMMemoryAccessDescriptor) :
    Except LLVMMemoryAnalysisFailure (List LLVMMemoryDependenceDescriptor) :=
  if isStore lhs = false ∧ isStore rhs = false then .ok []
  else if exactPair lhs rhs = false ∧
      analyses.aliasAnalysis lhs.instruction rhs.instruction = .noAlias then .ok []
  else if instructionBefore analyses lhs.instruction rhs.instruction then
    .ok (pairDependences lhs rhs)
  else if instructionBefore analyses rhs.instruction lhs.instruction then
    .ok (pairDependences rhs lhs)
  else .error ⟨.unsupportedPathSensitiveOrder,
    "MayAlias accesses have no path-independent program order"⟩

/-- The pairs of a list, in the order two nested index loops visit them. -/
def indexPairs {α : Type*} : List α → List (α × α)
  | [] => []
  | a :: l => l.map (fun b ↦ (a, b)) ++ indexPairs l

/-- The dependence an invariant store has on itself. -/
def selfDependences (access : LLVMMemoryAccessDescriptor) :
    List LLVMMemoryDependenceDescriptor :=
  if isStore access && access.iterationStrideWords == 0 then
    [⟨access.id, access.id, .waw, 1, .exactAffine,
      "invariant Store repeats the same logical word"⟩]
  else []

def comparePairs (analyses : LLVMAnalyses) :
    DependenceState → List (LLVMMemoryAccessDescriptor × LLVMMemoryAccessDescriptor) →
      Except LLVMMemoryAnalysisFailure DependenceState
  | state, [] => .ok state
  | state, pair :: pairs => do
    let found ← comparePair analyses pair.1 pair.2
    comparePairs analyses (found.foldl addDependence state) pairs

/-- The analysis of a loop, given its loads and stores in the order of the function. -/
def analyzeMemoryDependences (analyses : LLVMAnalyses) (instructions : List MemoryInstruction) :
    Except LLVMMemoryAnalysisFailure LLVMMemoryAnalysisResult := do
  let described ← instructions.mapM (analyzeAccess analyses)
  let accesses := described.mapIdx fun id access ↦ { access with id }
  let invariant := (accesses.flatMap selfDependences).foldl addDependence ⟨[], []⟩
  let state ← comparePairs analyses invariant (indexPairs accesses)
  .ok ⟨accesses, state.dependences⟩

end PredicatedMesh.Frontend
