import PredicatedMesh.IR.Edge

/-!
# Pointers and memory instructions of a loop

What the frontend reads off LLVM when it analyses a load or a store. A pointer is a root object
under a chain of pointer operations, and every operation stands somewhere: in the loop, before it,
or inside a constant expression. Where it stands matters, because the analysis and the address
lowering each look at some of these places and not at others.

LLVM's own answers are data here. A `GEPOffset` is what `collectOffset` returns for one
`getelementptr`, and an `SCEV` is what `ScalarEvolution` says about one index.
-/

namespace PredicatedMesh.Frontend

/-! ## Scalars -/

/-- An integer value as an operand names it. -/
inductive Scalar
  /-- A constant with its width and its zero-extended bits. -/
  | constantInt (bitWidth bits : ℕ)
  /-- An argument, or an instruction outside the loop. -/
  | invariant (id bitWidth : ℕ)
  /-- The result of an instruction of the loop. -/
  | instruction (id bitWidth : ℕ)
  deriving DecidableEq, Repr

/-- What `ScalarEvolution` says about a value. -/
inductive SCEV
  | constant (value : ℤ)
  | addRec (loop : ℕ) (isAffine : Bool) (start step : SCEV)
  | unknown
  deriving DecidableEq, Repr

/-! ## Pointers -/

/-- The instructions that can define a pointer root. -/
inductive RootOpcode
  | phi
  | select
  | load
  | other
  deriving DecidableEq, Repr

inductive RootOrigin
  | argument
  | global
  | instruction (opcode : RootOpcode) (inLoop : Bool)
  deriving DecidableEq, Repr

/-- What a pointer is based on: a pointer that `getUnderlyingObject` does not look through. -/
structure PointerRoot where
  id : ℕ
  origin : RootOrigin
  deriving DecidableEq, Repr

/-- Where a pointer operation stands. -/
inductive Site
  | inLoop (instruction : ℕ)
  | outsideLoop (instruction : ℕ)
  | constantExpr
  deriving DecidableEq, Repr

/-- The byte offset of one `getelementptr`: a constant part, and a byte scale for each distinct
dynamic index. -/
structure GEPOffset where
  constantOffset : ℤ
  variableOffsets : List (Scalar × ℤ)
  deriving DecidableEq, Repr

/-- A pointer value. `collectOffset` may decline to describe a `getelementptr`. -/
inductive Pointer
  | root (root : PointerRoot)
  | gep (site : Site) (base : Pointer) (offset : Option GEPOffset)
  | cast (site : Site) (base : Pointer)
  deriving DecidableEq, Repr

namespace Pointer

/-- The root of a chain, however long it is. -/
def underlying : Pointer → PointerRoot
  | .root object => object
  | .gep _ base _ => underlying base
  | .cast _ base => underlying base

/-- `dyn_cast<GetElementPtrInst>`: a constant expression is not an instruction. -/
def asGEPInst : Pointer → Option (Option GEPOffset)
  | .gep (.inLoop _) _ offset => some offset
  | .gep (.outsideLoop _) _ offset => some offset
  | _ => none

end Pointer

/-! ## Memory instructions -/

inductive LLVMMemoryAccessKind
  | load
  | store
  deriving DecidableEq, Repr

/-- A load or a store of the loop, with the properties the analysis checks. -/
structure MemoryInstruction where
  id : ℕ
  /-- The block it stands in. -/
  parent : ℕ
  /-- Its position in the block. -/
  position : ℕ
  kind : LLVMMemoryAccessKind
  /-- The width of the loaded or stored integer, `none` for another type. -/
  valueWidth : Option ℕ
  isVolatile : Bool
  isAtomic : Bool
  /-- The alignment in bytes. -/
  alignment : ℕ
  addressSpace : ℕ
  /-- The pointer operand. -/
  address : Pointer
  deriving DecidableEq, Repr

inductive AliasResult
  | noAlias
  | mayAlias
  | partialAlias
  | mustAlias
  deriving DecidableEq, Repr

/-- The analyses of LLVM that the frontend asks. -/
structure LLVMAnalyses where
  /-- The loop under analysis. -/
  loop : ℕ
  /-- The blocks of the loop. -/
  contains : ℕ → Bool
  /-- The object a pointer is based on; every offset on the way is dropped. A chain is followed for
  a bounded number of steps, so the answer may be an operation in the middle of a long one. -/
  getUnderlyingObject : Pointer → PointerRoot
  getSCEV : Scalar → SCEV
  /-- Block dominance. -/
  dominates : ℕ → ℕ → Bool
  aliasAnalysis : MemoryInstruction → MemoryInstruction → AliasResult

end PredicatedMesh.Frontend
