import PredicatedMesh.Library.Scan

/-!
# The cycles of a program

A program manifest either gives a number of cycles or a loop descriptor; the golden model expands
the descriptor into the list of cycles it stands for, each with the control-memory address it reads.
The prologue and the epilogue occur once, the kernel `tripCount` times.
-/

namespace PredicatedMesh.Golden

/-- The loop of a manifest. -/
structure LoopDescriptor where
  prologueCycles : ℕ
  ii : ℕ
  tripCount : ℕ
  epilogueCycles : ℕ
  deriving DecidableEq, Repr

/-- One cycle and its absolute control-memory address. -/
structure ExecutionStep where
  pc : ℕ
  loopPhase : Option ℕ := none
  loopIteration : Option ℕ := none
  kernelSlot : Option ℕ := none
  deriving DecidableEq, Repr

namespace LoopDescriptor

variable (d : LoopDescriptor)

def prologueStep (pc : ℕ) : ExecutionStep := ⟨pc, some 1, some 0, some 0⟩

def kernelStep (iteration slot : ℕ) : ExecutionStep :=
  ⟨d.prologueCycles + slot, some 2, some iteration, some slot⟩

def epilogueStep (offset : ℕ) : ExecutionStep :=
  ⟨d.prologueCycles + d.ii + offset, some 3, some d.tripCount, some 0⟩

/-- The cycles of the kernel. -/
def kernelSteps : List ExecutionStep :=
  (List.range d.tripCount).flatMap fun iteration ↦ (List.range d.ii).map (d.kernelStep iteration)

/-- The expansion of a loop. -/
def executionSteps : List ExecutionStep :=
  (List.range d.prologueCycles).map prologueStep ++ d.kernelSteps ++
    (List.range d.epilogueCycles).map d.epilogueStep

/-- The number of cycles of a loop. -/
def runCycles : ℕ := d.prologueCycles + d.ii * d.tripCount + d.epilogueCycles

end LoopDescriptor

/-- The cycles of a manifest, with or without a loop. -/
def manifestExecutionSteps (loop : Option LoopDescriptor) (runCycles : ℕ) : List ExecutionStep :=
  match loop with
  | none => (List.range runCycles).map fun pc ↦ { pc }
  | some d => d.executionSteps

/-! ## Indexing the expansion -/

namespace LoopDescriptor

variable {d : LoopDescriptor}

theorem length_kernelSteps (d : LoopDescriptor) : d.kernelSteps.length = d.ii * d.tripCount := by
  simp [kernelSteps, List.length_flatMap, mul_comm]

theorem length_executionSteps (d : LoopDescriptor) : d.executionSteps.length = d.runCycles := by
  simp only [executionSteps, List.length_append, List.length_map, List.length_range,
    length_kernelSteps, runCycles]

theorem getElem?_executionSteps_prologue {k : ℕ} (hk : k < d.prologueCycles) :
    d.executionSteps[k]? = some (prologueStep k) := by
  rw [executionSteps, List.append_assoc, List.getElem?_append_left (by simpa using hk)]
  simp [hk]

theorem getElem?_executionSteps_kernel {iteration slot : ℕ} (hi : iteration < d.tripCount)
    (hs : slot < d.ii) :
    d.executionSteps[d.prologueCycles + (d.ii * iteration + slot)]?
      = some (d.kernelStep iteration slot) := by
  have hbound : d.ii * iteration + slot < d.ii * d.tripCount := by
    calc d.ii * iteration + slot < d.ii * iteration + d.ii := by omega
      _ = d.ii * (iteration + 1) := by rw [Nat.mul_succ]
      _ ≤ d.ii * d.tripCount := Nat.mul_le_mul_left d.ii hi
  rw [executionSteps, List.append_assoc, List.getElem?_append_right (by simp)]
  rw [List.length_map, List.length_range, Nat.add_sub_cancel_left,
    List.getElem?_append_left (by rw [length_kernelSteps]; exact hbound)]
  rw [kernelSteps, Scan.getElem?_flatMap_range _ (fun i ↦ by simp) hi hs]
  simp [hs]

theorem getElem?_executionSteps_epilogue {offset : ℕ} (ho : offset < d.epilogueCycles) :
    d.executionSteps[d.prologueCycles + d.ii * d.tripCount + offset]?
      = some (d.epilogueStep offset) := by
  rw [executionSteps, List.getElem?_append_right]
  · simp [length_kernelSteps, ho]
  · simp only [List.length_append, List.length_map, List.length_range, length_kernelSteps]
    omega

end LoopDescriptor

end PredicatedMesh.Golden
