import PredicatedMesh.IR.Reference

/-!
# Graphs with output stores

A graph extends another by output stores when it has the nodes of the other with the same operands
and dependences, and besides them, for each output, a store that writes the value of one node to a
word of its own in every iteration. Nothing depends on the stores but themselves, and each comes
after itself one iteration before.

A run of the larger graph is a run of the smaller one with the stores in between. As long as the
smaller graph keeps out of the words of the outputs, its values and the rest of the memory are the
same in both, and each of those words holds the value from the last iteration that was stored.
-/

namespace PredicatedMesh

/-- The node whose value is delivered, the store that delivers it, and where. -/
structure DeliveredOutput where
  source : ℕ
  store : ℕ
  address : ℕ
  deriving DecidableEq, Repr

/-- `bound` is `source` with a store for each output; the inputs of `source` are these. -/
structure ExtendsByOutputs (source bound : DFG) (inputs : ℕ → ℕ) (outputs : List DeliveredOutput) :
    Prop where
  findNode : ∀ id, source.containsNode id = true → bound.findNode id = source.findNode id
  operandValue : ∀ inputs' values id, source.containsNode id = true → ∀ iteration operand,
    bound.operandValue inputs' values id iteration operand
      = source.operandValue inputs values id iteration operand
  requires : ∀ before after, source.containsNode after.1 = true →
    (bound.Requires before after ↔ source.Requires before after)
  containsNode : ∀ id, bound.containsNode id = true ↔
    source.containsNode id = true ∨ ∃ output ∈ outputs, output.store = id
  fresh : ∀ output ∈ outputs, source.containsNode output.store = false
  sourced : ∀ output ∈ outputs, source.containsNode output.source = true
  store : ∀ output ∈ outputs, ∃ node, bound.findNode output.store = some node ∧
    ∀ inputs' values iteration, node.write (bound.operands inputs' values node iteration)
      = some (output.address, values (output.source, iteration))
  requires_store : ∀ output ∈ outputs, ∀ before iteration,
    bound.Requires before (output.store, iteration) ↔
      before = (output.source, iteration) ∨
        1 ≤ iteration ∧ before = (output.store, iteration - 1)
  distinct : outputs.Pairwise fun first second ↦
    first.store ≠ second.store ∧ first.address ≠ second.address

/-! ## Orders -/

/-- The operations of a graph. -/
def DFG.isOperation (dfg : DFG) (operation : ℕ × ℕ) : Bool := dfg.containsNode operation.1

namespace ExtendsByOutputs

variable {source bound : DFG} {inputs : ℕ → ℕ} {outputs : List DeliveredOutput} {tripCount : ℕ}
  {order : List (ℕ × ℕ)}

/-- The endpoints of the edges of a graph are its nodes. -/
def Closed (dfg : DFG) : Prop := ∀ edge ∈ dfg.edges, dfg.containsNode edge.src = true

theorem requires_closed (hclosed : Closed source) {before after : ℕ × ℕ}
    (h : source.Requires before after) : source.isOperation before = true := by
  obtain ⟨edge, hedge, -, -, rfl⟩ := h
  exact hclosed edge hedge

/-- What an order of the larger graph has of the smaller one is an order of it. -/
theorem order_filter (h : ExtendsByOutputs source bound inputs outputs) (hclosed : Closed source)
    (horder : bound.Order tripCount order) :
    source.Order tripCount (order.filter source.isOperation) where
  linearizes := horder.linearizes.filter fun before after hafter hrequires ↦
    ⟨(h.requires before after hafter).mpr hrequires, requires_closed hclosed hrequires⟩
  mem_iff operation := by
    rw [List.mem_filter, horder.mem_iff, h.containsNode]
    constructor
    · rintro ⟨⟨-, hiteration⟩, hoperation⟩
      exact ⟨hoperation, hiteration⟩
    · rintro ⟨hoperation, hiteration⟩
      exact ⟨⟨.inl hoperation, hiteration⟩, hoperation⟩

/-- The stores of all iterations, iteration after iteration. -/
def storeOperations (outputs : List DeliveredOutput) (tripCount : ℕ) : List (ℕ × ℕ) :=
  (List.range tripCount).flatMap fun iteration ↦
    outputs.map fun output ↦ (output.store, iteration)

theorem mem_storeOperations {operation : ℕ × ℕ} :
    operation ∈ storeOperations outputs tripCount ↔
      operation.2 < tripCount ∧ ∃ output ∈ outputs, output.store = operation.1 := by
  rw [storeOperations, List.mem_flatMap]
  constructor
  · rintro ⟨iteration, hiteration, hmem⟩
    obtain ⟨output, houtput, rfl⟩ := List.mem_map.mp hmem
    exact ⟨List.mem_range.mp hiteration, output, houtput, rfl⟩
  · rintro ⟨hiteration, output, houtput, hstore⟩
    exact ⟨operation.2, List.mem_range.mpr hiteration,
      List.mem_map.mpr ⟨output, houtput, Prod.ext hstore rfl⟩⟩

theorem nodup_storeOperations (h : ExtendsByOutputs source bound inputs outputs) :
    (storeOperations outputs tripCount).Nodup := by
  rw [storeOperations, List.nodup_flatMap]
  constructor
  · intro iteration _
    rw [List.Nodup, List.pairwise_map]
    exact h.distinct.imp fun hne hsame ↦ hne.1 (Prod.mk.inj hsame).1
  · refine List.nodup_range.imp fun hne operation hfirst hsecond ↦ ?_
    obtain ⟨_, -, rfl⟩ := List.mem_map.mp hfirst
    obtain ⟨_, -, hsame⟩ := List.mem_map.mp hsecond
    exact hne (Prod.mk.inj hsame).2.symm

theorem pairwise_storeOperations :
    (storeOperations outputs tripCount).Pairwise fun first second ↦ first.2 ≤ second.2 := by
  rw [storeOperations, List.pairwise_flatMap]
  constructor
  · intro iteration _
    rw [List.pairwise_map]
    exact List.pairwise_of_forall fun _ _ ↦ le_rfl
  · refine List.pairwise_lt_range.imp fun hlt first hfirst second hsecond ↦ ?_
    obtain ⟨_, -, rfl⟩ := List.mem_map.mp hfirst
    obtain ⟨_, -, rfl⟩ := List.mem_map.mp hsecond
    exact hlt.le

/-- The store of the iteration before comes before. -/
theorem mem_storeOperations_before {before after : List (ℕ × ℕ)} {id iteration : ℕ}
    (hsplit : storeOperations outputs tripCount = before ++ (id, iteration) :: after)
    (hpos : 1 ≤ iteration) : (id, iteration - 1) ∈ before := by
  have hmem : (id, iteration) ∈ storeOperations outputs tripCount := by simp [hsplit]
  obtain ⟨hiteration, houtput⟩ := mem_storeOperations.mp hmem
  have hprevious : (id, iteration - 1) ∈ storeOperations outputs tripCount :=
    mem_storeOperations.mpr ⟨by omega, houtput⟩
  have hordered := @pairwise_storeOperations outputs tripCount
  rw [hsplit] at hprevious hordered
  rcases List.mem_append.mp hprevious with hbefore | hlater
  · exact hbefore
  · have hle := (List.pairwise_append.mp hordered).2.1
    rcases List.mem_cons.mp hlater with hsame | hafter
    · have := (Prod.mk.inj hsame).2
      omega
    · have := List.rel_of_pairwise_cons hle hafter
      simp only at this
      omega

/-- Every order of the smaller graph is what an order of the larger one has of it: the stores can
all come last. -/
theorem exists_order (h : ExtendsByOutputs source bound inputs outputs)
    (horder : source.Order tripCount order) :
    ∃ larger, bound.Order tripCount larger ∧ larger.filter source.isOperation = order := by
  have hfresh : ∀ operation ∈ storeOperations outputs tripCount,
      source.isOperation operation = false := by
    intro operation hoperation
    obtain ⟨-, output, houtput, hstore⟩ := mem_storeOperations.mp hoperation
    rw [DFG.isOperation, ← hstore]
    exact h.fresh output houtput
  have hown : ∀ operation ∈ order, source.isOperation operation = true :=
    fun operation hoperation ↦ ((horder.mem_iff operation).mp hoperation).1
  refine ⟨order ++ storeOperations outputs tripCount, ⟨?_, fun operation ↦ ?_⟩, ?_⟩
  · apply horder.linearizes.append
    · exact fun after hafter before hrequires ↦
        (h.requires before after (hown after hafter)).mp hrequires
    · exact h.nodup_storeOperations
    · intro operation hoperation hstore
      have hboth := hown operation hoperation
      rw [hfresh operation hstore] at hboth
      cases hboth
    · rintro before ⟨id, iteration⟩ after hsplit previous hrequires
      have hmem : (id, iteration) ∈ storeOperations outputs tripCount := by simp [hsplit]
      obtain ⟨hiteration, output, houtput, rfl⟩ := mem_storeOperations.mp hmem
      rcases (h.requires_store output houtput previous iteration).mp hrequires with
        rfl | ⟨hpos, rfl⟩
      · exact .inl ((horder.mem_iff _).mpr ⟨h.sourced output houtput, hiteration⟩)
      · exact .inr (mem_storeOperations_before hsplit hpos)
  · rw [List.mem_append, horder.mem_iff, mem_storeOperations, h.containsNode]
    constructor
    · rintro (⟨hnode, hiteration⟩ | ⟨hiteration, houtput⟩)
      · exact ⟨.inl hnode, hiteration⟩
      · exact ⟨.inr houtput, hiteration⟩
    · rintro ⟨hnode | houtput, hiteration⟩
      · exact .inl ⟨hnode, hiteration⟩
      · exact .inr ⟨hiteration, houtput⟩
  · rw [List.filter_append, List.filter_eq_self.mpr hown,
      List.filter_eq_nil_iff.mpr fun operation hoperation ↦ by simp [hfresh operation hoperation],
      List.append_nil]

/-! ## Runs -/

section Runs

variable {compute : Node → List ℕ → ℕ} {inputs' : ℕ → ℕ} {memory : ℕ → ℕ}
  {larger smaller : ReferenceState} {before after : List (ℕ × ℕ)} {operation : ℕ × ℕ} {node : Node}

/-- Operands only depend on the values of operations of the graph. -/
theorem operands_congr (hclosed : Closed source) {values values' : ℕ × ℕ → ℕ}
    (hvalues : ∀ operation, source.isOperation operation = true →
      values operation = values' operation) (node : Node) (iteration : ℕ) :
    source.operands inputs values node iteration
      = source.operands inputs values' node iteration := by
  refine List.map_congr_left fun operand _ ↦ ?_
  unfold DFG.operandValue
  split
  · rename_i edge hedge
    rw [hvalues (edge.src, iteration - edge.distance)
      (hclosed edge (List.mem_of_find?_eq_some hedge))]
  · rfl

/-- The states of the two runs after `before`. The last clause is about the last iteration whose
store has been performed. -/
structure Agree (source : DFG) (outputs : List DeliveredOutput) (before : List (ℕ × ℕ))
    (larger smaller : ReferenceState) : Prop where
  values : ∀ operation, source.isOperation operation = true →
    larger.values operation = smaller.values operation
  memory : ∀ address, (∀ output ∈ outputs, output.address ≠ address) →
    larger.memory address = smaller.memory address
  delivered : ∀ output ∈ outputs, ∀ iteration, (output.store, iteration) ∈ before →
    (output.store, iteration + 1) ∉ before →
      larger.memory output.address = larger.values (output.source, iteration)

theorem Agree.operands (hagree : Agree source outputs before larger smaller)
    (h : ExtendsByOutputs source bound inputs outputs) (hclosed : Closed source)
    (hnode : source.findNode operation.1 = some node) :
    bound.operands inputs' larger.values node operation.2
      = source.operands inputs smaller.values node operation.2 := by
  have hid := DFG.findNode_id hnode
  have hcontains : source.containsNode node.id = true := by
    rw [DFG.containsNode, hid, hnode, Option.isSome_some]
  rw [← operands_congr hclosed hagree.values]
  exact List.map_congr_left fun operand _ ↦
    h.operandValue inputs' larger.values node.id hcontains operation.2 operand

/-- An operation of the smaller graph. -/
theorem Agree.step_own (hagree : Agree source outputs before larger smaller)
    (h : ExtendsByOutputs source bound inputs outputs) (hclosed : Closed source)
    (hlinear : Linearizes bound.Requires order) (horder : order = before ++ operation :: after)
    (hnode : source.findNode operation.1 = some node)
    (havoids : node.opcode = .load ∨ node.opcode = .store → ∀ output ∈ outputs,
      output.address ≠ (source.operands inputs smaller.values node operation.2).headD 0) :
    Agree source outputs (before ++ [operation]) (bound.fire compute inputs' larger operation)
      (source.fire compute inputs smaller operation) := by
  have hown : source.containsNode operation.1 = true := by
    rw [DFG.containsNode, hnode, Option.isSome_some]
  have hboundNode : bound.findNode operation.1 = some node := (h.findNode _ hown).trans hnode
  have hoperands : bound.operands inputs' larger.values node operation.2
      = source.operands inputs smaller.values node operation.2 :=
    hagree.operands h hclosed hnode
  constructor
  · intro other hother
    have hresult : node.result compute (source.operands inputs smaller.values node operation.2)
        larger.memory = node.result compute
          (source.operands inputs smaller.values node operation.2) smaller.memory :=
      DFG.result_congr fun hload ↦ hagree.memory _ (havoids (.inl hload))
    rw [DFG.fire_values hboundNode, DFG.fire_values hnode, hoperands, hresult]
    by_cases hsame : other = operation
    · rw [hsame, Function.update_self, Function.update_self]
    · rw [Function.update_of_ne hsame, Function.update_of_ne hsame]
      exact hagree.values other hother
  · intro address haddress
    rw [DFG.fire_memory hboundNode, DFG.fire_memory hnode, hoperands]
    cases node.write (source.operands inputs smaller.values node operation.2) with
    | none => exact hagree.memory address haddress
    | some entry =>
      simp only [Option.elim_some, Function.update_apply]
      split
      · rfl
      · exact hagree.memory address haddress
  · intro output houtput iteration hmem hlast
    have hne : operation.1 ≠ output.store := by
      intro hsame
      have hfresh := h.fresh output houtput
      rw [← hsame, hown] at hfresh
      cases hfresh
    have hbefore : (output.store, iteration) ∈ before := by
      rcases List.mem_append.mp hmem with hmem | hmem
      · exact hmem
      · exact absurd (congrArg Prod.fst (List.mem_singleton.mp hmem)).symm hne
    have hsource : (output.source, iteration) ∈ before :=
      hlinear.mem_of_requires horder hbefore
        ((h.requires_store output houtput _ _).mpr (.inl rfl))
    -- neither the word nor the value it was written from changes
    rw [DFG.fire_memory_of_ne hboundNode fun hstore ↦ hoperands ▸ havoids (.inr hstore) output
      houtput, DFG.fire_values_of_ne]
    · exact hagree.delivered output houtput iteration hbefore fun hnext ↦
        hlast (List.mem_append_left _ hnext)
    · rintro rfl
      exact hlinear.not_mem_before horder hsource

/-- A store that has been performed has been performed in the iterations before. -/
theorem mem_of_store_mem (h : ExtendsByOutputs source bound inputs outputs)
    (hlinear : Linearizes bound.Requires order) (horder : order = before ++ after)
    {output : DeliveredOutput} (houtput : output ∈ outputs) {first last : ℕ} (hle : first ≤ last)
    (hmem : (output.store, last) ∈ before) : (output.store, first) ∈ before := by
  induction hle using Nat.decreasingInduction with
  | self => exact hmem
  | of_succ iteration _ ih =>
    exact hlinear.mem_of_requires horder ih
      ((h.requires_store output houtput _ _).mpr (.inr ⟨by omega, rfl⟩))

theorem distinct_of_ne (h : ExtendsByOutputs source bound inputs outputs)
    {first second : DeliveredOutput} (hfirst : first ∈ outputs) (hsecond : second ∈ outputs)
    (hne : first ≠ second) : first.store ≠ second.store ∧ first.address ≠ second.address := by
  have : Std.Symm fun first second : DeliveredOutput ↦
      first.store ≠ second.store ∧ first.address ≠ second.address :=
    ⟨fun _ _ hne ↦ ⟨hne.1.symm, hne.2.symm⟩⟩
  exact h.distinct.forall hfirst hsecond hne

/-- A store of an output. -/
theorem Agree.step_store (hagree : Agree source outputs before larger smaller)
    (h : ExtendsByOutputs source bound inputs outputs)
    (hlinear : Linearizes bound.Requires order) (horder : order = before ++ operation :: after)
    {output : DeliveredOutput} (houtput : output ∈ outputs) (hstore : output.store = operation.1) :
    Agree source outputs (before ++ [operation]) (bound.fire compute inputs' larger operation)
      smaller := by
  obtain ⟨node, hnode, hwrite⟩ := h.store output houtput
  rw [hstore] at hnode
  have hne : ∀ other, source.isOperation other = true → other ≠ operation := by
    rintro other hother rfl
    rw [DFG.isOperation, ← hstore, h.fresh output houtput] at hother
    cases hother
  have hmemory : (bound.fire compute inputs' larger operation).memory = Function.update
      larger.memory output.address (larger.values (output.source, operation.2)) := by
    rw [DFG.fire_memory hnode, hwrite, Option.elim_some]
  have hvalue : ∀ other ∈ outputs, ∀ iteration,
      (bound.fire compute inputs' larger operation).values (other.source, iteration)
        = larger.values (other.source, iteration) :=
    fun other hother iteration ↦ DFG.fire_values_of_ne (hne _ (h.sourced other hother))
  constructor
  · intro other hother
    rw [DFG.fire_values_of_ne (hne other hother)]
    exact hagree.values other hother
  · intro address haddress
    rw [hmemory, Function.update_of_ne (haddress output houtput).symm]
    exact hagree.memory address haddress
  · intro other hother iteration hmem hlast
    rw [hmemory, hvalue other hother]
    by_cases hsame : other = output
    · subst hsame
      have hprefix : order = (before ++ [operation]) ++ after := by
        rw [horder, List.append_assoc, List.singleton_append]
      have hoperation : (other.store, operation.2) = operation := Prod.ext hstore rfl
      have heq : iteration = operation.2 := by
        rcases Nat.lt_trichotomy iteration operation.2 with hlt | heq | hgt
        · refine absurd (h.mem_of_store_mem hlinear hprefix houtput hlt ?_) hlast
          rw [hoperation]
          exact List.mem_append_right _ (List.mem_singleton_self _)
        · exact heq
        · have hbefore : (other.store, iteration) ∈ before := by
            rcases List.mem_append.mp hmem with hmem | hmem
            · exact hmem
            · exact absurd (congrArg Prod.snd (List.mem_singleton.mp hmem)) hgt.ne'
          have hmem := h.mem_of_store_mem hlinear horder houtput hgt.le hbefore
          exact absurd (hoperation ▸ hmem) (hlinear.not_mem_before horder)
      rw [heq, Function.update_self]
    · obtain ⟨hstores, haddresses⟩ := h.distinct_of_ne hother houtput hsame
      have hnot : ∀ iteration, (other.store, iteration) ∈ before ++ [operation] →
          (other.store, iteration) ∈ before := by
        intro iteration hmem
        rcases List.mem_append.mp hmem with hmem | hmem
        · exact hmem
        · have hstore' := congrArg Prod.fst (List.mem_singleton.mp hmem)
          exact absurd (hstore'.trans hstore.symm) hstores
      rw [Function.update_of_ne haddresses]
      exact hagree.delivered other hother iteration (hnot iteration hmem) fun hnext ↦
        hlast (List.mem_append_left _ hnext)

/-- The graph keeps out of the words of the outputs. -/
def Avoids (source : DFG) (compute : Node → List ℕ → ℕ) (inputs memory : ℕ → ℕ)
    (outputs : List DeliveredOutput) (order : List (ℕ × ℕ)) : Prop :=
  ∀ before operation after node, order = before ++ operation :: after →
    source.findNode operation.1 = some node → node.opcode = .load ∨ node.opcode = .store →
      ∀ output ∈ outputs, output.address ≠ (source.operands inputs
        (source.run compute inputs memory before).values node operation.2).headD 0

/-- After every part of a run, the two runs agree. -/
theorem agree_run (h : ExtendsByOutputs source bound inputs outputs) (inputs' : ℕ → ℕ)
    (hclosed : Closed source)
    (horder : bound.Order tripCount order)
    (havoids : Avoids source compute inputs memory outputs (order.filter source.isOperation))
    {before after : List (ℕ × ℕ)} (hsplit : order = before ++ after) :
    Agree source outputs before (bound.run compute inputs' memory before)
      (source.run compute inputs memory (before.filter source.isOperation)) := by
  refine foldl_invariant (motive := fun before larger ↦ Agree source outputs before larger
    (source.run compute inputs memory (before.filter source.isOperation))) ?_ ?_ before after hsplit
  · exact ⟨fun _ _ ↦ rfl, fun _ _ ↦ rfl, fun _ _ _ hmem ↦ absurd hmem List.not_mem_nil⟩
  · intro before operation after hsplit hagree
    have hmem : operation ∈ order := by simp [hsplit]
    have hsmaller : order.filter source.isOperation = before.filter source.isOperation
        ++ (operation :: after).filter source.isOperation := by
      rw [hsplit, List.filter_append]
    rw [List.filter_append, DFG.run, List.foldl_append]
    rcases (h.containsNode operation.1).mp ((horder.mem_iff operation).mp hmem).1 with
      hown | ⟨output, houtput, hstore⟩
    · obtain ⟨node, hnode⟩ := Option.isSome_iff_exists.mp hown
      have hoperation : source.isOperation operation = true := hown
      rw [List.filter_cons_of_pos hoperation] at hsmaller ⊢
      exact hagree.step_own h hclosed horder.linearizes hsplit hnode fun hopcode output houtput ↦
        havoids _ operation _ node hsmaller hnode hopcode output houtput
    · have hother : source.isOperation operation = false := by
        rw [DFG.isOperation, ← hstore, h.fresh output houtput]
      rw [List.filter_cons_of_neg (by rw [hother]; exact Bool.false_ne_true)]
      exact hagree.step_store h horder.linearizes hsplit houtput hstore

end Runs

end ExtendsByOutputs

end PredicatedMesh
