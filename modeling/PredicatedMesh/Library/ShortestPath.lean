import Mathlib.Data.List.Nodup
import Mathlib.Order.Monotone.Basic
import Mathlib.Order.WellFounded
import Mathlib.Tactic

/-!
# Best-first search over a graph with growing costs

A graph is given by its moves: a move may be taken in some states, and it turns the cost of reaching
a state into a strictly larger one. The costs form a linear order and need not be numbers, so a
lexicographic cost is as good as a distance.

A search labels the states it has reached with a cost and a predecessor, and settles them one by
one, always the cheapest of those that are left. `Frontier` is what such a search maintains. It
speaks of labels and settled states only, not of a queue, and it allows some moves of settled states
to be still outstanding: they are the *waived* ones, and a search that expands a state waives its
moves and pays them back one after the other.

## What the frontier gives

Every walk ends at a settled state that is labelled at most its cost, or has passed an unsettled
state with such a label (`Frontier.settled_or_passed`). When nothing is left unsettled the labels
are therefore complete, and the cheapest unsettled label is at most the cost of every walk to an
unsettled state. Following the predecessors gives back a walk of exactly the labelled cost, whose
states are distinct since costs grow along it (`Branch`).
-/

namespace ShortestPath

variable {σ α C : Type*} [LinearOrder C]

/-- Moves between states, and what they do to the cost of the state they leave. -/
structure Moves (σ α C : Type*) [LinearOrder C] where
  /-- Where a move leads, if it can be taken. -/
  next : σ → α → Option σ
  /-- The cost after the move. -/
  extend : α → C → C
  extend_mono : ∀ a, Monotone (extend a)
  lt_extend : ∀ a c, c < extend a c

/-- What a search knows: costs, predecessors and the states it is done with. -/
structure Labels (σ α C : Type*) where
  best : σ → Option C
  pred : σ → Option (σ × α)
  settled : σ → Prop

variable (moves : Moves σ α C) (start : σ) (initial : C)

/-- The walks from the start, with their end and their cost. -/
inductive Walk : List α → σ → C → Prop
  | nil : Walk [] start initial
  | snoc {l : List α} {s t : σ} {c : C} {a : α} : Walk l s c → moves.next s a = some t →
      Walk (l ++ [a]) t (moves.extend a c)

/-- Every label comes from a settled predecessor, and goes back to the start in the end. -/
structure Tree (labels : Labels σ α C) : Prop where
  root : labels.best start = some initial
  parent : ∀ t d, t ≠ start → labels.best t = some d → ∃ s a c, labels.pred t = some (s, a) ∧
    labels.settled s ∧ moves.next s a = some t ∧ labels.best s = some c ∧ moves.extend a c = d

/-- The invariant of the search: its labels are a tree, settled labels are at most `level`, the
others at least, and every move of a settled state is accounted for unless waived. -/
structure Frontier (labels : Labels σ α C) (level : C) (waived : σ → α → Prop) : Prop
    extends Tree moves start initial labels where
  settled_le : ∀ s, labels.settled s → ∃ c ≤ level, labels.best s = some c
  le_unsettled : ∀ s c, ¬ labels.settled s → labels.best s = some c → level ≤ c
  closed : ∀ s a t c, labels.settled s → ¬ waived s a → moves.next s a = some t →
    labels.best s = some c → ∃ d ≤ moves.extend a c, labels.best t = some d

/-- The predecessors of a state back to the start, in walking order: each entry is a state, the move
taken there and the state it led to. -/
inductive Branch (labels : Labels σ α C) : List (σ × α × σ) → σ → Prop
  | nil : Branch labels [] start
  | snoc {l : List (σ × α × σ)} {s t : σ} {a : α} : Branch labels l s → t ≠ start →
      labels.pred t = some (s, a) → Branch labels (l ++ [(s, a, t)]) t

variable {moves start initial} {labels : Labels σ α C} {level : C} {waived : σ → α → Prop}

theorem Walk.initial_le {l : List α} {t : σ} {c : C} (h : Walk moves start initial l t c) :
    initial ≤ c := by
  induction h with
  | nil => exact le_rfl
  | snoc _ _ ih => exact ih.trans (moves.lt_extend _ _).le

namespace Tree

/-! ## Branches -/

/-- A branch is a walk of the labelled cost. Its states are settled, labelled in increasing order
and each labelled from the one before. -/
theorem of_branch (h : Tree moves start initial labels) {l : List (σ × α × σ)}
    {t : σ} (hb : Branch start labels l t) {d : C} (hd : labels.best t = some d) :
    Walk moves start initial (l.map fun e ↦ e.2.1) t d ∧
      ∀ e ∈ l, labels.settled e.1 ∧ moves.next e.1 e.2.1 = some e.2.2 ∧
        ∃ c < d, labels.best e.1 = some c ∧ labels.best e.2.2 = some (moves.extend e.2.1 c) ∧
          moves.extend e.2.1 c ≤ d := by
  induction hb generalizing d with
  | nil =>
    obtain rfl : initial = d := Option.some.inj (h.root.symm.trans hd)
    exact ⟨.nil, by simp⟩
  | @snoc l s t a hb hne hpred ih =>
    obtain ⟨s', a', c, hpred', hs, hnext, hbest, rfl⟩ := h.parent t d hne hd
    obtain ⟨rfl, rfl⟩ := Prod.mk.inj (Option.some.inj (hpred.symm.trans hpred'))
    obtain ⟨hwalk, hall⟩ := ih hbest
    refine ⟨?_, ?_⟩
    · rw [List.map_append, List.map_cons, List.map_nil]
      exact hwalk.snoc hnext
    · intro e he
      rcases List.mem_append.mp he with he | he
      · obtain ⟨hset, hn, b, hb, h₁, h₂, h₃⟩ := hall e he
        have hlt : c < moves.extend a c := moves.lt_extend a c
        exact ⟨hset, hn, b, hb.trans hlt, h₁, h₂, h₃.trans hlt.le⟩
      · obtain rfl := List.mem_singleton.mp he
        exact ⟨hs, hnext, c, moves.lt_extend a c, hbest, hd, le_rfl⟩

/-- No state occurs twice on a branch, its end included. -/
theorem nodup_of_branch (h : Tree moves start initial labels)
    {l : List (σ × α × σ)} {t : σ} (hb : Branch start labels l t) {d : C}
    (hd : labels.best t = some d) : (l.map Prod.fst ++ [t]).Nodup := by
  induction hb generalizing d with
  | nil => simp
  | @snoc l s t a hb hne hpred ih =>
    obtain ⟨s', a', c, hpred', -, -, hbest, rfl⟩ := h.parent t d hne hd
    obtain ⟨rfl, rfl⟩ := Prod.mk.inj (Option.some.inj (hpred.symm.trans hpred'))
    rw [List.map_append, List.map_cons, List.map_nil, List.nodup_append]
    refine ⟨ih hbest, List.nodup_singleton t, ?_⟩
    -- every earlier state is labelled less than the new end
    intro u hu v hv huv
    rw [List.mem_singleton] at hv
    subst huv
    subst hv
    rcases List.mem_append.mp hu with hu | hu
    · obtain ⟨e, he, rfl⟩ := List.mem_map.mp hu
      obtain ⟨-, -, b, hb', hbest', -⟩ := (h.of_branch hb hbest).2 e he
      have heq := Option.some.inj (hbest'.symm.trans hd)
      exact absurd (heq ▸ hb' : moves.extend a c < c) (moves.lt_extend a c).not_gt
    · rw [List.mem_singleton] at hu
      subst hu
      have heq := Option.some.inj (hbest.symm.trans hd)
      exact (moves.lt_extend a c).ne heq

/-- Every label has a branch. -/
theorem exists_branch [WellFoundedLT C] (h : Tree moves start initial labels)
    {t : σ} {d : C} (hd : labels.best t = some d) : ∃ l, Branch start labels l t := by
  induction d using WellFoundedLT.induction generalizing t with
  | ind d ih =>
    by_cases hstart : t = start
    · exact ⟨[], hstart ▸ .nil⟩
    · obtain ⟨s, a, c, hpred, -, -, hbest, rfl⟩ := h.parent t d hstart hd
      obtain ⟨l, hl⟩ := ih c (moves.lt_extend a c) hbest
      exact ⟨_, hl.snoc hstart hpred⟩

theorem initial_le [WellFoundedLT C] (h : Tree moves start initial labels)
    {t : σ} {d : C} (hd : labels.best t = some d) : initial ≤ d := by
  obtain ⟨l, hl⟩ := h.exists_branch hd
  exact (h.of_branch hl hd).1.initial_le

/-! ### What keeps a tree -/

/-- Only the start is labelled. -/
theorem initially (hstart : labels.best start = some initial)
    (honly : ∀ s c, labels.best s = some c → s = start) : Tree moves start initial labels where
  root := hstart
  parent t d hne ht := absurd (honly t d ht) hne

/-- Settling states keeps the tree. -/
theorem settle (h : Tree moves start initial labels) {labels' : Labels σ α C}
    (hbest : labels'.best = labels.best) (hpred : labels'.pred = labels.pred)
    (hsettled : ∀ s, labels.settled s → labels'.settled s) : Tree moves start initial labels' where
  root := by rw [hbest, h.root]
  parent t d hne hd := by
    rw [hbest] at hd
    obtain ⟨s, a, b, h₁, h₂, h₃, h₄, h₅⟩ := h.parent t d hne hd
    refine ⟨s, a, b, ?_, hsettled s h₂, h₃, ?_, h₅⟩
    · rw [hpred, h₁]
    · rw [hbest, h₄]

/-- A move of a settled state that improves an unsettled one never improves the start. -/
theorem ne_start_of_lt [WellFoundedLT C] (h : Tree moves start initial labels) {u t : σ} {a : α}
    {c : C} (hc : labels.best u = some c)
    (hlt : ∀ d, labels.best t = some d → moves.extend a c < d) : t ≠ start := by
  rintro rfl
  exact (((h.initial_le hc).trans_lt (moves.lt_extend a c)).trans (hlt _ h.root)).false

/-- A move of a settled state may relabel an unsettled state it improves. -/
theorem relax [WellFoundedLT C] (h : Tree moves start initial labels) {labels' : Labels σ α C}
    {u t : σ} {a : α} {c : C} (hsettled : labels'.settled = labels.settled)
    (hbest : labels'.best t = some (moves.extend a c))
    (hbest' : ∀ s, s ≠ t → labels'.best s = labels.best s)
    (hpred : labels'.pred t = some (u, a)) (hpred' : ∀ s, s ≠ t → labels'.pred s = labels.pred s)
    (hu : labels.settled u) (hc : labels.best u = some c) (ht : ¬ labels.settled t)
    (hnext : moves.next u a = some t)
    (hlt : ∀ d, labels.best t = some d → moves.extend a c < d) :
    Tree moves start initial labels' := by
  have hne_settled : ∀ s, labels.settled s → s ≠ t := fun s hs hst ↦ ht (hst ▸ hs)
  constructor
  · rw [hbest' start (h.ne_start_of_lt hc hlt).symm, h.root]
  · intro v d hv hd
    by_cases hvt : v = t
    · subst hvt
      obtain rfl := Option.some.inj (hbest.symm.trans hd)
      refine ⟨u, a, c, hpred, hsettled ▸ hu, hnext, ?_, rfl⟩
      rw [hbest' u (hne_settled u hu), hc]
    · rw [hbest' v hvt] at hd
      obtain ⟨s, b, e, h₁, h₂, h₃, h₄, h₅⟩ := h.parent v d hv hd
      refine ⟨s, b, e, ?_, hsettled ▸ h₂, h₃, ?_, h₅⟩
      · rw [hpred' v hvt, h₁]
      · rw [hbest' s (hne_settled s h₂), h₄]

end Tree

namespace Frontier

theorem mono {waived' : σ → α → Prop} (h : Frontier moves start initial labels level waived)
    (hle : ∀ s a, waived s a → waived' s a) :
    Frontier moves start initial labels level waived' :=
  { h with closed := fun s a t c hs hw ↦ h.closed s a t c hs fun hwaived ↦ hw (hle s a hwaived) }

/-! ## Walks and labels -/

/-- **The frontier separates.** A walk ends at a settled state that is labelled at most its cost, or
an unsettled state is. -/
theorem settled_or_passed (h : Frontier moves start initial labels level fun _ _ ↦ False)
    {l : List α} {t : σ} {c : C} (hw : Walk moves start initial l t c) :
    (labels.settled t ∧ ∃ d ≤ c, labels.best t = some d) ∨
      ∃ s d, ¬ labels.settled s ∧ labels.best s = some d ∧ d ≤ c := by
  induction hw with
  | nil =>
    by_cases hs : labels.settled start
    · exact .inl ⟨hs, initial, le_rfl, h.root⟩
    · exact .inr ⟨start, initial, hs, h.root, le_rfl⟩
  | @snoc l s t c a _ hnext ih =>
    rcases ih with ⟨hs, d, hd, hbest⟩ | ⟨u, d, hu, hbest, hd⟩
    · obtain ⟨e, he, hbest'⟩ := h.closed s a t d hs (fun hf ↦ hf) hnext hbest
      have hle : e ≤ moves.extend a c := he.trans (moves.extend_mono a hd)
      by_cases ht : labels.settled t
      · exact .inl ⟨ht, e, hle, hbest'⟩
      · exact .inr ⟨t, e, ht, hbest', hle⟩
    · exact .inr ⟨u, d, hu, hbest, hd.trans (moves.lt_extend a c).le⟩

/-- With no unsettled label left, every state a walk reaches is settled. -/
theorem settled_of_walk (h : Frontier moves start initial labels level fun _ _ ↦ False)
    (hnone : ∀ s c, labels.best s = some c → labels.settled s) {l : List α} {t : σ} {c : C}
    (hw : Walk moves start initial l t c) : labels.settled t := by
  rcases h.settled_or_passed hw with ⟨hs, -⟩ | ⟨s, d, hs, hbest, -⟩
  · exact hs
  · exact absurd (hnone s d hbest) hs

/-- The cheapest unsettled label is at most the cost of any walk to an unsettled state. -/
theorem le_of_walk (h : Frontier moves start initial labels level fun _ _ ↦ False) {b : C}
    (hmin : ∀ s c, ¬ labels.settled s → labels.best s = some c → b ≤ c) {l : List α} {t : σ}
    {c : C} (hw : Walk moves start initial l t c) (ht : ¬ labels.settled t) : b ≤ c := by
  rcases h.settled_or_passed hw with ⟨hs, -⟩ | ⟨s, d, hs, hbest, hd⟩
  · exact absurd hs ht
  · exact (hmin s d hs hbest).trans hd

/-! ## The steps of a search -/

/-- Only the start is labelled, and nothing is settled. -/
theorem initially (hstart : labels.best start = some initial)
    (honly : ∀ s c, labels.best s = some c → s = start) (hnone : ∀ s, ¬ labels.settled s) :
    Frontier moves start initial labels initial fun _ _ ↦ False where
  toTree := .initially hstart honly
  settled_le s hs := absurd hs (hnone s)
  le_unsettled s c _ hs := by
    obtain rfl := honly s c hs
    exact (Option.some.inj (hstart.symm.trans hs)).le
  closed s a t c hs := absurd hs (hnone s)

/-- Settling the cheapest unsettled state waives its moves. -/
theorem settle (h : Frontier moves start initial labels level fun _ _ ↦ False)
    {labels' : Labels σ α C} {u : σ} {c : C} (hbest : labels'.best = labels.best)
    (hpred : labels'.pred = labels.pred)
    (hsettled : ∀ s, labels'.settled s ↔ labels.settled s ∨ s = u) (hu : ¬ labels.settled u)
    (hc : labels.best u = some c)
    (hmin : ∀ s d, ¬ labels.settled s → labels.best s = some d → c ≤ d) :
    Frontier moves start initial labels' c fun s _ ↦ s = u where
  toTree := h.toTree.settle hbest hpred fun s hs ↦ (hsettled s).mpr (.inl hs)
  settled_le s hs := by
    rw [hbest]
    rcases (hsettled s).mp hs with hs | rfl
    · obtain ⟨d, hd, hbest'⟩ := h.settled_le s hs
      exact ⟨d, hd.trans (h.le_unsettled u c hu hc), hbest'⟩
    · exact ⟨c, le_rfl, hc⟩
  le_unsettled s d hs hd := by
    rw [hbest] at hd
    exact hmin s d (fun hs' ↦ hs ((hsettled s).mpr (.inl hs'))) hd
  closed s a t d hs hw hnext hd := by
    rw [hbest] at hd ⊢
    rcases (hsettled s).mp hs with hs | rfl
    · exact h.closed s a t d hs (fun hf ↦ hf) hnext hd
    · exact absurd rfl hw

/-- A move of the state just settled that improves nothing is paid back as it is. -/
theorem skip (h : Frontier moves start initial labels level waived) {u : σ} {a : α}
    (hu : labels.best u = some level)
    (hclosed : ∀ t, moves.next u a = some t →
      ∃ d ≤ moves.extend a level, labels.best t = some d) :
    Frontier moves start initial labels level fun s b ↦ waived s b ∧ ¬ (s = u ∧ b = a) :=
  { h with
    closed := by
      intro s b t c hs hw hnext hc
      by_cases hsame : s = u ∧ b = a
      · obtain ⟨rfl, rfl⟩ := hsame
        obtain rfl := Option.some.inj (hu.symm.trans hc)
        exact hclosed t hnext
      · exact h.closed s b t c hs (fun hwaived ↦ hw ⟨hwaived, hsame⟩) hnext hc }

/-- A move of the state just settled that improves an unsettled state relabels it. -/
theorem relax [WellFoundedLT C] (h : Frontier moves start initial labels level waived)
    {labels' : Labels σ α C} {u t : σ} {a : α} (hsettled : labels'.settled = labels.settled)
    (hbest : labels'.best t = some (moves.extend a level))
    (hbest' : ∀ s, s ≠ t → labels'.best s = labels.best s)
    (hpred : labels'.pred t = some (u, a)) (hpred' : ∀ s, s ≠ t → labels'.pred s = labels.pred s)
    (hu : labels.settled u) (hlevel : labels.best u = some level) (ht : ¬ labels.settled t)
    (hnext : moves.next u a = some t)
    (hlt : ∀ d, labels.best t = some d → moves.extend a level < d) :
    Frontier moves start initial labels' level fun s b ↦ waived s b ∧ ¬ (s = u ∧ b = a) := by
  have hlevel_lt : level < moves.extend a level := moves.lt_extend a level
  have hne_settled : ∀ s, labels.settled s → s ≠ t := fun s hs hst ↦ ht (hst ▸ hs)
  have htree := h.toTree.relax hsettled hbest hbest' hpred hpred' hu hlevel ht hnext hlt
  refine ⟨htree, ?_, ?_, ?_⟩
  · intro s hs
    rw [hsettled] at hs
    rw [hbest' s (hne_settled s hs)]
    exact h.settled_le s hs
  · intro s c hs hc
    rw [hsettled] at hs
    by_cases hst : s = t
    · subst hst
      obtain rfl := Option.some.inj (hbest.symm.trans hc)
      exact hlevel_lt.le
    · rw [hbest' s hst] at hc
      exact h.le_unsettled s c hs hc
  · intro s b v c hs hw hnext' hc
    rw [hsettled] at hs
    rw [hbest' s (hne_settled s hs)] at hc
    by_cases hsame : s = u ∧ b = a
    · obtain ⟨rfl, rfl⟩ := hsame
      obtain rfl := Option.some.inj (hlevel.symm.trans hc)
      obtain rfl := Option.some.inj (hnext.symm.trans hnext')
      exact ⟨_, le_rfl, hbest⟩
    · obtain ⟨d, hd, hv⟩ := h.closed s b v c hs (fun hwaived ↦ hw ⟨hwaived, hsame⟩) hnext' hc
      by_cases hvt : v = t
      · subst hvt
        exact ⟨_, (hlt d hv).le.trans hd, hbest⟩
      · exact ⟨d, hd, (hbest' v hvt).trans hv⟩

end Frontier

end ShortestPath
