import Mathlib.Data.Finset.Card
import Mathlib.Tactic

/-!
# Bipartite matching by augmenting paths

Items are matched to places one after the other. An item takes the first place that accepts it and
is free, or one whose present item can be moved elsewhere; the search marks the places it has tried
and never tries one twice. This is the classical algorithm, kept in the form programs have it in: a
loop over the places inside a recursion over the displaced items, with the marks and the matching
threaded through both.

## Success and failure

A successful search has moved items along a path of places, none of which was marked before
(`Shift`), so the new matching has the old items and the new one. A search that fails has changed
nothing, and its marks form a closed set: each marked place is taken by an item that every other
place it could go to is marked for too (`Blocked`). Then there are more items than places for them,
and no assignment of any kind exists.
-/

namespace Matching

variable {α β : Type*} [DecidableEq β]

section Algorithm

variable (accepts : α → β → Bool)

/-- The loop over the places: `displace` moves the item of a taken place. -/
def seek (displace : α → (β → Bool) → (β → Option α) → Bool × (β → Bool) × (β → Option α))
    (item : α) : List β → (β → Bool) → (β → Option α) → Bool × (β → Bool) × (β → Option α)
  | [], visited, matched => (false, visited, matched)
  | place :: places, visited, matched =>
    if visited place || !accepts item place then
      seek displace item places visited matched
    else
      match matched place with
      | none =>
        (true, Function.update visited place true, Function.update matched place (some item))
      | some other =>
        match displace other (Function.update visited place true) matched with
        | (true, later, moved) => (true, later, Function.update moved place (some item))
        | (false, later, moved) => seek displace item places later moved

variable (places : List β)

/-- The recursion, to a depth of `fuel`. -/
def augment : ℕ → α → (β → Bool) → (β → Option α) → Bool × (β → Bool) × (β → Option α)
  | 0, _, visited, matched => (false, visited, matched)
  | fuel + 1, item, visited, matched =>
    seek accepts (augment fuel) item places visited matched

/-- Match items one after the other; the first that finds no place ends the run. -/
def assign : List α → (β → Option α) → Except α (β → Option α)
  | [], matched => .ok matched
  | item :: items, matched =>
    match augment accepts places (places.length + 1) item (fun _ ↦ false) matched with
    | (true, _, later) => assign items later
    | (false, _, _) => .error item

end Algorithm

variable {accepts : α → β → Bool} {places : List β}

/-! ## Matchings -/

/-- The items outside `visited` are at places that accept them, each at one place. -/
structure IsMatching (accepts : α → β → Bool) (places : List β) (visited : β → Bool)
    (matched : β → Option α) : Prop where
  accepted : ∀ place item, visited place = false → matched place = some item →
    place ∈ places ∧ accepts item place = true
  injective : ∀ p q item, visited p = false → visited q = false → matched p = some item →
    matched q = some item → p = q

/-- The item has a place outside `visited`. -/
def Matched (visited : β → Bool) (matched : β → Option α) (item : α) : Prop :=
  ∃ place, visited place = false ∧ matched place = some item

/-- The item has been matched by moving others along a path of places outside `visited`. -/
inductive Shift (accepts : α → β → Bool) (places : List β) (matched : β → Option α) :
    (β → Bool) → α → (β → Option α) → Prop
  | free {visited : β → Bool} {item : α} {place : β} : visited place = false → place ∈ places →
      accepts item place = true → matched place = none →
      Shift accepts places matched visited item (Function.update matched place (some item))
  | push {visited : β → Bool} {item other : α} {place : β} {later : β → Option α} :
      visited place = false → place ∈ places → accepts item place = true →
      matched place = some other →
      Shift accepts places matched (Function.update visited place true) other later →
      Shift accepts places matched visited item (Function.update later place (some item))

/-- The marks of a failed search. -/
structure Blocked (accepts : α → β → Bool) (places : List β) (matched : β → Option α)
    (visited later : β → Bool) (item : α) : Prop where
  grows : ∀ place, visited place = true → later place = true
  marks : ∀ place ∈ places, accepts item place = true → later place = true
  taken : ∀ place, visited place = false → later place = true → place ∈ places ∧
    ∃ other, matched place = some other ∧
      ∀ p ∈ places, accepts other p = true → later p = true

/-! ## A successful search -/

theorem Shift.anti {matched later : β → Option α} {visited visited' : β → Bool} {item : α}
    (h : Shift accepts places matched visited' item later)
    (hle : ∀ place, visited place = true → visited' place = true) :
    Shift accepts places matched visited item later := by
  have hnot : ∀ {visited visited' : β → Bool}, (∀ p, visited p = true → visited' p = true) →
      ∀ p, visited' p = false → visited p = false := by
    intro visited visited' hle p hp
    by_contra hne
    rw [hle p (by simpa using hne)] at hp
    cases hp
  induction h generalizing visited with
  | free hp hmem haccepts hnone => exact .free (hnot hle _ hp) hmem haccepts hnone
  | push hp hmem haccepts hsome _ ih =>
    refine .push (hnot hle _ hp) hmem haccepts hsome (ih fun q hq ↦ ?_)
    rw [Function.update_apply] at hq ⊢
    split at hq
    · rename_i heq
      rw [if_pos heq]
    · rename_i hne
      rw [if_neg hne]
      exact hle q hq

theorem update_eq_false_iff {visited : β → Bool} {place q : β} :
    Function.update visited place true q = false ↔ q ≠ place ∧ visited q = false := by
  rw [Function.update_apply]
  by_cases hq : q = place
  · simp [hq]
  · simp [hq]

/-- A place is set aside. -/
theorem IsMatching.set_aside {matched : β → Option α} {visited : β → Bool}
    (h : IsMatching accepts places visited matched) (place : β) :
    IsMatching accepts places (Function.update visited place true) matched where
  accepted q a hq := h.accepted q a (update_eq_false_iff.mp hq).2
  injective p q a hp hq :=
    h.injective p q a (update_eq_false_iff.mp hp).2 (update_eq_false_iff.mp hq).2

theorem matched_set_aside_iff {matched : β → Option α} {visited : β → Bool} {place : β} {a : α} :
    Matched (Function.update visited place true) matched a ↔
      ∃ q, q ≠ place ∧ visited q = false ∧ matched q = some a := by
  simp only [Matched, update_eq_false_iff, and_assoc]

/-- A place that was set aside is given to an item that has no other. -/
theorem IsMatching.give {kept : β → Option α} {visited : β → Bool} {item : α} {place : β}
    (h : IsMatching accepts places (Function.update visited place true) kept)
    (hmem : place ∈ places) (haccepts : accepts item place = true)
    (hfresh : ¬ Matched (Function.update visited place true) kept item) :
    IsMatching accepts places visited (Function.update kept place (some item)) := by
  have hfresh : ∀ q, q ≠ place → visited q = false → kept q ≠ some item := fun q hq hv hkept ↦
    hfresh (matched_set_aside_iff.mpr ⟨q, hq, hv, hkept⟩)
  refine ⟨fun q a hq ha ↦ ?_, fun p q a hvp hvq hap haq ↦ ?_⟩
  · rw [Function.update_apply] at ha
    split at ha
    · rename_i hqp
      obtain rfl := Option.some.inj ha
      rw [hqp]
      exact ⟨hmem, haccepts⟩
    · rename_i hqp
      exact h.accepted q a (update_eq_false_iff.mpr ⟨hqp, hq⟩) ha
  · rw [Function.update_apply] at hap haq
    split at hap <;> split at haq
    · rename_i hpp hqp
      rw [hpp, hqp]
    · rename_i hqp
      exact absurd (haq.trans hap.symm) (hfresh q hqp hvq)
    · rename_i hpp _
      exact absurd (hap.trans haq.symm) (hfresh p hpp hvp)
    · rename_i hpp hqp
      exact h.injective p q a (update_eq_false_iff.mpr ⟨hpp, hvp⟩)
        (update_eq_false_iff.mpr ⟨hqp, hvq⟩) hap haq

theorem matched_give_iff {kept : β → Option α} {visited : β → Bool} {item a : α} {place : β}
    (hp : visited place = false) : Matched visited (Function.update kept place (some item)) a ↔
      a = item ∨ Matched (Function.update visited place true) kept a := by
  rw [matched_set_aside_iff]
  constructor
  · rintro ⟨q, hq, ha⟩
    rw [Function.update_apply] at ha
    split at ha
    · exact .inl (Option.some.inj ha).symm
    · rename_i hqp
      exact .inr ⟨q, hqp, hq, ha⟩
  · rintro (rfl | ⟨q, hqp, hq, ha⟩)
    · exact ⟨place, hp, Function.update_self _ _ _⟩
    · exact ⟨q, hq, by rw [Function.update_of_ne hqp, ha]⟩

/-- **A shift** keeps the matching and adds its item. -/
theorem Shift.isMatching {matched later : β → Option α} {visited : β → Bool} {item : α}
    (h : Shift accepts places matched visited item later)
    (hm : IsMatching accepts places visited matched) (hnot : ¬ Matched visited matched item) :
    IsMatching accepts places visited later ∧
      ∀ a, Matched visited later a ↔ a = item ∨ Matched visited matched a := by
  induction h with
  | @free visited item place hp hmem haccepts hnone =>
    have hless : ∀ a, Matched (Function.update visited place true) matched a ↔
        Matched visited matched a := by
      intro a
      rw [matched_set_aside_iff]
      constructor
      · rintro ⟨q, -, hq, ha⟩
        exact ⟨q, hq, ha⟩
      · rintro ⟨q, hq, ha⟩
        refine ⟨q, ?_, hq, ha⟩
        rintro rfl
        cases hnone.symm.trans ha
    refine ⟨(hm.set_aside place).give hmem haccepts (fun h ↦ hnot ((hless item).mp h)), fun a ↦ ?_⟩
    rw [matched_give_iff hp, hless]
  | @push visited item other place later hp hmem haccepts hsome _ ih =>
    -- the item of the place is matched elsewhere once the place is set aside
    have hother : ¬ Matched (Function.update visited place true) matched other := by
      rw [matched_set_aside_iff]
      rintro ⟨q, hqp, hq, ha⟩
      exact hqp (hm.injective q place other hq hp ha hsome)
    have hless : ∀ a, a = other ∨ Matched (Function.update visited place true) matched a ↔
        Matched visited matched a := by
      intro a
      rw [matched_set_aside_iff]
      constructor
      · rintro (rfl | ⟨q, -, hq, ha⟩)
        · exact ⟨place, hp, hsome⟩
        · exact ⟨q, hq, ha⟩
      · rintro ⟨q, hq, ha⟩
        by_cases hqp : q = place
        · subst hqp
          exact .inl (Option.some.inj (ha.symm.trans hsome))
        · exact .inr ⟨q, hqp, hq, ha⟩
    obtain ⟨hkept, hset⟩ := ih (hm.set_aside place) hother
    have hfresh : ¬ Matched (Function.update visited place true) later item := by
      rw [hset, hless]
      exact hnot
    refine ⟨hkept.give hmem haccepts hfresh, fun a ↦ ?_⟩
    rw [matched_give_iff hp, hset, hless]

/-! ## The search -/

/-- The places that are not marked yet. -/
def unvisited (places : List β) (visited : β → Bool) : Finset β :=
  places.toFinset.filter fun place ↦ visited place = false

theorem mem_unvisited {visited : β → Bool} {place : β} :
    place ∈ unvisited places visited ↔ place ∈ places ∧ visited place = false := by
  simp [unvisited]

theorem card_unvisited_le {visited : β → Bool} :
    (unvisited places visited).card ≤ places.length :=
  (Finset.card_filter_le _ _).trans (List.toFinset_card_le places)

theorem unvisited_anti {visited visited' : β → Bool}
    (hle : ∀ place, visited place = true → visited' place = true) :
    unvisited places visited' ⊆ unvisited places visited := by
  intro place hmem
  rw [mem_unvisited] at hmem ⊢
  refine ⟨hmem.1, ?_⟩
  by_contra hne
  rw [hle place (by simpa using hne)] at hmem
  cases hmem.2

theorem le_update {visited : β → Bool} {place : β} (p : β) (hp : visited p = true) :
    Function.update visited place true p = true := by
  rw [Function.update_apply]
  split
  · rfl
  · exact hp

theorem card_unvisited_update_lt {visited : β → Bool} {place : β} (hmem : place ∈ places)
    (hp : visited place = false) :
    (unvisited places (Function.update visited place true)).card
      < (unvisited places visited).card := by
  refine Finset.card_lt_card
    ((Finset.ssubset_iff_of_subset (unvisited_anti fun p hp ↦ le_update p hp)).mpr ?_)
  refine ⟨place, mem_unvisited.mpr ⟨hmem, hp⟩, fun h ↦ ?_⟩
  have hvisited := (mem_unvisited.mp h).2
  rw [Function.update_self] at hvisited
  cases hvisited

/-- What a search leaves: a shift, or a block and the matching as it was. -/
def Outcome (accepts : α → β → Bool) (places : List β) (visited : β → Bool)
    (matched : β → Option α) (item : α) (r : Bool × (β → Bool) × (β → Option α)) : Prop :=
  (r.1 = true ∧ Shift accepts places matched visited item r.2.2) ∨
    (r.1 = false ∧ r.2.2 = matched ∧ Blocked accepts places matched visited r.2.1 item)

/-- The loop, for the places that are left: the others that accept the item are marked. -/
theorem seek_outcome
    {displace : α → (β → Bool) → (β → Option α) → Bool × (β → Bool) × (β → Option α)}
    {matched : β → Option α} {item : α} {fuel : ℕ}
    (hdisplace : ∀ other visited, (unvisited places visited).card < fuel →
      Outcome accepts places visited matched other (displace other visited matched))
    {origin : β → Bool} {rest : List β} (hrest : ∀ place ∈ rest, place ∈ places)
    {visited : β → Bool} (hcard : (unvisited places visited).card < fuel + 1)
    (hgrows : ∀ place, origin place = true → visited place = true)
    (hmarks : ∀ place ∈ places, place ∉ rest → accepts item place = true → visited place = true)
    (htaken : ∀ place, origin place = false → visited place = true → place ∈ places ∧
      ∃ other, matched place = some other ∧
        ∀ p ∈ places, accepts other p = true → visited p = true) :
    Outcome accepts places origin matched item
      (seek accepts displace item rest visited matched) := by
  induction rest generalizing visited with
  | nil =>
    exact .inr ⟨rfl, rfl, hgrows, fun place hp ha ↦ hmarks place hp List.not_mem_nil ha, htaken⟩
  | cons place rest ih =>
    have hrest' : ∀ p ∈ rest, p ∈ places := fun p hp ↦ hrest p (List.mem_cons_of_mem _ hp)
    have hmem : place ∈ places := hrest place List.mem_cons_self
    have hsplit : ∀ {later : β → Bool}, (∀ p, visited p = true → later p = true) →
        (accepts item place = true → later place = true) →
        ∀ p ∈ places, p ∉ rest → accepts item p = true → later p = true := by
      intro later hle hplace p hp hnot ha
      by_cases heq : p = place
      · subst heq
        exact hplace ha
      · refine hle p (hmarks p hp (fun hin ↦ ?_) ha)
        rcases List.mem_cons.mp hin with h | h
        · exact heq h
        · exact hnot h
    rw [seek]
    by_cases hskip : (visited place || !accepts item place) = true
    · rw [if_pos hskip]
      refine ih hrest' hcard hgrows (hsplit (fun p hp ↦ hp) fun ha ↦ ?_) htaken
      rw [ha] at hskip
      simpa using hskip
    · rw [if_neg hskip]
      simp only [Bool.or_eq_true, Bool.not_eq_true', not_or, Bool.not_eq_true,
        Bool.not_eq_false] at hskip
      obtain ⟨hfresh, haccepts⟩ := hskip
      have horigin : origin place = false := by
        by_contra hne
        rw [hgrows place (by simpa using hne)] at hfresh
        cases hfresh
      have hlt : (unvisited places (Function.update visited place true)).card
          < (unvisited places visited).card := card_unvisited_update_lt hmem hfresh
      rcases hplace : matched place with _ | other
      · exact .inl ⟨rfl, .free horigin hmem haccepts hplace⟩
      · simp only
        have hsub := hdisplace other (Function.update visited place true) (by omega)
        rcases hr : displace other (Function.update visited place true) matched with
          ⟨found, later, moved⟩
        rw [hr] at hsub
        rcases hsub with ⟨hfound, hshift⟩ | ⟨hfound, hmoved, hblocked⟩
        · obtain rfl : found = true := hfound
          refine .inl ⟨rfl, .push horigin hmem haccepts hplace (hshift.anti fun p hp ↦ ?_)⟩
          rw [Function.update_apply] at hp ⊢
          split at hp
          · rename_i heq
            rw [if_pos heq]
          · rename_i hne
            rw [if_neg hne]
            exact hgrows p hp
        · obtain rfl : found = false := hfound
          obtain rfl : moved = matched := hmoved
          -- what the failed displacement marked is closed, the place it started from included
          have hle : ∀ p, visited p = true → later p = true := fun p hp ↦
            hblocked.grows p (le_update p hp)
          have hself : later place = true :=
            hblocked.grows place (Function.update_self _ _ _)
          refine ih hrest' ?_ (fun p hp ↦ hle p (hgrows p hp)) (hsplit hle fun _ ↦ hself) ?_
          · have hsubset : (unvisited places later).card ≤ (unvisited places visited).card :=
              Finset.card_le_card (unvisited_anti hle)
            omega
          · intro p hp hlater
            by_cases hold : visited p = true
            · obtain ⟨hpmem, o, ho, hall⟩ := htaken p hp hold
              exact ⟨hpmem, o, ho, fun q hq ha ↦ hle q (hall q hq ha)⟩
            · by_cases heq : p = place
              · subst heq
                exact ⟨hmem, other, hplace, hblocked.marks⟩
              · have hnew : Function.update visited place true p = false := by
                  rw [Function.update_of_ne heq]
                  simpa using hold
                exact hblocked.taken p hnew hlater

/-- **The augmenting search** shifts or is blocked. -/
theorem augment_outcome {fuel : ℕ} {item : α} {visited : β → Bool} {matched : β → Option α}
    (hcard : (unvisited places visited).card < fuel) :
    Outcome accepts places visited matched item
      (augment accepts places fuel item visited matched) := by
  induction fuel generalizing item visited with
  | zero => exact absurd hcard (Nat.not_lt_zero _)
  | succ fuel ih =>
    rw [augment]
    exact seek_outcome (fun other visited h ↦ ih h) (fun p hp ↦ hp) hcard (fun p hp ↦ hp)
      (fun p hp hnot ↦ absurd hp hnot) (fun p hp hp' ↦ absurd (hp.symm.trans hp') (by decide))

/-! ## Matching a list of items -/

/-- An assignment of the items to places of their own that accept them. -/
def Assignable (accepts : α → β → Bool) (places : List β) (items : List α) : Prop :=
  ∃ f : {a // a ∈ items} → β, (∀ a, f a ∈ places ∧ accepts a (f a) = true) ∧
    Function.Injective f

/-- **A blocked item cannot be matched in any way** together with the items that block it: there are
more of them than places they accept. -/
theorem not_assignable_of_blocked {matched : β → Option α} {visited : β → Bool} {item : α}
    (hm : IsMatching accepts places (fun _ ↦ false) matched)
    (hblocked : Blocked accepts places matched (fun _ ↦ false) visited item)
    (hnot : ∀ place, matched place ≠ some item) {items : List α} (hitem : item ∈ items)
    (hitems : ∀ place a, matched place = some a → a ∈ items) :
    ¬ Assignable accepts places items := by
  classical
  rintro ⟨assigned, hassigned, hinjective⟩
  let f : α → β := fun a ↦ if h : a ∈ items then assigned ⟨a, h⟩ else assigned ⟨item, hitem⟩
  have hf : ∀ a ∈ items, f a ∈ places ∧ accepts a (f a) = true := by
    intro a ha
    simpa only [f, dif_pos ha] using hassigned ⟨a, ha⟩
  have hinj : ∀ a ∈ items, ∀ b ∈ items, f a = f b → a = b := by
    intro a ha b hb heq
    simp only [f, dif_pos ha, dif_pos hb] at heq
    exact congrArg Subtype.val (hinjective heq)
  let marked := places.toFinset.filter fun place ↦ visited place = true
  have hmarked : ∀ place, place ∈ marked ↔ visited place = true := by
    intro place
    simp only [marked, Finset.mem_filter, List.mem_toFinset]
    exact ⟨fun h ↦ h.2, fun h ↦ ⟨(hblocked.taken place rfl h).1, h⟩⟩
  -- the item at a marked place
  let at' : β → α := fun place ↦ (matched place).getD item
  have hat : ∀ place ∈ marked, matched place = some (at' place) := by
    intro place hplace
    obtain ⟨-, other, hother, -⟩ := hblocked.taken place rfl ((hmarked place).mp hplace)
    simp [at', hother]
  have hcard : (insert item (marked.image at')).card = marked.card + 1 := by
    rw [Finset.card_insert_of_notMem, Finset.card_image_of_injOn]
    · intro p hp q hq heq
      have hp' := hat p hp
      have hq' := hat q hq
      rw [← (heq : at' p = at' q)] at hq'
      exact hm.injective p q _ rfl rfl hp' hq'
    · intro hmem
      obtain ⟨p, hp, heq⟩ := Finset.mem_image.mp hmem
      exact hnot p (heq ▸ hat p hp)
  have hin : ∀ a ∈ insert item (marked.image at'), a ∈ items ∧ f a ∈ marked := by
    intro a ha
    rcases Finset.mem_insert.mp ha with rfl | ha
    · refine ⟨hitem, (hmarked _).mpr (hblocked.marks _ (hf a hitem).1 (hf a hitem).2)⟩
    · obtain ⟨p, hp, rfl⟩ := Finset.mem_image.mp ha
      have hmem := hitems p _ (hat p hp)
      obtain ⟨-, other, hother, hall⟩ := hblocked.taken p rfl ((hmarked p).mp hp)
      obtain rfl := Option.some.inj (hother.symm.trans (hat p hp))
      exact ⟨hmem, (hmarked _).mpr (hall _ (hf _ hmem).1 (hf _ hmem).2)⟩
  have hle := Finset.card_le_card_of_injOn f (fun a ha ↦ (hin a ha).2)
    (fun a ha b hb heq ↦ hinj a (hin a ha).1 b (hin b hb).1 heq)
  omega

/-- What a run over the items gives. -/
theorem assign_spec {items done : List α} {matched : β → Option α}
    (hnodup : (done ++ items).Nodup) (hm : IsMatching accepts places (fun _ ↦ false) matched)
    (hset : ∀ a, Matched (fun _ ↦ false) matched a ↔ a ∈ done) :
    (∀ later, assign accepts places items matched = .ok later →
      IsMatching accepts places (fun _ ↦ false) later ∧
        ∀ a, Matched (fun _ ↦ false) later a ↔ a ∈ done ++ items) ∧
    (∀ item, assign accepts places items matched = .error item →
      item ∈ items ∧ ¬ Assignable accepts places (done ++ items)) := by
  induction items generalizing done matched with
  | nil =>
    refine ⟨fun later h ↦ ?_, fun item h ↦ ?_⟩
    · obtain rfl := Except.ok.inj h
      exact ⟨hm, by simpa using hset⟩
    · cases h
  | cons item items ih =>
    have hfresh : item ∉ done := fun h ↦
      (List.nodup_append.mp hnodup).2.2 item h item List.mem_cons_self rfl
    have hnot : ¬ Matched (fun _ ↦ false) matched item := by
      rw [hset]
      exact hfresh
    have houtcome : Outcome accepts places (fun _ ↦ false) matched item
        (augment accepts places (places.length + 1) item (fun _ ↦ false) matched) :=
      augment_outcome (Nat.lt_succ_of_le card_unvisited_le)
    rw [assign]
    rcases hr : augment accepts places (places.length + 1) item (fun _ ↦ false) matched with
      ⟨found, marks, moved⟩
    rw [hr] at houtcome
    rcases houtcome with ⟨hfound, hshift⟩ | ⟨hfound, -, hblocked⟩
    · obtain rfl : found = true := hfound
      obtain ⟨hlater, hlaterSet⟩ := hshift.isMatching hm hnot
      have hdone : ∀ a, Matched (fun _ ↦ false) moved a ↔ a ∈ done ++ [item] := by
        intro a
        rw [hlaterSet, hset, List.mem_append, List.mem_singleton, or_comm]
      have hnodup' : (done ++ [item] ++ items).Nodup := by simpa using hnodup
      have hnext := ih hnodup' hlater hdone
      rw [List.append_assoc, List.singleton_append] at hnext
      exact ⟨hnext.1, fun a h ↦ ⟨List.mem_cons_of_mem _ (hnext.2 a h).1, (hnext.2 a h).2⟩⟩
    · obtain rfl : found = false := hfound
      refine ⟨fun later h ↦ ?_, fun a h ↦ ?_⟩
      · cases h
      · obtain rfl := Except.error.inj h
        refine ⟨List.mem_cons_self, not_assignable_of_blocked hm hblocked (fun p hp ↦ ?_)
          (List.mem_append_right _ List.mem_cons_self) fun p b hp ↦ ?_⟩
        · exact hnot ⟨p, rfl, hp⟩
        · exact List.mem_append_left _ ((hset b).mp ⟨p, rfl, hp⟩)

/-- A run ends at one of its items. -/
theorem mem_of_assign_eq_error {items : List α} {item : α} {matched : β → Option α}
    (h : assign accepts places items matched = .error item) : item ∈ items := by
  induction items generalizing matched with
  | nil => cases h
  | cons a items ih =>
    rw [assign] at h
    split at h
    · exact List.mem_cons_of_mem _ (ih h)
    · obtain rfl := Except.error.inj h
      exact List.mem_cons_self

/-- **A run is a maximum matching.** It succeeds when the items can be assigned at all, and then
gives every item a place of its own. -/
theorem assign_exact {items : List α} (hnodup : items.Nodup) :
    ((∃ later, assign accepts places items (fun _ ↦ none) = .ok later) ↔
      Assignable accepts places items) ∧
    ∀ later, assign accepts places items (fun _ ↦ none) = .ok later →
      IsMatching accepts places (fun _ ↦ false) later ∧
        ∀ a, Matched (fun _ ↦ false) later a ↔ a ∈ items := by
  have hempty : IsMatching accepts places (fun _ ↦ false) (fun _ ↦ (none : Option α)) :=
    ⟨fun p a _ h ↦ (by cases h), fun p q a _ _ h ↦ (by cases h)⟩
  have hset : ∀ a : α, Matched (fun _ ↦ false) (fun _ : β ↦ (none : Option α)) a ↔
      a ∈ ([] : List α) := by
    intro a
    simp [Matched]
  have hnodup' : (([] : List α) ++ items).Nodup := hnodup
  obtain ⟨hok, herror⟩ := assign_spec hnodup' hempty hset
  rw [List.nil_append] at hok herror
  refine ⟨⟨?_, ?_⟩, hok⟩
  · rintro ⟨later, h⟩
    obtain ⟨hm, hall⟩ := hok later h
    choose f _ hf using fun a : {a // a ∈ items} ↦ (hall a).mpr a.2
    refine ⟨f, fun a ↦ hm.accepted (f a) a rfl (hf a), fun a b hab ↦ ?_⟩
    exact Subtype.ext (Option.some.inj ((hf a).symm.trans (hab ▸ hf b)))
  · intro hassign
    rcases hr : assign accepts places items (fun _ ↦ none) with item | later
    · exact absurd hassign (herror item hr).2
    · exact ⟨later, rfl⟩

end Matching
