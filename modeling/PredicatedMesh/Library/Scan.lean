import Mathlib.Data.List.Nodup
import Mathlib.Data.List.Sort
import Mathlib.Tactic

/-!
# Scanning lists for repeated keys

A checker walks a list once, remembers the keys it has met, and complains at every element whose
key it has met before. `repeats` is that walk. What a proof needs from it is a single fact: the walk
complains about nothing exactly when the keys are distinct.

Checkers also report by appending, so a clean report splits into clean parts; `require` is the one
shape every check has, a diagnostic when a condition fails, and `stage` is an early return.

## Loops that carry a state

`loop` is a checking loop whose body may update a state, report diagnostics or abort. The rule for
it, `loop_clean`, is the one the proofs use: if a clean step keeps an invariant of the state, only
ever extends the state, and establishes something about its element that later extensions keep,
then a clean run has done the same and established it about every element.
-/

namespace Scan

variable {α κ δ : Type*}

/-! ## Repeated keys -/

/-- The elements whose key occurred earlier, given the keys already seen. -/
def repeats [DecidableEq κ] (key : α → κ) : List κ → List α → List α
  | _, [] => []
  | seen, a :: l =>
    if key a ∈ seen then a :: repeats key seen l else repeats key (key a :: seen) l

theorem repeats_eq_nil_iff [DecidableEq κ] (key : α → κ) (seen : List κ) (l : List α) :
    repeats key seen l = [] ↔ (l.map key).Nodup ∧ ∀ a ∈ l, key a ∉ seen := by
  induction l generalizing seen with
  | nil => simp [repeats]
  | cons a l ih =>
    by_cases h : key a ∈ seen
    · simp [repeats, h]
    · rw [repeats, if_neg h, ih, List.map_cons, List.nodup_cons]
      constructor
      · rintro ⟨hnd, hseen⟩
        refine ⟨⟨?_, hnd⟩, ?_⟩
        · intro hmem
          obtain ⟨b, hb, hab⟩ := List.mem_map.mp hmem
          exact hseen b hb (hab ▸ List.mem_cons_self)
        · intro b hb
          rcases List.mem_cons.mp hb with rfl | hb
          · exact h
          · exact fun hs ↦ hseen b hb (List.mem_cons_of_mem _ hs)
      · rintro ⟨⟨ha, hnd⟩, hseen⟩
        refine ⟨hnd, fun b hb hs ↦ ?_⟩
        rcases List.mem_cons.mp hs with hab | hs
        · exact ha (hab ▸ List.mem_map_of_mem hb)
        · exact hseen b (List.mem_cons_of_mem _ hb) hs

theorem nodup_of_repeats_eq_nil [DecidableEq κ] {key : α → κ} {l : List α}
    (h : repeats key [] l = []) : (l.map key).Nodup :=
  ((repeats_eq_nil_iff key [] l).mp h).1

/-- With distinct keys, the first element with a given key is the only one. -/
theorem find?_eq_some_of_nodup [DecidableEq κ] {key : α → κ} {l : List α}
    (hnd : (l.map key).Nodup) {a : α} (ha : a ∈ l) :
    l.find? (fun b ↦ key b == key a) = some a := by
  induction l with
  | nil => cases ha
  | cons b l ih =>
    rw [List.map_cons, List.nodup_cons] at hnd
    rcases List.mem_cons.mp ha with rfl | ha
    · simp
    · have hne : key b ≠ key a := fun hba ↦ hnd.1 (hba ▸ List.mem_map_of_mem ha)
      rw [List.find?_cons_of_neg (by simpa using hne)]
      exact ih hnd.2 ha

/-- With distinct keys, exactly one element has the key of an element. -/
theorem filter_eq_singleton_of_nodup [DecidableEq κ] {key : α → κ} {l : List α}
    (hnodup : (l.map key).Nodup) {a : α} (ha : a ∈ l) :
    l.filter (fun b ↦ key b == key a) = [a] := by
  induction l with
  | nil => cases ha
  | cons b l ih =>
    rw [List.map_cons, List.nodup_cons] at hnodup
    rcases List.mem_cons.mp ha with rfl | ha
    · rw [List.filter_cons_of_pos (by simp), List.cons_inj_right, List.filter_eq_nil_iff]
      intro c hc hsame
      exact hnodup.1 ((beq_iff_eq.mp hsame) ▸ List.mem_map_of_mem hc)
    · have hne : key b ≠ key a := fun hba ↦ hnodup.1 (hba ▸ List.mem_map_of_mem ha)
      rw [List.filter_cons_of_neg (by simpa using hne)]
      exact ih hnodup.2 ha

/-- Looking a key up in a list with distinct keys. -/
theorem find?_eq_some_iff_of_nodup [DecidableEq κ] {key : α → κ} {l : List α}
    (hnd : (l.map key).Nodup) {k : κ} {a : α} :
    l.find? (fun b ↦ key b == k) = some a ↔ a ∈ l ∧ key a = k := by
  constructor
  · intro h
    exact ⟨List.mem_of_find?_eq_some h, by simpa using List.find?_some h⟩
  · rintro ⟨ha, rfl⟩
    exact find?_eq_some_of_nodup hnd ha

/-- Lists whose elements determine what they belong to do not meet. -/
theorem nodup_flatMap_of_key {β : Type*} {key : α → κ} {f : α → List β} {l : List α}
    (hkeys : (l.map key).Nodup) (hf : ∀ a ∈ l, (f a).Nodup)
    (hkey : ∀ a b x, x ∈ f a → x ∈ f b → key a = key b) : (l.flatMap f).Nodup := by
  rw [List.nodup_flatMap]
  exact ⟨hf, (List.pairwise_map.mp hkeys).imp fun hne x ha hb ↦ hne (hkey _ _ x ha hb)⟩

/-- A lookup that fails with an error when the key is missing. -/
theorem lookup_eq_ok_iff [DecidableEq κ] {β ε : Type*} {key : α → κ} {l : List α}
    (hnd : (l.map key).Nodup) {k : κ} {e : ε} {f : α → β} {b : β} :
    ((l.find? fun a ↦ key a == k).elim (.error e : Except ε β) fun a ↦ .ok (f a)) = .ok b ↔
      ∃ a ∈ l, key a = k ∧ f a = b := by
  cases hfind : l.find? fun a ↦ key a == k with
  | none =>
    simp only [Option.elim_none, reduceCtorEq, false_iff]
    rintro ⟨a, ha, hk, -⟩
    have hsome := (find?_eq_some_iff_of_nodup hnd).mpr ⟨ha, hk⟩
    rw [hfind] at hsome
    cases hsome
  | some a =>
    obtain ⟨ha, hk⟩ := (find?_eq_some_iff_of_nodup hnd).mp hfind
    simp only [Option.elim_some, Except.ok.injEq]
    constructor
    · intro hb
      exact ⟨a, ha, hk, hb⟩
    · rintro ⟨a', ha', hk', rfl⟩
      rw [List.inj_on_of_nodup_map hnd ha ha' (hk.trans hk'.symm)]

/-- Distinct keys below the length of a list are all the numbers below it: sorted by key, each
element stands at the position its key names. -/
theorem map_insertionSort_eq_range {key : α → ℕ} {l : List α} (hnodup : (l.map key).Nodup)
    (hlt : ∀ a ∈ l, key a < l.length) :
    (l.insertionSort fun a b ↦ key a ≤ key b).map key = List.range l.length := by
  have hsubset : l.map key ⊆ List.range l.length := by
    intro k hk
    obtain ⟨a, ha, rfl⟩ := List.mem_map.mp hk
    exact List.mem_range.mpr (hlt a ha)
  have hperm : (l.map key).Perm (List.range l.length) :=
    (List.subperm_of_subset hnodup hsubset).perm_of_length_le (by simp)
  have hsorted : ((l.insertionSort fun a b ↦ key a ≤ key b).map key).Pairwise (· ≤ ·) := by
    rw [List.pairwise_map]
    have : Std.Total fun a b : α ↦ key a ≤ key b := ⟨fun a b ↦ le_total _ _⟩
    have : IsTrans α fun a b : α ↦ key a ≤ key b := ⟨fun a b c ↦ le_trans⟩
    exact List.pairwise_insertionSort _ l
  refine List.Perm.eq_of_pairwise' hsorted ?_ ?_
  · exact List.pairwise_le_range
  · exact ((List.perm_insertionSort _ l).map key).trans hperm

/-! ## One check -/

/-- The diagnostics of one check: none when the condition holds. -/
def require (ok : Bool) (diagnostic : δ) : List δ := if ok then [] else [diagnostic]

@[simp] theorem require_eq_nil_iff (ok : Bool) (diagnostic : δ) :
    require ok diagnostic = [] ↔ ok = true := by
  cases ok <;> simp [require]

/-- A checker that returns at the end of a stage that reported something. -/
def stage {ε : Type*} (report : List δ) (next : Except ε (List δ)) : Except ε (List δ) :=
  if report.isEmpty then next else .ok report

@[simp] theorem stage_eq_ok_nil_iff {ε : Type*} {report : List δ} {next : Except ε (List δ)} :
    stage report next = .ok [] ↔ report = [] ∧ next = .ok [] := by
  cases report <;> simp [stage]

/-- A check that finds nothing does not end the checker. -/
theorem stage_require {ε : Type*} {ok : Bool} {diagnostic : δ} {next : Except ε (List δ)}
    (h : ok = true) : stage (require ok diagnostic) next = next := by
  subst h
  rfl

/-- Whether a checker returned, and returned an empty report. -/
def accepts {ε : Type*} : Except ε (List δ) → Bool
  | .ok [] => true
  | _ => false

theorem accepts_iff {ε : Type*} (r : Except ε (List δ)) : accepts r = true ↔ r = .ok [] := by
  cases r with
  | error e => simp [accepts]
  | ok l => cases l <;> simp [accepts]

/-! ## Blocks -/

/-- Blocks of equal width, laid end to end. -/
theorem getElem?_flatMap_range (f : ℕ → List α) {n w q r : ℕ} (hwidth : ∀ i, (f i).length = w)
    (hq : q < n) (hr : r < w) : ((List.range n).flatMap f)[w * q + r]? = (f q)[r]? := by
  induction n with
  | zero => exact absurd hq (Nat.not_lt_zero q)
  | succ n ih =>
    have hlength : ((List.range n).flatMap f).length = w * n := by
      simp [List.length_flatMap, hwidth, mul_comm]
    rw [List.range_succ, List.flatMap_append, List.flatMap_singleton]
    rcases Nat.lt_succ_iff_lt_or_eq.mp hq with hlt | rfl
    · have hbound : w * q + r < w * n := by
        calc w * q + r < w * q + w := by omega
          _ = w * (q + 1) := by rw [Nat.mul_succ]
          _ ≤ w * n := Nat.mul_le_mul_left w hlt
      rw [List.getElem?_append_left (hlength ▸ hbound)]
      exact ih hlt
    · rw [List.getElem?_append_right (by omega), hlength, Nat.add_sub_cancel_left]

/-! ## Lists related element by element -/

section Related

variable {β γ : Type*} {R : α → β → Prop}

theorem map_eq_of_forall₂ {f : α → γ} {g : β → γ} (hR : ∀ a b, R a b → f a = g b) {l : List α}
    {m : List β} (h : List.Forall₂ R l m) : l.map f = m.map g := by
  induction h with
  | nil => rfl
  | cons hab _ ih => rw [List.map_cons, List.map_cons, hR _ _ hab, ih]

theorem forall₂_filter {p : α → Bool} {q : β → Bool} (hpq : ∀ a b, R a b → p a = q b)
    {l : List α} {m : List β} (h : List.Forall₂ R l m) :
    List.Forall₂ R (l.filter p) (m.filter q) := by
  induction h with
  | nil => exact .nil
  | @cons a b l m hab _ ih =>
    rw [List.filter_cons, List.filter_cons, hpq a b hab]
    split
    · exact .cons hab ih
    · exact ih

theorem forall_iff_of_forall₂ {P : α → Prop} {Q : β → Prop} (hR : ∀ a b, R a b → (Q b ↔ P a))
    {l : List α} {m : List β} (h : List.Forall₂ R l m) : (∀ b ∈ m, Q b) ↔ ∀ a ∈ l, P a := by
  induction h with
  | nil => simp
  | cons hab _ ih => rw [List.forall_mem_cons, List.forall_mem_cons, hR _ _ hab, ih]

theorem exists_of_forall₂ {l : List α} {m : List β} (h : List.Forall₂ R l m) :
    ∀ a ∈ l, ∃ b ∈ m, R a b := by
  induction h with
  | nil => exact fun a ha ↦ absurd ha List.not_mem_nil
  | cons hhead _ ih =>
    rw [List.forall_mem_cons]
    refine ⟨⟨_, List.mem_cons_self, hhead⟩, fun a ha ↦ ?_⟩
    obtain ⟨b, hb, hR⟩ := ih a ha
    exact ⟨b, List.mem_cons_of_mem _ hb, hR⟩

/-- A relation between the elements of one list becomes one between those they are related to. -/
theorem pairwise_of_forall₂ {P : α → α → Prop} {Q : β → β → Prop}
    (hQ : ∀ a a' b b', P a a' → R a b → R a' b' → Q b b') {l : List α} {m : List β}
    (h : List.Forall₂ R l m) (hl : l.Pairwise P) : m.Pairwise Q := by
  induction h with
  | nil => exact List.Pairwise.nil
  | cons hhead htail ih =>
    obtain ⟨hfirst, hrest⟩ := List.pairwise_cons.mp hl
    refine List.pairwise_cons.mpr ⟨fun b hb ↦ ?_, ih hrest⟩
    obtain ⟨a, ha, hR⟩ := exists_of_forall₂ htail.flip b hb
    exact hQ _ _ _ _ (hfirst a ha) hhead hR

theorem forall₂_trans {S : β → γ → Prop} {T : α → γ → Prop}
    (hT : ∀ a b c, R a b → S b c → T a c) {l : List α} {m : List β} {n : List γ}
    (h : List.Forall₂ R l m) (h' : List.Forall₂ S m n) : List.Forall₂ T l n := by
  induction h generalizing n with
  | nil =>
    rw [List.forall₂_nil_left_iff.mp h']
    exact .nil
  | cons hhead _ ih =>
    obtain ⟨c, n, hc, hn, rfl⟩ := List.forall₂_cons_left_iff.mp h'
    exact .cons (hT _ _ _ hhead hc) (ih hn)

theorem exists_forall₂ {m : List β} (h : ∀ b ∈ m, ∃ a, R a b) : ∃ l, List.Forall₂ R l m := by
  induction m with
  | nil => exact ⟨[], .nil⟩
  | cons b m ih =>
    obtain ⟨⟨a, ha⟩, hm⟩ := List.forall_mem_cons.mp h
    obtain ⟨l, hl⟩ := ih hm
    exact ⟨a :: l, .cons ha hl⟩

end Related

/-! ## Loops -/

variable {σ ε : Type*}

/-- Run a checking body over a list: append the reports, stop at an abort. -/
def each (body : α → Except ε (List δ)) : List α → Except ε (List δ)
  | [] => .ok []
  | a :: l =>
    match body a with
    | .error e => .error e
    | .ok d₁ =>
      match each body l with
      | .error e => .error e
      | .ok d₂ => .ok (d₁ ++ d₂)

example : each (fun a : ℕ ↦ if a = 0 then .error "zero" else .ok [a]) [1, 2] = .ok [1, 2] := by
  decide +kernel

theorem each_clean_iff {body : α → Except ε (List δ)} {l : List α} :
    each body l = .ok [] ↔ ∀ a ∈ l, body a = .ok [] := by
  induction l with
  | nil => simp [each]
  | cons a l ih =>
    rw [List.forall_mem_cons, ← ih, each]
    cases body a with
    | error e => simp
    | ok d₁ =>
      cases each body l with
      | error e => simp
      | ok d₂ => simp

/-- A loop whose bodies all return, with diagnostics of one kind only. -/
theorem exists_each {body : α → Except ε (List δ)} {P : δ → Prop} {l : List α}
    (h : ∀ a ∈ l, ∃ report, body a = .ok report ∧ ∀ d ∈ report, P d) :
    ∃ report, each body l = .ok report ∧ ∀ d ∈ report, P d := by
  induction l with
  | nil => exact ⟨[], rfl, by simp⟩
  | cons a l ih =>
    obtain ⟨⟨d₁, ha, hP₁⟩, hl⟩ := List.forall_mem_cons.mp h
    obtain ⟨d₂, hrest, hP₂⟩ := ih hl
    refine ⟨d₁ ++ d₂, by rw [each, ha, hrest], fun d hd ↦ ?_⟩
    rcases List.mem_append.mp hd with hd | hd
    · exact hP₁ d hd
    · exact hP₂ d hd

/-- Run a checking body over a list: thread the state, append the reports, stop at an abort. -/
def loop (body : σ → α → Except ε (σ × List δ)) : σ → List α → Except ε (σ × List δ)
  | s, [] => .ok (s, [])
  | s, a :: l =>
    match body s a with
    | .error e => .error e
    | .ok (s₁, d₁) =>
      match loop body s₁ l with
      | .error e => .error e
      | .ok (s₂, d₂) => .ok (s₂, d₁ ++ d₂)

example : loop (fun s a : ℕ ↦ if a = 0 then .error "zero" else .ok (s + a, [s])) 0 [1, 2]
    = .ok (3, [0, 1]) := by
  decide +kernel

theorem loop_cons_clean_iff {body : σ → α → Except ε (σ × List δ)} {s s' : σ} {a : α}
    {l : List α} : loop body s (a :: l) = .ok (s', []) ↔
      ∃ s₁, body s a = .ok (s₁, []) ∧ loop body s₁ l = .ok (s', []) := by
  rw [loop]
  constructor
  · intro h
    split at h
    · cases h
    · rename_i s₁ d₁ hbody
      split at h
      · cases h
      · rename_i s₂ d₂ hrest
        obtain ⟨rfl, hd⟩ := Prod.mk.inj (Except.ok.inj h)
        obtain ⟨rfl, rfl⟩ := List.append_eq_nil_iff.mp hd
        exact ⟨s₁, hbody, hrest⟩
  · rintro ⟨s₁, hbody, hrest⟩
    rw [hbody]
    simp [hrest]

theorem loop_append_clean {body : σ → α → Except ε (σ × List δ)} {s s₁ s' : σ} {l m : List α}
    (hl : loop body s l = .ok (s₁, [])) (hm : loop body s₁ m = .ok (s', [])) :
    loop body s (l ++ m) = .ok (s', []) := by
  induction l generalizing s with
  | nil =>
    obtain ⟨rfl, -⟩ := Prod.mk.inj (Except.ok.inj hl)
    exact hm
  | cons a l ih =>
    obtain ⟨s₂, ha, hrest⟩ := loop_cons_clean_iff.mp hl
    exact loop_cons_clean_iff.mpr ⟨s₂, ha, ih hrest⟩

/-- A loop runs through cleanly when every step can be made from what the step before leaves, given
what is still to come. -/
theorem exists_loop_clean {body : σ → α → Except ε (σ × List δ)} {I : List α → σ → Prop}
    {s : σ} {l : List α}
    (hstep : ∀ a ∈ l, ∀ rest s, I (a :: rest) s → ∃ s', body s a = .ok (s', []) ∧ I rest s')
    (hI : I l s) : ∃ s', loop body s l = .ok (s', []) ∧ I [] s' := by
  induction l generalizing s with
  | nil => exact ⟨s, rfl, hI⟩
  | cons a l ih =>
    obtain ⟨s₁, ha, hI₁⟩ := hstep a List.mem_cons_self l s hI
    obtain ⟨s', hl, hI'⟩ := ih (fun b hb ↦ hstep b (List.mem_cons_of_mem a hb)) hI₁
    exact ⟨s', loop_cons_clean_iff.mpr ⟨s₁, ha, hl⟩, hI'⟩

/-- **The loop rule.** `I` is the invariant, `R` relates a state to its extensions and `Q` is what a
clean step establishes about its element. -/
theorem loop_clean {body : σ → α → Except ε (σ × List δ)} {I : σ → Prop} {R : σ → σ → Prop}
    {Q : α → σ → Prop} (hrefl : ∀ s, R s s)
    (htrans : ∀ {s₁ s₂ s₃}, R s₁ s₂ → R s₂ s₃ → R s₁ s₃)
    (hstable : ∀ {a s₁ s₂}, Q a s₁ → R s₁ s₂ → Q a s₂) {s s' : σ} {l : List α} (hinv : I s)
    (hstep : ∀ a ∈ l, ∀ s s', I s → body s a = .ok (s', []) → I s' ∧ R s s' ∧ Q a s')
    (h : loop body s l = .ok (s', [])) : I s' ∧ R s s' ∧ ∀ a ∈ l, Q a s' := by
  induction l generalizing s with
  | nil =>
    obtain ⟨rfl, -⟩ := Prod.mk.inj (Except.ok.inj h)
    exact ⟨hinv, hrefl s, fun a ha ↦ absurd ha List.not_mem_nil⟩
  | cons a l ih =>
    obtain ⟨s₁, hbody, hrest⟩ := loop_cons_clean_iff.mp h
    obtain ⟨hI, hR, hQ⟩ := hstep a List.mem_cons_self s s₁ hinv hbody
    obtain ⟨hI', hR', hQ'⟩ := ih hI (fun b hb ↦ hstep b (List.mem_cons_of_mem a hb)) hrest
    refine ⟨hI', htrans hR hR', fun b hb ↦ ?_⟩
    rcases List.mem_cons.mp hb with rfl | hb
    · exact hstable hQ hR'
    · exact hQ' b hb

/-- **The logging rule**: a loop whose clean steps each append one entry to a log. -/
theorem loop_log {ρ : Type*} {body : List ρ → α → Except ε (List ρ × List δ)} {f : α → ρ}
    {P : α → Prop} {I : List ρ → Prop}
    (hstep : ∀ s a s', body s a = .ok (s', []) → s' = s ++ [f a] ∧ P a ∧ (I s → I s'))
    {s s' : List ρ} {l : List α} (h : loop body s l = .ok (s', [])) :
    s' = s ++ l.map f ∧ (∀ a ∈ l, P a) ∧ (I s → I s') := by
  induction l generalizing s with
  | nil =>
    obtain ⟨rfl, -⟩ := Prod.mk.inj (Except.ok.inj h)
    simp
  | cons a l ih =>
    obtain ⟨s₁, hbody, hrest⟩ := loop_cons_clean_iff.mp h
    obtain ⟨rfl, hP, hI⟩ := hstep s a s₁ hbody
    obtain ⟨rfl, hP', hI'⟩ := ih hrest
    refine ⟨by simp, fun b hb ↦ ?_, fun hs ↦ hI' (hI hs)⟩
    rcases List.mem_cons.mp hb with rfl | hb
    · exact hP
    · exact hP' b hb

/-- The logging rule, forwards: a loop whose every step appends its entry to those before. -/
theorem loop_of_log {ρ : Type*} {body : List ρ → α → Except ε (List ρ × List δ)} {f : α → ρ}
    {s : List ρ} {l : List α} (h : ∀ before a after, l = before ++ a :: after →
      body (s ++ before.map f) a = .ok (s ++ before.map f ++ [f a], [])) :
    loop body s l = .ok (s ++ l.map f, []) := by
  induction l generalizing s with
  | nil => simp [loop]
  | cons a l ih =>
    rw [loop_cons_clean_iff]
    refine ⟨s ++ [f a], by simpa using h [] a l rfl, ?_⟩
    have hrest := ih (s := s ++ [f a]) fun before b after hl ↦ by
      have hb := h (a :: before) b after (by rw [hl, List.cons_append])
      simpa using hb
    simpa using hrest

/-- Every element of a clean run had a clean step. -/
theorem exists_clean_step {body : σ → α → Except ε (σ × List δ)} {s s' : σ} {l : List α}
    (h : loop body s l = .ok (s', [])) {a : α} (ha : a ∈ l) :
    ∃ s₁ s₂, body s₁ a = .ok (s₂, []) := by
  induction l generalizing s with
  | nil => exact absurd ha List.not_mem_nil
  | cons b l ih =>
    obtain ⟨s₁, hbody, hrest⟩ := loop_cons_clean_iff.mp h
    rcases List.mem_cons.mp ha with rfl | ha
    · exact ⟨s, s₁, hbody⟩
    · exact ih hrest ha

example : loop (fun s a : ℕ ↦ if a = 0 then .error "zero" else .ok (s + a, [s])) 0 [1, 0, 2]
    = .error "zero" := by
  decide +kernel

/-! ## Computations that may abort -/

section Computations

universe u v

variable {ε : Type u} {α β : Type v}

/-- Peel the first step off a computation that returned. -/
theorem bind_eq_ok {x : Except ε α} {f : α → Except ε β} {b : β} :
    (x >>= f) = .ok b ↔ ∃ a, x = .ok a ∧ f a = .ok b := by
  cases x with
  | error e => simp [Bind.bind, Except.bind]
  | ok a => simp [Bind.bind, Except.bind]

theorem bind_eq_error {x : Except ε α} {f : α → Except ε β} {e : ε} :
    x >>= f = .error e ↔ x = .error e ∨ ∃ a, x = .ok a ∧ f a = .error e := by
  cases x with
  | error e' => simp [bind, Except.bind]
  | ok a => simp [bind, Except.bind]

theorem map_eq_ok {x : Except ε α} {f : α → β} {b : β} :
    x.map f = .ok b ↔ ∃ a, x = .ok a ∧ f a = b := by
  cases x with
  | error e => simp [Except.map]
  | ok a => simp [Except.map]

/-- A computation that is seen to return something. -/
theorem exists_of_toOption_map {x : Except ε α} {f : α → β} {b : β}
    (h : x.toOption.map f = some b) : ∃ a, x = .ok a ∧ f a = b := by
  obtain ⟨a, hx, hf⟩ := Option.map_eq_some_iff.mp h
  rcases x with _ | a'
  · cases hx
  · obtain rfl := Option.some.inj hx
    exact ⟨a', rfl, hf⟩

theorem foldlM_cons_eq_ok {f : β → α → Except ε β} {b b' : β} {a : α} {l : List α} :
    (a :: l).foldlM f b = .ok b' ↔ ∃ b₁, f b a = .ok b₁ ∧ l.foldlM f b₁ = .ok b' := by
  rw [List.foldlM_cons, bind_eq_ok]

theorem foldlM_congr {f g : β → α → Except ε β} {l : List α}
    (h : ∀ b, ∀ a ∈ l, f b a = g b a) (b : β) : l.foldlM f b = l.foldlM g b := by
  induction l generalizing b with
  | nil => rfl
  | cons a l ih =>
    rw [List.foldlM_cons, List.foldlM_cons, h b a List.mem_cons_self]
    exact congrArg _ (funext (ih fun b a ha ↦ h b a (List.mem_cons_of_mem _ ha)))

/-- An invariant of the step of a fold that returned. -/
theorem foldlM_invariant {f : β → α → Except ε β} {I : β → Prop} {b b' : β} {l : List α}
    (hstep : ∀ b₁ b₂, ∀ a ∈ l, I b₁ → f b₁ a = .ok b₂ → I b₂) (hb : I b)
    (h : l.foldlM f b = .ok b') : I b' := by
  induction l generalizing b with
  | nil =>
    obtain rfl := Except.ok.inj h
    exact hb
  | cons a l ih =>
    obtain ⟨b₁, ha, hl⟩ := foldlM_cons_eq_ok.mp h
    exact ih (fun b₁ b₂ a ha ↦ hstep b₁ b₂ a (List.mem_cons_of_mem _ ha))
      (hstep b b₁ a List.mem_cons_self hb ha) hl

/-- A fold that failed has failed at some element. -/
theorem foldlM_eq_error {f : β → α → Except ε β} {b : β} {l : List α} {e : ε}
    (h : l.foldlM f b = .error e) : ∃ b', ∃ a ∈ l, f b' a = .error e := by
  induction l generalizing b with
  | nil => cases h
  | cons a l ih =>
    rcases bind_eq_error.mp h with ha | ⟨b₁, -, hl⟩
    · exact ⟨b, a, List.mem_cons_self, ha⟩
    · obtain ⟨b', c, hc, hfc⟩ := ih hl
      exact ⟨b', c, List.mem_cons_of_mem _ hc, hfc⟩

/-- A fold whose steps all return. -/
theorem exists_foldlM {f : β → α → Except ε β} {l : List α}
    (h : ∀ b, ∀ a ∈ l, ∃ b', f b a = .ok b') (b : β) : ∃ b', l.foldlM f b = .ok b' := by
  induction l generalizing b with
  | nil => exact ⟨b, rfl⟩
  | cons a l ih =>
    obtain ⟨b₁, ha⟩ := h b a List.mem_cons_self
    obtain ⟨b', hl⟩ := ih (fun b c hc ↦ h b c (List.mem_cons_of_mem _ hc)) b₁
    exact ⟨b', foldlM_cons_eq_ok.mpr ⟨b₁, ha, hl⟩⟩

/-- A fold that appends each element to those before it gives back the list. -/
theorem foldlM_eq_self {ε : Type u} {α : Type v} {f : List α → α → Except ε (List α)} {l : List α}
    (h : ∀ before a after, l = before ++ a :: after → f before a = .ok (before ++ [a])) :
    l.foldlM f [] = .ok l := by
  have hrest : ∀ before after, l = before ++ after → after.foldlM f before = .ok l := by
    intro before after hl
    induction after generalizing before with
    | nil =>
      rw [hl, List.append_nil]
      rfl
    | cons a after ih =>
      rw [List.foldlM_cons, h before a after hl]
      exact ih (before ++ [a]) (by rw [hl, List.append_assoc, List.singleton_append])
  exact hrest [] l rfl

theorem forM_eq_ok {ε : Type u} {α : Type v} {f : α → Except ε PUnit} {l : List α}
    (h : ∀ a ∈ l, f a = .ok ⟨⟩) : l.forM f = .ok ⟨⟩ := by
  induction l with
  | nil => rfl
  | cons a l ih =>
    rw [List.forall_mem_cons] at h
    exact bind_eq_ok.mpr ⟨⟨⟩, h.1, ih h.2⟩

theorem exists_ok_of_forM {ε : Type u} {α : Type v} {f : α → Except ε PUnit} {l : List α}
    (h : l.forM f = .ok ⟨⟩) : ∀ a ∈ l, f a = .ok ⟨⟩ := by
  induction l with
  | nil => simp
  | cons a l ih =>
    obtain ⟨_, ha, hl⟩ := bind_eq_ok.mp h
    intro b hb
    rcases List.mem_cons.mp hb with rfl | hb
    · exact ha
    · exact ih hl b hb

/-- The results of a computation run over a list are those of its elements, in order. -/
theorem mapM_eq_ok {f : α → Except ε β} {l : List α} {r : List β} :
    l.mapM f = .ok r ↔ List.Forall₂ (fun a b ↦ f a = .ok b) l r := by
  induction l generalizing r with
  | nil =>
    rw [List.mapM_nil, List.forall₂_nil_left_iff]
    exact ⟨fun h ↦ (Except.ok.inj h).symm, fun h ↦ h ▸ rfl⟩
  | cons a l ih =>
    rw [List.mapM_cons, bind_eq_ok]
    constructor
    · rintro ⟨b, hb, h⟩
      obtain ⟨bs, hbs, h⟩ := bind_eq_ok.mp h
      rw [← Except.ok.inj h]
      exact List.Forall₂.cons hb (ih.mp hbs)
    · rintro (_ | ⟨hb, hbs⟩)
      exact ⟨_, hb, bind_eq_ok.mpr ⟨_, ih.mpr hbs, rfl⟩⟩

theorem mapM_eq_error {f : α → Except ε β} {l : List α} {e : ε} (h : l.mapM f = .error e) :
    ∃ a ∈ l, f a = .error e := by
  induction l with
  | nil => cases h
  | cons a l ih =>
    rw [List.mapM_cons] at h
    rcases bind_eq_error.mp h with ha | ⟨b, -, h⟩
    · exact ⟨a, List.mem_cons_self, ha⟩
    · rcases bind_eq_error.mp h with hl | ⟨bs, -, h⟩
      · obtain ⟨c, hc, hfc⟩ := ih hl
        exact ⟨c, List.mem_cons_of_mem _ hc, hfc⟩
      · cases h

/-- A computation whose result on every element is known. -/
theorem mapM_eq_map {f : α → Except ε β} {g : α → β} {l : List α} (h : ∀ a ∈ l, f a = .ok (g a)) :
    l.mapM f = .ok (l.map g) := by
  rw [mapM_eq_ok, List.forall₂_map_right_iff, List.forall₂_same]
  exact h

/-- A computation that succeeds on every element of a list runs over it. -/
theorem exists_mapM {f : α → Except ε β} {l : List α} (h : ∀ a ∈ l, ∃ b, f a = .ok b) :
    ∃ r, l.mapM f = .ok r := by
  induction l with
  | nil => exact ⟨[], rfl⟩
  | cons a l ih =>
    obtain ⟨⟨b, hb⟩, hl⟩ := List.forall_mem_cons.mp h
    obtain ⟨r, hr⟩ := ih hl
    exact ⟨b :: r, mapM_eq_ok.mpr (.cons hb (mapM_eq_ok.mp hr))⟩

/-- What every result of a computation has to do with its element. -/
theorem forall₂_of_mapM {f : α → Except ε β} {R : α → β → Prop} {l : List α} {r : List β}
    (h : l.mapM f = .ok r) (hR : ∀ a ∈ l, ∀ b, f a = .ok b → R a b) : List.Forall₂ R l r := by
  induction l generalizing r with
  | nil =>
    obtain rfl := List.forall₂_nil_left_iff.mp (mapM_eq_ok.mp h)
    exact .nil
  | cons a l ih =>
    obtain ⟨hhead, htail⟩ := List.forall_mem_cons.mp hR
    obtain ⟨b, rest, hb, hrest, rfl⟩ := List.forall₂_cons_left_iff.mp (mapM_eq_ok.mp h)
    exact .cons (hhead b hb) (ih (mapM_eq_ok.mpr hrest) htail)

/-- The result at a position is that of the element there. -/
theorem mapM_getElem? {f : α → Except ε β} {l : List α} {r : List β} (h : l.mapM f = .ok r)
    {i : ℕ} {a : α} {b : β} (ha : l[i]? = some a) (hb : r[i]? = some b) : f a = .ok b := by
  obtain ⟨hi, rfl⟩ := List.getElem?_eq_some_iff.mp ha
  obtain ⟨hj, rfl⟩ := List.getElem?_eq_some_iff.mp hb
  exact (mapM_eq_ok.mp h).get hi hj

theorem exists_result_of_mem {f : α → Except ε β} {l : List α} {r : List β}
    (h : l.mapM f = .ok r) {a : α} (ha : a ∈ l) : ∃ b ∈ r, f a = .ok b := by
  have hall := mapM_eq_ok.mp h
  clear h
  induction hall with
  | nil => exact absurd ha List.not_mem_nil
  | cons hb _ ih =>
    rcases List.mem_cons.mp ha with rfl | ha
    · exact ⟨_, List.mem_cons_self, hb⟩
    · obtain ⟨c, hc, hfc⟩ := ih ha
      exact ⟨c, List.mem_cons_of_mem _ hc, hfc⟩

theorem exists_source_of_mem {f : α → Except ε β} {l : List α} {r : List β}
    (h : l.mapM f = .ok r) {b : β} (hb : b ∈ r) : ∃ a ∈ l, f a = .ok b := by
  have hall := mapM_eq_ok.mp h
  clear h
  induction hall with
  | nil => exact absurd hb List.not_mem_nil
  | cons ha _ ih =>
    rcases List.mem_cons.mp hb with rfl | hb
    · exact ⟨_, List.mem_cons_self, ha⟩
    · obtain ⟨c, hc, hfc⟩ := ih hb
      exact ⟨c, List.mem_cons_of_mem _ hc, hfc⟩

end Computations

/-! ## Selections -/

section Selections

variable {pick : Option α → α → Option α}

/-- A walk that takes elements for its choice ends with an element it met. -/
theorem mem_of_foldl_pick
    (hpick : ∀ selected a r, pick selected a = some r → r = a ∨ selected = some r) {l : List α}
    {selected : Option α} {r : α} (h : l.foldl pick selected = some r) :
    r ∈ l ∨ selected = some r := by
  induction l generalizing selected with
  | nil => exact .inr h
  | cons a l ih =>
    rcases ih h with hmem | hstep
    · exact .inl (List.mem_cons_of_mem _ hmem)
    · rcases hpick _ _ _ hstep with rfl | hselected
      · exact .inl List.mem_cons_self
      · exact .inr hselected

/-- A walk that always has a choice after an element ends without one only if it met none. -/
theorem eq_nil_of_foldl_pick (hpick : ∀ selected a, pick selected a ≠ none) {l : List α}
    {selected : Option α} (h : l.foldl pick selected = none) : l = [] := by
  induction l generalizing selected with
  | nil => rfl
  | cons a l ih =>
    rcases hstep : pick selected a with _ | r
    · exact absurd hstep (hpick selected a)
    · rw [List.foldl_cons] at h
      obtain rfl := ih h
      exact absurd h (hpick selected a)

end Selections

/-! ## Extremes -/

section Extremes

variable {α : Type*} [LinearOrder α]

theorem foldl_min_cons_isLeast (a : α) (l : List α) :
    IsLeast {x | x ∈ a :: l} (l.foldl min a) := by
  induction l generalizing a with
  | nil => exact ⟨List.mem_cons_self, fun x hx ↦ (List.mem_singleton.mp hx).ge⟩
  | cons b l ih =>
    obtain ⟨hmem, hle⟩ := ih (min a b)
    rw [List.foldl_cons]
    have hchoice : min a b ∈ a :: b :: l := by
      rcases min_choice a b with hmin | hmin
      · simp [hmin]
      · simp [hmin]
    constructor
    · rcases List.mem_cons.mp hmem with heq | hmem
      · rw [heq]
        exact hchoice
      · exact List.mem_cons_of_mem _ (List.mem_cons_of_mem _ hmem)
    · intro x hx
      have hfirst := hle List.mem_cons_self
      rcases List.mem_cons.mp hx with rfl | hx
      · exact hfirst.trans (min_le_left _ _)
      · rcases List.mem_cons.mp hx with rfl | hx
        · exact hfirst.trans (min_le_right _ _)
        · exact hle (List.mem_cons_of_mem _ hx)

/-- Folding with a start that is no smaller than any element finds the least element. -/
theorem foldl_min_isLeast {a : α} {l : List α} (hne : l ≠ []) (hle : ∀ x ∈ l, x ≤ a) :
    IsLeast {x | x ∈ l} (l.foldl min a) := by
  obtain ⟨b, l, rfl⟩ := List.exists_cons_of_ne_nil hne
  rw [List.foldl_cons, min_eq_right (hle b List.mem_cons_self)]
  exact foldl_min_cons_isLeast b l

theorem foldl_max_isGreatest {a : α} {l : List α} (hne : l ≠ []) (hle : ∀ x ∈ l, a ≤ x) :
    IsGreatest {x | x ∈ l} (l.foldl max a) :=
  @foldl_min_isLeast αᵒᵈ _ a l hne hle

end Extremes

end Scan
