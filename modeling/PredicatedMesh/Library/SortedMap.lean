import Mathlib.Data.List.Sort
import Mathlib.Tactic

/-!
# Maps kept as sorted lists

A map from keys to values is a list of entries in the order of their keys. An entry whose key is
there already is not put in again, and erasing a key drops its entry. Keeping the list sorted makes
the representation unique, so that erasing what was put in gives back the list itself, whatever was
put in and erased in between.
-/

namespace SortedMap

variable {α κ : Type*} [LinearOrder κ] (key : α → κ)

def contains (k : κ) (l : List α) : Bool := l.any fun a ↦ key a == k

def lookup (k : κ) (l : List α) : Option α := l.find? fun a ↦ key a == k

/-- Put an entry in, unless its key is there. -/
def emplace (a : α) (l : List α) : List α :=
  if contains key (key a) l then l else l.orderedInsert (fun a b ↦ key a ≤ key b) a

def erase (k : κ) (l : List α) : List α := l.filter fun a ↦ key a != k

variable {key} {a b : α} {k : κ} {l : List α}

theorem contains_iff : contains key k l = true ↔ ∃ a ∈ l, key a = k := by
  simp [contains]

theorem contains_eq_false_iff : contains key k l = false ↔ ∀ a ∈ l, key a ≠ k := by
  simp [contains]

theorem lookup_eq_some (h : lookup key k l = some a) : a ∈ l ∧ key a = k :=
  ⟨List.mem_of_find?_eq_some h, by simpa using List.find?_some h⟩

theorem isSome_lookup_iff : (lookup key k l).isSome = true ↔ contains key k l = true := by
  rw [lookup, List.find?_isSome, contains_iff]
  simp

theorem emplace_of_fresh (h : contains key (key a) l = false) :
    emplace key a l = l.orderedInsert (fun a b ↦ key a ≤ key b) a := by
  rw [emplace, h, if_neg Bool.false_ne_true]

theorem perm_emplace (h : contains key (key a) l = false) : (emplace key a l).Perm (a :: l) := by
  rw [emplace_of_fresh h]
  exact List.perm_orderedInsert _ _ _

theorem mem_emplace (h : contains key (key a) l = false) :
    b ∈ emplace key a l ↔ b = a ∨ b ∈ l := by
  rw [(perm_emplace h).mem_iff, List.mem_cons]

theorem mem_of_mem_emplace (h : b ∈ emplace key a l) : b = a ∨ b ∈ l := by
  unfold emplace at h
  split at h
  · exact .inr h
  · exact (List.mem_orderedInsert _).mp h

theorem erase_comm (k k' : κ) (l : List α) :
    erase key k (erase key k' l) = erase key k' (erase key k l) := by
  rw [erase, erase, erase, erase, List.filter_filter, List.filter_filter]
  exact List.filter_congr fun a _ ↦ Bool.and_comm _ _

theorem erase_of_not_contains (h : contains key k l = false) : erase key k l = l := by
  rw [erase, List.filter_eq_self]
  exact fun a ha ↦ by simpa using contains_eq_false_iff.mp h a ha

/-- **What was put in can be taken out.** -/
theorem erase_emplace (h : contains key (key a) l = false) :
    erase key (key a) (emplace key a l) = l := by
  rw [emplace_of_fresh h, List.orderedInsert_eq_take_drop, erase, List.filter_append,
    List.filter_cons_of_neg (by simp), ← List.filter_append, List.takeWhile_append_dropWhile]
  exact erase_of_not_contains h

/-- What is put in is found, and changes nothing else. -/
theorem lookup_emplace (h : contains key (key a) l = false) :
    lookup key k (emplace key a l) = if key a = k then some a else lookup key k l := by
  rw [emplace_of_fresh h, List.orderedInsert_eq_take_drop, lookup, List.find?_append]
  by_cases hkey : key a = k
  · have hnone : (l.takeWhile fun b ↦ decide ¬ key a ≤ key b).find? (fun b ↦ key b == k)
        = none := by
      rw [List.find?_eq_none]
      intro b hb
      rw [← hkey, beq_iff_eq]
      exact contains_eq_false_iff.mp h b (List.takeWhile_subset _ hb)
    rw [if_pos hkey, hnone, Option.none_or, List.find?_cons_of_pos (by simpa using hkey)]
  · rw [if_neg hkey, List.find?_cons_of_neg (by simpa using hkey), ← List.find?_append,
      List.takeWhile_append_dropWhile, lookup]

/-- The entries are in the order of their keys, one for each. -/
def Sorted (key : α → κ) (l : List α) : Prop := (l.map key).Pairwise (· < ·)

theorem Sorted.nodup (h : Sorted key l) : (l.map key).Nodup :=
  List.Pairwise.imp (fun hlt ↦ ne_of_lt hlt) h

theorem Sorted.emplace (h : Sorted key l) (hfresh : contains key (key a) l = false) :
    Sorted key (emplace key a l) := by
  have hle : l.Pairwise fun a b ↦ key a ≤ key b :=
    (List.pairwise_map.mp h).imp fun hlt ↦ le_of_lt hlt
  have hsorted : (SortedMap.emplace key a l).Pairwise fun a b ↦ key a ≤ key b := by
    rw [emplace_of_fresh hfresh]
    have : Std.Total fun a b : α ↦ key a ≤ key b := ⟨fun a b ↦ le_total (key a) (key b)⟩
    have : IsTrans α fun a b ↦ key a ≤ key b := ⟨fun a b c hab hbc ↦ le_trans hab hbc⟩
    exact hle.orderedInsert a l
  have hnodup : ((SortedMap.emplace key a l).map key).Nodup := by
    rw [((perm_emplace hfresh).map key).nodup_iff, List.map_cons, List.nodup_cons]
    refine ⟨fun hmem ↦ ?_, h.nodup⟩
    obtain ⟨b, hb, hkey⟩ := List.mem_map.mp hmem
    exact contains_eq_false_iff.mp hfresh b hb hkey
  rw [Sorted]
  exact (List.pairwise_map.mpr hsorted).imp₂ (fun _ _ hle hne ↦ lt_of_le_of_ne hle hne) hnodup

/-- A sorted list gives back each of its entries. -/
theorem Sorted.lookup_of_mem (h : Sorted key l) (ha : a ∈ l) : lookup key (key a) l = some a := by
  have hex : (lookup key (key a) l).isSome = true :=
    isSome_lookup_iff.mpr (contains_iff.mpr ⟨a, ha, rfl⟩)
  obtain ⟨b, hb⟩ := Option.isSome_iff_exists.mp hex
  obtain ⟨hmem, hkey⟩ := lookup_eq_some hb
  rw [hb, List.inj_on_of_nodup_map h.nodup hmem ha hkey]

/-- Entries with different keys are sorted into a map. -/
theorem sorted_insertionSort {m : List α} (h : (m.map key).Nodup) :
    Sorted key (m.insertionSort fun a b ↦ key a ≤ key b) := by
  have : Std.Total fun a b : α ↦ key a ≤ key b := ⟨fun a b ↦ le_total (key a) (key b)⟩
  have : IsTrans α fun a b ↦ key a ≤ key b := ⟨fun a b c hab hbc ↦ le_trans hab hbc⟩
  have hle := List.pairwise_insertionSort (fun a b ↦ key a ≤ key b) m
  have hnodup : ((m.insertionSort fun a b ↦ key a ≤ key b).map key).Nodup :=
    ((List.perm_insertionSort _ m).map key).nodup_iff.mpr h
  exact List.pairwise_map.mpr
    (hle.imp₂ (fun _ _ hab hne ↦ lt_of_le_of_ne hab hne) (List.pairwise_map.mp hnodup))

/-- However its entries are listed, sorting them gives the sorted list. -/
theorem Sorted.insertionSort_eq (h : Sorted key l) {m : List α} (hperm : m.Perm l) :
    m.insertionSort (fun a b ↦ key a ≤ key b) = l := by
  have hsorted : Sorted key (m.insertionSort fun a b ↦ key a ≤ key b) :=
    sorted_insertionSort ((hperm.map key).nodup_iff.mpr h.nodup)
  have : Std.Antisymm fun a b : α ↦ key a < key b :=
    ⟨fun a b hab hba ↦ absurd hba (lt_asymm hab)⟩
  exact ((List.perm_insertionSort _ m).trans hperm).eq_of_pairwise'
    (List.pairwise_map.mp hsorted) (List.pairwise_map.mp h)

/-- An entry's key is not among those of the entries before it. -/
theorem Sorted.fresh {before after : List α} (h : Sorted key (before ++ a :: after)) :
    contains key (key a) before = false := by
  rw [Sorted, List.map_append, List.pairwise_append] at h
  rw [contains_eq_false_iff]
  intro b hb
  exact ne_of_lt (h.2.2 _ (List.mem_map_of_mem hb) _ List.mem_cons_self)

/-- A key no entry has is put behind those of the entries. -/
theorem nodup_append {α κ : Type*} [DecidableEq κ] {key : α → κ} {l : List α} {a : α}
    (h : (l.map key).Nodup) (hfresh : ¬ (l.any fun b ↦ key b == key a) = true) :
    ((l ++ [a]).map key).Nodup := by
  rw [List.map_append, List.nodup_append]
  refine ⟨h, List.nodup_singleton _, ?_⟩
  intro k hk k' hk'
  obtain ⟨b, hb, rfl⟩ := List.mem_map.mp hk
  obtain rfl := List.mem_singleton.mp hk'
  intro heq
  exact hfresh (List.any_eq_true.mpr ⟨b, hb, beq_iff_eq.mpr heq⟩)

/-- Looking up the keys of a map, in whatever order they are listed, lists its entries. -/
theorem Sorted.perm_map_lookup {β : Type*} {id : β → κ} {m : List β} (h : Sorted key l)
    (hperm : (l.map key).Perm (m.map id)) (a₀ : α) :
    (m.map fun b ↦ (lookup key (id b) l).getD a₀).Perm l := by
  have hself : (l.map key).map (fun k ↦ (lookup key k l).getD a₀) = l := by
    rw [List.map_map]
    refine (List.map_congr_left fun a ha ↦ ?_).trans (List.map_id l)
    rw [Function.comp_apply, h.lookup_of_mem ha, Option.getD_some, id_eq]
  have hmap := hperm.map fun k ↦ (lookup key k l).getD a₀
  rw [hself, List.map_map] at hmap
  exact hmap.symm

end SortedMap
