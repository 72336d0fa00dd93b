import Mathlib.Algebra.BigOperators.Group.List.Basic
import Mathlib.Tactic.Abel
import Mathlib.Data.List.AList

/-!
# Association lists built from a list of records

The table that inserts every record of a list under its key, for keys without repetition, and the sum
of the values of a table.
-/

/-- A record is found by its key, when no two have the same. -/
lemma List.find?_key {α γ : Type*} [DecidableEq α] {key : γ → α} {l : List γ} (hl : (l.map key).Nodup)
    {c : γ} (hc : c ∈ l) : (l.find? fun d => key d = key c) = some c := by
  cases hfind : l.find? fun d => key d = key c with
  | none =>
    have hnot := List.find?_eq_none.mp hfind c hc
    simp at hnot
  | some d =>
    have hkey : key d = key c := by simpa using List.find?_some hfind
    exact congrArg some (List.inj_on_of_nodup_map hl (List.mem_of_find?_eq_some hfind) hc hkey)

namespace AList

variable {α β γ : Type*} [DecidableEq α] {key : γ → α} {val : γ → β}

/-- A key that no record has is looked up in the table one started from. -/
lemma lookup_foldl_insert_of_notMem {l : List γ} {k : α} (h : k ∉ l.map key)
    (t : AList fun _ : α => β) :
    (l.foldl (fun t c => t.insert (key c) (val c)) t).lookup k = t.lookup k := by
  induction l generalizing t with
  | nil => rfl
  | cons c l ih =>
    obtain ⟨hc, hl⟩ : k ≠ key c ∧ k ∉ l.map key := by simpa using h
    rw [List.foldl_cons, ih hl, lookup_insert_ne hc]

/-- Every record is found under its key. -/
lemma lookup_foldl_insert {l : List γ} (hl : (l.map key).Nodup) {c : γ} (hc : c ∈ l)
    (t : AList fun _ : α => β) :
    (l.foldl (fun t c => t.insert (key c) (val c)) t).lookup (key c) = some (val c) := by
  induction l generalizing t with
  | nil => simp at hc
  | cons d l ih =>
    obtain ⟨hd, hl⟩ := List.nodup_cons.mp hl
    rw [List.foldl_cons]
    rcases List.mem_cons.mp hc with rfl | hc
    · rw [lookup_foldl_insert_of_notMem hd, lookup_insert]
    · exact ih hl hc _

/-- Whatever the table holds is one of the records. -/
lemma exists_of_lookup_foldl_insert {l : List γ} (hl : (l.map key).Nodup) {k : α} {v : β}
    (h : (l.foldl (fun t c => t.insert (key c) (val c)) (∅ : AList fun _ : α => β)).lookup k =
      some v) : ∃ c ∈ l, key c = k ∧ val c = v := by
  by_cases hk : k ∈ l.map key
  · obtain ⟨c, hc, rfl⟩ := List.mem_map.mp hk
    rw [lookup_foldl_insert hl hc] at h
    exact ⟨c, hc, rfl, Option.some.inj h⟩
  · rw [lookup_foldl_insert_of_notMem hk, lookup_empty] at h
    simp at h

omit [DecidableEq α] in
/-- The keys of the entries of a table, in whatever order they come. -/
lemma map_fst_perm_keys {t : AList fun _ : α => β} {l : List (α × β)}
    (h : l.Perm (t.entries.map fun e => (e.1, e.2))) : (l.map Prod.fst).Perm t.keys := by
  have hmap := h.map Prod.fst
  rwa [List.map_map] at hmap

lemma mem_iff_of_perm {t : AList fun _ : α => β} {l : List (α × β)}
    (h : l.Perm (t.entries.map fun e => (e.1, e.2))) {c : α × β} : c ∈ l ↔ t.lookup c.1 = some c.2 := by
  rw [h.mem_iff, List.mem_map]
  constructor
  · rintro ⟨e, he, rfl⟩
    exact mem_lookup_iff.mpr he
  · exact fun hlookup => ⟨⟨c.1, c.2⟩, mem_lookup_iff.mp hlookup, rfl⟩

/-- The entries in the order of a list of the keys. -/
lemma map_lookup_perm {t : AList fun _ : α => β} {ks : List α} (h : ks.Perm t.keys) (d : β) :
    (ks.map fun k => (k, (t.lookup k).getD d)).Perm (t.entries.map fun e => (e.1, e.2)) := by
  refine (h.map _).trans (List.Perm.of_eq ?_)
  show (t.entries.map Sigma.fst).map _ = _
  rw [List.map_map]
  apply List.map_congr_left
  intro e he
  have hlookup : t.lookup e.1 = some e.2 := mem_lookup_iff.mpr he
  rw [Function.comp_apply, hlookup, Option.getD_some]

/-- A table is rebuilt from its entries, in whatever order they come. -/
lemma lookup_foldl_insert_of_perm {t : AList fun _ : α => β} {l : List (α × β)}
    (h : l.Perm (t.entries.map fun e => (e.1, e.2))) (k : α) :
    (l.foldl (fun t c => t.insert c.1 c.2) (∅ : AList fun _ : α => β)).lookup k = t.lookup k := by
  have hkeys := map_fst_perm_keys h
  have hl : (l.map Prod.fst).Nodup := hkeys.nodup_iff.mpr t.keys_nodup
  cases hlookup : t.lookup k with
  | some v => exact lookup_foldl_insert hl ((mem_iff_of_perm h).mpr hlookup : (k, v) ∈ l) ∅
  | none =>
    have hnot : k ∉ l.map Prod.fst := by
      rw [hkeys.mem_iff]
      exact lookup_eq_none.mp hlookup
    rw [lookup_foldl_insert_of_notMem hnot, lookup_empty]

/-- When every value carries its key, a key is looked up among the values alone. -/
lemma find?_eq_lookup_of_perm {t : AList fun _ : α => β} {f : β → α} {l : List β}
    (h : l.Perm (t.entries.map fun e => e.2)) (hf : ∀ k v, t.lookup k = some v → f v = k) (k : α) :
    (l.find? fun v => f v = k) = t.lookup k := by
  have hmem {v : β} : v ∈ l ↔ t.lookup (f v) = some v := by
    rw [h.mem_iff, List.mem_map]
    constructor
    · rintro ⟨⟨k', v'⟩, he, rfl⟩
      have hlookup : t.lookup k' = some v' := mem_lookup_iff.mpr he
      rwa [hf k' v' hlookup]
    · exact fun hlookup => ⟨⟨f v, v⟩, mem_lookup_iff.mp hlookup, rfl⟩
  cases hfind : l.find? fun v => f v = k with
  | some v =>
    have hv := hmem.mp (List.mem_of_find?_eq_some hfind)
    have hk : f v = k := by simpa using List.find?_some hfind
    rw [hk] at hv
    exact hv.symm
  | none =>
    cases hlookup : t.lookup k with
    | none => rfl
    | some v =>
      have hk := hf k v hlookup
      have hnot := List.find?_eq_none.mp hfind v (hmem.mpr (hk ▸ hlookup))
      exact absurd (decide_eq_true hk) hnot

/-- Setting the value of a key changes the sum of all values by what it adds to that key. -/
lemma sum_insert {M : Type*} [AddCommGroup M] (t : AList fun _ : α => M) (k : α) (v : M) :
    ((t.insert k v).entries.map fun e => e.2).sum =
      (t.entries.map fun e => e.2).sum - (t.lookup k).getD 0 + v := by
  by_cases hk : k ∈ t.entries.keys
  · obtain ⟨w, l₁, l₂, -, hl, herase⟩ := List.exists_of_kerase hk
    have hlookup : t.lookup k = some w := by
      rw [← mem_lookup_iff.mpr (show ⟨k, w⟩ ∈ t.entries by rw [hl]; simp)]
    rw [entries_insert, herase, hl, hlookup]
    simp only [List.map_cons, List.map_append, List.sum_cons, List.sum_append, Option.getD_some]
    abel
  · have hnone : t.lookup k = none := lookup_eq_none.mpr hk
    rw [entries_insert_of_notMem hk, hnone]
    simp [add_comm]

end AList
