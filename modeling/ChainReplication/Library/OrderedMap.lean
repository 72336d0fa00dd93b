import Mathlib.Data.List.Pairwise
import Mathlib.Order.Lattice
import Mathlib.Order.Defs.LinearOrder

/-!
# Ordered maps

A map that keeps its entries in the order of their keys, with assignment under a key and the search for the
first key beyond a bound.
-/

/-- A list of entries with strictly increasing keys. -/
structure OrderedMap (κ ν : Type*) [LinearOrder κ] where
  entries : List (κ × ν)
  sorted : entries.Pairwise fun a b => a.1 < b.1

namespace OrderedMap

variable {κ ν : Type*} [LinearOrder κ] {k : κ} {v : ν} {e : κ × ν} {l : List (κ × ν)}

/-- Assignment in a sorted list of entries: an entry with the same key is replaced. -/
def assignList (k : κ) (v : ν) : List (κ × ν) → List (κ × ν)
  | [] => [(k, v)]
  | e :: l =>
    if k < e.1 then (k, v) :: e :: l
    else if k = e.1 then (k, v) :: l
    else e :: assignList k v l

lemma mem_of_mem_assignList (h : e ∈ assignList k v l) : e = (k, v) ∨ e ∈ l := by
  induction l with
  | nil => simpa [assignList] using h
  | cons a l ih =>
    rw [assignList] at h
    split_ifs at h with hlt heq
    · simpa using h
    · rcases List.mem_cons.mp h with h | h
      · exact Or.inl h
      · exact Or.inr (List.mem_cons_of_mem _ h)
    · rcases List.mem_cons.mp h with h | h
      · exact Or.inr (h ▸ List.mem_cons_self)
      · exact (ih h).imp_right (List.mem_cons_of_mem _)

lemma assignList_sorted (h : l.Pairwise fun a b => a.1 < b.1) :
    (assignList k v l).Pairwise fun a b => a.1 < b.1 := by
  induction l with
  | nil => simp [assignList]
  | cons a l ih =>
    obtain ⟨ha, hl⟩ := List.pairwise_cons.mp h
    rw [assignList]
    split_ifs with hlt heq
    · refine List.pairwise_cons.mpr ⟨fun b hb => ?_, h⟩
      rcases List.mem_cons.mp hb with rfl | hb
      · exact hlt
      · exact hlt.trans (ha b hb)
    · subst heq
      exact List.pairwise_cons.mpr ⟨ha, hl⟩
    · refine List.pairwise_cons.mpr ⟨fun b hb => ?_, ih hl⟩
      rcases mem_of_mem_assignList hb with rfl | hb
      · exact lt_of_le_of_ne (not_lt.mp hlt) (Ne.symm heq)
      · exact ha b hb

/-- After an assignment the map has the new entry and the old ones with other keys. -/
lemma mem_assignList_iff (h : l.Pairwise fun a b => a.1 < b.1) :
    e ∈ assignList k v l ↔ e = (k, v) ∨ e ∈ l ∧ e.1 ≠ k := by
  induction l with
  | nil => simp [assignList]
  | cons a l ih =>
    obtain ⟨ha, hl⟩ := List.pairwise_cons.mp h
    rw [assignList]
    split_ifs with hlt heq
    · have hne : e ∈ a :: l → e.1 ≠ k := by
        intro he
        rcases List.mem_cons.mp he with rfl | he
        · exact hlt.ne'
        · exact (hlt.trans (ha e he)).ne'
      rw [List.mem_cons]
      exact or_congr_right ⟨fun he => ⟨he, hne he⟩, And.left⟩
    · subst heq
      have hne : e ∈ l → e.1 ≠ a.1 := fun he => (ha e he).ne'
      rw [List.mem_cons, List.mem_cons]
      constructor
      · exact Or.imp_right fun he => ⟨Or.inr he, hne he⟩
      · rintro (he | ⟨rfl | he, hk⟩)
        · exact Or.inl he
        · exact absurd rfl hk
        · exact Or.inr he
    · rw [List.mem_cons, List.mem_cons, ih hl]
      constructor
      · rintro (rfl | he | ⟨he, hk⟩)
        · exact Or.inr ⟨Or.inl rfl, Ne.symm heq⟩
        · exact Or.inl he
        · exact Or.inr ⟨Or.inr he, hk⟩
      · rintro (he | ⟨rfl | he, hk⟩)
        · exact Or.inr (Or.inl he)
        · exact Or.inl rfl
        · exact Or.inr (Or.inr ⟨he, hk⟩)

/-- The empty map. -/
def empty : OrderedMap κ ν := ⟨[], List.Pairwise.nil⟩

/-- Assignment. -/
def assign (m : OrderedMap κ ν) (k : κ) (v : ν) : OrderedMap κ ν :=
  ⟨assignList k v m.entries, assignList_sorted m.sorted⟩

/-- The first entry with a key greater than `k`. -/
def upperBound (m : OrderedMap κ ν) (k : κ) : Option (κ × ν) := m.entries.find? fun e => k < e.1

variable {m : OrderedMap κ ν} {k' : κ}

@[simp] lemma notMem_empty : e ∉ (empty : OrderedMap κ ν).entries := List.not_mem_nil

@[simp] lemma mem_assign :
    e ∈ (m.assign k v).entries ↔ e = (k, v) ∨ e ∈ m.entries ∧ e.1 ≠ k :=
  mem_assignList_iff m.sorted

/-- The entry found is the least one beyond the bound. -/
lemma upperBound_of_least (he : e ∈ m.entries) (hk : k < e.1)
    (hleast : ∀ e' ∈ m.entries, k < e'.1 → e.1 ≤ e'.1) : m.upperBound k = some e := by
  obtain ⟨l₁, l₂, hl⟩ := List.append_of_mem he
  have hsorted := m.sorted
  rw [hl, List.pairwise_append] at hsorted
  have hbefore : ∀ a ∈ l₁, ¬ k < a.1 := by
    intro a ha hlt
    have hle := hleast a (hl ▸ List.mem_append_left _ ha) hlt
    exact absurd (hsorted.2.2 a ha e List.mem_cons_self) (not_lt.mpr hle)
  have hnone : l₁.find? (fun a => k < a.1) = none := by simpa using hbefore
  rw [upperBound, hl, List.find?_append, hnone, Option.none_or, List.find?_cons_of_pos (by simpa using hk)]

end OrderedMap
