import Mathlib.Data.List.Nodup
import Mathlib.Data.List.Infix

/-!
# The order of a list without duplicates

`x` precedes `y` in `c` when it stands somewhere before it. On a list without duplicates this is a
strict total order, and passing to a sublist keeps it.
-/

/-- Two orders of the same elements, told apart by an injective function. -/
lemma List.Perm.eq_of_map_eq {α β : Type*} {f : α → β} {l l' : List α} (h : l.Perm l')
    (hnodup : (l.map f).Nodup) (hmap : l.map f = l'.map f) : l = l' := by
  apply List.ext_getElem?
  intro i
  have hi := congrArg (·[i]?) hmap
  simp only [List.getElem?_map] at hi
  cases hl : l[i]? with
  | none =>
    rw [hl, Option.map_none] at hi
    exact (Option.map_eq_none_iff.mp hi.symm).symm
  | some a =>
    rw [hl, Option.map_some] at hi
    obtain ⟨a', hl', hf⟩ := Option.map_eq_some_iff.mp hi.symm
    have ha' := h.mem_iff.mpr (List.mem_of_getElem? hl')
    rw [hl', List.inj_on_of_nodup_map hnodup (List.mem_of_getElem? hl) ha' hf.symm]

namespace List

variable {α : Type*} {c l l₁ l₂ : List α} {x y z : α}

/-- `x` stands before `y` in `c`. -/
def Precedes (c : List α) (x y : α) : Prop := [x, y] <+ c

lemma Precedes.left_mem (h : c.Precedes x y) : x ∈ c := h.subset (by simp)

lemma Precedes.right_mem (h : c.Precedes x y) : y ∈ c := h.subset (by simp)

lemma Precedes.of_sublist (h : l.Precedes x y) (hl : l <+ c) : c.Precedes x y := h.trans hl

lemma precedes_cons {a : α} : (a :: c).Precedes x y ↔ c.Precedes x y ∨ x = a ∧ y ∈ c := by
  constructor
  · intro h
    cases h with
    | cons _ h => exact Or.inl h
    | cons_cons _ h => exact Or.inr ⟨rfl, h.subset (by simp)⟩
  · rintro (h | ⟨rfl, h⟩)
    · exact h.cons _
    · exact (List.singleton_sublist.mpr h).cons_cons _

lemma Precedes.ne (hc : c.Nodup) (h : c.Precedes x y) : x ≠ y := by
  rintro rfl
  exact List.nodup_iff_sublist.mp hc x h

lemma Precedes.idxOf_lt [DecidableEq α] (hc : c.Nodup) (h : c.Precedes x y) :
    c.idxOf x < c.idxOf y := by
  induction c with
  | nil => cases h.left_mem
  | cons a c ih =>
    obtain ⟨ha, hc⟩ := List.nodup_cons.mp hc
    rcases precedes_cons.mp h with h | ⟨rfl, hy⟩
    · have hx : a ≠ x := (ne_of_mem_of_not_mem h.left_mem ha).symm
      have hy : a ≠ y := (ne_of_mem_of_not_mem h.right_mem ha).symm
      rw [List.idxOf_cons_ne _ hx, List.idxOf_cons_ne _ hy]
      exact Nat.succ_lt_succ (ih hc h)
    · rw [List.idxOf_cons_self, List.idxOf_cons_ne _ (ne_of_mem_of_not_mem hy ha).symm]
      exact Nat.succ_pos _

/-- Two different elements are ordered one way or the other. -/
lemma precedes_total (hx : x ∈ c) (hy : y ∈ c) (hne : x ≠ y) : c.Precedes x y ∨ c.Precedes y x := by
  induction c with
  | nil => simp at hx
  | cons a c ih =>
    simp only [precedes_cons]
    rcases List.mem_cons.mp hx with rfl | hx' <;> rcases List.mem_cons.mp hy with rfl | hy'
    · exact absurd rfl hne
    · exact Or.inl (Or.inr ⟨rfl, hy'⟩)
    · exact Or.inr (Or.inr ⟨rfl, hx'⟩)
    · exact (ih hx' hy').imp Or.inl Or.inl

lemma Precedes.asymm (hc : c.Nodup) (h : c.Precedes x y) : ¬ c.Precedes y x := by
  induction c with
  | nil => simpa using h.left_mem
  | cons a c ih =>
    obtain ⟨ha, hc⟩ := List.nodup_cons.mp hc
    rw [precedes_cons] at h ⊢
    rintro (h' | ⟨rfl, hx⟩)
    · rcases h with h | ⟨rfl, -⟩
      · exact ih hc h h'
      · exact ha h'.right_mem
    · rcases h with h | ⟨rfl, h⟩
      · exact ha h.right_mem
      · exact ha h

lemma Precedes.trans (hc : c.Nodup) (h₁ : c.Precedes x y) (h₂ : c.Precedes y z) :
    c.Precedes x z := by
  induction c with
  | nil => simpa using h₁.left_mem
  | cons a c ih =>
    obtain ⟨ha, hc⟩ := List.nodup_cons.mp hc
    rw [precedes_cons] at h₁ h₂ ⊢
    rcases h₁ with h₁ | ⟨rfl, hy⟩
    · rcases h₂ with h₂ | ⟨rfl, -⟩
      · exact Or.inl (ih hc h₁ h₂)
      · exact absurd h₁.right_mem ha
    · rcases h₂ with h₂ | ⟨rfl, -⟩
      · exact Or.inr ⟨rfl, h₂.right_mem⟩
      · exact absurd hy ha

/-- The first element precedes every other one. -/
lemma precedes_of_head? (h : c.head? = some x) (hy : y ∈ c) (hne : x ≠ y) : c.Precedes x y := by
  cases c with
  | nil => simp at hy
  | cons a c =>
    obtain rfl : a = x := by simpa using h
    rcases List.mem_cons.mp hy with rfl | hy
    · exact absurd rfl hne
    · exact precedes_cons.mpr (Or.inr ⟨rfl, hy⟩)

/-- Every other element precedes the last one. -/
lemma precedes_of_getLast? (h : c.getLast? = some y) (hx : x ∈ c) (hne : x ≠ y) :
    c.Precedes x y := by
  obtain ⟨l, rfl⟩ := List.getLast?_eq_some_iff.mp h
  have hx : x ∈ l := by
    rcases List.mem_append.mp hx with hx | hx
    · exact hx
    · exact absurd (by simpa using hx) hne
  exact (List.singleton_sublist.mpr hx).append (List.Sublist.refl [y])

/-- The first element precedes the last one. -/
lemma precedes_first_last (hc : c.Nodup) (hx : c.head? = some x) (hy : c.getLast? = some y)
    (hlen : 2 ≤ c.length) : c.Precedes x y := by
  apply precedes_of_head? hx (List.mem_of_getLast? hy)
  rintro rfl
  obtain ⟨l, rfl⟩ := List.head?_eq_some_iff.mp hx
  obtain ⟨z, l, rfl⟩ := List.exists_cons_of_ne_nil (l := l) (by rintro rfl; simp at hlen)
  rw [List.getLast?_cons_cons] at hy
  exact (List.nodup_cons.mp hc).1 (List.mem_of_getLast? hy)

/-- Neighbours are ordered. -/
lemma precedes_of_adjacent : (l₁ ++ x :: y :: l₂).Precedes x y :=
  ((List.singleton_sublist.mpr List.mem_cons_self).cons_cons x).trans
    (List.sublist_append_right l₁ (x :: y :: l₂))

/-- Nothing lies between neighbours. -/
lemma not_between_of_adjacent (hl : l = l₁ ++ x :: y :: l₂) (hn : l.Nodup) (hxz : l.Precedes x z) :
    ¬ l.Precedes z y := by
  subst hl
  induction l₁ with
  | nil =>
    simp only [List.nil_append] at hn hxz ⊢
    obtain ⟨hx, hn⟩ := List.nodup_cons.mp hn
    obtain ⟨hy, -⟩ := List.nodup_cons.mp hn
    rw [precedes_cons, precedes_cons]
    rintro ((h | ⟨rfl, h⟩) | ⟨rfl, -⟩)
    · exact hy h.right_mem
    · exact hy h
    · rcases precedes_cons.mp hxz with h | ⟨-, h⟩
      · exact hx h.right_mem
      · exact hx h
  | cons a l₁ ih =>
    obtain ⟨ha, hn⟩ := List.nodup_cons.mp hn
    rw [List.cons_append, precedes_cons] at hxz ⊢
    rcases hxz with hxz | ⟨rfl, -⟩
    · rintro (h | ⟨rfl, -⟩)
      · exact ih hn hxz h
      · exact ha hxz.right_mem
    · exact absurd (by simp) ha

/-- Nothing stands before the first element. -/
lemma not_precedes_head (hc : c.Nodup) (h : c.head? = some x) : ¬ c.Precedes y x := by
  intro hyx
  exact hyx.asymm hc (precedes_of_head? h hyx.left_mem (hyx.ne hc).symm)

/-- Nothing stands after the last element. -/
lemma not_precedes_getLast (hc : c.Nodup) (h : c.getLast? = some x) : ¬ c.Precedes x y := by
  intro hxy
  exact hxy.asymm hc (precedes_of_getLast? h hxy.right_mem (hxy.ne hc).symm)

/-- A sublist orders its own elements as the whole list does. -/
lemma Precedes.restrict (hc : c.Nodup) (hl : l <+ c) (hx : x ∈ l) (hy : y ∈ l)
    (h : c.Precedes x y) : l.Precedes x y := by
  rcases precedes_total hx hy (h.ne hc) with hxy | hyx
  · exact hxy
  · exact absurd (hyx.of_sublist hl) (h.asymm hc)

/-- An element moves up when one before it is erased. -/
lemma idxOf_erase_succ [DecidableEq α] (h : l.idxOf y < l.idxOf x) :
    (l.erase y).idxOf x + 1 = l.idxOf x := by
  induction l with
  | nil => simp at h
  | cons a l ih =>
    have hx : a ≠ x := by
      rintro rfl
      simp at h
    by_cases hy : a = y
    · rw [hy, erase_cons_head, ← hy, idxOf_cons_ne _ hx]
    · rw [idxOf_cons_ne _ hy, idxOf_cons_ne _ hx] at h
      rw [erase_cons_tail (by simpa using hy), idxOf_cons_ne _ hx, idxOf_cons_ne _ hx]
      exact congrArg Nat.succ (ih (Nat.lt_of_succ_lt_succ h))

/-- No element moves back when another one is erased. -/
lemma idxOf_erase_le [DecidableEq α] (hne : x ≠ y) : (l.erase y).idxOf x ≤ l.idxOf x := by
  induction l with
  | nil => exact le_rfl
  | cons a l ih =>
    by_cases hx : a = x
    · rw [erase_cons_tail (by simpa [hx] using hne), hx, idxOf_cons_self]
      exact Nat.zero_le _
    · rw [idxOf_cons_ne _ hx]
      by_cases hy : a = y
      · rw [hy, erase_cons_head]
        exact Nat.le_succ _
      · rw [erase_cons_tail (by simpa using hy), idxOf_cons_ne _ hx]
        exact Nat.succ_le_succ ih

/-! ### Neighbours -/

/-- `y` stands directly behind `x` in `c`. -/
def Adjacent (c : List α) (x y : α) : Prop := [x, y] <:+: c

lemma adjacent_iff : c.Adjacent x y ↔ ∃ l₁ l₂, c = l₁ ++ x :: y :: l₂ := by
  constructor
  · rintro ⟨l₁, l₂, h⟩
    exact ⟨l₁, l₂, by rw [← h]; simp⟩
  · rintro ⟨l₁, l₂, rfl⟩
    exact ⟨l₁, l₂, by simp⟩

lemma Adjacent.precedes (h : c.Adjacent x y) : c.Precedes x y := h.sublist

lemma Adjacent.not_between (hc : c.Nodup) (h : c.Adjacent x y) (hxz : c.Precedes x z) :
    ¬ c.Precedes z y := by
  obtain ⟨l₁, l₂, hl⟩ := adjacent_iff.mp h
  exact not_between_of_adjacent hl hc hxz

/-- The element before another one is unique. -/
lemma Adjacent.left_unique (hc : c.Nodup) (h : c.Adjacent x z) (h' : c.Adjacent y z) : x = y := by
  by_contra hne
  rcases precedes_total h.precedes.left_mem h'.precedes.left_mem hne with hxy | hyx
  · exact h.not_between hc hxy h'.precedes
  · exact h'.not_between hc hyx h.precedes

@[simp] lemma not_adjacent_nil : ¬ ([] : List α).Adjacent x y := fun h => by
  simpa using h.precedes.left_mem

lemma adjacent_cons {a : α} : (a :: c).Adjacent x y ↔ x = a ∧ c.head? = some y ∨ c.Adjacent x y := by
  rw [Adjacent, infix_cons_iff, ← Adjacent]
  apply or_congr_left
  constructor
  · rintro ⟨l, hl⟩
    obtain ⟨rfl, rfl⟩ := List.cons.inj hl
    exact ⟨rfl, rfl⟩
  · rintro ⟨rfl, h⟩
    obtain ⟨l, rfl⟩ := List.head?_eq_some_iff.mp h
    exact ⟨l, rfl⟩

/-- Neighbours in a concatenation are neighbours in a part, or the ends that meet. -/
lemma adjacent_append : (l₁ ++ l₂).Adjacent x y ↔
    l₁.Adjacent x y ∨ l₂.Adjacent x y ∨ l₁.getLast? = some x ∧ l₂.head? = some y := by
  induction l₁ with
  | nil => simp
  | cons a l₁ ih =>
    rw [cons_append, adjacent_cons, adjacent_cons, ih]
    cases l₁ with
    | nil =>
      simp only [nil_append, head?_nil, reduceCtorEq, and_false, not_adjacent_nil, false_or,
        getLast?_nil, false_and, or_false, getLast?_singleton, Option.some.injEq]
      rw [or_comm, eq_comm (a := a)]
    | cons b l₁ =>
      rw [cons_append, head?_cons, head?_cons, getLast?_cons_cons, or_assoc]

/-- What neighbours share, all elements share. -/
lemma eq_of_adjacent {β : Type*} {f : α → β} (h : ∀ x y, c.Adjacent x y → f x = f y) (hx : x ∈ c)
    (hy : y ∈ c) : f x = f y := by
  have hfirst (a : α) (ha : a ∈ c) : c.head?.map f = some (f a) := by
    clear hx hy
    induction c with
    | nil => cases ha
    | cons b c ih =>
      rcases List.mem_cons.mp ha with rfl | ha
      · rfl
      · have hc := ih (fun x y hxy => h x y (adjacent_cons.mpr (Or.inr hxy))) ha
        obtain ⟨z, hz, hza⟩ := Option.map_eq_some_iff.mp hc
        rw [head?_cons, Option.map_some, h b z (adjacent_cons.mpr (Or.inl ⟨rfl, hz⟩)), hza]
  exact Option.some.inj ((hfirst x hx).symm.trans (hfirst y hy))

end List
