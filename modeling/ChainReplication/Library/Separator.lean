import Mathlib.Data.List.Basic

/-!
# Keys joined by a separator

Two strings with a separator between them can be told apart when the second one is free of it.
-/

/-- Two lists that agree are split alike at the last occurrence of an element. -/
lemma List.append_cons_inj_of_notMem_right {α : Type*} {x x' z z' : List α} {a : α} (hz : a ∉ z)
    (hz' : a ∉ z') : x ++ a :: z = x' ++ a :: z' ↔ x = x' ∧ z = z' := by
  constructor
  · intro h
    rcases List.append_eq_append_iff.mp h with ⟨c, hx, hc⟩ | ⟨c, hx, hc⟩
    · cases c with
      | nil => simp_all
      | cons d c =>
        obtain ⟨-, rfl⟩ := List.cons.inj hc
        simp at hz
    · cases c with
      | nil => simp_all
      | cons d c =>
        obtain ⟨-, rfl⟩ := List.cons.inj hc
        simp at hz'
  · rintro ⟨rfl, rfl⟩
    rfl

/-- The parts of a joined key, when the last part is free of the separator. -/
lemma String.append_sep_inj {sep : String} {c : Char} (hsep : sep.toList = [c])
    {r r' a a' : String} (ha : c ∉ a.toList) (ha' : c ∉ a'.toList) :
    r ++ sep ++ a = r' ++ sep ++ a' ↔ r = r' ∧ a = a' := by
  constructor
  · intro h
    have hlist := congrArg String.toList h
    simp only [String.toList_append, hsep, List.append_assoc, List.singleton_append] at hlist
    obtain ⟨hr, ha⟩ := (List.append_cons_inj_of_notMem_right ha ha').mp hlist
    exact ⟨String.toList_inj.mp hr, String.toList_inj.mp ha⟩
  · rintro ⟨rfl, rfl⟩
    rfl

/-- The parts of a joined key that has no further separator in it. -/
lemma String.append_sep_inj_of_notMem {sep : String} {c : Char} (hsep : sep.toList = [c])
    {r r' a a' : String} (hr : c ∉ r.toList) (ha : c ∉ a.toList) :
    r ++ sep ++ a = r' ++ sep ++ a' ↔ r = r' ∧ a = a' := by
  constructor
  · intro h
    have hcount := congrArg (fun s => s.toList.count c) h
    simp only [String.toList_append, hsep, List.count_append, List.count_singleton_self,
      List.count_eq_zero.mpr hr, List.count_eq_zero.mpr ha] at hcount
    have ha' : c ∉ a'.toList := by
      rw [← List.count_eq_zero]
      omega
    exact (String.append_sep_inj hsep ha ha').mp h
  · rintro ⟨rfl, rfl⟩
    rfl

/-- A key with a further separator in it can be split in another way. -/
lemma String.exists_split_ne {sep : String} {c : Char} (hsep : sep.toList = [c]) {r a : String}
    (h : c ∈ r.toList ∨ c ∈ a.toList) :
    ∃ r' a', r' ++ sep ++ a' = r ++ sep ++ a ∧ ¬ (r' = r ∧ a' = a) := by
  rcases h with h | h
  · obtain ⟨x, y, hr⟩ := List.append_of_mem h
    refine ⟨.ofList x, .ofList y ++ sep ++ a, String.toList_inj.mp ?_, ?_⟩
    · simp [hsep, hr]
    · rintro ⟨hx, -⟩
      have hlength := congrArg (fun s => s.toList.length) hx
      simp [hr] at hlength
  · obtain ⟨x, y, ha⟩ := List.append_of_mem h
    refine ⟨r ++ sep ++ .ofList x, .ofList y, String.toList_inj.mp ?_, ?_⟩
    · simp [hsep, ha]
    · rintro ⟨-, hy⟩
      have hlength := congrArg (fun s => s.toList.length) hy
      simp [ha] at hlength
      omega

/-- A search for a key and a search for what the key stands for have one result exactly when nothing else
with the key comes before. -/
lemma List.find?_eq_find?_iff {α : Type*} {p q : α → Bool} (hpq : ∀ x, q x → p x) {l : List α} :
    l.find? p = l.find? q ↔
      ∀ l₁ x l₂, l = l₁ ++ x :: l₂ → p x → q x ∨ ∃ y ∈ l₁, q y := by
  induction l with
  | nil => simp
  | cons a l ih =>
    by_cases hq : q a
    · rw [find?_cons_of_pos (hpq a hq), find?_cons_of_pos hq]
      refine iff_of_true rfl fun l₁ x l₂ hl hp => ?_
      rcases cons_eq_append_iff.mp hl with ⟨rfl, hx⟩ | ⟨l₁, rfl, -⟩
      · obtain ⟨rfl, -⟩ := cons.inj hx
        exact Or.inl hq
      · exact Or.inr ⟨a, mem_cons_self, hq⟩
    · by_cases hp : p a
      · rw [find?_cons_of_pos hp, find?_cons_of_neg hq]
        refine iff_of_false (fun h => hq (find?_some h.symm)) fun h => ?_
        obtain hq' | ⟨y, hy, -⟩ := h [] a l rfl hp
        · exact hq hq'
        · cases hy
      · rw [find?_cons_of_neg hp, find?_cons_of_neg hq, ih]
        constructor
        · intro h l₁ x l₂ hl hpx
          rcases cons_eq_append_iff.mp hl with ⟨rfl, hx⟩ | ⟨l₁, rfl, htail⟩
          · obtain ⟨rfl, -⟩ := cons.inj hx
            exact absurd hpx hp
          · refine (h l₁ x l₂ htail hpx).imp_right ?_
            rintro ⟨y, hy, hqy⟩
            exact ⟨y, mem_cons_of_mem _ hy, hqy⟩
        · intro h l₁ x l₂ hl hpx
          refine (h (a :: l₁) x l₂ (by rw [hl, cons_append]) hpx).imp_right ?_
          rintro ⟨y, hy, hqy⟩
          rcases mem_cons.mp hy with rfl | hy
          · exact absurd hqy hq
          · exact ⟨y, hy, hqy⟩
