import ChainReplication.Library.ListOrder

/-!
# What is left of a list

Some elements of a list without duplicates are dead, and a sublist misses dead ones only. Its first element
has only dead ones before it, its last one only dead ones behind it, and between its neighbours nothing lives.
-/

namespace List

variable {α : Type*} {dead dead' : α → Prop} {c l l₁ l₂ : List α} {x y z : α}

lemma erase_split [DecidableEq α] (h : (l₁ ++ x :: l₂).Nodup) : (l₁ ++ x :: l₂).erase x = l₁ ++ l₂ := by
  rw [nodup_append] at h
  rw [erase_append_right _ fun hmem => h.2.2 x hmem x mem_cons_self rfl, erase_cons_head]

/-- Nothing stands before the first element. -/
lemma eq_nil_of_head? (hnodup : (l₁ ++ x :: l₂).Nodup) (hx : (l₁ ++ x :: l₂).head? = some x) : l₁ = [] := by
  cases l₁ with
  | nil => rfl
  | cons a l₁ =>
    obtain rfl := Option.some.inj hx
    exact absurd (mem_append_right _ mem_cons_self) (nodup_cons.mp hnodup).1

/-- Nothing stands behind the last element. -/
lemma eq_nil_of_getLast? (hnodup : (l₁ ++ x :: l₂).Nodup) (hx : (l₁ ++ x :: l₂).getLast? = some x) :
    l₂ = [] := by
  cases l₂ with
  | nil => rfl
  | cons a l₂ =>
    rw [getLast?_append_cons, getLast?_cons_cons] at hx
    rw [nodup_append] at hnodup
    exact absurd (mem_of_getLast? hx) (nodup_cons.mp hnodup.2.1).1

/-- Everything before `x` is dead. -/
def Front (dead : α → Prop) (c : List α) (x : α) : Prop := ∀ z, c.Precedes z x → dead z

/-- Everything behind `x` is dead. -/
def Rear (dead : α → Prop) (c : List α) (x : α) : Prop := ∀ z, c.Precedes x z → dead z

/-- `y` stands behind `x`, and everything between them is dead. -/
def Linked (dead : α → Prop) (c : List α) (x y : α) : Prop :=
  c.Precedes x y ∧ ∀ z, c.Precedes x z → c.Precedes z y → dead z

lemma Front.mono (h : Front dead c x) (hdead : ∀ z, dead z → dead' z) : Front dead' c x :=
  fun z hz => hdead z (h z hz)

lemma Rear.mono (h : Rear dead c x) (hdead : ∀ z, dead z → dead' z) : Rear dead' c x :=
  fun z hz => hdead z (h z hz)

lemma Linked.mono (h : Linked dead c x y) (hdead : ∀ z, dead z → dead' z) : Linked dead' c x y :=
  ⟨h.1, fun z hxz hzy => hdead z (h.2 z hxz hzy)⟩

/-- Who lives and stands before the end of a link stands at its start or before it. -/
lemma Linked.before (h : Linked dead c x y) (hzy : c.Precedes z y) (hz : ¬ dead z) :
    z = x ∨ c.Precedes z x := by
  by_contra hnot
  obtain ⟨hne, hzx⟩ := not_or.mp hnot
  rcases precedes_total hzy.left_mem h.1.left_mem hne with hzx' | hxz
  · exact hzx hzx'
  · exact hz (h.2 z hxz hzy)

/-- Who lives and stands behind the start of a link stands at its end or behind it. -/
lemma Linked.behind (h : Linked dead c x y) (hxz : c.Precedes x z) (hz : ¬ dead z) :
    z = y ∨ c.Precedes y z := by
  by_contra hnot
  obtain ⟨hne, hyz⟩ := not_or.mp hnot
  rcases precedes_total hxz.right_mem h.1.right_mem hne with hzy | hyz'
  · exact hz (h.2 z hxz hzy)
  · exact hyz hyz'

/-- `l` misses only dead elements of `c`. -/
structure Remains (dead : α → Prop) (c l : List α) : Prop where
  sub : l <+ c
  dead : ∀ z ∈ c, z ∉ l → dead z

namespace Remains

lemma refl : Remains dead c c := ⟨List.Sublist.refl c, fun _ hz hnot => absurd hz hnot⟩

lemma mono (h : Remains dead c l) (hdead : ∀ z, dead z → dead' z) : Remains dead' c l :=
  ⟨h.sub, fun z hz hnot => hdead z (h.dead z hz hnot)⟩

lemma erase [DecidableEq α] (h : Remains dead c l) (hx : dead x) : Remains dead c (l.erase x) := by
  refine ⟨erase_sublist.trans h.sub, fun z hz hnot => ?_⟩
  by_cases hzx : z = x
  · exact hzx ▸ hx
  · exact h.dead z hz fun hmem => hnot ((mem_erase_of_ne hzx).mpr hmem)

lemma mem (h : Remains dead c l) (hz : z ∈ c) (hlive : ¬ dead z) : z ∈ l := by
  by_contra hnot
  exact hlive (h.dead z hz hnot)

section

variable (h : Remains dead c l) (hc : c.Nodup)
include h hc

lemma front (hx : l.head? = some x) : Front dead c x := by
  intro z hz
  by_contra hlive
  have hmem := h.mem hz.left_mem hlive
  have hlz := hz.restrict hc h.sub hmem (mem_of_mem_head? hx)
  exact not_precedes_head (hc.sublist h.sub) hx hlz

lemma rear (hx : l.getLast? = some x) : Rear dead c x := by
  intro z hz
  by_contra hlive
  have hmem := h.mem hz.right_mem hlive
  have hlz := hz.restrict hc h.sub (mem_of_getLast? hx) hmem
  exact not_precedes_getLast (hc.sublist h.sub) hx hlz

lemma linked (hxy : l.Adjacent x y) : Linked dead c x y := by
  refine ⟨hxy.precedes.of_sublist h.sub, fun z hxz hzy => ?_⟩
  by_contra hlive
  have hmem := h.mem hxz.right_mem hlive
  have hxz := hxz.restrict hc h.sub hxy.precedes.left_mem hmem
  have hzy := hzy.restrict hc h.sub hmem hxy.precedes.right_mem
  exact hxy.not_between (hc.sublist h.sub) hxz hzy

end

end Remains

end List
