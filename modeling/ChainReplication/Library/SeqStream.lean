import Mathlib.Data.List.Basic
import Mathlib.Data.List.Range
import Mathlib.Order.MinMax

/-!
# Streams of sequence numbers without gaps

A receiver that has seen every number up to `m` reads a stream of numbers. The stream is free of
gaps when no number exceeds by more than one what has been seen by then; numbers may repeat.
-/

namespace SeqStream

/-- No number of the stream skips one, for a receiver that has seen everything up to `m`. -/
def GapFree : ℕ → List ℕ → Prop
  | _, [] => True
  | m, n :: l => n ≤ m + 1 ∧ GapFree (max m n) l

/-- The largest number seen after the stream. -/
def reach : ℕ → List ℕ → ℕ
  | m, [] => m
  | m, n :: l => reach (max m n) l

@[simp] lemma gapFree_nil (m : ℕ) : GapFree m [] := trivial

@[simp] lemma gapFree_cons (m n : ℕ) (l : List ℕ) :
    GapFree m (n :: l) ↔ n ≤ m + 1 ∧ GapFree (max m n) l := Iff.rfl

@[simp] lemma reach_nil (m : ℕ) : reach m [] = m := rfl

@[simp] lemma reach_cons (m n : ℕ) (l : List ℕ) : reach m (n :: l) = reach (max m n) l := rfl

variable {m m' n k : ℕ} {l l' : List ℕ}

lemma reach_mono (h : m ≤ m') : reach m l ≤ reach m' l := by
  induction l generalizing m m' with
  | nil => exact h
  | cons n l ih => exact ih (by omega)

lemma le_reach : m ≤ reach m l := by
  induction l generalizing m with
  | nil => exact le_rfl
  | cons n l ih => exact (le_max_left m n).trans ih

/-- When no number exceeds `n`, the stream reaches `n` exactly by bringing it. -/
lemma reach_eq_iff (hm : m ≤ n) (hl : ∀ k ∈ l, k ≤ n) : reach m l = n ↔ m = n ∨ n ∈ l := by
  induction l generalizing m with
  | nil => simp
  | cons k l ih =>
    have hk := hl k List.mem_cons_self
    rw [reach_cons, ih (max_le hm hk) fun j hj => hl j (List.mem_cons_of_mem _ hj), List.mem_cons]
    constructor
    · rintro (hmax | hmem)
      · rcases max_choice m k with h | h
        · exact Or.inl (h.symm.trans hmax)
        · exact Or.inr (Or.inl (hmax.symm.trans h))
      · exact Or.inr (Or.inr hmem)
    · rintro (rfl | rfl | hmem)
      · exact Or.inl (max_eq_left hk)
      · exact Or.inl (max_eq_right hm)
      · exact Or.inr hmem

/-- A receiver that has seen more finds no new gap. -/
lemma GapFree.mono (h : GapFree m l) (hm : m ≤ m') : GapFree m' l := by
  induction l generalizing m m' with
  | nil => trivial
  | cons n l ih => exact ⟨h.1.trans (by omega), ih h.2 (by omega)⟩

@[simp] lemma gapFree_append : GapFree m (l ++ l') ↔ GapFree m l ∧ GapFree (reach m l) l' := by
  induction l generalizing m with
  | nil => simp
  | cons n l ih => simp [ih, and_assoc]

@[simp] lemma reach_append : reach m (l ++ l') = reach (reach m l) l' := by
  induction l generalizing m with
  | nil => rfl
  | cons n l ih => simp [ih]

/-- Dropping numbers that the receiver has seen leaves no gap. -/
lemma GapFree.filter (h : GapFree m l) (hn : n ≤ m) : GapFree m (l.filter (n < ·)) := by
  induction l generalizing m with
  | nil => trivial
  | cons x l ih =>
    by_cases hx : n < x
    · rw [List.filter_cons_of_pos (by simpa using hx)]
      exact ⟨h.1, ih h.2 (by omega)⟩
    · rw [List.filter_cons_of_neg (by simpa using hx)]
      have hmax : max m x = m := by omega
      have h := ih h.2 (by omega)
      rwa [hmax] at h

/-- Dropping numbers that the receiver has seen does not change how far it gets. -/
lemma reach_filter (hn : n ≤ m) : reach m (l.filter (n < ·)) = reach m l := by
  induction l generalizing m with
  | nil => rfl
  | cons x l ih =>
    by_cases hx : n < x
    · rw [List.filter_cons_of_pos (by simpa using hx), reach_cons, reach_cons, ih (by omega)]
    · rw [List.filter_cons_of_neg (by simpa using hx), reach_cons, ih hn,
        show max m x = m by omega]

/-- Consecutive numbers that start no later than the next one expected. -/
lemma gapFree_range' (h : k ≤ m + 1) : GapFree m (List.range' k n) := by
  induction n generalizing m k with
  | zero => trivial
  | succ n ih => exact ⟨h, ih (by omega)⟩

/-- The receiver gets at least as far as every number of the stream. -/
lemma le_reach_of_mem (h : n ∈ l) : n ≤ reach m l := by
  induction l generalizing m with
  | nil => simp at h
  | cons x l ih =>
    rcases List.mem_cons.mp h with rfl | h
    · exact (le_max_right m n).trans le_reach
    · exact ih h

/-- A receiver that has got to `k` gets to the end of the numbers behind it, also without those that it has seen. -/
lemma le_reach_range' {len : ℕ} (hk : k ≤ m) (hn : n ≤ m) :
    k + len ≤ reach m ((List.range' (k + 1) len).filter (n < ·)) := by
  rw [reach_filter hn]
  cases len with
  | zero => exact hk.trans le_reach
  | succ len =>
    apply le_reach_of_mem
    rw [List.mem_range'_1]
    omega

/-- A receiver that meets no gap has been sent every number that it has got to. -/
lemma GapFree.mem_of_le_reach (h : GapFree m l) (hm : m < n) (hn : n ≤ reach m l) : n ∈ l := by
  induction l generalizing m with
  | nil => exact absurd hn (not_le.mpr hm)
  | cons x l ih =>
    rw [List.mem_cons]
    by_cases hx : n = x
    · exact Or.inl hx
    · have hstep := h.1
      exact Or.inr (ih h.2 (by omega) hn)

/-- A stream of zeros has no gap. -/
lemma gapFree_of_zero (h : ∀ n ∈ l, n = 0) : GapFree m l := by
  induction l generalizing m with
  | nil => trivial
  | cons x l ih =>
    have hx : x = 0 := h x List.mem_cons_self
    exact ⟨by omega, ih fun n hn => h n (List.mem_cons_of_mem _ hn)⟩

lemma GapFree.of_prefix (h : GapFree m l') (hl : l <+: l') : GapFree m l := by
  obtain ⟨k, rfl⟩ := hl
  exact (gapFree_append.mp h).1

end SeqStream
