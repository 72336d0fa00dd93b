import Mathlib.Algebra.Order.Ring.Rat
import Mathlib.Data.Rat.Cast.Order
import Mathlib.Algebra.BigOperators.Group.List.Basic
import Mathlib.Order.Interval.Finset.Nat

/-!
# Random requests of the DistAlgo implementation

`random_req_type` in `chain.da`: the running sums of the weights cut an interval into one piece for each
type, and a random point of the interval picks the type of its piece.
-/

namespace ChainReplication.DistAlgo

variable {α : Type*} {weight : α → ℕ} {items : List α} {mysum : ℕ} {i : α}

/-- The loop over the items. -/
def breakpoints (weight : α → ℕ) : ℕ → List α → List ℕ
  | _, [] => []
  | mysum, i :: items => (mysum + weight i) :: breakpoints weight (mysum + weight i) items

/-- `bisect.bisect`: the number of sorted entries that do not exceed the score. -/
def bisect (breakpoints : List ℕ) (score : ℚ) : ℕ :=
  (breakpoints.takeWhile fun b : ℕ => (b : ℚ) ≤ score).length

/-- The item whose piece has the score in it. -/
def pick (weight : α → ℕ) (mysum : ℕ) (items : List α) (score : ℚ) : Option α :=
  items[bisect (breakpoints weight mysum items) score]?

/-- `random_req_type`, with the value of `random.random()`. -/
def randomReqType (weight : α → ℕ) (items : List α) (random : ℚ) : Option α :=
  pick weight 0 items (random * (breakpoints weight 0 items).getLastD 0)

@[simp] lemma pick_nil (score : ℚ) : pick weight mysum [] score = none := rfl

/-- The first item takes what lies below its breakpoint. -/
lemma pick_cons (score : ℚ) : pick weight mysum (i :: items) score =
    if score < (mysum + weight i : ℕ) then some i
    else pick weight (mysum + weight i) items score := by
  by_cases hlt : score < (mysum + weight i : ℕ)
  · have hstop : ¬ ((mysum + weight i : ℕ) : ℚ) ≤ score := not_le.mpr hlt
    rw [if_pos hlt, pick, breakpoints, bisect, List.takeWhile_cons_of_neg (by simpa using hstop)]
    rfl
  · have hgo : ((mysum + weight i : ℕ) : ℚ) ≤ score := not_lt.mp hlt
    rw [if_neg hlt, pick, pick, breakpoints, bisect, List.takeWhile_cons_of_pos (by simpa using hgo),
      List.length_cons, List.getElem?_cons_succ]
    rfl

lemma getLastD_breakpoints : (breakpoints weight mysum items).getLastD mysum =
    mysum + (items.map weight).sum := by
  induction items generalizing mysum with
  | nil => simp [breakpoints]
  | cons i items ih =>
    rw [breakpoints, List.getLastD_cons, ih, List.map_cons, List.sum_cons]
    omega

/-- Of the whole scores, each item is picked by as many as its weight says. -/
lemma card_pick [DecidableEq α] (hnodup : items.Nodup) (hi : i ∈ items) :
    ((Finset.Ico mysum (mysum + (items.map weight).sum)).filter
      fun t : ℕ => pick weight mysum items t = some i).card = weight i := by
  induction items generalizing mysum with
  | nil => simp at hi
  | cons j items ih =>
    obtain ⟨hj, hnodup⟩ := List.nodup_cons.mp hnodup
    have hpick (t : ℕ) : pick weight mysum (j :: items) t = if t < mysum + weight j then some j
        else pick weight (mysum + weight j) items t := by
      rw [pick_cons]
      simp only [Nat.cast_lt]
    have hnot {t : ℕ} : pick weight (mysum + weight j) items t ≠ some j := by
      intro h
      exact hj (List.mem_of_getElem? h)
    rcases List.mem_cons.mp hi with rfl | hi
    · have hfilter : ((Finset.Ico mysum (mysum + ((i :: items).map weight).sum)).filter
          fun t : ℕ => pick weight mysum (i :: items) t = some i) =
            Finset.Ico mysum (mysum + weight i) := by
        ext t
        rw [Finset.mem_filter, Finset.mem_Ico, Finset.mem_Ico, hpick, List.map_cons, List.sum_cons]
        split_ifs with hlt
        · simp only [and_true]
          omega
        · simp only [hnot, and_false, hlt]
      rw [hfilter, Nat.card_Ico]
      omega
    · have hne : j ≠ i := by
        rintro rfl
        exact hj hi
      have hfilter : ((Finset.Ico mysum (mysum + ((j :: items).map weight).sum)).filter
          fun t : ℕ => pick weight mysum (j :: items) t = some i) =
            (Finset.Ico (mysum + weight j) (mysum + weight j + (items.map weight).sum)).filter
              fun t : ℕ => pick weight (mysum + weight j) items t = some i := by
        ext t
        rw [Finset.mem_filter, Finset.mem_filter, Finset.mem_Ico, Finset.mem_Ico, hpick, List.map_cons,
          List.sum_cons]
        split_ifs with hlt
        · simp only [Option.some.injEq, hne, and_false, false_iff, not_and]
          omega
        · refine and_congr_left' ?_
          omega
      rw [hfilter, ih hnodup hi]

/-- A draw out of the sum of the weights. -/
lemma randomReqType_draw {total t : ℕ} (htotal : (items.map weight).sum = total) (hpos : 0 < total) :
    randomReqType weight items (t / total) = pick weight 0 items t := by
  have hlast : (breakpoints weight 0 items).getLastD 0 = 0 + (items.map weight).sum :=
    getLastD_breakpoints
  have hne : (total : ℚ) ≠ 0 := by
    rw [Nat.cast_ne_zero]
    omega
  rw [randomReqType, hlast, zero_add, htotal, div_mul_cancel₀ _ hne]

/-- `random_req_type` respects the weights. -/
theorem card_randomReqType [DecidableEq α] (hnodup : items.Nodup) (hi : i ∈ items) :
    ((Finset.range (items.map weight).sum).filter fun t : ℕ =>
      randomReqType weight items (t / (items.map weight).sum) = some i).card = weight i := by
  have hcard : ((Finset.Ico 0 (0 + (items.map weight).sum)).filter
      fun t : ℕ => pick weight 0 items t = some i).card = weight i := card_pick hnodup hi
  rw [zero_add, ← Finset.range_eq_Ico] at hcard
  rw [← hcard]
  congr 1
  refine Finset.filter_congr fun t ht => ?_
  have hpos := (Nat.zero_le t).trans_lt (Finset.mem_range.mp ht)
  have hdraw := randomReqType_draw (t := t) rfl hpos
  rw [hdraw]

end ChainReplication.DistAlgo
