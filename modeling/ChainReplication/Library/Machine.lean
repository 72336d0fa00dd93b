import Mathlib.Logic.Relation

/-!
# Labelled machines

A machine is a partial step function on states and labels. Runs are taken under a guard on the
state and the label of every step, which is where assumptions about the environment live.
-/

namespace Machine

variable {S L : Type*}

/-- The one-step relation of `step` under the guard `ok`. -/
def Step (step : S → L → Option S) (ok : S → L → Prop) (s t : S) : Prop :=
  ∃ l, ok s l ∧ step s l = some t

/-- `t` is reached from `s` by steps that satisfy `ok`. -/
def Reach (step : S → L → Option S) (ok : S → L → Prop) : S → S → Prop :=
  Relation.ReflTransGen (Step step ok)

/-- Execute a list of labels; `none` when a step is not enabled or violates the guard. -/
def run (step : S → L → Option S) (ok : S → L → Prop) [∀ s l, Decidable (ok s l)] :
    S → List L → Option S
  | s, [] => some s
  | s, l :: ls => if ok s l then (step s l).bind fun t => run step ok t ls else none

variable {step : S → L → Option S} {ok ok' : S → L → Prop} {s t u : S}

lemma Reach.refl : Reach step ok s s := Relation.ReflTransGen.refl

lemma Reach.trans (h₁ : Reach step ok s t) (h₂ : Reach step ok t u) : Reach step ok s u :=
  Relation.ReflTransGen.trans h₁ h₂

lemma Reach.mono (h : Reach step ok s t) (hok : ∀ s l, ok s l → ok' s l) : Reach step ok' s t :=
  Relation.ReflTransGen.mono (fun _ _ ⟨l, hl, hs⟩ => ⟨l, hok _ l hl, hs⟩) _ _ h

/-- Machines whose steps are the same under the guard have the same runs. -/
lemma Reach.congr {step' : S → L → Option S} (h : Reach step ok s t)
    (heq : ∀ s l, ok s l → step s l = step' s l) : Reach step' ok s t :=
  Relation.ReflTransGen.mono (fun s _ ⟨l, hl, hs⟩ => ⟨l, hl, heq s l hl ▸ hs⟩) _ _ h

/-- A property that holds at the start and is kept by every step holds at the end. -/
theorem Reach.invariant {I : S → Prop} (h : Reach step ok s t) (init : I s)
    (keep : ∀ s l t, I s → ok s l → step s l = some t → I t) : I t := by
  induction h with
  | refl => exact init
  | tail _ hstep ih =>
    obtain ⟨l, hl, hs⟩ := hstep
    exact keep _ l _ ih hl hs

/-- The invariant rule when another property `J` of the reached states is already known. -/
theorem Reach.invariant_of {I J : S → Prop} (h : Reach step ok s t)
    (known : ∀ u, Reach step ok s u → J u) (init : I s)
    (keep : ∀ s l t, I s → J s → J t → ok s l → step s l = some t → I t) : I t := by
  induction h with
  | refl => exact init
  | tail hr hstep ih =>
    have hJ := known _ hr
    have hJ' := known _ (hr.tail hstep)
    obtain ⟨l, hl, hs⟩ := hstep
    exact keep _ l _ ih hJ hJ' hl hs

/-- A machine that another one follows step by step reaches what the other one reaches. -/
theorem Reach.map {S' : Type*} {step' : S' → L → Option S'} {ok' : S' → L → Prop} (f : S' → S)
    (hok : ∀ s l, ok' s l → ok (f s) l)
    (hstep : ∀ s l t, step' s l = some t → step (f s) l = some (f t)) {s' t' : S'}
    (h : Reach step' ok' s' t') : Reach step ok (f s') (f t') := by
  induction h with
  | refl => exact Reach.refl
  | tail _ h ih =>
    obtain ⟨l, hl, hs⟩ := h
    exact Relation.ReflTransGen.tail ih ⟨l, hok _ l hl, hstep _ l _ hs⟩

/-- A reflexive and transitive relation that every step respects relates the ends of a run. -/
theorem Reach.rel {R : S → S → Prop} (h : Reach step ok s t) (hrefl : ∀ s, R s s)
    (htrans : ∀ s t u, R s t → R t u → R s u)
    (hstep : ∀ s l t, ok s l → step s l = some t → R s t) : R s t := by
  induction h with
  | refl => exact hrefl s
  | tail _ h ih =>
    obtain ⟨l, hl, hs⟩ := h
    exact htrans _ _ _ ih (hstep _ l _ hl hs)

/-! ### Executions -/

variable [∀ s l, Decidable (ok s l)]

lemma run_cons {l : L} {ls : List L} :
    run step ok s (l :: ls) = some u ↔ ok s l ∧ ∃ t, step s l = some t ∧ run step ok t ls = some u := by
  simp only [run, Option.ite_none_right_eq_some, Option.bind_eq_some_iff]

/-- An execution that goes through is a run. -/
theorem reach_of_run {ls : List L} (h : run step ok s ls = some t) : Reach step ok s t := by
  induction ls generalizing s with
  | nil =>
    obtain rfl : s = t := by simpa [run] using h
    exact Reach.refl
  | cons l ls ih =>
    obtain ⟨hl, u, hu, h⟩ := run_cons.mp h
    exact Relation.ReflTransGen.head ⟨l, hl, hu⟩ (ih h)

/-- The state after an execution; the state before it if the execution does not go through. -/
def after (step : S → L → Option S) (ok : S → L → Prop) [∀ s l, Decidable (ok s l)] (s : S)
    (ls : List L) : S :=
  (run step ok s ls).getD s

lemma reach_after {ls : List L} (h : (run step ok s ls).isSome = true) :
    Reach step ok s (after step ok s ls) := by
  obtain ⟨t, ht⟩ := Option.isSome_iff_exists.mp h
  rw [after, ht]
  exact reach_of_run ht

/-- Executing one list of labels after another. -/
lemma run_append {ls ls' : List L} : run step ok s (ls ++ ls') = some u ↔
    ∃ t, run step ok s ls = some t ∧ run step ok t ls' = some u := by
  induction ls generalizing s with
  | nil => simp [run]
  | cons l ls ih =>
    rw [List.cons_append, run_cons]
    simp only [run_cons, ih]
    constructor
    · rintro ⟨hl, v, hv, t, ht, hu⟩
      exact ⟨t, ⟨hl, v, hv, ht⟩, hu⟩
    · rintro ⟨t, ⟨hl, v, hv, ht⟩, hu⟩
      exact ⟨hl, v, hv, t, ht, hu⟩

/-- A machine that another one follows step by step executes what the other one executes. -/
lemma run_map {S' : Type*} {step' : S' → L → Option S'} {ok' : S' → L → Prop}
    [∀ s l, Decidable (ok' s l)] (f : S' → S) (hok : ∀ s l, ok' s l → ok (f s) l)
    (hstep : ∀ s l t, step' s l = some t → step (f s) l = some (f t)) {s' t' : S'} {ls : List L}
    (h : run step' ok' s' ls = some t') : run step ok (f s') ls = some (f t') := by
  induction ls generalizing s' with
  | nil =>
    obtain rfl : s' = t' := by simpa [run] using h
    rfl
  | cons l ls ih =>
    obtain ⟨hl, u, hu, h⟩ := run_cons.mp h
    exact run_cons.mpr ⟨hok _ l hl, f u, hstep _ l _ hu, ih h⟩

end Machine
