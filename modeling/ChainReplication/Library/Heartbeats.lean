import Mathlib.Algebra.Order.Monoid.Defs
import Mathlib.Algebra.Order.Monoid.Unbundled.Pow
import Mathlib.Data.Set.Insert

/-!
# Heartbeats and deadlines

An observer hears of a process by messages that need at most `delay`, and the process sends one at least
every `period`. `Heard` relates what has been sent, heard and is on its way; it bounds how long the observer
can hear nothing. `Queued` is about entries that are dealt with one at a time, the first one that is due at
each round.
-/

namespace Heartbeats

variable {T : Type*} [AddCommMonoid T] [LinearOrder T] {period delay now sent heard deadline cycle last : T}
  {flight flight' : Set T} {p i : ℕ}

/-- The last heartbeat, of the time `sent`, has been heard, or one that is on its way was sent at most
`period` after the process was `heard` of. -/
def Heard (period : T) (flight : Set T) (sent heard : T) : Prop :=
  sent ≤ heard ∨ ∃ e ∈ flight, e ≤ heard + period

namespace Heard

lemma mono (h : Heard period flight sent heard) (hsub : flight ⊆ flight') :
    Heard period flight' sent heard :=
  h.imp id fun ⟨e, he, hle⟩ => ⟨e, hsub he, hle⟩

/-- The observer hears any heartbeat. -/
lemma receive (hsent : sent ≤ now) : Heard period flight sent now := Or.inl hsent

variable [IsOrderedAddMonoid T]

/-- The process sends a heartbeat in time. -/
lemma send (h : Heard period flight sent heard) (hnow : now ≤ sent + period) (hmem : now ∈ flight')
    (hsub : flight ⊆ flight') : Heard period flight' now heard := by
  rcases h with hle | ⟨e, he, hle⟩
  · exact Or.inr ⟨now, hmem, hnow.trans (add_le_add_left hle period)⟩
  · exact Or.inr ⟨e, hsub he, hle⟩

/-- The silence is no longer than `period + delay`. -/
theorem now_le (h : Heard period flight sent heard) (hsent : now ≤ sent + period)
    (hflight : ∀ e ∈ flight, now ≤ e + delay) (hdelay : 0 ≤ delay) :
    now ≤ heard + (period + delay) := by
  rw [← add_assoc]
  rcases h with hle | ⟨e, he, hle⟩
  · exact (hsent.trans (add_le_add_left hle period)).trans (le_add_of_nonneg_right hdelay)
  · exact (hflight e he).trans (add_le_add_left hle delay)

end Heard

/-- An entry has moved from the place `p` to the place `i`, one place in each of the rounds since its
deadline, of which the last one was at the time `last`. -/
def Queued (deadline cycle : T) (p i : ℕ) (last : T) : Prop :=
  i ≤ p ∧ last ≤ deadline + (p - i) • cycle

namespace Queued

variable [IsOrderedAddMonoid T]

/-- Rounds before the deadline. -/
lemma early (hp : i ≤ p) (hnow : now ≤ deadline) (hcycle : 0 ≤ cycle) :
    Queued deadline cycle p i now :=
  ⟨hp, hnow.trans (le_add_of_nonneg_right (nsmul_nonneg hcycle _))⟩

/-- A round that deals with an earlier entry. -/
lemma advance (h : Queued deadline cycle p (i + 1) last) (hnow : now ≤ last + cycle) :
    Queued deadline cycle p i now := by
  obtain ⟨hp, hlast⟩ := h
  refine ⟨Nat.le_of_succ_le hp, (hnow.trans (add_le_add_left hlast cycle)).trans_eq ?_⟩
  rw [add_assoc, ← succ_nsmul, ← Nat.sub_sub, Nat.sub_add_cancel (Nat.le_sub_of_add_le' hp)]

/-- Each entry is dealt with soon after its deadline. -/
theorem now_le (h : Queued deadline cycle p i last) (hnow : now ≤ last + cycle) (hcycle : 0 ≤ cycle) :
    now ≤ deadline + (p + 1) • cycle := by
  obtain ⟨hp, hlast⟩ := h
  refine (hnow.trans (add_le_add_left hlast cycle)).trans ?_
  rw [add_assoc, ← succ_nsmul]
  exact add_le_add_right (nsmul_le_nsmul_left hcycle (by omega)) deadline

end Queued

end Heartbeats
