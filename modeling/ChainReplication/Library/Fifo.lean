import Mathlib.Data.List.Basic
import Mathlib.Logic.Function.Basic

/-!
# FIFO links

A network with one queue for each ordered pair of nodes.
-/

/-- The messages in flight from a sender to a receiver, oldest first. -/
abbrev Links (ι μ : Type*) := ι → ι → List μ

namespace Links

variable {ι μ : Type*} [DecidableEq ι]

/-- Append the addressed messages `ps` of the sender `src`, in their order. -/
def send (L : Links ι μ) (src : ι) (ps : List (ι × μ)) : Links ι μ := fun x y =>
  if x = src then L x y ++ ps.filterMap fun p => if p.1 = y then some p.2 else none else L x y

/-- Drop the oldest message from `src` to `dst`. -/
def recv (L : Links ι μ) (src dst : ι) : Links ι μ := fun x y =>
  if x = src ∧ y = dst then (L x y).tail else L x y

variable (L : Links ι μ) (src dst : ι) (ps : List (ι × μ))

lemma send_self (y : ι) : L.send src ps src y =
    L src y ++ ps.filterMap fun p => if p.1 = y then some p.2 else none := by
  simp [send]

lemma send_of_ne {x : ι} (h : x ≠ src) (y : ι) : L.send src ps x y = L x y := by
  simp [send, h]

@[simp] lemma send_nil : L.send src [] = L := by
  funext x y
  simp [send]

@[simp] lemma recv_self : L.recv src dst src dst = (L src dst).tail := by simp [recv]

lemma recv_of_ne {x y : ι} (h : ¬ (x = src ∧ y = dst)) : L.recv src dst x y = L x y := by
  simp [recv, h]

/-- A message in flight after a send was in flight before or has just been sent. -/
lemma mem_send {x y : ι} {m : μ} :
    m ∈ L.send src ps x y ↔ m ∈ L x y ∨ x = src ∧ (y, m) ∈ ps := by
  by_cases hx : x = src
  · subst hx
    simp only [send_self, List.mem_append, List.mem_filterMap, true_and]
    constructor
    · rintro (h | ⟨⟨z, m'⟩, hp, h⟩)
      · exact Or.inl h
      · right
        simp only [Option.ite_none_right_eq_some, Option.some.injEq] at h
        obtain ⟨rfl, rfl⟩ := h
        exact hp
    · rintro (h | h)
      · exact Or.inl h
      · exact Or.inr ⟨(y, m), h, by simp⟩
  · simp [send_of_ne L src ps hx, hx]

/-- Receiving only removes messages. -/
lemma mem_of_mem_recv {x y : ι} {m : μ} (h : m ∈ L.recv src dst x y) : m ∈ L x y := by
  by_cases hxy : x = src ∧ y = dst
  · obtain ⟨rfl, rfl⟩ := hxy
    exact List.mem_of_mem_tail (by simpa using h)
  · rwa [recv_of_ne L src dst hxy] at h

end Links
