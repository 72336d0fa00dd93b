import ChainReplication.Library.Fifo
import ChainReplication.Library.Machine
import Mathlib.Data.Multiset.DershowitzManna
import Mathlib.Algebra.BigOperators.Group.Finset.Basic

/-!
# Machines and networks that come to rest

A machine comes to rest when every step makes a well-founded measure smaller. In a network it is enough that
whoever takes up a message sends messages of lower rank only: the ranks of the messages in flight descend in
the order of multisets.
-/

namespace Machine

variable {S L β : Type*} {step : S → L → Option S} {ok : S → L → Prop} {s t : S}

/-- Every run from `s` is finite. -/
def Rests (step : S → L → Option S) (ok : S → L → Prop) (s : S) : Prop :=
  Acc (fun t u => Step step ok u t) s

/-- The measure rule: it only has to descend from the states that are reached. -/
theorem Rests.of_measure {r : β → β → Prop} (hwf : WellFounded r) (f : S → β) (I : S → Prop)
    (keep : ∀ u l v, I u → ok u l → step u l = some v → I v)
    (descend : ∀ u l v, I u → ok u l → step u l = some v → r (f v) (f u)) (hs : I s) :
    Rests step ok s := by
  induction h : f s using hwf.induction generalizing s with
  | h b ih =>
    subst h
    refine Acc.intro s ?_
    rintro t ⟨l, hl, hstep⟩
    exact ih (f t) (descend s l t hs hl hstep) (keep s l t hs hl hstep) rfl

end Machine

namespace Links

variable {ι μ α : Type*} [DecidableEq ι]

/-- The ranks of the messages in flight between the given nodes. The rank of a message may depend on the
receiver. -/
def ranks (rank : ι → μ → α) (nodes : Finset ι) (L : Links ι μ) : Multiset α :=
  (nodes ×ˢ nodes).sum fun p => ((L p.1 p.2).map (rank p.2) : Multiset α)

variable {rank : ι → μ → α} {nodes : Finset ι} {L : Links ι μ} {src dst x : ι} {m : μ}
  {rest : List μ} {ps : List (ι × μ)}

lemma ranks_recv (hsrc : src ∈ nodes) (hdst : dst ∈ nodes) (head : L src dst = m :: rest) :
    L.ranks rank nodes = (L.recv src dst).ranks rank nodes + {rank dst m} := by
  have hmem : (src, dst) ∈ nodes ×ˢ nodes := Finset.mem_product.mpr ⟨hsrc, hdst⟩
  rw [ranks, ranks, ← Finset.add_sum_erase _ _ hmem, ← Finset.add_sum_erase _ _ hmem]
  have hothers : ((nodes ×ˢ nodes).erase (src, dst)).sum
        (fun p => ((L p.1 p.2).map (rank p.2) : Multiset α)) =
      ((nodes ×ˢ nodes).erase (src, dst)).sum
        (fun p => ((L.recv src dst p.1 p.2).map (rank p.2) : Multiset α)) := by
    refine Finset.sum_congr rfl fun p hp => ?_
    rw [recv_of_ne]
    rintro ⟨h₁, h₂⟩
    exact Finset.ne_of_mem_erase hp (Prod.ext h₁ h₂)
  rw [hothers, recv_self, head, List.tail_cons, List.map_cons, ← Multiset.cons_coe,
    ← Multiset.singleton_add, add_comm {rank dst m}, add_right_comm]

lemma ranks_send (rank : ι → μ → α) (nodes : Finset ι) (L : Links ι μ) (x : ι) (ps : List (ι × μ)) :
    ∃ Y : Multiset α, (L.send x ps).ranks rank nodes = L.ranks rank nodes + Y ∧
    ∀ a ∈ Y, ∃ p ∈ ps, p.1 ∈ nodes ∧ rank p.1 p.2 = a := by
  refine ⟨(nodes ×ˢ nodes).sum fun e => if e.1 = x then
    ((ps.filterMap fun p => if p.1 = e.2 then some p.2 else none).map (rank e.2) : Multiset α)
    else 0, ?_, ?_⟩
  · rw [ranks, ranks, ← Finset.sum_add_distrib]
    refine Finset.sum_congr rfl fun e _ => ?_
    by_cases he : e.1 = x
    · rw [if_pos he, he, send_self, List.map_append, ← Multiset.coe_add]
    · rw [if_neg he, send_of_ne _ _ _ he, add_zero]
  · intro a ha
    obtain ⟨e, he, ha⟩ := Multiset.mem_sum.mp ha
    split_ifs at ha with hx
    · obtain ⟨m, hm, rfl⟩ := List.mem_map.mp (Multiset.mem_coe.mp ha)
      obtain ⟨p, hp, heq⟩ := List.mem_filterMap.mp hm
      simp only [Option.ite_none_right_eq_some, Option.some.injEq] at heq
      obtain ⟨htarget, rfl⟩ := heq
      exact ⟨p, hp, htarget ▸ (Finset.mem_product.mp he).2, by rw [htarget]⟩
    · simp at ha

variable [Preorder α]

/-- A message is taken up, and only messages of lower rank are sent. -/
theorem ranks_lt (hsrc : src ∈ nodes) (hdst : dst ∈ nodes) (head : L src dst = m :: rest)
    (hlower : ∀ p ∈ ps, p.1 ∈ nodes → rank p.1 p.2 < rank dst m) :
    Multiset.IsDershowitzMannaLT (((L.recv src dst).send x ps).ranks rank nodes)
      (L.ranks rank nodes) := by
  obtain ⟨Y, hY, hsent⟩ := ranks_send rank nodes (L.recv src dst) x ps
  refine ⟨(L.recv src dst).ranks rank nodes, Y, {rank dst m}, Multiset.singleton_ne_zero _, hY,
    ranks_recv hsrc hdst head, fun a ha => ⟨_, Multiset.mem_singleton_self _, ?_⟩⟩
  obtain ⟨p, hp, hnode, rfl⟩ := hsent a ha
  exact hlower p hp hnode

end Links
