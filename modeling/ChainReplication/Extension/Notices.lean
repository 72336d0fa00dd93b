import ChainReplication.Extension.Chain

/-!
# Crashes while servers join

What `notify_crash` makes of the record of a bank that a server may be joining, and what it may tell
whom.
-/

namespace ChainReplication

open scoped List

variable {cfg : Config} {b : BankConfig} {σ : System} {bsc : BankServerChain} {c : List Address}
  {x y z node : Address} {m : Master} {out : List Packet} {msg : Message}

namespace BankServerChain

/-- The predecessor is the end of what stands before the server. -/
lemma prevOf_append {p q : List Address} (hnodup : (p ++ node :: q).Nodup)
    (h : prevOf node (p ++ node :: q) = some x) : ∃ l, p = l ++ [x] := by
  rcases List.eq_nil_or_concat p with rfl | ⟨l, y, rfl⟩
  · cases q <;> simp [prevOf] at h
  · rw [List.concat_eq_append, List.append_assoc, List.singleton_append, prevOf_of_split] at h
    · obtain rfl := Option.some.inj h
      exact ⟨l, List.concat_eq_append⟩
    · rw [List.concat_eq_append] at hnodup
      exact fun hmem => (List.nodup_append.mp hnodup).2.2 node hmem node List.mem_cons_self rfl

end BankServerChain

/-- Removing another element does not change the last one. -/
lemma getLast?_erase (h : c.getLast? = some x) (hne : node ≠ x) :
    (c.erase node).getLast? = some x := by
  obtain ⟨l, rfl⟩ := List.getLast?_eq_some_iff.mp h
  rw [List.erase_append]
  split_ifs
  · exact List.getLast?_concat
  · rw [List.erase_cons_tail (by simpa using Ne.symm hne), List.erase_nil]
    exact List.getLast?_concat

lemma head?_erase (h : c.head? = some x) (hne : node ≠ x) : (c.erase node).head? = some x := by
  obtain ⟨l, rfl⟩ := List.head?_eq_some_iff.mp h
  rw [List.erase_cons_tail (by simpa using Ne.symm hne)]
  rfl

/-- Neighbours in an old chain with the joining server behind it. -/
lemma ahead_of_sublist (hsub : c <+ b.servers) (hy : Joiner b σ y) (h : [x, z] <+ c ++ [y]) :
    Ahead b σ x z := by
  obtain ⟨l₁, l₂, heq, h₁, h₂⟩ := List.sublist_append_iff.mp h
  rcases l₁ with _ | ⟨a, _ | ⟨a', l₁⟩⟩
  · rw [List.nil_append] at heq
    rw [← heq] at h₂
    exact absurd h₂.length_le (by simp)
  · obtain ⟨rfl, rfl⟩ := List.cons.inj heq
    obtain rfl : z = y := by simpa using h₂.subset (List.mem_singleton_self z)
    exact Or.inr ⟨hsub.subset (h₁.subset List.mem_cons_self), hy⟩
  · obtain ⟨rfl, rfl, rfl, rfl⟩ := by simpa using heq
    exact Or.inl (h₁.trans hsub)

namespace Recorded

variable (h : Recorded b σ bsc c) (hb : b ∈ cfg.banks)
include h hb

omit h in
lemma joiner_notMem (hy : y ∈ b.extendServers) : y ∉ b.servers := by
  intro hmem
  have hnodup := (List.nodup_flatMap.mp (List.nodup_cons.mp cfg.addrs_nodup).2).1 b hb
  exact (List.nodup_append.mp hnodup).2.2 y hmem y hy rfl

lemma nodup : c.Nodup := (Config.servers_nodup hb).sublist h.sub

lemma joiner_notMem_chain (hy : Joiner b σ y) : y ∉ c := fun hmem =>
  joiner_notMem hb hy.1 (h.sub.subset hmem)

lemma nodup_joiner (hy : Joiner b σ y) : (c ++ [y]).Nodup := by
  rw [List.nodup_append]
  refine ⟨h.nodup hb, List.nodup_singleton y, fun a ha z hz heq => ?_⟩
  obtain rfl := List.mem_singleton.mp hz
  exact h.joiner_notMem_chain hb hy (heq ▸ ha)

omit hb in
/-- The old chain loses a crashed server, or the joining server leaves. -/
lemma erase (hdead : σ.crashed node = true) : c.erase node <+ b.servers ∧
    ∀ z ∈ b.servers, z ∉ c.erase node → σ.crashed z = true := by
  refine ⟨List.erase_sublist.trans h.sub, fun z hz hnot => ?_⟩
  by_cases hzn : z = node
  · rw [hzn]
    exact hdead
  · exact h.dead z hz fun hmem => hnot ((List.mem_erase_of_ne hzn).mpr hmem)

omit h hb in
/-- The rest of the chain stands before the joining server. -/
lemma erase_append (hne : node ≠ y) (hmem : node ∈ c ++ [y]) :
    (c ++ [y]).erase node = c.erase node ++ [y] := by
  apply List.erase_append_left
  exact (List.mem_append.mp hmem).resolve_right fun hy => hne (List.mem_singleton.mp hy)

omit hb in
/-- A server leaves the old chain and neither end nor the joining server is concerned. -/
lemma phase_erase (hmem : node ∈ bsc.serverChain) (htail : node ≠ bsc.tail)
    (hextending : ∀ y, bsc.serverChain = c ++ [y] → node ≠ y) {a : Address} :
    Phase b σ { bsc with head := a, serverChain := bsc.serverChain.erase node } (c.erase node) := by
  cases h.phase with
  | idle nobody chain last extending =>
    exact .idle nobody (by rw [chain]) (getLast?_erase last htail) extending
  | extending joiner chain last =>
    refine .extending joiner ?_ (getLast?_erase last htail)
    change bsc.serverChain.erase node = _
    rw [chain] at hmem ⊢
    exact erase_append (hextending _ chain) hmem
  | joined joiner chain extending =>
    refine .joined joiner ?_ extending
    change bsc.serverChain.erase node = _
    rw [chain] at hmem ⊢
    exact erase_append (hextending _ chain) hmem
  | gone joiner dead chain last extending =>
    exact .gone joiner dead (by rw [chain]) (last.imp (fun hlast => getLast?_erase hlast htail) id)
      extending

omit hb in
lemma mem_chain (hmem : x ∈ bsc.serverChain) : x ∈ b.servers ++ b.extendServers := by
  have old (hx : x ∈ c) : x ∈ b.servers ++ b.extendServers :=
    List.mem_append_left _ (h.sub.subset hx)
  have new {y : Address} (hy : Joiner b σ y) (hx : x ∈ c ++ [y]) : x ∈ b.servers ++ b.extendServers := by
    rcases List.mem_append.mp hx with hx | hx
    · exact old hx
    · rw [List.mem_singleton.mp hx]
      exact List.mem_append_right _ hy.1
  cases h.phase with
  | idle nobody chain => exact old (chain ▸ hmem)
  | extending joiner chain => exact new joiner (chain ▸ hmem)
  | joined joiner chain => exact new joiner (chain ▸ hmem)
  | gone joiner dead chain => exact old (chain ▸ hmem)

lemma ne_empty (hmem : x ∈ bsc.serverChain) : x ≠ .empty := by
  rintro rfl
  apply cfg.empty_notMem
  exact List.mem_cons_of_mem _ (List.mem_flatMap.mpr ⟨b, hb, h.mem_chain hmem⟩)

end Recorded

/-- What the master may tell a server of the bank after a crash. `c` is what is left of the old
chain. -/
inductive JoinNotice (b : BankConfig) (σ : System) (bsc : BankServerChain) (c : List Address)
    (t : Address) : Message → Prop where
  | toBeHead : JoinNotice b σ bsc c t .toBeHead
  | newHead {n : Notify} : JoinNotice b σ bsc c t (.newHead n)
  | toBeTail (last : c.getLast? = some t) : JoinNotice b σ bsc c t .toBeTail
  | extendServer (last : c.getLast? = some t) (joiner : Joiner b σ bsc.extending) :
      JoinNotice b σ bsc c t (.extendServer bsc.extending)
  | newPreServer {pre : Address} (ahead : Ahead b σ pre t) : JoinNotice b σ bsc c t (.newPreServer pre)
  | extendFail {y : Address} (last : c.getLast? = some t) (joiner : Joiner b σ y) (dead : σ.crashed y = true) :
      JoinNotice b σ bsc c t .extendFail

namespace Recorded

variable (h : Recorded b σ bsc c) (hb : b ∈ cfg.banks)
include h hb

/-- The tail of the record has crashed: the server before it is the last of the old chain. -/
lemma notified_tail (hdead : σ.crashed node = true) (hmem : node ∈ bsc.serverChain)
    (htail : node = bsc.tail) (hprev : BankServerChain.prevOf node bsc.serverChain = some x) :
    (c.erase node).getLast? = some x ∧
      Phase b σ { bsc with tail := x, serverChain := bsc.serverChain.erase node } (c.erase node) := by
  -- the crashed server stands at the end of the old chain, perhaps before the joining server
  have last {q : List Address} (hlast : c.getLast? = some bsc.tail) (hchain : bsc.serverChain = c ++ q)
      (hnodup : (c ++ q).Nodup) : (c.erase node).getLast? = some x ∧ node ∈ c := by
    obtain ⟨l, hl⟩ := List.getLast?_eq_some_iff.mp hlast
    rw [← htail] at hl
    rw [hchain] at hprev
    have hc := h.nodup hb
    have hsplit : c ++ q = l ++ node :: q := by rw [hl, List.append_assoc]; rfl
    rw [hsplit] at hprev hnodup
    obtain ⟨l', rfl⟩ := BankServerChain.prevOf_append hnodup hprev
    rw [hl] at hc ⊢
    rw [BankServerChain.erase_split hc, List.append_nil]
    exact ⟨List.getLast?_concat, by simp⟩
  cases h.phase with
  | idle nobody chain hlast extending =>
    have hc := h.nodup hb
    obtain ⟨hlast', -⟩ := last (q := []) hlast (by rw [chain, List.append_nil])
      (by rwa [List.append_nil])
    exact ⟨hlast', .idle nobody (by rw [chain]) hlast' extending⟩
  | extending joiner chain hlast =>
    obtain ⟨hlast', hmem'⟩ := last hlast chain (h.nodup_joiner hb joiner)
    refine ⟨hlast', .extending joiner ?_ hlast'⟩
    change bsc.serverChain.erase node = _
    rw [chain, List.erase_append_left _ hmem']
  | joined joiner chain extending =>
    have hnodup := h.nodup_joiner hb joiner
    rw [← htail] at joiner chain hnodup
    have hnot := h.joiner_notMem_chain hb joiner
    rw [chain] at hprev
    obtain ⟨l, hl⟩ := BankServerChain.prevOf_append hnodup hprev
    have hlast : (c.erase node).getLast? = some x := by
      rw [List.erase_of_not_mem hnot, hl]
      exact List.getLast?_concat
    refine ⟨hlast, .gone joiner hdead ?_ (Or.inl hlast) extending⟩
    change bsc.serverChain.erase node = _
    rw [chain, BankServerChain.erase_split hnodup, List.append_nil, List.erase_of_not_mem hnot]
  | gone joiner dead chain hlast extending =>
    rcases hlast with hlast | hlast
    · have hc := h.nodup hb
      obtain ⟨hlast', -⟩ := last (q := []) hlast (by rw [chain, List.append_nil])
        (by rwa [List.append_nil])
      exact ⟨hlast', .gone joiner dead (by rw [chain]) (Or.inl hlast') extending⟩
    · rw [chain, htail, hlast] at hmem
      exact absurd hmem (h.joiner_notMem_chain hb joiner)

/-- The joining server has crashed. -/
lemma notified_extending (hdead : σ.crashed node = true) (hmem : node ∈ bsc.serverChain)
    (hextending : node = bsc.extending)
    (hprev : BankServerChain.prevOf node bsc.serverChain = some x) :
    Joiner b σ node ∧ c.getLast? = some x ∧
      Phase b σ { bsc with serverChain := bsc.serverChain.erase node, extending := .empty }
        (c.erase node) := by
  have hne := h.ne_empty hb hmem
  cases h.phase with
  | idle nobody chain last extending => exact absurd (hextending.trans extending) hne
  | extending joiner chain last =>
    have hnodup := h.nodup_joiner hb joiner
    rw [← hextending] at joiner chain hnodup
    have hnot := h.joiner_notMem_chain hb joiner
    rw [chain] at hprev
    obtain ⟨l, hl⟩ := BankServerChain.prevOf_append hnodup hprev
    have herase : c.erase node = c := List.erase_of_not_mem hnot
    refine ⟨joiner, ?_, .gone joiner hdead ?_ ?_ rfl⟩
    · rw [hl]
      exact List.getLast?_concat
    · change bsc.serverChain.erase node = _
      rw [chain, BankServerChain.erase_split hnodup, List.append_nil, herase]
    · rw [herase]
      exact Or.inl last
  | joined joiner chain extending => exact absurd (hextending.trans extending) hne
  | gone joiner dead chain last extending => exact absurd (hextending.trans extending) hne

/-- A server between two others has crashed. -/
lemma notified_internal {succ pre : Address}
    (hnext : BankServerChain.nextOf node bsc.serverChain = some succ)
    (hprev : BankServerChain.prevOf node bsc.serverChain = some pre) : Ahead b σ pre succ := by
  obtain ⟨l₁, l₂, hl⟩ := BankServerChain.nextOf_eq_some hnext
  have ahead (hnodup : bsc.serverChain.Nodup) : [pre, succ] <+ bsc.serverChain := by
    rw [hl] at hnodup hprev ⊢
    obtain ⟨l, rfl⟩ := BankServerChain.prevOf_append hnodup hprev
    have hsub : [pre] ++ [succ] <+ (l ++ [pre]) ++ node :: succ :: l₂ := by
      apply List.Sublist.append
      · exact List.sublist_append_right l [pre]
      · exact ((List.nil_sublist l₂).cons_cons succ).cons node
    exact hsub
  cases h.phase with
  | idle nobody chain => exact Or.inl ((chain ▸ ahead (chain ▸ h.nodup hb)).trans h.sub)
  | extending joiner chain =>
    have hsub := ahead (chain ▸ h.nodup_joiner hb joiner)
    rw [chain] at hsub
    exact ahead_of_sublist h.sub joiner hsub
  | joined joiner chain =>
    have hsub := ahead (chain ▸ h.nodup_joiner hb joiner)
    rw [chain] at hsub
    exact ahead_of_sublist h.sub joiner hsub
  | gone joiner dead chain => exact Or.inl ((chain ▸ ahead (chain ▸ h.nodup hb)).trans h.sub)

/-- The head is no server that still joins. -/
lemma head_ne_extending (hmem : node ∈ bsc.serverChain)
    (hhead : bsc.serverChain.head? = some node) : node ≠ bsc.extending := by
  have hne := h.ne_empty hb hmem
  cases h.phase with
  | idle nobody chain last extending => rwa [extending]
  | extending joiner chain last =>
    have hnil : c ≠ [] := by
      rintro rfl
      cases last
    rw [chain, List.head?_append_of_ne_nil _ hnil] at hhead
    intro heq
    exact h.joiner_notMem_chain hb joiner (heq ▸ List.mem_of_head? hhead)
  | joined joiner chain extending => rwa [extending]
  | gone joiner dead chain last extending => rwa [extending]

/-- The record after a crash, and what the master tells whom. -/
theorem notified (hdead : σ.crashed node = true) (hmem : node ∈ bsc.serverChain)
    (hcase : Master.NotifyCase σ.master b.bankId node bsc m out) :
    ∃ bsc', m = σ.master.setChain b.bankId bsc' ∧ Recorded b σ bsc' (c.erase node) ∧
      ∀ p ∈ out, ∀ t msg, p.tcp? = some (t, msg) → JoinNotice b σ bsc (c.erase node) t msg := by
  obtain ⟨hsub, hmissing⟩ := h.erase hdead
  have clients {m : Master} {n : Message} {p : Packet} {t : Address} {msg : Message}
      (hp : p ∈ m.notifyClients n) : p.tcp? ≠ some (t, msg) := by
    obtain ⟨a, -, rfl⟩ := List.mem_map.mp hp
    exact fun heq => by cases heq
  have sent {a t : Address} {n msg : Message} (heq : (Packet.tcp a n).tcp? = some (t, msg)) :
      a = t ∧ n = msg := by
    rw [Packet.tcp?_tcp] at heq
    exact Prod.mk.inj (Option.some.inj heq)
  -- the joining server stands behind the tail or is the tail
  have other (htail : node ≠ bsc.tail) (hextending : node ≠ bsc.extending) (y : Address)
      (hchain : bsc.serverChain = c ++ [y]) : node ≠ y := by
    have last {a : Address} (ha : bsc.serverChain = c ++ [a]) : a = y := by
      rw [ha] at hchain
      simpa using hchain
    cases h.phase with
    | idle nobody chain => simp [chain] at hchain
    | extending joiner chain => exact last chain ▸ hextending
    | joined joiner chain => exact last chain ▸ htail
    | gone joiner dead chain => simp [chain] at hchain
  cases hcase with
  | @head newHead _ head tail next set =>
    have hfirst := h.head
    rw [← head] at hfirst
    obtain ⟨l, hl⟩ := List.head?_eq_some_iff.mp hfirst
    have hhead : (bsc.serverChain.erase node).head? = some newHead := by
      rw [hl, List.erase_cons_head]
      rwa [hl, BankServerChain.nextOf, if_pos rfl] at next
    refine ⟨_, set, ⟨hsub, hmissing, hhead, h.phase_erase hmem tail (other tail ?_)⟩, ?_⟩
    · exact h.head_ne_extending hb hmem hfirst
    · intro p hp t msg heq
      rcases List.mem_cons.mp hp with rfl | hp
      · obtain ⟨rfl, rfl⟩ := sent heq
        exact .toBeHead
      · rcases List.mem_append.mp hp with hp | hp
        · exact absurd heq (clients hp)
        · obtain ⟨e, -, he⟩ := List.mem_flatMap.mp hp
          obtain ⟨a, -, rfl⟩ := List.mem_map.mp he
          obtain ⟨rfl, rfl⟩ := sent heq
          exact .newHead
  | tail head tail prev set =>
    obtain ⟨hlast, hphase⟩ := h.notified_tail hb hdead hmem tail prev
    refine ⟨_, set, ⟨hsub, hmissing, head?_erase h.head head, hphase⟩, ?_⟩
    intro p hp t msg heq
    rcases List.mem_cons.mp hp with rfl | hp
    · obtain ⟨rfl, rfl⟩ := sent heq
      exact .toBeTail hlast
    · rcases List.mem_append.mp hp with hp | hp
      · exact absurd heq (clients hp)
      · split_ifs at hp with hempty
        · cases hp
        · obtain rfl := List.mem_singleton.mp hp
          obtain ⟨rfl, rfl⟩ := sent heq
          refine .extendServer hlast ?_
          cases h.phase with
          | idle nobody chain last extending => exact absurd extending hempty
          | extending joiner chain => exact joiner
          | joined joiner chain extending => exact absurd extending hempty
          | gone joiner dead chain last extending => exact absurd extending hempty
  | internal head tail extending next prev =>
    refine ⟨_, rfl, ⟨hsub, hmissing, head?_erase h.head head,
      h.phase_erase hmem tail (other tail extending)⟩, ?_⟩
    intro p hp t msg heq
    obtain rfl := List.mem_singleton.mp hp
    obtain ⟨rfl, rfl⟩ := sent heq
    exact .newPreServer (h.notified_internal hb next prev)
  | extending head tail extending prev =>
    obtain ⟨hjoiner, hlast, hphase⟩ := h.notified_extending hb hdead hmem extending prev
    refine ⟨_, rfl, ⟨hsub, hmissing, head?_erase h.head head, hphase⟩, ?_⟩
    intro p hp t msg heq
    obtain rfl := List.mem_singleton.mp hp
    obtain ⟨rfl, rfl⟩ := sent heq
    refine .extendFail ?_ hjoiner hdead
    rw [List.erase_of_not_mem (h.joiner_notMem_chain hb hjoiner)]
    exact hlast

end Recorded

end ChainReplication
