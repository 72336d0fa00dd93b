import ChainReplication.Master.Basic
import Mathlib.Data.List.Nodup

/-!
# What the master does after a crash

`CrashCase` lists the outcomes of `notify_crash` for a record that is well formed and has no server
joining: the crashed server leaves the chain, and one neighbour hears of it.
-/

namespace ChainReplication

namespace BankServerChain

variable {node x : Address} {l : List Address}

/-- The record of a chain without duplicates whose ends are its head and its tail, with no server
joining it. -/
structure Wf (bsc : BankServerChain) : Prop where
  nodup : bsc.serverChain.Nodup
  notEmpty : .empty ∉ bsc.serverChain
  head : bsc.serverChain.head? = some bsc.head
  tail : bsc.serverChain.getLast? = some bsc.tail
  extending : bsc.extending = .empty

lemma nextOf_eq_some (h : nextOf node l = some x) : ∃ l₁ l₂, l = l₁ ++ node :: x :: l₂ := by
  induction l with
  | nil => simp [nextOf] at h
  | cons a l ih =>
    unfold nextOf at h
    split_ifs at h with ha
    · obtain ⟨l₂, rfl⟩ := List.head?_eq_some_iff.mp h
      exact ⟨[], l₂, by simp [ha]⟩
    · obtain ⟨l₁, l₂, rfl⟩ := ih h
      exact ⟨a :: l₁, l₂, rfl⟩

lemma prevOf_eq_some (h : prevOf node l = some x) : ∃ l₁ l₂, l = l₁ ++ x :: node :: l₂ := by
  induction l with
  | nil => simp [prevOf] at h
  | cons a l ih =>
    cases l with
    | nil => simp [prevOf] at h
    | cons b l =>
      unfold prevOf at h
      split_ifs at h with ha hb
      · obtain rfl : a = x := by simpa using h
        exact ⟨[], l, by simp [hb]⟩
      · obtain ⟨l₁, l₂, hl⟩ := ih h
        exact ⟨a :: l₁, l₂, by simp [hl]⟩

/-- Removing one of two neighbours in a list without duplicates. -/
lemma erase_split {l₁ l₂ : List Address} (h : (l₁ ++ node :: l₂).Nodup) :
    (l₁ ++ node :: l₂).erase node = l₁ ++ l₂ := by
  have hnot : node ∉ l₁ := by
    intro hmem
    exact (List.nodup_append.mp h).2.2 node hmem node List.mem_cons_self rfl
  rw [List.erase_append_right _ hnot, List.erase_cons_head]

end BankServerChain

namespace Master

variable {m m' : Master} {bankId : String} {node : Address} {out : List Packet}
  {bsc : BankServerChain}

/-- What `notify_crash` does to the record `bsc` of one bank, and whom it tells. -/
inductive CrashCase (m : Master) (bankId : String) (node : Address) (bsc : BankServerChain) :
    Master → List Packet → Prop where
  | head (newHead : Address) (l : List Address) (chain : bsc.serverChain = node :: newHead :: l)
      (m' : Master)
      (set : m' = m.setChain bankId { bsc with head := newHead, serverChain := newHead :: l }) :
      CrashCase m bankId node bsc m' (.tcp newHead .toBeHead ::
        (m'.notifyClients (.newHead { bankId := bankId, serverAddr := newHead }) ++
          m'.notifyServers (.newHead { bankId := bankId, serverAddr := newHead })))
  | tail (newTail : Address) (l : List Address) (chain : bsc.serverChain = l ++ [newTail, node])
      (m' : Master)
      (set : m' = m.setChain bankId { bsc with tail := newTail, serverChain := l ++ [newTail] }) :
      CrashCase m bankId node bsc m' (.tcp newTail .toBeTail ::
        m'.notifyClients (.newTail { bankId := bankId, serverAddr := newTail }))
  | internal (pre succ : Address) (l₁ l₂ : List Address)
      (chain : bsc.serverChain = l₁ ++ pre :: node :: succ :: l₂) :
      CrashCase m bankId node bsc
        (m.setChain bankId { bsc with serverChain := l₁ ++ pre :: succ :: l₂ })
        [.tcp succ (.newPreServer pre)]

lemma notifyCrash_head (hwf : bsc.Wf) (hlookup : m.bankServerChain.lookup bankId = some bsc)
    (hhead : node = bsc.head) (htail : node ≠ bsc.tail)
    (h : m.notifyCrash bankId node = some (m', out)) : CrashCase m bankId node bsc m' out := by
  simp only [notifyCrash, hlookup, Option.bind_eq_bind, Option.bind_some] at h
  rw [if_pos ⟨hhead, htail⟩] at h
  obtain ⟨newHead, hnext, bsc', hremove, h⟩ := by
    simpa only [Option.bind_eq_some_iff] using h
  obtain ⟨l, hl⟩ := List.head?_eq_some_iff.mp hwf.head
  rw [← hhead] at hl
  simp only [BankServerChain.succServerAddr, if_pos htail, hl, BankServerChain.nextOf, if_true]
    at hnext
  obtain ⟨l, rfl⟩ := List.head?_eq_some_iff.mp hnext
  simp only [BankServerChain.removeNode, hl, List.mem_cons, true_or, if_true, List.erase_cons_head,
    Option.some.injEq] at hremove
  subst hremove
  obtain ⟨rfl, rfl⟩ := by simpa using h
  exact .head newHead l hl _ rfl

lemma notifyCrash_tail (hwf : bsc.Wf) (hlookup : m.bankServerChain.lookup bankId = some bsc)
    (hhead : node ≠ bsc.head) (htail : node = bsc.tail)
    (h : m.notifyCrash bankId node = some (m', out)) : CrashCase m bankId node bsc m' out := by
  simp only [notifyCrash, hlookup, Option.bind_eq_bind, Option.bind_some] at h
  rw [if_neg (by simp [hhead]), if_pos ⟨hhead, htail⟩] at h
  obtain ⟨newTail, hprev, bsc', hremove, h⟩ := by
    simpa only [Option.bind_eq_some_iff] using h
  simp only [BankServerChain.preServerAddr, if_pos hhead] at hprev
  obtain ⟨l₁, l₂, hl⟩ := BankServerChain.prevOf_eq_some hprev
  have hnodup := hwf.nodup
  have hlast := hwf.tail
  rw [hl] at hnodup hlast
  -- the crashed tail stands last, so nothing follows it
  obtain rfl : l₂ = [] := by
    rw [← htail] at hlast
    by_contra hne
    have hmem : node ∈ l₂ := by
      obtain ⟨a, l, rfl⟩ := List.exists_cons_of_ne_nil hne
      refine List.mem_of_getLast? ?_
      rwa [List.getLast?_append_of_ne_nil _ (by simp), List.getLast?_cons_cons,
        List.getLast?_cons_cons] at hlast
    have hnodup := (List.nodup_append.mp hnodup).2.1
    exact (List.nodup_cons.mp (List.nodup_cons.mp hnodup).2).1 hmem
  have herase : bsc.serverChain.erase node = l₁ ++ [newTail] := by
    have hsplit : bsc.serverChain = (l₁ ++ [newTail]) ++ node :: [] := by simp [hl]
    have hnodup := hwf.nodup
    rw [hsplit] at hnodup ⊢
    rw [BankServerChain.erase_split hnodup, List.append_nil]
  have hmem : node ∈ bsc.serverChain := by simp [hl]
  simp only [BankServerChain.removeNode, if_pos hmem, herase, Option.some.injEq] at hremove
  subst hremove
  obtain ⟨rfl, rfl⟩ := by simpa [hwf.extending] using h
  exact .tail newTail l₁ hl _ (by rw [hwf.extending])

lemma notifyCrash_internal (hwf : bsc.Wf) (hlookup : m.bankServerChain.lookup bankId = some bsc)
    (hhead : node ≠ bsc.head) (htail : node ≠ bsc.tail) (hempty : node ≠ .empty)
    (h : m.notifyCrash bankId node = some (m', out)) : CrashCase m bankId node bsc m' out := by
  simp only [notifyCrash, hlookup, Option.bind_eq_bind, Option.bind_some] at h
  rw [if_neg (by simp [hhead]), if_neg (by simp [htail]),
    if_pos ⟨hhead, htail, by rwa [hwf.extending]⟩] at h
  obtain ⟨succ, hnext, pre, hprev, bsc', hremove, h⟩ := by
    simpa only [Option.bind_eq_some_iff] using h
  simp only [BankServerChain.succServerAddr, if_pos htail] at hnext
  simp only [BankServerChain.preServerAddr, if_pos hhead] at hprev
  obtain ⟨l₁, l₂, hl⟩ := BankServerChain.nextOf_eq_some hnext
  obtain ⟨k₁, k₂, hk⟩ := BankServerChain.prevOf_eq_some hprev
  have hnodup := hwf.nodup
  -- both splits cut the chain at the one place where `node` stands
  obtain ⟨hl₁, rfl⟩ : l₁ = k₁ ++ [pre] ∧ k₂ = succ :: l₂ := by
    have hsplit : l₁ ++ node :: succ :: l₂ = (k₁ ++ [pre]) ++ node :: k₂ := by
      rw [← hl, hk]
      simp
    rw [hl] at hnodup
    have hbefore : node ∉ l₁ := by
      intro hmem
      exact (List.nodup_append.mp hnodup).2.2 node hmem node List.mem_cons_self rfl
    have hafter : node ∉ succ :: l₂ := (List.nodup_cons.mp (List.nodup_append.mp hnodup).2.1).1
    obtain ⟨h₁, -, h₂⟩ := (List.append_cons_inj_of_notMem hbefore hafter).mp hsplit
    exact ⟨h₁, h₂.symm⟩
  have herase : bsc.serverChain.erase node = k₁ ++ pre :: succ :: l₂ := by
    rw [hl, hl₁] at hnodup ⊢
    rw [BankServerChain.erase_split hnodup, List.append_assoc, List.singleton_append]
  have hmem : node ∈ bsc.serverChain := by simp [hl]
  simp only [BankServerChain.removeNode, if_pos hmem, herase, Option.some.injEq] at hremove
  subst hremove
  obtain ⟨rfl, rfl⟩ := by simpa using h
  exact .internal pre succ k₁ l₂ hk

/-- A `notify_crash` that returns has removed the head, the tail or a server between them. -/
theorem notifyCrash_cases (hwf : bsc.Wf) (hlookup : m.bankServerChain.lookup bankId = some bsc)
    (hempty : node ≠ .empty) (h : m.notifyCrash bankId node = some (m', out)) :
    CrashCase m bankId node bsc m' out := by
  by_cases hhead : node = bsc.head
  · by_cases htail : node = bsc.tail
    · simp only [notifyCrash, hlookup, Option.bind_eq_bind, Option.bind_some] at h
      rw [if_neg (by simp [htail]), if_neg (by simp [hhead]), if_neg (by simp [hhead]),
        if_neg (by rwa [hwf.extending])] at h
      simp at h
    · exact notifyCrash_head hwf hlookup hhead htail h
  · by_cases htail : node = bsc.tail
    · exact notifyCrash_tail hwf hlookup hhead htail h
    · exact notifyCrash_internal hwf hlookup hhead htail hempty h

/-! ### The record and the notifications -/

/-- The record after the removal of `node`. -/
lemma CrashCase.record (hwf : bsc.Wf) (h : CrashCase m bankId node bsc m' out) :
    ∃ bsc', m' = m.setChain bankId bsc' ∧ bsc'.Wf ∧
      bsc'.serverChain = bsc.serverChain.erase node := by
  have hnodup := hwf.nodup
  have hempty := hwf.notEmpty
  have hhead := hwf.head
  have htail := hwf.tail
  cases h with
  | head newHead l chain m' set =>
    rw [chain] at hnodup hempty htail
    refine ⟨_, set, ⟨(List.nodup_cons.mp hnodup).2, ?_, rfl, ?_, hwf.extending⟩, ?_⟩
    · exact fun hmem => hempty (List.mem_cons_of_mem _ hmem)
    · rwa [List.getLast?_cons_cons] at htail
    · simp [chain]
  | tail newTail l chain m' set =>
    have hsplit : bsc.serverChain = (l ++ [newTail]) ++ node :: [] := by simp [chain]
    rw [hsplit] at hnodup hempty hhead
    refine ⟨_, set, ⟨(List.nodup_append.mp hnodup).1, ?_, ?_, by simp, hwf.extending⟩, ?_⟩
    · exact fun hmem => hempty (List.mem_append_left _ hmem)
    · rwa [List.head?_append_of_ne_nil _ (by simp)] at hhead
    · rw [hsplit, BankServerChain.erase_split hnodup, List.append_nil]
  | internal pre succ l₁ l₂ chain =>
    have hsplit : bsc.serverChain = (l₁ ++ [pre]) ++ node :: (succ :: l₂) := by simp [chain]
    have herase : bsc.serverChain.erase node = l₁ ++ pre :: succ :: l₂ := by
      rw [hsplit] at hnodup ⊢
      rw [BankServerChain.erase_split hnodup, List.append_assoc, List.singleton_append]
    refine ⟨_, rfl, ⟨?_, ?_, ?_, ?_, hwf.extending⟩, herase.symm⟩
    · rw [← herase]
      exact hnodup.erase node
    · rw [← herase]
      exact fun hmem => hempty (List.mem_of_mem_erase hmem)
    · rw [chain] at hhead
      cases l₁ <;> simpa using hhead
    · rw [chain] at htail
      simpa [List.getLast?_append, List.getLast?_cons_cons] using htail

/-- The TCP messages after the crash of `node`. -/
inductive CrashNotice (bsc : BankServerChain) (node target : Address) : Message → Prop where
  | toBeHead {l} (chain : bsc.serverChain = node :: target :: l) :
      CrashNotice bsc node target .toBeHead
  | toBeTail {l} (chain : bsc.serverChain = l ++ [target, node]) :
      CrashNotice bsc node target .toBeTail
  | newPreServer {pre l₁ l₂} (chain : bsc.serverChain = l₁ ++ pre :: node :: target :: l₂) :
      CrashNotice bsc node target (.newPreServer pre)
  | newHead {notify} : CrashNotice bsc node target (.newHead notify)

lemma CrashCase.notice (h : CrashCase m bankId node bsc m' out) {p : Packet} (hp : p ∈ out)
    {t : Address} {msg : Message} (hm : p.tcp? = some (t, msg)) : CrashNotice bsc node t msg := by
  have clients {n : Message} (hp : p ∈ m'.notifyClients n) : False := by
    obtain ⟨a, -, rfl⟩ := List.mem_map.mp hp
    simp at hm
  cases h with
  | head newHead l chain m' set =>
    rcases List.mem_cons.mp hp with rfl | hp
    · obtain ⟨rfl, rfl⟩ := by simpa using hm
      exact .toBeHead chain
    rcases List.mem_append.mp hp with hp | hp
    · exact (clients hp).elim
    · obtain ⟨e, -, he⟩ := List.mem_flatMap.mp hp
      obtain ⟨a, -, rfl⟩ := List.mem_map.mp he
      obtain ⟨rfl, rfl⟩ := by simpa using hm
      exact .newHead
  | tail newTail l chain m' set =>
    rcases List.mem_cons.mp hp with rfl | hp
    · obtain ⟨rfl, rfl⟩ := by simpa using hm
      exact .toBeTail chain
    · exact (clients hp).elim
  | internal pre succ l₁ l₂ chain =>
    obtain rfl := List.mem_singleton.mp hp
    obtain ⟨rfl, rfl⟩ := by simpa using hm
    exact .newPreServer chain

/-- The new head of a bank is a server of its chain. -/
lemma CrashCase.newHead (h : CrashCase m bankId node bsc m' out) {p : Packet} (hp : p ∈ out)
    {t : Address} {n : Notify} (hm : p.tcp? = some (t, .newHead n)) :
    n.bankId = bankId ∧ n.serverAddr ∈ bsc.serverChain := by
  have clients {n' : Message} (hp : p ∈ m'.notifyClients n') : False := by
    obtain ⟨a, -, rfl⟩ := List.mem_map.mp hp
    simp at hm
  cases h with
  | head newHead l chain m' set =>
    rcases List.mem_cons.mp hp with rfl | hp
    · simp at hm
    rcases List.mem_append.mp hp with hp | hp
    · exact (clients hp).elim
    · obtain ⟨e, -, he⟩ := List.mem_flatMap.mp hp
      obtain ⟨a, -, rfl⟩ := List.mem_map.mp he
      obtain ⟨-, rfl⟩ := by simpa using hm
      exact ⟨rfl, by rw [chain]; simp⟩
  | tail newTail l chain m' set =>
    rcases List.mem_cons.mp hp with rfl | hp
    · simp at hm
    · exact (clients hp).elim
  | internal pre succ l₁ l₂ chain =>
    obtain rfl := List.mem_singleton.mp hp
    simp at hm

end Master

end ChainReplication
