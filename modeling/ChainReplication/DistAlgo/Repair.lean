import ChainReplication.DistAlgo.Master

/-!
# The repair of a link

`NEW_PREV_SERVER` and `ACK_NEW_PREV_SERVER` on their way while the master goes on finding crashes. The
handler of the acknowledgement looks its sender up in the chain of that time.
-/

namespace ChainReplication.DistAlgo

variable {P : Type*} [DecidableEq P]

/-- The master, the servers whose `NEW_PREV_SERVER` is on its way and the acknowledgements on theirs. -/
structure Repair (P : Type*) where
  master : Master P
  notified : List (String × P) := []
  acks : List (String × P × ℕ) := []

/-- What happens at the master, and a server's answer to `NEW_PREV_SERVER`. -/
inductive RepairLabel (P : Type*) where
  | detect (bankId : String) (node : P)
  | answer (bankId : String) (server : P) (sn : ℕ)
  | ack (bankId : String) (server : P) (sn : ℕ)
  | join (bankId : String) (server : P)
  | ready (bankId : String) (server : P)
deriving DecidableEq

namespace Repair

/-- The servers of a bank that are told about a new predecessor. -/
def newPrevs (bankId : String) (out : List (P × Notice P)) : List (String × P) :=
  out.filterMap fun p => match p.2 with
    | .newPrevServer _ => some (bankId, p.1)
    | _ => none

def step (s : Repair P) : RepairLabel P → Option (Repair P)
  | .detect bankId node => do
    let (m, out) ← s.master.notifyCrash bankId node
    some { s with master := m, notified := s.notified ++ newPrevs bankId out }
  | .answer bankId server sn =>
    if (bankId, server) ∈ s.notified then
      some { s with notified := s.notified.erase (bankId, server), acks := s.acks ++ [(bankId, server, sn)] }
    else none
  | .ack bankId server sn =>
    if (bankId, server, sn) ∈ s.acks then do
      let _ ← s.master.ackNewPrevServer bankId server sn
      some { s with acks := s.acks.erase (bankId, server, sn) }
    else none
  | .join bankId server => do
    let chain ← s.master.bankChains.lookup bankId
    if server ∈ chain.servers then none
    else do
      let (m, _) ← s.master.joinChainRequest bankId server
      some { s with master := m }
  | .ready bankId server => do
    let (m, _) ← s.master.newTailReady bankId server
    some { s with master := m }

/-- The handler of every acknowledgement on its way would return. -/
def AcksHandled (s : Repair P) : Prop :=
  ∀ a ∈ s.acks, (s.master.ackNewPrevServer a.1 a.2.1 a.2.2).isSome = true

/-- No server is removed or becomes the head while its acknowledgement is on its way, and a server that
answers is listed and not the head. -/
def Undisturbed (s : Repair P) : RepairLabel P → Prop
  | .detect bankId node => ∀ chain ∈ s.master.bankChains.lookup bankId, ∀ a ∈ s.acks, a.1 = bankId →
      a.2.1 ≠ node ∧ (node = chain.head → chain.succServer node ≠ some a.2.1)
  | .answer bankId server _ => ∃ chain ∈ s.master.bankChains.lookup bankId,
      server ∈ chain.servers ∧ server ≠ chain.head
  | _ => True

instance (s : Repair P) (l : RepairLabel P) : Decidable (s.Undisturbed l) :=
  match l with
  | .detect bankId _ => inferInstanceAs (Decidable
      (∀ chain ∈ s.master.bankChains.lookup bankId, ∀ a ∈ s.acks, _ → _))
  | .answer bankId _ _ => inferInstanceAs (Decidable (∃ chain ∈ s.master.bankChains.lookup bankId, _))
  | .ack _ _ _ | .join _ _ | .ready _ _ => instDecidableTrue

end Repair

/-! ### The handlers -/

namespace BankServerChain

variable {chain : BankServerChain P} {p : P}

lemma getNode_eq_some {q : P} : chain.getNode p = some q ↔ p ∈ chain.servers ∧ q = p := by
  constructor
  · intro h
    have heq := List.find?_some h
    have hmem := List.mem_of_find?_eq_some h
    obtain rfl : q = p := by simpa using heq
    exact ⟨hmem, rfl⟩
  · rintro ⟨hmem, rfl⟩
    cases h : chain.getNode q with
    | none => exact absurd (List.find?_eq_none.mp h q hmem) (by simp)
    | some x =>
      have heq := List.find?_some h
      rw [show x = q by simpa using heq]

/-- `prev_server` fails for a node that is not listed and for the head. -/
lemma prevServer_isSome_iff : (chain.prevServer p).isSome = true ↔ p ∈ chain.servers ∧ p ≠ chain.head := by
  unfold prevServer
  by_cases hhead : p = chain.head
  · simp [hhead]
  · rw [if_neg hhead, and_iff_left hhead]
    cases hidx : chain.servers.findIdx? (· = p) with
    | none =>
      rw [List.findIdx?_eq_none_iff] at hidx
      simp only [Option.bind_none, Option.isSome_none, Bool.false_eq_true, false_iff]
      exact fun hmem => by simpa using hidx p hmem
    | some i =>
      obtain ⟨hi, heq, -⟩ := List.findIdx?_eq_some_iff_getElem.mp hidx
      have hmem : p ∈ chain.servers := by
        have heq : chain.servers[i] = p := by simpa using heq
        exact heq ▸ List.getElem_mem hi
      refine iff_of_true ?_ hmem
      rw [Option.bind_some]
      split_ifs
      · rw [List.getLast?_isSome]
        exact List.ne_nil_of_mem hmem
      · rw [isSome_getElem?]
        omega

end BankServerChain

namespace Master

variable {m m' : Master P} {bankId : String} {node p : P} {sn : ℕ} {out : List (P × Notice P)}
  {chain : BankServerChain P}

/-- The handler of an acknowledgement returns exactly for a listed server that is not the head. -/
lemma ackNewPrevServer_isSome_iff : (m.ackNewPrevServer bankId p sn).isSome = true ↔
    ∃ chain ∈ m.bankChains.lookup bankId, p ∈ chain.servers ∧ p ≠ chain.head := by
  unfold ackNewPrevServer
  cases hlookup : m.bankChains.lookup bankId with
  | none => simp
  | some chain =>
    simp only [Option.bind_eq_bind, Option.bind_some, Option.mem_def, Option.some.injEq, exists_eq_left']
    rw [← BankServerChain.prevServer_isSome_iff]
    cases hnode : chain.getNode p with
    | none =>
      have hnot : p ∉ chain.servers := by
        intro hmem
        rw [BankServerChain.getNode_eq_some.mpr ⟨hmem, rfl⟩] at hnode
        cases hnode
      simp only [Option.bind_none, Option.isSome_none, Bool.false_eq_true, false_iff]
      exact fun hsome => hnot (BankServerChain.prevServer_isSome_iff.mp hsome).1
    | some q =>
      obtain ⟨-, rfl⟩ := BankServerChain.getNode_eq_some.mp hnode
      rw [Option.bind_some]
      cases chain.prevServer q <;> rfl

omit [DecidableEq P] in
lemma lookup_setChain (id : String) : (m.setChain bankId chain).bankChains.lookup id =
    if id = bankId then some chain else m.bankChains.lookup id := by
  split_ifs with h
  · subst h
    exact AList.lookup_insert _
  · exact AList.lookup_insert_ne h

/-- What a crash changes in the chain: the node leaves, and its successor becomes the head if it was. -/
lemma notifyCrash_chain (hlookup : m.bankChains.lookup bankId = some chain)
    (h : m.notifyCrash bankId node = some (m', out)) : ∃ chain', m' = m.setChain bankId chain' ∧
      chain'.servers = chain.servers.erase node ∧
      (chain'.head = chain.head ∨ node = chain.head ∧ chain.succServer node = some chain'.head) ∧
      ∀ x, node = chain.head → chain.succServer node = some x → chain'.head = x := by
  have removed {c c' : BankServerChain P} (hc : c.removeNode node = some c') :
      c' = { c with servers := c.servers.erase node } := by
    unfold BankServerChain.removeNode at hc
    split_ifs at hc
    exact (Option.some.inj hc).symm
  have tail_of_succ {x : P} (hx : chain.succServer node = some x) : node ≠ chain.tail := by
    intro htail
    rw [BankServerChain.succServer, if_pos htail] at hx
    cases hx
  simp only [notifyCrash, hlookup, Option.bind_eq_bind, Option.bind_some] at h
  split_ifs at h with hhead htail hext hinternal
  all_goals simp only [Option.bind_eq_some_iff, Option.some.injEq, Prod.mk.injEq] at h
  · obtain ⟨newHead, hsucc, c, hc, rfl, -⟩ := h
    obtain rfl := removed hc
    refine ⟨_, rfl, rfl, Or.inr ⟨hhead.1, hsucc⟩, fun x _ hx => ?_⟩
    exact Option.some.inj (hsucc.symm.trans hx)
  · obtain ⟨newTail, -, c, hc, rfl, -⟩ := h
    obtain rfl := removed hc
    exact ⟨_, rfl, rfl, Or.inl rfl, fun x hx => absurd hx htail.1⟩
  · obtain ⟨c, hc, rfl, -⟩ := h
    obtain rfl := removed hc
    refine ⟨_, rfl, rfl, Or.inl rfl, fun x hx hsucc => ?_⟩
    exact absurd ⟨hx, tail_of_succ hsucc⟩ hhead
  · obtain ⟨prev, -, succ, -, c, hc, rfl, -⟩ := h
    obtain rfl := removed hc
    exact ⟨_, rfl, rfl, Or.inl rfl, fun x hx => absurd hx hinternal.1⟩

end Master

namespace Repair

variable {s s' s₀ : Repair P} {l : RepairLabel P}

/-- No server is listed twice. -/
def Listed (s : Repair P) : Prop :=
  ∀ id chain, s.master.bankChains.lookup id = some chain → chain.servers.Nodup

omit [DecidableEq P] in
lemma Listed.setChain {bankId : String} {chain : BankServerChain P} (h : s.Listed)
    (hs' : s'.master = s.master.setChain bankId chain) (hnodup : chain.servers.Nodup) : s'.Listed := by
  intro id c hc
  rw [hs', Master.lookup_setChain] at hc
  split_ifs at hc
  · obtain rfl := Option.some.inj hc
    exact hnodup
  · exact h id c hc

/-- The handlers of acknowledgements after one chain has been replaced. -/
lemma acksHandled_setChain {bankId : String} {chain chain' : BankServerChain P} (h : s.AcksHandled)
    (hlookup : s.master.bankChains.lookup bankId = some chain)
    (hs' : s'.master = s.master.setChain bankId chain') (hacks : s'.acks = s.acks) :
    s'.AcksHandled ↔ ∀ a ∈ s.acks, a.1 = bankId → (a.2.1 ∈ chain.servers ∧ a.2.1 ≠ chain.head) →
      a.2.1 ∈ chain'.servers ∧ a.2.1 ≠ chain'.head := by
  rw [AcksHandled, hacks]
  apply forall₂_congr
  intro a ha
  have hold := Master.ackNewPrevServer_isSome_iff.mp (h a ha)
  rw [Master.ackNewPrevServer_isSome_iff, hs', Master.lookup_setChain]
  by_cases hbank : a.1 = bankId
  · rw [hbank, hlookup] at hold
    obtain ⟨c, hc, hold⟩ := hold
    obtain rfl := Option.some.inj hc
    simp [hbank, hold]
  · rw [if_neg hbank]
    exact iff_of_true hold fun heq => absurd heq hbank

/-- What a step does to the chains and to the acknowledgements on their way. -/
inductive StepCase (s : Repair P) : RepairLabel P → Repair P → Prop where
  | detect {bankId node s' chain chain'} (lookup : s.master.bankChains.lookup bankId = some chain)
      (set : s'.master = s.master.setChain bankId chain') (acks : s'.acks = s.acks)
      (servers : chain'.servers = chain.servers.erase node)
      (head : chain'.head = chain.head ∨ node = chain.head ∧ chain.succServer node = some chain'.head)
      (next : ∀ x, node = chain.head → chain.succServer node = some x → chain'.head = x) :
      StepCase s (.detect bankId node) s'
  | answer {bankId server sn s'} (master : s'.master = s.master)
      (acks : s'.acks = s.acks ++ [(bankId, server, sn)]) : StepCase s (.answer bankId server sn) s'
  | ack {bankId server sn s'} (master : s'.master = s.master)
      (acks : s'.acks = s.acks.erase (bankId, server, sn)) : StepCase s (.ack bankId server sn) s'
  | join {bankId server s' chain chain'} (lookup : s.master.bankChains.lookup bankId = some chain)
      (set : s'.master = s.master.setChain bankId chain') (acks : s'.acks = s.acks)
      (fresh : server ∉ chain.servers) (servers : chain'.servers = chain.servers ++ [server])
      (head : chain'.head = chain.head) : StepCase s (.join bankId server) s'
  | ready {bankId server s' chain chain'} (lookup : s.master.bankChains.lookup bankId = some chain)
      (set : s'.master = s.master.setChain bankId chain') (acks : s'.acks = s.acks)
      (servers : chain'.servers = chain.servers) (head : chain'.head = chain.head) :
      StepCase s (.ready bankId server) s'

theorem step_cases (hs : s.step l = some s') : StepCase s l s' := by
  cases l with
  | detect bankId node =>
    simp only [step, Option.bind_eq_bind, Option.bind_eq_some_iff, Option.some.injEq, Prod.exists] at hs
    obtain ⟨m, out, hcrash, rfl⟩ := hs
    cases hlookup : s.master.bankChains.lookup bankId with
    | none => simp [Master.notifyCrash, hlookup] at hcrash
    | some chain =>
      obtain ⟨chain', rfl, hservers, hhead, hnext⟩ := Master.notifyCrash_chain hlookup hcrash
      exact .detect hlookup rfl rfl hservers hhead hnext
  | answer bankId server sn =>
    simp only [step] at hs
    split_ifs at hs
    obtain rfl := Option.some.inj hs
    exact .answer rfl rfl
  | ack bankId server sn =>
    simp only [step] at hs
    split_ifs at hs
    simp only [Option.bind_eq_bind, Option.bind_eq_some_iff, Option.some.injEq] at hs
    obtain ⟨_, -, rfl⟩ := hs
    exact .ack rfl rfl
  | join bankId server =>
    simp only [step, Option.bind_eq_bind, Option.bind_eq_some_iff] at hs
    obtain ⟨chain, hlookup, hs⟩ := hs
    split_ifs at hs with hfresh
    simp only [Master.joinChainRequest, hlookup, Option.bind_eq_bind, Option.bind_some,
      Option.some.injEq] at hs
    obtain rfl := hs
    exact .join hlookup rfl rfl hfresh rfl rfl
  | ready bankId server =>
    simp only [step, Master.newTailReady, Option.bind_eq_bind, Option.bind_eq_some_iff, Option.some.injEq,
      Prod.exists] at hs
    obtain ⟨m, out, ⟨chain, hlookup, newTail, -, hready⟩, rfl⟩ := hs
    split_ifs at hready
    obtain ⟨rfl, -⟩ := Prod.mk.inj (Option.some.inj hready)
    exact .ready hlookup rfl rfl rfl rfl

lemma Listed.step (h : s.Listed) (hcase : StepCase s l s') : s'.Listed := by
  cases hcase with
  | detect lookup set acks servers head next =>
    refine h.setChain set ?_
    rw [servers]
    exact (h _ _ lookup).erase _
  | answer master acks => exact fun id c hc => h id c (master ▸ hc)
  | ack master acks => exact fun id c hc => h id c (master ▸ hc)
  | join lookup set acks fresh servers head =>
    refine h.setChain set ?_
    rw [servers, List.nodup_append]
    refine ⟨h _ _ lookup, List.nodup_singleton _, ?_⟩
    rintro a ha b hb rfl
    exact fresh (List.mem_singleton.mp hb ▸ ha)
  | ready lookup set acks servers head =>
    refine h.setChain set ?_
    rw [servers]
    exact h _ _ lookup

/-- One step keeps the handlers from failing exactly under the guard. -/
lemma acksHandled_step_iff (hlisted : s.Listed) (h : s.AcksHandled) (hcase : StepCase s l s') :
    s'.AcksHandled ↔ s.Undisturbed l := by
  cases hcase with
  | @detect bankId node _ chain chain' lookup set acks servers head next =>
    have hold (a : String × P × ℕ) (ha : a ∈ s.acks) (hbank : a.1 = bankId) :
        a.2.1 ∈ chain.servers ∧ a.2.1 ≠ chain.head := by
      obtain ⟨c, hc, hlive⟩ := Master.ackNewPrevServer_isSome_iff.mp (h a ha)
      rw [hbank, lookup] at hc
      obtain rfl := Option.some.inj hc
      exact hlive
    rw [acksHandled_setChain h lookup set acks, Undisturbed, lookup]
    simp only [Option.mem_def, Option.some.injEq, forall_eq']
    apply forall₃_congr
    intro a ha hbank
    obtain ⟨hmem, hhead⟩ := hold a ha hbank
    rw [servers, (hlisted _ _ lookup).mem_erase_iff]
    constructor
    · intro hnew
      obtain ⟨⟨hne, -⟩, hhead'⟩ := hnew ⟨hmem, hhead⟩
      exact ⟨hne, fun hnode hsucc => hhead' (next _ hnode hsucc).symm⟩
    · rintro ⟨hne, hsucc⟩ -
      refine ⟨⟨hne, hmem⟩, fun heq => ?_⟩
      rcases head with hsame | ⟨hnode, hnew⟩
      · exact hhead (heq.trans hsame)
      · exact hsucc hnode (heq ▸ hnew)
  | @answer bankId server sn _ master acks =>
    rw [AcksHandled, acks, master, List.forall_mem_append]
    constructor
    · intro hnew
      exact Master.ackNewPrevServer_isSome_iff.mp (hnew.2 _ (List.mem_singleton_self _))
    · intro hlive
      refine ⟨h, fun a ha => ?_⟩
      rw [List.mem_singleton.mp ha]
      exact Master.ackNewPrevServer_isSome_iff.mpr hlive
  | ack master acks =>
    refine iff_of_true (fun a ha => ?_) trivial
    rw [acks] at ha
    rw [master]
    exact h a (List.mem_of_mem_erase ha)
  | join lookup set acks fresh servers head =>
    refine iff_of_true ?_ trivial
    rw [acksHandled_setChain h lookup set acks, servers, head]
    exact fun a _ _ hlive => ⟨List.mem_append_left _ hlive.1, hlive.2⟩
  | ready lookup set acks servers head =>
    refine iff_of_true ?_ trivial
    rw [acksHandled_setChain h lookup set acks, servers, head]
    exact fun a _ _ hlive => hlive

/-! ### Runs -/

/-- From chains that list no server twice, every acknowledgement on its way is handled without a failure as
long as the guard holds, and the first step that breaks the guard makes one fail. -/
theorem acks_handled_iff {m : Master P}
    (hm : ∀ id chain, m.bankChains.lookup id = some chain → chain.servers.Nodup)
    (hrun : Machine.Reach step Undisturbed { master := m } s) :
    s.AcksHandled ∧ ∀ l s', s.step l = some s' → (s'.AcksHandled ↔ s.Undisturbed l) := by
  have h : s.Listed ∧ s.AcksHandled := by
    refine hrun.invariant (I := fun s => s.Listed ∧ s.AcksHandled) ⟨hm, by rintro a ⟨⟩⟩ ?_
    rintro s l s' ⟨hlisted, hacks⟩ hl hs
    have hcase := step_cases hs
    exact ⟨hlisted.step hcase, (acksHandled_step_iff hlisted hacks hcase).mpr hl⟩
  exact ⟨h.2, fun l s' hs => acksHandled_step_iff h.1 h.2 (step_cases hs)⟩

/-- A bank with the chain of the processes 1 to 4. -/
def sampleMaster : Master ℕ where
  bankChains := (∅ : AList fun _ : String => BankServerChain ℕ).insert "BOA"
    { servers := [1, 2, 3, 4], head := 1, tail := 4 }
  clients := [100]

lemma sampleMaster_nodup (id : String) (chain : BankServerChain ℕ)
    (h : sampleMaster.bankChains.lookup id = some chain) : chain.servers.Nodup := by
  simp only [sampleMaster] at h
  by_cases hid : id = "BOA"
  · subst hid
    rw [AList.lookup_insert] at h
    obtain rfl := Option.some.inj h
    decide
  · rw [AList.lookup_insert_ne hid] at h
    cases h

/-- Server 2 has crashed, server 3 has answered, and the tail crashes. -/
def sampleRepairs : List (RepairLabel ℕ) := [.detect "BOA" 2, .answer "BOA" 3 5, .detect "BOA" 4]

theorem acks_handled_iff_sample :
    (Machine.after step Undisturbed { master := sampleMaster } sampleRepairs).AcksHandled ∧
    ∀ l s', (Machine.after step Undisturbed { master := sampleMaster } sampleRepairs).step l = some s' →
      (s'.AcksHandled ↔
        (Machine.after step Undisturbed { master := sampleMaster } sampleRepairs).Undisturbed l) :=
  acks_handled_iff sampleMaster_nodup (Machine.reach_after (by decide +kernel))

/-- Server 2 crashes and server 3 acknowledges its new predecessor, server 1. When server 1 crashes before
the master handles that, server 3 is the head. -/
theorem ack_of_new_head_fails : ¬ ∀ s, Machine.Reach step (fun _ _ => True) { master := sampleMaster } s →
    s.AcksHandled := by
  intro h
  have hrun : Machine.Reach step (fun _ _ => True) { master := sampleMaster }
      (Machine.after step (fun _ _ => True) { master := sampleMaster }
        [.detect "BOA" 2, .answer "BOA" 3 5, .detect "BOA" 1]) := Machine.reach_after (by decide +kernel)
  exact absurd (h _ hrun ("BOA", 3, 5) (by decide +kernel)) (by decide +kernel)

end Repair

end ChainReplication.DistAlgo
