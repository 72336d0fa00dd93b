import ChainReplication.Master.Properties
import ChainReplication.Library.Machine

/-!
# The master's record over joins and crashes

The record of one bank from `read_config_master` on, while servers join, finish joining and crash in
any order. The steps of the other banks are steps too; they leave the record alone.
-/

namespace ChainReplication

namespace BankServerChain

variable {bsc : BankServerChain} {node x p : Address} {l l₁ l₂ : List Address}

/-- The loop of `read_config_master` over `n` servers: the one with `chainno` 1 is the head, the one
with `chainno` `n` the tail. -/
def readServer (n : ℕ) (bsc : BankServerChain) (server : Address × ℕ) : BankServerChain :=
  let bsc := bsc.appendNode server.1
  let bsc := if server.2 = 1 then { bsc with head := server.1 } else bsc
  if server.2 = n then { bsc with tail := server.1 } else bsc

/-- The record that `read_config_master` builds from the servers of a bank, each with its
`chainno`. -/
def readConfig (servers : List (Address × ℕ)) : BankServerChain :=
  servers.foldl (readServer servers.length) { head := .empty, tail := .empty, serverChain := [] }

/-- The server that is joining. -/
def joiner (bsc : BankServerChain) : List Address :=
  if bsc.extending = .empty then [] else [bsc.extending]

/-- The chain is free of duplicates and starts with the head, and the tail is its last element or the
one before a joining server. -/
structure Ordered (bsc : BankServerChain) : Prop where
  nodup : bsc.serverChain.Nodup
  head : bsc.serverChain.head? = some bsc.head
  ends : bsc.extending = .empty ∧ bsc.serverChain.getLast? = some bsc.tail ∨
    bsc.extending ≠ .empty ∧ ∃ l, bsc.serverChain = l ++ [bsc.tail, bsc.extending]

/-- The servers that are not joining, `l`, between the head and the tail, and the joining server. -/
structure Shape (bsc : BankServerChain) (l : List Address) : Prop where
  chain : bsc.serverChain = l ++ bsc.joiner
  nodup : bsc.serverChain.Nodup
  notEmpty : .empty ∉ bsc.serverChain
  head : l.head? = some bsc.head
  tail : l.getLast? = some bsc.tail

lemma Shape.ordered (h : bsc.Shape l) : bsc.Ordered := by
  have hne : l ≠ [] := by
    rintro rfl
    cases h.head
  obtain ⟨l', hl'⟩ := List.getLast?_eq_some_iff.mp h.tail
  refine ⟨h.nodup, ?_, ?_⟩
  · rw [h.chain, List.head?_append_of_ne_nil _ hne, h.head]
  · by_cases hext : bsc.extending = .empty
    · refine Or.inl ⟨hext, ?_⟩
      rw [h.chain, joiner, if_pos hext, List.append_nil, h.tail]
    · refine Or.inr ⟨hext, l', ?_⟩
      rw [h.chain, joiner, if_neg hext, hl', List.append_assoc]
      rfl

lemma Shape.head_mem (h : bsc.Shape l) : bsc.head ∈ bsc.serverChain := by
  rw [h.chain]
  exact List.mem_append_left _ (List.mem_of_head? h.head)

lemma Shape.filter (h : bsc.Shape l) : bsc.serverChain.filter (· ≠ bsc.extending) = l := by
  have hnodup := h.nodup
  have hempty := h.notEmpty
  rw [h.chain] at hnodup hempty ⊢
  rw [List.filter_append]
  have hl : l.filter (· ≠ bsc.extending) = l := by
    rw [List.filter_eq_self]
    intro a ha
    rw [decide_eq_true_eq]
    rintro rfl
    by_cases hext : bsc.extending = .empty
    · rw [hext] at ha
      exact hempty (List.mem_append_left _ ha)
    · rw [joiner, if_neg hext] at hnodup
      exact (List.nodup_append.mp hnodup).2.2 _ ha _ List.mem_cons_self rfl
  have hjoiner : bsc.joiner.filter (· ≠ bsc.extending) = [] := by
    rw [joiner]
    split_ifs <;> simp
  rw [hl, hjoiner, List.append_nil]

/-! ### Neighbours -/

/-- In a chain without duplicates nothing else equals the element in the middle. -/
lemma notMem_of_split (h : (l₁ ++ node :: l₂).Nodup) : node ∉ l₁ ∧ node ∉ l₂ := by
  obtain ⟨-, hnode, hne⟩ := List.nodup_append.mp h
  exact ⟨fun hmem => hne node hmem node List.mem_cons_self rfl, (List.nodup_cons.mp hnode).1⟩

lemma removeNode_of_split (h : bsc.serverChain.Nodup) (hl : bsc.serverChain = l₁ ++ node :: l₂) :
    bsc.removeNode node = some { bsc with serverChain := l₁ ++ l₂ } := by
  rw [hl] at h
  rw [removeNode, if_pos (by simp [hl]), hl, erase_split h]

lemma nextOf_of_split (h : node ∉ l₁) : nextOf node (l₁ ++ node :: x :: l₂) = some x := by
  induction l₁ with
  | nil => simp [nextOf]
  | cons a l₁ ih =>
    have ha : a ≠ node := fun heq => h (heq ▸ List.mem_cons_self)
    rw [List.cons_append, nextOf, if_neg ha]
    exact ih fun hmem => h (List.mem_cons_of_mem _ hmem)

lemma prevOf_of_split (h : node ∉ l₁ ++ [p]) : prevOf node (l₁ ++ p :: node :: l₂) = some p := by
  induction l₁ with
  | nil =>
    have hne : p ≠ node := by
      rintro rfl
      simp at h
    simp [prevOf, hne]
  | cons a l₁ ih =>
    have ha : a ≠ node := fun heq => h (heq ▸ List.mem_cons_self)
    have hrest := ih fun hmem => h (List.mem_cons_of_mem _ hmem)
    cases l₁ with
    | nil =>
      have hp : p ≠ node := by
        rintro rfl
        simp at h
      have hpn : prevOf node (p :: node :: l₂) = some p := hrest
      rw [List.cons_append, List.nil_append, prevOf, if_neg ha, if_neg hp, hpn]
    | cons b l₁ =>
      have hb : b ≠ node := fun heq => h (heq ▸ by simp)
      rw [List.cons_append, List.cons_append, prevOf, if_neg ha, if_neg hb]
      exact hrest

lemma Shape.ne_extending (h : bsc.Shape l) (hmem : node ∈ l) : node ≠ bsc.extending := by
  rw [← h.filter] at hmem
  simpa using List.of_mem_filter hmem

lemma Shape.nodup_servers (h : bsc.Shape l) : l.Nodup := by
  have hnodup := h.nodup
  rw [h.chain] at hnodup
  exact (List.nodup_append.mp hnodup).1

lemma Shape.ne_head (h : bsc.Shape (l₁ ++ node :: l₂)) (hne : l₁ ≠ []) : node ≠ bsc.head := by
  rintro rfl
  have hhead := h.head
  rw [List.head?_append_of_ne_nil _ hne] at hhead
  exact (notMem_of_split h.nodup_servers).1 (List.mem_of_head? hhead)

lemma Shape.ne_tail (h : bsc.Shape (l₁ ++ node :: l₂)) (hne : l₂ ≠ []) : node ≠ bsc.tail := by
  rintro rfl
  have htail := h.tail
  rw [List.getLast?_append_of_ne_nil _ (by simp), List.getLast?_cons_of_ne_nil hne] at htail
  exact (notMem_of_split h.nodup_servers).2 (List.mem_of_getLast? htail)

/-- The record without a server that was not joining. -/
lemma Shape.remove (h : bsc.Shape (l₁ ++ node :: l₂)) {head tail : Address}
    (hhead : (l₁ ++ l₂).head? = some head) (htail : (l₁ ++ l₂).getLast? = some tail) :
    Shape { bsc with head := head, tail := tail, serverChain := l₁ ++ l₂ ++ bsc.joiner }
      (l₁ ++ l₂) := by
  have hsub : List.Sublist (l₁ ++ l₂ ++ bsc.joiner) bsc.serverChain := by
    rw [h.chain]
    exact ((List.Sublist.refl l₁).append (List.sublist_cons_self node l₂)).append
      (List.Sublist.refl _)
  exact ⟨rfl, h.nodup.sublist hsub, fun hmem => h.notEmpty (hsub.subset hmem), hhead, htail⟩

lemma foldl_readServer {servers : List (Address × ℕ)} {k : ℕ}
    (horder : servers.map Prod.snd = List.range' (k + 1) servers.length) (bsc : BankServerChain) :
    servers.foldl (readServer (k + servers.length)) bsc = { bsc with
      head := if k = 0 then (servers.map Prod.fst).headD bsc.head else bsc.head
      tail := (servers.map Prod.fst).getLastD bsc.tail
      serverChain := bsc.serverChain ++ servers.map Prod.fst } := by
  induction servers generalizing k bsc with
  | nil => simp
  | cons server servers ih =>
    obtain ⟨a, n⟩ := server
    rw [List.map_cons, List.length_cons, List.range'_succ, List.cons.injEq] at horder
    obtain ⟨rfl, horder⟩ := horder
    have hlength : k + (servers.length + 1) = k + 1 + servers.length := by omega
    rw [List.foldl_cons, List.length_cons, hlength, ih horder]
    cases servers with
    | nil => by_cases hk : k = 0 <;> simp [readServer, appendNode, hk]
    | cons server' servers =>
      by_cases hk : k = 0 <;> simp [readServer, appendNode, hk]

/-- The record of a chain whose servers are listed in chain order. -/
lemma readConfig_eq {servers : List (Address × ℕ)}
    (horder : servers.map Prod.snd = List.range' 1 servers.length) :
    readConfig servers = {
      head := (servers.map Prod.fst).headD .empty
      tail := (servers.map Prod.fst).getLastD .empty
      serverChain := servers.map Prod.fst } := by
  have hfold := foldl_readServer (k := 0) horder { head := .empty, tail := .empty, serverChain := [] }
  rw [Nat.zero_add] at hfold
  rw [readConfig, hfold]
  simp

lemma readConfig_shape {servers : List (Address × ℕ)}
    (horder : servers.map Prod.snd = List.range' 1 servers.length) (hne : servers ≠ [])
    (hnodup : (servers.map Prod.fst).Nodup) (hempty : .empty ∉ servers.map Prod.fst) :
    (readConfig servers).Shape (servers.map Prod.fst) := by
  rw [readConfig_eq horder]
  have hne : servers.map Prod.fst ≠ [] := by simpa using hne
  obtain ⟨a, l, hl⟩ := List.exists_cons_of_ne_nil hne
  refine ⟨(List.append_nil _).symm, hnodup, hempty, ?_, ?_⟩
  · rw [hl]
    rfl
  · simp [hl, List.getLastD_eq_getLast?, List.getLast?_cons]

end BankServerChain

namespace Master

open BankServerChain

variable {m m' : Master} {bankId : String} {node : Address} {bsc bsc' : BankServerChain}
  {l l₁ l₂ : List Address} {out : List Packet}

/-! ### The steps -/

/-- What changes the records. -/
inductive ChainEvent where
  | join (msg : Join)
  | extendFinish (msg : ExtendFinish)
  | crash (bankId : String) (node : Address)
deriving DecidableEq

/-- The bank that an event is about. -/
def ChainEvent.bank : ChainEvent → String
  | .join msg => msg.bankId
  | .extendFinish msg => msg.bankId
  | .crash bankId _ => bankId

/-- The handler of an event. -/
def handleEvent (m : Master) : ChainEvent → Option (Master × List Packet)
  | .join msg => m.handleJoin msg
  | .extendFinish msg => m.handleExtendFinish msg
  | .crash bankId node => m.notifyCrash bankId node

/-- One step: the state that the handler leaves, if no assertion fails. -/
def step (m : Master) (ev : ChainEvent) : Option Master := (m.handleEvent ev).map Prod.fst

/-- An event that the master is to expect of a bank with the record `bsc`: a server outside the chain
joins while none is joining, the joining server reports that it is done, or a listed server has
crashed that is not the only one but the joining server. -/
def ChainEvent.ExpectedBy (bsc : BankServerChain) : ChainEvent → Prop
  | .join msg =>
    msg.serverAddr ∉ bsc.serverChain ∧ msg.serverAddr ≠ .empty ∧ bsc.extending = .empty
  | .extendFinish msg => msg.serverAddr = bsc.extending ∧ bsc.extending ≠ .empty
  | .crash _ node =>
    node ∈ bsc.serverChain ∧ bsc.serverChain.filter (· ≠ bsc.extending) ≠ [node]

instance (bsc : BankServerChain) (ev : ChainEvent) : Decidable (ev.ExpectedBy bsc) :=
  match ev with
  | .join msg => inferInstanceAs (Decidable
      (msg.serverAddr ∉ bsc.serverChain ∧ msg.serverAddr ≠ .empty ∧ bsc.extending = .empty))
  | .extendFinish msg =>
    inferInstanceAs (Decidable (msg.serverAddr = bsc.extending ∧ bsc.extending ≠ .empty))
  | .crash _ node => inferInstanceAs (Decidable
      (node ∈ bsc.serverChain ∧ bsc.serverChain.filter (· ≠ bsc.extending) ≠ [node]))

/-- The events of the bank `bankId` are expected; those of other banks are arbitrary. -/
def Expected (bankId : String) (m : Master) (ev : ChainEvent) : Prop :=
  ev.bank = bankId → ∀ bsc ∈ m.bankServerChain.lookup bankId, ev.ExpectedBy bsc

instance (bankId : String) (m : Master) (ev : ChainEvent) : Decidable (Expected bankId m ev) :=
  inferInstanceAs (Decidable (_ → _))

/-- The addresses in a notification that sets a role or a link. -/
def announced : Packet → List Address
  | .tcp target .toBeHead => [target]
  | .tcp target .toBeTail => [target]
  | .tcp target (.newPreServer pre) => [target, pre]
  | .tcp target .extendFail => [target]
  | _ => []

/-- The handler of an event of the bank `bankId` returns, with this record, and every server that it
announces is in the chain. -/
def Returns (m : Master) (ev : ChainEvent) (bankId : String) (bsc' : BankServerChain) : Prop :=
  ∃ m' out, m.handleEvent ev = some (m', out) ∧ m'.bankServerChain.lookup bankId = some bsc' ∧
    ∀ p ∈ out, announced p ⊆ bsc'.serverChain

lemma lookup_setChain : (m.setChain bankId bsc).bankServerChain.lookup bankId = some bsc := by
  rw [setChain, AList.lookup_insert]

lemma announced_notifyClients {msg : Message} {p : Packet} (hp : p ∈ m.notifyClients msg) :
    announced p = [] := by
  obtain ⟨a, -, rfl⟩ := List.mem_map.mp hp
  rfl

lemma announced_notifyServers {n : Notify} {p : Packet} (hp : p ∈ m.notifyServers (.newHead n)) :
    announced p = [] := by
  obtain ⟨e, -, he⟩ := List.mem_flatMap.mp hp
  obtain ⟨a, -, rfl⟩ := List.mem_map.mp he
  rfl

/-- `EXTEND_SERVER` goes to the server that is the last of the chain when the `JOIN` arrives. -/
lemma handleJoin_of_last {msg : Join} {last : Address}
    (hlookup : m.bankServerChain.lookup msg.bankId = some bsc) (hhead : bsc.head ∈ bsc.serverChain)
    (hnew : msg.serverAddr ∉ bsc.serverChain) (hlast : bsc.serverChain.getLast? = some last) :
    m.handleJoin msg = some (m.setChain msg.bankId
      { bsc.appendNode msg.serverAddr with extending := msg.serverAddr },
        [.tcp last (.extendServer msg.serverAddr)]) := by
  obtain ⟨l, hl⟩ := List.getLast?_eq_some_iff.mp hlast
  have hne : msg.serverAddr ≠ bsc.head := by
    rintro heq
    exact hnew (heq ▸ hhead)
  have hpre : (bsc.appendNode msg.serverAddr).preServerAddr msg.serverAddr = some last := by
    have hadd : (bsc.appendNode msg.serverAddr).serverChain = l ++ last :: msg.serverAddr :: [] := by
      rw [appendNode, hl, List.append_assoc]
      rfl
    have hprev : prevOf msg.serverAddr (l ++ last :: msg.serverAddr :: []) = some last := by
      apply prevOf_of_split
      rwa [← hl]
    rw [← hadd] at hprev
    exact (if_pos hne).trans hprev
  rw [handleJoin, hlookup]
  simp only [Option.bind_eq_bind, Option.bind_some, hpre]

lemma handleJoin_returns {msg : Join} (h : bsc.Shape l)
    (hlookup : m.bankServerChain.lookup msg.bankId = some bsc)
    (hev : (ChainEvent.join msg).ExpectedBy bsc) :
    ∃ bsc', Returns m (.join msg) msg.bankId bsc' ∧ bsc'.Shape l := by
  obtain ⟨hnew, hempty, hext⟩ := hev
  have hchain : bsc.serverChain = l := by rw [h.chain, joiner, if_pos hext, List.append_nil]
  refine ⟨{ bsc.appendNode msg.serverAddr with extending := msg.serverAddr },
    ⟨m.setChain msg.bankId { bsc.appendNode msg.serverAddr with extending := msg.serverAddr },
      [.tcp bsc.tail (.extendServer msg.serverAddr)], ?_, lookup_setChain, ?_⟩, ?_⟩
  · exact handleJoin_of_last hlookup h.head_mem hnew (hchain ▸ h.tail)
  · simp [announced]
  · refine ⟨?_, ?_, ?_, h.head, h.tail⟩
    · rw [joiner, if_neg hempty, appendNode, hchain]
    · rw [appendNode, List.nodup_append]
      refine ⟨h.nodup, List.nodup_singleton _, ?_⟩
      rintro a ha b hb rfl
      exact hnew (List.mem_singleton.mp hb ▸ ha)
    · rw [appendNode, List.mem_append, List.mem_singleton, not_or]
      exact ⟨h.notEmpty, hempty.symm⟩

lemma handleExtendFinish_returns {msg : ExtendFinish} (h : bsc.Shape l)
    (hlookup : m.bankServerChain.lookup msg.bankId = some bsc)
    (hev : (ChainEvent.extendFinish msg).ExpectedBy bsc) :
    ∃ bsc', Returns m (.extendFinish msg) msg.bankId bsc' ∧ bsc'.Shape (l ++ [msg.serverAddr]) := by
  obtain ⟨heq, hext⟩ := hev
  have hchain : bsc.serverChain = l ++ [msg.serverAddr] := by
    rw [h.chain, joiner, if_neg hext, heq]
  refine ⟨{ bsc with tail := msg.serverAddr, extending := .empty }, ?_, ?_⟩
  · rw [Returns, handleEvent, handleExtendFinish, hlookup]
    refine ⟨_, _, rfl, lookup_setChain, fun p hp => ?_⟩
    rw [announced_notifyClients hp]
    exact List.nil_subset _
  · refine ⟨?_, h.nodup, h.notEmpty, ?_, by simp⟩
    · rw [joiner, if_pos rfl, List.append_nil, hchain]
    · have hne : l ≠ [] := by
        rintro rfl
        cases h.head
      rw [List.head?_append_of_ne_nil _ hne, h.head]

/-! ### Crashes -/

/-- The chain around a server that crashes. -/
lemma crash_split (h : bsc.Shape l) (hmem : node ∈ bsc.serverChain)
    (honly : bsc.serverChain.filter (· ≠ bsc.extending) ≠ [node]) :
    (∃ newHead l₂, l = node :: newHead :: l₂) ∨ (∃ l₁ newTail, l = l₁ ++ [newTail, node]) ∨
      (∃ l₁ pre succ l₂, l = l₁ ++ pre :: node :: succ :: l₂) ∨
        node = bsc.extending ∧ bsc.extending ≠ .empty := by
  rw [h.chain, List.mem_append] at hmem
  rcases hmem with hmem | hmem
  · obtain ⟨l₁, l₂, hl⟩ := List.append_of_mem hmem
    rcases List.eq_nil_or_concat l₁ with rfl | ⟨l₁, pre, rfl⟩
    · cases l₂ with
      | cons newHead l₂ => exact Or.inl ⟨newHead, l₂, hl⟩
      | nil =>
        rw [h.filter, hl] at honly
        exact absurd rfl honly
    · cases l₂ with
      | nil => exact Or.inr (Or.inl ⟨l₁, pre, by simpa using hl⟩)
      | cons succ l₂ => exact Or.inr (Or.inr (Or.inl ⟨l₁, pre, succ, l₂, by simpa using hl⟩))
  · rw [joiner] at hmem
    split_ifs at hmem with hext
    · simp at hmem
    · exact Or.inr (Or.inr (Or.inr ⟨List.mem_singleton.mp hmem, hext⟩))

lemma notifyCrash_head_returns {newHead : Address} (h : bsc.Shape (node :: newHead :: l))
    (hlookup : m.bankServerChain.lookup bankId = some bsc) :
    ∃ bsc', Returns m (.crash bankId node) bankId bsc' ∧ bsc'.Shape (newHead :: l) := by
  have hsplit : bsc.Shape ([] ++ node :: newHead :: l) := h
  have hchain : bsc.serverChain = [] ++ node :: newHead :: (l ++ bsc.joiner) := h.chain
  have hhead : node = bsc.head := by simpa using h.head
  have htail : node ≠ bsc.tail := hsplit.ne_tail (by simp)
  have hsucc : bsc.succServerAddr node = some newHead := by
    rw [succServerAddr, if_pos htail, hchain]
    exact nextOf_of_split (by simp)
  have hremove : { bsc with head := newHead }.removeNode node =
      some { bsc with head := newHead, serverChain := newHead :: l ++ bsc.joiner } :=
    @removeNode_of_split { bsc with head := newHead } node [] (newHead :: (l ++ bsc.joiner))
      h.nodup hchain
  have htail' : (newHead :: l).getLast? = some bsc.tail := by
    have htail := h.tail
    rwa [List.getLast?_cons_cons] at htail
  refine ⟨{ bsc with head := newHead, serverChain := newHead :: l ++ bsc.joiner }, ?_,
    hsplit.remove rfl htail'⟩
  rw [Returns, handleEvent, notifyCrash, hlookup]
  simp only [Option.bind_eq_bind, Option.bind_some, if_pos (And.intro hhead htail), hsucc, hremove]
  refine ⟨_, _, rfl, lookup_setChain, ?_⟩
  intro p hp
  rcases List.mem_cons.mp hp with rfl | hp
  · simp [announced]
  · rcases List.mem_append.mp hp with hp | hp
    · rw [announced_notifyClients hp]
      exact List.nil_subset _
    · rw [announced_notifyServers hp]
      exact List.nil_subset _

lemma notifyCrash_tail_returns {newTail : Address} (h : bsc.Shape (l ++ [newTail, node]))
    (hlookup : m.bankServerChain.lookup bankId = some bsc) :
    ∃ bsc', Returns m (.crash bankId node) bankId bsc' ∧ bsc'.Shape (l ++ [newTail]) := by
  have hsplit : bsc.Shape ((l ++ [newTail]) ++ node :: []) := by
    rwa [List.append_assoc]
  have hchain : bsc.serverChain = (l ++ [newTail]) ++ node :: bsc.joiner := by
    rw [hsplit.chain, List.append_assoc]
    rfl
  have hnotMem := (notMem_of_split (hchain ▸ h.nodup)).1
  have hhead : node ≠ bsc.head := hsplit.ne_head (by simp)
  have htail : node = bsc.tail := by simpa using h.tail
  have hpre : bsc.preServerAddr node = some newTail := by
    rw [preServerAddr, if_pos hhead, hchain, List.append_assoc]
    exact prevOf_of_split hnotMem
  have hremove : { bsc with tail := newTail }.removeNode node =
      some { bsc with tail := newTail, serverChain := l ++ [newTail] ++ bsc.joiner } :=
    removeNode_of_split h.nodup hchain
  have hhead' : (l ++ [newTail] ++ []).head? = some bsc.head := by
    have hhead := hsplit.head
    rw [List.head?_append_of_ne_nil _ (by simp)] at hhead
    rwa [List.append_nil]
  have htail' : (l ++ [newTail] ++ []).getLast? = some newTail := by simp
  have hshape := hsplit.remove hhead' htail'
  rw [List.append_nil] at hshape
  refine ⟨{ bsc with tail := newTail, serverChain := l ++ [newTail] ++ bsc.joiner }, ?_, hshape⟩
  rw [Returns, handleEvent, notifyCrash, hlookup]
  simp only [Option.bind_eq_bind, Option.bind_some, if_neg (not_and_of_not_left _ hhead),
    if_pos (And.intro hhead htail), hpre, hremove]
  refine ⟨_, _, rfl, lookup_setChain, ?_⟩
  intro p hp
  rcases List.mem_cons.mp hp with rfl | hp
  · simp [announced]
  · rcases List.mem_append.mp hp with hp | hp
    · rw [announced_notifyClients hp]
      exact List.nil_subset _
    · split_ifs at hp
      · simp at hp
      · rw [List.mem_singleton.mp hp]
        simp [announced]

lemma notifyCrash_internal_returns {pre succ : Address}
    (h : bsc.Shape (l₁ ++ pre :: node :: succ :: l₂))
    (hlookup : m.bankServerChain.lookup bankId = some bsc) :
    ∃ bsc', Returns m (.crash bankId node) bankId bsc' ∧ bsc'.Shape (l₁ ++ pre :: succ :: l₂) := by
  have hsplit : bsc.Shape ((l₁ ++ [pre]) ++ node :: succ :: l₂) := by
    rwa [List.append_assoc]
  have hchain : bsc.serverChain = (l₁ ++ [pre]) ++ node :: succ :: (l₂ ++ bsc.joiner) := by
    rw [hsplit.chain, List.append_assoc]
    rfl
  have hnotMem := notMem_of_split (hchain ▸ h.nodup)
  have hhead : node ≠ bsc.head := hsplit.ne_head (by simp)
  have htail : node ≠ bsc.tail := hsplit.ne_tail (by simp)
  have hext : node ≠ bsc.extending := h.ne_extending (by simp)
  have hsucc : bsc.succServerAddr node = some succ := by
    rw [succServerAddr, if_pos htail, hchain]
    exact nextOf_of_split hnotMem.1
  have hpre : bsc.preServerAddr node = some pre := by
    rw [preServerAddr, if_pos hhead, hchain, List.append_assoc]
    exact prevOf_of_split hnotMem.1
  have hremove : bsc.removeNode node =
      some { bsc with serverChain := l₁ ++ [pre] ++ succ :: (l₂ ++ bsc.joiner) } :=
    removeNode_of_split h.nodup hchain
  have hhead' : (l₁ ++ [pre] ++ succ :: l₂).head? = some bsc.head := by
    have hhead := hsplit.head
    rwa [List.head?_append_of_ne_nil _ (by simp)] at hhead ⊢
  have htail' : (l₁ ++ [pre] ++ succ :: l₂).getLast? = some bsc.tail := by
    have htail := hsplit.tail
    rw [List.getLast?_append_of_ne_nil _ (by simp), List.getLast?_cons_cons] at htail
    rwa [List.getLast?_append_of_ne_nil _ (by simp)]
  have hshape := hsplit.remove hhead' htail'
  rw [List.append_assoc l₁, List.singleton_append, List.append_assoc, List.cons_append,
    List.cons_append] at hshape
  refine ⟨_, ?_, hshape⟩
  rw [Returns, handleEvent, notifyCrash, hlookup]
  simp only [Option.bind_eq_bind, Option.bind_some, if_neg (not_and_of_not_left _ hhead),
    if_neg (not_and_of_not_right _ htail), if_pos (And.intro hhead (And.intro htail hext)), hpre,
    hsucc, hremove]
  refine ⟨_, _, rfl, ?_, ?_⟩
  · rw [lookup_setChain, List.append_assoc]
    rfl
  · simp [announced]

lemma notifyCrash_extending_returns (h : bsc.Shape l) (hnode : node = bsc.extending)
    (hext : bsc.extending ≠ .empty) (hlookup : m.bankServerChain.lookup bankId = some bsc) :
    ∃ bsc', Returns m (.crash bankId node) bankId bsc' ∧ bsc'.Shape l := by
  obtain ⟨l', hl⟩ := List.getLast?_eq_some_iff.mp h.tail
  have hchain : bsc.serverChain = l ++ node :: [] := by
    rw [h.chain, joiner, if_neg hext, hnode]
  have hnotMem := (notMem_of_split (hchain ▸ h.nodup)).1
  have hhead : node ≠ bsc.head := by
    rintro rfl
    exact hnotMem (List.mem_of_head? h.head)
  have htail : node ≠ bsc.tail := by
    rintro rfl
    exact hnotMem (List.mem_of_getLast? h.tail)
  have hpre : bsc.preServerAddr node = some bsc.tail := by
    rw [preServerAddr, if_pos hhead, hchain, hl, List.append_assoc]
    exact prevOf_of_split (hl ▸ hnotMem)
  have hremove : bsc.removeNode node = some { bsc with serverChain := l ++ [] } :=
    removeNode_of_split h.nodup hchain
  refine ⟨{ bsc with extending := .empty, serverChain := l }, ?_, ?_⟩
  · rw [Returns, handleEvent, notifyCrash, hlookup]
    simp only [Option.bind_eq_bind, Option.bind_some, if_neg (not_and_of_not_left _ hhead),
      if_neg (not_and_of_not_right _ htail), hpre, hremove]
    rw [if_neg fun hnot => hnot.2.2 hnode, if_pos hnode]
    refine ⟨_, _, rfl, ?_, ?_⟩
    · rw [lookup_setChain, List.append_nil]
    · intro p hp
      rw [List.mem_singleton.mp hp]
      simp [announced, List.mem_of_getLast? h.tail]
  · refine ⟨?_, h.nodup_servers, ?_, h.head, h.tail⟩
    · rw [joiner, if_pos rfl, List.append_nil]
    · intro hmem
      exact h.notEmpty (h.chain ▸ List.mem_append_left _ hmem)

/-- The handler of an expected event returns and keeps the shape of the record. -/
theorem returns_of_expected {ev : ChainEvent} (h : bsc.Shape l)
    (hlookup : m.bankServerChain.lookup ev.bank = some bsc) (hev : ev.ExpectedBy bsc) :
    ∃ bsc' l', Returns m ev ev.bank bsc' ∧ bsc'.Shape l' := by
  cases ev with
  | join msg =>
    obtain ⟨bsc', hreturns, hshape⟩ := handleJoin_returns h hlookup hev
    exact ⟨bsc', l, hreturns, hshape⟩
  | extendFinish msg =>
    obtain ⟨bsc', hreturns, hshape⟩ := handleExtendFinish_returns h hlookup hev
    exact ⟨bsc', _, hreturns, hshape⟩
  | crash bankId node =>
    rcases crash_split h hev.1 hev.2 with ⟨newHead, l₂, rfl⟩ | ⟨l₁, newTail, rfl⟩ |
      ⟨l₁, pre, succ, l₂, rfl⟩ | ⟨hnode, hext⟩
    · obtain ⟨bsc', hreturns, hshape⟩ := notifyCrash_head_returns h hlookup
      exact ⟨bsc', _, hreturns, hshape⟩
    · obtain ⟨bsc', hreturns, hshape⟩ := notifyCrash_tail_returns h hlookup
      exact ⟨bsc', _, hreturns, hshape⟩
    · obtain ⟨bsc', hreturns, hshape⟩ := notifyCrash_internal_returns h hlookup
      exact ⟨bsc', _, hreturns, hshape⟩
    · obtain ⟨bsc', hreturns, hshape⟩ := notifyCrash_extending_returns h hnode hext hlookup
      exact ⟨bsc', l, hreturns, hshape⟩

/-- A handler replaces the record of its bank. -/
lemma handleEvent_setChain {ev : ChainEvent} (h : m.handleEvent ev = some (m', out)) :
    ∃ bsc', m' = m.setChain ev.bank bsc' := by
  cases ev with
  | join msg =>
    simp only [handleEvent, handleJoin, Option.bind_eq_bind, Option.bind_eq_some_iff,
      Option.some.injEq, Prod.mk.injEq] at h
    obtain ⟨_, -, _, -, rfl, -⟩ := h
    exact ⟨_, rfl⟩
  | extendFinish msg =>
    simp only [handleEvent, handleExtendFinish, Option.bind_eq_bind, Option.bind_eq_some_iff,
      Option.some.injEq, Prod.mk.injEq] at h
    obtain ⟨_, -, rfl, -⟩ := h
    exact ⟨_, rfl⟩
  | crash bankId node =>
    simp only [handleEvent, notifyCrash, Option.bind_eq_bind, Option.bind_eq_some_iff] at h
    obtain ⟨bsc, -, h⟩ := h
    split_ifs at h
    · simp only [Option.bind_eq_some_iff, Option.some.injEq, Prod.mk.injEq] at h
      obtain ⟨_, -, _, -, rfl, -⟩ := h
      exact ⟨_, rfl⟩
    · simp only [Option.bind_eq_some_iff, Option.some.injEq, Prod.mk.injEq] at h
      obtain ⟨_, -, _, -, rfl, -⟩ := h
      exact ⟨_, rfl⟩
    · simp only [Option.bind_eq_some_iff, Option.some.injEq, Prod.mk.injEq] at h
      obtain ⟨_, -, _, -, _, -, rfl, -⟩ := h
      exact ⟨_, rfl⟩
    · simp only [Option.bind_eq_some_iff, Option.some.injEq, Prod.mk.injEq] at h
      obtain ⟨_, -, _, -, rfl, -⟩ := h
      exact ⟨_, rfl⟩

/-- The record of a bank over a run of expected events. -/
lemma shape_of_reach {m₀ : Master} {bsc₀ : BankServerChain} {l₀ : List Address}
    (h₀ : bsc₀.Shape l₀) (hlookup : m₀.bankServerChain.lookup bankId = some bsc₀)
    (hrun : Machine.Reach step (Expected bankId) m₀ m) :
    ∃ bsc l, m.bankServerChain.lookup bankId = some bsc ∧ bsc.Shape l := by
  refine hrun.invariant (I := fun m => ∃ bsc l, m.bankServerChain.lookup bankId = some bsc ∧
    bsc.Shape l) ⟨bsc₀, l₀, hlookup, h₀⟩ ?_
  rintro m ev m' ⟨bsc, l, hlookup, h⟩ hev hstep
  obtain ⟨⟨m'', out⟩, hhandle, rfl⟩ := Option.map_eq_some_iff.mp hstep
  by_cases hbank : ev.bank = bankId
  · subst hbank
    obtain ⟨bsc', l', ⟨m', out', hreturns, hlookup', -⟩, h'⟩ :=
      returns_of_expected h hlookup (hev rfl bsc hlookup)
    obtain ⟨rfl, -⟩ := Prod.mk.inj (Option.some.inj (hreturns.symm.trans hhandle))
    exact ⟨bsc', l', hlookup', h'⟩
  · obtain ⟨bsc', hset⟩ := handleEvent_setChain hhandle
    refine ⟨bsc, l, ?_, h⟩
    rw [hset, setChain, AList.lookup_insert_ne (Ne.symm hbank)]
    exact hlookup

/-- The record of a bank that `read_config_master` has built, after joins, finished joins and crashes
in any order, is ordered; and the handler of any event that may come next fails no assertion, moves
no iterator out of the chain and announces only servers that stay in the chain. -/
theorem record_ordered {m₀ : Master} {servers : List (Address × ℕ)}
    (horder : servers.map Prod.snd = List.range' 1 servers.length) (hne : servers ≠ [])
    (hnodup : (servers.map Prod.fst).Nodup) (hempty : .empty ∉ servers.map Prod.fst)
    (hlookup : m₀.bankServerChain.lookup bankId = some (readConfig servers))
    (hrun : Machine.Reach step (Expected bankId) m₀ m) :
    ∃ bsc, m.bankServerChain.lookup bankId = some bsc ∧ bsc.Ordered ∧
      ∀ ev : ChainEvent, ev.bank = bankId → ev.ExpectedBy bsc →
        ∃ bsc', Returns m ev bankId bsc' ∧ bsc'.Ordered := by
  obtain ⟨bsc, l, hrecord, h⟩ :=
    shape_of_reach (readConfig_shape horder hne hnodup hempty) hlookup hrun
  refine ⟨bsc, hrecord, h.ordered, ?_⟩
  rintro ev rfl hev
  obtain ⟨bsc', l', hreturns, h'⟩ := returns_of_expected h hrecord hev
  exact ⟨bsc', hreturns, h'.ordered⟩

/-! ### A sample -/

/-- Process number `n`. -/
def sampleServer (n : ℕ) : Address := ⟨"127.0.0.1", 50000 + n⟩

/-- The servers 1, 2 and 3 in chain order. -/
def sampleServers : List (Address × ℕ) :=
  [(sampleServer 1, 1), (sampleServer 2, 2), (sampleServer 3, 3)]

/-- The master of one bank with these servers. -/
def sampleMaster : Master where
  addr := sampleServer 0
  bankServerChain := (∅ : AList fun _ : String => BankServerChain).insert "BOA"
    (readConfig sampleServers)
  clientList := [sampleServer 100]

/-- The tail crashes while server 4 joins, the new tail too, server 4 becomes the tail, the head
crashes and server 5 joins. -/
def sampleEvents : List ChainEvent :=
  [.join { bankId := "BOA", serverAddr := sampleServer 4 }, .crash "BOA" (sampleServer 3),
    .crash "BOA" (sampleServer 2), .extendFinish { bankId := "BOA", serverAddr := sampleServer 4 },
    .crash "BOA" (sampleServer 1), .join { bankId := "BOA", serverAddr := sampleServer 5 }]

/-- After these events. -/
theorem record_ordered_joins :
    ∃ bsc, (Machine.after step (Expected "BOA") sampleMaster sampleEvents).bankServerChain.lookup
        "BOA" = some bsc ∧ bsc.Ordered ∧
      ∀ ev : ChainEvent, ev.bank = "BOA" → ev.ExpectedBy bsc →
        ∃ bsc', Returns (Machine.after step (Expected "BOA") sampleMaster sampleEvents) ev "BOA" bsc' ∧
          bsc'.Ordered :=
  @record_ordered _ "BOA" sampleMaster sampleServers (by decide) (by decide) (by decide) (by decide)
    (by decide +kernel) (Machine.reach_after (by decide +kernel))

end Master

end ChainReplication
