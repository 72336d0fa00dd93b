import ChainReplication.Server.Roles

/-!
# The heads that a server knows

`bank_head_list_` starts from the configuration file, and only `NEW_HEAD` changes it, whether the server
extends its chain or not.
-/

namespace ChainReplication

/-- The head of the bank `id` that a message announces. -/
def Message.head? (id : String) : Message → Option Address
  | .newHead n => if n.bankId = id then some n.serverAddr else none
  | _ => none

/-- The entry of a table for the bank `id` once its owner has taken up the messages `l`. -/
def finalHead (id : String) (l : List Message) (known : Option Address) : Option Address :=
  (l.filterMap (Message.head? id)).getLast?.or known

lemma finalHead_nil {id : String} {known : Option Address} : finalHead id [] known = known := rfl

lemma finalHead_cons {id : String} {m : Message} {l : List Message} {known : Option Address} :
    finalHead id (m :: l) known = finalHead id l ((m.head? id).or known) := by
  rw [finalHead, List.filterMap_cons, finalHead]
  cases m.head? id with
  | none => rfl
  | some a =>
    rw [List.getLast?_cons, Option.some_or, Option.some_or]
    cases (l.filterMap (Message.head? id)).getLast? <;> rfl

lemma finalHead_append_of_none {id : String} {l l' : List Message} {known : Option Address}
    (h : ∀ m ∈ l', m.head? id = none) : finalHead id (l ++ l') known = finalHead id l known := by
  rw [finalHead, List.filterMap_append, List.filterMap_eq_nil_iff.mpr h, List.append_nil, finalHead]

/-- Once one announcement of a list names `a` and none another address, the entry is `a`. -/
lemma finalHead_append_of_some {id : String} {l l' : List Message} {known : Option Address}
    {a : Address} {m : Message} (hm : m ∈ l') (hhead : m.head? id = some a)
    (h : ∀ m ∈ l', ∀ c, m.head? id = some c → c = a) : finalHead id (l ++ l') known = some a := by
  have hmem : a ∈ l'.filterMap (Message.head? id) := List.mem_filterMap.mpr ⟨m, hm, hhead⟩
  have hlast : (l'.filterMap (Message.head? id)).getLast? = some a := by
    rw [List.getLast?_eq_some_getLast (List.ne_nil_of_mem hmem), Option.some.injEq]
    obtain ⟨c, hc, hhead'⟩ := List.mem_filterMap.mp (List.getLast_mem (List.ne_nil_of_mem hmem))
    exact h c hc _ hhead'
  rw [finalHead, List.filterMap_append, List.getLast?_append, hlast, Option.some_or, Option.some_or]

namespace ChainServer

variable {s : ChainServer} {req : Request} {master : Address} {msg : Message}

lemma updateRequestReply_bankHeadList (s : ChainServer) (req : Request) :
    (s.updateRequestReply req).1.bankHeadList = s.bankHeadList := by
  obtain ⟨m, hm⟩ := updateRequestReply_eq s req
  rw [hm]

lemma remember_bankHeadList (s : ChainServer) (req : Request) :
    (s.remember req).bankHeadList = s.bankHeadList := by
  obtain ⟨m, hm⟩ := remember_eq s req
  rw [hm]

lemma storeUpdate_bankHeadList (s : ChainServer) (req : Request) :
    (s.storeUpdate req).bankHeadList = s.bankHeadList := by
  refine Eq.trans ?_ (remember_bankHeadList s req)
  change (if (s.remember req).extendingChain then (s.remember req).insertSentList req
    else s.remember req).bankHeadList = _
  split_ifs <;> rfl

lemma answerUpdate_bankHeadList (s : ChainServer) (req : Request) :
    (s.answerUpdate req).server.bankHeadList = s.bankHeadList := by
  refine Eq.trans ?_ (updateRequestReply_bankHeadList s req)
  simp only [answerUpdate]
  split_ifs
  · rw [handleTransfer_server]
    exact remember_bankHeadList _ _
  · exact storeUpdate_bankHeadList _ _

lemma receiveRequest_heads (s : ChainServer) (req : Request) :
    (s.receiveRequest req).server.bankHeadList = s.bankHeadList := by
  have hcase := receiveRequest_cases s req
  generalize s.receiveRequest req = e at hcase ⊢
  cases hcase with
  | query type tail =>
    obtain ⟨m, hm⟩ := getBalance_eq s req.accountId
    simp only [handleQuery, hm]
  | refused why => rfl
  | duplicate head seen => rfl
  | relayed type tail next =>
    rw [relayUpdate_server]
    rfl
  | single type tail head => exact answerUpdate_bankHeadList _ _
  | tail type tail head next =>
    rw [tailHandleUpdate_server]
    exact answerUpdate_bankHeadList _ _

lemma receiveExtendMsg_bankHeadList (s : ChainServer) (master : Address) (m : ExtendMsg) :
    (s.receiveExtendMsg master m).server.bankHeadList = s.bankHeadList := by
  have counted (n : ℕ) :
      (if n > s.bankUpdateSeq then { s with bankUpdateSeq := n } else s).bankHeadList = s.bankHeadList := by
    split_ifs <;> rfl
  cases m with
  | start a => rfl
  | account a b =>
    simp only [receiveExtendMsg, createAccount]
    split_ifs <;> rfl
  | history q =>
    obtain ⟨m, hm⟩ := insertProcessedList_eq
      (if q.bankUpdateSeq > s.bankUpdateSeq then { s with bankUpdateSeq := q.bankUpdateSeq } else s) q
    simp only [receiveExtendMsg, hm]
    exact counted _
  | sent q =>
    refine Eq.trans ?_ (counted q.bankUpdateSeq)
    refine Eq.trans ?_ (updateRequestReply_bankHeadList _ q)
    exact remember_bankHeadList _ _
  | fin => rfl

/-- Only `NEW_HEAD` changes what a server knows about the heads of the banks, whether the server extends
its chain or not. -/
theorem handleMsg_heads (hok : (s.handleMsg master msg).ok = true) (id : String) :
    (s.handleMsg master msg).server.bankHeadList.lookup id =
      (msg.head? id).or (s.bankHeadList.lookup id) := by
  have same (h : (s.handleMsg master msg).server.bankHeadList = s.bankHeadList)
      (hhead : msg.head? id = none) : (s.handleMsg master msg).server.bankHeadList.lookup id =
        (msg.head? id).or (s.bankHeadList.lookup id) := by
    rw [h, hhead, Option.none_or]
  cases msg with
  | request q => exact same (receiveRequest_heads s q) rfl
  | acknowledge ack =>
    obtain ⟨pm, hs⟩ := insertAllProcessed_eq s
      (s.sentList.takeWhile (·.bankUpdateSeq ≤ ack.bankUpdateSeq))
    apply same _ rfl
    simp only [handleMsg, receiveAck, hs]
  | toBeTail =>
    obtain ⟨pm, hs⟩ := insertAllProcessed_eq s (s.sentList.filter (·.type ≠ .transfer))
    apply same _ rfl
    simp only [handleMsg, toBeTail, hs]
    split
    · rfl
    · rw [forwardTransfers_server]
  | newHead n =>
    have hbank : n.bankId ∈ s.bankHeadList := by
      by_contra hbank
      simp [handleMsg, handleNewHead, hbank, abort] at hok
    have hheads : (s.handleMsg master (.newHead n)).server.bankHeadList =
        s.bankHeadList.insert n.bankId n.serverAddr := by
      simp only [handleMsg, handleNewHead, if_pos hbank]
      split_ifs
      · rw [resendTransfers_server]
      · rfl
    rw [hheads, Message.head?]
    split_ifs with hid
    · subst hid
      rw [AList.lookup_insert, Option.some_or]
    · rw [AList.lookup_insert_ne (Ne.symm hid), Option.none_or]
  | reply rep =>
    apply same _ rfl
    simp only [handleMsg, receiveTransferReply]
    split_ifs <;> rfl
  | extendServer a =>
    apply same _ rfl
    simp only [handleMsg, receiveExtendServer]
    split_ifs <;> rfl
  | extendMsg m => exact same (receiveExtendMsg_bankHeadList s master m) rfl
  | _ => exact same rfl rfl

end ChainServer

end ChainReplication
