import ChainReplication.Server.Steps

/-!
# Roles and packets during an extension

`RoleChange` and `Sends` are about every message and every server, one that extends its chain
included.
-/

namespace ChainReplication

/-- The messages that make their receiver a tail. -/
def Message.grantsTail : Message → Prop
  | .toBeTail | .extendFail | .extendMsg .fin => True
  | _ => False

namespace ChainServer

variable {s : ChainServer} {req : Request} {master : Address} {msg : Message}

/-- How a handler changes the role of the tail and the link to the successor. -/
structure RoleChange (s : ChainServer) (msg : Message) (s' : ChainServer) : Prop where
  tail : s'.istail = true ↔ s.istail = true ∨ Message.grantsTail msg
  localAddr : s'.localAddr = s.localAddr
  bankId : s'.bankId = s.bankId
  succ : s'.succServerAddr = s.succServerAddr ∨
    (∃ r, msg = .newSuccServer r ∧ s'.succServerAddr = r.succAddr) ∨
      msg = .extendServer s'.succServerAddr

/-- A packet that a handler sends by TCP. -/
inductive Sends (master : Address) (s : ChainServer) (msg : Message) : Address → Message → Prop where
  | request {t q} : Sends master s msg t (.request q)
  | acknowledge {t a} : Sends master s msg t (.acknowledge a)
  | reply {t r} : Sends master s msg t (.reply r)
  | reqSeq {r} (asked : msg = .newPreServer r.preAddr) (succ : r.succAddr = s.localAddr) :
    Sends master s msg master (.reqSeq r)
  | extendFinish (asked : msg = .extendMsg .fin) :
    Sends master s msg master (.extendFinish { bankId := s.bankId, serverAddr := s.localAddr })

/-! ### Requests -/

/-- Nothing of the role or the successor changes. -/
structure KeepsRole (s s' : ChainServer) : Prop where
  tail : s'.istail = s.istail
  localAddr : s'.localAddr = s.localAddr
  bankId : s'.bankId = s.bankId
  succ : s'.succServerAddr = s.succServerAddr

namespace KeepsRole

variable {s' s'' : ChainServer}

lemma refl (s : ChainServer) : KeepsRole s s := ⟨rfl, rfl, rfl, rfl⟩

lemma trans (h : KeepsRole s s') (h' : KeepsRole s' s'') : KeepsRole s s'' :=
  ⟨h'.tail.trans h.tail, h'.localAddr.trans h.localAddr, h'.bankId.trans h.bankId,
    h'.succ.trans h.succ⟩

lemma change (h : KeepsRole s s') (hmsg : ¬ Message.grantsTail msg) : RoleChange s msg s' where
  tail := by rw [h.tail, or_iff_left hmsg]
  localAddr := h.localAddr
  bankId := h.bankId
  succ := Or.inl h.succ

lemma writeLogReply (s : ChainServer) (req : Request) : KeepsRole s (s.writeLogReply req) :=
  ⟨rfl, rfl, rfl, rfl⟩

lemma updateRequestReply (s : ChainServer) (req : Request) :
    KeepsRole s (s.updateRequestReply req).1 := by
  obtain ⟨m, hm⟩ := updateRequestReply_eq s req
  rw [hm]
  exact ⟨rfl, rfl, rfl, rfl⟩

lemma remember (s : ChainServer) (req : Request) : KeepsRole s (s.remember req) := by
  obtain ⟨m, hm⟩ := remember_eq s req
  rw [hm]
  exact ⟨rfl, rfl, rfl, rfl⟩

lemma insertProcessedList (s : ChainServer) (req : Request) :
    KeepsRole s (s.insertProcessedList req) := by
  obtain ⟨m, hm⟩ := insertProcessedList_eq s req
  rw [hm]
  exact ⟨rfl, rfl, rfl, rfl⟩

lemma handleTransfer (s : ChainServer) (req : Request) :
    KeepsRole s (s.handleTransfer req).server := by
  rw [handleTransfer_server]
  exact (KeepsRole.remember s req).trans ⟨rfl, rfl, rfl, rfl⟩

lemma storeUpdate (s : ChainServer) (req : Request) : KeepsRole s (s.storeUpdate req) := by
  apply (KeepsRole.remember s req).trans
  change KeepsRole (s.remember req)
    (if (s.remember req).extendingChain then (s.remember req).insertSentList req else s.remember req)
  split_ifs
  · exact ⟨rfl, rfl, rfl, rfl⟩
  · exact .refl _

lemma answerUpdate (s : ChainServer) (req : Request) :
    KeepsRole s (s.answerUpdate req).server := by
  apply (KeepsRole.updateRequestReply s req).trans
  unfold ChainServer.answerUpdate
  dsimp only
  split_ifs
  · exact (KeepsRole.writeLogReply _ _).trans (.handleTransfer _ _)
  · exact (KeepsRole.writeLogReply _ _).trans (.storeUpdate _ _)

lemma receiveRequest (s : ChainServer) (req : Request) :
    KeepsRole s (s.receiveRequest req).server := by
  have accepted : KeepsRole s s.accept := ⟨rfl, rfl, rfl, rfl⟩
  have hcase := receiveRequest_cases s req
  generalize s.receiveRequest req = e at hcase ⊢
  cases hcase with
  | query type tail =>
    obtain ⟨m, hm⟩ := getBalance_eq s req.accountId
    simp only [handleQuery, hm]
    exact ⟨rfl, rfl, rfl, rfl⟩
  | refused why => exact .refl s
  | duplicate head seen => exact .refl s
  | relayed type tail next =>
    rw [relayUpdate_server]
    exact ⟨rfl, rfl, rfl, rfl⟩
  | single type tail head => exact accepted.trans (.answerUpdate _ _)
  | tail type tail head next =>
    rw [tailHandleUpdate_server]
    exact accepted.trans (.answerUpdate _ _)

end KeepsRole

lemma sends_replyToClient {q : Request} {t : Address} {m : Message}
    (h : (replyToClient q).tcp? = some (t, m)) : Sends master s msg t m := by
  rw [replyToClient, Packet.tcp?_replyToClient] at h
  split_ifs at h
  simp only [Option.some.injEq, Prod.mk.injEq] at h
  obtain ⟨rfl, rfl⟩ := h
  exact .reply

lemma answerUpdate_sends {w : ChainServer} {q : Request} {p : Packet}
    (hp : p ∈ (w.answerUpdate q).out) {t : Address} {m : Message} (hm : p.tcp? = some (t, m)) :
    Sends master s msg t m := by
  simp only [answerUpdate] at hp
  split_ifs at hp
  · rcases mem_handleTransfer hp with rfl | ⟨-, a, -, rfl⟩
    · exact sends_replyToClient hm
    · simp only [Packet.tcp?_tcp, Option.some.injEq, Prod.mk.injEq] at hm
      obtain ⟨rfl, rfl⟩ := hm
      exact .request
  · obtain rfl := List.mem_singleton.mp hp
    exact sends_replyToClient hm

lemma receiveRequest_sends {p : Packet} (hp : p ∈ (s.receiveRequest req).out) {t : Address}
    {m : Message} (hm : p.tcp? = some (t, m)) : Sends master s (.request req) t m := by
  have hcase := receiveRequest_cases s req
  generalize s.receiveRequest req = e at hcase hp
  cases hcase with
  | query type tail =>
    obtain rfl := List.mem_singleton.mp hp
    exact sends_replyToClient hm
  | refused why => simp [abort] at hp
  | duplicate head seen => simp at hp
  | relayed type tail next =>
    rw [relayUpdate_out, List.mem_singleton] at hp
    subst hp
    simp only [Packet.tcp?_tcp, Option.some.injEq, Prod.mk.injEq] at hm
    obtain ⟨rfl, rfl⟩ := hm
    exact .request
  | single type tail head => exact answerUpdate_sends hp hm
  | tail type tail head next =>
    rcases Effect.mem_andThen hp with hp | hp
    · exact answerUpdate_sends hp hm
    · split_ifs at hp
      · simp only [sendbackAck, List.mem_singleton] at hp
        subst hp
        simp only [Packet.tcp?_tcp, Option.some.injEq, Prod.mk.injEq] at hm
        obtain ⟨rfl, rfl⟩ := hm
        exact .acknowledge
      · simp at hp

/-! ### Extension messages -/

lemma receiveExtendMsg_keepsRole (s : ChainServer) (master : Address) {m : ExtendMsg}
    (hm : m ≠ .fin) : KeepsRole s (s.receiveExtendMsg master m).server := by
  have counted (n : ℕ) : KeepsRole s (if n > s.bankUpdateSeq then { s with bankUpdateSeq := n } else s) := by
    split_ifs
    · exact ⟨rfl, rfl, rfl, rfl⟩
    · exact .refl s
  cases m with
  | start a => exact ⟨rfl, rfl, rfl, rfl⟩
  | account a b =>
    simp only [receiveExtendMsg, createAccount]
    split_ifs
    · exact .refl s
    · exact ⟨rfl, rfl, rfl, rfl⟩
  | history q => exact (counted _).trans (.insertProcessedList _ q)
  | sent q =>
    refine (counted q.bankUpdateSeq).trans ((KeepsRole.updateRequestReply _ q).trans ?_)
    exact (KeepsRole.writeLogReply _ _).trans (.remember _ _)
  | fin => exact absurd rfl hm

/-- Only `FIN` is answered. -/
lemma receiveExtendMsg_out (s : ChainServer) (master : Address) (m : ExtendMsg) :
    (s.receiveExtendMsg master m).out = match m with
      | .fin => [.tcp master (.extendFinish { bankId := s.bankId, serverAddr := s.localAddr })]
      | _ => [] := by
  cases m with
  | account a b =>
    simp only [receiveExtendMsg]
    split <;> rfl
  | _ => rfl

/-! ### All messages -/

theorem handleMsg_roleChange (s : ChainServer) (master : Address) (msg : Message) :
    RoleChange s msg (s.handleMsg master msg).server := by
  cases msg with
  | request q => exact (KeepsRole.receiveRequest s q).change id
  | acknowledge a =>
    obtain ⟨m, hm⟩ := insertAllProcessed_eq s
      (s.sentList.takeWhile (·.bankUpdateSeq ≤ a.bankUpdateSeq))
    simp only [handleMsg, receiveAck, hm]
    exact KeepsRole.change ⟨rfl, rfl, rfl, rfl⟩ id
  | toBeTail =>
    obtain ⟨m, hm⟩ := insertAllProcessed_eq s (s.sentList.filter (·.type ≠ .transfer))
    have hrole : RoleChange s .toBeTail { s with
        processedMap := m
        istail := true
        sentList := s.sentList.filter (·.type = .transfer) } :=
      ⟨by simp [Message.grantsTail], rfl, rfl, Or.inl rfl⟩
    simp only [handleMsg, toBeTail, hm]
    split_ifs
    · exact hrole
    · exact hrole
    · rw [forwardTransfers_server]
      exact hrole
  | newSuccServer r => exact ⟨by simp [handleMsg, receiveNewSuccserver, Message.grantsTail], rfl, rfl,
      Or.inr (Or.inl ⟨r, rfl, rfl⟩)⟩
  | newHead n =>
    simp only [handleMsg, handleNewHead]
    split_ifs
    · rw [resendTransfers_server]
      exact KeepsRole.change ⟨rfl, rfl, rfl, rfl⟩ id
    · exact KeepsRole.change ⟨rfl, rfl, rfl, rfl⟩ id
    · exact KeepsRole.change (.refl s) id
  | reply r =>
    simp only [handleMsg, receiveTransferReply]
    split_ifs
    all_goals exact KeepsRole.change ⟨rfl, rfl, rfl, rfl⟩ id
  | extendServer a =>
    simp only [handleMsg, receiveExtendServer]
    split_ifs
    · exact ⟨by simp [Message.grantsTail], rfl, rfl, Or.inr (Or.inr rfl)⟩
    · exact KeepsRole.change (.refl s) id
  | extendMsg m =>
    by_cases hm : m = .fin
    · subst hm
      exact ⟨by simp [handleMsg, receiveExtendMsg, Message.grantsTail], rfl, rfl, Or.inl rfl⟩
    · apply (receiveExtendMsg_keepsRole s master hm).change
      cases m with
      | fin => exact absurd rfl hm
      | _ => exact id
  | extendFail =>
    exact ⟨by simp [handleMsg, extendingServerFail, Message.grantsTail], rfl, rfl, Or.inl rfl⟩
  | _ => exact KeepsRole.change ⟨rfl, rfl, rfl, rfl⟩ id

theorem handleMsg_sends {p : Packet} (hp : p ∈ (s.handleMsg master msg).out) {t : Address}
    {m : Message} (hm : p.tcp? = some (t, m)) : Sends master s msg t m := by
  by_cases hext : msg.isExtend = true
  · cases msg with
    | extendServer a =>
      simp only [handleMsg, receiveExtendServer] at hp
      split_ifs at hp <;> simp [abort] at hp
    | extendMsg e =>
      simp only [handleMsg, receiveExtendMsg_out] at hp
      cases e with
      | fin =>
        obtain rfl := List.mem_singleton.mp hp
        simp only [Packet.tcp?_tcp, Option.some.injEq, Prod.mk.injEq] at hm
        obtain ⟨rfl, rfl⟩ := hm
        exact .extendFinish rfl
      | _ => cases hp
    | _ => simp [handleMsg, extendingServerFail, Message.isExtend] at hp hext
  · by_cases hreq : ∃ q, msg = .request q
    · obtain ⟨q, rfl⟩ := hreq
      exact receiveRequest_sends hp hm
    · have hspec := handleMsg_packets_other (by simpa using hext) (fun q hq => hreq ⟨q, hq⟩) hp hm
      cases m with
      | request q => exact .request
      | acknowledge a => exact .acknowledge
      | reply r => exact .reply
      | reqSeq r =>
        obtain ⟨rfl, hmsg, hsucc, -⟩ := hspec
        exact .reqSeq hmsg hsucc
      | _ => exact hspec.elim

end ChainServer

end ChainReplication
