import ChainReplication.Server.Roles

/-!
# Queries stay at the server that they reach

`sent_list_` and the requests that a server sends on hold updates only, whether the server extends its
chain or not.
-/

namespace ChainReplication

namespace ChainServer

/-- The server has no query in `sent_list_`. -/
def SendsUpdates (s : ChainServer) : Prop := ∀ q ∈ s.sentList, q.type ≠ .query

variable {s : ChainServer} {req q : Request} {master t : Address} {msg : Message} {p : Packet}

lemma updateRequestReply_type (s : ChainServer) (req : Request) :
    (s.updateRequestReply req).2.type = req.type := by
  rw [← Request.body_type, updateRequestReply_body, Request.body_type]

lemma remember_sentList (s : ChainServer) (req : Request) : (s.remember req).sentList = s.sentList := by
  obtain ⟨m, hm⟩ := remember_eq s req
  rw [hm]

lemma updateRequestReply_sentList (s : ChainServer) (req : Request) :
    (s.updateRequestReply req).1.sentList = s.sentList := by
  obtain ⟨m, hm⟩ := updateRequestReply_eq s req
  rw [hm]

lemma SendsUpdates.append (h : s.SendsUpdates) {s' : ChainServer} {l : List Request}
    (hs : s'.sentList = s.sentList ++ l) (hl : ∀ q ∈ l, q.type ≠ .query) : s'.SendsUpdates := by
  intro q hq
  rw [hs] at hq
  exact (List.mem_append.mp hq).elim (h q) (hl q)

lemma SendsUpdates.of_subset (h : s.SendsUpdates) {s' : ChainServer} (hs : s'.sentList ⊆ s.sentList) :
    s'.SendsUpdates := fun q hq => h q (hs hq)

lemma SendsUpdates.of_eq (h : s.SendsUpdates) {s' : ChainServer} (hs : s'.sentList = s.sentList) :
    s'.SendsUpdates := fun q hq => h q (hs ▸ hq)

/-- A reply is no request. -/
lemma replyToClient_ne (req : Request) : (replyToClient req).tcp? ≠ some (t, .request q) := by
  rw [replyToClient, Packet.tcp?_replyToClient]
  split_ifs
  · rintro ⟨⟩
  · rintro ⟨⟩

/-- A transfer sent downstream is a `TRANSFER_TO`. -/
lemma transferToReq_sent {u : Request} {a : Address}
    (h : (Packet.tcp a (.request (s.transferToReq u))).tcp? = some (t, .request q)) : q.type ≠ .query := by
  rw [Packet.tcp?_tcp] at h
  obtain ⟨-, hq⟩ := Prod.mk.inj (Option.some.inj h)
  obtain rfl := Message.request.inj hq
  exact fun htype => nomatch htype

lemma handleTransfer_updates (h : s.SendsUpdates) (htype : req.type ≠ .query) :
    (s.handleTransfer req).server.SendsUpdates := by
  rw [handleTransfer_server]
  refine h.append rfl fun q hq => ?_
  split_ifs at hq
  · rwa [List.mem_singleton.mp hq]
  · cases hq

lemma storeUpdate_updates (h : s.SendsUpdates) (htype : req.type ≠ .query) :
    (s.storeUpdate req).SendsUpdates := by
  have hstored : (s.remember req).SendsUpdates := h.of_eq (remember_sentList s req)
  change SendsUpdates (if (s.remember req).extendingChain then (s.remember req).insertSentList req
    else s.remember req)
  split_ifs
  · refine hstored.append rfl fun q hq => ?_
    rwa [List.mem_singleton.mp hq]
  · exact hstored

/-- An update that the tail answers is stored and, if it is a transfer, sent downstream. -/
lemma answerUpdate_updates (h : s.SendsUpdates) (htype : req.type ≠ .query) :
    (s.answerUpdate req).server.SendsUpdates ∧ ∀ p ∈ (s.answerUpdate req).out,
      ∀ t q, p.tcp? = some (t, .request q) → q.type ≠ .query := by
  have hu : (s.updateRequestReply req).2.type ≠ .query := by rwa [updateRequestReply_type]
  have hw : ((s.updateRequestReply req).1.writeLogReply (s.updateRequestReply req).2).SendsUpdates :=
    h.of_eq (updateRequestReply_sentList s req)
  simp only [answerUpdate]
  split_ifs
  · refine ⟨handleTransfer_updates hw hu, fun p hp t q htcp => ?_⟩
    rcases mem_handleTransfer hp with rfl | ⟨-, a, -, rfl⟩
    · exact absurd htcp (replyToClient_ne _)
    · exact transferToReq_sent htcp
  · refine ⟨storeUpdate_updates hw hu, fun p hp t q htcp => ?_⟩
    obtain rfl := List.mem_singleton.mp hp
    exact absurd htcp (replyToClient_ne _)

lemma receiveRequest_updates (h : s.SendsUpdates) :
    (s.receiveRequest req).server.SendsUpdates ∧ ∀ p ∈ (s.receiveRequest req).out,
      ∀ t q, p.tcp? = some (t, .request q) → q.type ≠ .query := by
  have accepted : s.accept.SendsUpdates := h
  have hcase := receiveRequest_cases s req
  generalize s.receiveRequest req = e at hcase ⊢
  cases hcase with
  | query type tail =>
    obtain ⟨m, hm⟩ := getBalance_eq s req.accountId
    simp only [handleQuery, hm]
    refine ⟨h, fun p hp t q htcp => ?_⟩
    obtain rfl := List.mem_singleton.mp hp
    exact absurd htcp (replyToClient_ne _)
  | refused why => exact ⟨h, by simp [abort]⟩
  | duplicate head seen => exact ⟨h, by simp⟩
  | relayed type tail next =>
    have htype : (s.answered req).type ≠ .query := by rwa [answered_type]
    constructor
    · rw [relayUpdate_server]
      exact h.append rfl fun q hq => by rwa [List.mem_singleton.mp hq]
    · intro p hp t q htcp
      rw [relayUpdate_out, List.mem_singleton] at hp
      subst hp
      obtain ⟨-, hq⟩ := Prod.mk.inj (Option.some.inj htcp)
      obtain rfl := Message.request.inj hq
      exact htype
  | single type tail head => exact answerUpdate_updates accepted type
  | tail type tail head next =>
    obtain ⟨hsent, hout⟩ := @answerUpdate_updates s.accept (s.number req) accepted type
    refine ⟨by rwa [tailHandleUpdate_server], fun p hp t q htcp => ?_⟩
    rcases Effect.mem_andThen hp with hp | hp
    · exact hout p hp t q htcp
    · split_ifs at hp
      · obtain rfl := List.mem_singleton.mp hp
        cases htcp
      · cases hp

lemma receiveExtendMsg_updates (h : s.SendsUpdates) (m : ExtendMsg) :
    (s.receiveExtendMsg master m).server.SendsUpdates := by
  have counted (n : ℕ) : (if n > s.bankUpdateSeq then { s with bankUpdateSeq := n } else s).SendsUpdates := by
    split_ifs
    · exact h
    · exact h
  cases m with
  | start a => exact h
  | account a b =>
    simp only [receiveExtendMsg, createAccount]
    split_ifs
    · exact h
    · exact h
  | history q =>
    obtain ⟨m, hm⟩ := insertProcessedList_eq
      (if q.bankUpdateSeq > s.bankUpdateSeq then { s with bankUpdateSeq := q.bankUpdateSeq } else s) q
    simp only [receiveExtendMsg, hm]
    exact counted _
  | sent q =>
    refine (counted q.bankUpdateSeq).of_eq (Eq.trans ?_ (updateRequestReply_sentList _ q))
    exact remember_sentList _ _
  | fin => exact h

/-- Whatever a server takes up, it keeps and sends on updates only. -/
theorem handleMsg_updates (h : s.SendsUpdates) :
    (s.handleMsg master msg).server.SendsUpdates ∧ ∀ p ∈ (s.handleMsg master msg).out,
      ∀ t q, p.tcp? = some (t, .request q) → q.type ≠ .query := by
  by_cases hext : msg.isExtend = true
  · cases msg with
    | extendServer a =>
      simp only [handleMsg, receiveExtendServer]
      split_ifs
      · exact ⟨h, by simp⟩
      · exact ⟨h, by simp [abort]⟩
    | extendMsg m =>
      refine ⟨receiveExtendMsg_updates h m, fun p hp t q htcp => ?_⟩
      rw [handleMsg, receiveExtendMsg_out] at hp
      cases m with
      | fin =>
        obtain rfl := List.mem_singleton.mp hp
        cases htcp
      | _ => cases hp
    | extendFail => exact ⟨h.of_subset (List.nil_subset _), by simp [handleMsg, extendingServerFail]⟩
    | join _ | extendFinish _ => exact ⟨h, by simp [handleMsg]⟩
    | _ => simp [Message.isExtend] at hext
  · have hext : msg.isExtend = false := by simpa using hext
    by_cases hreq : ∃ q, msg = .request q
    · obtain ⟨req, rfl⟩ := hreq
      exact receiveRequest_updates h
    · have hreq (q : Request) : msg ≠ .request q := fun hq => hreq ⟨q, hq⟩
      have hsent : (s.handleMsg master msg).server.SendsUpdates := by
        cases @handleMsg_logStep_other s master msg hext hreq with
        | keep hist seq sent => exact h.of_eq sent
        | relay => exact absurd rfl (hreq _)
        | answer => exact absurd rfl (hreq _)
        | ack hist seq sent => exact h.of_subset (sent ▸ List.dropWhile_subset _)
        | toBeTail hist seq sent => exact h.of_subset (sent ▸ List.filter_sublist.subset)
        | reply hist seq sent => exact h.of_subset (sent ▸ List.filter_sublist.subset)
        | resend hist seq sent => exact h.of_eq sent
      refine ⟨hsent, fun p hp t q htcp => ?_⟩
      rcases handleMsg_packets_other hext hreq hp htcp with ⟨-, u, -, rfl⟩ | ⟨-, hq, -⟩
      · intro htype
        cases htype
      · exact hsent q hq

end ChainServer

end ChainReplication
