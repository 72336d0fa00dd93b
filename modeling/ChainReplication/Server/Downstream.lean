import ChainReplication.Server.Dedup

/-!
# Updates and replies on their way

`Dispatch` lists the requests and the replies that a handler sends by TCP: a `TRANSFER_TO` for the head of
the destination bank, an update for the successor, a reply for the tail of the bank that a
`TRANSFER_TO` comes from.
-/

namespace ChainReplication

namespace ChainServer

/-- A packet that a handler sends when it takes `s` to `s'`. -/
inductive Dispatch (s : ChainServer) (msg : Message) (s' : ChainServer) : Address → Message → Prop where
  | transferTo {t u} (tail : s'.istail = true) (mem : u ∈ s'.sentList)
      (head : s'.bankHeadList.lookup u.destBankId = some t) :
      Dispatch s msg s' t (.request (s'.transferToReq u))
  | relay {q} (mem : q ∈ s'.sentList) : Dispatch s msg s' s'.succServerAddr (.request q)
  | answer {req} (asked : msg = .request req) (type : req.type = .transferTo) (tail : s.istail = true)
      (hist : s.answered req ∈ s'.hist) : Dispatch s msg s' req.clientAddr (.reply (s.answered req).reply)
  | release {q rep} (asked : msg = .reply rep) (mem : q ∈ s.sentList) (type : q.type = .transferTo) :
      Dispatch s msg s' q.clientAddr (.reply q.reply)
  | other {t m} (request : ∀ q, m ≠ .request q) (reply : ∀ rep, m ≠ .reply rep) : Dispatch s msg s' t m

variable {s s' : ChainServer} {req : Request} {master : Address} {msg m : Message} {t : Address}

/-- A `TRANSFER_TO` goes to the head that the server knows. -/
lemma dispatch_transferTo {s'' : ChainServer} (htail : s'.istail = true)
    (haddr : s''.localAddr = s'.localAddr) {u : Request} (hu : u ∈ s'.sentList) {a : Address}
    (ha : s'.bankHeadList.lookup u.destBankId = some a)
    (h : (Packet.tcp a (.request (s''.transferToReq u))).tcp? = some (t, m)) :
    Dispatch s msg s' t m := by
  have hreq : s''.transferToReq u = s'.transferToReq u := by simp only [transferToReq, haddr]
  rw [Packet.tcp?_tcp, hreq] at h
  obtain ⟨rfl, rfl⟩ := Prod.mk.inj (Option.some.inj h)
  exact .transferTo htail hu ha

lemma dispatch_ack {ack : Acknowledge} (h : (s.sendbackAck ack).tcp? = some (t, m)) {r : ChainServer} :
    Dispatch r msg s' t m := by
  rw [sendbackAck, Packet.tcp?_tcp] at h
  obtain ⟨-, rfl⟩ := Prod.mk.inj (Option.some.inj h)
  exact .other (by simp) (by simp)

lemma answerUpdate_dispatch (hext : s.extendingChain = false) (htail : s.istail = true) {p : Packet}
    (hp : p ∈ (s.accept.answerUpdate (s.number req)).out) (hm : p.tcp? = some (t, m)) :
    Dispatch s (.request req) (s.accept.answerUpdate (s.number req)).server t m := by
  rw [answerUpdate_server req hext]
  have hreply (hm : (replyToClient (s.answered req)).tcp? = some (t, m)) {s' : ChainServer}
      (hhist : s.answered req ∈ s'.hist) : Dispatch s (.request req) s' t m := by
    rw [replyToClient, Packet.tcp?_replyToClient] at hm
    split_ifs at hm with htype
    obtain ⟨rfl, rfl⟩ := Prod.mk.inj (Option.some.inj hm)
    rw [answered_clientAddr]
    exact .answer rfl (by rwa [answered_type] at htype) htail hhist
  obtain ⟨am, ham⟩ := updateRequestReply_eq s.accept (s.number req)
  simp only [answerUpdate, ham] at hp
  split_ifs at hp with htype
  · rcases mem_handleTransfer hp with rfl | ⟨happlied, a, ha, rfl⟩
    · exact hreply hm (by simp)
    · refine dispatch_transferTo htail ?_ (List.mem_append_right _ ?_) ha hm
      · rfl
      · exact Request.mem_toForward.mpr ⟨rfl, htype, happlied⟩
  · obtain rfl : p = replyToClient (s.answered req) := List.mem_singleton.mp hp
    exact hreply hm (by simp)

lemma receiveRequest_dispatch (hext : s.extendingChain = false) {p : Packet}
    (hp : p ∈ (s.receiveRequest req).out) (hm : p.tcp? = some (t, m)) :
    Dispatch s (.request req) (s.receiveRequest req).server t m := by
  have hcase := receiveRequest_cases s req
  generalize s.receiveRequest req = e at hcase hp ⊢
  cases hcase with
  | query type tail =>
    obtain rfl := by simpa [handleQuery] using hp
    simp [replyToClient, Packet.tcp?, type] at hm
  | refused why => simp [abort] at hp
  | duplicate head seen => simp at hp
  | relayed type tail next =>
    rw [relayUpdate_out, List.mem_singleton] at hp
    subst hp
    rw [Packet.tcp?_tcp] at hm
    obtain ⟨rfl, rfl⟩ := Prod.mk.inj (Option.some.inj hm)
    rw [relayUpdate_server]
    exact .relay (List.mem_append_right _ (List.mem_singleton_self _))
  | single type tail head => exact answerUpdate_dispatch hext tail hp hm
  | tail type tail head next =>
    rw [tailHandleUpdate_server]
    rcases Effect.mem_andThen hp with hp | hp
    · exact answerUpdate_dispatch hext tail hp hm
    · split_ifs at hp
      · rw [List.mem_singleton] at hp
        subst hp
        exact dispatch_ack hm
      · simp at hp

/-- Every request and every reply that a handler of a chain without joins sends by TCP. -/
theorem handleMsg_dispatch (hext : s.extendingChain = false) (hmsg : msg.isExtend = false)
    {p : Packet} (hp : p ∈ (s.handleMsg master msg).out) (hm : p.tcp? = some (t, m)) :
    Dispatch s msg (s.handleMsg master msg).server t m := by
  cases msg with
  | request req => exact receiveRequest_dispatch hext hp hm
  | acknowledge ack =>
    simp only [handleMsg, receiveAck] at hp ⊢
    split_ifs at hp
    · simp at hp
    · rw [List.mem_singleton] at hp
      subst hp
      exact dispatch_ack hm
  | toBeHead => simp [handleMsg, toBeHead] at hp
  | toBeTail =>
    obtain ⟨pm, hs⟩ := insertAllProcessed_eq s (s.sentList.filter (·.type ≠ .transfer))
    simp only [handleMsg, toBeTail, hs] at hp ⊢
    split at hp
    next hempty =>
      split_ifs at hp
      · simp at hp
      · rw [List.mem_singleton] at hp
        subst hp
        exact dispatch_ack hm
    next hempty =>
      rw [if_neg hempty, forwardTransfers_server]
      obtain ⟨q, hq, a, ha, rfl⟩ := mem_forwardTransfers hp
      exact dispatch_transferTo rfl rfl hq ha hm
  | newPreServer addr =>
    simp only [handleMsg, receiveNewPreserver, List.mem_singleton] at hp
    subst hp
    rw [Packet.tcp?_tcp] at hm
    obtain ⟨-, rfl⟩ := Prod.mk.inj (Option.some.inj hm)
    exact .other (by simp) (by simp)
  | newSuccServer r =>
    simp only [handleMsg, receiveNewSuccserver, List.mem_map, forwardRequest] at hp ⊢
    obtain ⟨q, hq, rfl⟩ := hp
    rw [Packet.tcp?_tcp] at hm
    obtain ⟨rfl, rfl⟩ := Prod.mk.inj (Option.some.inj hm)
    exact .relay (List.mem_of_mem_filter hq)
  | newHead n =>
    simp only [handleMsg, handleNewHead] at hp ⊢
    split_ifs at hp ⊢ with hbank htail
    · rw [resendTransfers_server]
      obtain ⟨q, hq, -, a, ha, rfl⟩ := mem_resendTransfers hp
      exact dispatch_transferTo htail rfl hq ha hm
    · simp at hp
    · simp [abort] at hp
  | reply rep =>
    simp only [handleMsg, receiveTransferReply] at hp ⊢
    split at hp
    · simp [abort] at hp
    next hout =>
      rcases List.mem_append.mp hp with hp | hp
      · obtain ⟨q, hq, rfl⟩ := List.mem_map.mp hp
        rw [replyToClient, Packet.tcp?_replyToClient] at hm
        split_ifs at hm with htype
        obtain ⟨rfl, rfl⟩ := Prod.mk.inj (Option.some.inj hm)
        exact .release rfl (List.mem_of_mem_filter hq) htype
      · split_ifs at hp
        · rw [List.mem_singleton] at hp
          subst hp
          exact dispatch_ack hm
        · simp at hp
  | newTail n => simp [handleMsg] at hp
  | reqSeq r => simp [handleMsg] at hp
  | join _ | extendServer _ | extendMsg _ | extendFinish _ | extendFail =>
    simp [Message.isExtend] at hmsg

/-! ### Complete forwarding -/

/-- A loop over `sent_list_` that ends has sent every transfer to the bank again. -/
lemma resendTransfers_complete {bankId : String} {l : List Request}
    (h : (s.resendTransfers bankId l).ok = true) {u : Request} (hu : u ∈ l)
    (hbank : u.destBankId = bankId) :
    ∃ a, .tcp a (.request (s.transferToReq u)) ∈ (s.resendTransfers bankId l).out := by
  induction l with
  | nil => cases hu
  | cons q l ih =>
    unfold resendTransfers Effect.andThen at h ⊢
    split_ifs at h ⊢ with htype hq hok
    · cases h
    · rw [forwardTransferToDownstream_server] at h ⊢
      rcases List.mem_cons.mp hu with rfl | hu
      · obtain ⟨a, ha⟩ := forwardTransferToDownstream_complete hok
        exact ⟨a, List.mem_append_left _ ha⟩
      · obtain ⟨a, ha⟩ := ih h hu
        exact ⟨a, List.mem_append_right _ ha⟩
    · exact absurd h hok
    · exact ih h ((List.mem_cons.mp hu).resolve_left fun heq => hq (heq ▸ hbank))

/-- A tail that survives a `NEW_HEAD` has sent every transfer to the bank again. -/
theorem handleMsg_resends {n : Notify} (hok : (s.handleMsg master (.newHead n)).ok = true)
    (htail : s.istail = true) {u : Request} (hu : u ∈ s.sentList) (hbank : u.destBankId = n.bankId) :
    ∃ a, .tcp a (.request (s.transferToReq u)) ∈ (s.handleMsg master (.newHead n)).out := by
  simp only [handleMsg, handleNewHead, htail, if_true] at hok ⊢
  split_ifs at hok ⊢
  · obtain ⟨a, ha⟩ := resendTransfers_complete hok hu hbank
    exact ⟨a, ha⟩
  · cases hok

/-- The first packet of a tail that logs a `TRANSFER_TO` is the reply. -/
theorem handleMsg_answers (master : Address) (htail : s.istail = true)
    (htype : req.type = .transferTo)
    (hist : (s.handleMsg master (.request req)).server.hist = s.hist ++ [s.answered req]) :
    ∃ rest, (s.handleMsg master (.request req)).out = .replyToClient (s.answered req) :: rest := by
  have grown {s' : ChainServer} (h : s'.hist = s.hist ++ [s.answered req]) : s'.hist ≠ s.hist := by
    rw [h]
    simp
  have hout : (s.accept.answerUpdate (s.number req)).out = [.replyToClient (s.answered req)] := by
    have hanswered : (s.accept.updateRequestReply (s.number req)).2 = s.answered req := rfl
    have hne : (s.answered req).type ≠ .transfer := by simp [htype]
    simp only [answerUpdate, hanswered, if_neg hne, replyToClient]
  simp only [handleMsg] at hist ⊢
  have hcase := receiveRequest_cases s req
  generalize s.receiveRequest req = e at hcase hist ⊢
  cases hcase with
  | query type => simp [htype] at type
  | refused why => exact absurd rfl (grown hist)
  | duplicate head seen => exact absurd rfl (grown hist)
  | relayed type tail => simp [htail] at tail
  | single => exact ⟨_, hout⟩
  | tail =>
    unfold tailHandleUpdate Effect.andThen
    split_ifs
    · exact ⟨_, by rw [hout]; rfl⟩
    · exact ⟨_, hout⟩

/-! ### The heads that a server knows -/

lemma receiveRequest_bankHeadList (hext : s.extendingChain = false) :
    (s.receiveRequest req).server.bankHeadList = s.bankHeadList := by
  obtain ⟨am, pm, h, sl, n, hs⟩ := receiveRequest_frame req hext
  rw [hs]

/-- Only `NEW_HEAD` changes what a server knows about the heads of the banks. -/
lemma handleMsg_bankHeadList (hext : s.extendingChain = false) (hmsg : msg.isExtend = false) :
    (s.handleMsg master msg).server.bankHeadList = s.bankHeadList ∨ ∃ n, msg = .newHead n ∧
      (s.handleMsg master msg).server.bankHeadList = s.bankHeadList.insert n.bankId n.serverAddr := by
  cases msg with
  | request req => exact Or.inl (receiveRequest_bankHeadList hext)
  | acknowledge ack =>
    obtain ⟨pm, hs⟩ := insertAllProcessed_eq s
      (s.sentList.takeWhile (·.bankUpdateSeq ≤ ack.bankUpdateSeq))
    left
    simp only [handleMsg, receiveAck, hs]
  | toBeTail =>
    obtain ⟨pm, hs⟩ := insertAllProcessed_eq s (s.sentList.filter (·.type ≠ .transfer))
    left
    simp only [handleMsg, toBeTail, hs]
    split
    · rfl
    · rw [forwardTransfers_server]
  | newHead n =>
    simp only [handleMsg, handleNewHead]
    split_ifs with hbank htail
    · rw [resendTransfers_server]
      exact Or.inr ⟨n, rfl, rfl⟩
    · exact Or.inr ⟨n, rfl, rfl⟩
    · exact Or.inl rfl
  | reply rep =>
    left
    simp only [handleMsg, receiveTransferReply]
    split_ifs <;> rfl
  | join _ | extendServer _ | extendMsg _ | extendFinish _ | extendFail =>
    simp [Message.isExtend] at hmsg
  | _ => exact Or.inl rfl

end ChainServer

end ChainReplication
