import ChainReplication.Server.Properties

/-!
# One inversion lemma for each aspect of a handler

`LogStep` says what a handler does to the history, the counter and `sent_list_`, `RoleStep` what it
does to the role and the links, `PacketSpec` what it may send.
-/

namespace ChainReplication

namespace ChainServer

variable {s : ChainServer} {req : Request} {master : Address} {msg : Message}

/-! ### The update handlers -/

/-- The request as `update_request_reply` fills it in under its number. -/
def answered (s : ChainServer) (req : Request) : Request :=
  (s.accept.updateRequestReply (s.number req)).2

@[simp] lemma answered_body (s : ChainServer) (req : Request) : (s.answered req).body = (s.number req).body :=
  updateRequestReply_body _ _

@[simp] lemma answered_reqId : (s.answered req).reqId = req.reqId := by
  have h := congrArg Request.reqId (answered_body s req)
  exact h

@[simp] lemma answered_accountId : (s.answered req).accountId = req.accountId := by
  have h := congrArg Request.accountId (answered_body s req)
  exact h

@[simp] lemma answered_bankUpdateSeq : (s.answered req).bankUpdateSeq = s.bankUpdateSeq + 1 := by
  have h := congrArg Request.bankUpdateSeq (answered_body s req)
  exact h

@[simp] lemma answered_type : (s.answered req).type = req.type := by
  have h := congrArg Request.type (answered_body s req)
  exact h

@[simp] lemma answered_clientAddr : (s.answered req).clientAddr = req.clientAddr := by
  have h := congrArg Request.clientAddr (answered_body s req)
  exact h

lemma relayUpdate_server (s : ChainServer) (req : Request) :
    (s.accept.relayUpdate (s.number req)).server = { s.accept with
      accountMap := (s.accept.updateRequestReply (s.number req)).1.accountMap
      hist := s.hist ++ [s.answered req]
      sentList := s.sentList ++ [s.answered req] } := by
  obtain ⟨m, hm⟩ := updateRequestReply_eq s.accept (s.number req)
  simp only [relayUpdate, hm]
  rfl

lemma relayUpdate_out : (s.accept.relayUpdate (s.number req)).out =
    [.tcp s.succServerAddr (.request (s.answered req))] := by
  obtain ⟨m, hm⟩ := updateRequestReply_eq s.accept (s.number req)
  simp only [relayUpdate, hm]
  rfl

lemma remember_processedMap {s' : ChainServer} (h : s'.processedMap = s.processedMap) :
    (s'.remember req).processedMap = (s.remember req).processedMap := by
  unfold remember insertProcessedList
  rw [h]
  split_ifs
  · exact h
  · rfl
  · exact h

/-- How an answering server stores a request that it has logged. -/
lemma answerUpdate_store {w : ChainServer} {q : Request} (hext : w.extendingChain = false)
    (hw : (s.updateRequestReply req).1.writeLogReply q = w)
    (hq : (s.updateRequestReply req).2 = q) : (s.answerUpdate req).server =
      { w.remember q with sentList := w.sentList ++ q.toForward } := by
  obtain ⟨p, hp⟩ := remember_eq w q
  unfold answerUpdate
  simp only [hq, hw]
  by_cases htr : q.type = .transfer
  · rw [if_pos htr, handleTransfer_server]
    simp [Request.toForward, htr]
  · rw [if_neg htr, storeUpdate_eq w q hext, hp]
    simp [Request.toForward, htr]

/-- An answering server remembers the request and keeps it if it is to be forwarded. -/
lemma answerUpdate_server (req : Request) (hext : s.extendingChain = false) :
    (s.accept.answerUpdate (s.number req)).server =
      { s.accept with
        accountMap := (s.accept.updateRequestReply (s.number req)).1.accountMap
        processedMap := (s.remember (s.answered req)).processedMap
        hist := s.hist ++ [s.answered req]
        sentList := s.sentList ++ (s.answered req).toForward } := by
  obtain ⟨m, hm⟩ := updateRequestReply_eq s.accept (s.number req)
  rw [answerUpdate_store (q := s.answered req) (by rw [hm]; exact hext) rfl rfl, hm]
  generalize hw : writeLogReply { s.accept with accountMap := m } (s.answered req) = w
  have hmap : (w.remember (s.answered req)).processedMap =
      (s.remember (s.answered req)).processedMap :=
    remember_processedMap (by rw [← hw]; rfl)
  obtain ⟨p, hp⟩ := remember_eq w (s.answered req)
  rw [hp] at hmap ⊢
  rw [← hmap, ← hw]
  rfl

lemma tailHandleUpdate_server : (s.tailHandleUpdate req).server = (s.answerUpdate req).server := by
  unfold tailHandleUpdate Effect.andThen
  by_cases hempty : (s.answerUpdate req).server.sentList.isEmpty = true
  · simp only [hempty, if_true]
    split_ifs <;> rfl
  · simp only [hempty]
    split_ifs <;> rfl

/-! ### Packets that leave the log alone -/

/-- No packet carries an update down the chain: a request among them has no number yet. -/
def Quiet (out : List Packet) : Prop :=
  ∀ p ∈ out, ∀ t q, p.tcp? = some (t, .request q) → q.bankUpdateSeq = 0

lemma quiet_nil : Quiet [] := by simp [Quiet]

lemma Quiet.append {out out' : List Packet} (h : Quiet out) (h' : Quiet out') :
    Quiet (out ++ out') := by
  intro p hp
  rcases List.mem_append.mp hp with hp | hp
  · exact h p hp
  · exact h' p hp

lemma quiet_replies (l : List Request) : Quiet (l.map replyToClient) := by
  intro p hp t q h
  obtain ⟨u, -, rfl⟩ := List.mem_map.mp hp
  simp [replyToClient] at h

lemma quiet_sendbackAck (ack : Acknowledge) : Quiet [s.sendbackAck ack] := by
  simp [Quiet, sendbackAck]

lemma quiet_forwardTransfers (l : List Request) : Quiet (s.forwardTransfers l).out := by
  intro p hp t q h
  obtain ⟨u, -, a, -, rfl⟩ := mem_forwardTransfers hp
  obtain ⟨-, rfl⟩ := by simpa using h
  rfl

lemma quiet_resendTransfers (bankId : String) (l : List Request) :
    Quiet (s.resendTransfers bankId l).out := by
  intro p hp t q h
  obtain ⟨u, -, -, a, -, rfl⟩ := mem_resendTransfers hp
  obtain ⟨-, rfl⟩ := by simpa using h
  rfl

lemma quiet_answerUpdate : Quiet (s.answerUpdate req).out := by
  intro p hp t q h
  simp only [answerUpdate] at hp
  split_ifs at hp
  · rcases mem_handleTransfer hp with rfl | ⟨-, a, -, rfl⟩
    · simp [replyToClient] at h
    · obtain ⟨-, rfl⟩ := by simpa using h
      rfl
  · exact quiet_replies [_] p hp t q h

lemma quiet_tailHandleUpdate : Quiet (s.tailHandleUpdate req).out := by
  intro p hp
  rcases Effect.mem_andThen hp with hp | hp
  · exact quiet_answerUpdate p hp
  · split_ifs at hp
    · exact quiet_sendbackAck _ p hp
    · simp at hp

/-! ### The log -/

/-- How a handler changes the history, the counter, the two stores and the accounts, and what it
sends down the chain. -/
inductive LogStep (s : ChainServer) : Message → Effect → Prop where
  | keep {msg e} (hist : e.server.hist = s.hist) (seq : e.server.bankUpdateSeq = s.bankUpdateSeq)
      (sent : e.server.sentList = s.sentList) (out : Quiet e.out)
      (ignored : ∀ req, msg = .request req → e.ok = true → req.type = .query ∨
        req.bankUpdateSeq ≤ s.bankUpdateSeq)
      (other : msg ≠ .toBeTail ∧ (∀ a, msg ≠ .acknowledge a) ∧ ∀ r, msg ≠ .newSuccServer r)
      (accounts : e.server.accountMap = s.accountMap ∨
        ∃ a, e.server.accountMap = (s.getBalance a).1.accountMap)
      (processed : e.server.processedMap = s.processedMap) : LogStep s msg e
  | relay {req e} (type : req.type ≠ .query) (tail : s.istail = false)
      (next : s.ishead = true ∨ req.bankUpdateSeq = s.bankUpdateSeq + 1)
      (hist : e.server.hist = s.hist ++ [s.answered req])
      (seq : e.server.bankUpdateSeq = s.bankUpdateSeq + 1)
      (sent : e.server.sentList = s.sentList ++ [s.answered req])
      (out : e.out = [.tcp s.succServerAddr (.request (s.answered req))])
      (accounts : e.server.accountMap =
        (s.accept.updateRequestReply (s.number req)).1.accountMap)
      (processed : e.server.processedMap = s.processedMap) : LogStep s (.request req) e
  | answer {req e} (type : req.type ≠ .query) (tail : s.istail = true)
      (next : s.ishead = true ∨ req.bankUpdateSeq = s.bankUpdateSeq + 1)
      (hist : e.server.hist = s.hist ++ [s.answered req])
      (seq : e.server.bankUpdateSeq = s.bankUpdateSeq + 1)
      (sent : e.server.sentList = s.sentList ++ (s.answered req).toForward)
      (out : Quiet e.out)
      (accounts : e.server.accountMap =
        (s.accept.updateRequestReply (s.number req)).1.accountMap)
      (processed : e.server.processedMap = (s.remember (s.answered req)).processedMap) :
      LogStep s (.request req) e
  | ack {ack e} (hist : e.server.hist = s.hist) (seq : e.server.bankUpdateSeq = s.bankUpdateSeq)
      (sent : e.server.sentList = s.sentList.dropWhile (·.bankUpdateSeq ≤ ack.bankUpdateSeq))
      (out : Quiet e.out) (accounts : e.server.accountMap = s.accountMap)
      (processed : e.server.processedMap = (s.insertAllProcessed
        (s.sentList.takeWhile (·.bankUpdateSeq ≤ ack.bankUpdateSeq))).processedMap) :
      LogStep s (.acknowledge ack) e
  | toBeTail {e} (hist : e.server.hist = s.hist) (seq : e.server.bankUpdateSeq = s.bankUpdateSeq)
      (sent : e.server.sentList = s.sentList.filter (·.type = .transfer))
      (out : Quiet e.out) (accounts : e.server.accountMap = s.accountMap)
      (processed : e.server.processedMap = (s.insertAllProcessed
        (s.sentList.filter (·.type ≠ .transfer))).processedMap) : LogStep s .toBeTail e
  | reply {rep e} (hist : e.server.hist = s.hist) (seq : e.server.bankUpdateSeq = s.bankUpdateSeq)
      (sent : e.server.sentList = s.sentList.filter
        (fun it => !(it.reqId = rep.reqId && it.destAccountId = rep.accountId)))
      (out : Quiet e.out) (accounts : e.server.accountMap = s.accountMap)
      (processed : e.server.processedMap = s.processedMap) : LogStep s (.reply rep) e
  | resend {r e} (hist : e.server.hist = s.hist) (seq : e.server.bankUpdateSeq = s.bankUpdateSeq)
      (sent : e.server.sentList = s.sentList) (succ : e.server.succServerAddr = r.succAddr)
      (out : e.out = (s.sentList.filter (·.bankUpdateSeq > r.bankUpdateSeq)).map
        fun q => .tcp r.succAddr (.request q))
      (accounts : e.server.accountMap = s.accountMap)
      (processed : e.server.processedMap = s.processedMap) : LogStep s (.newSuccServer r) e

theorem receiveRequest_logStep (hext : s.extendingChain = false) :
    LogStep s (.request req) (s.receiveRequest req) := by
  have hcase := receiveRequest_cases s req
  generalize s.receiveRequest req = e at hcase ⊢
  cases hcase with
  | query type tail =>
    obtain ⟨m, hm⟩ := getBalance_eq s req.accountId
    have haccounts : ((s.handleQuery req).server).accountMap =
        (s.getBalance req.accountId).1.accountMap := rfl
    simp only [handleQuery, hm] at haccounts ⊢
    refine .keep rfl rfl rfl (quiet_replies [_]) ?_ (by simp) (Or.inr ⟨req.accountId, ?_⟩) rfl
    · rintro _ ⟨⟩ -
      exact Or.inl type
    · rw [hm]
  | refused why =>
    refine .keep rfl rfl rfl quiet_nil ?_ (by simp) (Or.inl rfl) rfl
    rintro _ - ⟨⟩
  | duplicate head seen =>
    refine .keep rfl rfl rfl quiet_nil ?_ (by simp) (Or.inl rfl) rfl
    rintro _ ⟨⟩ -
    exact Or.inr seen
  | relayed type tail next =>
    have hs := relayUpdate_server s req
    refine .relay type tail next ?_ ?_ ?_ relayUpdate_out ?_ ?_
    all_goals rw [hs]
    all_goals rfl
  | single type tail head =>
    have hs := answerUpdate_server req hext
    refine .answer type tail (Or.inl head) ?_ ?_ ?_ quiet_answerUpdate ?_ ?_
    all_goals rw [hs]
    all_goals rfl
  | tail type tail head next =>
    have hs := answerUpdate_server req hext
    refine .answer type tail (Or.inr next) ?_ ?_ ?_ quiet_tailHandleUpdate ?_ ?_
    all_goals rw [tailHandleUpdate_server, hs]
    all_goals rfl

/-- The handlers other than that of requests do not look at `extending_chain_`. -/
lemma handleMsg_logStep_other (hmsg : msg.isExtend = false) (hreq : ∀ q, msg ≠ .request q) :
    LogStep s msg (s.handleMsg master msg) := by
  cases msg with
  | request req => exact absurd rfl (hreq req)
  | acknowledge ack =>
    obtain ⟨m, hm⟩ := insertAllProcessed_eq s
      (s.sentList.takeWhile (·.bankUpdateSeq ≤ ack.bankUpdateSeq))
    simp only [handleMsg, receiveAck, hm]
    refine .ack rfl rfl rfl ?_ rfl (by rw [hm])
    dsimp only
    split_ifs
    · exact quiet_nil
    · exact quiet_sendbackAck ack
  | toBeHead => exact .keep rfl rfl rfl quiet_nil (by simp) (by simp) (Or.inl rfl) rfl
  | toBeTail =>
    obtain ⟨m, hm⟩ := insertAllProcessed_eq s (s.sentList.filter (·.type ≠ .transfer))
    simp only [handleMsg, toBeTail, hm]
    split
    · refine .toBeTail rfl rfl rfl ?_ rfl (by rw [hm])
      dsimp only
      split_ifs
      · exact quiet_nil
      · exact quiet_sendbackAck _
    · refine .toBeTail ?_ ?_ ?_ (quiet_forwardTransfers _) ?_ ?_ <;>
        rw [forwardTransfers_server]
      rw [hm]
  | newPreServer addr =>
    refine .keep rfl rfl rfl ?_ (by simp) (by simp) (Or.inl rfl) rfl
    simp [handleMsg, receiveNewPreserver, Quiet]
  | newSuccServer r => exact .resend rfl rfl rfl rfl rfl rfl rfl
  | newHead n =>
    simp only [handleMsg, handleNewHead]
    split_ifs
    · refine .keep ?_ ?_ ?_ (quiet_resendTransfers _ _) (by simp) (by simp) (Or.inl ?_) ?_ <;>
        rw [resendTransfers_server]
    · exact .keep rfl rfl rfl quiet_nil (by simp) (by simp) (Or.inl rfl) rfl
    · exact .keep rfl rfl rfl quiet_nil (by simp) (by simp) (Or.inl rfl) rfl
  | reply rep =>
    simp only [handleMsg, receiveTransferReply]
    split
    · exact .keep rfl rfl rfl quiet_nil (by simp) (by simp) (Or.inl rfl) rfl
    · refine .reply rfl rfl rfl ((quiet_replies _).append ?_) rfl rfl
      split_ifs
      · exact quiet_sendbackAck _
      · exact quiet_nil
  | newTail n => exact .keep rfl rfl rfl quiet_nil (by simp) (by simp) (Or.inl rfl) rfl
  | reqSeq r => exact .keep rfl rfl rfl quiet_nil (by simp) (by simp) (Or.inl rfl) rfl
  | join _ | extendServer _ | extendMsg _ | extendFinish _ | extendFail =>
    simp [Message.isExtend] at hmsg

/-- Every handler of a chain without joins is one of these log steps. -/
theorem handleMsg_logStep (hext : s.extendingChain = false) (hmsg : msg.isExtend = false) :
    LogStep s msg (s.handleMsg master msg) := by
  by_cases hreq : ∃ q, msg = .request q
  · obtain ⟨q, rfl⟩ := hreq
    exact receiveRequest_logStep hext
  · exact handleMsg_logStep_other hmsg fun q hq => hreq ⟨q, hq⟩

/-! ### The role and the links -/

/-- How a handler changes the role and the links. -/
structure RoleStep (s : ChainServer) (msg : Message) (s' : ChainServer) : Prop where
  head : s'.ishead = true ↔ s.ishead = true ∨ msg = .toBeHead
  tail : s'.istail = true ↔ s.istail = true ∨ msg = .toBeTail
  localAddr : s'.localAddr = s.localAddr
  extendingChain : s'.extendingChain = s.extendingChain
  succ : s'.succServerAddr = s.succServerAddr ∨
    ∃ r, msg = .newSuccServer r ∧ s'.succServerAddr = r.succAddr
  pre : s'.preServerAddr = s.preServerAddr ∨ msg = .newPreServer s'.preServerAddr

/-- A request changes neither. -/
lemma receiveRequest_frame (req : Request) (hext : s.extendingChain = false) :
    ∃ am pm h sl n, (s.receiveRequest req).server =
      { s with accountMap := am, processedMap := pm, hist := h, sentList := sl, bankUpdateSeq := n } := by
  have hcase := receiveRequest_cases s req
  generalize s.receiveRequest req = e at hcase ⊢
  cases hcase with
  | query type tail =>
    obtain ⟨m, hm⟩ := getBalance_eq s req.accountId
    simp only [handleQuery, hm]
    exact ⟨_, _, _, _, _, rfl⟩
  | refused why => exact ⟨_, _, _, _, _, rfl⟩
  | duplicate head seen => exact ⟨_, _, _, _, _, rfl⟩
  | relayed type tail next =>
    exact ⟨_, _, _, _, _, relayUpdate_server s req⟩
  | single type tail head =>
    exact ⟨_, _, _, _, _, answerUpdate_server req hext⟩
  | tail type tail head next =>
    rw [tailHandleUpdate_server]
    exact ⟨_, _, _, _, _, answerUpdate_server req hext⟩

lemma handleMsg_roleStep_other (hmsg : msg.isExtend = false) (hreq : ∀ q, msg ≠ .request q) :
    RoleStep s msg (s.handleMsg master msg).server := by
  cases msg with
  | request req => exact absurd rfl (hreq req)
  | acknowledge ack =>
    obtain ⟨m, hm⟩ := insertAllProcessed_eq s
      (s.sentList.takeWhile (·.bankUpdateSeq ≤ ack.bankUpdateSeq))
    simp only [handleMsg, receiveAck, hm]
    constructor <;> simp
  | toBeHead => constructor <;> simp [handleMsg, toBeHead]
  | toBeTail =>
    obtain ⟨m, hm⟩ := insertAllProcessed_eq s (s.sentList.filter (·.type ≠ .transfer))
    simp only [handleMsg, toBeTail, hm]
    split
    · constructor <;> simp
    · rw [forwardTransfers_server]
      constructor <;> simp
  | newPreServer addr => constructor <;> simp [handleMsg, receiveNewPreserver]
  | newSuccServer r => constructor <;> simp [handleMsg, receiveNewSuccserver]
  | newHead n =>
    simp only [handleMsg, handleNewHead]
    split_ifs
    · rw [resendTransfers_server]
      constructor <;> simp
    · constructor <;> simp
    · constructor <;> simp [abort]
  | reply rep =>
    simp only [handleMsg, receiveTransferReply]
    split
    · constructor <;> simp [abort]
    · constructor <;> simp
  | newTail n => constructor <;> simp [handleMsg]
  | reqSeq r => constructor <;> simp [handleMsg]
  | join _ | extendServer _ | extendMsg _ | extendFinish _ | extendFail =>
    simp [Message.isExtend] at hmsg

/-- Only `TO_BE_HEAD` and `TO_BE_TAIL` change the role, only `NEW_SUCC_SERVER` and
`NEW_PRE_SERVER` the links. -/
theorem handleMsg_roleStep (hext : s.extendingChain = false) (hmsg : msg.isExtend = false) :
    RoleStep s msg (s.handleMsg master msg).server := by
  by_cases hreq : ∃ q, msg = .request q
  · obtain ⟨q, rfl⟩ := hreq
    obtain ⟨am, pm, h, sl, n, hs⟩ := receiveRequest_frame q hext
    simp only [handleMsg, hs]
    constructor <;> simp
  · exact handleMsg_roleStep_other hmsg fun q hq => hreq ⟨q, hq⟩

/-! ### The packets -/

/-- What a handler that takes `s` to `s'` may send by TCP. -/
def PacketSpec (master : Address) (s : ChainServer) (msg : Message) (s' : ChainServer)
    (target : Address) : Message → Prop
  | .request q =>
    (s'.istail = true ∧ ∃ t ∈ s'.sentList, q = s'.transferToReq t) ∨
    (target = s'.succServerAddr ∧ q ∈ s'.sentList ∧
      ((∃ r, msg = .newSuccServer r) ∨ s'.istail = false ∧ q ∈ s'.hist))
  | .acknowledge a =>
    target = s'.preServerAddr ∧
      (msg = .acknowledge a ∨ (s'.istail = true ∨ ∃ rep, msg = .reply rep) ∧ s'.sentList = [] ∧
        a.bankUpdateSeq = s'.bankUpdateSeq)
  | .reply _ => ∃ q, q.type = .transferTo ∧ target = q.clientAddr ∧ (q ∈ s'.hist ∨ q ∈ s.sentList)
  | .reqSeq r =>
    target = master ∧ msg = .newPreServer r.preAddr ∧ r.succAddr = s.localAddr ∧
      r.bankUpdateSeq = s.bankUpdateSeq
  | _ => False

/-- A transfer sent downstream by an acting tail. -/
lemma packetSpec_transferTo {s' s'' : ChainServer} {t : Address} (htail : s'.istail = true)
    (haddr : s''.localAddr = s'.localAddr) {q : Request} (hq : q ∈ s'.sentList) {a : Address}
    {m : Message} (h : (Packet.tcp a (.request (s''.transferToReq q))).tcp? = some (t, m)) :
    PacketSpec master s msg s' t m := by
  simp only [Packet.tcp?_tcp, Option.some.injEq, Prod.mk.injEq] at h
  obtain ⟨rfl, rfl⟩ := h
  exact Or.inl ⟨htail, q, hq, by simp only [transferToReq, haddr]⟩

/-- A reply that travels by TCP belongs to a `TRANSFER_TO`. -/
lemma packetSpec_reply {s' : ChainServer} {q : Request} (hq : q ∈ s'.hist ∨ q ∈ s.sentList)
    {t : Address} {m : Message} (h : (replyToClient q).tcp? = some (t, m)) :
    PacketSpec master s msg s' t m := by
  unfold replyToClient at h
  rw [Packet.tcp?_replyToClient] at h
  split_ifs at h with htype
  simp only [Option.some.injEq, Prod.mk.injEq] at h
  obtain ⟨rfl, rfl⟩ := h
  exact ⟨q, htype, rfl, hq⟩

lemma answerUpdate_packets (hext : s.extendingChain = false) (htail : s.istail = true) {p : Packet}
    (hp : p ∈ (s.accept.answerUpdate (s.number req)).out) {t : Address} {m : Message}
    (hm : p.tcp? = some (t, m)) :
    PacketSpec master s msg (s.accept.answerUpdate (s.number req)).server t m := by
  rw [answerUpdate_server req hext]
  have hhist : s.answered req ∈ s.hist ++ [s.answered req] := by simp
  obtain ⟨am, ham⟩ := updateRequestReply_eq s.accept (s.number req)
  simp only [answerUpdate, ham] at hp
  split_ifs at hp with htype
  · rcases mem_handleTransfer hp with rfl | ⟨happlied, a, -, rfl⟩
    · exact packetSpec_reply (Or.inl hhist) hm
    · refine packetSpec_transferTo ?_ ?_ ?_ hm
      · exact htail
      · rfl
      · exact List.mem_append_right _ (Request.mem_toForward.mpr ⟨rfl, htype, happlied⟩)
  · obtain rfl : p = replyToClient (s.answered req) := List.mem_singleton.mp hp
    exact packetSpec_reply (Or.inl hhist) hm

lemma receiveRequest_packets (hext : s.extendingChain = false) {p : Packet}
    (hp : p ∈ (s.receiveRequest req).out) {t : Address} {m : Message} (hm : p.tcp? = some (t, m)) :
    PacketSpec master s (.request req) (s.receiveRequest req).server t m := by
  have hcase := receiveRequest_cases s req
  generalize s.receiveRequest req = e at hcase hp ⊢
  cases hcase with
  | query type tail =>
    obtain rfl := by simpa [handleQuery] using hp
    simp [replyToClient, Packet.tcp?, type] at hm
  | refused why => simp [abort] at hp
  | duplicate head seen => simp at hp
  | relayed type tail next =>
    have hs := relayUpdate_server s req
    rw [relayUpdate_out, List.mem_singleton] at hp
    subst hp
    simp only [Packet.tcp?_tcp, Option.some.injEq, Prod.mk.injEq] at hm
    obtain ⟨rfl, rfl⟩ := hm
    rw [hs]
    exact Or.inr ⟨rfl, by simp, Or.inr ⟨tail, by simp⟩⟩
  | single type tail head => exact answerUpdate_packets hext tail hp hm
  | tail type tail head next =>
    rw [tailHandleUpdate_server]
    rcases Effect.mem_andThen hp with hp | hp
    · exact answerUpdate_packets hext tail hp hm
    · split_ifs at hp with hempty
      · have hs := answerUpdate_server req hext
        simp only [sendbackAck, List.mem_singleton] at hp
        subst hp
        simp only [Packet.tcp?_tcp, Option.some.injEq, Prod.mk.injEq] at hm
        obtain ⟨rfl, rfl⟩ := hm
        refine ⟨rfl, Or.inr ⟨?_, by simpa using hempty, ?_⟩⟩
        · rw [hs]
          exact Or.inl tail
        · rw [hs]
          rfl
      · simp at hp

lemma handleMsg_packets_other (hmsg : msg.isExtend = false) (hreq : ∀ q, msg ≠ .request q)
    {p : Packet} (hp : p ∈ (s.handleMsg master msg).out) {t : Address} {m : Message}
    (hm : p.tcp? = some (t, m)) :
    PacketSpec master s msg (s.handleMsg master msg).server t m := by
  cases msg with
  | request req => exact absurd rfl (hreq req)
  | acknowledge ack =>
    obtain ⟨am, hs⟩ := insertAllProcessed_eq s
      (s.sentList.takeWhile (·.bankUpdateSeq ≤ ack.bankUpdateSeq))
    simp only [handleMsg, receiveAck, hs] at hp ⊢
    split_ifs at hp
    · simp at hp
    · simp only [sendbackAck, List.mem_singleton] at hp
      subst hp
      simp only [Packet.tcp?_tcp, Option.some.injEq, Prod.mk.injEq] at hm
      obtain ⟨rfl, rfl⟩ := hm
      exact ⟨rfl, Or.inl rfl⟩
  | toBeHead => simp [handleMsg, toBeHead] at hp
  | toBeTail =>
    obtain ⟨pm, hs⟩ := insertAllProcessed_eq s (s.sentList.filter (·.type ≠ .transfer))
    simp only [handleMsg, toBeTail, hs] at hp ⊢
    split at hp
    next hempty =>
      rw [if_pos hempty]
      split_ifs at hp
      · simp at hp
      · simp only [sendbackAck, List.mem_singleton] at hp
        subst hp
        simp only [Packet.tcp?_tcp, Option.some.injEq, Prod.mk.injEq] at hm
        obtain ⟨rfl, rfl⟩ := hm
        exact ⟨rfl, Or.inr ⟨Or.inl rfl, by simpa using hempty, rfl⟩⟩
    next hempty =>
      rw [if_neg hempty, forwardTransfers_server]
      obtain ⟨q, hq, a, -, rfl⟩ := mem_forwardTransfers hp
      exact packetSpec_transferTo rfl rfl hq hm
  | newPreServer addr =>
    simp only [handleMsg, receiveNewPreserver, List.mem_singleton] at hp ⊢
    subst hp
    simp only [Packet.tcp?_tcp, Option.some.injEq, Prod.mk.injEq] at hm
    obtain ⟨rfl, rfl⟩ := hm
    exact ⟨rfl, rfl, rfl, rfl⟩
  | newSuccServer r =>
    simp only [handleMsg, receiveNewSuccserver, List.mem_map, forwardRequest] at hp ⊢
    obtain ⟨q, hq, rfl⟩ := hp
    simp only [Packet.tcp?_tcp, Option.some.injEq, Prod.mk.injEq] at hm
    obtain ⟨rfl, rfl⟩ := hm
    exact Or.inr ⟨rfl, List.mem_of_mem_filter hq, Or.inl ⟨r, rfl⟩⟩
  | newHead n =>
    simp only [handleMsg, handleNewHead] at hp ⊢
    split_ifs at hp ⊢ with hbank htail
    · rw [resendTransfers_server]
      obtain ⟨q, hq, -, a, -, rfl⟩ := mem_resendTransfers hp
      exact packetSpec_transferTo htail rfl hq hm
    · simp at hp
    · simp [abort] at hp
  | reply rep =>
    simp only [handleMsg, receiveTransferReply] at hp ⊢
    split at hp
    · simp [abort] at hp
    next hout =>
      rw [if_neg hout]
      rcases List.mem_append.mp hp with hp | hp
      · obtain ⟨q, hq, rfl⟩ := List.mem_map.mp hp
        exact packetSpec_reply (Or.inr (List.mem_of_mem_filter hq)) hm
      · split_ifs at hp with hempty
        · simp only [sendbackAck, List.mem_singleton] at hp
          subst hp
          simp only [Packet.tcp?_tcp, Option.some.injEq, Prod.mk.injEq] at hm
          obtain ⟨rfl, rfl⟩ := hm
          simp only [Bool.and_eq_true, List.isEmpty_iff] at hempty
          exact ⟨rfl, Or.inr ⟨Or.inr ⟨rep, rfl⟩, hempty.1.2, rfl⟩⟩
        · simp at hp
  | newTail n => simp [handleMsg] at hp
  | reqSeq r => simp [handleMsg] at hp
  | join _ | extendServer _ | extendMsg _ | extendFinish _ | extendFail =>
    simp [Message.isExtend] at hmsg

/-- Every packet that a handler of a chain without joins sends by TCP. -/
theorem handleMsg_packets (hext : s.extendingChain = false) (hmsg : msg.isExtend = false)
    {p : Packet} (hp : p ∈ (s.handleMsg master msg).out) {t : Address} {m : Message}
    (hm : p.tcp? = some (t, m)) :
    PacketSpec master s msg (s.handleMsg master msg).server t m := by
  by_cases hreq : ∃ q, msg = .request q
  · obtain ⟨q, rfl⟩ := hreq
    exact receiveRequest_packets hext hp hm
  · exact handleMsg_packets_other hmsg (fun q hq => hreq ⟨q, hq⟩) hp hm

/-! ### The replies -/

lemma mem_answerUpdate {u : Request}
    (h : .replyToClient u ∈ (s.accept.answerUpdate (s.number req)).out) : u = s.answered req := by
  simp only [answerUpdate] at h
  split_ifs at h
  · rcases mem_handleTransfer h with h | ⟨-, a, -, h⟩
    · exact Packet.replyToClient.inj h
    · simp at h
  · exact Packet.replyToClient.inj (List.mem_singleton.mp h)

/-- A reply to an update answers a request of the history, at the tail. -/
theorem handleMsg_replies (hext : s.extendingChain = false) {u : Request}
    (h : .replyToClient u ∈ (s.handleMsg master msg).out) :
    u.type = .query ∨ (u ∈ s.sentList ∧ ∃ rep, msg = .reply rep) ∨
      (u ∈ (s.handleMsg master msg).server.hist ∧ s.istail = true) := by
  cases msg with
  | request req =>
    simp only [handleMsg] at h ⊢
    have hcase := receiveRequest_cases s req
    generalize s.receiveRequest req = e at hcase h ⊢
    cases hcase with
    | query type tail =>
      left
      obtain rfl := Packet.replyToClient.inj (List.mem_singleton.mp h)
      exact type
    | refused why => simp [abort] at h
    | duplicate head seen => simp at h
    | relayed type tail next =>
      rw [relayUpdate_out] at h
      simp at h
    | single type tail head =>
      have hs := answerUpdate_server req hext
      rw [hs, mem_answerUpdate h]
      exact Or.inr (Or.inr ⟨by simp, tail⟩)
    | tail type tail head next =>
      have hs := answerUpdate_server req hext
      rw [tailHandleUpdate_server, hs]
      rcases Effect.mem_andThen h with h | h
      · rw [mem_answerUpdate h]
        exact Or.inr (Or.inr ⟨by simp, tail⟩)
      · split_ifs at h <;> simp [sendbackAck] at h
  | reply rep =>
    simp only [handleMsg, receiveTransferReply] at h
    split at h
    · simp [abort] at h
    · rcases List.mem_append.mp h with h | h
      · obtain ⟨q, hq, heq⟩ := List.mem_map.mp h
        rw [← Packet.replyToClient.inj heq]
        exact Or.inr (Or.inl ⟨List.mem_of_mem_filter hq, rep, rfl⟩)
      · split_ifs at h <;> simp [sendbackAck] at h
  | acknowledge ack =>
    simp only [handleMsg, receiveAck] at h
    split_ifs at h <;> simp [sendbackAck] at h
  | toBeTail =>
    simp only [handleMsg, toBeTail] at h
    split at h
    · split_ifs at h <;> simp [sendbackAck] at h
    · obtain ⟨q, -, a, -, h⟩ := mem_forwardTransfers h
      simp at h
  | newHead n =>
    simp only [handleMsg, handleNewHead] at h
    split_ifs at h
    · obtain ⟨q, -, -, a, -, h⟩ := mem_resendTransfers h
      simp at h
    · simp at h
    · simp [abort] at h
  | newSuccServer r =>
    obtain ⟨q, -, h⟩ := List.mem_map.mp h
    simp [forwardRequest] at h
  | extendMsg m =>
    cases m with
    | account a b =>
      simp only [handleMsg, receiveExtendMsg] at h
      split at h <;> simp [abort] at h
    | _ => simp [handleMsg, receiveExtendMsg] at h
  | extendServer a =>
    simp only [handleMsg, receiveExtendServer] at h
    split at h <;> simp [abort] at h
  | _ => simp [handleMsg, toBeHead, receiveNewPreserver, extendingServerFail] at h

/-! ### Complete forwarding -/

lemma forwardTransferToDownstream_complete (h : (s.forwardTransferToDownstream req).ok = true) :
    ∃ a, .tcp a (.request (s.transferToReq req)) ∈ (s.forwardTransferToDownstream req).out := by
  unfold forwardTransferToDownstream at h ⊢
  split
  next hlookup => simp [hlookup, abort] at h
  next head _ => exact ⟨head, List.mem_singleton.mpr rfl⟩

/-- A loop that ends has forwarded every transfer. -/
lemma forwardTransfers_complete {l : List Request} (h : (s.forwardTransfers l).ok = true)
    {t : Request} (ht : t ∈ l) :
    ∃ a, .tcp a (.request (s.transferToReq t)) ∈ (s.forwardTransfers l).out := by
  induction l with
  | nil => simp at ht
  | cons q l ih =>
    unfold forwardTransfers Effect.andThen at h ⊢
    split_ifs at h ⊢ with hok
    · rw [forwardTransferToDownstream_server] at h ⊢
      rcases List.mem_cons.mp ht with rfl | ht
      · obtain ⟨a, ha⟩ := forwardTransferToDownstream_complete hok
        exact ⟨a, List.mem_append_left _ ha⟩
      · obtain ⟨a, ha⟩ := ih h ht
        exact ⟨a, List.mem_append_right _ ha⟩
    · exact absurd h hok

lemma handleTransfer_complete (happlied : req.Applied) (h : (s.handleTransfer req).ok = true) :
    ∃ a, .tcp a (.request (s.transferToReq req)) ∈ (s.handleTransfer req).out := by
  obtain ⟨m, hm⟩ := insertProcessedList_eq s req
  unfold handleTransfer Effect.andThen at h ⊢
  simp only [happlied.1, happlied.2, hm, if_true, ne_eq, not_true_eq_false, if_false,
    List.append_nil] at h ⊢
  have hok : ((insertSentList { s with processedMap := m } req).forwardTransferToDownstream
      req).ok = true := by
    by_contra hok
    simp [hok] at h
  rw [if_pos hok]
  exact forwardTransferToDownstream_complete (s := insertSentList { s with processedMap := m } req)
    hok

lemma answerUpdate_complete (hok : (s.accept.answerUpdate (s.number req)).ok = true) {t : Request}
    (ht : t ∈ (s.answered req).toForward) : ∃ a,
      .tcp a (.request (s.transferToReq t)) ∈ (s.accept.answerUpdate (s.number req)).out := by
  obtain ⟨rfl, htype, happlied⟩ := Request.mem_toForward.mp ht
  obtain ⟨m, hm⟩ := updateRequestReply_eq s.accept (s.number req)
  have hanswered : (s.accept.updateRequestReply (s.number req)).2 = s.answered req := rfl
  unfold answerUpdate at hok ⊢
  simp only [hm, hanswered, htype, if_true] at hok ⊢
  exact handleTransfer_complete (s := writeLogReply { s.accept with accountMap := m }
    (s.answered req)) happlied hok

/-- A tail that survives its handler has forwarded every transfer that it has not kept from
before. -/
theorem handleMsg_forwards (hext : s.extendingChain = false) (hmsg : msg.isExtend = false)
    (hok : (s.handleMsg master msg).ok = true)
    (htail : (s.handleMsg master msg).server.istail = true) {t : Request}
    (ht : t ∈ (s.handleMsg master msg).server.sentList) :
    (∃ a, .tcp a (.request (s.transferToReq t)) ∈ (s.handleMsg master msg).out) ∨
      t ∈ s.sentList ∧ msg ≠ .toBeTail := by
  cases msg with
  | request req =>
    simp only [handleMsg] at hok htail ht ⊢
    have hcase := receiveRequest_cases s req
    generalize s.receiveRequest req = e at hcase hok htail ht ⊢
    cases hcase with
    | query type tail =>
      obtain ⟨m, hm⟩ := getBalance_eq s req.accountId
      simp only [handleQuery, hm] at ht
      exact Or.inr ⟨ht, by simp⟩
    | refused why => simp [abort] at hok
    | duplicate head seen => exact Or.inr ⟨ht, by simp⟩
    | relayed type tail next =>
      rw [relayUpdate_server] at htail
      have htail : s.istail = true := htail
      rw [tail] at htail
      simp at htail
    | single type tail head =>
      rw [answerUpdate_server req hext] at ht
      rcases List.mem_append.mp ht with ht | ht
      · exact Or.inr ⟨ht, by simp⟩
      · exact Or.inl (answerUpdate_complete hok ht)
    | tail type tail head next =>
      rw [tailHandleUpdate_server, answerUpdate_server req hext] at ht
      rcases List.mem_append.mp ht with ht | ht
      · exact Or.inr ⟨ht, by simp⟩
      · unfold tailHandleUpdate Effect.andThen at hok ⊢
        split_ifs at hok ⊢ with hfirst
        · obtain ⟨a, ha⟩ := answerUpdate_complete hfirst ht
          exact Or.inl ⟨a, List.mem_append_left _ ha⟩
        · exact absurd hok hfirst
  | acknowledge ack =>
    obtain ⟨m, hm⟩ := insertAllProcessed_eq s
      (s.sentList.takeWhile (·.bankUpdateSeq ≤ ack.bankUpdateSeq))
    simp only [handleMsg, receiveAck, hm] at ht
    exact Or.inr ⟨(List.dropWhile_sublist _).subset ht, by simp⟩
  | toBeTail =>
    obtain ⟨m, hm⟩ := insertAllProcessed_eq s (s.sentList.filter (·.type ≠ .transfer))
    simp only [handleMsg, toBeTail, hm] at hok ht ⊢
    split at ht
    next hempty =>
      rw [List.isEmpty_iff] at hempty
      simp [hempty] at ht
    next hempty =>
      rw [if_neg hempty] at hok ⊢
      rw [forwardTransfers_server] at ht
      exact Or.inl (forwardTransfers_complete hok ht)
  | reply rep =>
    simp only [handleMsg, receiveTransferReply] at ht
    split at ht
    · exact Or.inr ⟨ht, by simp⟩
    · exact Or.inr ⟨List.mem_of_mem_filter ht, by simp⟩
  | newHead n =>
    simp only [handleMsg, handleNewHead] at ht
    split_ifs at ht
    · rw [resendTransfers_server] at ht
      exact Or.inr ⟨ht, by simp⟩
    · exact Or.inr ⟨ht, by simp⟩
    · exact Or.inr ⟨ht, by simp⟩
  | join _ | extendServer _ | extendMsg _ | extendFinish _ | extendFail =>
    simp [Message.isExtend] at hmsg
  | _ => exact Or.inr ⟨ht, by simp⟩

end ChainServer

end ChainReplication
