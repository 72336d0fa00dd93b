import ChainReplication.Server.Downstream

/-!
# Levels of messages

A handler sends messages of a lower level than the one it has taken up. The exceptions are updates, which
only go down the chain, and acknowledgements, which only go up.
-/

namespace ChainReplication

/-- What makes a server or the master send something comes above what is sent. -/
def Message.level : Message → ℕ
  | .newPreServer _ => 7
  | .reqSeq _ => 6
  | .newSuccServer _ | .toBeTail | .newHead _ => 5
  | .request q => if q.type ≠ .transferTo then 4 else if q.bankUpdateSeq = 0 then 3 else 2
  | .reply _ => 1
  | _ => 0

namespace ChainServer

/-- The message `m` for `t` is less than `msg`, which has taken a server to `s'`. -/
inductive Lower (s' : ChainServer) (msg : Message) (t : Address) (m : Message) : Prop where
  | level (lt : m.level < msg.level)
  | update {q q'} (taken : msg = .request q) (sent : m = .request q') (level : m.level = msg.level)
      (succ : t = s'.succServerAddr)
  | ack {a a'} (taken : msg = .acknowledge a) (sent : m = .acknowledge a')
      (pre : t = s'.preServerAddr)

variable {s s' : ChainServer} {req : Request} {master : Address} {msg m : Message} {t : Address}
  {p : Packet}

lemma level_transferTo (u : Request) : (Message.request (s.transferToReq u)).level = 3 := by
  simp [Message.level, transferToReq]

lemma level_request (req : Request) : 1 < (Message.request req).level := by
  simp only [Message.level]
  split_ifs <;> decide

lemma lower_ack {a : Acknowledge} (h : (s.sendbackAck a).tcp? = some (t, m)) (hmsg : 0 < msg.level) :
    Lower s' msg t m := by
  rw [sendbackAck, Packet.tcp?_tcp] at h
  obtain ⟨-, rfl⟩ := Prod.mk.inj (Option.some.inj h)
  exact .level hmsg

lemma answerUpdate_lower (hp : p ∈ (s.accept.answerUpdate (s.number req)).out)
    (hm : p.tcp? = some (t, m)) : Lower s' (.request req) t m := by
  have hreply (h : (replyToClient (s.answered req)).tcp? = some (t, m)) :
      Lower s' (.request req) t m := by
    rw [replyToClient, Packet.tcp?_replyToClient] at h
    split_ifs at h
    obtain ⟨-, rfl⟩ := Prod.mk.inj (Option.some.inj h)
    exact .level (level_request req)
  have hanswered : (s.accept.updateRequestReply (s.number req)).2 = s.answered req := rfl
  simp only [answerUpdate, hanswered] at hp
  split_ifs at hp with htype
  · rcases mem_handleTransfer hp with rfl | ⟨-, a, -, rfl⟩
    · exact hreply hm
    · rw [Packet.tcp?_tcp] at hm
      obtain ⟨-, rfl⟩ := Prod.mk.inj (Option.some.inj hm)
      rw [answered_type] at htype
      refine .level ?_
      rw [level_transferTo]
      simp [Message.level, htype]
  · obtain rfl := List.mem_singleton.mp hp
    exact hreply hm

lemma receiveRequest_lower (hp : p ∈ (s.receiveRequest req).out) (hm : p.tcp? = some (t, m)) :
    Lower (s.receiveRequest req).server (.request req) t m := by
  have hcase := receiveRequest_cases s req
  generalize s.receiveRequest req = e at hcase hp ⊢
  cases hcase with
  | query type tail =>
    obtain rfl := by simpa [handleQuery] using hp
    simp [replyToClient, Packet.tcp?, type] at hm
  | refused why => simp [abort] at hp
  | duplicate head seen => simp at hp
  | relayed type tail next =>
    rw [relayUpdate_out, List.mem_singleton] at hp
    subst hp
    rw [Packet.tcp?_tcp] at hm
    obtain ⟨rfl, rfl⟩ := Prod.mk.inj (Option.some.inj hm)
    have hsucc : s.succServerAddr = (s.accept.relayUpdate (s.number req)).server.succServerAddr := by
      rw [relayUpdate_server]
      rfl
    by_cases hreq : req.type = .transferTo
    · by_cases hseq : req.bankUpdateSeq = 0
      · refine .level ?_
        simp [Message.level, hreq, hseq]
      · refine .update rfl rfl ?_ hsucc
        simp [Message.level, hreq, hseq]
    · refine .update rfl rfl ?_ hsucc
      simp [Message.level, hreq]
  | single type tail head => exact answerUpdate_lower hp hm
  | tail type tail head next =>
    rcases Effect.mem_andThen hp with hp | hp
    · exact answerUpdate_lower hp hm
    · split_ifs at hp
      · rw [List.mem_singleton] at hp
        subst hp
        exact lower_ack hm (Nat.zero_lt_of_lt (level_request req))
      · simp at hp

/-- Whatever a handler of a chain without joins sends by TCP is less than what it has taken up. -/
theorem handleMsg_lower (hmsg : msg.isExtend = false)
    (hreply : ∀ rep, msg = .reply rep → ∀ q ∈ s.sentList, q.type = .transfer)
    (hp : p ∈ (s.handleMsg master msg).out) (hm : p.tcp? = some (t, m)) :
    Lower (s.handleMsg master msg).server msg t m := by
  cases msg with
  | request req => exact receiveRequest_lower hp hm
  | acknowledge ack =>
    obtain ⟨pm, hs⟩ := insertAllProcessed_eq s
      (s.sentList.takeWhile (·.bankUpdateSeq ≤ ack.bankUpdateSeq))
    simp only [handleMsg, receiveAck, hs] at hp ⊢
    split_ifs at hp
    · cases hp
    · rw [List.mem_singleton] at hp
      subst hp
      rw [sendbackAck, Packet.tcp?_tcp] at hm
      obtain ⟨rfl, rfl⟩ := Prod.mk.inj (Option.some.inj hm)
      exact .ack rfl rfl rfl
  | toBeHead => simp [handleMsg, toBeHead] at hp
  | toBeTail =>
    obtain ⟨pm, hs⟩ := insertAllProcessed_eq s (s.sentList.filter (·.type ≠ .transfer))
    simp only [handleMsg, toBeTail, hs] at hp
    split at hp
    · split_ifs at hp
      · cases hp
      · rw [List.mem_singleton] at hp
        subst hp
        exact lower_ack hm (by decide)
    · obtain ⟨q, -, a, -, rfl⟩ := mem_forwardTransfers hp
      rw [Packet.tcp?_tcp] at hm
      obtain ⟨-, rfl⟩ := Prod.mk.inj (Option.some.inj hm)
      refine .level ?_
      rw [level_transferTo]
      decide
  | newPreServer addr =>
    simp only [handleMsg, receiveNewPreserver, List.mem_singleton] at hp
    subst hp
    rw [Packet.tcp?_tcp] at hm
    obtain ⟨-, rfl⟩ := Prod.mk.inj (Option.some.inj hm)
    exact .level (by simp [Message.level])
  | newSuccServer r =>
    obtain ⟨q, -, rfl⟩ := List.mem_map.mp hp
    rw [forwardRequest, Packet.tcp?_tcp] at hm
    obtain ⟨-, rfl⟩ := Prod.mk.inj (Option.some.inj hm)
    refine .level ?_
    simp only [Message.level]
    split_ifs <;> decide
  | newHead n =>
    simp only [handleMsg, handleNewHead] at hp
    split_ifs at hp
    · obtain ⟨q, -, -, a, -, rfl⟩ := mem_resendTransfers hp
      rw [Packet.tcp?_tcp] at hm
      obtain ⟨-, rfl⟩ := Prod.mk.inj (Option.some.inj hm)
      refine .level ?_
      rw [level_transferTo]
      simp [Message.level]
    · cases hp
    · simp [abort] at hp
  | reply rep =>
    simp only [handleMsg, receiveTransferReply] at hp
    split at hp
    · simp [abort] at hp
    · rcases List.mem_append.mp hp with hp | hp
      · -- the client of a transfer is told by UDP
        obtain ⟨q, hq, rfl⟩ := List.mem_map.mp hp
        have htype := hreply rep rfl q (List.mem_of_mem_filter hq)
        simp [replyToClient, Packet.tcp?, htype] at hm
      · split_ifs at hp
        · rw [List.mem_singleton] at hp
          subst hp
          exact lower_ack hm (by simp [Message.level])
        · cases hp
  | newTail n => simp [handleMsg] at hp
  | reqSeq r => simp [handleMsg] at hp
  | join _ | extendServer _ | extendMsg _ | extendFinish _ | extendFail =>
    simp [Message.isExtend] at hmsg

end ChainServer

end ChainReplication
