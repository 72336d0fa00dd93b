import ChainReplication.Server.Dedup

/-!
# A chain of one server

The sequential machine behind a chain: one server, head and tail at once, handles requests one after
the other. A tail that applies the same updates under the same numbers answers as this server does.
-/

namespace ChainReplication

/-- The replies among the packets of a handler. -/
def Effect.replies (e : Effect) : List Request :=
  e.out.filterMap fun
    | .replyToClient req => some req
    | _ => none

namespace ChainServer

/-- The only server of a bank's chain, before its first request. -/
def single (bankId : String) (localAddr : Address) : ChainServer :=
  { bankId := bankId, ishead := true, istail := true, localAddr := localAddr }

/-- Handle requests one after the other. -/
def receiveRequests (s : ChainServer) (reqs : List Request) : Effect :=
  reqs.foldl (fun e req => e.andThen (·.receiveRequest req)) { server := s }

variable {s t : ChainServer} {msg : Message} {req : Request} {reqs : List Request}
  {master : Address}

lemma receiveRequests_append (reqs' : List Request) : s.receiveRequests (reqs ++ reqs') =
    (s.receiveRequests reqs).andThen (·.receiveRequests reqs') := by
  induction reqs' using List.reverseRecOn with
  | nil =>
    rw [List.append_nil]
    obtain ⟨s', out, ok⟩ := s.receiveRequests reqs
    cases ok <;> simp [Effect.andThen, receiveRequests]
  | append_singleton l q ih =>
    have concat (s : ChainServer) (l : List Request) : s.receiveRequests (l ++ [q]) =
        (s.receiveRequests l).andThen (·.receiveRequest q) := by
      rw [receiveRequests, List.foldl_append]
      rfl
    rw [← List.append_assoc, concat, ih]
    simp only [concat, Effect.andThen]
    split_ifs <;> simp

lemma receiveRequests_singleton : s.receiveRequests [req] = s.receiveRequest req := by
  simp [receiveRequests, Effect.andThen]

lemma replies_andThen {e : Effect} {f : ChainServer → Effect} (h : e.ok = true) :
    (e.andThen f).replies = e.replies ++ (f e.server).replies := by
  rw [Effect.andThen, if_pos h]
  exact List.filterMap_append

/-- What has been answered stays answered. -/
lemma replies_prefix (h : (s.receiveRequests reqs).ok = true) (reqs' : List Request) :
    (s.receiveRequests reqs).replies <+: (s.receiveRequests (reqs ++ reqs')).replies := by
  rw [receiveRequests_append, replies_andThen h]
  exact List.prefix_append _ _

/-! ### What an idle handler leaves alone -/

/-- At a server that keeps nothing in `sent_list_`, only requests change the stores and are
answered. -/
lemma handleMsg_idle (hsent : s.sentList = []) (hmsg : msg.isExtend = false)
    (hreq : ∀ q, msg ≠ .request q) :
    (s.handleMsg master msg).server.accountMap = s.accountMap ∧
      (s.handleMsg master msg).server.processedMap = s.processedMap ∧
      (s.handleMsg master msg).server.bankUpdateSeq = s.bankUpdateSeq ∧
      (s.handleMsg master msg).replies = [] := by
  cases msg with
  | request q => exact absurd rfl (hreq q)
  | acknowledge ack =>
    simp only [handleMsg, receiveAck, hsent, insertAllProcessed, List.takeWhile_nil, List.foldl_nil,
      Effect.replies]
    split_ifs <;> exact ⟨trivial, trivial, trivial, rfl⟩
  | toBeTail =>
    simp only [handleMsg, toBeTail, hsent, insertAllProcessed, List.filter_nil, List.foldl_nil,
      List.isEmpty_nil, if_true, Effect.replies]
    split_ifs <;> exact ⟨trivial, trivial, trivial, rfl⟩
  | newHead n =>
    simp only [handleMsg, handleNewHead, hsent, resendTransfers, Effect.replies]
    split_ifs <;> exact ⟨rfl, rfl, rfl, rfl⟩
  | reply rep =>
    simp only [handleMsg, receiveTransferReply, hsent, List.filter_nil, Effect.replies]
    split_ifs <;> exact ⟨rfl, rfl, rfl, rfl⟩
  | newSuccServer r =>
    simp only [handleMsg, receiveNewSuccserver, hsent, Effect.replies]
    exact ⟨trivial, trivial, trivial, rfl⟩
  | join _ | extendServer _ | extendMsg _ | extendFinish _ | extendFail =>
    simp [Message.isExtend] at hmsg
  | _ => exact ⟨rfl, rfl, rfl, rfl⟩

/-! ### The tail and the single server -/

/-- `update_request_reply` reads the stores and the body of the request only. -/
lemma updateRequestReply_congr (accounts : s.accountMap = t.accountMap)
    (processed : s.processedMap = t.processedMap) (sent : s.sentList = t.sentList) (req : Request) :
    (s.updateRequestReply req.body).2 = (t.updateRequestReply req).2 ∧
      (s.updateRequestReply req.body).1.accountMap = (t.updateRequestReply req).1.accountMap := by
  have hbody : s.updateRequestReply req.body = s.updateRequestReply req := rfl
  have hprecedent : s.precedent req = t.precedent req := by
    simp only [precedent, accounts, processed, sent]
  have hbalance : s.balance req.accountId = t.balance req.accountId := by
    rw [balance, accounts, balance]
  rw [hbody]
  cases hit : t.precedent req with
  | some it =>
    rw [updateRequestReply_of_precedent hit, updateRequestReply_of_precedent (hprecedent.trans hit),
      hbalance]
    exact ⟨rfl, accounts⟩
  | none =>
    obtain ⟨hs, hs'⟩ := updateRequestReply_of_none (hprecedent.trans hit)
    obtain ⟨ht, ht'⟩ := updateRequestReply_of_none hit
    have hcreate : (s.getOrCreateAccount req).1.accountMap =
        (t.getOrCreateAccount req).1.accountMap := by
      unfold getOrCreateAccount
      rw [accounts]
      split
      · rfl
      · exact accounts
    rw [hs, hs', ht, ht', hbalance]
    refine ⟨rfl, ?_⟩
    split_ifs
    · exact hcreate
    · rw [accounts]

lemma receiveRequest_single (hhead : s.ishead = true) (htail : s.istail = true)
    (htype : req.type ≠ .query) :
    s.receiveRequest req = s.accept.answerUpdate (s.number req) := by
  have hcase := receiveRequest_cases s req
  generalize s.receiveRequest req = e at hcase ⊢
  cases hcase with
  | query type tail => exact absurd type htype
  | refused why => simp [htype, hhead] at why
  | duplicate head seen => simp [hhead] at head
  | relayed type tail => simp [htail] at tail
  | single => rfl
  | tail type tail head => simp [hhead] at head

lemma receiveRequest_tail (hhead : s.ishead = false) (htail : s.istail = true)
    (htype : req.type ≠ .query) (hnext : req.bankUpdateSeq = s.bankUpdateSeq + 1) :
    s.receiveRequest req = s.accept.tailHandleUpdate (s.number req) := by
  have hcase := receiveRequest_cases s req
  generalize s.receiveRequest req = e at hcase ⊢
  cases hcase with
  | query type tail => exact absurd type htype
  | refused why => simp [htype, hnext] at why
  | duplicate head seen => omega
  | relayed type tail => simp [htail] at tail
  | single type tail head => simp [hhead] at head
  | tail => rfl

/-- An answering server replies at once to an update that is no transfer. -/
lemma answerUpdate_plain (htype : req.type ≠ .transfer) :
    (s.accept.answerUpdate (s.number req)).out = [replyToClient (s.answered req)] ∧
      (s.accept.answerUpdate (s.number req)).ok = true := by
  have hanswered : (s.accept.updateRequestReply (s.number req)).2 = s.answered req := rfl
  have hnot : (s.answered req).type ≠ .transfer := by rwa [answered_type]
  simp only [answerUpdate, hanswered, if_neg hnot]
  exact ⟨trivial, trivial⟩

lemma tailHandleUpdate_replies (htype : req.type ≠ .transfer) :
    (s.accept.tailHandleUpdate (s.number req)).replies = [s.answered req] := by
  obtain ⟨hout, hok⟩ := @answerUpdate_plain s req htype
  rw [tailHandleUpdate, Effect.andThen, if_pos hok, Effect.replies, List.filterMap_append, hout]
  split_ifs <;> rfl

/-- The single server `s` is where the tail `t` is. -/
structure Matches (s t : ChainServer) : Prop where
  head : s.ishead = true
  tail : s.istail = true
  extendingChain : s.extendingChain = false
  sentList : s.sentList = []
  accountMap : s.accountMap = t.accountMap
  processedMap : s.processedMap = t.processedMap
  bankUpdateSeq : s.bankUpdateSeq = t.bankUpdateSeq

namespace Matches

/-- Both servers answer a query with the same balance. -/
lemma query (h : Matches s t) (htail : t.istail = true) (htype : req.type = .query) :
    (s.receiveRequest req).ok = true ∧
      (s.receiveRequest req).replies = (t.receiveRequest req).replies ∧
      Matches (s.receiveRequest req).server (t.receiveRequest req).server := by
  have hs : s.receiveRequest req = s.handleQuery req := by simp [receiveRequest, htype, h.tail]
  have ht : t.receiveRequest req = t.handleQuery req := by simp [receiveRequest, htype, htail]
  have hbalance : (s.getBalance req.accountId).2 = (t.getBalance req.accountId).2 := by
    unfold getBalance
    rw [h.accountMap]
    split <;> rfl
  have haccounts : (s.getBalance req.accountId).1.accountMap =
      (t.getBalance req.accountId).1.accountMap := by
    unfold getBalance
    rw [h.accountMap]
    split
    · rfl
    · exact h.accountMap
  obtain ⟨m, hm⟩ := getBalance_eq s req.accountId
  obtain ⟨m', hm'⟩ := getBalance_eq t req.accountId
  rw [hs, ht]
  simp only [handleQuery, Effect.replies, hbalance]
  refine ⟨trivial, trivial, ?_⟩
  rw [hm, hm'] at haccounts ⊢
  exact ⟨h.head, h.tail, h.extendingChain, h.sentList, haccounts, h.processedMap, h.bankUpdateSeq⟩

/-- Both servers answer the next update alike; the single server has it without what the servers
before the tail have filled in. -/
lemma update (h : Matches s t) (htail : t.istail = true) (hhead : t.ishead = false)
    (hext : t.extendingChain = false) (hsent : t.sentList = []) (htype : req.type ≠ .query)
    (hplain : req.type ≠ .transfer) (hnext : req.bankUpdateSeq = t.bankUpdateSeq + 1) :
    (s.receiveRequest req.body).ok = true ∧
      (s.receiveRequest req.body).replies = (t.receiveRequest req).replies ∧
      Matches (s.receiveRequest req.body).server (t.receiveRequest req).server := by
  have hs := @receiveRequest_single s req.body h.head h.tail htype
  have ht := receiveRequest_tail hhead htail htype hnext
  have hnumber : s.number req.body = (t.number req).body := by
    rw [number, number, h.bankUpdateSeq]
    rfl
  obtain ⟨hanswered, haccounts⟩ := @updateRequestReply_congr s.accept t.accept h.accountMap
    h.processedMap (h.sentList.trans hsent.symm) (t.number req)
  rw [← hnumber] at hanswered haccounts
  have hanswered : s.answered req.body = t.answered req := hanswered
  have hnot : (t.answered req).toForward = [] := by
    rw [Request.toForward, if_neg]
    rw [answered_type]
    exact fun htransfer => hplain htransfer.1
  obtain ⟨hout, hok⟩ := @answerUpdate_plain s req.body hplain
  rw [hs, ht, tailHandleUpdate_replies hplain, Effect.replies, hout, hanswered,
    tailHandleUpdate_server, answerUpdate_server _ h.extendingChain, answerUpdate_server _ hext,
    hanswered]
  refine ⟨hok, rfl, h.head, h.tail, h.extendingChain, ?_, haccounts, ?_, ?_⟩
  · simp only [h.sentList, hnot, List.append_nil]
  · exact remember_processedMap h.processedMap
  · exact congrArg (· + 1) h.bankUpdateSeq

end Matches

end ChainServer

end ChainReplication
