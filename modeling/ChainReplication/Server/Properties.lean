import ChainReplication.Server.Extend
import ChainReplication.Bank.Spec

/-!
# What a handler can do

One inversion lemma for the log of a server (its history, its counter and `sent_list_`), one for
the packets it sends and one for its role and links. Later proofs use these and do not unfold a
handler again. Chain extension is left out: the lemmas are about the messages of a chain without
joins.
-/

namespace ChainReplication

/-- The messages that only chain extension sends. -/
def Message.isExtend : Message → Bool
  | .join _ | .extendServer _ | .extendMsg _ | .extendFinish _ | .extendFail => true
  | _ => false

/-- What an answering server keeps in `sent_list_`: the transfer it has just debited. -/
def Request.toForward (req : Request) : List Request :=
  if req.type = .transfer ∧ req.Applied then [req] else []

lemma Request.mem_toForward {req q : Request} :
    q ∈ req.toForward ↔ q = req ∧ req.type = .transfer ∧ req.Applied := by
  unfold toForward
  split_ifs with h <;> simp [h]

/-- A packet sent by two handlers in a row was sent by the first or by the second. -/
lemma Effect.mem_andThen {e : Effect} {f : ChainServer → Effect} {p : Packet}
    (h : p ∈ (e.andThen f).out) : p ∈ e.out ∨ p ∈ (f e.server).out := by
  unfold andThen at h
  split_ifs at h
  · exact List.mem_append.mp h
  · exact Or.inl h

namespace ChainServer

variable (s : ChainServer) (req : Request)

/-! ### Frames -/

lemma getOrCreateAccount_eq : ∃ m, (s.getOrCreateAccount req).1 = { s with accountMap := m } := by
  unfold getOrCreateAccount
  split
  · exact ⟨_, rfl⟩
  · exact ⟨s.accountMap, rfl⟩

lemma getBalance_eq (a : String) : ∃ m, (s.getBalance a).1 = { s with accountMap := m } := by
  unfold getBalance
  split
  · exact ⟨_, rfl⟩
  · exact ⟨s.accountMap, rfl⟩

lemma updateBalance_eq : ∃ m, (s.updateBalance req).1 = { s with accountMap := m } := by
  obtain ⟨m, hm⟩ := getOrCreateAccount_eq s req
  unfold updateBalance
  simp only [hm]
  split_ifs
  · exact ⟨_, rfl⟩
  · exact ⟨_, rfl⟩
  · exact ⟨_, rfl⟩

lemma checkUpdateRequest_eq (reply : Reply) :
    ∃ m, (s.checkUpdateRequest req reply).1 = { s with accountMap := m } := by
  obtain ⟨m, hm⟩ := getOrCreateAccount_eq s req
  refine ⟨m, ?_⟩
  rw [← hm]
  unfold checkUpdateRequest
  simp only []
  split_ifs <;> rfl

/-- `update_request_reply` changes no field but the accounts. -/
lemma updateRequestReply_eq : ∃ m, (s.updateRequestReply req).1 = { s with accountMap := m } := by
  obtain ⟨m, hm⟩ := checkUpdateRequest_eq s req { reqId := req.reqId, accountId := req.accountId }
  unfold updateRequestReply
  simp only [hm]
  split
  · exact getBalance_eq _ _
  · exact ⟨m, rfl⟩
  · obtain ⟨m₁, h₁⟩ := updateBalance_eq { s with accountMap := m } req
    rw [h₁]
    exact getBalance_eq _ _

/-- `update_request_reply` fills in the reply and the check result and nothing else. -/
@[simp] lemma updateRequestReply_body : (s.updateRequestReply req).2.body = req.body := by
  unfold updateRequestReply
  simp only []
  split <;> rfl

lemma insertProcessedList_eq : ∃ m, s.insertProcessedList req = { s with processedMap := m } := by
  unfold insertProcessedList
  split_ifs
  · exact ⟨s.processedMap, rfl⟩
  · exact ⟨_, rfl⟩

lemma insertAllProcessed_eq (l : List Request) :
    ∃ m, s.insertAllProcessed l = { s with processedMap := m } := by
  induction l generalizing s with
  | nil => exact ⟨s.processedMap, rfl⟩
  | cons q l ih =>
    obtain ⟨m, hm⟩ := insertProcessedList_eq s q
    obtain ⟨m', hm'⟩ := ih { s with processedMap := m }
    exact ⟨m', by rw [← hm', insertAllProcessed, List.foldl_cons, hm]; rfl⟩

/-- The server once it remembers a request that had no precedent. -/
def remember (s : ChainServer) (req : Request) : ChainServer :=
  if req.checkResult = .newreq then s.insertProcessedList req else s

lemma remember_eq : ∃ m, s.remember req = { s with processedMap := m } := by
  unfold remember
  split_ifs
  · exact insertProcessedList_eq s req
  · exact ⟨s.processedMap, rfl⟩

lemma storeUpdate_eq (hext : s.extendingChain = false) : s.storeUpdate req = s.remember req := by
  obtain ⟨m, hm⟩ := remember_eq s req
  change (if (s.remember req).extendingChain then _ else s.remember req) = _
  rw [if_neg]
  rw [hm]
  simp [hext]

/-! ### Transfers going out -/

variable {s req}

lemma forwardTransferToDownstream_server : (s.forwardTransferToDownstream req).server = s := by
  unfold forwardTransferToDownstream
  split <;> rfl

lemma mem_forwardTransferToDownstream {p : Packet} (h : p ∈ (s.forwardTransferToDownstream req).out) :
    ∃ a, s.bankHeadList.lookup req.destBankId = some a ∧
      p = .tcp a (.request (s.transferToReq req)) := by
  unfold forwardTransferToDownstream at h
  split at h
  · simp [abort] at h
  next head hlookup => exact ⟨head, hlookup, by simpa using h⟩

lemma forwardTransfers_server (l : List Request) : (s.forwardTransfers l).server = s := by
  induction l with
  | nil => rfl
  | cons q l ih =>
    unfold forwardTransfers Effect.andThen
    split_ifs
    · rw [forwardTransferToDownstream_server, ih]
    · exact forwardTransferToDownstream_server

lemma mem_forwardTransfers {l : List Request} {p : Packet} (h : p ∈ (s.forwardTransfers l).out) :
    ∃ q ∈ l, ∃ a, s.bankHeadList.lookup q.destBankId = some a ∧
      p = .tcp a (.request (s.transferToReq q)) := by
  induction l with
  | nil => simp [forwardTransfers] at h
  | cons q l ih =>
    unfold forwardTransfers Effect.andThen at h
    split_ifs at h
    · rw [forwardTransferToDownstream_server, List.mem_append] at h
      rcases h with h | h
      · exact ⟨q, List.mem_cons_self, mem_forwardTransferToDownstream h⟩
      · obtain ⟨q', hq', h⟩ := ih h
        exact ⟨q', List.mem_cons_of_mem _ hq', h⟩
    · exact ⟨q, List.mem_cons_self, mem_forwardTransferToDownstream h⟩

lemma resendTransfers_server (bankId : String) (l : List Request) :
    (s.resendTransfers bankId l).server = s := by
  induction l with
  | nil => rfl
  | cons q l ih =>
    unfold resendTransfers Effect.andThen
    split_ifs
    · rfl
    · rw [forwardTransferToDownstream_server, ih]
    · exact forwardTransferToDownstream_server
    · exact ih

lemma mem_resendTransfers {bankId : String} {l : List Request} {p : Packet}
    (h : p ∈ (s.resendTransfers bankId l).out) :
    ∃ q ∈ l, q.type = .transfer ∧ ∃ a, s.bankHeadList.lookup q.destBankId = some a ∧
      p = .tcp a (.request (s.transferToReq q)) := by
  induction l with
  | nil => simp [resendTransfers] at h
  | cons q l ih =>
    have later : p ∈ (s.resendTransfers bankId l).out →
        ∃ q' ∈ q :: l, q'.type = .transfer ∧ ∃ a, s.bankHeadList.lookup q'.destBankId = some a ∧
          p = .tcp a (.request (s.transferToReq q')) := by
      intro h
      obtain ⟨q', hq', h⟩ := ih h
      exact ⟨q', List.mem_cons_of_mem _ hq', h⟩
    unfold resendTransfers Effect.andThen at h
    split_ifs at h with htype hbank hok
    · simp [abort] at h
    · rw [forwardTransferToDownstream_server, List.mem_append] at h
      rcases h with h | h
      · exact ⟨q, List.mem_cons_self, not_not.mp htype, mem_forwardTransferToDownstream h⟩
      · exact later h
    · exact ⟨q, List.mem_cons_self, not_not.mp htype, mem_forwardTransferToDownstream h⟩
    · exact later h

/-- What `handle_transfer` does to the stores. -/
lemma handleTransfer_server (s : ChainServer) (req : Request) : (s.handleTransfer req).server =
    { s.remember req with sentList := s.sentList ++ if req.Applied then [req] else [] } := by
  obtain ⟨m, hm⟩ := insertProcessedList_eq s req
  unfold handleTransfer remember Request.Applied
  simp only [hm]
  by_cases hnew : req.checkResult = .newreq <;> by_cases hout : req.reply.outcome = .processed
  · simp only [hnew, hout, Effect.andThen]
    split_ifs <;> simp_all [forwardTransferToDownstream_server, insertSentList]
  · simp [Effect.andThen, hnew, hout]
  · simp only [Effect.andThen, hnew, hout]
    split_ifs <;> simp_all
  · simp [Effect.andThen, hnew, hout]

/-- What `handle_transfer` sends: the reply, or the transfer it has just debited. -/
lemma mem_handleTransfer {p : Packet} (h : p ∈ (s.handleTransfer req).out) :
    p = replyToClient req ∨ req.Applied ∧ ∃ a, s.bankHeadList.lookup req.destBankId = some a ∧
      p = .tcp a (.request (s.transferToReq req)) := by
  obtain ⟨m, hm⟩ := insertProcessedList_eq s req
  unfold handleTransfer Effect.andThen at h
  by_cases hnew : req.checkResult = .newreq <;> by_cases hout : req.reply.outcome = .processed
  · right
    refine ⟨⟨hnew, hout⟩, ?_⟩
    simp only [hnew, hout, hm, if_true, ne_eq, not_true_eq_false, if_false, List.append_nil] at h
    have hsent : ∃ a,
        ({ s with processedMap := m }.insertSentList req).bankHeadList.lookup req.destBankId = some a ∧
          p = .tcp a (.request
            (({ s with processedMap := m }.insertSentList req).transferToReq req)) := by
      split_ifs at h <;> exact mem_forwardTransferToDownstream h
    exact hsent
  · left
    simpa [hnew, hout] using h
  · left
    simp only [hnew, hout] at h
    split_ifs at h <;> simp_all
  · left
    simpa [hnew, hout] using h

/-! ### Requests -/

/-- The server once it has given the next update its number. -/
def accept (s : ChainServer) : ChainServer := { s with bankUpdateSeq := s.bankUpdateSeq + 1 }

/-- An update under the number that the server gives it or, behind the head, expects of it. -/
def number (s : ChainServer) (req : Request) : Request :=
  { req with bankUpdateSeq := s.bankUpdateSeq + 1 }

/-- The outcomes of `receive_request`. -/
inductive RequestCase (s : ChainServer) (req : Request) : Effect → Prop where
  | query (type : req.type = .query) (tail : s.istail = true) : RequestCase s req (s.handleQuery req)
  /-- A query away from the tail, or a number that skips one: an assertion fails. -/
  | refused (why : req.type = .query ∨ s.ishead = false ∧ s.bankUpdateSeq + 1 < req.bankUpdateSeq) :
      RequestCase s req s.abort
  | duplicate (head : s.ishead = false) (seen : req.bankUpdateSeq ≤ s.bankUpdateSeq) :
      RequestCase s req { server := s }
  | relayed (type : req.type ≠ .query) (tail : s.istail = false)
      (next : s.ishead = true ∨ req.bankUpdateSeq = s.bankUpdateSeq + 1) :
      RequestCase s req (s.accept.relayUpdate (s.number req))
  | single (type : req.type ≠ .query) (tail : s.istail = true) (head : s.ishead = true) :
      RequestCase s req (s.accept.answerUpdate (s.number req))
  | tail (type : req.type ≠ .query) (tail : s.istail = true) (head : s.ishead = false)
      (next : req.bankUpdateSeq = s.bankUpdateSeq + 1) :
      RequestCase s req (s.accept.tailHandleUpdate (s.number req))

lemma receiveRequest_cases (s : ChainServer) (req : Request) :
    RequestCase s req (s.receiveRequest req) := by
  unfold receiveRequest
  by_cases hq : req.type = .query
  · rw [if_pos hq]
    split_ifs with ht
    · exact .query hq ht
    · exact .refused (Or.inl hq)
  rw [if_neg hq]
  by_cases hhead : s.ishead = true
  · by_cases htail : s.istail = true
    · rw [if_neg (by simp [htail]), if_pos (by simp [hhead, htail])]
      exact .single hq htail hhead
    · rw [if_pos (by simp [hhead, htail])]
      exact .relayed hq (by simpa using htail) (Or.inl hhead)
  · rw [if_neg (by simp [hhead]), if_neg (by simp [hhead])]
    have hhead : s.ishead = false := by simpa using hhead
    split_ifs with hseen hgap
    · exact .duplicate hhead hseen
    · exact .refused (Or.inr ⟨hhead, by omega⟩)
    have hnext : req.bankUpdateSeq = s.bankUpdateSeq + 1 := by omega
    have hreq : s.number req = req := by simp [number, ← hnext]
    rw [hnext]
    change RequestCase s req
      (if s.istail then s.accept.tailHandleUpdate req else s.accept.internalHandleUpdate req)
    split_ifs with htail
    · have h := RequestCase.tail hq htail hhead hnext
      rwa [hreq] at h
    · have h := RequestCase.relayed hq (by simpa using htail) (Or.inr hnext)
      rwa [hreq] at h

end ChainServer

end ChainReplication
