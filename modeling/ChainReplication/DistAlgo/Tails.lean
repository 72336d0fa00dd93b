import ChainReplication.DistAlgo.Books
import ChainReplication.Server.Agreement
import ChainReplication.Library.SeqStream
import ChainReplication.System.Config

/-!
# The tails of the two implementations

A tail of `server.cc` and one of `chain.da` that get the same deposits, withdrawals and queries. The one
keeps its history in a flat table under joined keys, the other in a table for each account; a relation
between the two states carries over from request to request.
-/

namespace ChainReplication

/-- What both implementations tell a client. -/
structure Answer where
  reqId : String
  accountId : String
  outcome : DistAlgo.Outcome
  balance : ℚ
deriving DecidableEq

/-- The outcome under its name in `chain.da`. -/
def ReplyOutcome.toDistAlgo : ReplyOutcome → DistAlgo.Outcome
  | .processed => .processed
  | .inconsistentWithHistory => .inconsistentWithHistory
  | .insufficientFunds => .insufficientFunds

/-- The type under its name in `chain.da`. -/
def RequestType.toDistAlgo : RequestType → DistAlgo.RequestType
  | .query => .query
  | .deposit => .deposit
  | .withdraw => .withdraw
  | .transfer => .transfer
  | .transferTo => .transferTo

/-- The answer in a reply. -/
def Reply.answer (reply : Reply) : Answer :=
  ⟨reply.reqId, reply.accountId, reply.outcome.toDistAlgo, reply.balance⟩

/-- The answer in a packet, if it is a reply to a client. -/
def Packet.answer? : Packet → Option Answer
  | .replyToClient req => some req.reply.answer
  | .tcp _ _ | .udp _ _ => none

/-- The same request in `chain.da`, of the client `client`. -/
def Request.toDistAlgo {P : Type*} (req : Request) (client : P) : DistAlgo.Request P where
  reqId := req.reqId
  type := req.type.toDistAlgo
  bankId := req.bankId
  accountId := req.accountId
  amount := req.amount
  bankUpdateSeq := req.bankUpdateSeq
  client := some client

/-- A deposit, a withdrawal or a query, as clients build them; the account id has no `_`. -/
structure Request.Common (req : Request) : Prop where
  type : req.type = .query ∨ req.type = .deposit ∨ req.type = .withdraw
  destBankId : req.destBankId = ""
  destAccountId : req.destAccountId = ""
  accountId : '_' ∉ req.accountId.toList

namespace DistAlgo

/-- The answer in a reply. -/
def Reply.answer (reply : Reply) : Answer :=
  ⟨reply.reqId, reply.accountId, reply.outcome, reply.balance⟩

/-- The answer in a message, if it is a reply. -/
def Msg.answer? {P : Type*} : Msg P → Option Answer
  | .reply r => some r.answer
  | _ => none

end DistAlgo

/-- A request that reaches a tail. In `chain.da` the client of an update is in the request, which the
predecessor has sent, and that of a query is the sender. -/
structure Arrival (P : Type*) where
  req : Request
  client : P
  source : P

/-- The answers of a server to the requests, up to the first that makes an assertion fail. -/
def ChainServer.answers (s : ChainServer) : List Request → List (List Answer)
  | [] => []
  | req :: reqs =>
    let e := s.receiveRequest req
    if e.ok then e.out.filterMap Packet.answer? :: e.server.answers reqs else []

/-- The answers of a server to the requests, up to the first that raises an exception. -/
def DistAlgo.Server.answers {P : Type*} (d : DistAlgo.Server P) : List (Arrival P) → List (List Answer)
  | [] => []
  | x :: xs =>
    match d.processReq (x.req.toDistAlgo x.client) x.source with
    | none => []
    | some (d', out) => out.filterMap (fun m => m.2.answer?) :: d'.answers xs

/-- A tail behind other servers in its initial state. -/
structure ChainServer.FreshTail (s : ChainServer) : Prop where
  ishead : s.ishead = false
  istail : s.istail = true
  extendingChain : s.extendingChain = false
  sentList : s.sentList = []
  accountMap : s.accountMap = ∅
  processedMap : s.processedMap = ∅
  bankUpdateSeq : s.bankUpdateSeq = 0

namespace DistAlgo

variable {P : Type*}

/-- An update that both histories hold under the id `reqId` for the account `accountId`. -/
structure Matches (reqId accountId : String) (q : ChainReplication.Request) (r : Request P) : Prop where
  type : r.type = q.type.toDistAlgo
  bankId : r.bankId = q.bankId
  amount : r.amount = q.amount
  destBankId : q.destBankId = ""
  destAccountId : q.destAccountId = ""
  answer : q.reply.answer = ⟨reqId, accountId, r.reply.outcome, r.reply.balance⟩
  verdict : r.reply.outcome = .processed ∨ r.reply.outcome = .insufficientFunds

/-- The two tails stand the same. -/
structure Agree (s : ChainServer) (d : Server P) : Prop where
  ishead : s.ishead = false ∧ d.isHead = false
  istail : s.istail = true ∧ d.isTail = true
  extending : s.extendingChain = false ∧ d.extendingChain = false
  sent : s.sentList = [] ∧ d.sent = []
  prev : ∃ p, d.prev = some p
  seq : d.bankUpdateSeq = s.bankUpdateSeq
  mem : ∀ a, a ∈ d.accounts ↔ a ∈ s.accountMap
  balance : ∀ a, d.balance a = s.balance a
  stored : ∀ r a, '_' ∉ a.toList →
    Option.Rel (Matches r a) (s.processedMap.lookup (r ++ "_" ++ a)) (d.stored a r)

variable {s : ChainServer} {d : Server P} {req : ChainReplication.Request}
  (client : P)

lemma toDistAlgo_injective : Function.Injective RequestType.toDistAlgo := by
  intro x y h
  cases x <;> cases y <;> first | rfl | cases h

/-- Both compare type, bank and amount, since common requests have no destination. -/
lemma Matches.consistent {reqId accountId : String} {q : ChainReplication.Request} {r : Request P}
    (h : Matches reqId accountId q r) (hreq : req.Common) :
    (req.toDistAlgo client).consistentWith r = reqConsistent req q := by
  have htype : (req.type.toDistAlgo = q.type.toDistAlgo) = (req.type = q.type) :=
    propext toDistAlgo_injective.eq_iff
  simp [Request.consistentWith, Request.toDistAlgo, reqConsistent, h.type, h.bankId, h.amount,
    h.destBankId, h.destAccountId, hreq.destBankId, hreq.destAccountId, htype]

/-- Both look the same request up. -/
lemma Agree.found (h : Agree s d) (hreq : req.Common) :
    Option.Rel (Matches req.reqId req.accountId) (s.precedent req)
      (d.found (req.toDistAlgo client)) := by
  have hstored := h.stored req.reqId req.accountId hreq.accountId
  simp only [ChainServer.precedent, Server.found, h.sent.1, h.sent.2, List.find?_nil, Option.or_none]
  by_cases hmem : req.accountId ∈ s.accountMap
  · have hmem' : (req.toDistAlgo client).accountId ∈ d.accounts := (h.mem _).mpr hmem
    rw [if_pos hmem, if_pos hmem']
    exact hstored
  · have hmem' : (req.toDistAlgo client).accountId ∉ d.accounts := mt (h.mem _).mp hmem
    rw [if_neg hmem, if_neg hmem']
    exact Option.Rel.none

/-- The reply for a request that is found in the books of `chain.da`. -/
lemma reply_of_found {r req : Request P} (h : d.found req = some r)
    (hr : r.reply.outcome = .processed ∨ r.reply.outcome = .insufficientFunds) :
    (d.updateRequestReply req).2.reply =
      if req.consistentWith r then
        { Server.freshReply req with outcome := r.reply.outcome, balance := r.reply.balance }
      else { Server.freshReply req with
        outcome := .inconsistentWithHistory, balance := d.balance req.accountId } := by
  obtain ⟨-, -, hbalance, -, hreply⟩ := Server.buildReplyFromHistory_spec d req
  rw [h, Option.map_some, Option.getD_some, Server.replyFrom] at hreply
  by_cases hcons : req.consistentWith r = true
  · have hnew : r.reply.outcome ≠ .newReq := by rcases hr with hr | hr <;> simp [hr]
    have hinc : r.reply.outcome ≠ .inconsistentWithHistory := by rcases hr with hr | hr <;> simp [hr]
    rw [if_pos hcons] at hreply ⊢
    simp only [Server.updateRequestReply, hreply, hnew, hinc, if_false]
  · rw [if_neg hcons] at hreply ⊢
    have hget : ((d.buildReplyFromHistory req).1.getBalance req.accountId).2 = d.balance req.accountId := by
      rw [← hbalance]
      exact Server.getOrCreateAccount_account
    simp only [Server.updateRequestReply, hreply, reduceCtorEq, if_true, if_false, hget]

/-! ### Accounts -/

section

variable {a b : String}

lemma mem_getOrCreateAccount_iff :
    b ∈ (d.getOrCreateAccount a).1.accounts ↔ b = a ∨ b ∈ d.accounts := by
  by_cases h : a ∈ d.accounts
  · obtain ⟨account, -, heq⟩ := Server.getOrCreateAccount_of_mem h
    rw [heq]
    constructor
    · exact Or.inr
    · rintro (rfl | hb)
      · exact h
      · exact hb
  · rw [Server.getOrCreateAccount_of_notMem h, AList.mem_insert]

lemma mem_buildReplyFromHistory_iff {req : Request P} :
    b ∈ (d.buildReplyFromHistory req).1.accounts ↔ b = req.accountId ∨ b ∈ d.accounts := by
  by_cases h : req.accountId ∈ d.accounts
  · have haccounts : (d.setdefaultProcessed req.accountId).accounts = d.accounts := by
      unfold Server.setdefaultProcessed
      split_ifs <;> rfl
    rw [Server.buildReplyFromHistory_of_mem h, haccounts]
    constructor
    · exact Or.inr
    · rintro (rfl | hb)
      · exact h
      · exact hb
  · rw [Server.buildReplyFromHistory_of_notMem h]
    exact mem_getOrCreateAccount_iff

lemma mem_updateBalance_iff {req : Request P} :
    b ∈ (d.updateBalance req).1.accounts ↔ b = req.accountId ∨ b ∈ d.accounts := by
  unfold Server.updateBalance
  simp only [Server.setBalance]
  split_ifs <;> simp [mem_getOrCreateAccount_iff, AList.mem_insert]

/-- An update opens its account. -/
lemma mem_updateRequestReply_iff {req : Request P} :
    b ∈ (d.updateRequestReply req).1.accounts ↔ b = req.accountId ∨ b ∈ d.accounts := by
  unfold Server.updateRequestReply
  simp only
  split_ifs <;>
    simp [mem_updateBalance_iff, mem_buildReplyFromHistory_iff, Server.getBalance,
      mem_getOrCreateAccount_iff]

end

/-! ### Updates -/

/-- What the two tails make of an update. -/
structure SameUpdate (s' : ChainServer) (d d' : Server P) (q : ChainReplication.Request)
    (r : Request P) : Prop where
  keeps : Server.Keeps d d'
  answer : q.reply.answer = r.reply.answer
  balance : ∀ a, d'.balance a = s'.balance a
  new : (q.checkResult = .newreq ∧ r.isNew = true ∧ Matches q.reqId q.accountId q r) ∨
    (q.checkResult ≠ .newreq ∧ r.isNew = false)

/-- The two banks settle a deposit or a withdrawal alike. -/
lemma settle_toDistAlgo (hreq : req.Common) (hquery : req.type ≠ .query) (x : ℚ) :
    (req.toDistAlgo client).settle x =
      if req.Debits ∧ x < req.amount then (.insufficientFunds, x) else (.processed, req.newBalance x) := by
  rcases hreq.type.resolve_left hquery with h | h
  · simp [Request.settle, ChainReplication.Request.toDistAlgo, ChainReplication.Request.Debits,
      ChainReplication.Request.newBalance, h, RequestType.toDistAlgo]
  · simp [Request.settle, ChainReplication.Request.toDistAlgo, ChainReplication.Request.Debits,
      ChainReplication.Request.newBalance, h, RequestType.toDistAlgo]

lemma answerNew_matches (hreq : req.Common) (hquery : req.type ≠ .query) (x : ℚ) :
    Matches req.reqId req.accountId (req.answerNew x) ((req.toDistAlgo client).answered x) := by
  have hsettle := settle_toDistAlgo client hreq hquery x
  refine ⟨rfl, rfl, rfl, hreq.destBankId, hreq.destAccountId, ?_, ?_⟩
  · simp only [Request.answered, hsettle, ChainReplication.Request.answerNew,
      ChainReplication.Reply.answer]
    split_ifs <;> rfl
  · simp only [Request.answered, hsettle]
    split_ifs <;> simp

/-- The answer of `server.cc` to an update that its history has. -/
lemma answerFrom_answer {it : ChainReplication.Request} {r : Request P} {x : ℚ}
    (h : Matches req.reqId req.accountId it r) (hreq : req.Common) :
    (req.answerFrom it x).reply.answer =
      if (req.toDistAlgo client).consistentWith r then
        ⟨req.reqId, req.accountId, r.reply.outcome, r.reply.balance⟩
      else ⟨req.reqId, req.accountId, .inconsistentWithHistory, x⟩ := by
  rw [h.consistent client hreq, ChainReplication.Request.answerFrom]
  split_ifs
  · exact h.answer
  · rfl

/-- The two tails make the same of an update. -/
lemma Agree.sameUpdate (h : Agree s d) (hreq : req.Common) (hquery : req.type ≠ .query) :
    SameUpdate (s.updateRequestReply req).1 d (d.updateRequestReply (req.toDistAlgo client)).1
      (s.updateRequestReply req).2 (d.updateRequestReply (req.toDistAlgo client)).2 := by
  have hfound := h.found client hreq
  have hbalance : d.balance (req.toDistAlgo client).accountId = s.balance req.accountId :=
    h.balance _
  cases hp : s.precedent req with
  | none =>
    rw [hp] at hfound
    have hnone : d.found (req.toDistAlgo client) = none := by
      cases hd : d.found (req.toDistAlgo client) with
      | none => rfl
      | some r => rw [hd] at hfound; cases hfound
    obtain ⟨hkeeps, -, heq, -, hbal⟩ := Server.updateRequestReply_new hnone
    obtain ⟨hq, -⟩ := ChainServer.updateRequestReply_of_none hp
    have hmatch := answerNew_matches client hreq hquery (s.balance req.accountId)
    rw [hbalance] at heq hbal
    refine ⟨hkeeps, ?_, fun a => ?_, ?_⟩
    · rw [hq, heq]
      exact hmatch.answer
    · have hsettle := settle_toDistAlgo client hreq hquery (s.balance req.accountId)
      have hold := ChainServer.balance_updateRequestReply s req
      have happlied : (req.answerNew (s.balance req.accountId)).Applied ↔
          ¬ (req.Debits ∧ s.balance req.accountId < req.amount) := by
        simp [ChainReplication.Request.Applied, ChainReplication.Request.answerNew_outcome]
      rw [hbal, hold, hq, hsettle]
      by_cases ha : a = req.accountId
      · have ha' : a = (req.toDistAlgo client).accountId := ha
        rw [if_pos ha', ha]
        by_cases hfails : req.Debits ∧ s.balance req.accountId < req.amount
        · rw [if_pos hfails, if_neg (happlied.not.mpr (not_not.mpr hfails))]
        · rw [if_neg hfails, if_pos (happlied.mpr hfails), Function.update_self]
      · have ha' : a ≠ (req.toDistAlgo client).accountId := ha
        rw [if_neg ha', h.balance]
        split_ifs <;> simp [Function.update_of_ne ha]
    · left
      rw [hq, heq]
      exact ⟨rfl, rfl, hmatch⟩
  | some it =>
    rw [hp] at hfound
    obtain ⟨r, hr, hmatch⟩ : ∃ r, d.found (req.toDistAlgo client) = some r ∧
        Matches req.reqId req.accountId it r := by
      cases hd : d.found (req.toDistAlgo client) with
      | none => rw [hd] at hfound; cases hfound
      | some r =>
        rw [hd] at hfound
        exact ⟨r, rfl, Option.rel_some_some.mp hfound⟩
    have hnew : r.reply.outcome ≠ .newReq := by
      rcases hmatch.verdict with hv | hv <;> simp [hv]
    obtain ⟨hkeeps, -, ⟨reply, -, heq⟩, -, hbal⟩ := Server.updateRequestReply_found hr hnew
    have hreply := reply_of_found hr hmatch.verdict
    have hq := ChainServer.updateRequestReply_of_precedent hp
    rw [hq]
    refine ⟨hkeeps, ?_, fun a => (hbal a).trans (h.balance a), Or.inr ⟨?_, ?_⟩⟩
    · rw [answerFrom_answer client hmatch hreq, hreply, hbalance]
      split_ifs <;> rfl
    · exact ChainReplication.Request.answerFrom_checkResult
    · rw [heq]

lemma lookup_remember {q : ChainReplication.Request} (k : String) :
    (s.remember q).processedMap.lookup k = (s.processedMap.lookup k).or
      (if q.checkResult = .newreq ∧ q.key = k then some q else none) := by
  unfold ChainServer.remember
  by_cases hnew : q.checkResult = .newreq
  · simp only [hnew, if_true, true_and]
    exact ChainServer.lookup_insertProcessedList k
  · simp [hnew]

lemma stored_keepAnswered {r : Request P} (a id : String) :
    (d.keepAnswered r).stored a id = (d.stored a id).or
      (if r.isNew = true ∧ r.isNamed a id = true then some r else none) := by
  have hstored : (d.keepAnswered r).stored a id =
      (if r.isNew then d.insertProcessedList r else d).stored a id := by
    rw [Server.keepAnswered_eq]
    rfl
  rw [hstored]
  by_cases hnew : r.isNew = true
  · simp only [hnew, if_true, true_and]
    exact Server.stored_insertProcessedList r
  · simp [hnew]

lemma rel_or {α β : Type*} {R : α → β → Prop} {x x' : Option α} {y y' : Option β}
    (h : Option.Rel R x y) (h' : Option.Rel R x' y') : Option.Rel R (x.or x') (y.or y') := by
  cases h with
  | some h => exact Option.Rel.some h
  | none => simpa using h'

/-- Two tails whose accounts have been updated alike and that store the update stand the same. -/
lemma Agree.remember {m : AList fun _ : String => ℚ} {d' : Server P} {q : ChainReplication.Request}
    {r : Request P} (h : Agree s d) (hq : '_' ∉ q.accountId.toList)
    (hids : r.reqId = q.reqId ∧ r.accountId = q.accountId)
    (hmem : ∀ a, a ∈ d'.accounts ↔ a ∈ m)
    (hsame : SameUpdate { s with accountMap := m } d d' q r) :
    Agree (({ s with accountMap := m } : ChainServer).writeLogReply q |>.remember q)
      (d'.keepAnswered r) := by
  obtain ⟨pm, hpm⟩ := ChainServer.remember_eq (({ s with accountMap := m } : ChainServer).writeLogReply q) q
  have hlookup (k : String) : pm.lookup k = (s.processedMap.lookup k).or
      (if q.checkResult = .newreq ∧ q.key = k then some q else none) := by
    have hl := lookup_remember (s := ({ s with accountMap := m } : ChainServer).writeLogReply q)
      (q := q) k
    rw [hpm] at hl
    exact hl
  obtain ⟨dm, hkeep⟩ : ∃ dm, d'.keepAnswered r = { d' with processed := dm } := by
    have hext : d'.extendingChain = false := by
      rw [hsame.keeps.frame]
      exact h.extending.2
    have hext' : (if r.isNew then d'.insertProcessedList r else d').extendingChain = false := by
      split_ifs <;> exact hext
    unfold Server.keepAnswered
    simp only [hext', Bool.false_eq_true, if_false]
    split_ifs <;> exact ⟨_, rfl⟩
  have hstored (a id : String) : (d'.keepAnswered r).stored a id = (d.stored a id).or
      (if r.isNew = true ∧ r.isNamed a id = true then some r else none) := by
    rw [stored_keepAnswered, hsame.keeps.stored]
  have hframe := hsame.keeps.frame
  refine ⟨?_, ?_, ?_, ?_, ?_, ?_, ?_, ?_, ?_⟩
  · rw [hpm, hkeep, hframe]
    exact h.ishead
  · rw [hpm, hkeep, hframe]
    exact h.istail
  · rw [hpm, hkeep, hframe]
    exact h.extending
  · rw [hpm, hkeep, hframe]
    exact h.sent
  · rw [hkeep, hframe]
    exact h.prev
  · rw [hpm, hkeep, hframe]
    exact h.seq
  · rw [hpm, hkeep]
    exact hmem
  · rw [hpm, hkeep]
    exact hsame.balance
  · intro id a ha
    rw [hstored, hpm]
    show Option.Rel _ (pm.lookup (id ++ "_" ++ a)) _
    rw [hlookup]
    refine rel_or (h.stored id a ha) ?_
    have hkey := ChainReplication.Request.key_eq_iff hq (r := id) ha
    have hnamed : r.isNamed a id = true ↔ q.reqId = id ∧ q.accountId = a := by
      rw [Server.isNamed_iff, hids.1, hids.2, and_comm]
    rcases hsame.new with ⟨hnew, hisNew, hmatch⟩ | ⟨hnew, hisNew⟩
    · simp only [hnew, hisNew, hkey, hnamed, true_and]
      split_ifs with heq
      · obtain ⟨rfl, rfl⟩ := heq
        exact Option.Rel.some hmatch
      · exact Option.Rel.none
    · simp only [hnew, hisNew, false_and, Bool.false_eq_true, if_false]
      exact Option.Rel.none

/-- After an update the tails stand the same. -/
lemma Agree.update (h : Agree s d) (hreq : req.Common) (hquery : req.type ≠ .query) :
    Agree (((s.updateRequestReply req).1.writeLogReply (s.updateRequestReply req).2).remember
        (s.updateRequestReply req).2)
      ((d.updateRequestReply (req.toDistAlgo client)).1.keepAnswered
        (d.updateRequestReply (req.toDistAlgo client)).2) := by
  have hsame := h.sameUpdate client hreq hquery
  have hmem (a : String) : a ∈ (d.updateRequestReply (req.toDistAlgo client)).1.accounts ↔
      a ∈ (s.updateRequestReply req).1.accountMap := by
    rw [mem_updateRequestReply_iff, ChainServer.mem_accounts_updateRequestReply, h.mem]
    rfl
  obtain ⟨hid, -, -, hacc, -⟩ := ChainReplication.Request.fields_of_body
    (ChainServer.updateRequestReply_body s req)
  obtain ⟨isNew, reply, hr⟩ := Server.updateRequestReply_req d (req.toDistAlgo client)
  have hids : (d.updateRequestReply (req.toDistAlgo client)).2.reqId = (s.updateRequestReply req).2.reqId ∧
      (d.updateRequestReply (req.toDistAlgo client)).2.accountId =
        (s.updateRequestReply req).2.accountId := by
    rw [hr, hid, hacc]
    exact ⟨rfl, rfl⟩
  obtain ⟨m, hm⟩ := ChainServer.updateRequestReply_eq s req
  rw [hm] at hsame hmem ⊢
  exact h.remember (by rw [hacc]; exact hreq.accountId) hids hmem hsame

/-! ### Requests -/

lemma Agree.setSeq (h : Agree s d) (n : ℕ) :
    Agree { s with bankUpdateSeq := n } { d with bankUpdateSeq := (n : ℤ) } :=
  ⟨h.ishead, h.istail, h.extending, h.sent, h.prev, rfl, h.mem, h.balance, h.stored⟩

/-- A query opens its account on both sides. -/
lemma Agree.getBalance (h : Agree s d) (a : String) :
    Agree (s.getBalance a).1 (d.getBalance a).1 ∧ (d.getBalance a).2 = (s.getBalance a).2 := by
  have hmem (b : String) : b ∈ (s.getBalance a).1.accountMap ↔ b = a ∨ b ∈ s.accountMap := by
    by_cases ha : a ∈ s.accountMap
    · rw [ChainServer.getBalance_of_mem ha]
      constructor
      · exact Or.inr
      · rintro (rfl | hb)
        · exact ha
        · exact hb
    · simp only [ChainServer.getBalance, AList.lookup_eq_none.mpr ha, AList.mem_insert]
  have hvalue : (s.getBalance a).2 = s.balance a := by
    by_cases ha : a ∈ s.accountMap
    · rw [ChainServer.getBalance_of_mem ha]
    · simp only [ChainServer.getBalance, AList.lookup_eq_none.mpr ha,
        ChainServer.balance_of_notMem ha]
  have hbalance := ChainServer.balance_getBalance (s := s) a
  obtain ⟨m, hm⟩ := ChainServer.getBalance_eq s a
  obtain ⟨hkeeps, -, hbalance'⟩ := Server.getBalance_spec (s := d) (a := a)
  have hframe := hkeeps.frame
  refine ⟨⟨?_, ?_, ?_, ?_, ?_, ?_, fun b => ?_, fun b => ?_, fun r b hb => ?_⟩, ?_⟩
  · rw [hm, hframe]
    exact h.ishead
  · rw [hm, hframe]
    exact h.istail
  · rw [hm, hframe]
    exact h.extending
  · rw [hm, hframe]
    exact h.sent
  · rw [hframe]
    exact h.prev
  · rw [hm, hframe]
    exact h.seq
  · rw [hmem, ← h.mem]
    exact mem_getOrCreateAccount_iff
  · rw [hbalance, hbalance', h.balance]
  · rw [hkeeps.stored, hm]
    exact h.stored r b hb
  · rw [hvalue, ← h.balance]
    exact Server.getOrCreateAccount_account

/-- What the two tails do with a request: both fail, at an update whose number skips one, or both go on
with the same answers. -/
inductive SameStep (s : ChainServer) (d : Server P) (x : Arrival P) : Prop
  | fails (type : x.req.type ≠ .query) (gap : s.bankUpdateSeq + 1 < x.req.bankUpdateSeq)
      (cpp : (s.receiveRequest x.req).ok = false)
      (da : d.processReq (x.req.toDistAlgo x.client) x.source = none)
  | goes {d' : Server P} {out : List (P × Msg P)} (cpp : (s.receiveRequest x.req).ok = true)
      (da : d.processReq (x.req.toDistAlgo x.client) x.source = some (d', out))
      (answers : (s.receiveRequest x.req).out.filterMap Packet.answer? =
        out.filterMap fun m => m.2.answer?)
      (agree : Agree (s.receiveRequest x.req).server d')
      (seq : (s.receiveRequest x.req).server.bankUpdateSeq =
        if x.req.type = .query then s.bankUpdateSeq else max s.bankUpdateSeq x.req.bankUpdateSeq)

lemma Agree.step_query (h : Agree s d) {x : Arrival P} (hquery : x.req.type = .query) :
    SameStep s d x := by
  obtain ⟨hagree, hvalue⟩ := h.getBalance x.req.accountId
  have hcpp : s.receiveRequest x.req = s.handleQuery x.req := by
    rw [ChainServer.receiveRequest, if_pos hquery, if_pos h.istail.1]
  have hda : d.processReq (x.req.toDistAlgo x.client) x.source =
      d.handleQuery { x.req.toDistAlgo x.client with client := some x.source } := by
    have htype : (x.req.toDistAlgo x.client).type = .query := by
      simp [ChainReplication.Request.toDistAlgo, hquery, RequestType.toDistAlgo]
    rw [Server.processReq, if_pos htype, if_pos h.istail.2]
  refine .goes ?_ hda ?_ ?_ ?_
  · rw [hcpp]
    rfl
  · rw [hcpp]
    show [(⟨x.req.reqId, x.req.accountId, .processed, (s.getBalance x.req.accountId).2⟩ : Answer)] =
      [⟨x.req.reqId, x.req.accountId, .processed, (d.getBalance x.req.accountId).2⟩]
    rw [hvalue]
  · rw [hcpp]
    exact hagree
  · rw [hcpp, if_pos hquery]
    obtain ⟨m, hm⟩ := ChainServer.getBalance_eq s x.req.accountId
    rw [ChainServer.handleQuery, hm]

lemma bankUpdateSeq_update {q : ChainReplication.Request} :
    (((s.updateRequestReply req).1.writeLogReply q).remember q).bankUpdateSeq = s.bankUpdateSeq := by
  obtain ⟨m, hm⟩ := ChainServer.updateRequestReply_eq s req
  obtain ⟨pm, hpm⟩ := ChainServer.remember_eq ((s.updateRequestReply req).1.writeLogReply q) q
  rw [hpm, hm]
  rfl

/-- `tail_handle_update` for an update that is no transfer, while nothing waits. -/
lemma tailHandleUpdate_eq (hext : s.extendingChain = false) (hsent : s.sentList = [])
    (htransfer : req.type ≠ .transfer) :
    ∃ ack, s.tailHandleUpdate req =
      { server := ((s.updateRequestReply req).1.writeLogReply (s.updateRequestReply req).2).remember
          (s.updateRequestReply req).2
        out := [.replyToClient (s.updateRequestReply req).2, .tcp s.preServerAddr (.acknowledge ack)] } := by
  have htype : (s.updateRequestReply req).2.type ≠ .transfer := by
    rw [← ChainReplication.Request.body_type, ChainServer.updateRequestReply_body]
    exact htransfer
  obtain ⟨m, hm⟩ := ChainServer.updateRequestReply_eq s req
  generalize hw : (s.updateRequestReply req).1.writeLogReply (s.updateRequestReply req).2 = w
  have hwsent : w.sentList = [] := by
    rw [← hw, hm]
    exact hsent
  have hwpre : w.preServerAddr = s.preServerAddr := by
    rw [← hw, hm]
    rfl
  obtain ⟨pm, hpm⟩ := ChainServer.remember_eq w (s.updateRequestReply req).2
  have hanswer : s.answerUpdate req = { server := w.remember (s.updateRequestReply req).2
                                        out := [.replyToClient (s.updateRequestReply req).2] } := by
    rw [ChainServer.answerUpdate]
    simp only [if_neg htype, hw]
    rw [ChainServer.storeUpdate_eq]
    · rfl
    · rw [← hw, hm]
      exact hext
  refine ⟨⟨req.bankUpdateSeq⟩, ?_⟩
  rw [ChainServer.tailHandleUpdate, hanswer, Effect.andThen, if_pos rfl]
  simp only [hpm, hwsent, List.isEmpty_nil, if_true, ChainServer.sendbackAck, hwpre]
  rfl

/-- `tail_handle_request` answers the client and acknowledges. -/
lemma Agree.tailHandleRequest (h : Agree s d) (hreq : req.Common) (hquery : req.type ≠ .query) :
    ∃ out, d.tailHandleRequest (req.toDistAlgo client) =
        some ((d.updateRequestReply (req.toDistAlgo client)).1.keepAnswered
          (d.updateRequestReply (req.toDistAlgo client)).2, out) ∧
      out.filterMap (fun m => m.2.answer?) =
        [(d.updateRequestReply (req.toDistAlgo client)).2.reply.answer] := by
  obtain ⟨p, hp⟩ := (h.update client hreq hquery).prev
  obtain ⟨isNew, reply, hr⟩ := Server.updateRequestReply_req d (req.toDistAlgo client)
  have hclient : (d.updateRequestReply (req.toDistAlgo client)).2.client = some client := by
    rw [hr]
    rfl
  have htype : (d.updateRequestReply (req.toDistAlgo client)).2.type ≠ .transferTo := by
    rw [hr]
    intro htransfer
    have htransfer' : req.type = .transferTo := toDistAlgo_injective htransfer
    rcases hreq.type with ht | ht | ht <;> simp [ht] at htransfer'
  refine ⟨[(client, .reply (d.updateRequestReply (req.toDistAlgo client)).2.reply),
    (p, .ack (d.updateRequestReply (req.toDistAlgo client)).2.bankUpdateSeq
      (d.updateRequestReply (req.toDistAlgo client)).2.reqId)], ?_, rfl⟩
  simp only [Server.tailHandleRequest, Server.complete, if_neg htype, Server.replyToClient, hclient,
    Server.sendAck, hp, Option.bind_eq_bind, Option.bind_some, List.singleton_append]

lemma Agree.step_update (h : Agree s d) {x : Arrival P} (hx : x.req.Common)
    (hquery : x.req.type ≠ .query) : SameStep s d x := by
  have hdquery : (x.req.toDistAlgo x.client).type ≠ .query := by
    intro hd
    exact hquery (toDistAlgo_injective hd)
  have htransfer : x.req.type ≠ .transfer := by
    rcases hx.type with ht | ht | ht <;> simp [ht]
  have hhead := h.ishead
  have htail := h.istail
  have hseq := h.seq
  have hdseq : (x.req.toDistAlgo x.client).bankUpdateSeq = (x.req.bankUpdateSeq : ℤ) := rfl
  rcases lt_trichotomy x.req.bankUpdateSeq (s.bankUpdateSeq + 1) with hlt | heq | hgt
  · -- a number that both have seen
    have hcpp : s.receiveRequest x.req = { server := s } := by
      simp [ChainServer.receiveRequest, hquery, hhead.1, Nat.lt_succ_iff.mp hlt]
    have hda : d.processReq (x.req.toDistAlgo x.client) x.source = some (d, []) := by
      simp only [Server.processReq, hdquery, hhead.2, hdseq, hseq, if_false, Bool.false_and,
        Bool.false_eq_true]
      rw [if_pos (by omega)]
    refine .goes (by rw [hcpp]) hda (by rw [hcpp]; rfl) (by rw [hcpp]; exact h) ?_
    rw [hcpp, if_neg hquery]
    exact (max_eq_left (Nat.lt_succ_iff.mp hlt)).symm
  · -- the next number
    have hs := h.setSeq x.req.bankUpdateSeq
    have hagree := hs.update x.client hx hquery
    have hanswer := (hs.sameUpdate x.client hx hquery).answer
    have hcpp : s.receiveRequest x.req =
        { s with bankUpdateSeq := x.req.bankUpdateSeq }.tailHandleUpdate x.req := by
      simp only [ChainServer.receiveRequest, hquery, hhead.1, htail.1, if_false, Bool.false_and,
        Bool.false_eq_true, if_true]
      rw [if_neg (by omega), if_neg (by omega)]
    obtain ⟨ack, htail⟩ := tailHandleUpdate_eq hs.extending.1 hs.sent.1 htransfer
    rw [htail] at hcpp
    obtain ⟨out, hda, hout⟩ := hs.tailHandleRequest x.client hx hquery
    have hda' : d.processReq (x.req.toDistAlgo x.client) x.source =
        { d with bankUpdateSeq := (x.req.bankUpdateSeq : ℤ) }.tailHandleRequest
          (x.req.toDistAlgo x.client) := by
      simp only [Server.processReq, hdquery, hhead.2, h.istail.2, hdseq, hseq, if_false, if_true,
        Bool.false_and, Bool.false_eq_true]
      rw [if_neg (by omega), if_pos (by omega)]
    refine .goes (by rw [hcpp]) (hda'.trans hda) ?_ (by rw [hcpp]; exact hagree) ?_
    · rw [hcpp, hout, ← hanswer]
      rfl
    · rw [hcpp, if_neg hquery]
      show ChainServer.bankUpdateSeq (ChainServer.remember _ _) = _
      rw [bankUpdateSeq_update]
      show x.req.bankUpdateSeq = max s.bankUpdateSeq x.req.bankUpdateSeq
      omega
  · -- a number that skips one
    refine .fails hquery hgt ?_ ?_
    · simp only [ChainServer.receiveRequest, hquery, hhead.1, if_false, Bool.false_and,
        Bool.false_eq_true]
      rw [if_neg (by omega), if_pos (by omega)]
      rfl
    · simp only [Server.processReq, hdquery, hhead.2, hdseq, hseq, if_false, Bool.false_and,
        Bool.false_eq_true]
      rw [if_neg (by omega), if_neg (by omega)]

/-- One request, whatever it is. -/
lemma Agree.step (h : Agree s d) {x : Arrival P} (hx : x.req.Common) : SameStep s d x := by
  by_cases hquery : x.req.type = .query
  · exact h.step_query hquery
  · exact h.step_update hx hquery

lemma Agree.answers_eq (h : Agree s d) {xs : List (Arrival P)} (hxs : ∀ x ∈ xs, x.req.Common) :
    s.answers (xs.map Arrival.req) = d.answers xs := by
  induction xs generalizing s d with
  | nil => rfl
  | cons x xs ih =>
    simp only [List.map_cons, ChainServer.answers, Server.answers]
    cases h.step (hxs x (by simp)) with
    | fails type gap cpp da => rw [cpp, da]; rfl
    | goes cpp da answers agree seq =>
      rw [if_pos cpp, da, answers]
      simp only [ih agree fun y hy => hxs y (List.mem_cons_of_mem x hy)]

/-- Every request is answered by a list, a failure apart, when the numbers of the updates leave no gap. -/
lemma Agree.length_answers (h : Agree s d) {xs : List (Arrival P)} (hxs : ∀ x ∈ xs, x.req.Common)
    (hgap : SeqStream.GapFree s.bankUpdateSeq
      ((xs.filter fun x => x.req.type ≠ .query).map fun x => x.req.bankUpdateSeq)) :
    (s.answers (xs.map Arrival.req)).length = xs.length := by
  induction xs generalizing s d with
  | nil => rfl
  | cons x xs ih =>
    simp only [List.map_cons, ChainServer.answers]
    cases h.step (hxs x (by simp)) with
    | fails type gap cpp da =>
      rw [List.filter_cons_of_pos (by simpa using type), List.map_cons, SeqStream.gapFree_cons] at hgap
      omega
    | goes cpp da answers agree seq =>
      rw [if_pos cpp, List.length_cons, List.length_cons,
        ih agree fun y hy => hxs y (List.mem_cons_of_mem x hy)]
      rw [seq]
      by_cases hquery : x.req.type = .query
      · rw [if_pos hquery]
        rwa [List.filter_cons_of_neg (by simpa using hquery)] at hgap
      · rw [List.filter_cons_of_pos (by simpa using hquery), List.map_cons, SeqStream.gapFree_cons]
          at hgap
        rw [if_neg hquery]
        exact hgap.2

/-- The two tails stand the same at their start. -/
lemma agree_setup (hs : s.FreshTail) (serverId : ℕ) (bankId : String) (prev master : P) :
    Agree s (Server.setup serverId bankId (some prev) none master false) where
  ishead := ⟨hs.ishead, rfl⟩
  istail := ⟨hs.istail, rfl⟩
  extending := ⟨hs.extendingChain, rfl⟩
  sent := ⟨hs.sentList, rfl⟩
  prev := ⟨prev, rfl⟩
  seq := by rw [hs.bankUpdateSeq]; rfl
  mem a := by rw [hs.accountMap]; exact Iff.rfl
  balance a := by rw [ChainServer.balance, hs.accountMap]; rfl
  stored r a _ := by rw [hs.processedMap]; exact Option.Rel.none

/-- For every sequence of deposits, withdrawals and queries the two tails send the same answers, and they
handle all requests when the numbers of the updates leave no gap. -/
theorem tails_answer_alike {s : ChainServer} (hs : s.FreshTail) (serverId : ℕ) (bankId : String)
    (prev master : P) (xs : List (Arrival P)) (hxs : ∀ x ∈ xs, x.req.Common) :
    s.answers (xs.map Arrival.req) =
        (Server.setup serverId bankId (some prev) none master false).answers xs ∧
      (SeqStream.GapFree 0
          ((xs.filter fun x => x.req.type ≠ .query).map fun x => x.req.bankUpdateSeq) →
        (s.answers (xs.map Arrival.req)).length = xs.length) := by
  have hagree := agree_setup hs serverId bankId prev master
  refine ⟨hagree.answers_eq hxs, fun hgap => ?_⟩
  refine hagree.length_answers hxs ?_
  rwa [hs.bankUpdateSeq]

/-- The last server of a chain of several ones starts as such a tail. -/
lemma freshTail_initServer {cfg : Config} {b : BankConfig} {a : Address} (hb : b ∈ cfg.banks)
    (hlast : b.servers.getLast? = some a) (hhead : b.servers.head? ≠ some a) :
    (cfg.initServer a).FreshTail := by
  rw [Config.initServer_of_mem hb (List.mem_of_getLast? hlast)]
  exact ⟨by simpa using hhead, by simpa using hlast, rfl, rfl, rfl, rfl, rfl⟩

/-- A request of client `c` for the account `a`. -/
def atTail (type : ChainReplication.RequestType) (seq : ℕ) (reqId : String) (amount : ℚ) : Arrival ℕ where
  req := { reqId := reqId, type := type, clientAddr := Config.localAddress 100, bankUpdateSeq := seq,
           accountId := "a", bankId := "BOA", amount := amount }
  client := 100
  source := if type = .query then 100 else 2

/-- A query opens the account; then come a deposit, the same again, another one under its id, and a
withdrawal that is too large. -/
def fiveArrivals : List (Arrival ℕ) :=
  [atTail .query 0 "BOA.c.1" 0, atTail .deposit 1 "BOA.c.2" 5, atTail .deposit 2 "BOA.c.2" 5,
    atTail .deposit 3 "BOA.c.2" 6, atTail .withdraw 4 "BOA.c.3" 7]

lemma fiveArrivals_common : ∀ x ∈ fiveArrivals, x.req.Common := by
  intro x hx
  simp only [fiveArrivals, List.mem_cons, List.not_mem_nil, or_false] at hx
  rcases hx with rfl | rfl | rfl | rfl | rfl <;> exact ⟨by decide, rfl, rfl, by decide⟩

theorem tails_answer_alike_sample :
    (Config.twoBanks.initServer (Config.localAddress 3)).answers (fiveArrivals.map Arrival.req) =
        (Server.setup 3 "BOA" (some 2) none 0 false).answers fiveArrivals ∧
      ((Config.twoBanks.initServer (Config.localAddress 3)).answers (fiveArrivals.map Arrival.req)).length = 5 := by
  have hfresh : (Config.twoBanks.initServer (Config.localAddress 3)).FreshTail :=
    @freshTail_initServer Config.twoBanks _ _ List.mem_cons_self (by decide) (by decide)
  obtain ⟨halike, hall⟩ := tails_answer_alike hfresh 3 "BOA" 2 0 fiveArrivals fiveArrivals_common
  exact ⟨halike, hall (by simp [fiveArrivals, atTail])⟩

example : (Config.twoBanks.initServer (Config.localAddress 3)).answers (fiveArrivals.map Arrival.req) =
    [[⟨"BOA.c.1", "a", .processed, 0⟩], [⟨"BOA.c.2", "a", .processed, 5⟩],
      [⟨"BOA.c.2", "a", .processed, 5⟩], [⟨"BOA.c.2", "a", .inconsistentWithHistory, 5⟩],
      [⟨"BOA.c.3", "a", .insufficientFunds, 5⟩]] := by
  decide +kernel

end DistAlgo

end ChainReplication
