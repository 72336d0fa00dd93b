import Mathlib.Data.List.AList
import Mathlib.Data.Rat.Defs
import Mathlib.Algebra.Order.Ring.Rat

/-!
# The server of the DistAlgo implementation

`Request`, `Reply`, `Bank` and the handlers of `Server` in `chain.da` that read or write accounts, histories
and roles. `none` is an exception. Amounts and balances are exact.
-/

namespace ChainReplication.DistAlgo

/-- `RequestType`. -/
inductive RequestType where
  | query
  | deposit
  | withdraw
  | transfer
  | transferTo
deriving DecidableEq, Repr

/-- `Outcome`. -/
inductive Outcome where
  | newReq
  | processed
  | inconsistentWithHistory
  | insufficientFunds
deriving DecidableEq, Repr

/-- `Reply`. -/
structure Reply where
  reqId : String := ""
  type : RequestType := .query
  accountId : String := ""
  balance : ℚ := 0
  outcome : Outcome := .newReq
deriving DecidableEq

/-- `Request`. The reply is `None` in the source until a server has handled the request. -/
structure Request (P : Type*) where
  reqId : String
  type : RequestType
  bankId : String
  accountId : String
  amount : ℚ
  reply : Reply := {}
  bankUpdateSeq : ℤ := -1
  client : Option P := none
  isNew : Bool := false
deriving DecidableEq

/-- `Account`. -/
structure Account where
  accountId : String
  balance : ℚ := 0
deriving DecidableEq

/-- What `processed` holds for one account: requests by their id. -/
abbrev History (P : Type*) := AList fun _ : String => Request P

variable {P : Type*}

/-- `consistent_with`. -/
def Request.consistentWith (self req : Request P) : Bool :=
  self.type = req.type && self.bankId = req.bankId && self.amount = req.amount

/-- The messages of a server. -/
inductive Msg (P : Type*) where
  | request (req : Request P)
  | reply (reply : Reply)
  | ack (bankUpdateSeq : ℤ) (reqId : String)
  | beginOldTailHistory (serverId : ℕ) (snSnapshot : ℤ)
  | oldTailHistory (account : Option Account) (accountProcessed : History P)
  | oldTailSentList (oldTailSent : List (Request P))
  | newTailReady (serverId : ℕ) (bankId : String)

/-- The state of a `Server`. `applied` is no field of the source: it collects the updates that
`update_request_reply` applies as new, and no handler reads it. -/
structure Server (P : Type*) where
  serverId : ℕ
  bankId : String
  prev : Option P
  succ : Option P
  master : P
  isHead : Bool
  isTail : Bool
  accounts : AList (fun _ : String => Account) := ∅
  bankUpdateSeq : ℤ := 0
  processed : AList (fun _ : String => History P) := ∅
  sent : List (Request P) := []
  extendingChain : Bool := false
  abortExtending : Bool := false
  applied : List (Request P) := []

namespace Server

/-- `setup`; a server with a start delay has no role until it has joined. -/
def setup (serverId : ℕ) (bankId : String) (prev succ : Option P) (master : P) (startDelay : Bool) :
    Server P where
  serverId := serverId
  bankId := bankId
  prev := prev
  succ := succ
  master := master
  isHead := prev.isNone && !startDelay
  isTail := succ.isNone && !startDelay

/-! ### The bank -/

/-- `get_or_create_account`, with whether the account is new. -/
def getOrCreateAccount (s : Server P) (accountId : String) : Server P × Account × Bool :=
  match s.accounts.lookup accountId with
  | some account => (s, account, false)
  | none =>
    let account : Account := { accountId := accountId }
    ({ s with accounts := s.accounts.insert accountId account }, account, true)

/-- `get_balance`, which creates a missing account. -/
def getBalance (s : Server P) (accountId : String) : Server P × ℚ :=
  let c := s.getOrCreateAccount accountId
  (c.1, c.2.1.balance)

/-- `Account.increase` and `Account.decrease` of the account of a request. -/
def setBalance (s : Server P) (account : Account) (accountId : String) (balance : ℚ) : Server P :=
  { s with accounts := s.accounts.insert accountId { account with balance := balance } }

/-- `update_balance`: `WITHDRAW` and `TRANSFER` debit, `DEPOSIT` credits, nothing else does either. -/
def updateBalance (s : Server P) (req : Request P) : Server P × Outcome × ℚ :=
  let c := s.getOrCreateAccount req.accountId
  let balance := c.2.1.balance
  if req.type = .withdraw ∨ req.type = .transfer then
    if balance < req.amount then (c.1, .insufficientFunds, balance)
    else (c.1.setBalance c.2.1 req.accountId (balance - req.amount), .processed, balance - req.amount)
  else if req.type = .deposit then
    (c.1.setBalance c.2.1 req.accountId (balance + req.amount), .processed, balance + req.amount)
  else (c.1, .processed, balance)

/-! ### Histories -/

/-- The reply for a request whose id is found at `found`. -/
def replyFrom (req found : Request P) (reply : Reply) : Reply :=
  if req.consistentWith found then { reply with outcome := found.reply.outcome, balance := found.reply.balance }
  else { reply with outcome := .inconsistentWithHistory }

/-- `self.processed.setdefault(account_id, {})`. -/
def setdefaultProcessed (s : Server P) (accountId : String) : Server P :=
  if accountId ∈ s.processed then s else { s with processed := s.processed.insert accountId ∅ }

/-- `build_reply_from_history`: first the history of the account, then the sent list by id alone. -/
def buildReplyFromHistory (s : Server P) (req : Request P) : Server P × Reply :=
  let reply : Reply := { reqId := req.reqId, type := req.type, accountId := req.accountId }
  let c := s.getOrCreateAccount req.accountId
  if c.2.2 then (c.1, reply)
  else
    let s := c.1.setdefaultProcessed req.accountId
    match (s.processed.lookup req.accountId).bind fun history => history.lookup req.reqId with
    | some processedReq => (s, replyFrom req processedReq reply)
    | none =>
      match s.sent.find? fun sentReq => req.reqId = sentReq.reqId with
      | some sentReq => (s, replyFrom req sentReq reply)
      | none => (s, reply)

/-- `update_request_reply`: the state and the request with its reply. -/
def updateRequestReply (s : Server P) (req : Request P) : Server P × Request P :=
  let b := s.buildReplyFromHistory req
  if b.2.outcome = .newReq then
    let u := b.1.updateBalance req
    let req := { req with isNew := true, reply := { b.2 with outcome := u.2.1, balance := u.2.2 } }
    ({ u.1 with applied := u.1.applied ++ [req] }, req)
  else if b.2.outcome = .inconsistentWithHistory then
    let g := b.1.getBalance req.accountId
    (g.1, { req with isNew := false, reply := { b.2 with balance := g.2 } })
  else (b.1, { req with isNew := false, reply := b.2 })

/-- `insert_sent_list`. -/
def insertSentList (s : Server P) (req : Request P) : Server P := { s with sent := s.sent ++ [req] }

/-- `insert_processed_list`: the first request with an id stays. -/
def insertProcessedList (s : Server P) (req : Request P) : Server P :=
  let history := (s.processed.lookup req.accountId).getD ∅
  let history := if req.reqId ∈ history then history else history.insert req.reqId req
  { s with processed := s.processed.insert req.accountId history }

/-! ### Requests -/

/-- `forward_request`. -/
def forwardRequest (s : Server P) (req : Request P) : Option (List (P × Msg P)) := do
  let succ ← s.succ
  some [(succ, .request req)]

/-- `reply_to_client`. -/
def replyToClient (req : Request P) : Option (List (P × Msg P)) := do
  let client ← req.client
  some [(client, .reply req.reply)]

/-- `send_ack`. -/
def sendAck (s : Server P) (req : Request P) : Option (List (P × Msg P)) := do
  let prev ← s.prev
  some [(prev, .ack req.bankUpdateSeq req.reqId)]

/-- What `head_handle_request` and `internal_handle_request` do before they forward. -/
def passOn (s : Server P) (req : Request P) : Server P × Request P :=
  let u := s.updateRequestReply req
  (u.1.insertSentList u.2, u.2)

/-- Where `single_handle_request` and `tail_handle_request` keep a request that has its reply. -/
def keepAnswered (s : Server P) (req : Request P) : Server P :=
  let s := if req.isNew then s.insertProcessedList req else s
  if s.extendingChain then s.insertSentList req else s

/-- What `single_handle_request` and `tail_handle_request` do before they answer. -/
def complete (s : Server P) (req : Request P) : Server P × Request P :=
  let u := s.updateRequestReply req
  (u.1.keepAnswered u.2, u.2)

/-- `head_handle_request`. -/
def headHandleRequest (s : Server P) (req : Request P) : Option (Server P × List (P × Msg P)) := do
  let u := s.passOn req
  let out ← u.1.forwardRequest u.2
  some (u.1, out)

/-- `internal_handle_request`. -/
def internalHandleRequest (s : Server P) (req : Request P) : Option (Server P × List (P × Msg P)) := do
  let u := s.passOn req
  let out ← u.1.forwardRequest u.2
  some (u.1, out)

/-- `single_handle_request`. -/
def singleHandleRequest (s : Server P) (req : Request P) : Option (Server P × List (P × Msg P)) := do
  let u := s.complete req
  let out ← replyToClient u.2
  some (u.1, out)

/-- `tail_handle_request`. -/
def tailHandleRequest (s : Server P) (req : Request P) : Option (Server P × List (P × Msg P)) := do
  let u := s.complete req
  let out ← (if u.2.type = .transferTo then some [] else replyToClient u.2)
  let ack ← u.1.sendAck u.2
  some (u.1, out ++ ack)

/-- `handle_query`. -/
def handleQuery (s : Server P) (req : Request P) : Option (Server P × List (P × Msg P)) := do
  let g := s.getBalance req.accountId
  let out ← replyToClient { req with reply :=
    { reqId := req.reqId, type := req.type, accountId := req.accountId, outcome := .processed, balance := g.2 } }
  some (g.1, out)

/-- `process_req` for a request from `c`. -/
def processReq (s : Server P) (req : Request P) (c : P) : Option (Server P × List (P × Msg P)) :=
  if req.type = .query then
    if s.isTail then s.handleQuery { req with client := some c } else none
  else if s.isHead && !s.isTail then
    let s := { s with bankUpdateSeq := s.bankUpdateSeq + 1 }
    s.headHandleRequest { req with bankUpdateSeq := s.bankUpdateSeq, client := some c }
  else if s.isHead && s.isTail then
    let s := { s with bankUpdateSeq := s.bankUpdateSeq + 1 }
    s.singleHandleRequest { req with bankUpdateSeq := s.bankUpdateSeq, client := some c }
  else if req.bankUpdateSeq ≤ s.bankUpdateSeq then some (s, [])
  else if s.bankUpdateSeq = req.bankUpdateSeq - 1 then
    let s := { s with bankUpdateSeq := req.bankUpdateSeq }
    if s.isTail then s.tailHandleRequest req else s.internalHandleRequest req
  else none

/-! ### Acknowledgements and roles -/

/-- The loop of the `ACK` handler: what it leaves and the last request it has moved. -/
def moveAcked (bankUpdateSeq : ℤ) :
    List (Request P) → Server P → Option (Request P) → Server P × Option (Request P)
  | [], s, last => ({ s with sent := [] }, last)
  | req :: rest, s, last =>
    if req.bankUpdateSeq ≤ bankUpdateSeq then moveAcked bankUpdateSeq rest (s.insertProcessedList req) (some req)
    else ({ s with sent := req :: rest }, last)

/-- The `send_ack` at the end of `ACK`, `TO_BE_TAIL` and `ABORT_EXTENDING`. -/
def passAck (s : Server P) (last : Option (Request P)) : Option (List (P × Msg P)) :=
  match last with
  | some req => if s.isHead then some [] else s.sendAck req
  | none => some []

/-- The handler of `ACK`. -/
def ack (s : Server P) (bankUpdateSeq : ℤ) : Option (Server P × List (P × Msg P)) := do
  let m := moveAcked bankUpdateSeq s.sent s none
  let out ← m.1.passAck m.2
  some (m.1, out)

/-- The handler of `TO_BE_HEAD`. -/
def toBeHead (s : Server P) : Server P := { s with isHead := true }

/-- The handler of `TO_BE_TAIL`. -/
def toBeTail (s : Server P) : Option (Server P × List (P × Msg P)) := do
  let last := s.sent.getLast?
  let s := { s.sent.foldl insertProcessedList { s with isTail := true } with sent := [] }
  let out ← s.passAck last
  some (s, out)

/-- The handler of `NEW_TAIL_COME` up to the start of the thread. -/
def newTailCome (s : Server P) (newTail : P) : Option (Server P) :=
  if s.sent = [] then some { s with extendingChain := true, abortExtending := false, succ := some newTail }
  else none

/-! ### The new server -/

/-- The handler of `BEGIN_OLD_TAIL_HISTORY` from `p`. -/
def beginOldTailHistory (s : Server P) (p : P) (snSnapshot : ℤ) : Server P :=
  { s with prev := some p, accounts := ∅, processed := ∅, sent := [], bankUpdateSeq := snSnapshot }

/-- The handler of `OLD_TAIL_HISTORY`. -/
def oldTailHistory (s : Server P) (account : Option Account) (accountProcessed : History P) :
    Option (Server P) :=
  account.map fun account => { s with
    accounts := s.accounts.insert account.accountId account
    processed := s.processed.insert account.accountId accountProcessed }

/-- One round of the loop of `OLD_TAIL_SENT_LIST`. -/
def applySent (s : Server P) (req : Request P) : Server P :=
  if s.bankUpdateSeq < req.bankUpdateSeq then
    let u := { s with bankUpdateSeq := req.bankUpdateSeq }.updateRequestReply req
    u.1.insertProcessedList u.2
  else s

/-- The handler of `OLD_TAIL_SENT_LIST`. -/
def oldTailSentList (s : Server P) (oldTailSent : List (Request P)) : Server P × List (P × Msg P) :=
  let s := oldTailSent.foldl applySent s
  ({ s with isTail := true }, [(s.master, .newTailReady s.serverId s.bankId)])

/-- The handler of a message from the old tail `p`. -/
def receive (s : Server P) (p : P) : Msg P → Option (Server P)
  | .beginOldTailHistory _ snSnapshot => some (s.beginOldTailHistory p snSnapshot)
  | .oldTailHistory account accountProcessed => s.oldTailHistory account accountProcessed
  | .oldTailSentList oldTailSent => some (s.oldTailSentList oldTailSent).1
  | .request req => (s.processReq req p).map Prod.fst
  | .ack bankUpdateSeq _ => (s.ack bankUpdateSeq).map Prod.fst
  | .reply _ | .newTailReady _ _ => some s

/-- The handlers of a list of messages from the old tail, in order. -/
def receiveAll (s : Server P) (p : P) (msgs : List (Msg P)) : Option (Server P) :=
  msgs.foldlM (fun s msg => s.receive p msg) s

end Server

end ChainReplication.DistAlgo
