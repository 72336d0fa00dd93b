import ChainReplication.Message
import Mathlib.Data.List.AList

/-!
# The state of a chain server and its bank operations

`ChainServer` of `server.h` with the part of `server.cc` that neither sends nor fails: accounts,
duplicate detection, balances and the two request stores.
-/

namespace ChainReplication

/-- The state of one `ChainServer` process.

`accountMap` is `bank_.account_map()`, keyed by the account id that every `Account` also carries.
`hist` is no field of the source: it collects the requests that `write_log_reply` logs, in order,
and no handler reads it. The fault injection fields are left out; crashes are steps of the
system.

`bankUpdateSeq`, like the numbers in messages, has no bound here, where the source has a `uint32`. The
handlers that count in 32 bits are `receiveRequest32` and `handleMsg32`, and `System.step32` is the system of
servers that run them; both agree as long as no head numbers an update with its counter at its last value. -/
structure ChainServer where
  bankId : String := ""
  accountMap : AList (fun _ : String => ℚ) := ∅
  ishead : Bool := false
  istail : Bool := false
  extendingChain : Bool := false
  finishSendingHist : Bool := false
  processedMap : AList (fun _ : String => Request) := ∅
  sentList : List Request := []
  bankUpdateSeq : ℕ := 0
  localAddr : Address := .empty
  preServerAddr : Address := .empty
  succServerAddr : Address := .empty
  bankHeadList : AList (fun _ : String => Address) := ∅
  hist : List Request := []

instance : Inhabited ChainServer := ⟨{}⟩

/-- `ChainServer::UpdateBalanceOutcome`. -/
inductive UpdateBalanceOutcome where
  | success
  | insufficientFunds
deriving DecidableEq, Repr

/-- The key of `processed_map_`: `req_id + "_" + account_id`. -/
def Request.key (req : Request) : String := req.reqId ++ "_" ++ req.accountId

/-- `req_consistent`: the comparison of the account ids is commented out in the source. -/
def reqConsistent (req1 req2 : Request) : Bool :=
  req1.type = req2.type && req1.bankId = req2.bankId && req1.amount = req2.amount &&
    req1.destBankId = req2.destBankId && req1.destAccountId = req2.destAccountId

namespace ChainServer

/-! ### Accounts -/

/-- `get_or_create_account`: the state with the account in it, and whether it is new. -/
def getOrCreateAccount (s : ChainServer) (req : Request) : ChainServer × Bool :=
  match s.accountMap.lookup req.accountId with
  | none => ({ s with accountMap := s.accountMap.insert req.accountId 0 }, true)
  | some _ => (s, false)

/-- `get_balance`, which creates a missing account. -/
def getBalance (s : ChainServer) (accountId : String) : ChainServer × ℚ :=
  match s.accountMap.lookup accountId with
  | none => ({ s with accountMap := s.accountMap.insert accountId 0 }, 0)
  | some balance => (s, balance)

/-- `create_account`: `none` when the assertion on the insertion fails. -/
def createAccount (s : ChainServer) (accountId : String) (balance : ℚ) : Option ChainServer :=
  if accountId ∈ s.accountMap then none
  else some { s with accountMap := s.accountMap.insert accountId balance }

/-- `update_balance`: `WITHDRAW` and `TRANSFER` debit, every other update credits. -/
def updateBalance (s : ChainServer) (req : Request) : ChainServer × UpdateBalanceOutcome :=
  let s := (s.getOrCreateAccount req).1
  let balance := (s.accountMap.lookup req.accountId).getD 0
  if req.type = .withdraw ∨ req.type = .transfer then
    if balance < req.amount then (s, .insufficientFunds)
    else ({ s with accountMap := s.accountMap.insert req.accountId (balance - req.amount) }, .success)
  else ({ s with accountMap := s.accountMap.insert req.accountId (balance + req.amount) }, .success)

/-! ### Duplicate detection -/

/-- The lookups of `check_update_request` for an account that exists: first `processed_map_` under
the request's key, then `sent_list_` from its front by request id alone. -/
def checkHistory (s : ChainServer) (req : Request) (reply : Reply) : CheckRequest × Reply :=
  match s.processedMap.lookup req.key with
  | some it => if reqConsistent req it then (.processed, it.reply) else (.inconsistent, reply)
  | none =>
    match s.sentList.find? (fun it => req.reqId = it.reqId) with
    | some it => if reqConsistent req it then (.processed, it.reply) else (.inconsistent, reply)
    | none => (.newreq, reply)

/-- `check_update_request`: the state, the check result and the reply, which is the stored one when
the request is a repetition. -/
def checkUpdateRequest (s : ChainServer) (req : Request) (reply : Reply) :
    ChainServer × CheckRequest × Reply :=
  let r := s.getOrCreateAccount req
  if r.2 then (r.1, .newreq, reply) else (r.1, r.1.checkHistory req reply)

/-- `update_request_reply`: the state and the request with its reply and check result filled in. -/
def updateRequestReply (s : ChainServer) (req : Request) : ChainServer × Request :=
  let reply : Reply := { reqId := req.reqId, accountId := req.accountId }
  let c := s.checkUpdateRequest req reply
  match c.2.1 with
  | .inconsistent =>
    let b := c.1.getBalance req.accountId
    (b.1, { req with
      checkResult := .inconsistent
      reply := { c.2.2 with outcome := .inconsistentWithHistory, balance := b.2 } })
  | .processed => (c.1, { req with checkResult := .processed, reply := c.2.2 })
  | .newreq =>
    let u := c.1.updateBalance req
    let b := u.1.getBalance req.accountId
    let outcome := match u.2 with
      | .insufficientFunds => ReplyOutcome.insufficientFunds
      | .success => ReplyOutcome.processed
    (b.1, { req with
      checkResult := .newreq, reply := { c.2.2 with outcome := outcome, balance := b.2 } })

/-! ### The request stores -/

/-- `insert_processed_list`: the first request under a key stays. -/
def insertProcessedList (s : ChainServer) (req : Request) : ChainServer :=
  if req.key ∈ s.processedMap then s
  else { s with processedMap := s.processedMap.insert req.key req }

/-- `insert_sent_list`. -/
def insertSentList (s : ChainServer) (req : Request) : ChainServer :=
  { s with sentList := s.sentList ++ [req] }

/-- `write_log_reply`. -/
def writeLogReply (s : ChainServer) (req : Request) : ChainServer :=
  { s with hist := s.hist ++ [req] }

/-- Move a list of requests into `processed_map_`, front first. -/
def insertAllProcessed (s : ChainServer) (reqs : List Request) : ChainServer :=
  reqs.foldl insertProcessedList s

end ChainServer

end ChainReplication
