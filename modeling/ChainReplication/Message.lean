import Mathlib.Data.Rat.Defs
import Mathlib.Algebra.Order.Ring.Rat

/-!
# Messages

The records of `message.proto`. An optional field is read through its getter, which returns the
proto2 default when the field is unset, so it is modelled by a plain field with that default.
Amounts and balances are exact (`float` in the source).
-/

namespace ChainReplication

/-- `proto::Address`. -/
structure Address where
  ip : String
  port : Int
deriving DecidableEq, Repr

/-- The address `Node("", 0)`, which the master uses for "no server". -/
def Address.empty : Address := ⟨"", 0⟩

instance : Inhabited Address := ⟨Address.empty⟩

/-- `proto::Request::RequestType`. -/
inductive RequestType where
  | query
  | deposit
  | withdraw
  | transfer
  | transferTo
deriving DecidableEq, Repr

/-- `proto::Request::CheckRequest`. -/
inductive CheckRequest where
  | inconsistent
  | processed
  | newreq
deriving DecidableEq, Repr

/-- `proto::Reply::Outcome`. -/
inductive ReplyOutcome where
  | processed
  | inconsistentWithHistory
  | insufficientFunds
deriving DecidableEq, Repr

/-- `proto::Reply`. -/
structure Reply where
  reqId : String := ""
  outcome : ReplyOutcome := .processed
  accountId : String := ""
  balance : ℚ := 0
deriving DecidableEq

/-- `proto::Request`. The numbers in messages are of type `uint32` in the source and have no bound here. -/
structure Request where
  reqId : String
  type : RequestType
  clientAddr : Address
  bankUpdateSeq : ℕ := 0
  accountId : String := ""
  bankId : String := ""
  amount : ℚ := 0
  destBankId : String := ""
  destAccountId : String := ""
  reply : Reply := {}
  checkResult : CheckRequest := .inconsistent
deriving DecidableEq

/-- The part of a request that no server computes: everything but the reply and the check result. -/
def Request.body (req : Request) : Request :=
  { req with reply := {}, checkResult := .inconsistent }

/-- `proto::Acknowledge`. -/
structure Acknowledge where
  bankUpdateSeq : ℕ
deriving DecidableEq

/-- `proto::Notify`. -/
structure Notify where
  bankId : String
  serverAddr : Address
deriving DecidableEq

/-- `proto::Reqseq`. -/
structure Reqseq where
  bankUpdateSeq : ℕ
  bankId : String
  preAddr : Address
  succAddr : Address
deriving DecidableEq

/-- `proto::Join`. -/
structure Join where
  bankId : String
  serverAddr : Address
deriving DecidableEq

/-- `proto::ExtendMsg`, one constructor for each type with the field that type carries. -/
inductive ExtendMsg where
  | start (serverAddr : Address)
  | account (accountId : String) (balance : ℚ)
  | history (request : Request)
  | sent (request : Request)
  | fin
deriving DecidableEq

/-- `proto::ExtendFinish`. -/
structure ExtendFinish where
  bankId : String
  serverAddr : Address
deriving DecidableEq

/-- `proto::Message`, one constructor for each message type that a handler of the program reads. -/
inductive Message where
  | request (req : Request)
  | reply (reply : Reply)
  | acknowledge (ack : Acknowledge)
  | toBeHead
  | toBeTail
  | newSuccServer (reqseq : Reqseq)
  | newPreServer (addr : Address)
  | newHead (notify : Notify)
  | newTail (notify : Notify)
  | reqSeq (reqseq : Reqseq)
  | join (join : Join)
  | extendServer (addr : Address)
  | extendMsg (msg : ExtendMsg)
  | extendFinish (msg : ExtendFinish)
  | extendFail
deriving DecidableEq

/-- The request that a message carries. -/
def Message.request? : Message → Option Request
  | .request req => some req
  | _ => none

/-- What a process hands to the network. `replyToClient` is `ChainServer::reply_to_client`: the
reply stored in the request goes to the request's client address. -/
inductive Packet where
  | tcp (target : Address) (msg : Message)
  | udp (target : Address) (msg : Message)
  | replyToClient (req : Request)
deriving DecidableEq

/-- The target and content of a packet that travels by TCP. A reply goes by TCP exactly when the
request is a `TRANSFER_TO`, whose client is the upstream bank's tail. -/
def Packet.tcp? : Packet → Option (Address × Message)
  | .tcp target msg => some (target, msg)
  | .udp _ _ => none
  | .replyToClient req =>
    if req.type = .transferTo then some (req.clientAddr, .reply req.reply) else none

@[simp] lemma Request.body_reqId (q : Request) : q.body.reqId = q.reqId := rfl
@[simp] lemma Request.body_type (q : Request) : q.body.type = q.type := rfl
@[simp] lemma Request.body_bankUpdateSeq (q : Request) : q.body.bankUpdateSeq = q.bankUpdateSeq := rfl
@[simp] lemma Request.body_accountId (q : Request) : q.body.accountId = q.accountId := rfl
@[simp] lemma Request.body_body (q : Request) : q.body.body = q.body := rfl

/-- Requests with the same body agree in every field that a client fills in. -/
lemma Request.fields_of_body {q q' : Request} (h : q.body = q'.body) :
    q.reqId = q'.reqId ∧ q.type = q'.type ∧ q.bankUpdateSeq = q'.bankUpdateSeq ∧
      q.accountId = q'.accountId ∧ q.amount = q'.amount ∧ q.destBankId = q'.destBankId ∧
      q.destAccountId = q'.destAccountId := by
  simp only [body, mk.injEq] at h
  exact ⟨h.1, h.2.1, h.2.2.2.1, h.2.2.2.2.1, h.2.2.2.2.2.2.1, h.2.2.2.2.2.2.2.1,
    h.2.2.2.2.2.2.2.2.1⟩

@[simp] lemma Packet.tcp?_tcp (t : Address) (m : Message) : (Packet.tcp t m).tcp? = some (t, m) := rfl
@[simp] lemma Packet.tcp?_udp (t : Address) (m : Message) : (Packet.udp t m).tcp? = none := rfl
@[simp] lemma Packet.tcp?_replyToClient (q : Request) : (Packet.replyToClient q).tcp? =
    if q.type = .transferTo then some (q.clientAddr, .reply q.reply) else none := rfl

end ChainReplication
