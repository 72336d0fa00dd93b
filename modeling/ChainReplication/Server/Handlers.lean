import ChainReplication.Server.Basic

/-!
# The message handlers of a chain server

The rest of `server.cc` outside chain extension. A handler either returns or dies in a failed
assertion; either way the packets it has sent are out.
-/

namespace ChainReplication

/-- What a handler leaves behind: the state, the packets sent so far in their order, and whether
every assertion on the way held. -/
structure Effect where
  server : ChainServer
  out : List Packet := []
  ok : Bool := true

/-- Run `f` after `e`, unless `e` has died. -/
def Effect.andThen (e : Effect) (f : ChainServer → Effect) : Effect :=
  if e.ok then
    { server := (f e.server).server, out := e.out ++ (f e.server).out, ok := (f e.server).ok }
  else e

namespace ChainServer

/-- A failed assertion. -/
def abort (s : ChainServer) : Effect := { server := s, ok := false }

/-! ### Sends -/

/-- `forward_request`. -/
def forwardRequest (s : ChainServer) (req : Request) : Packet := .tcp s.succServerAddr (.request req)

/-- `reply_to_client`. -/
def replyToClient (req : Request) : Packet := .replyToClient req

/-- `sendback_ack`. -/
def sendbackAck (s : ChainServer) (ack : Acknowledge) : Packet := .tcp s.preServerAddr (.acknowledge ack)

/-- The `TRANSFER_TO` that `forward_transfer_to_downstream` derives from a `TRANSFER`. The reply
is copied along; `bank_update_seq` and the check result are cleared. -/
def transferToReq (s : ChainServer) (req : Request) : Request :=
  { req with
    type := .transferTo
    accountId := req.destAccountId
    bankId := req.destBankId
    checkResult := .inconsistent
    destAccountId := ""
    destBankId := ""
    bankUpdateSeq := 0
    clientAddr := s.localAddr }

/-- `forward_transfer_to_downstream`; `get_bank_head` asserts that the bank is known. -/
def forwardTransferToDownstream (s : ChainServer) (req : Request) : Effect :=
  match s.bankHeadList.lookup req.destBankId with
  | none => s.abort
  | some head => { server := s, out := [.tcp head (.request (s.transferToReq req))] }

/-- The loop `for (req : reqs) forward_transfer_to_downstream(req)`. -/
def forwardTransfers (s : ChainServer) : List Request → Effect
  | [] => { server := s }
  | req :: reqs => (s.forwardTransferToDownstream req).andThen (·.forwardTransfers reqs)

/-! ### Requests -/

/-- `handle_query`. -/
def handleQuery (s : ChainServer) (req : Request) : Effect :=
  let b := s.getBalance req.accountId
  { server := b.1
    out := [replyToClient { req with
      reply := { reqId := req.reqId, outcome := .processed, accountId := req.accountId,
                 balance := b.2 } }] }

/-- `handle_transfer`, for a request that `update_request_reply` has filled in. -/
def handleTransfer (s : ChainServer) (req : Request) : Effect :=
  let e : Effect :=
    if req.checkResult = .newreq then
      let s := s.insertProcessedList req
      if req.reply.outcome = .processed then (s.insertSentList req).forwardTransferToDownstream req
      else { server := s }
    else { server := s }
  e.andThen fun s =>
    if req.reply.outcome ≠ .processed then { server := s, out := [replyToClient req] }
    else if req.checkResult ≠ .newreq then
      -- the downstream bank still works on it: no reply yet
      if s.sentList.any (fun it => it.reqId = req.reqId && it.accountId = req.accountId) then
        { server := s }
      else { server := s, out := [replyToClient req] }
    else { server := s }

/-- How `single_handle_update` and `tail_handle_update` store a request that is no transfer. -/
def storeUpdate (s : ChainServer) (req : Request) : ChainServer :=
  let s := if req.checkResult = .newreq then s.insertProcessedList req else s
  if s.extendingChain then s.insertSentList req else s

/-- The common part of `single_handle_update` and `tail_handle_update`. -/
def answerUpdate (s : ChainServer) (req : Request) : Effect :=
  let u := s.updateRequestReply req
  let s := u.1.writeLogReply u.2
  if u.2.type = .transfer then s.handleTransfer u.2
  else { server := s.storeUpdate u.2, out := [replyToClient u.2] }

/-- `single_handle_update`. -/
def singleHandleUpdate (s : ChainServer) (req : Request) : Effect := s.answerUpdate req

/-- `tail_handle_update`: the acknowledgement waits while transfers are pending. -/
def tailHandleUpdate (s : ChainServer) (req : Request) : Effect :=
  (s.answerUpdate req).andThen fun s =>
    if s.sentList.isEmpty then
      { server := s, out := [s.sendbackAck ⟨req.bankUpdateSeq⟩] }
    else { server := s }

/-- The common body of `head_handle_update` and `internal_handle_update`. -/
def relayUpdate (s : ChainServer) (req : Request) : Effect :=
  let u := s.updateRequestReply req
  let s := (u.1.writeLogReply u.2).insertSentList u.2
  { server := s, out := [s.forwardRequest u.2] }

/-- `head_handle_update`. -/
def headHandleUpdate (s : ChainServer) (req : Request) : Effect := s.relayUpdate req

/-- `internal_handle_update`. -/
def internalHandleUpdate (s : ChainServer) (req : Request) : Effect := s.relayUpdate req

/-- `receive_request`. -/
def receiveRequest (s : ChainServer) (req : Request) : Effect :=
  if req.type = .query then
    if s.istail then s.handleQuery req else s.abort
  else if s.ishead && !s.istail then
    let s := { s with bankUpdateSeq := s.bankUpdateSeq + 1 }
    s.headHandleUpdate { req with bankUpdateSeq := s.bankUpdateSeq }
  else if s.ishead && s.istail then
    let s := { s with bankUpdateSeq := s.bankUpdateSeq + 1 }
    s.singleHandleUpdate { req with bankUpdateSeq := s.bankUpdateSeq }
  else if s.bankUpdateSeq ≥ req.bankUpdateSeq then { server := s }
  else if s.bankUpdateSeq ≠ req.bankUpdateSeq - 1 then s.abort
  else
    let s := { s with bankUpdateSeq := req.bankUpdateSeq }
    if s.istail then s.tailHandleUpdate req else s.internalHandleUpdate req

/-! ### Acknowledgements -/

/-- `receive_ack`: requests up to the acknowledged number leave the front of `sent_list_` for
`processed_map_`, and the acknowledgement travels on. -/
def receiveAck (s : ChainServer) (ack : Acknowledge) : Effect :=
  let acked := s.sentList.takeWhile (·.bankUpdateSeq ≤ ack.bankUpdateSeq)
  let s := { s.insertAllProcessed acked with
    sentList := s.sentList.dropWhile (·.bankUpdateSeq ≤ ack.bankUpdateSeq) }
  { server := s, out := if s.ishead then [] else [s.sendbackAck ack] }

/-! ### Role changes and link repair -/

/-- `to_be_head`. -/
def toBeHead (s : ChainServer) : Effect := { server := { s with ishead := true } }

/-- `to_be_tail`: every request that is no transfer moves to `processed_map_`; the transfers stay
and are forwarded again, or, if there is none, everything is acknowledged. The source logs the request after the
one that it has just erased, which is undefined behaviour when there is no such request; logging is left out. -/
def toBeTail (s : ChainServer) : Effect :=
  let moved := s.sentList.filter (·.type ≠ .transfer)
  let s := { s.insertAllProcessed moved with
    istail := true
    sentList := s.sentList.filter (·.type = .transfer) }
  if s.sentList.isEmpty then
    { server := s, out := if s.ishead then [] else [s.sendbackAck ⟨s.bankUpdateSeq⟩] }
  else s.forwardTransfers s.sentList

/-- `receive_new_preserver`. The master's address is a global of `server.cc`. -/
def receiveNewPreserver (s : ChainServer) (master preAddr : Address) : Effect :=
  let s := { s with preServerAddr := preAddr }
  { server := s
    out := [.tcp master (.reqSeq
      { bankUpdateSeq := s.bankUpdateSeq, bankId := s.bankId, preAddr := s.preServerAddr,
        succAddr := s.localAddr })] }

/-- `receive_new_succserver`. -/
def receiveNewSuccserver (s : ChainServer) (reqSeq : Reqseq) : Effect :=
  let s := { s with succServerAddr := reqSeq.succAddr }
  { server := s
    out := (s.sentList.filter (·.bankUpdateSeq > reqSeq.bankUpdateSeq)).map s.forwardRequest }

/-! ### Transfers -/

/-- `receive_transfer_reply`. Only the last removal can empty `sent_list_`, so the acknowledgement
comes after all the replies. -/
def receiveTransferReply (s : ChainServer) (reply : Reply) : Effect :=
  if reply.outcome ≠ .processed then s.abort
  else
    let done := fun it : Request => it.reqId = reply.reqId && it.destAccountId = reply.accountId
    let removed := s.sentList.filter done
    let s := { s with sentList := s.sentList.filter (!done ·) }
    { server := s
      out := removed.map replyToClient ++
        if removed ≠ [] && s.sentList.isEmpty && !s.ishead then
          [s.sendbackAck ⟨s.bankUpdateSeq⟩]
        else [] }

/-- The loop of `handle_new_head` over `sent_list_`. -/
def resendTransfers (s : ChainServer) (bankId : String) : List Request → Effect
  | [] => { server := s }
  | req :: reqs =>
    if req.type ≠ .transfer then s.abort
    else if req.destBankId = bankId then
      (s.forwardTransferToDownstream req).andThen (·.resendTransfers bankId reqs)
    else s.resendTransfers bankId reqs

/-- `handle_new_head`. -/
def handleNewHead (s : ChainServer) (notify : Notify) : Effect :=
  if notify.bankId ∈ s.bankHeadList then
    let s := { s with bankHeadList := s.bankHeadList.insert notify.bankId notify.serverAddr }
    if s.istail then s.resendTransfers notify.bankId s.sentList else { server := s }
  else s.abort

end ChainServer

end ChainReplication
