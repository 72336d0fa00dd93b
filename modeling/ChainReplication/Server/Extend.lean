import ChainReplication.Server.Handlers

/-!
# Chain extension

Both sides of the handoff of `server.cc`: the current tail, whose background thread
`send_req_to_extend_server` streams its state, and the joining server, which rebuilds it.
-/

namespace ChainReplication

namespace ChainServer

/-! ### The joining server -/

/-- `receive_extend_msg`. -/
def receiveExtendMsg (s : ChainServer) (master : Address) : ExtendMsg → Effect
  | .start serverAddr =>
    { server := { s with
        processedMap := ∅, accountMap := ∅, bankUpdateSeq := 0, preServerAddr := serverAddr } }
  | .account accountId balance =>
    match s.createAccount accountId balance with
    | some s => { server := s }
    | none => s.abort
  | .history request =>
    let s := if request.bankUpdateSeq > s.bankUpdateSeq then
      { s with bankUpdateSeq := request.bankUpdateSeq } else s
    { server := s.insertProcessedList request }
  | .sent request =>
    let s := if request.bankUpdateSeq > s.bankUpdateSeq then
      { s with bankUpdateSeq := request.bankUpdateSeq } else s
    let u := s.updateRequestReply request
    let s := u.1.writeLogReply u.2
    { server := if u.2.checkResult = .newreq then s.insertProcessedList u.2 else s }
  | .fin =>
    let s := { s with istail := true }
    { server := s
      out := [.tcp master (.extendFinish { bankId := s.bankId, serverAddr := s.localAddr })] }

/-! ### The current tail -/

/-- `receive_extend_server`, apart from starting the thread. -/
def receiveExtendServer (s : ChainServer) (extendAddr : Address) : Effect :=
  if s.sentList.isEmpty then
    { server := { s with
        extendingChain := true, finishSendingHist := false, succServerAddr := extendAddr } }
  else s.abort

/-- `extending_server_fail`. -/
def extendingServerFail (s : ChainServer) : Effect :=
  { server := { s with
      extendingChain := false, finishSendingHist := false, sentList := [], istail := true } }

/-- The first part of `send_req_to_extend_server`: what it sends out of the locked copies
`accounts` and `processed`, listed in the order in which the maps were enumerated. -/
def snapshotMsgs (s : ChainServer) (accounts : List (String × ℚ)) (processed : List Request) :
    List ExtendMsg :=
  .start s.localAddr :: (accounts.map fun a => .account a.1 a.2) ++ processed.map .history

/-- The locked last block of `send_req_to_extend_server`: the messages it sends. -/
def sentMsgs (s : ChainServer) : List ExtendMsg := s.sentList.map .sent ++ [.fin]

/-- The locked last block of `send_req_to_extend_server`: the server stops acting as the tail. -/
def stopActingAsTail (s : ChainServer) : ChainServer :=
  { s with extendingChain := false, finishSendingHist := false, istail := false }

/-- The accounts in `bank_.account_map()`. -/
def accounts (s : ChainServer) : List (String × ℚ) := s.accountMap.entries.map fun e => (e.1, e.2)

/-- The requests in `processed_map_`. -/
def processed (s : ChainServer) : List Request := s.processedMap.entries.map fun e => e.2

end ChainServer

/-- The control state of one thread running `send_req_to_extend_server`. -/
inductive ExtendThread where
  /-- Before the locked copy of the maps. -/
  | spawned
  /-- After it, with the messages still to send before the last block. -/
  | sending (msgs : List ExtendMsg)
deriving DecidableEq

namespace ChainServer

/-! ### Dispatch -/

/-- `ChainServerTCPLoop::handle_msg`. `master` is the global `master_addr`. -/
def handleMsg (s : ChainServer) (master : Address) : Message → Effect
  | .request req => s.receiveRequest req
  | .acknowledge ack => s.receiveAck ack
  | .toBeHead => s.toBeHead
  | .newHead notify => s.handleNewHead notify
  | .toBeTail => s.toBeTail
  | .newPreServer addr => s.receiveNewPreserver master addr
  | .newSuccServer reqseq => s.receiveNewSuccserver reqseq
  | .extendServer addr => s.receiveExtendServer addr
  | .extendMsg msg => s.receiveExtendMsg master msg
  | .extendFail => s.extendingServerFail
  | .reply reply => s.receiveTransferReply reply
  -- no handler for the remaining types
  | _ => { server := s }

end ChainServer

end ChainReplication
