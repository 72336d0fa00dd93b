import ChainReplication.Message
import Mathlib.Data.List.AList

/-!
# The master

`master.h` and `master.cc`: the record of every bank's chain, joins and crash notifications.
Heartbeats and timeouts are left out; crash detection is a step of the system.
-/

namespace ChainReplication

/-- `BankServerChain`; a `Node` is its address. -/
structure BankServerChain where
  head : Address
  tail : Address
  extending : Address := .empty
  serverChain : List Address
deriving DecidableEq

namespace BankServerChain

/-- The element after the first occurrence of `node`. -/
def nextOf (node : Address) : List Address → Option Address
  | [] => none
  | a :: l => if a = node then l.head? else nextOf node l

/-- The element before the first occurrence of `node`. -/
def prevOf (node : Address) : List Address → Option Address
  | a :: b :: l => if a = node then none else if b = node then some a else prevOf node (b :: l)
  | _ => none

/-- `succ_server_addr`: `none` when an assertion fails or the list ends. -/
def succServerAddr (bsc : BankServerChain) (node : Address) : Option Address :=
  if node ≠ bsc.tail then nextOf node bsc.serverChain else none

/-- `pre_server_addr`: `none` when an assertion fails or the list starts. -/
def preServerAddr (bsc : BankServerChain) (node : Address) : Option Address :=
  if node ≠ bsc.head then prevOf node bsc.serverChain else none

/-- `append_node`. -/
def appendNode (bsc : BankServerChain) (node : Address) : BankServerChain :=
  { bsc with serverChain := bsc.serverChain ++ [node] }

/-- `remove_node`: `none` when the node is not in the chain. -/
def removeNode (bsc : BankServerChain) (node : Address) : Option BankServerChain :=
  if node ∈ bsc.serverChain then some { bsc with serverChain := bsc.serverChain.erase node }
  else none

end BankServerChain

/-- `Master`: the chains by bank id and the clients' addresses. -/
structure Master where
  addr : Address
  bankServerChain : AList (fun _ : String => BankServerChain)
  clientList : List Address

namespace Master

/-- Replace the record of one bank. -/
def setChain (m : Master) (bankId : String) (bsc : BankServerChain) : Master :=
  { m with bankServerChain := m.bankServerChain.insert bankId bsc }

/-- A notification to every client. -/
def notifyClients (m : Master) (msg : Message) : List Packet := m.clientList.map (.udp · msg)

/-- A notification to every server of every bank but the joining ones. -/
def notifyServers (m : Master) (msg : Message) : List Packet :=
  m.bankServerChain.entries.flatMap fun e =>
    (e.2.serverChain.filter (· ≠ e.2.extending)).map (.tcp · msg)

/-- `handle_join`. `none` stands for a failed assertion, here and below. -/
def handleJoin (m : Master) (join : Join) : Option (Master × List Packet) := do
  let bsc ← m.bankServerChain.lookup join.bankId
  let node := join.serverAddr
  let bsc := bsc.appendNode node
  let pre ← bsc.preServerAddr node
  some (m.setChain join.bankId { bsc with extending := node }, [.tcp pre (.extendServer node)])

/-- `handle_extend_finish`. -/
def handleExtendFinish (m : Master) (msg : ExtendFinish) : Option (Master × List Packet) := do
  let bsc ← m.bankServerChain.lookup msg.bankId
  let m := m.setChain msg.bankId { bsc with tail := msg.serverAddr, extending := .empty }
  some (m, m.notifyClients (.newTail { bankId := msg.bankId, serverAddr := msg.serverAddr }))

/-- `notify_crash` for `node` of the bank `bankId`. -/
def notifyCrash (m : Master) (bankId : String) (node : Address) : Option (Master × List Packet) := do
  let bsc ← m.bankServerChain.lookup bankId
  if node = bsc.head ∧ node ≠ bsc.tail then
    let newHead ← bsc.succServerAddr node
    let bsc ← { bsc with head := newHead }.removeNode node
    let m := m.setChain bankId bsc
    let notify : Notify := { bankId := bankId, serverAddr := newHead }
    some (m, .tcp newHead .toBeHead ::
      (m.notifyClients (.newHead notify) ++ m.notifyServers (.newHead notify)))
  else if node ≠ bsc.head ∧ node = bsc.tail then
    let newTail ← bsc.preServerAddr node
    let bsc ← { bsc with tail := newTail }.removeNode node
    let m := m.setChain bankId bsc
    let notify : Notify := { bankId := bankId, serverAddr := newTail }
    some (m, .tcp newTail .toBeTail :: (m.notifyClients (.newTail notify) ++
      if bsc.extending = .empty then [] else [.tcp bsc.tail (.extendServer bsc.extending)]))
  else if node ≠ bsc.head ∧ node ≠ bsc.tail ∧ node ≠ bsc.extending then
    let succ ← bsc.succServerAddr node
    let pre ← bsc.preServerAddr node
    let bsc ← bsc.removeNode node
    some (m.setChain bankId bsc, [.tcp succ (.newPreServer pre)])
  else if node = bsc.extending then
    let pre ← bsc.preServerAddr node
    let bsc ← bsc.removeNode node
    some (m.setChain bankId { bsc with extending := .empty }, [.tcp pre .extendFail])
  else none

/-- `notify_internal_crash_to_preserver`. -/
def notifyInternalCrashToPreserver (reqSeq : Reqseq) : List Packet :=
  [.tcp reqSeq.preAddr (.newSuccServer reqSeq)]

/-- `MasterTCPLoop::handle_msg`. -/
def handleMsg (m : Master) : Message → Option (Master × List Packet)
  | .reqSeq reqseq => some (m, notifyInternalCrashToPreserver reqseq)
  | .join join => m.handleJoin join
  | .extendFinish msg => m.handleExtendFinish msg
  -- no handler for the remaining types
  | _ => some (m, [])

end Master

end ChainReplication
