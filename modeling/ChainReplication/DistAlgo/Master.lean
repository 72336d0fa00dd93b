import ChainReplication.Library.Machine
import Mathlib.Data.List.AList
import Mathlib.Data.List.Nodup

/-!
# The master of the DistAlgo implementation

`BankServerChain` and `Master` of `chain.da`. Nodes are equal when their processes are, so a node is its
process, of any type. `none` is an exception that ends the master.
-/

namespace ChainReplication.DistAlgo

variable {P : Type*} [DecidableEq P]

/-- `BankServerChain`. -/
structure BankServerChain (P : Type*) where
  servers : List P
  head : P
  tail : P
  extendingNode : Option P := none
deriving DecidableEq

namespace BankServerChain

/-- The constructor: the first server is the head and the last one the tail. -/
def setup (servers : List P) : Option (BankServerChain P) := do
  let head ← servers.head?
  let tail ← servers.getLast?
  some { servers := servers, head := head, tail := tail }

/-- `get_node`. -/
def getNode (chain : BankServerChain P) (process : P) : Option P :=
  chain.servers.find? (· = process)

/-- `remove_node`, which raises an exception for a node that is not listed. -/
def removeNode (chain : BankServerChain P) (node : P) : Option (BankServerChain P) :=
  if node ∈ chain.servers then some { chain with servers := chain.servers.erase node } else none

/-- `succ_server`. -/
def succServer (chain : BankServerChain P) (node : P) : Option P :=
  if node = chain.tail then none
  else (chain.servers.findIdx? (· = node)).bind fun i => chain.servers[i + 1]?

/-- `prev_server`; the index -1 is that of the last server. -/
def prevServer (chain : BankServerChain P) (node : P) : Option P :=
  if node = chain.head then none
  else (chain.servers.findIdx? (· = node)).bind fun i =>
    if i = 0 then chain.servers.getLast? else chain.servers[i - 1]?

end BankServerChain

/-- The messages that the master sends. -/
inductive Notice (P : Type*) where
  | toBeHead
  | newHead (head : P)
  | toBeTail
  | newTail (tail : P)
  | newTailCome (tail : P)
  | abortExtending
  | newPrevServer (prev : P)
  | newSuccServer (succ : P) (sn : ℕ)
deriving DecidableEq

/-- `Master`: the chains by bank id and the clients. -/
structure Master (P : Type*) where
  bankChains : AList (fun _ : String => BankServerChain P)
  clients : List P

namespace Master

/-- Replace the chain of one bank. -/
def setChain (m : Master P) (bankId : String) (chain : BankServerChain P) : Master P :=
  { m with bankChains := m.bankChains.insert bankId chain }

/-- A message for every client. -/
def toClients (m : Master P) (notice : Notice P) : List (P × Notice P) := m.clients.map fun c => (c, notice)

/-- A message for the tail of every bank. -/
def toTails (m : Master P) (notice : Notice P) : List (P × Notice P) :=
  m.bankChains.entries.map fun e => (e.2.tail, notice)

/-- `notify_crash`, with what it sends. -/
def notifyCrash (m : Master P) (bankId : String) (node : P) : Option (Master P × List (P × Notice P)) := do
  let chain ← m.bankChains.lookup bankId
  if node = chain.head ∧ node ≠ chain.tail then
    let newHead ← chain.succServer node
    let chain ← chain.removeNode node
    let m := m.setChain bankId { chain with head := newHead }
    some (m, (newHead, .toBeHead) :: (m.toClients (.newHead newHead) ++ m.toTails (.newHead newHead)))
  else if node ≠ chain.head ∧ node = chain.tail then
    let newTail ← chain.prevServer node
    let chain ← chain.removeNode node
    let m := m.setChain bankId { chain with tail := newTail }
    some (m, (newTail, .toBeTail) :: (m.toClients (.newTail newTail) ++
      chain.extendingNode.toList.map fun extending => (newTail, .newTailCome extending)))
  else if some node = chain.extendingNode then
    let chain ← { chain with extendingNode := none }.removeNode node
    some (m.setChain bankId chain, [(chain.tail, .abortExtending)])
  else if node ≠ chain.head ∧ node ≠ chain.tail then
    let prev ← chain.prevServer node
    let succ ← chain.succServer node
    let chain ← chain.removeNode node
    some (m.setChain bankId chain, [(succ, .newPrevServer prev)])
  else none

/-- The handler of `ACK_NEW_PREV_SERVER`. A node that is not found is no argument for `prev_server`. -/
def ackNewPrevServer (m : Master P) (bankId : String) (succ : P) (succSn : ℕ) : Option (List (P × Notice P)) := do
  let chain ← m.bankChains.lookup bankId
  let succServer ← chain.getNode succ
  let prevServer ← chain.prevServer succServer
  some [(prevServer, .newSuccServer succServer succSn)]

/-- The handler of `JOIN_CHAIN_REQUEST`. -/
def joinChainRequest (m : Master P) (bankId : String) (s : P) : Option (Master P × List (P × Notice P)) := do
  let chain ← m.bankChains.lookup bankId
  some (m.setChain bankId { chain with servers := chain.servers ++ [s], extendingNode := some s },
    [(chain.tail, .newTailCome s)])

/-- The handler of `NEW_TAIL_READY`. -/
def newTailReady (m : Master P) (bankId : String) (s : P) : Option (Master P × List (P × Notice P)) := do
  let chain ← m.bankChains.lookup bankId
  let newTail ← chain.extendingNode
  if newTail = s then
    let m := m.setChain bankId { chain with extendingNode := none, tail := newTail }
    some (m, m.toClients (.newTail newTail))
  else none

end Master

end ChainReplication.DistAlgo
