import ChainReplication.DistAlgo.Books
import ChainReplication.DistAlgo.Repair
import ChainReplication.Library.Assoc
import ChainReplication.Library.Fifo
import ChainReplication.Library.Survivors

/-!
# The system of the DistAlgo implementation

The servers, the master and the FIFO channels between them, without extensions. A process may die at any time,
also between two messages of a handler, and the master finds out who has.
-/

namespace ChainReplication.DistAlgo

variable {P : Type*} [DecidableEq P]

/-- What travels between processes. -/
inductive Mail (P : Type*) where
  | msg (msg : Msg P)
  | notice (notice : Notice P)
  | ackNewPrevServer (bankId : String) (succSn : ℕ)

/-- The request without what a server notes on it. -/
def Request.body {P : Type*} (req : Request P) : Request P := { req with reply := {}, isNew := false }

namespace Server

/-- The messages of a handler for accounts and histories, with what it leaves. -/
def posted (r : Option (Server P × List (P × Msg P))) : Option (Server P × List (P × Mail P)) :=
  r.map fun r => (r.1, r.2.map fun p => (p.1, .msg p.2))

/-- The handler of `NEW_PREV_SERVER`. -/
def newPrevServer (s : Server P) (server : P) : Server P × List (P × Mail P) :=
  ({ s with prev := some server }, [(s.master, .ackNewPrevServer s.bankId s.bankUpdateSeq.toNat)])

/-- The handler of `NEW_SUCC_SERVER`. -/
def newSuccServer (s : Server P) (server : P) (succSn : ℕ) : Server P × List (P × Mail P) :=
  ({ s with succ := some server }, (s.sent.filter fun req => (succSn : ℤ) < req.bankUpdateSeq).map
    fun req => (server, .msg (.request req)))

/-- The handlers of a server for what comes from `src`. No handler reads the table that `NEW_HEAD` changes,
and the messages of an extension do not occur. -/
def handle (s : Server P) (src : P) : Mail P → Option (Server P × List (P × Mail P))
  | .msg (.request req) => posted (s.processReq req src)
  | .msg (.ack bankUpdateSeq _) => posted (s.ack bankUpdateSeq)
  | .notice .toBeHead => some (s.toBeHead, [])
  | .notice .toBeTail => posted s.toBeTail
  | .notice (.newPrevServer server) => some (s.newPrevServer server)
  | .notice (.newSuccServer server succSn) => some (s.newSuccServer server succSn)
  | _ => some (s, [])

/-- The update that a server takes up with a message, with its number. -/
def takenUp (s : Server P) (src : P) : Mail P → Option (Request P)
  | .msg (.request req) =>
    if req.type = .query then none
    else if s.isHead then some { req with bankUpdateSeq := s.bankUpdateSeq + 1, client := some src }.body
    else if s.bankUpdateSeq = req.bankUpdateSeq - 1 then some req.body
    else none
  | _ => none

end Server

/-- The handlers of the master for what comes from `src`. -/
def Master.handle (m : Master P) (src : P) : Mail P → Option (Master P × List (P × Notice P))
  | .ackNewPrevServer bankId succSn => (m.ackNewPrevServer bankId src succSn).map fun out => (m, out)
  | _ => some (m, [])

/-- A bank and its servers, head first. -/
structure BankSetup (P : Type*) where
  bankId : String
  servers : List P
  servers_ne_nil : servers ≠ []

/-- What `main` starts. -/
structure Deployment (P : Type*) where
  master : P
  clients : List P
  banks : List (BankSetup P)
  bankIds_nodup : (banks.map (·.bankId)).Nodup
  processes_nodup : (master :: banks.flatMap (·.servers)).Nodup

/-- The processes with the channels between them. `log` is no part of the source: it collects the updates that
each server takes up, and no handler reads it. -/
structure Network (P : Type*) where
  masterProc : P
  master : Master P
  server : P → Server P
  crashed : P → Bool
  link : Links P (Mail P)
  log : P → List (Request P)

inductive NetworkLabel (P : Type*) where
  /-- A client's request reaches a server, which dies after `k` messages if `k` is given. -/
  | client (client server : P) (req : Request P) (k : Option ℕ)
  | deliver (src dst : P) (k : Option ℕ)
  | crash (process : P)
  /-- `check_alive` finds a crashed server. -/
  | detect (bankId : String) (node : P)
deriving DecidableEq

/-- The chain of a bank. -/
def BankSetup.chain (b : BankSetup P) : BankServerChain P where
  servers := b.servers
  head := b.servers.head b.servers_ne_nil
  tail := b.servers.getLast b.servers_ne_nil

namespace Deployment

def bankOf (d : Deployment P) (p : P) : Option (BankSetup P) := d.banks.find? fun b => p ∈ b.servers

/-- The server that `main` sets up. -/
def initServer (d : Deployment P) (p : P) : Server P :=
  match d.bankOf p with
  | some b =>
    let i := b.servers.idxOf p
    .setup (i + 1) b.bankId (if i = 0 then none else b.servers[i - 1]?) b.servers[i + 1]? d.master false
  | none => .setup 0 "" none none d.master true

/-- Clients are not among the processes that run here. -/
def init (d : Deployment P) : Network P where
  masterProc := d.master
  master := {
    bankChains := d.banks.foldl (fun m b => m.insert b.bankId b.chain) ∅
    clients := d.clients }
  server := d.initServer
  crashed p := p ≠ d.master ∧ (d.bankOf p).isNone
  link _ _ := []
  log _ := []

end Deployment

namespace Network

/-- The process ends. -/
def kill (σ : Network P) (p : P) : Network P := { σ with crashed := Function.update σ.crashed p true }

/-- The server `dst` handles what comes from `src`. An exception ends it. -/
def handle (σ : Network P) (src dst : P) (m : Mail P) (k : Option ℕ) : Network P :=
  match (σ.server dst).handle src m with
  | none => σ.kill dst
  | some (s, out) =>
    let τ := { σ with
      server := Function.update σ.server dst s
      log := Function.update σ.log dst (σ.log dst ++ ((σ.server dst).takenUp src m).toList) }
    match k with
    | none => { τ with link := τ.link.send dst out }
    | some n => { τ with link := τ.link.send dst (out.take n) }.kill dst

/-- A handler of the master. An exception ends it. -/
def handleMaster (σ : Network P) (r : Option (Master P × List (P × Notice P))) : Network P :=
  match r with
  | some (m, out) => { σ with
      master := m
      link := σ.link.send σ.masterProc (out.map fun p => (p.1, .notice p.2)) }
  | none => σ.kill σ.masterProc

def step (σ : Network P) : NetworkLabel P → Option (Network P)
  | .client client server req k =>
    -- the constructor of `Request` sets the number to -1
    if server ≠ σ.masterProc ∧ ¬ σ.crashed server ∧ req.bankUpdateSeq = -1 then
      some (σ.handle client server (.msg (.request req)) k)
    else none
  | .deliver src dst k =>
    match σ.link src dst with
    | [] => none
    | m :: _ =>
      if σ.crashed dst then none
      else
        let σ := { σ with link := σ.link.recv src dst }
        if dst = σ.masterProc then some (σ.handleMaster (σ.master.handle src m))
        else some (σ.handle src dst m k)
  | .crash p => some (σ.kill p)
  | .detect bankId node =>
    if ¬ σ.crashed σ.masterProc ∧ σ.crashed node ∧
        (σ.master.bankChains.lookup bankId).any (node ∈ ·.servers) then
      some (σ.handleMaster (σ.master.notifyCrash bankId node))
    else none

end Network

end ChainReplication.DistAlgo
