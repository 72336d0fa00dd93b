import ChainReplication.Library.Machine
import ChainReplication.Library.Fifo
import ChainReplication.Server.Extend
import ChainReplication.Master.Basic

/-!
# The whole system

Every server process of every bank, the master and the messages in flight between them. A step is
one handler run, one crash, one crash detection or one stage of an extension thread. Handlers are
atomic, except that a process may die after any number of the handler's sends.
-/

namespace ChainReplication

/-- One bank of the configuration file: the servers in chain order and the servers that may join. -/
structure BankConfig where
  bankId : String
  servers : List Address
  extendServers : List Address := []
deriving DecidableEq

/-- A configuration file whose addresses are distinct and whose chains are not empty. -/
structure Config where
  master : Address
  clients : List Address
  banks : List BankConfig
  bankIds_nodup : (banks.map (·.bankId)).Nodup
  addrs_nodup : (master :: banks.flatMap fun b => b.servers ++ b.extendServers).Nodup
  empty_notMem : Address.empty ∉ master :: banks.flatMap fun b => b.servers ++ b.extendServers
  servers_ne_nil : ∀ b ∈ banks, b.servers ≠ []

/-- What an observer records: messages taken up by a handler, packets sent, in order. -/
inductive Event where
  | handled (server : Address) (msg : Message)
  | sent (server : Address) (packet : Packet)
deriving DecidableEq

/-- The global state. `trace` is for the observer only. -/
structure System where
  server : Address → ChainServer
  crashed : Address → Bool
  link : Links Address Message
  master : Master
  thread : Address → List ExtendThread
  trace : List Event := []

/-- The steps. `k` is the number of packets after which the process dies inside the handler; a
handler with `k = none` runs to its end. -/
inductive Label where
  /-- A client's `REQUEST` reaches a server by UDP. -/
  | client (server : Address) (req : Request) (k : Option ℕ)
  /-- The oldest TCP message from `src` to `dst` is handled. -/
  | deliver (src dst : Address) (k : Option ℕ)
  /-- A server process dies. -/
  | crash (server : Address)
  /-- `check_alive` finds a server of a bank crashed. -/
  | detect (bankId : String) (node : Address)
  /-- A joining server's `start_delay` is over. -/
  | join (server : Address)
  /-- Extension thread number `i` of a server copies the maps, enumerated as given. -/
  | snapshot (server : Address) (i : ℕ) (accounts : List (String × ℚ)) (processed : List Request)
  /-- Extension thread number `i` of a server sends its next message. -/
  | extendSend (server : Address) (i : ℕ)
  /-- Extension thread number `i` of a server runs its last block. -/
  | extendFin (server : Address) (i : ℕ) (k : Option ℕ)
deriving DecidableEq

namespace Config

/-- The bank whose chain or joiners contain an address. -/
def bankOf (cfg : Config) (a : Address) : Option BankConfig :=
  cfg.banks.find? fun b => a ∈ b.servers ++ b.extendServers

/-- `bank_head_list_` as `read_config_server` builds it. -/
def bankHeadList (cfg : Config) : AList (fun _ : String => Address) :=
  cfg.banks.foldl (fun m b => m.insert b.bankId (b.servers.headD .empty)) ∅

/-- `read_config_server` for a configuration that lists each chain in order. The constructor leaves
`extending_chain_` unset; it is read as `false`. -/
def initServer (cfg : Config) (a : Address) : ChainServer :=
  match cfg.bankOf a with
  | none => {}
  | some b =>
    { bankId := b.bankId
      ishead := b.servers.head? = some a
      istail := b.servers.getLast? = some a
      localAddr := a
      preServerAddr := (BankServerChain.prevOf a b.servers).getD .empty
      succServerAddr := (BankServerChain.nextOf a b.servers).getD .empty
      bankHeadList := cfg.bankHeadList }

/-- `read_config_master`. -/
def initMaster (cfg : Config) : Master :=
  { addr := cfg.master
    bankServerChain := cfg.banks.foldl (fun m b => m.insert b.bankId
      { head := b.servers.headD .empty, tail := b.servers.getLastD .empty,
        serverChain := b.servers }) ∅
    clientList := cfg.clients }

/-- Every process of the configuration runs; no other address hosts one. -/
def init (cfg : Config) : System :=
  { server := cfg.initServer
    crashed := fun a => a ≠ cfg.master ∧ (cfg.bankOf a).isNone
    link := fun _ _ => []
    master := cfg.initMaster
    thread := fun _ => [] }

end Config

namespace System

/-- Hand packets of `src` to the network and record them. -/
def emit (σ : System) (src : Address) (out : List Packet) : System :=
  { σ with
    link := σ.link.send src (out.filterMap Packet.tcp?)
    trace := σ.trace ++ out.map (.sent src) }

/-- The process at `a` ends. -/
def kill (σ : System) (a : Address) : System :=
  { σ with crashed := Function.update σ.crashed a true }

/-- The server `s` takes up `msg`, whose handler has the effect `e`. -/
def handle (σ : System) (s : Address) (msg : Message) (e : Effect) (k : Option ℕ) : System :=
  let out := match k with
    | none => e.out
    | some n => e.out.take n
  let σ' : System := { σ with
    server := Function.update σ.server s e.server
    trace := σ.trace ++ [.handled s msg] }
  if k = none ∧ e.ok then σ'.emit s out else (σ'.emit s out).kill s

/-- A handler of the master. `none` is a failed assertion, which ends the master. -/
def handleMaster (σ : System) (r : Option (Master × List Packet)) : System :=
  match r with
  | some (m, out) => { σ with master := m }.emit m.addr out
  | none => σ.kill σ.master.addr

/-- Replace the threads of a server. -/
def setThreads (σ : System) (s : Address) (ts : List ExtendThread) : System :=
  { σ with thread := Function.update σ.thread s ts }

/-- `receive_extend_server` also starts a thread. -/
def spawn (σ : System) (s : Address) (msg : Message) : System :=
  match msg with
  | .extendServer _ => σ.setThreads s (σ.thread s ++ [.spawned])
  | _ => σ

/-- The last block of `send_req_to_extend_server` at `s`. A send to a crashed process fails, and the
thread gives up before the server stops acting as the tail. -/
def extendBlock (σ : System) (s : Address) : Effect :=
  let S := σ.server s
  if σ.crashed S.succServerAddr then { server := { S with finishSendingHist := true } }
  else { server := S.stopActingAsTail
         out := S.sentMsgs.map fun m => .tcp S.succServerAddr (.extendMsg m) }

/-- One step of the system. -/
def step (σ : System) : Label → Option System
  | .client s req k =>
    -- clients leave bank_update_seq unset and never send TRANSFER_TO
    if s ≠ σ.master.addr ∧ ¬ σ.crashed s ∧ req.bankUpdateSeq = 0 ∧ req.type ≠ .transferTo then
      some (σ.handle s (.request req) ((σ.server s).receiveRequest req) k)
    else none
  | .deliver src dst k =>
    match σ.link src dst with
    | [] => none
    | msg :: _ =>
      if σ.crashed dst then none
      else
        let σ := { σ with link := σ.link.recv src dst }
        if dst = σ.master.addr then some (σ.handleMaster (σ.master.handleMsg msg))
        else some ((σ.handle dst msg ((σ.server dst).handleMsg σ.master.addr msg) k).spawn dst msg)
  | .crash s => if s ≠ σ.master.addr then some (σ.kill s) else none
  | .detect bankId node =>
    if ¬ σ.crashed σ.master.addr ∧ σ.crashed node ∧
        (σ.master.bankServerChain.lookup bankId).any (node ∈ ·.serverChain) then
      some (σ.handleMaster (σ.master.notifyCrash bankId node))
    else none
  | .join s =>
    if s ≠ σ.master.addr ∧ ¬ σ.crashed s then
      some (σ.emit s [.tcp σ.master.addr (.join
        { bankId := (σ.server s).bankId, serverAddr := (σ.server s).localAddr })])
    else none
  | .snapshot s i accounts processed =>
    if ¬ σ.crashed s ∧ (σ.thread s)[i]? = some .spawned ∧
        accounts.isPerm (σ.server s).accounts ∧ processed.isPerm (σ.server s).processed then
      some (σ.setThreads s
        ((σ.thread s).set i (.sending ((σ.server s).snapshotMsgs accounts processed))))
    else none
  | .extendSend s i =>
    match σ.crashed s, (σ.thread s)[i]? with
    | false, some (.sending (m :: ms)) =>
      if σ.crashed (σ.server s).succServerAddr then some (σ.setThreads s ((σ.thread s).eraseIdx i))
      else some ((σ.emit s [.tcp (σ.server s).succServerAddr (.extendMsg m)]).setThreads s
        ((σ.thread s).set i (.sending ms)))
    | _, _ => none
  | .extendFin s i k =>
    match σ.crashed s, (σ.thread s)[i]? with
    | false, some (.sending []) =>
      let e := σ.extendBlock s
      let out := match k with
        | none => e.out
        | some n => e.out.take n
      let σ' : System := { σ with server := Function.update σ.server s e.server }
      let σ' := (σ'.emit s out).setThreads s ((σ.thread s).eraseIdx i)
      some (if k = none then σ' else σ'.kill s)
    | _, _ => none

end System

end ChainReplication
