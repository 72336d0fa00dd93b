import ChainReplication.System.Joins
import ChainReplication.System.Config

/-!
# The clients

`client.h` and `client.cc`: a client keeps the head and the tail of every bank, follows `NEW_HEAD` and
`NEW_TAIL`, and sends a request to the server that it takes for the right one. Everything between clients
and servers travels by UDP, so it may arrive late, more than once or never; a client's repetitions of a
request to the same address are further arrivals of it. The list of requests, timeouts and the dropping of
replies are left out.
-/

namespace ChainReplication

/-- `Client`. -/
structure Client where
  bankHeadList : AList (fun _ : String => Address)
  bankTailList : AList (fun _ : String => Address)

namespace Client

/-- `handle_new_head`. `none` stands for a failed assertion, here and below. -/
def handleNewHead (c : Client) (notify : Notify) : Option Client :=
  if notify.bankId ∈ c.bankHeadList then
    some { c with bankHeadList := c.bankHeadList.insert notify.bankId notify.serverAddr }
  else none

/-- `handle_new_tail`. -/
def handleNewTail (c : Client) (notify : Notify) : Option Client :=
  if notify.bankId ∈ c.bankTailList then
    some { c with bankTailList := c.bankTailList.insert notify.bankId notify.serverAddr }
  else none

/-- `handle_msg`. -/
def handleMsg (c : Client) : Message → Option Client
  | .newHead notify => c.handleNewHead notify
  | .newTail notify => c.handleNewTail notify
  -- no handler for the remaining types
  | _ => some c

/-- `get_bank_head`. -/
def getBankHead (c : Client) (bankId : String) : Option Address := c.bankHeadList.lookup bankId

/-- `get_bank_tail`. -/
def getBankTail (c : Client) (bankId : String) : Option Address := c.bankTailList.lookup bankId

/-- Where `run` sends a request. -/
def target (c : Client) (req : Request) : Option Address :=
  if req.type = .query then c.getBankTail req.bankId else c.getBankHead req.bankId

end Client

/-- A client as `read_config_client` builds it. -/
def Config.initClient (cfg : Config) : Client where
  bankHeadList := cfg.bankHeadList
  bankTailList := cfg.banks.foldl (fun m b => m.insert b.bankId (b.servers.getLastD .empty)) ∅

/-- The servers and the master, the clients, and the requests that the clients have sent. `refused` is for
the observer: the queries for which the assertion `istail_` has failed. -/
structure Service where
  system : System
  client : Address → Client
  sent : List (Address × Request) := []
  refused : List (Address × Request) := []

/-- The steps of servers, master and clients. -/
inductive ServiceLabel where
  /-- A step without a client. -/
  | system (l : Label)
  /-- A client handles a message that the master has sent to it. -/
  | notify (client : Address) (msg : Message)
  /-- A client sends a request, for the first time or once more. -/
  | ask (client : Address) (req : Request)
  /-- A request that a client has sent reaches its target. -/
  | arrive (server : Address) (req : Request) (k : Option ℕ)

/-- The query that a step hands to a server that is no tail. -/
def System.refusals (σ : System) (l : Label) : List (Address × Request) :=
  match σ.delivery l with
  | some (s, .request req) => if req.type = .query ∧ (σ.server s).istail = false then [(s, req)] else []
  | _ => []

namespace Service

/-- A step of the servers and the master. -/
def run (x : Service) (l : Label) : Option Service :=
  (x.system.step l).map fun σ =>
    { x with system := σ, refused := x.refused ++ x.system.refusals l }

/-- One step. -/
def step (x : Service) : ServiceLabel → Option Service
  | .system (.client ..) => none
  | .system l => x.run l
  | .notify c msg =>
    if .sent x.system.master.addr (.udp c msg) ∈ x.system.trace then
      ((x.client c).handleMsg msg).map fun C => { x with client := Function.update x.client c C }
    else none
  | .ask c req =>
    if c ∈ x.system.master.clientList then
      ((x.client c).target req).map fun t =>
        { x with sent := x.sent ++ [(t, { req with clientAddr := c })] }
    else none
  | .arrive s req k => if (s, req) ∈ x.sent then x.run (.client s req k) else none

end Service

/-- Only the configured servers join, and only one for each bank. -/
def Service.OneJoin (cfg : Config) (x : Service) : ServiceLabel → Prop
  | .system l => System.OneJoin cfg x.system l
  | _ => True

instance (cfg : Config) (x : Service) (l : ServiceLabel) : Decidable (Service.OneJoin cfg x l) :=
  match l with
  | .system l => inferInstanceAs (Decidable (System.OneJoin cfg x.system l))
  | .notify .. | .ask .. | .arrive .. => inferInstanceAs (Decidable True)

/-- Servers, master and clients at their start. -/
def Config.initService (cfg : Config) : Service where
  system := cfg.init
  client _ := cfg.initClient

/-- What an event tells about whether `s` acts as the tail: it has been made one, or it has handed the role
over with `FIN`. -/
def Event.tailRole (s : Address) : Event → Option Bool
  | .handled x .toBeTail | .handled x .extendFail | .handled x (.extendMsg .fin) =>
    if x = s then some true else none
  | .sent x (.tcp _ (.extendMsg .fin)) => if x = s then some false else none
  | _ => none

namespace System

/-- The last that has happened to the role of the tail at `s`; `none` if nothing has. -/
def lastRole (σ : System) (s : Address) : Option Bool := (σ.trace.filterMap (Event.tailRole s)).getLast?

/-- `s` has handed its role over and has not been given it back. -/
def HandedOver (σ : System) (s : Address) : Prop := σ.lastRole s = some false

/-- `s` has never acted as the tail, and `TO_BE_TAIL` is on its way to it. -/
def Awaits (cfg : Config) (σ : System) (s : Address) : Prop :=
  (cfg.initServer s).istail = false ∧ σ.lastRole s = none ∧ .toBeTail ∈ σ.link σ.master.addr s

instance (σ : System) (s : Address) : Decidable (σ.HandedOver s) :=
  inferInstanceAs (Decidable (σ.lastRole s = some false))

instance (cfg : Config) (σ : System) (s : Address) : Decidable (σ.Awaits cfg s) :=
  inferInstanceAs (Decidable (_ ∧ _ ∧ _))

end System

/-- A query reaches its target neither before its first `TO_BE_TAIL` nor after it has handed the role over. -/
def QueryTimely (cfg : Config) (x : Service) : ServiceLabel → Prop
  | .arrive s req _ => req.type = .query → ¬ x.system.Awaits cfg s ∧ ¬ x.system.HandedOver s
  | _ => True

instance (cfg : Config) (x : Service) (l : ServiceLabel) : Decidable (QueryTimely cfg x l) :=
  match l with
  | .arrive s req _ => inferInstanceAs (Decidable
      (req.type = .query → ¬ x.system.Awaits cfg s ∧ ¬ x.system.HandedOver s))
  | .system _ | .notify .. | .ask .. => inferInstanceAs (Decidable True)

end ChainReplication
