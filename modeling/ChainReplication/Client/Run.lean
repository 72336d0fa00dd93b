import ChainReplication.System.Clients

/-!
# The loops of a client

`Client::run`: for every request a loop that sends it and, inside it, a loop that waits for the reply. The
results of `receive` are given as a list; when they have run out, the client waits. The pause before a
request is left out.
-/

namespace ChainReplication

/-- What `UDPReceiver::receive` brings: an error, which `run` takes for a timeout, or a datagram. -/
inductive Receipt where
  | timeout
  | message (msg : Message)
deriving DecidableEq

/-- `Client`, with the fields that only `run` uses. -/
structure RunningClient extends Client where
  addr : Address
  resendNum : ℕ
  resendNewhead : Bool
  dropInterval : ℕ
  recvCount : ℕ := 0

namespace RunningClient

/-- `drop_reply`. -/
def dropReply (c : RunningClient) : Bool :=
  if c.dropInterval = 0 then false else c.recvCount % c.dropInterval = 0

end RunningClient

/-- The local variables of `run` in the turn of a request. `targets` and `events` are for the observer:
where the request has been sent, and what `receive` has brought since the turn began. -/
structure Turn where
  client : RunningClient
  req : Request
  target : Address
  retry : ℕ := 0
  acceptFlag : Bool := false
  targets : List Address := []
  events : List Receipt := []

namespace Turn

/-- The turn of a request before the first sending; `none` stands for a failed assertion, here and below. -/
def start (c : RunningClient) (req : Request) : Option Turn :=
  let req := { req with clientAddr := c.addr }
  (c.target req).map fun target => { client := c, req := req, target := target }

/-- `send_msg_udp`. -/
def send (t : Turn) : Turn := { t with targets := t.targets ++ [t.target] }

/-- The branch for a timeout. -/
def onTimeout (t : Turn) : Option Turn :=
  let t := { t with events := t.events ++ [.timeout], retry := t.retry + 1 }
  -- reaches maximum resend times, abort
  if t.client.resendNum < t.retry then some t
  -- try new head / tail to resend
  else if t.client.resendNewhead then
    (t.client.target t.req).map fun target => { t with target := target }
  else some t

/-- The branch for a reply. -/
def onReply (t : Turn) (reply : Reply) : Turn :=
  let t := { t with client := { t.client with recvCount := t.client.recvCount + 1 } }
  if t.client.dropReply then t
  else if reply.reqId = t.req.reqId then { t with acceptFlag := true } else t

/-- The branches for a message. -/
def onMessage (t : Turn) (msg : Message) : Option Turn :=
  let t := { t with events := t.events ++ [Receipt.message msg] }
  match msg with
  | .reply reply => some (t.onReply reply)
  | msg => (t.client.handleMsg msg).map fun c => { t with client := { t.client with toClient := c } }

/-- The inner loop, from a call of `receive` on. It returns the results that are left, or `none` when it
waits. -/
def receiveLoop : List Receipt → Turn → Option (Turn × Option (List Receipt))
  | [], t => some (t, if t.acceptFlag then some [] else none)
  | e :: es, t =>
    if t.acceptFlag then some (t, some (e :: es))
    else match e with
      | .timeout => t.onTimeout.map fun t => (t, some es)
      | .message msg => (t.onMessage msg).bind (receiveLoop es)

variable {t t' : Turn} {es es' : List Receipt} {e : Receipt}

/-- A loop that has been left at once has the accepted reply already. -/
lemma receiveLoop_of_acceptFlag (h : t.acceptFlag = true) : receiveLoop es t = some (t, some es) := by
  cases es <;> simp [receiveLoop, h]

lemma length_receiveLoop_le (h : receiveLoop es t = some (t', some es')) : es'.length ≤ es.length := by
  induction es generalizing t with
  | nil =>
    simp only [receiveLoop, Option.some.injEq, Prod.mk.injEq] at h
    split_ifs at h <;> simp_all
  | cons e es ih =>
    simp only [receiveLoop] at h
    split_ifs at h with haccept
    · simp_all
    · cases e with
      | timeout =>
        obtain ⟨u, -, hu⟩ := Option.map_eq_some_iff.mp h
        simp_all
      | message msg =>
        obtain ⟨u, -, hu⟩ := Option.bind_eq_some_iff.mp h
        exact (ih hu).trans (by simp)

/-- An inner loop that is entered and left has read something. -/
lemma length_receiveLoop_lt (haccept : t.acceptFlag = false)
    (h : receiveLoop es t = some (t', some es')) : es'.length < es.length := by
  cases es with
  | nil => simp [receiveLoop, haccept] at h
  | cons e es =>
    simp only [receiveLoop, haccept, Bool.false_eq_true, if_false] at h
    cases e with
    | timeout =>
      obtain ⟨u, -, hu⟩ := Option.map_eq_some_iff.mp h
      simp_all
    | message msg =>
      obtain ⟨u, -, hu⟩ := Option.bind_eq_some_iff.mp h
      have hle := length_receiveLoop_le hu
      simp only [List.length_cons]
      omega

/-- The outer loop. -/
def retryLoop (t : Turn) (es : List Receipt) : Option (Turn × Option (List Receipt)) :=
  if hloop : t.retry ≤ t.client.resendNum ∧ t.acceptFlag = false then
    match hloop' : receiveLoop es t.send with
    | none => none
    | some (t', none) => some (t', none)
    | some (t', some es') =>
      have := length_receiveLoop_lt (t := t.send) hloop.2 hloop'
      retryLoop t' es'
  else some (t, some es)
termination_by es.length

end Turn

namespace RunningClient

/-- The loop over the requests, after the turns `done`, the latest first. -/
def runFrom (c : RunningClient) (done : List Turn) : List Request → List Receipt → Option (List Turn)
  | [], _ => some done
  | req :: reqs, es =>
    match (Turn.start c req).bind fun t => t.retryLoop es with
    | none => none
    | some (t, none) => some (t :: done)
    | some (t, some es) => t.client.runFrom (t :: done) reqs es

/-- `run`: the turns of the requests, in their order. -/
def run (c : RunningClient) (reqs : List Request) (es : List Receipt) : Option (List Turn) :=
  (c.runFrom [] reqs es).map List.reverse

end RunningClient

end ChainReplication
