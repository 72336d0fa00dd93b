import ChainReplication.Server.Counters
import ChainReplication.System.Inputs

/-!
# A chain with counters of 32 bits

The servers of one chain run without failures, with counters of 32 bits. What comes from outside the chain,
from clients, other banks and the master, may come at any time.
-/

namespace ChainReplication

/-- The servers of a chain and the messages between them. `acked` is for the observer: the numbers of the
acknowledgements that a server has handled. -/
structure Chain where
  server : Address → ChainServer
  link : Links Address Message
  acked : Address → List ℕ

/-- A server takes up a message from outside the chain, or the oldest one that another server of the chain
has sent to it. -/
inductive ChainLabel where
  | outside (x : Address) (msg : Message)
  | deliver (x y : Address)

/-- The chain of a bank at its start. -/
def Config.initChain (cfg : Config) : Chain where
  server := cfg.initServer
  link _ _ := []
  acked _ := []

namespace Chain

/-- What a server of the chain may be sent from outside. Clients and the tails of other banks leave requests
without a number, and the reply to a `TRANSFER_TO` goes back to the tail that has forwarded the transfer. -/
def FromOutside (b : BankConfig) (x : Address) : Message → Prop
  | .request req => req.bankUpdateSeq = 0 ∧ (req.type = .transferTo → req.clientAddr ∉ b.servers)
  | .reply _ => b.servers.getLast? = some x
  | .newHead _ => True
  | _ => False

instance (b : BankConfig) (x : Address) (msg : Message) : Decidable (FromOutside b x msg) :=
  match msg with
  | .request req => inferInstanceAs
      (Decidable (req.bankUpdateSeq = 0 ∧ (req.type = .transferTo → req.clientAddr ∉ b.servers)))
  | .reply _ => inferInstanceAs (Decidable (b.servers.getLast? = some x))
  | .newHead _ => inferInstanceAs (Decidable True)
  | .acknowledge _ | .toBeHead | .toBeTail | .newSuccServer _ | .newPreServer _ | .newTail _ | .reqSeq _
  | .join _ | .extendServer _ | .extendMsg _ | .extendFinish _ | .extendFail =>
    inferInstanceAs (Decidable False)

/-- The server that a step concerns and the message that it takes up. -/
def taken (b : BankConfig) (γ : Chain) : ChainLabel → Option (Address × Message)
  | .outside x msg => if x ∈ b.servers ∧ FromOutside b x msg then some (x, msg) else none
  | .deliver x y =>
    if x ∈ b.servers ∧ y ∈ b.servers then (γ.link x y).head?.map fun msg => (y, msg) else none

/-- The message leaves the link that it has come on. -/
def receive (γ : Chain) : ChainLabel → Chain
  | .outside .. => γ
  | .deliver x y => { γ with link := γ.link.recv x y }

/-- The server `x` has taken up `msg`, with the effect `e`. -/
def handle (γ : Chain) (x : Address) (msg : Message) (e : Effect) : Chain :=
  { server := Function.update γ.server x e.server
    link := γ.link.send x (e.out.filterMap Packet.tcp?)
    acked := match msg with
      | .acknowledge ack => Function.update γ.acked x (γ.acked x ++ [ack.bankUpdateSeq])
      | _ => γ.acked }

/-- One step. A handler whose assertions fail would end its process, which is a failure. -/
def step (b : BankConfig) (master : Address) (γ : Chain) (l : ChainLabel) : Option Chain :=
  (γ.taken b l).bind fun p =>
    let e := (γ.server p.1).handleMsg32 master p.2
    if e.ok then some ((γ.receive l).handle p.1 p.2 e) else none

/-- A head with a successor does not number more updates than its counter can count. -/
def Fits (b : BankConfig) (γ : Chain) (l : ChainLabel) : Prop :=
  ∀ p ∈ γ.taken b l, ∀ req ∈ p.2.request?, req.type ≠ .query → (γ.server p.1).ishead = true →
    (γ.server p.1).istail = false → (γ.server p.1).bankUpdateSeq + 1 < 2 ^ 32

instance (b : BankConfig) (γ : Chain) (l : ChainLabel) : Decidable (γ.Fits b l) :=
  inferInstanceAs (Decidable (∀ p ∈ γ.taken b l, ∀ req ∈ p.2.request?, _))

/-- The updates on their way from one server to another, as their clients have sent them, numbered. -/
def inFlight (γ : Chain) (x y : Address) : List Request :=
  ((γ.link x y).filterMap Message.request?).map Request.body

/-- No update and no acknowledgement gets lost between neighbours. -/
structure NothingVanishes (b : BankConfig) (γ : Chain) : Prop where
  /-- What a server has applied and its successor has not is on its way. -/
  applied : ∀ x y, BankServerChain.nextOf x b.servers = some y →
    (γ.server x).bodies = (γ.server y).bodies ++ γ.inFlight x y
  /-- No update on its way is taken for a repetition. -/
  new : ∀ x y, BankServerChain.nextOf x b.servers = some y →
    ∀ q ∈ γ.inFlight x y, (γ.server y).bankUpdateSeq < q.bankUpdateSeq
  /-- What has left `sent_list_` has been applied by the successor. -/
  removed : ∀ x y, BankServerChain.nextOf x b.servers = some y →
    ∃ k ≤ (γ.server y).hist.length, (γ.server x).sentList = (γ.server x).hist.drop k
  /-- What has been acknowledged has left `sent_list_`. -/
  released : ∀ x y, BankServerChain.nextOf x b.servers = some y →
    ∀ n ∈ γ.acked x, ∀ q ∈ (γ.server x).sentList, n < q.bankUpdateSeq

end Chain

/-! ### Neighbours -/

namespace BankServerChain

variable {l : List Address} {x y z : Address}

lemma prevOf_of_nextOf (hl : l.Nodup) (h : nextOf x l = some y) : prevOf y l = some x := by
  obtain ⟨l₁, l₂, rfl⟩ := nextOf_eq_some h
  apply prevOf_of_split
  intro hy
  have hsplit : l₁ ++ x :: y :: l₂ = (l₁ ++ [x]) ++ y :: l₂ := by simp
  rw [hsplit] at hl
  exact (notMem_of_split hl).1 hy

lemma nextOf_of_prevOf (hl : l.Nodup) (h : prevOf y l = some x) : nextOf x l = some y := by
  obtain ⟨l₁, l₂, rfl⟩ := prevOf_eq_some h
  exact nextOf_of_split (notMem_of_split hl).1

lemma mem_of_nextOf (h : nextOf x l = some y) : x ∈ l ∧ y ∈ l := by
  obtain ⟨l₁, l₂, rfl⟩ := nextOf_eq_some h
  simp

lemma ne_of_nextOf (hl : l.Nodup) (h : nextOf x l = some y) : x ≠ y := by
  obtain ⟨l₁, l₂, rfl⟩ := nextOf_eq_some h
  rintro rfl
  exact (notMem_of_split hl).2 List.mem_cons_self

/-- Only the last server has no successor. -/
lemma getLast?_ne_of_nextOf (hl : l.Nodup) (h : nextOf x l = some y) : l.getLast? ≠ some x := by
  obtain ⟨l₁, l₂, rfl⟩ := nextOf_eq_some h
  intro hlast
  have hsplit : l₁ ++ x :: y :: l₂ = (l₁ ++ [x]) ++ y :: l₂ := by simp
  rw [hsplit, List.getLast?_append_of_ne_nil _ (by simp)] at hlast
  exact (notMem_of_split hl).2 (List.mem_of_getLast? hlast)

/-- Only the first server has no predecessor. -/
lemma head?_ne_of_nextOf (hl : l.Nodup) (h : nextOf x l = some y) : l.head? ≠ some y := by
  obtain ⟨l₁, l₂, rfl⟩ := nextOf_eq_some h
  intro hhead
  have hsplit : l₁ ++ x :: y :: l₂ = (l₁ ++ [x]) ++ y :: l₂ := by simp
  rw [hsplit, List.head?_append_of_ne_nil _ (by simp)] at hhead
  rw [hsplit] at hl
  exact (notMem_of_split hl).1 (List.mem_of_head? hhead)

/-- The head of a chain of two servers or more is not its tail. -/
lemma getLast?_ne_of_head? (hl : l.Nodup) (hlen : 2 ≤ l.length) (h : l.head? = some x) :
    l.getLast? ≠ some x := by
  obtain ⟨l', rfl⟩ := List.head?_eq_some_iff.mp h
  intro hlast
  have hne : l' ≠ [] := by
    rintro rfl
    simp at hlen
  rw [List.getLast?_cons, List.getLast?_eq_some_getLast hne, Option.getD_some] at hlast
  have hmem := List.getLast_mem hne
  rw [Option.some.inj hlast] at hmem
  exact (List.nodup_cons.mp hl).1 hmem

end BankServerChain

end ChainReplication
