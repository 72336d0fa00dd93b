import ChainReplication.Server.Counters
import ChainReplication.System.Topology

/-!
# The system with counters of 32 bits

`System.step` counts without a bound. `System.step32` counts as the source does, and is the same step as long
as no head numbers an update while its counter is at its last value.
-/

namespace ChainReplication

namespace System

/-- One step of the system whose servers have counters of 32 bits. -/
def step32 (σ : System) : Label → Option System
  | .client s req k =>
    if s ≠ σ.master.addr ∧ ¬ σ.crashed s ∧ req.bankUpdateSeq = 0 ∧ req.type ≠ .transferTo then
      some (σ.handle s (.request req) ((σ.server s).receiveRequest32 req) k)
    else none
  | .deliver src dst k =>
    match σ.link src dst with
    | [] => none
    | msg :: _ =>
      if σ.crashed dst then none
      else
        let σ := { σ with link := σ.link.recv src dst }
        if dst = σ.master.addr then some (σ.handleMaster (σ.master.handleMsg msg))
        else some ((σ.handle dst msg ((σ.server dst).handleMsg32 σ.master.addr msg) k).spawn dst msg)
  | l => σ.step l

/-- No head numbers an update while its counter is at its last value. -/
def CounterFits (σ : System) (l : Label) : Prop :=
  ∀ d ∈ σ.delivery l, ∀ req ∈ d.2.request?, req.type ≠ .query → (σ.server d.1).ishead = true →
    (σ.server d.1).bankUpdateSeq + 1 < 2 ^ 32

instance (σ : System) (l : Label) : Decidable (CounterFits σ l) :=
  inferInstanceAs (Decidable (∀ d ∈ σ.delivery l, ∀ req ∈ d.2.request?, _))

variable {cfg : Config} {σ σ' : System} {l : Label} {x : Address} {msg : Message}
  {L : Links Address Message} {out : List Packet} {ok : System → Label → Prop}

/-- Where no counter wraps, the width does not matter. -/
lemma step32_eq (h : σ.CounterFits l) : σ.step32 l = σ.step l := by
  cases l with
  | client s req k =>
    have hreq : (σ.server s).receiveRequest32 req = (σ.server s).receiveRequest req :=
      ChainServer.receiveRequest32_eq (h (s, .request req) rfl req rfl)
    rw [step32, step, hreq]
  | deliver src dst k =>
    cases hlink : σ.link src dst with
    | nil => simp only [step32, step, hlink]
    | cons msg rest =>
      have hdelivery : (dst, msg) ∈ σ.delivery (.deliver src dst k) := by simp [delivery, hlink]
      have hmsg := ChainServer.handleMsg32_eq σ.master.addr (h (dst, msg) hdelivery)
      simp only [step32, step, hlink, hmsg]
  | _ => rfl

/-- A run whose counters fit is a run of the system that counts without a bound. -/
lemma reach_of_fits (h : Machine.Reach step32 ok cfg.init σ) (hfits : ∀ σ l, ok σ l → σ.CounterFits l) :
    Machine.Reach step ok cfg.init σ :=
  h.congr fun σ l hl => step32_eq (hfits σ l hl)

/-- Every counter and every number on its way to a server has 32 bits. -/
structure Counted (σ : System) : Prop where
  server : ∀ x, (σ.server x).bankUpdateSeq < 2 ^ 32
  link : ∀ x y q, .request q ∈ σ.link x y → q.bankUpdateSeq < 2 ^ 32

namespace Counted

lemma init (cfg : Config) : Counted cfg.init := by
  constructor
  · intro x
    show (cfg.initServer x).bankUpdateSeq < 2 ^ 32
    exact Config.initServer_cases (P := fun s => s.bankUpdateSeq < 2 ^ 32) x
      (Nat.two_pow_pos 32) fun _ _ _ => Nat.two_pow_pos 32
  · intro x y q hq
    simp [Config.init] at hq

/-- The server counts on only by the number that it is sent, or as the head. -/
lemma serve_server (h : Counted σ) (ht : Topology cfg σ) (taken : Taken σ x msg L)
    (hs : Serve σ x msg L out σ') (hdelivery : σ.delivery l = some (x, msg)) (hfits : σ.CounterFits l) :
    (σ'.server x).bankUpdateSeq < 2 ^ 32 := by
  have hold := h.server x
  have hnext {req : Request} (hmsg : msg = .request req) (htype : req.type ≠ .query)
      (hseq : (σ.server x).ishead = true ∨ req.bankUpdateSeq = (σ.server x).bankUpdateSeq + 1) :
      (σ.server x).bankUpdateSeq + 1 < 2 ^ 32 := by
    rcases hseq with hhead | hseq
    · exact hfits (x, msg) hdelivery req (by rw [hmsg]; rfl) htype hhead
    · rw [← hseq]
      rcases taken.origin with ⟨src, hmem⟩ | ⟨q, hq, hzero, -⟩
      · exact h.link src x req (hmsg ▸ hmem)
      · rw [hmsg] at hq
        obtain rfl := Message.request.inj hq
        omega
  rw [hs.server_self]
  cases taken.logStep ht.toPlain with
  | relay type _ next _ seq => exact seq ▸ hnext rfl type next
  | answer type _ next _ seq => exact seq ▸ hnext rfl type next
  | keep _ seq | ack _ seq | toBeTail _ seq | reply _ seq | resend _ seq => rwa [seq]

lemma serve (h : Counted σ) (ht : Topology cfg σ) (taken : Taken σ x msg L)
    (hs : Serve σ x msg L out σ') (hdelivery : σ.delivery l = some (x, msg)) (hfits : σ.CounterFits l) :
    Counted σ' := by
  have hself := h.serve_server ht taken hs hdelivery hfits
  have hlog := (ht.serve taken hs).log x
  constructor
  · intro y
    by_cases hy : y = x
    · rwa [hy]
    · rw [hs.server_of_ne hy]
      exact h.server y
  · intro y z q hq
    rcases hs.mem_link_spec ht.toPlain taken hq with hq | ⟨rfl, ⟨-, t, -, rfl⟩ | ⟨-, hsent, -⟩⟩
    · exact h.link y z q hq
    · exact Nat.two_pow_pos 32
    · have hle := (hlog.getElem? (hlog.mem_hist hsent)).2.2
      rw [← hlog.counter] at hle
      omega

lemma step (h : Counted σ) (ht : Topology cfg σ) (hfits : σ.CounterFits l) (hcase : StepCase σ l σ') :
    Counted σ' := by
  cases hcase with
  | serve taken serve delivery => exact h.serve ht taken serve delivery hfits
  | crash => exact ⟨h.server, h.link⟩
  | relink =>
    refine ⟨h.server, fun y z q hq => ?_⟩
    rcases (Links.mem_send _ _ _).mp hq with hq | ⟨-, hq⟩
    · exact h.link y z q (Links.mem_of_mem_recv _ _ _ hq)
    · simp at hq
  | ignore => exact ⟨h.server, fun y z q hq => h.link y z q (Links.mem_of_mem_recv _ _ _ hq)⟩
  | detect _ _ _ _ case =>
    refine ⟨h.server, fun y z q hq => ?_⟩
    rcases (Links.mem_send _ _ _).mp hq with hq | ⟨-, hq⟩
    · exact h.link y z q hq
    · obtain ⟨p, hp, htcp⟩ := List.mem_filterMap.mp hq
      cases case.notice hp htcp

theorem reach (hok : ∀ σ l, ok σ l → NoJoin σ l) (hfits : ∀ σ l, ok σ l → σ.CounterFits l)
    (h : Machine.Reach System.step ok cfg.init σ) : Counted σ := by
  refine h.invariant_of (J := Topology cfg) (fun _ hu => Topology.reach hok hu) (init cfg) ?_
  intro σ l σ' h ht _ hl hs
  exact h.step ht (hfits σ l hl) (step_cases ht.toPlain (hok σ l hl) hs)

end Counted

end System

end ChainReplication
