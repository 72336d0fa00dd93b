import ChainReplication.System.Basic
import ChainReplication.Server.Steps
import ChainReplication.Master.Properties

/-!
# The steps of a system without joins

Without `JOIN` no chain is ever extended (`Plain`), and `StepCase` lists what a step can then do: a
server serves one message, a process dies, or the master relays a `REQ_SEQ` or announces a crash.
-/

namespace ChainReplication

/-- A server begins to join. -/
def Label.isJoin : Label → Bool
  | .join _ => true
  | _ => false

namespace System

/-- The guard of the runs without joins. -/
def NoJoin (_ : System) (l : Label) : Prop := l.isJoin = false

instance (σ : System) (l : Label) : Decidable (NoJoin σ l) := inferInstanceAs (Decidable (_ = _))

/-- No chain is being extended. -/
structure Plain (σ : System) : Prop where
  thread : ∀ x, σ.thread x = []
  link : ∀ x y, ∀ m ∈ σ.link x y, m.isExtend = false
  extendingChain : ∀ x, (σ.server x).extendingChain = false
  record : ∀ id bsc, σ.master.bankServerChain.lookup id = some bsc → bsc.Wf

/-- Where the message that a server takes up comes from. `L` is what stays in flight. -/
inductive Taken (σ : System) (x : Address) : Message → Links Address Message → Prop where
  | client {req} (seq : req.bankUpdateSeq = 0) (type : req.type ≠ .transferTo) :
      Taken σ x (.request req) σ.link
  | link {src msg rest} (head : σ.link src x = msg :: rest) : Taken σ x msg (σ.link.recv src x)

/-- The server that a step makes take up a message, and the message. -/
def delivery (σ : System) : Label → Option (Address × Message)
  | .client x req _ => some (x, .request req)
  | .deliver src x _ => (σ.link src x).head?.map (x, ·)
  | _ => none

/-- What stays in flight once a step has taken its message. -/
def left (σ : System) : Label → Links Address Message
  | .deliver src dst _ => σ.link.recv src dst
  | _ => σ.link

/-- The server `x` serves `msg` and sends `out`, all that its handler sends unless it dies. -/
structure Serve (σ : System) (x : Address) (msg : Message) (L : Links Address Message)
    (out : List Packet) (σ' : System) : Prop where
  live : σ.crashed x = false
  ne_master : x ≠ σ.master.addr
  server : σ'.server =
    Function.update σ.server x ((σ.server x).handleMsg σ.master.addr msg).server
  out_prefix : out <+: ((σ.server x).handleMsg σ.master.addr msg).out
  crashed : σ'.crashed = σ.crashed ∧ out = ((σ.server x).handleMsg σ.master.addr msg).out ∧
      ((σ.server x).handleMsg σ.master.addr msg).ok = true ∨
    σ'.crashed = Function.update σ.crashed x true
  link : σ'.link = L.send x (out.filterMap Packet.tcp?)
  master : σ'.master = σ.master
  thread : σ'.thread = σ.thread
  trace : σ'.trace = σ.trace ++ Event.handled x msg :: out.map (.sent x)

/-- The steps of a plain system. -/
inductive StepCase (σ : System) : Label → System → Prop where
  | serve {l x msg L out σ'} (taken : Taken σ x msg L) (serve : Serve σ x msg L out σ')
      (delivery : σ.delivery l = some (x, msg)) (left : L = σ.left l) : StepCase σ l σ'
  | crash {l x} (label : ∀ src dst k, l ≠ .deliver src dst k) : StepCase σ l (σ.kill x)
  /-- The master passes a `REQ_SEQ` on as `NEW_SUCC_SERVER`. -/
  | relink {src r rest k} (live : σ.crashed σ.master.addr = false)
      (head : σ.link src σ.master.addr = .reqSeq r :: rest) :
      StepCase σ (.deliver src σ.master.addr k)
        ({ σ with link := σ.link.recv src σ.master.addr }.emit σ.master.addr
          [.tcp r.preAddr (.newSuccServer r)])
  /-- The master has no use for a message. -/
  | ignore {src msg rest k} (live : σ.crashed σ.master.addr = false)
      (head : σ.link src σ.master.addr = msg :: rest) (other : ∀ r, msg ≠ .reqSeq r) :
      StepCase σ (.deliver src σ.master.addr k)
        { σ with link := σ.link.recv src σ.master.addr }
  | detect {id node bsc m out} (live : σ.crashed σ.master.addr = false)
      (dead : σ.crashed node = true) (lookup : σ.master.bankServerChain.lookup id = some bsc)
      (mem : node ∈ bsc.serverChain) (case : Master.CrashCase σ.master id node bsc m out) :
      StepCase σ (.detect id node) ({ σ with master := m }.emit σ.master.addr out)

variable {σ σ' : System} {l : Label} {x y z : Address} {msg m : Message}
  {L : Links Address Message} {out : List Packet}

/-! ### Messages in flight -/

lemma Taken.sub (h : Taken σ x msg L) (hm : m ∈ L y z) : m ∈ σ.link y z := by
  cases h with
  | client => exact hm
  | link => exact Links.mem_of_mem_recv _ _ _ hm

lemma Taken.origin (h : Taken σ x msg L) : (∃ src, msg ∈ σ.link src x) ∨
    ∃ req, msg = .request req ∧ req.bankUpdateSeq = 0 ∧ req.type ≠ .transferTo := by
  cases h with
  | client seq type => exact Or.inr ⟨_, rfl, seq, type⟩
  | link head => exact Or.inl ⟨_, by rw [head]; exact List.mem_cons_self⟩

lemma Taken.plain (h : Taken σ x msg L) (hp : Plain σ) : msg.isExtend = false := by
  rcases h.origin with ⟨src, hm⟩ | ⟨req, rfl, -⟩
  · exact hp.link _ _ _ hm
  · rfl

lemma Taken.logStep (ht : Taken σ x msg L) (hp : Plain σ) :
    ChainServer.LogStep (σ.server x) msg ((σ.server x).handleMsg σ.master.addr msg) :=
  ChainServer.handleMsg_logStep (hp.extendingChain x) (ht.plain hp)

namespace Serve

variable (h : Serve σ x msg L out σ')
include h

lemma server_self : σ'.server x = ((σ.server x).handleMsg σ.master.addr msg).server := by
  rw [h.server, Function.update_self]

lemma server_of_ne (hy : y ≠ x) : σ'.server y = σ.server y := by
  rw [h.server, Function.update_of_ne hy]

/-- Nobody comes back to life. -/
lemma live_of_live (hy : σ'.crashed y = false) : σ.crashed y = false := by
  rcases h.crashed with ⟨hc, -⟩ | hc
  · rwa [← hc]
  · rw [hc] at hy
    by_cases hyx : y = x
    · rw [hyx]
      exact h.live
    · rwa [Function.update_of_ne hyx] at hy

lemma crashed_mono (hy : σ.crashed y = true) : σ'.crashed y = true := by
  by_contra hne
  rw [h.live_of_live (by simpa using hne)] at hy
  exact Bool.false_ne_true hy

/-- A server that survives its handler has sent everything, and no assertion has failed. -/
lemma complete (hx : σ'.crashed x = false) :
    out = ((σ.server x).handleMsg σ.master.addr msg).out ∧
      ((σ.server x).handleMsg σ.master.addr msg).ok = true := by
  rcases h.crashed with ⟨-, hout⟩ | hc
  · exact hout
  · rw [hc, Function.update_self] at hx
    exact absurd hx (by simp)

lemma mem_link (ht : Taken σ x msg L) (hm : m ∈ σ'.link y z) :
    m ∈ σ.link y z ∨ y = x ∧ ∃ p ∈ out, p.tcp? = some (z, m) := by
  rw [h.link, Links.mem_send] at hm
  rcases hm with hm | ⟨rfl, hm⟩
  · exact Or.inl (ht.sub hm)
  · obtain ⟨p, hp, heq⟩ := List.mem_filterMap.mp hm
    exact Or.inr ⟨rfl, p, hp, heq⟩

/-- Every packet of a handler is one that `PacketSpec` allows. -/
lemma packets (hp : Plain σ) (ht : Taken σ x msg L) {p : Packet} (hmem : p ∈ out)
    (htcp : p.tcp? = some (z, m)) :
    ChainServer.PacketSpec σ.master.addr (σ.server x) msg (σ'.server x) z m := by
  rw [h.server_self]
  exact ChainServer.handleMsg_packets (hp.extendingChain x) (ht.plain hp)
    (h.out_prefix.subset hmem) htcp

/-- A message in flight after the step was in flight before, or the server has sent it. -/
lemma mem_link_spec (hp : Plain σ) (ht : Taken σ x msg L) (hm : m ∈ σ'.link y z) :
    m ∈ σ.link y z ∨
      y = x ∧ ChainServer.PacketSpec σ.master.addr (σ.server x) msg (σ'.server x) z m := by
  rcases h.mem_link ht hm with hm | ⟨rfl, p, hpo, heq⟩
  · exact Or.inl hm
  · exact Or.inr ⟨rfl, h.packets hp ht hpo heq⟩

lemma roleStep (hp : Plain σ) (ht : Taken σ x msg L) :
    ChainServer.RoleStep (σ.server x) msg (σ'.server x) := by
  rw [h.server_self]
  exact ChainServer.handleMsg_roleStep (hp.extendingChain x) (ht.plain hp)

end Serve

/-! ### Inversion -/

lemma handle_serve {e : Effect} {k : Option ℕ} {s : Address}
    (he : e = (σ.server s).handleMsg σ.master.addr msg) (hlive : σ.crashed s = false)
    (hne : s ≠ σ.master.addr) :
    ∃ out, Serve σ s msg L out ({ σ with link := L }.handle s msg e k) := by
  subst he
  unfold handle
  cases k with
  | none =>
    refine ⟨((σ.server s).handleMsg σ.master.addr msg).out, ?_⟩
    simp only [true_and]
    split_ifs with hok
    · exact ⟨hlive, hne, rfl, List.prefix_rfl, Or.inl ⟨rfl, rfl, hok⟩, rfl, rfl, rfl, by simp [emit]⟩
    · exact ⟨hlive, hne, rfl, List.prefix_rfl, Or.inr rfl, rfl, rfl, rfl, by simp [emit, kill]⟩
  | some n =>
    refine ⟨((σ.server s).handleMsg σ.master.addr msg).out.take n, ?_⟩
    simp only [reduceCtorEq, false_and, if_false]
    exact ⟨hlive, hne, rfl, List.take_prefix _ _, Or.inr rfl, rfl, rfl, rfl, by simp [emit, kill]⟩

lemma spawn_plain {s : Address} (h : msg.isExtend = false) : σ.spawn s msg = σ := by
  cases msg with
  | extendServer a => simp [Message.isExtend] at h
  | _ => rfl

/-- The master handles a message of a plain system. -/
lemma handleMaster_cases (hmsg : m.isExtend = false) {src : Address} {rest : List Message}
    (hlive : σ.crashed σ.master.addr = false) (head : σ.link src σ.master.addr = m :: rest)
    (k : Option ℕ) :
    StepCase σ (.deliver src σ.master.addr k)
      ({ σ with link := σ.link.recv src σ.master.addr }.handleMaster (σ.master.handleMsg m)) := by
  cases m with
  | reqSeq r => exact .relink hlive head
  | join _ | extendServer _ | extendMsg _ | extendFinish _ | extendFail =>
    simp [Message.isExtend] at hmsg
  | _ =>
    have h := @StepCase.ignore σ src _ rest k hlive head (by simp)
    simpa [handleMaster, Master.handleMsg, emit] using h

theorem step_cases (hp : Plain σ) (hl : NoJoin σ l) (hs : σ.step l = some σ') :
    StepCase σ l σ' := by
  cases l with
  | client s req k =>
    simp only [step] at hs
    split_ifs at hs with hguard
    obtain ⟨hne, hlive, hseq, htype⟩ := hguard
    obtain rfl := Option.some.inj hs
    obtain ⟨out, h⟩ := handle_serve (L := σ.link) (k := k) rfl
      (by simpa using hlive) hne
    exact .serve (.client hseq htype) h rfl rfl
  | deliver src dst k =>
    simp only [step] at hs
    cases hlink : σ.link src dst with
    | nil => simp [hlink] at hs
    | cons msg rest =>
      rw [hlink] at hs
      have hmsg : msg.isExtend = false := hp.link src dst msg (by rw [hlink]; exact List.mem_cons_self)
      simp only at hs
      split_ifs at hs with hcrashed hmaster
      · obtain rfl := Option.some.inj hs
        subst hmaster
        exact handleMaster_cases hmsg (by simpa using hcrashed) hlink k
      · rw [spawn_plain hmsg] at hs
        obtain rfl := Option.some.inj hs
        obtain ⟨out, h⟩ := handle_serve (L := σ.link.recv src dst) (k := k) rfl
          (by simpa using hcrashed) hmaster
        exact .serve (.link hlink) h (by rw [delivery, hlink]; rfl) rfl
  | crash s =>
    simp only [step] at hs
    split_ifs at hs
    obtain rfl := Option.some.inj hs
    exact .crash (by simp)
  | detect id node =>
    simp only [step] at hs
    split_ifs at hs with hguard
    obtain ⟨hlive, hdead, hmem⟩ := hguard
    obtain rfl := Option.some.inj hs
    cases hlookup : σ.master.bankServerChain.lookup id with
    | none => simp [hlookup] at hmem
    | some bsc =>
      have hmem : node ∈ bsc.serverChain := by simpa [hlookup] using hmem
      have hwf := hp.record id bsc hlookup
      cases hr : σ.master.notifyCrash id node with
      | none => exact .crash (by simp)
      | some r =>
        obtain ⟨m, out⟩ := r
        have hcase := Master.notifyCrash_cases hwf hlookup (ne_of_mem_of_not_mem hmem hwf.notEmpty) hr
        have haddr : m.addr = σ.master.addr := by
          cases hcase with
          | head _ _ _ _ set => rw [set]; rfl
          | tail _ _ _ _ set => rw [set]; rfl
          | internal => rfl
        have h := StepCase.detect (by simpa using hlive) hdead hlookup hmem hcase
        simpa only [handleMaster, haddr] using h
  | join s => simp [NoJoin, Label.isJoin] at hl
  | snapshot s i accounts processed => simp [step, hp.thread] at hs
  | extendSend s i => simp [step, hp.thread] at hs
  | extendFin s i k => simp [step, hp.thread] at hs

/-! ### The trace -/

/-- A packet of a server on the trace was there before, or the server has just sent it. -/
lemma StepCase.sent_packet (h : StepCase σ l σ') (hx : x ≠ σ.master.addr) {p : Packet}
    (hev : Event.sent x p ∈ σ'.trace) :
    Event.sent x p ∈ σ.trace ∨
      ∃ msg L out, Taken σ x msg L ∧ Serve σ x msg L out σ' ∧ p ∈ out := by
  -- the master is no server
  have master {out : List Packet} (h : Event.sent x p ∈ σ.trace ++ out.map (.sent σ.master.addr)) :
      Event.sent x p ∈ σ.trace := by
    refine (List.mem_append.mp h).resolve_right fun h => ?_
    obtain ⟨_, -, heq⟩ := List.mem_map.mp h
    exact hx (Event.sent.inj heq).1.symm
  cases h with
  | @serve _ y msg L out _ taken serve =>
    rw [serve.trace, List.mem_append, List.mem_cons] at hev
    rcases hev with hev | hev | hev
    · exact Or.inl hev
    · cases hev
    · obtain ⟨p', hp, heq⟩ := List.mem_map.mp hev
      obtain ⟨rfl, rfl⟩ := Event.sent.inj heq
      exact Or.inr ⟨msg, L, out, taken, serve, hp⟩
  | crash => exact Or.inl hev
  | relink => exact Or.inl (master hev)
  | ignore => exact Or.inl hev
  | detect => exact Or.inl (master hev)

/-- A request on the trace was there before, or its sender has just sent it. -/
lemma StepCase.sent_request (h : StepCase σ l σ') {a : Address} {q : Request}
    (hev : Event.sent x (.tcp a (.request q)) ∈ σ'.trace) :
    Event.sent x (.tcp a (.request q)) ∈ σ.trace ∨ ∃ msg L out, Taken σ x msg L ∧
      Serve σ x msg L out σ' ∧ σ.delivery l = some (x, msg) ∧ .tcp a (.request q) ∈ out := by
  cases h with
  | @serve _ y msg L out _ taken serve hdelivery =>
    rw [serve.trace, List.mem_append, List.mem_cons] at hev
    rcases hev with hev | hev | hev
    · exact Or.inl hev
    · simp at hev
    · obtain ⟨p, hp, heq⟩ := List.mem_map.mp hev
      obtain ⟨rfl, rfl⟩ := Event.sent.inj heq
      exact Or.inr ⟨msg, L, out, taken, serve, hdelivery, hp⟩
  | crash => exact Or.inl hev
  | relink live head =>
    rcases List.mem_append.mp hev with hev | hev
    · exact Or.inl hev
    · simp at hev
  | ignore live => exact Or.inl hev
  | detect live dead lookup mem case =>
    rcases List.mem_append.mp hev with hev | hev
    · exact Or.inl hev
    · obtain ⟨p, hp, heq⟩ := List.mem_map.mp hev
      obtain ⟨rfl, rfl⟩ := Event.sent.inj heq
      cases case.notice hp rfl

/-- A message is handled when its server serves it. -/
lemma StepCase.handled (h : StepCase σ l σ') (hev : Event.handled x msg ∈ σ'.trace) :
    Event.handled x msg ∈ σ.trace ∨ ∃ L out, Taken σ x msg L ∧ Serve σ x msg L out σ' := by
  have kept {out : List Packet} {a : Address} (h : Event.handled x msg ∉ out.map (.sent a)) :
      Event.handled x msg ∈ σ.trace ++ out.map (.sent a) → Event.handled x msg ∈ σ.trace := by
    intro hmem
    exact (List.mem_append.mp hmem).resolve_right h
  cases h with
  | @serve _ y msg' L out _ taken serve hdelivery =>
    rw [serve.trace, List.mem_append, List.mem_cons] at hev
    rcases hev with hev | hev | hev
    · exact Or.inl hev
    · obtain ⟨rfl, rfl⟩ := Event.handled.inj hev
      exact Or.inr ⟨L, out, taken, serve⟩
    · simp at hev
  | crash => exact Or.inl hev
  | relink live head => exact Or.inl (kept (by simp) hev)
  | ignore live => exact Or.inl hev
  | detect live dead lookup mem case => exact Or.inl (kept (by simp) hev)

/-- What has happened stays on the trace. -/
lemma StepCase.trace_subset (h : StepCase σ l σ') : σ.trace ⊆ σ'.trace := by
  cases h with
  | serve taken serve =>
    rw [serve.trace]
    exact List.subset_append_left _ _
  | crash => exact List.Subset.refl _
  | relink => exact List.subset_append_left _ _
  | ignore => exact List.Subset.refl _
  | detect => exact List.subset_append_left _ _

end System

end ChainReplication
