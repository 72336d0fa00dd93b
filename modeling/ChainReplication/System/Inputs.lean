import ChainReplication.System.Replication

/-!
# The updates that enter a chain

An assumption about the updates that reach a chain from clients and other banks is one about all the
updates that its servers handle: servers pass on what they have handled, and without transfers they
send nothing else.
-/

namespace ChainReplication

variable {cfg : Config} {b : BankConfig} {P : Request → Prop} {I : ChainServer → Prop}
  {σ σ' : System} {l : Label} {x y : Address} {msg : Message} {q : Request}

/-- A message of a server of the bank is taken from a link. -/
def Label.isInternal (b : BankConfig) : Label → Bool
  | .deliver src _ _ => src ∈ b.servers
  | _ => false

/-- An update that reaches a server of the bank from a client or another bank satisfies `P`. -/
def UpdateInput (b : BankConfig) (P : Request → Prop) (σ : System) (l : Label) : Prop :=
  l.isInternal b = false → ∀ d ∈ σ.delivery l, d.1 ∈ b.servers → ∀ req ∈ d.2.request?,
    req.type ≠ .query → P req

instance (b : BankConfig) (P : Request → Prop) [DecidablePred P] (σ : System) (l : Label) :
    Decidable (UpdateInput b P σ l) :=
  inferInstanceAs (Decidable (_ → ∀ d ∈ σ.delivery l, _))

lemma System.mem_link_of_internal (hdelivery : σ.delivery l = some (x, msg))
    (h : l.isInternal b = true) : ∃ src ∈ b.servers, msg ∈ σ.link src x := by
  cases l with
  | deliver src dst k =>
    obtain ⟨m, hm, heq⟩ := Option.map_eq_some_iff.mp hdelivery
    obtain ⟨rfl, rfl⟩ := Prod.mk.inj heq
    exact ⟨src, by simpa [Label.isInternal] using h, List.mem_of_head? hm⟩
  | _ => simp [Label.isInternal] at h

/-- What holds of a server that handles only updates with `P`, and leaves no transfer to forward. -/
structure ServerInvariant (P : Request → Prop) (I : ChainServer → Prop) : Prop where
  init : ∀ s : ChainServer, s.accountMap = ∅ → s.processedMap = ∅ → s.sentList = [] → s.hist = [] →
    I s
  hist : ∀ s, I s → ∀ q ∈ s.hist, P q
  settled : ∀ s, I s → s.istail = true → s.sentList = []
  step : ∀ s msg e, I s → s.LogWf → ChainServer.LogStep s msg e →
    ChainServer.RoleStep s msg e.server →
    (∀ req, msg = .request req → req.type ≠ .query → P req) →
    (∀ rep, msg = .reply rep → s.istail = true) → I e.server

/-- The invariant of every server of the bank, and `P` of the updates between them. -/
structure BankInvariant (b : BankConfig) (P : Request → Prop) (I : ChainServer → Prop)
    (σ : System) : Prop where
  server : ∀ x ∈ b.servers, I (σ.server x)
  link : ∀ x ∈ b.servers, ∀ y ∈ b.servers, ∀ q, .request q ∈ σ.link x y → P q

namespace BankInvariant

lemma init (hI : ServerInvariant P I) (hb : b ∈ cfg.banks) : BankInvariant b P I cfg.init := by
  constructor
  · intro x hx
    have hserver : cfg.init.server x = cfg.initServer x := rfl
    rw [hserver, Config.initServer_of_mem hb hx]
    exact hI.init _ rfl rfl rfl rfl
  · intro x _ y _ q hq
    simp [Config.init] at hq

/-- Steps of the master and crashes. -/
lemma frame (h : BankInvariant b P I σ) (server : σ'.server = σ.server)
    (link : ∀ x ∈ b.servers, ∀ y q, .request q ∈ σ'.link x y → .request q ∈ σ.link x y) :
    BankInvariant b P I σ' := by
  refine ⟨by rw [server]; exact h.server, ?_⟩
  intro x hx y hy q hq
  exact h.link x hx y hy q (link x hx y q hq)

section Serve

variable {L : Links Address Message} {out : List Packet} (h : BankInvariant b P I σ)
  (hI : ServerInvariant P I) (htop : Topology cfg σ) (htop' : Topology cfg σ')
  (ht : System.Taken σ x msg L) (hs : System.Serve σ x msg L out σ')
include h hI htop ht hs

omit hI htop ht hs in
/-- An update that a server of the bank takes up satisfies `P`. -/
lemma taken_request (hdelivery : σ.delivery l = some (x, .request q))
    (hinput : UpdateInput b P σ l) (hx : x ∈ b.servers) (htype : q.type ≠ .query) : P q := by
  by_cases hinternal : l.isInternal b = true
  · obtain ⟨src, hsrc, hmem⟩ := System.mem_link_of_internal hdelivery hinternal
    exact h.link src hsrc x hx q hmem
  · exact hinput (by simpa using hinternal) _ hdelivery hx q rfl htype

lemma serve_server (hdelivery : σ.delivery l = some (x, msg)) (hinput : UpdateInput b P σ l)
    (hx : x ∈ b.servers) : I (σ'.server x) := by
  rw [hs.server_self]
  apply hI.step _ msg _ (h.server x hx) (htop.log x) (ht.logStep htop.toPlain)
  · rw [← hs.server_self]
    exact hs.roleStep htop.toPlain ht
  · rintro req rfl htype
    exact h.taken_request hdelivery hinput hx htype
  · rintro rep rfl
    exact htop.taken_reply ht

include htop' in
lemma serve_link (hserver : x ∈ b.servers → I (σ'.server x)) {u : Address}
    (hu : u ∈ b.servers) (hy : y ∈ b.servers) (hq : .request q ∈ σ'.link u y) : P q := by
  rcases hs.mem_link_spec htop.toPlain ht hq with hq | ⟨rfl, hspec⟩
  · exact h.link u hu y hy q hq
  · rcases hspec with ⟨htail, t, hmem, -⟩ | ⟨-, hmem, -⟩
    · rw [hI.settled _ (hserver hu) htail] at hmem
      cases hmem
    · exact hI.hist _ (hserver hu) q ((htop'.log u).mem_hist hmem)

end Serve

lemma step (h : BankInvariant b P I σ) (hI : ServerInvariant P I) (hb : b ∈ cfg.banks)
    (htop : Topology cfg σ) (htop' : Topology cfg σ') (hinput : UpdateInput b P σ l)
    (hcase : System.StepCase σ l σ') : BankInvariant b P I σ' := by
  have hmaster {z : Address} (hz : z ∈ b.servers) : z ≠ σ.master.addr := by
    rw [htop.master]
    exact Config.ne_master hb hz
  cases hcase with
  | @serve _ x msg L out _ taken serve hdelivery =>
    have hself := h.serve_server hI htop taken serve hdelivery hinput
    refine ⟨?_, ?_⟩
    · intro z hz
      by_cases hzx : z = x
      · subst hzx
        exact hself hz
      · rw [serve.server_of_ne hzx]
        exact h.server z hz
    · intro u hu y hy q hq
      exact h.serve_link hI htop htop' taken serve hself hu hy hq
  | crash => exact h.frame rfl fun _ _ _ _ hm => hm
  | relink live head =>
    refine h.frame rfl fun u hu y q hm => ?_
    simp only [System.emit, Links.mem_send] at hm
    rcases hm with hm | ⟨rfl, -⟩
    · exact Links.mem_of_mem_recv _ _ _ hm
    · exact absurd rfl (hmaster hu)
  | ignore live => exact h.frame rfl fun _ _ _ _ hm => Links.mem_of_mem_recv _ _ _ hm
  | detect live dead lookup mem case =>
    refine h.frame rfl fun u hu y q hm => ?_
    simp only [System.emit, Links.mem_send] at hm
    rcases hm with hm | ⟨rfl, -⟩
    · exact hm
    · exact absurd rfl (hmaster hu)

theorem reach (hI : ServerInvariant P I) (hb : b ∈ cfg.banks) (hrun : Machine.Reach System.step
    (fun σ l => System.NoJoin σ l ∧ UpdateInput b P σ l) cfg.init σ) : BankInvariant b P I σ :=
  hrun.invariant_of (fun _ hu => Topology.reach (fun _ _ h => h.1) hu) (BankInvariant.init hI hb)
    fun _ _ _ h htop htop' hl hs => h.step hI hb htop htop' hl.2
      (System.step_cases htop.toPlain hl.1 hs)

end BankInvariant

end ChainReplication
