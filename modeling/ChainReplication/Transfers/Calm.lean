import ChainReplication.Transfers.Workload
import ChainReplication.System.Replication

/-!
# Systems without failures

While every server runs, only updates, acknowledgements and replies are on their way, the last servers of
the chains are the tails, and each of them keeps in `sent_list_` the transfers that it has debited.
-/

namespace ChainReplication

/-- The messages of a system without failures. -/
def Message.isTraffic : Message → Bool
  | .request _ | .acknowledge _ | .reply _ => true
  | _ => false

/-- No server of a chain has crashed. -/
def System.Calm (cfg : Config) (σ : System) : Prop :=
  ∀ b ∈ cfg.banks, ∀ x ∈ b.servers, σ.crashed x = false

instance (cfg : Config) (σ : System) : Decidable (σ.Calm cfg) :=
  inferInstanceAs (Decidable (∀ b ∈ cfg.banks, ∀ x ∈ b.servers, σ.crashed x = false))

/-- What holds as long as nobody crashes. -/
structure Steady (cfg : Config) (σ : System) : Prop where
  traffic : ∀ u y, ∀ m ∈ σ.link u y, m.isTraffic = true
  acks : ∀ u y a, .acknowledge a ∈ σ.link u y → (σ.server y).istail = false
  tail : ∀ x, (σ.server x).istail = true ↔ ∃ b ∈ cfg.banks, b.servers.getLast? = some x
  sent : ∀ x, (σ.server x).istail = true → ∀ u ∈ (σ.server x).sentList,
    u.type = .transfer ∧ u.Applied ∧ u.key ∈ (σ.server x).processedMap

/-- A step of a system in which nobody crashes. -/
inductive CalmCase (σ : System) : Label → System → Prop where
  | serve {l x msg L out σ'} (taken : System.Taken σ x msg L) (serve : System.Serve σ x msg L out σ')
      (delivery : σ.delivery l = some (x, msg)) (traffic : msg.isTraffic = true) : CalmCase σ l σ'
  | idle {l σ'} (server : σ'.server = σ.server) (link : ∀ u y, ∀ m ∈ σ'.link u y, m ∈ σ.link u y)
      (trace : σ'.trace = σ.trace) : CalmCase σ l σ'

variable {cfg : Config} {b : BankConfig} {σ σ' : System} {l : Label} {x y z : Address}
  {msg m : Message} {L : Links Address Message} {out : List Packet}

namespace Steady

lemma init (cfg : Config) : Steady cfg cfg.init where
  traffic u y m hm := by simp [Config.init] at hm
  acks u y a ha := by simp [Config.init] at ha
  tail x := by
    have hserver : cfg.init.server x = cfg.initServer x := rfl
    rw [hserver]
    constructor
    · apply Config.initServer_cases (P := fun s => s.istail = true →
        ∃ b ∈ cfg.banks, b.servers.getLast? = some x) x (by simp)
      intro b hb hx htail
      exact ⟨b, hb, by simpa using htail⟩
    · rintro ⟨b, hb, hlast⟩
      rw [Config.initServer_of_mem hb (List.mem_of_getLast? hlast)]
      simpa using hlast
  sent x := Config.initServer_cases (P := fun s => s.istail = true → ∀ u ∈ s.sentList,
    u.type = .transfer ∧ u.Applied ∧ u.key ∈ s.processedMap) x (by simp) (by simp)

/-- The steps between two states in which nobody has crashed. -/
lemma cases (h : Steady cfg σ) (ht : Topology cfg σ) (hcalm : σ'.Calm cfg)
    (hcase : System.StepCase σ l σ') : CalmCase σ l σ' := by
  cases hcase with
  | @serve _ x msg L out _ taken serve delivery =>
    refine .serve taken serve delivery ?_
    rcases taken.origin with ⟨src, hm⟩ | ⟨req, rfl, -⟩
    · exact h.traffic src x msg hm
    · rfl
  | crash => exact .idle rfl (fun _ _ _ hm => hm) rfl
  | @relink src r rest k live head =>
    have htraffic := h.traffic src _ (.reqSeq r) (by rw [head]; exact List.mem_cons_self)
    cases htraffic
  | ignore => exact .idle rfl (fun _ _ _ hm => Links.mem_of_mem_recv _ _ _ hm) rfl
  | @detect id node bsc m out live dead lookup mem case =>
    obtain ⟨b, hb, -, hok⟩ := ht.record_ok lookup
    have hlive : σ.crashed node = false := hcalm b hb node (hok.sub.subset mem)
    rw [dead] at hlive
    cases hlive

section Serve

variable (h : Steady cfg σ) (ht : Topology cfg σ) (taken : System.Taken σ x msg L)
  (hs : System.Serve σ x msg L out σ') (traffic : msg.isTraffic = true)
include h ht taken hs traffic

omit h in
lemma serve_istail (y : Address) : (σ'.server y).istail = (σ.server y).istail := by
  by_cases hyx : y = x
  · subst hyx
    have hrole := (hs.roleStep ht.toPlain taken).tail
    have hne : msg ≠ .toBeTail := by
      rintro rfl
      cases traffic
    rw [or_iff_left hne] at hrole
    exact Bool.eq_iff_iff.mpr hrole
  · rw [hs.server_of_ne hyx]

/-- A tail keeps what it has debited until a reply comes. -/
lemma serve_sent (htail : (σ.server x).istail = true) {u : Request}
    (hu : u ∈ (σ'.server x).sentList) :
    u.type = .transfer ∧ u.Applied ∧ u.key ∈ (σ'.server x).processedMap := by
  have hlog := taken.logStep ht.toPlain
  rw [hs.server_self] at hu ⊢
  cases hlog with
  | keep _ _ sent _ _ _ _ processed =>
    rw [sent] at hu
    rw [processed]
    exact h.sent x htail u hu
  | relay _ tail =>
    rw [htail] at tail
    cases tail
  | answer _ _ _ _ _ sent _ _ processed =>
    rw [sent, List.mem_append] at hu
    rw [processed, ChainServer.mem_remember]
    rcases hu with hu | hu
    · obtain ⟨htype, happlied, hkey⟩ := h.sent x htail u hu
      exact ⟨htype, happlied, Or.inl hkey⟩
    · obtain ⟨rfl, htype, happlied⟩ := Request.mem_toForward.mp hu
      exact ⟨htype, happlied, Or.inr ⟨happlied.1, rfl⟩⟩
  | ack =>
    rcases taken.origin with ⟨src, hm⟩ | ⟨req, heq, -⟩
    · rw [h.acks src x _ hm] at htail
      cases htail
    · cases heq
  | toBeTail => cases traffic
  | reply _ _ sent _ _ processed =>
    rw [sent] at hu
    rw [processed]
    exact h.sent x htail u (List.mem_of_mem_filter hu)
  | resend => cases traffic

theorem serve (ht' : Topology cfg σ') : Steady cfg σ' := by
  have htail := serve_istail ht taken hs traffic
  refine ⟨?_, ?_, ?_, ?_⟩
  · intro u y m hm
    rcases hs.mem_link_spec ht.toPlain taken hm with hm | ⟨-, hspec⟩
    · exact h.traffic u y m hm
    · cases m with
      | request q => rfl
      | acknowledge a => rfl
      | reply rep => rfl
      | reqSeq r =>
        rw [hspec.2.1] at traffic
        cases traffic
      | _ => exact hspec.elim
  · intro u y a ha
    rw [htail]
    rcases hs.mem_link_spec ht.toPlain taken ha with ha | ⟨rfl, rfl, -⟩
    · exact h.acks u y a ha
    · by_contra hlast
      rw [Bool.not_eq_false] at hlast
      obtain ⟨b, hb, hlast⟩ := (h.tail _).mp hlast
      rcases ht'.pre u with hempty | ⟨b', hb', hprec, -⟩
      · rw [hempty] at hlast
        exact Config.ne_empty hb (List.mem_of_getLast? hlast) rfl
      · obtain rfl := Config.bank_unique_servers hb hb' (List.mem_of_getLast? hlast) hprec.left_mem
        exact List.not_precedes_getLast (Config.servers_nodup hb) hlast hprec
  · intro y
    rw [htail]
    exact h.tail y
  · intro y hy u hu
    rw [htail] at hy
    by_cases hyx : y = x
    · subst hyx
      exact h.serve_sent ht taken hs traffic hy hu
    · rw [hs.server_of_ne hyx] at hu ⊢
      exact h.sent y hy u hu

end Serve

lemma idle (h : Steady cfg σ) (server : σ'.server = σ.server)
    (link : ∀ u y, ∀ m ∈ σ'.link u y, m ∈ σ.link u y) : Steady cfg σ' := by
  refine ⟨fun u y m hm => h.traffic u y m (link u y m hm), ?_, by rw [server]; exact h.tail,
    by rw [server]; exact h.sent⟩
  rw [server]
  exact fun u y a ha => h.acks u y a (link u y _ ha)

lemma step (h : Steady cfg σ) (ht : Topology cfg σ) (ht' : Topology cfg σ')
    (hcase : CalmCase σ l σ') : Steady cfg σ' := by
  cases hcase with
  | serve taken serve _ traffic => exact h.serve ht taken serve traffic ht'
  | idle server link => exact h.idle server link

/-- What holds initially and is kept while nobody crashes holds as long as nobody has crashed. -/
theorem invariant {ok : System → Label → Prop} (hok : ∀ σ l, ok σ l → System.NoJoin σ l)
    (hrun : Machine.Reach System.step ok cfg.init σ) (hcalm : σ.Calm cfg) {I J : System → Prop}
    (known : ∀ τ, Machine.Reach System.step ok cfg.init τ → J τ) (init : I cfg.init)
    (keep : ∀ σ l σ', Topology cfg σ → Topology cfg σ' → J σ → J σ' → Steady cfg σ → Steady cfg σ' →
      I σ → ok σ l → CalmCase σ l σ' → I σ') : Steady cfg σ ∧ I σ := by
  refine hrun.invariant_of (I := fun τ => τ.Calm cfg → Steady cfg τ ∧ I τ)
    (J := fun τ => Topology cfg τ ∧ J τ) (fun τ hτ => ⟨Topology.reach hok hτ, known τ hτ⟩)
    (fun _ => ⟨Steady.init cfg, init⟩) ?_ hcalm
  rintro τ l τ' h ⟨ht, hJ⟩ ⟨ht', hJ'⟩ hl hs hcalm
  have hcase := System.step_cases ht.toPlain (hok τ l hl) hs
  obtain ⟨hsteady, hI⟩ := h fun b hb x hx => (ht.appends hcase).live (hcalm b hb x hx)
  have hcase' := hsteady.cases ht hcalm hcase
  have hsteady' := hsteady.step ht ht' hcase'
  exact ⟨hsteady', keep τ l τ' ht ht' hJ hJ' hsteady hsteady' hI hl hcase'⟩

end Steady

end ChainReplication
