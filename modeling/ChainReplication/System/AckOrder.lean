import ChainReplication.System.Replication

/-!
# The order of acknowledgements

Acknowledgements travel from the tail to the head: what a server has acknowledged, every live
server behind it has acknowledged too.
-/

namespace ChainReplication

structure AckOrder (cfg : Config) (σ : System) : Prop where
  base : ∀ b ∈ cfg.banks, ∀ x z, b.servers.Precedes x z → σ.crashed x = false →
    σ.crashed z = false → (σ.server x).istail = false → (σ.server z).istail = false →
    (σ.server x).base ≤ (σ.server z).base
  ack : ∀ u y a, .acknowledge a ∈ σ.link u y → ∀ b ∈ cfg.banks, ∀ z, b.servers.Precedes y z →
    σ.crashed z = false → (σ.server z).istail = false → a.bankUpdateSeq ≤ (σ.server z).base
  source : ∀ u y a, .acknowledge a ∈ σ.link u y → ∀ b ∈ cfg.banks, y ∈ b.servers → u ∈ b.servers

namespace AckOrder

variable {cfg : Config} {σ σ' : System} {l : Label}

lemma init (cfg : Config) : AckOrder cfg cfg.init := by
  have hhist (x : Address) : (cfg.init.server x).hist = [] :=
    Config.initServer_cases (P := fun s => s.hist = []) x rfl fun _ _ _ => rfl
  refine ⟨?_, ?_, ?_⟩
  · intro b _ x z _ _ _ _ _
    simp [ChainServer.base, hhist]
  · intro u y a ha
    simp [Config.init] at ha
  · intro u y a ha
    simp [Config.init] at ha

/-- Crashes and steps of the master. -/
lemma frame (h : AckOrder cfg σ) (server : σ'.server = σ.server)
    (crashed : ∀ x, σ'.crashed x = false → σ.crashed x = false)
    (links : ∀ u y a, .acknowledge a ∈ σ'.link u y → .acknowledge a ∈ σ.link u y) :
    AckOrder cfg σ' := by
  refine ⟨?_, ?_, ?_⟩
  · intro b hb x z hxz hx hz
    rw [server]
    exact h.base b hb x z hxz (crashed x hx) (crashed z hz)
  · intro u y a ha b hb z hyz hz
    rw [server]
    exact h.ack u y a (links u y a ha) b hb z hyz (crashed z hz)
  · exact fun u y a ha => h.source u y a (links u y a ha)

section Serve

variable {x y : Address} {msg : Message} {L : Links Address Message} {out : List Packet}
  {a : Acknowledge} {b : BankConfig}
  (h : AckOrder cfg σ) (htop : Topology cfg σ) (hr : Replicated cfg σ)
  (ht : System.Taken σ x msg L) (hs : System.Serve σ x msg L out σ')

include htop ht hs in
/-- The acknowledged part of a history only grows. -/
lemma serve_base_mono (htail : (σ'.server x).istail = false) :
    (σ.server x).base ≤ (σ'.server x).base := by
  have hold := (Replicated.serve_base htop ht hs htail).1
  rw [hs.server_self]
  cases ht.logStep htop.toPlain with
  | keep hist seq sent => rw [ChainServer.base, ChainServer.base, hist, sent]
  | resend hist seq sent => rw [ChainServer.base, ChainServer.base, hist, sent]
  | relay type tail next hist seq sent =>
    rw [ChainServer.base, ChainServer.base, hist, sent, List.length_append, List.length_append]
    simp
  | answer type tail =>
    rw [hold] at tail
    simp at tail
  | ack hist seq sent =>
    rw [(ht.logStep htop.toPlain).ack_base (htop.log x) hold]
    exact le_max_left _ _
  | toBeTail =>
    rw [(hs.roleStep htop.toPlain ht).tail.mpr (Or.inr rfl)] at htail
    simp at htail
  | reply =>
    rw [htop.taken_reply ht] at hold
    simp at hold

include htop ht hs in
lemma base_mono {z : Address} (htail : (σ'.server z).istail = false) :
    (σ.server z).istail = false ∧ (σ.server z).base ≤ (σ'.server z).base := by
  by_cases hzx : z = x
  · subst hzx
    exact ⟨(Replicated.serve_base htop ht hs htail).1, serve_base_mono htop ht hs htail⟩
  · rw [hs.server_of_ne hzx] at htail ⊢
    exact ⟨htail, le_rfl⟩

include htop ht hs in
/-- An acknowledgement goes to the predecessor. -/
lemma ack_packet (hb : b ∈ cfg.banks) (hy : y ∈ b.servers)
    (hm : ChainServer.PacketSpec σ.master.addr (σ.server x) msg (σ'.server x) y (.acknowledge a)) :
    x ∈ b.servers ∧ b.servers.Precedes y x ∧
      (∀ z, b.servers.Precedes y z → b.servers.Precedes z x → σ'.crashed z = true) ∧
      (msg = .acknowledge a ∨ (σ'.server x).istail = true ∧ (σ'.server x).sentList = []) := by
  have htop' := htop.serve ht hs
  obtain ⟨hpre, hm⟩ := hm
  have hlinked : Linked cfg σ' y x := by
    rcases htop'.pre x with hempty | hl
    · rw [← hpre] at hempty
      exact absurd hempty (Config.ne_empty hb hy)
    · rwa [← hpre] at hl
  obtain ⟨b', hb', hyx, hbetween⟩ := hlinked
  obtain rfl := Config.bank_unique_servers hb hb' hy hyx.left_mem
  refine ⟨hyx.right_mem, hyx, hbetween, hm.imp id ?_⟩
  rintro ⟨htail | ⟨rep, rfl⟩, hempty, -⟩
  · exact ⟨htail, hempty⟩
  · exact ⟨(hs.roleStep htop.toPlain ht).tail.mpr (Or.inl (htop.taken_reply ht)), hempty⟩

include htop ht hs hr in
/-- A server that passes an acknowledgement on has followed it. -/
lemma le_base_of_ack (hmsg : msg = .acknowledge a) (hb : b ∈ cfg.banks) (hx : x ∈ b.servers)
    (htail : (σ'.server x).istail = false) : a.bankUpdateSeq ≤ (σ'.server x).base := by
  subst hmsg
  have hold := (Replicated.serve_base htop ht hs htail).1
  have hle : a.bankUpdateSeq ≤ (σ.server x).hist.length := by
    rcases ht.origin with ⟨src, hm⟩ | ⟨_, hreq, -⟩
    · exact hr.sound src x _ hm b hb hx x hx hs.live
    · simp at hreq
  rw [hs.server_self, (ht.logStep htop.toPlain).ack_base (htop.log x) hold, min_eq_left hle]
  exact le_max_right _ _

include h htop hr ht hs

theorem serve : AckOrder cfg σ' := by
  refine ⟨?_, ?_, ?_⟩
  · intro b hb i z hiz hi hz hitail hztail
    obtain ⟨hiold, -⟩ := base_mono htop ht hs hitail
    obtain ⟨hzold, hzmono⟩ := base_mono htop ht hs hztail
    have hbase := h.base b hb i z hiz (hs.live_of_live hi) (hs.live_of_live hz) hiold hzold
    refine le_trans ?_ hzmono
    by_cases hix : i = x
    · subst hix
      rcases (Replicated.serve_base htop ht hs hitail).2 with hle | ⟨a, rfl, hle⟩
      · exact hle.trans hbase
      · refine hle.trans (max_le hbase ?_)
        rcases ht.origin with ⟨src, hm⟩ | ⟨_, hreq, -⟩
        · exact h.ack src i a hm b hb z hiz (hs.live_of_live hz) hzold
        · simp at hreq
    · rwa [hs.server_of_ne hix]
  · intro u y a hm b hb z hyz hz hztail
    obtain ⟨hzold, hzmono⟩ := base_mono htop ht hs hztail
    rcases hs.mem_link_spec htop.toPlain ht hm with hm | ⟨rfl, hm⟩
    · exact (h.ack u y a hm b hb z hyz (hs.live_of_live hz) hzold).trans hzmono
    · obtain ⟨hx, hyx, hbetween, hm⟩ := ack_packet htop ht hs hb hyz.left_mem hm
      by_cases hzu : z = u
      · subst hzu
        rcases hm with hmsg | ⟨htail, -⟩
        · exact le_base_of_ack htop hr ht hs hmsg hb hx hztail
        · rw [htail] at hztail
          simp at hztail
      · rcases List.precedes_total hyz.right_mem hx hzu with hzx | hxz
        · rw [hbetween z hyz hzx] at hz
          simp at hz
        · rcases hm with rfl | ⟨htail, -⟩
          · rcases ht.origin with ⟨src, hm⟩ | ⟨_, hreq, -⟩
            · exact (h.ack src u a hm b hb z hxz (hs.live_of_live hz) hzold).trans hzmono
            · simp at hreq
          · rw [(htop.serve ht hs).tail u htail b hb z hxz] at hz
            simp at hz
  · intro u y a hm b hb hy
    rcases hs.mem_link_spec htop.toPlain ht hm with hm | ⟨rfl, hm⟩
    · exact h.source u y a hm b hb hy
    · exact (ack_packet htop ht hs hb hy hm).1

end Serve

theorem step (h : AckOrder cfg σ) (htop : Topology cfg σ) (hr : Replicated cfg σ)
    (hcase : System.StepCase σ l σ') : AckOrder cfg σ' := by
  have ha := htop.appends hcase
  cases hcase with
  | serve taken serve => exact h.serve htop hr taken serve
  | crash => exact h.frame rfl (fun _ => ha.live) fun _ _ _ hm => hm
  | relink live head =>
    refine h.frame rfl (fun _ => ha.live) fun u y a hm => ?_
    simp only [System.emit, Links.mem_send] at hm
    rcases hm with hm | ⟨-, hm⟩
    · exact Links.mem_of_mem_recv _ _ _ hm
    · simp at hm
  | ignore live =>
    exact h.frame rfl (fun _ => ha.live) fun u y a hm => Links.mem_of_mem_recv _ _ _ hm
  | detect live dead lookup mem case =>
    refine h.frame rfl (fun _ => ha.live) fun u y a hm => ?_
    simp only [System.emit, Links.mem_send] at hm
    rcases hm with hm | ⟨-, hm⟩
    · exact hm
    · obtain ⟨p, hp, htcp⟩ := List.mem_filterMap.mp hm
      cases case.notice hp htcp

theorem reach {ok : System → Label → Prop} (hok : ∀ σ l, ok σ l → System.NoJoin σ l)
    (hrun : Machine.Reach System.step ok cfg.init σ) : AckOrder cfg σ :=
  hrun.invariant_of (J := fun σ => Topology cfg σ ∧ Replicated cfg σ)
    (fun _ hu => ⟨Topology.reach hok hu, Replicated.reach hok hu⟩) (AckOrder.init cfg)
    fun _ l _ h hJ _ hl hs => h.step hJ.1 hJ.2 (System.step_cases hJ.1.toPlain (hok _ l hl) hs)

end AckOrder

end ChainReplication
