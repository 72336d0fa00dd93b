import ChainReplication.Server.Credits
import ChainReplication.System.Pending

/-!
# Debited transfers

A server that has debited a transfer keeps it in `sent_list_` until its bank has handled the reply, unless an
acknowledgement takes it out before.
-/

namespace ChainReplication

variable {cfg : Config} {b : BankConfig} {σ σ' : System} {l : Label} {x : Address} {msg : Message}
  {L : Links Address Message} {out : List Packet}

/-- The server has taken up the transfer and debited it. -/
def ChainServer.Debited (s : ChainServer) (t : Request) : Prop :=
  t ∈ s.hist ∧ t.type = .transfer ∧ t.Applied

instance (s : ChainServer) (t : Request) : Decidable (s.Debited t) :=
  inferInstanceAs (Decidable (_ ∧ _ ∧ _))

/-- No acknowledgement covers a transfer that the server has debited before the bank has handled the reply. -/
def NoEarlyAck (b : BankConfig) (σ : System) (l : Label) : Prop :=
  ∀ e ∈ σ.delivery l, ∀ a ∈ e.2.ack?, e.1 ∈ b.servers → ∀ t ∈ (σ.server e.1).sentList,
    (σ.server e.1).Debited t → t.bankUpdateSeq ≤ a.bankUpdateSeq →
      Confirmed b σ t.reqId t.destAccountId

instance (b : BankConfig) (σ : System) (l : Label) : Decidable (NoEarlyAck b σ l) :=
  inferInstanceAs (Decidable (∀ e ∈ σ.delivery l, ∀ a ∈ e.2.ack?, _))

/-- Every transfer that a server of the bank has debited is in its `sent_list_` or confirmed. -/
def Outstanding (b : BankConfig) (σ : System) : Prop :=
  ∀ z ∈ b.servers, ∀ t, (σ.server z).Debited t →
    t ∈ (σ.server z).sentList ∨ Confirmed b σ t.reqId t.destAccountId

namespace Outstanding

lemma init (hb : b ∈ cfg.banks) : Outstanding b cfg.init := by
  rintro z hz t ⟨hmem, -⟩
  have hserver : cfg.init.server z = cfg.initServer z := rfl
  rw [hserver, Config.initServer_of_mem hb hz] at hmem
  cases hmem

/-- Steps of other processes. -/
lemma frame (h : Outstanding b σ) (server : ∀ z ∈ b.servers, σ'.server z = σ.server z)
    (trace : σ.trace ⊆ σ'.trace) : Outstanding b σ' := by
  intro z hz t hdebited
  rw [server z hz] at hdebited ⊢
  exact (h z hz t hdebited).imp_right fun hc => hc.mono trace

/-- A server of the bank serves a message. -/
lemma serve (h : Outstanding b σ) (ht : Topology cfg σ) (taken : System.Taken σ x msg L)
    (hs : System.Serve σ x msg L out σ') (hx : x ∈ b.servers) (trace : σ.trace ⊆ σ'.trace)
    (hguard : ∀ a, msg = .acknowledge a → ∀ t ∈ (σ.server x).sentList, (σ.server x).Debited t →
      t.bankUpdateSeq ≤ a.bankUpdateSeq → Confirmed b σ t.reqId t.destAccountId) :
    Outstanding b σ' := by
  intro z hz t hdebited
  by_cases hzx : z = x
  · subst hzx
    obtain ⟨hmem, htype, happlied⟩ := hdebited
    rw [hs.server_self] at hmem ⊢
    rcases ChainServer.debited_cases (ht.extendingChain z) (taken.plain ht.toPlain) hmem htype happlied
      with hsent | ⟨hold, hgone⟩
    · exact Or.inl hsent
    · right
      rcases h z hz t ⟨hold, htype, happlied⟩ with hsent | hc
      · rcases hgone hsent with ⟨rep, rfl, -, hid, hacc⟩ | ⟨a, hmsg, hle⟩
        · refine ⟨rep, System.mem_replied.mpr ⟨z, hz, ?_⟩, hid.symm, hacc.symm⟩
          rw [hs.trace]
          exact List.mem_append_right _ List.mem_cons_self
        · exact (hguard a hmsg t hsent ⟨hold, htype, happlied⟩ hle).mono trace
      · exact hc.mono trace
  · rw [hs.server_of_ne hzx] at hdebited ⊢
    exact (h z hz t hdebited).imp_right fun hc => hc.mono trace

theorem step (h : Outstanding b σ) (ht : Topology cfg σ) (hguard : NoEarlyAck b σ l)
    (hcase : System.StepCase σ l σ') : Outstanding b σ' := by
  have htrace := hcase.trace_subset
  cases hcase with
  | @serve _ x msg L out _ taken serve hdelivery =>
    by_cases hx : x ∈ b.servers
    · refine h.serve ht taken serve hx htrace ?_
      rintro a rfl
      exact hguard (x, .acknowledge a) hdelivery a rfl hx
    · exact h.frame (fun z hz => serve.server_of_ne (ne_of_mem_of_not_mem hz hx)) htrace
  | crash => exact h.frame (fun _ _ => rfl) htrace
  | relink => exact h.frame (fun _ _ => rfl) htrace
  | ignore => exact h.frame (fun _ _ => rfl) htrace
  | detect => exact h.frame (fun _ _ => rfl) htrace

theorem reach {ok : System → Label → Prop} (hok : ∀ σ l, ok σ l → System.NoJoin σ l)
    (hacks : ∀ σ l, ok σ l → NoEarlyAck b σ l) (hb : b ∈ cfg.banks)
    (hrun : Machine.Reach System.step ok cfg.init σ) : Outstanding b σ :=
  hrun.invariant_of (J := Topology cfg) (fun _ hu => Topology.reach hok hu) (init hb)
    fun _ _ _ h ht _ hl hs => h.step ht (hacks _ _ hl) (System.step_cases ht.toPlain (hok _ _ hl) hs)

end Outstanding

end ChainReplication
