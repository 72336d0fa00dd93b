import ChainReplication.System.Replication

/-!
# Which transfers are forwarded

`handle_transfer` forwards a transfer only when it has debited it. `to_be_tail` forwards every
transfer in `sent_list_`, and a server that was not the tail keeps every update there. Runs in which
no server takes over while it holds a failed transfer forward debited transfers only.
-/

namespace ChainReplication

variable {cfg : Config} {σ σ' : System} {l : Label}

/-- A server that becomes the tail holds no transfer whose outcome is not `PROCESSED`. -/
def DebitedAtTakeover (σ : System) (l : Label) : Prop :=
  ∀ d ∈ σ.delivery l, d.2 = .toBeTail → ∀ t ∈ (σ.server d.1).sentList, t.type = .transfer →
    t.reply.outcome = .processed

instance (σ : System) (l : Label) : Decidable (DebitedAtTakeover σ l) :=
  inferInstanceAs (Decidable (∀ d ∈ σ.delivery l, _))

/-- The transfers that acting tails keep and the `TRANSFER_TO`s sent so far are debited. -/
structure ForwardsDebited (σ : System) : Prop where
  kept : ∀ x, (σ.server x).istail = true → ∀ t ∈ (σ.server x).sentList,
    t.type = .transfer ∧ t.reply.outcome = .processed
  sent : ∀ x a q, Event.sent x (.tcp a (.request q)) ∈ σ.trace → q.type = .transferTo →
    q.clientAddr = x → q.reply.outcome = .processed ∧
      ∃ t ∈ (σ.server x).hist, t.type = .transfer ∧ q = (σ.server x).transferToReq t

lemma ChainServer.transferToReq_congr {s s' : ChainServer} (h : s'.localAddr = s.localAddr)
    (t : Request) : s'.transferToReq t = s.transferToReq t := by
  simp only [transferToReq, h]

/-- A `TRANSFER_TO` that a server sends under its own address comes from its `sent_list_`. A server that passes
one on is no tail, and its client is one. -/
lemma Topology.sent_transferTo (htop : Topology cfg σ) {x master a : Address} {s : ChainServer} {msg : Message}
    {q : Request} (h : ChainServer.PacketSpec master s msg (σ.server x) a (.request q))
    (htype : q.type = .transferTo) (hclient : q.clientAddr = x)
    (hkept : (σ.server x).istail = true → ∀ t ∈ (σ.server x).sentList, t.type = .transfer) :
    (σ.server x).istail = true ∧ ∃ t ∈ (σ.server x).sentList, q = (σ.server x).transferToReq t := by
  rcases h with h | ⟨-, hsent, -⟩
  · exact h
  · have htail := htop.fromTail x q ((htop.log x).mem_hist hsent) htype
    rw [hclient] at htail
    have htransfer := hkept htail q hsent
    rw [htype] at htransfer
    cases htransfer

namespace ForwardsDebited

lemma init (cfg : Config) : ForwardsDebited cfg.init := by
  refine ⟨?_, ?_⟩
  · intro x
    exact Config.initServer_cases (P := fun s => s.istail = true → ∀ t ∈ s.sentList,
      t.type = .transfer ∧ t.reply.outcome = .processed) x (by simp) (by simp)
  · intro x a q hev
    simp [Config.init] at hev

section Serve

variable {x : Address} {msg : Message} {L : Links Address Message} {out : List Packet}
  (h : ForwardsDebited σ) (htop : Topology cfg σ) (ht : System.Taken σ x msg L)
  (hs : System.Serve σ x msg L out σ')
include h htop ht hs

lemma serve_kept (hguard : msg = .toBeTail → ∀ t ∈ (σ.server x).sentList, t.type = .transfer →
      t.reply.outcome = .processed) (htail : (σ'.server x).istail = true) {t : Request}
    (hmem : t ∈ (σ'.server x).sentList) : t.type = .transfer ∧ t.reply.outcome = .processed := by
  have hrole := hs.roleStep htop.toPlain ht
  have old (hne : msg ≠ .toBeTail) (hmem : t ∈ (σ.server x).sentList) :
      t.type = .transfer ∧ t.reply.outcome = .processed :=
    h.kept x ((hrole.tail.mp htail).resolve_right hne) t hmem
  rw [hs.server_self] at hmem
  cases ht.logStep htop.toPlain with
  | keep hist seq sent out ignored other =>
    rw [sent] at hmem
    exact old other.1 hmem
  | relay type tail =>
    rw [(hrole.tail.mp htail).resolve_right (by simp)] at tail
    simp at tail
  | answer type tail next hist seq sent =>
    rw [sent, List.mem_append] at hmem
    rcases hmem with hmem | hmem
    · exact old (by simp) hmem
    · obtain ⟨rfl, htype, -, hout⟩ := Request.mem_toForward.mp hmem
      exact ⟨htype, hout⟩
  | ack hist seq sent =>
    rw [sent] at hmem
    exact old (by simp) ((List.dropWhile_sublist _).subset hmem)
  | toBeTail hist seq sent =>
    rw [sent, List.mem_filter, decide_eq_true_eq] at hmem
    exact ⟨hmem.2, hguard rfl t hmem.1 hmem.2⟩
  | reply hist seq sent =>
    rw [sent] at hmem
    exact old (by simp) (List.mem_of_mem_filter hmem)
  | resend hist seq sent =>
    rw [sent] at hmem
    exact old (by simp) hmem

end Serve

lemma step (h : ForwardsDebited σ) (htop : Topology cfg σ) (hguard : DebitedAtTakeover σ l)
    (hcase : System.StepCase σ l σ') : ForwardsDebited σ' := by
  have htop' := htop.step hcase
  have ha := htop.appends hcase
  have hlocal := htop.localAddr_step hcase
  have hkept : ∀ x, (σ'.server x).istail = true → ∀ t ∈ (σ'.server x).sentList,
      t.type = .transfer ∧ t.reply.outcome = .processed := by
    cases hcase with
    | @serve _ x msg L out _ taken serve hdelivery =>
      intro y hy t hmem
      by_cases hyx : y = x
      · subst hyx
        refine serve_kept h htop taken serve ?_ hy hmem
        rintro rfl
        exact hguard _ hdelivery rfl
      · rw [serve.server_of_ne hyx] at hy hmem
        exact h.kept y hy t hmem
    | crash => exact h.kept
    | relink => exact h.kept
    | ignore => exact h.kept
    | detect => exact h.kept
  refine ⟨hkept, ?_⟩
  intro x a q hev htype hclient
  rcases hcase.sent_request hev with hev | ⟨msg, L, out, taken, serve, -, hp⟩
  · obtain ⟨hout, t, hmem, ht, rfl⟩ := h.sent x a q hev htype hclient
    exact ⟨hout, t, (ha.hist x).subset hmem, ht, (ChainServer.transferToReq_congr (hlocal x) t).symm⟩
  · have hspec := serve.packets htop.toPlain taken hp rfl
    obtain ⟨htail, t, hmem, rfl⟩ := htop'.sent_transferTo hspec htype hclient
      fun htail t hmem => (hkept x htail t hmem).1
    obtain ⟨ht, hout⟩ := hkept x htail t hmem
    exact ⟨hout, t, (htop'.log x).mem_hist hmem, ht, rfl⟩

theorem reach (hrun : Machine.Reach System.step
    (fun σ l => System.NoJoin σ l ∧ DebitedAtTakeover σ l) cfg.init σ) : ForwardsDebited σ :=
  hrun.invariant_of (fun _ hu => Topology.reach (fun _ _ h => h.1) hu) (ForwardsDebited.init cfg)
    fun _ _ _ h ht _ hl hs => h.step ht hl.2 (System.step_cases ht.toPlain hl.1 hs)

end ForwardsDebited

/-- In a run where no server takes over with a failed transfer in `sent_list_`, every `TRANSFER_TO`
that a tail of a source bank sends stems from a transfer that its sender has logged as `PROCESSED`. -/
theorem transferTo_processed (hrun : Machine.Reach System.step
    (fun σ l => System.NoJoin σ l ∧ DebitedAtTakeover σ l) cfg.init σ) :
    ∀ x a q, Event.sent x (.tcp a (.request q)) ∈ σ.trace → q.type = .transferTo →
      q.clientAddr = x →
      (∃ t ∈ (σ.server x).hist, t.type = .transfer ∧ q = (σ.server x).transferToReq t) ∧
        ∀ t ∈ (σ.server x).hist, q = (σ.server x).transferToReq t →
          t.reply.outcome = .processed := by
  intro x a q hev htype hclient
  obtain ⟨hout, t, hmem, ht, hq⟩ := (ForwardsDebited.reach hrun).sent x a q hev htype hclient
  refine ⟨⟨t, hmem, ht, hq⟩, ?_⟩
  rintro t' - rfl
  exact hout

open Config in
/-- The tail forwards a transfer and dies, and the next tail forwards it again. -/
theorem transferTo_processed_takeover :
    let σ := twoBanks.after (fun σ l => System.NoJoin σ l ∧ DebitedAtTakeover σ l)
      ([request 1 (sampleDeposit "1" 10), hop 1 2, hop 2 3, request 1 (sampleTransfer "2" 4),
        hop 1 2, hop 2 3, hop 3 2] ++ lose 3 ++ [hop 0 2])
    ∀ x a q, Event.sent x (.tcp a (.request q)) ∈ σ.trace → q.type = .transferTo →
      q.clientAddr = x →
      (∃ t ∈ (σ.server x).hist, t.type = .transfer ∧ q = (σ.server x).transferToReq t) ∧
        ∀ t ∈ (σ.server x).hist, q = (σ.server x).transferToReq t →
          t.reply.outcome = .processed :=
  transferTo_processed (reach_after (by decide +kernel))

open Config in
/-- A transfer from an empty account reaches the internal server, the tail dies, and the internal
server takes over and forwards the transfer. -/
theorem failed_transfer_forwarded :
    ¬ ∀ σ, Machine.Reach System.step System.NoJoin twoBanks.init σ →
      ∀ x a q, Event.sent x (.tcp a (.request q)) ∈ σ.trace → q.type = .transferTo →
        q.clientAddr = x → ∀ t ∈ (σ.server x).hist, q = (σ.server x).transferToReq t →
          t.reply.outcome = .processed := by
  intro h
  let σ := twoBanks.after System.NoJoin
    ([request 1 (sampleTransfer "1" 4), hop 1 2] ++ lose 3 ++ [hop 0 2])
  let t : Request := { sampleTransfer "1" 4 with
    bankUpdateSeq := 1
    reply := { reqId := "1", outcome := .insufficientFunds, accountId := "a" }
    checkResult := .newreq }
  have hout := h σ (reach_after (by decide +kernel)) (localAddress 2) (localAddress 11)
    ((σ.server (localAddress 2)).transferToReq t) (by decide +kernel) rfl (by decide +kernel) t
    (by decide +kernel) rfl
  simp [t] at hout

end ChainReplication
