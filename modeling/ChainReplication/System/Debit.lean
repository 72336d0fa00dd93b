import ChainReplication.System.Replication
import ChainReplication.Server.Dedup

/-!
# Transfers are debited once

Before the tail debits a transfer it saves it in `processed_map_`, so the downstream reply may take
it out of `sent_list_`. A server that becomes the tail later has the transfers it relayed in
`sent_list_` only, and `receive_transfer_reply` does not save them. Runs in which every reply finds
its transfer saved carry out each transfer once.
-/

namespace ChainReplication

variable {cfg : Config} {σ σ' : System} {l : Label}

/-- The reply that a message carries. -/
def Message.reply? : Message → Option Reply
  | .reply rep => some rep
  | _ => none

/-- Every transfer that a `REPLY` takes out of `sent_list_` is in `processed_map_` too. -/
def SavedBeforeReply (σ : System) (l : Label) : Prop :=
  ∀ d ∈ σ.delivery l, ∀ rep ∈ d.2.reply?, ∀ t ∈ (σ.server d.1).sentList, t.reqId = rep.reqId →
    t.destAccountId = rep.accountId → t.key ∈ (σ.server d.1).processedMap

instance (σ : System) (l : Label) : Decidable (SavedBeforeReply σ l) :=
  inferInstanceAs (Decidable (∀ d ∈ σ.delivery l, _))

/-- Every server remembers what it has carried out. -/
theorem deduplicates_of_reach (hrun : Machine.Reach System.step
    (fun σ l => System.NoJoin σ l ∧ SavedBeforeReply σ l) cfg.init σ) :
    ∀ x, (σ.server x).Deduplicates := by
  refine Topology.servers (fun _ _ h => h.1) hrun ?_ ?_
  · intro x
    exact Config.initServer_cases (P := ChainServer.Deduplicates) x
      ⟨by simp, by simp, by simp⟩ fun _ _ _ => ⟨by simp, by simp, by simp⟩
  · intro σ l x msg e hl hlog hdelivery hstep _ _ h
    refine h.step hlog hstep ?_
    rintro rep rfl
    exact hl.2 _ hdelivery rep rfl

/-- In a run where every `REPLY` finds its transfer in `processed_map_`, every server debits a
transfer at most once, and a repetition of it has a precedent. -/
theorem transfer_debited_once (hrun : Machine.Reach System.step
    (fun σ l => System.NoJoin σ l ∧ SavedBeforeReply σ l) cfg.init σ) (x : Address) (r a : String) :
    ((σ.server x).hist.filter fun q =>
      q.type = .transfer ∧ q.Applied ∧ q.reqId = r ∧ q.accountId = a).length ≤ 1 ∧
    ∀ req reply, req.reqId = r → req.accountId = a →
      (∃ q ∈ (σ.server x).hist, q.checkResult = .newreq ∧ q.reqId = r ∧ q.accountId = a) →
        ((σ.server x).checkUpdateRequest req reply).2.1 ≠ .newreq ∧
        ((∀ q ∈ (σ.server x).hist, q.reqId = r ∨ q.key = req.key → reqConsistent req q = true) →
          ((σ.server x).checkUpdateRequest req reply).2.1 = .processed) := by
  have h := deduplicates_of_reach hrun x
  have hlog := (Topology.reach (fun _ _ h => h.1) hrun).log x
  constructor
  · refine h.length_filter_le r a fun q hq => ?_
    obtain ⟨-, happlied, hid, hacc⟩ : q.type = .transfer ∧ q.Applied ∧ q.reqId = r ∧
        q.accountId = a := by simpa using hq
    exact ⟨happlied.1, hid, hacc⟩
  · rintro req reply rfl rfl ⟨q, hq, hnew, hid, hacc⟩
    have hknown := h.known q hq hnew
    rw [hid, hacc] at hknown
    obtain ⟨it, hit⟩ := hknown.exists_precedent
    rw [ChainServer.checkUpdateRequest_of_precedent hit]
    constructor
    · split_ifs <;> simp
    · intro hcons
      obtain ⟨hmem, hsame⟩ := ChainServer.precedent_mem h.stored hlog hit
      rw [if_pos (hcons it hmem hsame)]

open Config in
/-- The reply to a first transfer has come back. The tail dies before it sees a second one, the internal server
takes over and forwards it, and the client sends it again. -/
theorem transfer_debited_once_retransmitted :
    let σ := twoBanks.after (fun σ l => System.NoJoin σ l ∧ SavedBeforeReply σ l)
      ([request 1 (sampleDeposit "1" 10), hop 1 2, hop 2 3, hop 3 2, request 1 (sampleTransfer "2" 4), hop 1 2,
        hop 2 3, hop 3 11, hop 11 3, hop 3 2, request 1 (sampleTransfer "3" 5), hop 1 2] ++ lose 3 ++
        [hop 0 2, request 1 (sampleTransfer "3" 5), hop 1 2])
    let s := σ.server (localAddress 2)
    (s.hist.filter fun q =>
      q.type = .transfer ∧ q.Applied ∧ q.reqId = "3" ∧ q.accountId = "a").length ≤ 1 ∧
    ∀ req reply, req.reqId = "3" → req.accountId = "a" →
      (∃ q ∈ s.hist, q.checkResult = .newreq ∧ q.reqId = "3" ∧ q.accountId = "a") →
        (s.checkUpdateRequest req reply).2.1 ≠ .newreq ∧
        ((∀ q ∈ s.hist, q.reqId = "3" ∨ q.key = req.key → reqConsistent req q = true) →
          (s.checkUpdateRequest req reply).2.1 = .processed) :=
  transfer_debited_once (reach_after (by decide +kernel)) (localAddress 2) "3" "a"

open Config in
/-- The tail dies before it sees a transfer, the internal server takes over and gets the reply, and
the client sends the transfer again: the new tail debits it a second time. -/
theorem transfer_debited_twice :
    ¬ ∀ σ, Machine.Reach System.step System.NoJoin twoBanks.init σ → ∀ x r a,
      ((σ.server x).hist.filter fun q =>
        q.type = .transfer ∧ q.Applied ∧ q.reqId = r ∧ q.accountId = a).length ≤ 1 := by
  intro h
  let σ := twoBanks.after System.NoJoin
    ([request 1 (sampleDeposit "1" 10), hop 1 2, hop 2 3, hop 3 2, hop 2 1,
      request 1 (sampleTransfer "2" 4), hop 1 2] ++ lose 3 ++
      [hop 0 2, hop 2 11, hop 11 2, request 1 (sampleTransfer "2" 4), hop 1 2])
  have hrun : Machine.Reach System.step System.NoJoin twoBanks.init σ :=
    reach_after (by decide +kernel)
  exact absurd (h σ hrun (localAddress 2) "2" "a") (by decide +kernel)

end ChainReplication
