import ChainReplication.System.Topology
import ChainReplication.Server.Balance

/-!
# Deposits, withdrawals and incoming transfers are carried out once

The record of a request that is no transfer moves from `sent_list_` to `processed_map_` and stays
there. Only transfers leave `sent_list_` without it: a reply takes requests out of the list of a tail,
and a tail keeps nothing but transfers there.
-/

namespace ChainReplication

variable {cfg : Config} {σ : System}

namespace ChainServer

variable {s : ChainServer} {msg : Message} {e : Effect} {r a : String}

/-- A tail keeps nothing but transfers in `sent_list_`. -/
def KeepsTransfers (s : ChainServer) : Prop :=
  s.istail = true → ∀ t ∈ s.sentList, t.type = .transfer

lemma KeepsTransfers.step (h : KeepsTransfers s) (hstep : LogStep s msg e)
    (hrole : RoleStep s msg e.server) : KeepsTransfers e.server := by
  intro htail t ht
  have old (hne : msg ≠ .toBeTail) (ht : t ∈ s.sentList) : t.type = .transfer :=
    h ((hrole.tail.mp htail).resolve_right hne) t ht
  cases hstep with
  | keep hist seq sent out ignored other =>
    rw [sent] at ht
    exact old other.1 ht
  | relay type tail =>
    rw [(hrole.tail.mp htail).resolve_right (by simp)] at tail
    cases tail
  | answer type tail next hist seq sent =>
    rw [sent, List.mem_append] at ht
    rcases ht with ht | ht
    · exact old (by simp) ht
    · obtain ⟨rfl, htype, -⟩ := Request.mem_toForward.mp ht
      exact htype
  | ack hist seq sent =>
    rw [sent] at ht
    exact old (by simp) ((List.dropWhile_sublist _).subset ht)
  | toBeTail hist seq sent =>
    rw [sent] at ht
    simpa using List.of_mem_filter ht
  | reply hist seq sent =>
    rw [sent] at ht
    exact old (by simp) (List.mem_of_mem_filter ht)
  | resend hist seq sent =>
    rw [sent] at ht
    exact old (by simp) ht

/-- No transfer of the history has this id and account. -/
def NoTransfer (s : ChainServer) (r a : String) : Prop :=
  ∀ q ∈ s.hist, q.type = .transfer → ¬ (q.reqId = r ∧ q.accountId = a)

end ChainServer

open ChainServer

/-- Without joins a server carries out at most one request under an id for an account that no
transfer uses. -/
lemma carriesOnce_of_reach (hrun : Machine.Reach System.step System.NoJoin cfg.init σ) (r a : String)
    (x : Address) : (σ.server x).KeepsTransfers ∧
      ((σ.server x).NoTransfer r a → (σ.server x).CarriesOnce r a) := by
  refine Topology.servers (I := fun s => s.KeepsTransfers ∧ (s.NoTransfer r a → s.CarriesOnce r a))
    (fun _ _ h => h) hrun ?_ ?_ x
  · intro x
    refine Config.initServer_cases (P := fun s => s.KeepsTransfers ∧
      (s.NoTransfer r a → s.CarriesOnce r a)) x ?_ fun _ _ _ => ?_
    · exact ⟨fun _ => by simp, fun _ => ⟨by simp, by simp⟩⟩
    · exact ⟨fun _ => by simp, fun _ => ⟨by simp, by simp⟩⟩
  · rintro σ l x msg e - hlog - hstep hrole hreply ⟨hkeeps, honce⟩
    refine ⟨hkeeps.step hstep hrole, fun hno => ?_⟩
    have hno : (σ.server x).NoTransfer r a := fun q hq => hno q (hstep.prefix_hist.subset hq)
    apply (honce hno).step hstep
    rintro rep rfl t ht hid hacc
    exact absurd ⟨hid, hacc⟩ (hno t (hlog.mem_hist ht) (hkeeps (hreply rep rfl) t ht))

lemma accounted_of_reach (hrun : Machine.Reach System.step System.NoJoin cfg.init σ) (x : Address) :
    (σ.server x).Accounted := by
  refine Topology.servers (fun _ _ h => h) hrun ?_ ?_ x
  · intro x
    exact Config.initServer_cases (P := Accounted) x (fun _ => rfl) fun _ _ _ _ => rfl
  · intro σ l x msg e _ _ _ hstep _ _ h
    exact h.step hstep

/-- At each server at most one request under an id for an account that no transfer uses is classified
`NEWREQ`; the balance is the sum of the changes in the log, at most one of which stems from the
pair. -/
theorem update_carried_out_once (hrun : Machine.Reach System.step System.NoJoin cfg.init σ)
    (x : Address) (r a : String)
    (hno : ∀ q ∈ (σ.server x).hist, q.type = .transfer → ¬ (q.reqId = r ∧ q.accountId = a)) :
    ((σ.server x).hist.filter fun q =>
      q.checkResult = .newreq ∧ q.reqId = r ∧ q.accountId = a).length ≤ 1 ∧
    (σ.server x).balance a = ((σ.server x).hist.map (·.change a)).sum ∧
    ((σ.server x).hist.filter fun q => q.change a ≠ 0 ∧ q.reqId = r).length ≤ 1 := by
  have honce := ((carriesOnce_of_reach hrun r a x).2 hno).once
  refine ⟨honce, accounted_of_reach hrun x a, ?_⟩
  refine le_trans (List.Sublist.length_le ?_) honce
  apply List.monotone_filter_right
  intro q hq
  obtain ⟨hchange, hid⟩ : q.change a ≠ 0 ∧ q.reqId = r := by simpa using hq
  rw [Request.change, ne_eq, ite_eq_right_iff, Classical.not_imp] at hchange
  simpa using ⟨hchange.1.1.1, hid, hchange.1.2⟩

open Config in
/-- The internal server relays a deposit and loses its tail; the client sends the deposit again, and
the new tail answers it from `processed_map_`. -/
theorem update_carried_out_once_takeover :
    let σ := twoBanks.after System.NoJoin ([request 1 (sampleDeposit "1" 10), hop 1 2] ++ lose 3 ++
      [hop 0 2, request 1 (sampleDeposit "1" 10), hop 1 2])
    let s := σ.server (localAddress 2)
    (s.hist.filter fun q =>
      q.checkResult = .newreq ∧ q.reqId = "1" ∧ q.accountId = "a").length ≤ 1 ∧
    s.balance "a" = (s.hist.map (·.change "a")).sum ∧
    (s.hist.filter fun q => q.change "a" ≠ 0 ∧ q.reqId = "1").length ≤ 1 :=
  update_carried_out_once (reach_after (by decide +kernel)) (localAddress 2) "1" "a"
    (by decide +kernel)

end ChainReplication
