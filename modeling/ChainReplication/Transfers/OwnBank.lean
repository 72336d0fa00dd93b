import ChainReplication.System.Inputs
import ChainReplication.Transfers.Debits

/-!
# Transfers inside one bank

The tail sends the `TRANSFER_TO` of such a transfer to its own head while the transfer itself, under the
same request id, is in the `sent_list_` of every server of the chain. `check_update_request` looks there by
request id alone, but only for an account that exists. So the transfer succeeds when the destination account
is new to each server, and is refused as inconsistent otherwise.
-/

namespace ChainReplication

/-- A `TRANSFER_TO` that a server of the bank has sent. -/
def Request.SentBy (b : BankConfig) (q : Request) : Prop :=
  q.type = .transferTo ∧ q.clientAddr ∈ b.servers

instance (b : BankConfig) (q : Request) : Decidable (q.SentBy b) :=
  inferInstanceAs (Decidable (_ ∧ _))

/-- The request that the id stands for is one of the bank to itself. -/
def Within (W : String → Request) (b : BankConfig) (r : String) : Prop :=
  (W r).bankId = b.bankId ∧ (W r).destBankId = b.bankId

/-- A server of the bank that handles a `TRANSFER_TO` from its own bank does not have the account. -/
def NewTarget (b : BankConfig) (σ : System) (l : Label) : Prop :=
  ∀ d ∈ σ.delivery l, d.1 ∈ b.servers → ∀ q ∈ d.2.request?, q.SentBy b →
    q.accountId ∉ (σ.server d.1).accountMap

instance (b : BankConfig) (σ : System) (l : Label) : Decidable (NewTarget b σ l) :=
  inferInstanceAs (Decidable (∀ d ∈ σ.delivery l, _))

/-- What the server `x` has done with the transfers of its bank to itself. -/
structure CreditsOwn (W : String → Request) (b : BankConfig) (σ : System) (x : Address) : Prop where
  newreq : ∀ q ∈ (σ.server x).hist, q.SentBy b → q.checkResult = .newreq
  amount : ∀ q ∈ (σ.server x).hist, q.SentBy b → ∃ d ∈ (σ.server b.last).hist,
    d.type = .transfer ∧ d.Applied ∧ d.reqId = q.reqId ∧ d.destAccountId = q.accountId ∧
      q.change q.accountId = d.amount
  balance : ∀ a, (σ.server x).balance a = ((σ.server x).hist.map (·.change a)).sum
  once : ∀ r, ((σ.server x).hist.filter fun q => q.SentBy b ∧ q.reqId = r).length ≤ 1
  logged : ∀ q ∈ (σ.server b.last).hist, q.SentBy b → ∃ p ∈ (σ.server x).hist, p.body = q.body
  reply : ∀ rep, .handled x (.reply rep) ∈ σ.trace → Within W b rep.reqId → rep.outcome = .processed

/-- The bank's transfers to itself are carried out, and the replies say so. -/
structure OwnTransfers (W : String → Request) (b : BankConfig) (σ : System) : Prop where
  applied : ∀ x ∈ b.servers, ∀ q ∈ (σ.server x).hist, q.SentBy b → q.Applied
  answer : ∀ x, ∀ q ∈ (σ.server x).hist, q.type = .transferTo → Within W b q.reply.reqId →
    q.reply.outcome = .processed
  reply : ∀ u y rep, .reply rep ∈ σ.link u y → Within W b rep.reqId → rep.outcome = .processed
  handled : ∀ x rep, .handled x (.reply rep) ∈ σ.trace → Within W b rep.reqId →
    rep.outcome = .processed

variable {cfg : Config} {W : String → Request} {b : BankConfig} {σ σ' : System} {l : Label}
  {x y z : Address} {msg m : Message} {q q' : Request} {r a : String}
  {L : Links Address Message} {out : List Packet}

/-! ### New accounts -/

namespace ChainServer

variable {s : ChainServer} {req : Request}

/-- An account without history takes every incoming transfer. -/
lemma answered_of_notMem (h : req.accountId ∉ s.accountMap) (htype : req.type = .transferTo) :
    (s.answered req).Applied := by
  have hprecedent : s.precedent req = none := if_neg h
  refine ⟨answered_newreq.mpr hprecedent, ?_⟩
  rw [answered_of_none hprecedent, Request.answerNew_outcome]
  simp [Request.Debits, number, htype]

/-- A reply names the id of its request, or repeats that of an earlier incoming transfer. -/
lemma answered_reply_cases (htype : req.type = .transferTo) :
    (s.answered req).reply.reqId = req.reqId ∧
      ((s.answered req).reply.outcome = .processed ∨ req.accountId ∈ s.accountMap) ∨
    ∃ it, s.precedent req = some it ∧ it.type = .transferTo ∧ (s.answered req).reply = it.reply := by
  cases hprecedent : s.precedent req with
  | none =>
    left
    have hdebits : ¬ (s.number req).Debits := by simp [Request.Debits, number, htype]
    rw [answered_of_none hprecedent, Request.answerNew]
    simp only [hdebits, false_and, if_false]
    exact ⟨rfl, Or.inl trivial⟩
  | some it =>
    rw [answered_of_precedent hprecedent, Request.answerFrom]
    split_ifs with hcons
    · right
      refine ⟨it, rfl, ?_, rfl⟩
      simp only [reqConsistent, Bool.and_eq_true, decide_eq_true_eq] at hcons
      exact hcons.1.1.1.1.symm.trans htype
    · exact Or.inl ⟨rfl, Or.inr (mem_accounts_of_precedent hprecedent)⟩

end ChainServer

namespace OwnTransfers

lemma init : OwnTransfers W b cfg.init := by
  refine ⟨?_, ?_, ?_, ?_⟩
  · intro x _ q hq
    rw [Config.init_hist] at hq
    cases hq
  · intro x q hq
    rw [Config.init_hist] at hq
    cases hq
  · intro u y rep hrep
    simp [Config.init] at hrep
  · intro x rep hrep
    simp [Config.init] at hrep

lemma idle (h : OwnTransfers W b σ) (server : σ'.server = σ.server)
    (link : ∀ u y, ∀ m ∈ σ'.link u y, m ∈ σ.link u y) (trace : σ'.trace = σ.trace) :
    OwnTransfers W b σ' := by
  refine ⟨by rw [server]; exact h.applied, by rw [server]; exact h.answer, ?_,
    by rw [trace]; exact h.handled⟩
  exact fun u y rep hrep => h.reply u y rep (link u y _ hrep)

/-- A transfer of the bank to itself comes from a server of the bank. -/
lemma sentBy_of_within {b' : BankConfig} (hb : b ∈ cfg.banks) (hb' : b' ∈ cfg.banks)
    (hown : Owned cfg W b' q) (htype : q.type = .transferTo) (hwithin : Within W b q.reqId) :
    b' = b ∧ q.SentBy b := by
  obtain ⟨src, hsrc, hclient, -, -, hbank, hdest⟩ := hown.of_credit htype
  obtain rfl : src = b :=
    List.inj_on_of_nodup_map cfg.bankIds_nodup hsrc hb (hbank.symm.trans hwithin.1)
  exact ⟨List.inj_on_of_nodup_map cfg.bankIds_nodup hb' hb (hdest.symm.trans hwithin.2), htype,
    hclient⟩

section Serve

variable (h : OwnTransfers W b σ) (ht : Topology cfg σ) (taken : System.Taken σ x msg L)
  (hs : System.Serve σ x msg L out σ') (hdelivery : σ.delivery l = some (x, msg))
  (hnew : NewTarget b σ l)
include h ht taken hs hdelivery hnew

lemma serve_applied (hy : y ∈ b.servers) (hq : q ∈ (σ'.server y).hist) (hsent : q.SentBy b) :
    q.Applied := by
  by_cases hyx : y = x
  · subst hyx
    rcases ht.serve_hist taken hs hq with hq | ⟨req, rfl, rfl⟩
    · exact h.applied y hy q hq hsent
    · rw [Request.SentBy, ChainServer.answered_type, ChainServer.answered_clientAddr] at hsent
      exact ChainServer.answered_of_notMem (hnew _ hdelivery hy req rfl hsent) hsent.1
  · rw [hs.server_of_ne hyx] at hq
    exact h.applied y hy q hq hsent

lemma serve_answer (hb : b ∈ cfg.banks) (hd : Debits cfg σ) (hr' : Routed cfg W σ')
    (hq : q ∈ (σ'.server y).hist) (htype : q.type = .transferTo)
    (hwithin : Within W b q.reply.reqId) : q.reply.outcome = .processed := by
  by_cases hyx : y = x
  · subst hyx
    rcases ht.serve_hist taken hs hq with hold | ⟨req, rfl, rfl⟩
    · exact h.answer y q hold htype hwithin
    · obtain ⟨b', hb', hy, hown⟩ := hr'.hist y _ hq
      rw [ChainServer.answered_type] at htype
      rcases ChainServer.answered_reply_cases htype with ⟨hid, hout | hmem⟩ | ⟨it, hit, htype', hreply⟩
      · exact hout
      · -- the transfer is one inside the bank, so its account is new
        rw [hid] at hwithin
        have hid' : (ChainServer.answered (σ.server y) req).reqId = req.reqId := by simp
        rw [← hid'] at hwithin
        obtain ⟨rfl, hsent⟩ := sentBy_of_within hb hb' hown (by simpa using htype) hwithin
        rw [Request.SentBy, ChainServer.answered_type, ChainServer.answered_clientAddr] at hsent
        exact absurd hmem (hnew _ hdelivery hy req rfl hsent)
      · rw [hreply] at hwithin ⊢
        exact h.answer y it (ChainServer.precedent_mem (hd.dedup y).stored (ht.log y) hit).1 htype'
          hwithin
  · rw [hs.server_of_ne hyx] at hq
    exact h.answer y q hq htype hwithin

lemma serve_reply (hb : b ∈ cfg.banks) (hd : Debits cfg σ) (hr' : Routed cfg W σ') {rep : Reply}
    (hrep : .reply rep ∈ σ'.link y z) (hwithin : Within W b rep.reqId) :
    rep.outcome = .processed := by
  rcases Routed.serve_dispatch ht taken hs hrep with hrep | ⟨rfl, hdispatch⟩
  · exact h.reply y z rep hrep hwithin
  · cases hdispatch with
    | @answer req asked type tail hist =>
      exact h.serve_answer ht taken hs hdelivery hnew hb hd hr' hist
        (by rwa [ChainServer.answered_type]) hwithin
    | release asked mem type => exact h.answer y _ ((ht.log y).mem_hist mem) type hwithin
    | other request reply => exact absurd rfl (reply rep)

omit ht hnew hdelivery in
lemma serve_handled {rep : Reply} (hrep : .handled y (.reply rep) ∈ σ'.trace)
    (hwithin : Within W b rep.reqId) : rep.outcome = .processed := by
  rw [hs.trace, List.mem_append, List.mem_cons] at hrep
  rcases hrep with hrep | hrep | hrep
  · exact h.handled y rep hrep hwithin
  · obtain ⟨rfl, rfl⟩ := Event.handled.inj hrep
    rcases taken.origin with ⟨src, hrep⟩ | ⟨_, heq, -⟩
    · exact h.reply src y rep hrep hwithin
    · cases heq
  · simp at hrep

end Serve

lemma step (h : OwnTransfers W b σ) (hb : b ∈ cfg.banks) (ht : Topology cfg σ) (hd : Debits cfg σ)
    (hr' : Routed cfg W σ') (hnew : NewTarget b σ l) (hcase : CalmCase σ l σ') :
    OwnTransfers W b σ' := by
  cases hcase with
  | serve taken serve delivery traffic =>
    refine ⟨?_, ?_, ?_, ?_⟩
    · intro y hy q hq hsent
      exact h.serve_applied ht taken serve delivery hnew hy hq hsent
    · intro y q hq htype hwithin
      exact h.serve_answer ht taken serve delivery hnew hb hd hr' hq htype hwithin
    · intro y z rep hrep hwithin
      exact h.serve_reply ht taken serve delivery hnew hb hd hr' hrep hwithin
    · intro y rep hrep hwithin
      exact h.serve_handled taken serve hrep hwithin
  | idle server link trace => exact h.idle server link trace

theorem reach (hb : b ∈ cfg.banks) (hrun : Machine.Reach System.step
    (fun σ l => System.NoJoin σ l ∧ Workload cfg W σ l ∧ NewTarget b σ l) cfg.init σ)
    (hcalm : σ.Calm cfg) : Debits cfg σ ∧ OwnTransfers W b σ := by
  have hall := Steady.invariant (J := Routed cfg W)
    (I := fun τ => Debits cfg τ ∧ OwnTransfers W b τ) (fun _ _ h => h.1) hrun hcalm ?_
    ⟨Debits.init cfg, init⟩ ?_
  · exact hall.2
  · exact fun τ hτ => Routed.reach (fun _ _ h => h.1) (fun _ _ h => h.2.1) hτ
  · rintro τ l τ' ht ht' hr hr' hsteady hsteady' ⟨hd, h⟩ hl hcase
    exact ⟨hd.step ht ht' hsteady hsteady' hcase, h.step hb ht hd hr' hl.2.2 hcase⟩

/-- An incoming transfer from the bank itself is the credit of a transfer debited at its own tail. -/
lemma exists_debit (h : OwnTransfers W b σ) (hb : b ∈ cfg.banks) (hd : Debits cfg σ)
    (hr : Routed cfg W σ) (hx : x ∈ b.servers) (hq : q ∈ (σ.server x).hist) (hsent : q.SentBy b) :
    ∃ d ∈ (σ.server b.last).hist, d.type = .transfer ∧ d.Applied ∧ d.reqId = q.reqId ∧
      d.destAccountId = q.accountId ∧ q.change q.accountId = d.amount := by
  obtain ⟨src, hsrc, hclient, hsame, -, hbank, -⟩ := (hr.hist_owned hb hx hq).of_credit hsent.1
  obtain rfl := Config.bank_unique_servers hsrc hb hclient hsent.2
  obtain ⟨d, hd, hid⟩ := hd.hist x q hq hsent.1
  obtain ⟨b', hb', hd, htype, happlied⟩ := System.mem_carriedOut.mp hd
  obtain ⟨hdsame, hdbank⟩ :=
    (hr.hist_owned hb' (Config.last_mem hb') hd).of_type (by rw [htype]; simp)
  obtain ⟨-, -, -, -, hdbank', hamount, -, hacc⟩ := Request.fields_of_content hdsame
  obtain rfl : b' = src := by
    refine List.inj_on_of_nodup_map cfg.bankIds_nodup hb' hsrc ?_
    rw [← hdbank, hdbank', ← hbank, hid]
  refine ⟨d, hd, htype, happlied, hid, ?_, ?_⟩
  · have haccount := congrArg Request.accountId hsame
    rw [hacc, hid]
    exact haccount.symm
  · have hqamount := congrArg Request.amount hsame
    have hchange : q.change q.accountId = q.amount := by
      rw [Request.change, if_pos ⟨h.applied x hx q hq hsent, rfl⟩, if_neg]
      simp [Request.Debits, hsent.1]
    rw [hchange, hamount, hid]
    exact hqamount

/-- The transfers of a bank to itself are credited once. -/
lemma length_filter_le (h : OwnTransfers W b σ) (hb : b ∈ cfg.banks) (hd : Debits cfg σ)
    (hr : Routed cfg W σ) (hx : x ∈ b.servers) (r : String) :
    ((σ.server x).hist.filter fun q => q.SentBy b ∧ q.reqId = r).length ≤ 1 := by
  have hsame : (σ.server x).hist.filter (fun q => q.SentBy b ∧ q.reqId = r) =
      (σ.server x).hist.filter fun q => (q.SentBy b ∧ q.reqId = r) ∧ q.checkResult = .newreq ∧
        q.reqId = r ∧ q.accountId = (W r).destAccountId := by
    refine List.filter_congr fun q hq => ?_
    rw [decide_eq_decide]
    refine ⟨?_, And.left⟩
    rintro ⟨hsent, rfl⟩
    obtain ⟨src, -, -, hcontent, -⟩ := (hr.hist_owned hb hx hq).of_credit hsent.1
    have haccount := congrArg Request.accountId hcontent
    exact ⟨⟨hsent, rfl⟩, (h.applied x hx q hq hsent).1, rfl, haccount⟩
  rw [hsame]
  refine (hd.dedup x).length_filter_le r (W r).destAccountId fun q hq => ?_
  simp only [decide_eq_true_eq] at hq
  exact hq.2

end OwnTransfers

/-- In a run without crashes and joins in which a `TRANSFER_TO` from the own bank never finds its
account, every transfer of the bank to itself that has been debited is credited: each server of the
chain classifies its `TRANSFER_TO` as `NEWREQ` and adds the debited amount once, all servers before the
tail have logged what the tail has, and every reply to the tail says `PROCESSED`. -/
theorem own_transfers_credited (hb : b ∈ cfg.banks) (hrun : Machine.Reach System.step
    (fun σ l => System.NoJoin σ l ∧ Workload cfg W σ l ∧ NewTarget b σ l) cfg.init σ)
    (hcalm : σ.Calm cfg) : ∀ x ∈ b.servers, CreditsOwn W b σ x := by
  intro x hx
  obtain ⟨hd, h⟩ := OwnTransfers.reach hb hrun hcalm
  have hr : Routed cfg W σ := Routed.reach (fun _ _ h => h.1) (fun _ _ h => h.2.1) hrun
  have hrep : Replicated cfg σ := Replicated.reach (fun _ _ h => h.1) hrun
  refine ⟨?_, ?_, ?_, h.length_filter_le hb hd hr hx, ?_, h.handled x⟩
  · exact fun q hq hsent => (h.applied x hx q hq hsent).1
  · exact fun q hq hsent => h.exists_debit hb hd hr hx hq hsent
  · exact accounted_of_reach (hrun.mono fun _ _ h => h.1) x
  · intro q hq _
    by_cases hlast : x = b.last
    · subst hlast
      exact ⟨q, hq, rfl⟩
    · have hprec := List.precedes_of_getLast? (Config.getLast?_eq_last hb) hx hlast
      have hsub := (hrep.sub b hb x b.last hprec (hcalm b hb x hx)).subset (List.mem_map_of_mem hq)
      obtain ⟨p, hp, hbody⟩ := List.mem_map.mp hsub
      exact ⟨p, hp, hbody⟩

open Config in
/-- A transfer from the account `a` to the new account `b` of the same bank, up to the reply that the
tail sends to itself. -/
theorem own_transfers_credited_new :
    let chain : BankConfig := { bankId := "BOA", servers := [1, 2, 3].map localAddress }
    let transfer : Request :=
      { sampleTransfer "2" 4 with destBankId := "BOA", destAccountId := "b" }
    let W : String → Request := fun r => if r = "1" then sampleDeposit r 10 else transfer
    let σ := twoBanks.after
      (fun σ l => System.NoJoin σ l ∧ Workload twoBanks W σ l ∧ NewTarget chain σ l)
      [request 1 (sampleDeposit "1" 10), hop 1 2, hop 2 3, request 1 transfer, hop 1 2, hop 2 3,
        hop 3 1, hop 1 2, hop 2 3, hop 3 3]
    ∀ x ∈ chain.servers, CreditsOwn W chain σ x :=
  own_transfers_credited (by decide) (reach_after (by decide +kernel)) (by decide +kernel)

open Config in
/-- The same transfer to an account `b` that exists: the head finds the transfer in its `sent_list_`
under the id of the `TRANSFER_TO` and calls it inconsistent. -/
theorem own_transfer_refused :
    let chain : BankConfig := { bankId := "BOA", servers := [1, 2, 3].map localAddress }
    let transfer : Request :=
      { sampleTransfer "2" 4 with destBankId := "BOA", destAccountId := "b" }
    let W : String → Request := fun r => if r = "1" then sampleDeposit r 10 else
      if r = "3" then { sampleDeposit r 1 with accountId := "b" } else transfer
    ¬ ∀ σ, Machine.Reach System.step (fun σ l => System.NoJoin σ l ∧ Workload twoBanks W σ l)
      twoBanks.init σ → σ.Calm twoBanks → ∀ x ∈ chain.servers, ∀ q ∈ (σ.server x).hist,
        q.SentBy chain → q.checkResult = .newreq := by
  intro chain transfer W h
  let σ := twoBanks.after (fun σ l => System.NoJoin σ l ∧ Workload twoBanks W σ l)
    [request 1 (sampleDeposit "1" 10), hop 1 2, hop 2 3,
      request 1 { sampleDeposit "3" 1 with accountId := "b" }, hop 1 2, hop 2 3,
      request 1 transfer, hop 1 2, hop 2 3, hop 3 1, hop 1 2, hop 2 3]
  have hrun : Machine.Reach System.step (fun σ l => System.NoJoin σ l ∧ Workload twoBanks W σ l)
      twoBanks.init σ := reach_after (by decide +kernel)
  exact absurd (h σ hrun (by decide +kernel) (localAddress 1) (by decide)) (by decide +kernel)

end ChainReplication
