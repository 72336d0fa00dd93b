import ChainReplication.Server.Credits
import ChainReplication.Server.Funds
import ChainReplication.Transfers.Debits

/-!
# Conservation of money

Without failures the money of all banks together is what clients have deposited and not withdrawn, less
the transfers that a source bank has debited and the destination bank has not credited yet. Those are
in the `sent_list_` of the source tail.
-/

namespace ChainReplication

/-- The tail of the destination bank has carried out the `TRANSFER_TO` of a transfer. -/
def System.Credited (cfg : Config) (σ : System) (q : Request) : Prop :=
  ∃ b ∈ cfg.banks, b.bankId = q.destBankId ∧ (σ.server b.last).Credited q.reqId q.destAccountId

instance (cfg : Config) (σ : System) (q : Request) : Decidable (σ.Credited cfg q) :=
  inferInstanceAs (Decidable (∃ b ∈ cfg.banks, _))

/-- What the banks owe each other in a system without failures. -/
structure Ledger (cfg : Config) (σ : System) : Prop extends Debits cfg σ where
  answers : ∀ x, (σ.server x).AnswersCredits
  funded : ∀ x, (σ.server x).Funded
  reply : ∀ u y rep, .reply rep ∈ σ.link u y → rep.outcome = .processed →
    ∃ b ∈ cfg.banks, (σ.server b.last).Credited rep.reqId rep.accountId
  pending : ∀ b ∈ cfg.banks, ∀ q ∈ (σ.server b.last).hist, q.type = .transfer → q.Applied →
    q ∈ (σ.server b.last).sentList ∨ σ.Credited cfg q

variable {cfg : Config} {W : String → Request} {b b' : BankConfig} {σ σ' : System} {l : Label}
  {x y z : Address} {msg m : Message} {q q' : Request} {r a : String} {t : RequestType}
  {L : Links Address Message} {out : List Packet}

lemma System.Credited.mono (h : σ.Credited cfg q)
    (hist : ∀ x, (σ.server x).hist ⊆ (σ'.server x).hist) : σ'.Credited cfg q := by
  obtain ⟨b, hb, hid, h⟩ := h
  exact ⟨b, hb, hid, h.mono (hist _)⟩

/-! ### Owners of accounts -/

/-- The account ids of a workload have no separator in them. -/
def Separable (W : String → Request) : Prop :=
  ∀ r, '_' ∉ (W r).accountId.toList ∧ '_' ∉ (W r).destAccountId.toList

/-- An incoming transfer is for the account that the transfer names. -/
lemma Owned.assigned (h : Owned cfg W b q) (hsep : Separable W) (htype : q.type = .transferTo) :
    q.Assigned fun r => (W r).destAccountId := by
  obtain ⟨src, -, -, hsame, -⟩ := h.of_credit htype
  have hacc : q.accountId = (W q.reqId).destAccountId := congrArg Request.accountId hsame
  refine ⟨hacc, ?_⟩
  rw [hacc]
  exact (hsep _).2

namespace Ledger

lemma init (cfg : Config) : Ledger cfg cfg.init := by
  refine ⟨Debits.init cfg, ?_, ?_, ?_, ?_⟩
  · intro x q hq
    rw [Config.init_hist] at hq
    cases hq
  · intro x
    exact Config.init_fresh x fun s h h' _ => by
      rw [ChainServer.Funded, h, ChainServer.funds, h']
      rfl
  · intro u y rep hrep
    simp [Config.init] at hrep
  · intro b _ q hq
    rw [Config.init_hist] at hq
    cases hq

/-- Steps in which no server does anything. -/
lemma idle (h : Ledger cfg σ) (server : σ'.server = σ.server)
    (link : ∀ u y, ∀ m ∈ σ'.link u y, m ∈ σ.link u y) : Ledger cfg σ' := by
  refine ⟨h.toDebits.idle server link, by rw [server]; exact h.answers,
    by rw [server]; exact h.funded, ?_, ?_⟩
  · rw [server]
    exact fun u y rep hrep => h.reply u y rep (link u y _ hrep)
  · simp only [System.Credited, server]
    exact h.pending

/-! ### A server serves a message -/

section Serve

variable (h : Ledger cfg σ) (ht : Topology cfg σ) (taken : System.Taken σ x msg L)
  (hs : System.Serve σ x msg L out σ')
include h ht taken hs

lemma serve_answers (hr' : Routed cfg W σ') (hsep : Separable W) (y : Address) :
    (σ'.server y).AnswersCredits := by
  apply Debits.serve_servers ht taken hs h.answers
  intro hanswers hstep
  rw [hs.server_self]
  refine @hanswers.step (fun r => (W r).destAccountId) _ _ _ (ht.log x) (h.dedup x).stored hstep ?_
  intro q hq htype
  rw [← hs.server_self] at hq
  obtain ⟨b, -, -, hown⟩ := hr'.hist x q hq
  exact hown.assigned hsep htype

lemma serve_funded (y : Address) : (σ'.server y).Funded := by
  apply Debits.serve_servers ht taken hs h.funded
  intro hfunded hstep
  rw [hs.server_self]
  exact hfunded.step hstep

/-- A tail that answers an incoming transfer as processed has credited it. -/
lemma serve_reply (hsteady : Steady cfg σ) (hanswers' : (σ'.server x).AnswersCredits) {rep : Reply}
    (hrep : .reply rep ∈ σ'.link y z) (hout : rep.outcome = .processed) :
    ∃ b ∈ cfg.banks, (σ'.server b.last).Credited rep.reqId rep.accountId := by
  rcases Routed.serve_dispatch ht taken hs hrep with hrep | ⟨rfl, hdispatch⟩
  · obtain ⟨b, hb, hcredited⟩ := h.reply y z rep hrep hout
    exact ⟨b, hb, hcredited.mono (Debits.serve_hist_subset ht taken hs _)⟩
  · cases hdispatch with
    | @answer req asked type tail hist =>
      obtain ⟨b, hb, rfl⟩ := hsteady.last_of_tail tail
      obtain ⟨hid, hacc, hcredited⟩ := hanswers' _ hist (by rwa [ChainServer.answered_type])
      rw [hid, hacc]
      exact ⟨b, hb, hcredited hout⟩
    | release asked mem type =>
      subst asked
      have htransfer := (hsteady.sent y (ht.taken_reply taken) _ mem).1
      rw [type] at htransfer
      cases htransfer
    | other request reply => exact absurd rfl (reply rep)

/-- A debited transfer stays in `sent_list_` until its reply says that it has been credited. -/
lemma serve_pending (hsteady : Steady cfg σ) (hr : Routed cfg W σ) (hr' : Routed cfg W σ')
    (hb : b ∈ cfg.banks) (hq : q ∈ (σ'.server b.last).hist) (htype : q.type = .transfer)
    (happlied : q.Applied) : q ∈ (σ'.server b.last).sentList ∨ σ'.Credited cfg q := by
  have hgrows := Debits.serve_hist_subset ht taken hs
  have old (hq : q ∈ (σ.server b.last).hist)
      (keep : q ∈ (σ.server b.last).sentList →
        q ∈ (σ'.server b.last).sentList ∨ σ'.Credited cfg q) :
      q ∈ (σ'.server b.last).sentList ∨ σ'.Credited cfg q := by
    rcases h.pending b hb q hq htype happlied with hsent | hcredited
    · exact keep hsent
    · exact Or.inr (hcredited.mono hgrows)
  by_cases hx : b.last = x
  · subst hx
    have htail := hsteady.tail_last hb
    have hack (a : Acknowledge) : msg ≠ .acknowledge a := by
      rintro rfl
      rcases taken.origin with ⟨src, hm⟩ | ⟨_, heq, -⟩
      · rw [hsteady.acks src _ a hm] at htail
        cases htail
      · cases heq
    have hown := hr'.hist_owned hb (Config.last_mem hb) hq
    rw [hs.server_self] at hq
    rcases ChainServer.debited_cases (ht.extendingChain _) (taken.plain ht.toPlain) hq htype happlied
      with hsent | ⟨hq, hreply⟩
    · rw [hs.server_self]
      exact Or.inl hsent
    · refine old hq fun hsent => Or.inr ?_
      obtain ⟨rep, rfl, hout, hid, hacc⟩ :=
        (hreply hsent).resolve_right fun ⟨a, heq, _⟩ => hack a heq
      rcases taken.origin with ⟨src, hrep⟩ | ⟨_, heq, -⟩
      · rw [System.Credited, hid, hacc]
        obtain ⟨b', hb', hcredited⟩ := h.reply src _ rep hrep hout
        refine ⟨b', hb', ?_, hcredited.mono (hgrows _)⟩
        obtain ⟨c, hc, hctype, -, hcid, -⟩ := hcredited
        obtain ⟨-, -, -, -, -, -, hdest⟩ :=
          (hr.hist_owned hb' (Config.last_mem hb') hc).of_credit hctype
        obtain ⟨hsame, -⟩ := hown.of_type (by rw [htype]; simp)
        obtain ⟨-, -, -, -, -, -, hdest', -⟩ := Request.fields_of_content hsame
        rw [hdest', ← hdest, hcid, hid]
      · cases heq
  · rw [hs.server_of_ne hx] at hq
    refine old hq fun hsent => ?_
    rw [hs.server_of_ne hx]
    exact Or.inl hsent

theorem serve (ht' : Topology cfg σ') (hsteady : Steady cfg σ) (hsteady' : Steady cfg σ')
    (hr : Routed cfg W σ) (hr' : Routed cfg W σ') (hsep : Separable W) : Ledger cfg σ' := by
  have hanswers' := h.serve_answers ht taken hs hr' hsep
  refine ⟨h.toDebits.serve ht taken hs ht' hsteady hsteady', hanswers', h.serve_funded ht taken hs,
    ?_, ?_⟩
  · intro y z rep hrep hout
    exact h.serve_reply ht taken hs hsteady (hanswers' x) hrep hout
  · intro b hb q hq htype happlied
    exact h.serve_pending ht taken hs hsteady hr hr' hb hq htype happlied

end Serve

/-- The ledger of a run in which nobody has crashed. -/
theorem reach (hsep : Separable W) (hrun : Machine.Reach System.step
    (fun σ l => System.NoJoin σ l ∧ Workload cfg W σ l) cfg.init σ) (hcalm : σ.Calm cfg) :
    Steady cfg σ ∧ Ledger cfg σ := by
  refine Steady.invariant (J := Routed cfg W) (fun _ _ h => h.1) hrun hcalm ?_ (init cfg) ?_
  · exact fun τ hτ => Routed.reach (fun _ _ h => h.1) (fun _ _ h => h.2) hτ
  · intro τ l τ' ht ht' hr hr' hsteady hsteady' h _ hcase
    cases hcase with
    | serve taken serve => exact h.serve ht taken serve ht' hsteady hsteady' hr hr' hsep
    | idle server link => exact h.idle server link

end Ledger

/-! ### Sums -/

/-- The amounts of the updates of a type that have been carried out. -/
def moved (t : RequestType) (l : List Request) : ℚ :=
  ((l.filter fun q => q.type = t ∧ q.Applied).map (·.amount)).sum

lemma moved_cons (q : Request) (l : List Request) : moved t (q :: l) =
    (if q.type = t ∧ q.Applied then q.amount else 0) + moved t l := by
  unfold moved
  rw [List.filter_cons]
  by_cases h : q.type = t ∧ q.Applied
  · rw [if_pos (decide_eq_true h), if_pos h, List.map_cons, List.sum_cons]
  · rw [if_neg (by simpa using h), if_neg h, zero_add]

/-- A log moves what it deposits and receives in, and what it withdraws and sends out. -/
lemma sum_flow (l : List Request) (h : ∀ q ∈ l, q.type ≠ .query) : (l.map Request.flow).sum =
    moved .deposit l - moved .withdraw l - moved .transfer l + moved .transferTo l := by
  induction l with
  | nil => simp [moved]
  | cons q l ih =>
    obtain ⟨hq, hl⟩ := List.forall_mem_cons.mp h
    rw [List.map_cons, List.sum_cons, ih hl, moved_cons, moved_cons, moved_cons, moved_cons,
      Request.flow]
    by_cases happlied : q.Applied
    · cases htype : q.type with
      | query => exact absurd htype hq
      | _ =>
        simp only [happlied, htype, Request.Debits, reduceCtorEq, and_true, if_true, if_false,
          or_false, or_true]
        abel
    · simp [happlied]

namespace Ledger

/-- All money is what the tails have logged. -/
lemma sum_funds (h : Ledger cfg σ) :
    (cfg.banks.map fun b => (σ.server b.last).funds).sum =
      ((σ.tailLogs cfg).map Request.flow).sum := by
  have hfunded : (fun b : BankConfig => (σ.server b.last).funds) =
      fun b => ((σ.server b.last).hist.map Request.flow).sum :=
    funext fun b => h.funded b.last
  rw [hfunded, System.tailLogs, List.flatMap, List.map_flatten, List.sum_flatten, List.map_map,
    List.map_map]
  rfl

/-- Updates of a type whose id determines the bank and the account are carried out once. -/
lemma nodup_carriedOut (h : Ledger cfg σ) (bank acct : String → String)
    (howned : ∀ b ∈ cfg.banks, ∀ q ∈ (σ.server b.last).hist, q.type = t →
      b.bankId = bank q.reqId ∧ q.accountId = acct q.reqId) :
    ((σ.carriedOut cfg t).map (·.reqId)).Nodup := by
  rw [System.carriedOut, System.tailLogs, List.filter_flatMap, List.map_flatMap,
    List.nodup_flatMap]
  have hmem {b : BankConfig} {q : Request}
      (hq : q ∈ (σ.server b.last).hist.filter fun q => q.type = t ∧ q.Applied) :
      q ∈ (σ.server b.last).hist ∧ q.type = t ∧ q.Applied := by
    simpa using hq
  refine ⟨?_, ?_⟩
  · intro b hb
    apply List.pairwise_map.mpr
    refine ((h.dedup b.last).once.filter _).imp_of_mem ?_
    intro q q' hq hq' honce hid
    obtain ⟨hq, htype, happlied⟩ := hmem hq
    obtain ⟨hq', htype', happlied'⟩ := hmem hq'
    refine honce happlied.1 happlied'.1 ⟨hid, ?_⟩
    rw [(howned b hb q hq htype).2, (howned b hb q' hq' htype').2, hid]
  · refine (List.pairwise_map.mp cfg.bankIds_nodup).imp_of_mem ?_
    intro b b' hb hb' hne r hr hr'
    obtain ⟨q, hq, rfl⟩ := List.mem_map.mp hr
    obtain ⟨q', hq', hid⟩ := List.mem_map.mp hr'
    obtain ⟨hq, htype, -⟩ := hmem hq
    obtain ⟨hq', htype', -⟩ := hmem hq'
    apply hne
    rw [(howned b hb q hq htype).1, (howned b' hb' q' hq' htype').1, hid]

/-- No transfer is debited twice. -/
lemma nodup_debits (h : Ledger cfg σ) (hr : Routed cfg W σ) :
    ((σ.carriedOut cfg .transfer).map (·.reqId)).Nodup := by
  apply h.nodup_carriedOut (fun r => (W r).bankId) (fun r => (W r).accountId)
  intro b hb q hq htype
  obtain ⟨hsame, hbank⟩ := (hr.hist_owned hb (Config.last_mem hb) hq).of_type (by rw [htype]; simp)
  obtain ⟨-, -, -, hacc, hbank', -⟩ := Request.fields_of_content hsame
  exact ⟨hbank.symm.trans hbank', hacc⟩

/-- No transfer is credited twice. -/
lemma nodup_credits (h : Ledger cfg σ) (hr : Routed cfg W σ) :
    ((σ.carriedOut cfg .transferTo).map (·.reqId)).Nodup := by
  apply h.nodup_carriedOut (fun r => (W r).destBankId) (fun r => (W r).destAccountId)
  intro b hb q hq htype
  obtain ⟨src, -, -, hsame, -, -, hdest⟩ :=
    (hr.hist_owned hb (Config.last_mem hb) hq).of_credit htype
  exact ⟨hdest.symm, congrArg Request.accountId hsame⟩

/-- The transfers credited are the debited ones that have been credited. -/
lemma credits_perm (h : Ledger cfg σ) (hr : Routed cfg W σ) :
    ((σ.carriedOut cfg .transferTo).map (·.reqId)).Perm
      (((σ.carriedOut cfg .transfer).filter fun q => σ.Credited cfg q).map (·.reqId)) := by
  have hdebits : (((σ.carriedOut cfg .transfer).filter fun q => σ.Credited cfg q).map
      (·.reqId)).Nodup := (h.nodup_debits hr).sublist (List.filter_sublist.map _)
  rw [List.perm_ext_iff_of_nodup (h.nodup_credits hr) hdebits]
  intro r
  constructor
  · intro hcredit
    obtain ⟨c, hc, rfl⟩ := List.mem_map.mp hcredit
    obtain ⟨b, hb, hc, htype, happlied⟩ := System.mem_carriedOut.mp hc
    obtain ⟨src, -, -, hsame, -, -, hdest⟩ :=
      (hr.hist_owned hb (Config.last_mem hb) hc).of_credit htype
    obtain ⟨d, hd, hid⟩ := h.hist _ c hc htype
    refine List.mem_map.mpr ⟨d, List.mem_filter.mpr ⟨hd, decide_eq_true ?_⟩, hid⟩
    obtain ⟨b', hb', hd, hdtype, -⟩ := System.mem_carriedOut.mp hd
    obtain ⟨hdsame, -⟩ :=
      (hr.hist_owned hb' (Config.last_mem hb') hd).of_type (by rw [hdtype]; simp)
    obtain ⟨-, -, -, -, -, -, hdbank, hdacc⟩ := Request.fields_of_content hdsame
    refine ⟨b, hb, ?_, c, hc, htype, happlied, hid.symm, ?_⟩
    · rw [hdbank, hid, hdest]
    · have hacc : c.accountId = (W c.reqId).destAccountId := congrArg Request.accountId hsame
      rw [hacc, hdacc, hid]
  · intro hdebit
    obtain ⟨d, hd, rfl⟩ := List.mem_map.mp hdebit
    obtain ⟨b, hb, -, c, hc, htype, happlied, hid, -⟩ :=
      of_decide_eq_true (List.mem_filter.mp hd).2
    exact List.mem_map.mpr ⟨c, System.mem_carriedOut.mpr ⟨b, hb, hc, htype, happlied⟩, hid⟩

/-- What arrives at the destination banks is what the source banks have sent. -/
lemma sum_credits (h : Ledger cfg σ) (hr : Routed cfg W σ) :
    ((σ.carriedOut cfg .transferTo).map (·.amount)).sum =
      (((σ.carriedOut cfg .transfer).filter fun q => σ.Credited cfg q).map (·.amount)).sum := by
  have hcredits : (σ.carriedOut cfg .transferTo).map (·.amount) =
      ((σ.carriedOut cfg .transferTo).map (·.reqId)).map fun r => (W r).amount := by
    rw [List.map_map]
    refine List.map_congr_left fun c hc => ?_
    obtain ⟨b, hb, hc, htype, -⟩ := System.mem_carriedOut.mp hc
    obtain ⟨src, -, -, hsame, -⟩ :=
      (hr.hist_owned hb (Config.last_mem hb) hc).of_credit htype
    have hamount := congrArg Request.amount hsame
    exact hamount
  have hdebits : ((σ.carriedOut cfg .transfer).filter fun q => σ.Credited cfg q).map (·.amount) =
      (((σ.carriedOut cfg .transfer).filter fun q => σ.Credited cfg q).map (·.reqId)).map
        fun r => (W r).amount := by
    rw [List.map_map]
    refine List.map_congr_left fun d hd => ?_
    obtain ⟨b, hb, hd, htype, -⟩ := System.mem_carriedOut.mp (List.mem_of_mem_filter hd)
    obtain ⟨hsame, -⟩ := (hr.hist_owned hb (Config.last_mem hb) hd).of_type (by rw [htype]; simp)
    have hamount := congrArg Request.amount hsame
    exact hamount
  rw [hcredits, hdebits]
  exact ((h.credits_perm hr).map _).sum_eq

end Ledger

/-- Without crashes and joins, under whatever order of deliveries, the money of all banks is what has
been deposited and not withdrawn, less the transfers that are debited and not credited yet. Each of
them is in the `sent_list_` of the tail that has debited it, and none is credited twice. -/
theorem money_conserved (hsep : Separable W) (hrun : Machine.Reach System.step
    (fun σ l => System.NoJoin σ l ∧ Workload cfg W σ l) cfg.init σ) (hcalm : σ.Calm cfg) :
    (∀ x, (σ.server x).istail = true ↔ ∃ b ∈ cfg.banks, b.last = x) ∧
    (cfg.banks.map fun b => (σ.server b.last).funds).sum =
      ((σ.carriedOut cfg .deposit).map (·.amount)).sum -
        ((σ.carriedOut cfg .withdraw).map (·.amount)).sum -
        (((σ.carriedOut cfg .transfer).filter fun q => ¬ σ.Credited cfg q).map (·.amount)).sum ∧
    (∀ b ∈ cfg.banks, ∀ q ∈ (σ.server b.last).hist, q.type = .transfer → q.Applied →
      ¬ σ.Credited cfg q → q ∈ (σ.server b.last).sentList) ∧
    ((σ.carriedOut cfg .transferTo).map (·.reqId)).Nodup := by
  obtain ⟨hsteady, h⟩ := Ledger.reach hsep hrun hcalm
  have ht : Topology cfg σ := Topology.reach (fun _ _ h => h.1) hrun
  have hr : Routed cfg W σ := Routed.reach (fun _ _ h => h.1) (fun _ _ h => h.2) hrun
  refine ⟨?_, ?_, ?_, h.nodup_credits hr⟩
  · intro x
    constructor
    · exact hsteady.last_of_tail
    · rintro ⟨b, hb, rfl⟩
      exact hsteady.tail_last hb
  · have hupdates : ∀ q ∈ σ.tailLogs cfg, q.type ≠ .query := by
      intro q hq
      obtain ⟨b, -, hq⟩ := List.mem_flatMap.mp hq
      exact (ht.log b.last).update q hq
    have hdebits := List.sum_map_filter_add_sum_map_filter_not (σ.Credited cfg) (·.amount)
      (σ.carriedOut cfg .transfer)
    have hmoved (t : RequestType) : moved t (σ.tailLogs cfg) =
        ((σ.carriedOut cfg t).map (·.amount)).sum := rfl
    rw [h.sum_funds, sum_flow _ hupdates, hmoved, hmoved, hmoved, hmoved, h.sum_credits hr,
      ← hdebits]
    abel
  · intro b hb q hq htype happlied hnot
    exact (h.pending b hb q hq htype happlied).resolve_right hnot

open Config in
/-- One transfer is retransmitted, forwarded and credited, its reply is on the way back; a second one has
been debited only. -/
theorem money_conserved_underway :
    let W : String → Request := fun r => if r = "1" then sampleDeposit r 10 else sampleTransfer r 4
    let σ := twoBanks.after (fun σ l => System.NoJoin σ l ∧ Workload twoBanks W σ l)
      [request 1 (sampleDeposit "1" 10), hop 1 2, hop 2 3, request 1 (sampleTransfer "2" 4), hop 1 2,
        hop 2 3, request 1 (sampleTransfer "2" 4), hop 3 11, hop 1 2, hop 2 3,
        request 1 (sampleTransfer "3" 4), hop 1 2, hop 2 3]
    (∀ x, (σ.server x).istail = true ↔ ∃ b ∈ twoBanks.banks, b.last = x) ∧
    (twoBanks.banks.map fun b => (σ.server b.last).funds).sum =
      ((σ.carriedOut twoBanks .deposit).map (·.amount)).sum -
        ((σ.carriedOut twoBanks .withdraw).map (·.amount)).sum -
        (((σ.carriedOut twoBanks .transfer).filter fun q => ¬ σ.Credited twoBanks q).map
          (·.amount)).sum ∧
    (∀ b ∈ twoBanks.banks, ∀ q ∈ (σ.server b.last).hist, q.type = .transfer → q.Applied →
      ¬ σ.Credited twoBanks q → q ∈ (σ.server b.last).sentList) ∧
    ((σ.carriedOut twoBanks .transferTo).map (·.reqId)).Nodup := by
  have hsep : Separable fun r => if r = "1" then sampleDeposit r 10 else sampleTransfer r 4 := by
    intro r
    by_cases hr : r = "1"
    · simp [hr, sampleDeposit]
    · simp [hr, sampleTransfer, sampleDeposit]
  exact money_conserved hsep (reach_after (by decide +kernel)) (by decide +kernel)

end ChainReplication
