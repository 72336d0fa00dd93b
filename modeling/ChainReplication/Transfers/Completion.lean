import ChainReplication.System.Config
import ChainReplication.Transfers.Outstanding
import ChainReplication.Transfers.Underway

/-!
# Transfers come to an end

Source tails and destination heads may crash while transfers are underway, at any point of any handler. Once
all messages have been delivered and all crashes announced, every transfer that was ever forwarded has been
credited and confirmed, unless the run goes through one of the situations that the code does not handle.
-/

namespace ChainReplication

variable {cfg : Config} {W : String → Request} {b c : BankConfig} {σ : System} {l : Label}
  {x y : Address} {t : Request}

/-- The runs without joins that go through none of the situations in which a `TRANSFER_TO` gets lost or stays
unanswered: a precedent of another request, a server that becomes the tail with a `TRANSFER_TO` still to be
answered, a `TRANSFER_TO` at a server that is not yet the head, links that are out of date. -/
structure Flowing (cfg : Config) (W : String → Request) (σ : System) (l : Label) : Prop where
  noJoin : System.NoJoin σ l
  workload : Workload cfg W σ l
  ownPrecedents : σ.OwnPrecedents l
  noneWaitedFor : σ.NoneWaitedFor cfg l
  creditsAtHead : σ.CreditsAtHead l
  noStaleLink : σ.NoStaleLink cfg l

/-- In these runs acknowledgements are not out of date either. -/
structure Completing (cfg : Config) (W : String → Request) (σ : System) (l : Label) : Prop extends
    Flowing cfg W σ l where
  noStaleAck : ∀ b ∈ cfg.banks, NoStaleAck b σ l

lemma flowing_iff : Flowing cfg W σ l ↔ System.NoJoin σ l ∧ Workload cfg W σ l ∧
    σ.OwnPrecedents l ∧ σ.NoneWaitedFor cfg l ∧ σ.CreditsAtHead l ∧ σ.NoStaleLink cfg l := by
  constructor
  · rintro ⟨h₁, h₂, h₃, h₄, h₅, h₆⟩
    exact ⟨h₁, h₂, h₃, h₄, h₅, h₆⟩
  · rintro ⟨h₁, h₂, h₃, h₄, h₅, h₆⟩
    exact ⟨h₁, h₂, h₃, h₄, h₅, h₆⟩

lemma completing_iff : Completing cfg W σ l ↔
    Flowing cfg W σ l ∧ ∀ b ∈ cfg.banks, NoStaleAck b σ l := by
  constructor
  · rintro ⟨h₁, h₂⟩
    exact ⟨h₁, h₂⟩
  · rintro ⟨h₁, h₂⟩
    exact ⟨h₁, h₂⟩

instance (cfg : Config) (W : String → Request) (σ : System) (l : Label) :
    Decidable (Flowing cfg W σ l) :=
  decidable_of_iff _ flowing_iff.symm

instance (cfg : Config) (W : String → Request) (σ : System) (l : Label) :
    Decidable (Completing cfg W σ l) :=
  decidable_of_iff _ completing_iff.symm

section Drained

variable (hrun : Machine.Reach System.step (Flowing cfg W) cfg.init σ) (hd : σ.Drained cfg)
include hrun hd

lemma System.Drained.converged (hb : b ∈ cfg.banks) : Converged b σ := by
  have hok : ∀ σ l, Flowing cfg W σ l → System.NoJoin σ l := fun _ _ h => h.noJoin
  refine (hd.still hok hb hrun).converged hb (Topology.reach hok hrun)
    (Announced.reach hok hb hrun) (Replicated.reach hok hrun) ?_
  exact fun x y => hd.succ_eq hok (fun _ _ h => h.noStaleLink) hb hrun

/-- Once nothing is on its way, nothing is underway. -/
lemma Underway.not_drained (hc : c ∈ cfg.banks) (hx : x ∈ cfg.processes)
    (hlive : σ.crashed x = false) (hy : y ∈ σ.chain c.bankId) (hylive : σ.crashed y = false) :
    ¬ Underway cfg c σ x y t := by
  have hok : ∀ σ l, Flowing cfg W σ l → System.NoJoin σ l := fun _ _ h => h.noJoin
  have ht := Topology.reach hok hrun
  have hmem := (ht.chain hc).1.subset hy
  intro h
  cases h with
  | lost dead =>
    rw [hylive] at dead
    cases dead
  | newHead bank mem =>
    rw [hd.link hok hrun hx hlive] at mem
    cases mem
  | sent seq content mem =>
    rw [hd.link hok hrun (Config.mem_processes hc hmem) hylive] at mem
    cases mem
  | answered reply =>
    obtain ⟨u, -, m, hm, -⟩ := reply
    rw [hd.link hok hrun hx hlive] at hm
    cases hm
  | @logged q content mem unanswered =>
    -- the tail has logged what the head has
    have hconv := hd.converged hrun hc
    obtain ⟨z, hz⟩ : ∃ z, (σ.chain c.bankId).getLast? = some z :=
      Option.ne_none_iff_exists'.mp fun hnone => by
        rw [List.getLast?_eq_none_iff.mp hnone] at hy
        cases hy
    have hzchain := List.mem_of_getLast? hz
    have hzmem := hconv.order.subset hzchain
    have hlt := unanswered.tail z hzmem ((hconv.live z hzmem).mp hzchain)
      ((hconv.tail z hzchain).mpr hz)
    have hlen := congrArg List.length (hconv.history y hy z hzchain)
    rw [ChainServer.length_bodies, ChainServer.length_bodies] at hlen
    have hle := ((ht.log y).getElem? mem).2.2
    omega

/-- No live tail keeps a transfer. -/
lemma System.Drained.sentList_tail (hb : b ∈ cfg.banks) (hx : x ∈ b.servers)
    (hlive : σ.crashed x = false) (htail : (σ.server x).istail = true) :
    (σ.server x).sentList = [] := by
  have hok : ∀ σ l, Flowing cfg W σ l → System.NoJoin σ l := fun _ _ h => h.noJoin
  have htracked : Tracked cfg σ := Tracked.reach hok (fun _ _ h => h.workload)
    (fun _ _ h => h.ownPrecedents) (fun _ _ h => h.noneWaitedFor) (fun _ _ h => h.creditsAtHead) hrun
  refine List.eq_nil_iff_forall_not_mem.mpr fun t ht => ?_
  obtain ⟨c, hc, hid, y, hy, hlookup, h⟩ := htracked b hb x hx hlive htail t ht
  obtain ⟨y', hy', hylive, hknown⟩ := hd.head_known hok hc hrun
  rw [← hid, hknown b hb x hx hlive] at hlookup
  obtain rfl := Option.some.inj hlookup
  exact h.not_drained hrun hd hc (Config.mem_processes hb hx) hlive hy' hylive

omit hd in
/-- What has been confirmed to a bank has been credited. -/
lemma Confirmed.credited {r d : String} (h : Confirmed b σ r d) :
    ∃ c ∈ cfg.banks, c.bankId = (W r).destBankId ∧ σ.CreditedAt c r d := by
  obtain ⟨rep, hrep, rfl, rfl⟩ := h
  obtain ⟨x, -, hev⟩ := System.mem_replied.mp hrep
  have ha : Answers cfg W σ := Answers.reach (fun _ _ h => h.noJoin) (fun _ _ h => h.workload)
    (fun _ _ h => h.ownPrecedents) hrun
  exact (ha.handled x rep hev).2

end Drained

/-- In a run of `Completing` steps with any crashes in which no head numbers an update with its counter at its
last value, once every message has been delivered and every crash announced, no tail keeps a transfer, and each
transfer that a bank has forwarded is confirmed to it and credited at all live servers of the destination
bank. -/
theorem forwarded_transfers_complete (hrun : Machine.Reach System.step32
      (fun σ l => Completing cfg W σ l ∧ σ.CounterFits l) cfg.init σ) (hd : σ.Drained cfg) :
    (∀ b ∈ cfg.banks, ∀ x ∈ b.servers, σ.crashed x = false → (σ.server x).istail = true →
      (σ.server x).sentList = []) ∧
    ∀ b ∈ cfg.banks, ∀ q ∈ σ.forwarded b, Confirmed b σ q.reqId q.accountId ∧
      ∃ c ∈ cfg.banks, c.bankId = (W q.reqId).destBankId ∧ σ.CreditedAt c q.reqId q.accountId := by
  have hrun := (System.reach_of_fits hrun fun _ _ h => h.2).mono fun _ _ h => h.1
  have hflow : Machine.Reach System.step (Flowing cfg W) cfg.init σ := hrun.mono fun _ _ h => h.toFlowing
  have hsent : ∀ b ∈ cfg.banks, ∀ x ∈ b.servers, σ.crashed x = false →
      (σ.server x).istail = true → (σ.server x).sentList = [] :=
    fun b hb x hx => hd.sentList_tail hflow hb hx
  refine ⟨hsent, fun b hb q hq => ?_⟩
  have hconv := hd.converged hflow hb
  obtain ⟨z, hz⟩ : ∃ z, (σ.chain b.bankId).getLast? = some z := by
    obtain ⟨y, hy, -⟩ := hd.head_known (fun _ _ h => h.noJoin) hb hrun
    exact Option.ne_none_iff_exists'.mp fun hnone => by
      rw [List.getLast?_eq_none_iff.mp hnone] at hy
      cases hy
  have hzchain := List.mem_of_getLast? hz
  have hzmem := hconv.order.subset hzchain
  have hzlive := (hconv.live z hzmem).mp hzchain
  have hpending : Pending b σ :=
    Pending.reach hb (hrun.mono fun _ _ h => ⟨h.noJoin, h.noStaleAck b hb⟩)
  have hconfirmed : Confirmed b σ q.reqId q.accountId := by
    by_contra hnot
    obtain ⟨t, ht, -⟩ := hpending.held q.reqId q.accountId ⟨q, hq, rfl, rfl⟩ hnot z hzmem hzlive
    rw [hsent b hb z hzmem hzlive ((hconv.tail z hzchain).mpr hz)] at ht
    cases ht
  exact ⟨hconfirmed, hconfirmed.credited hflow⟩

open Config in
/-- The tail dies before the reply reaches it, the client has repeated the transfer meanwhile. -/
theorem forwarded_transfers_complete_takeover :
    let W : String → Request := fun r => if r = "1" then sampleDeposit r 10 else sampleTransfer r 4
    let σ := Machine.after System.step32 (fun σ l => Completing twoBanks W σ l ∧ σ.CounterFits l) twoBanks.init
      ([request 1 (sampleDeposit "1" 10), hop 1 2, hop 2 3, hop 3 2, hop 2 1,
        request 1 (sampleTransfer "2" 4), hop 1 2, hop 2 3] ++ lose 3 ++ [hop 0 2, hop 3 11, hop 2 11,
        request 1 (sampleTransfer "2" 4), hop 1 2, hop 11 2, hop 2 1])
    (∀ b ∈ twoBanks.banks, ∀ x ∈ b.servers, σ.crashed x = false → (σ.server x).istail = true →
      (σ.server x).sentList = []) ∧
    ∀ b ∈ twoBanks.banks, ∀ q ∈ σ.forwarded b, Confirmed b σ q.reqId q.accountId ∧
      ∃ c ∈ twoBanks.banks, c.bankId = (W q.reqId).destBankId ∧
        σ.CreditedAt c q.reqId q.accountId :=
  forwarded_transfers_complete (Machine.reach_after (by decide +kernel)) (by decide +kernel)

/-- The tails of a bank wait for no transfer, and what they have debited has been confirmed to the bank and
credited at all live servers of the destination bank. -/
structure TransfersComplete (cfg : Config) (b : BankConfig) (σ : System) : Prop where
  none_waits : ∀ x ∈ b.servers, σ.crashed x = false → (σ.server x).istail = true →
    ∀ t ∈ (σ.server x).sentList, t.type ≠ .transfer
  credited : ∀ x ∈ b.servers, σ.crashed x = false → (σ.server x).istail = true →
    ∀ t, (σ.server x).Debited t → Confirmed b σ t.reqId t.destAccountId ∧
      ∃ c ∈ cfg.banks, c.bankId = t.destBankId ∧ σ.CreditedAt c t.reqId t.destAccountId

/-- In a run with any crashes in which transfers flow, no acknowledgement covers a debited transfer before the
reply has come, and no head numbers an update with its counter at its last value, every transfer is complete
once every message has been delivered and every crash announced. -/
theorem transfers_complete (hb : b ∈ cfg.banks) (hrun : Machine.Reach System.step32
      (fun σ l => Flowing cfg W σ l ∧ (∀ b ∈ cfg.banks, NoEarlyAck b σ l) ∧ σ.CounterFits l) cfg.init σ)
    (hd : σ.Drained cfg) : TransfersComplete cfg b σ := by
  have hrun := System.reach_of_fits hrun fun _ _ h => h.2.2
  have hflow : Machine.Reach System.step (Flowing cfg W) cfg.init σ := hrun.mono fun _ _ h => h.1
  have hempty (x : Address) (hx : x ∈ b.servers) (hlive : σ.crashed x = false)
      (htail : (σ.server x).istail = true) : (σ.server x).sentList = [] :=
    hd.sentList_tail hflow hb hx hlive htail
  constructor
  · intro x hx hlive htail t ht
    rw [hempty x hx hlive htail] at ht
    cases ht
  · intro x hx hlive htail t hdebited
    have hout : Outstanding b σ :=
      Outstanding.reach (fun _ _ h => h.1.noJoin) (fun _ _ h => h.2.1 b hb) hb hrun
    have hconfirmed : Confirmed b σ t.reqId t.destAccountId := by
      refine (hout x hx t hdebited).resolve_left fun ht => ?_
      rw [hempty x hx hlive htail] at ht
      cases ht
    refine ⟨hconfirmed, ?_⟩
    obtain ⟨hmem, htype, -⟩ := hdebited
    have hown := (Routed.reach (fun _ _ h => h.noJoin) (fun _ _ h => h.workload) hflow).hist_owned hb hx hmem
    obtain ⟨hsame, -⟩ := hown.of_type (by rw [htype]; simp)
    obtain ⟨-, -, -, -, -, -, hdest, -⟩ := Request.fields_of_content hsame
    rw [hdest]
    exact hconfirmed.credited hflow

open Config in
/-- The tail dies before the reply reaches it, and the next one gets the reply to what it has sent again. -/
theorem transfers_complete_takeover :
    let W : String → Request := fun r => if r = "1" then sampleDeposit r 10 else sampleTransfer r 4
    let chain : BankConfig := { bankId := "BOA", servers := [1, 2, 3].map localAddress }
    let σ := Machine.after System.step32
      (fun σ l => Flowing twoBanks W σ l ∧ (∀ b ∈ twoBanks.banks, NoEarlyAck b σ l) ∧ σ.CounterFits l)
      twoBanks.init
      ([request 1 (sampleDeposit "1" 10), hop 1 2, hop 2 3, hop 3 2, hop 2 1,
        request 1 (sampleTransfer "2" 4), hop 1 2, hop 2 3] ++ lose 3 ++ [hop 0 2, hop 3 11, hop 2 11,
        request 1 (sampleTransfer "2" 4), hop 1 2, hop 11 2, hop 2 1])
    (∃ t ∈ (σ.server (localAddress 2)).hist, (σ.server (localAddress 2)).Debited t) ∧
      TransfersComplete twoBanks chain σ :=
  ⟨by decide +kernel, transfers_complete List.mem_cons_self (Machine.reach_after (by decide +kernel))
    (by decide +kernel)⟩

open Config in
/-- The tail of the destination bank credits the transfer and dies before it answers, and the next tail answers
nothing: server 11 has debited the transfer and waits for ever. -/
theorem transfer_never_completes :
    ¬ ∀ W σ, Machine.Reach System.step32 (fun σ l => System.NoJoin σ l ∧ Workload twoBanks W σ l)
      twoBanks.init σ → σ.Drained twoBanks → ∀ b ∈ twoBanks.banks, TransfersComplete twoBanks b σ := by
  intro h
  let deposit : Request := { sampleDeposit "1" 10 with bankId := "CITI" }
  let transfer : Request :=
    { sampleTransfer "2" 4 with bankId := "CITI", destBankId := "BOA", destAccountId := "b" }
  let W : String → Request := fun r => if r = "1" then deposit else transfer
  let σ := Machine.after System.step32 (fun σ l => System.NoJoin σ l ∧ Workload twoBanks W σ l) twoBanks.init
    [request 11 deposit, request 11 transfer, hop 11 1, hop 1 2,
      .deliver (localAddress 2) (localAddress 3) (some 0), .detect "BOA" (localAddress 3), hop 0 2, hop 2 1]
  have hrun : Machine.Reach System.step32 (fun σ l => System.NoJoin σ l ∧ Workload twoBanks W σ l)
      twoBanks.init σ := Machine.reach_after (by decide +kernel)
  have hdrained : σ.Drained twoBanks := by decide +kernel
  let chain : BankConfig := { bankId := "CITI", servers := [11].map localAddress }
  have hwaits : ∃ t ∈ (σ.server (localAddress 11)).sentList, t.type = .transfer := by decide +kernel
  obtain ⟨t, ht, htype⟩ := hwaits
  exact (h W σ hrun hdrained chain (by decide)).none_waits (localAddress 11) (by decide) (by decide +kernel)
    (by decide +kernel) t ht htype

end ChainReplication
