import ChainReplication.Wraparound.Rounds

/-!
# Prefix order and acknowledged updates

What the propagation invariant says about one bank's chain: histories are ordered by prefix along
the chain, `sent_list_` covers what a successor may lack, forwarded updates never skip a number,
and what a client has been told is never lost.
-/

namespace ChainReplication

open scoped List

variable {cfg : Config} {b : BankConfig} {σ σ' σ₁ σ₂ : System} {l : Label}

/-! ### Prefix order -/

/-- The chain of a bank as the master records it. -/
def System.chain (σ : System) (bankId : String) : List Address :=
  ((σ.master.bankServerChain.lookup bankId).map (·.serverChain)).getD []

/-- Update propagation in the chain of the bank `b`. -/
structure Propagates (b : BankConfig) (σ : System) : Prop where
  /-- The master's chain holds every live server, in the configured order. -/
  chain : σ.chain b.bankId <+ b.servers ∧
    ∀ x ∈ b.servers, σ.crashed x = false → x ∈ σ.chain b.bankId
  /-- A history lists the updates by their numbers. -/
  numbered : ∀ x ∈ b.servers, (σ.server x).bankUpdateSeq = (σ.server x).hist.length ∧
    (σ.server x).hist.map (·.bankUpdateSeq) = List.range' 1 (σ.server x).hist.length
  /-- The history of a later server is a prefix of the history of an earlier one. -/
  ordered : ∀ i j, (σ.chain b.bankId).Precedes i j → σ.crashed i = false → σ.crashed j = false →
    (σ.server j).bodies <+: (σ.server i).bodies
  /-- `sent_list_` is the end of the history, under numbers that follow each other. -/
  suffix : ∀ i ∈ b.servers, σ.crashed i = false → (σ.server i).istail = false →
    (σ.server i).sentList <:+ (σ.server i).hist ∧
      (σ.server i).sentList.map (·.bankUpdateSeq) =
        List.range' ((σ.server i).bankUpdateSeq - (σ.server i).sentList.length + 1)
          (σ.server i).sentList.length
  /-- What a live server further down has not applied is still in `sent_list_`. -/
  inProcess : ∀ i j, (σ.chain b.bankId).Precedes i j → σ.crashed i = false →
    σ.crashed j = false → ∀ q ∈ (σ.server i).hist, q.body ∉ (σ.server j).bodies →
      q ∈ (σ.server i).sentList
  /-- The assertion on the next number holds for every update that waits for a live server. -/
  gapFree : ∀ y ∈ b.servers, σ.crashed y = false → (σ.server y).ishead = false →
    ∀ src q rest, σ.link src y = .request q :: rest →
      q.bankUpdateSeq ≤ (σ.server y).bankUpdateSeq ∨
        (σ.server y).bankUpdateSeq = q.bankUpdateSeq - 1

lemma Topology.chain (h : Topology cfg σ) (hb : b ∈ cfg.banks) :
    σ.chain b.bankId <+ b.servers ∧
      ∀ x ∈ b.servers, σ.crashed x = false → x ∈ σ.chain b.bankId := by
  obtain ⟨bsc, hlookup, hok⟩ := h.record b hb
  simp only [System.chain, hlookup, Option.map_some, Option.getD_some]
  refine ⟨hok.sub, fun x hx hlive => ?_⟩
  by_contra hnot
  rw [hok.dead x hx hnot] at hlive
  simp at hlive

/-- In every run without joins in which no head numbers an update with its counter at its last value, updates
propagate in the order of every chain. -/
theorem propagates (hb : b ∈ cfg.banks) (hrun : Machine.Reach System.step32
    (fun σ l => System.NoJoin σ l ∧ σ.CounterFits l) cfg.init σ) : Propagates b σ := by
  have hrun := System.reach_of_fits hrun fun _ _ h => h.2
  have ht := Topology.reach (fun _ _ h => h.1) hrun
  have hr := Replicated.reach (fun _ _ h => h.1) hrun
  have hchain := ht.chain hb
  refine ⟨hchain, ?_, ?_, ?_, ?_, ?_⟩
  · exact fun x _ => ⟨(ht.log x).counter, (ht.log x).seqs⟩
  · intro i j hij hi _
    exact hr.sub b hb i j (hij.of_sublist hchain.1) hi
  · intro i _ _ htail
    have hlog := ht.log i
    refine ⟨hlog.suffix htail, ?_⟩
    rw [hlog.counter]
    exact hlog.sent_seqs htail
  · intro i j hij hi hj q hq hnot
    have hij := hij.of_sublist hchain.1
    have hlog := ht.log i
    obtain ⟨hget, hpos, -⟩ := hlog.getElem? hq
    have htail := ht.tail_false_of_precedes hb hij hj
    have hbase := hr.window b hb i hij.left_mem j hij.right_mem hi htail hj
    refine hlog.mem_sent_of_lt htail hq ?_
    -- a number that the later server has reached would name `q` in its history
    by_contra hle
    refine hnot ?_
    have hlt : q.bankUpdateSeq - 1 < (σ.server j).bodies.length := by
      rw [ChainServer.length_bodies]
      omega
    have hj := List.prefix_iff_getElem?.mp (hr.sub b hb i j hij hi) _ hlt
    rw [ChainServer.bodies, List.getElem?_map, hget] at hj
    rw [Option.some.inj hj]
    exact List.getElem_mem hlt
  · intro y hy hlive _ src q rest hlink
    have hgap := hr.gapFree src y hlive (Config.ne_master hb hy)
    rw [hlink, seqs_cons] at hgap
    have hle : q.bankUpdateSeq ≤ (σ.server y).hist.length + 1 := hgap.1
    rw [(ht.log y).counter]
    omega

open Config in
/-- The head applies two updates, the internal server dies after forwarding the first one, and the
head sends both again to its new successor. -/
theorem propagates_after_internal_crash :
    Propagates { bankId := "BOA", servers := [1, 2, 3].map localAddress }
      (Machine.after System.step32 (fun σ l => System.NoJoin σ l ∧ σ.CounterFits l) twoBanks.init
        ([request 1 (sampleDeposit "1" 5), request 1 (sampleDeposit "2" 5), hop 1 2] ++ lose 2 ++
          [hop 2 3, hop 0 3, hop 3 0, hop 0 1])) :=
  propagates (by decide) (Machine.reach_after (by decide +kernel))

open Config in
/-- After 2³² - 2 rounds of deposits the head numbers two more, the second one with 0. `sent_list_` does not
hold them in the order of their numbers. -/
theorem propagates_wrapped : ∃ σ,
    Machine.run System.step32 System.NoJoin growingBank.init
      (deposits (2 ^ 32 - 2) ++ [request 1 (sampleDeposit "1" 5), request 1 (sampleDeposit "1" 5)]) = some σ ∧
    (σ.server (localAddress 1)).sentList.map (·.bankUpdateSeq) = [2 ^ 32 - 1, 0] ∧
    ¬ Propagates growingChain σ := by
  have hb : growingChain ∈ growingBank.banks := List.mem_cons_self
  obtain ⟨ω, hrun, h⟩ := InRounds.rounds (sampleDeposit "1" 5) hb rfl (fun ω l => System.NoJoin ω.system l)
    ⟨fun _ => rfl, fun _ => rfl, fun _ => rfl⟩ (show 2 ^ 32 - 2 < 2 ^ 32 by omega) rfl rfl
  obtain ⟨ω₁, r₁, hstep₁, -, hnumber₁, h₁⟩ := h.number hb rfl (sampleDeposit "1" 5) rfl rfl
  obtain ⟨ω₂, r₂, hstep₂, -, hnumber₂, h₂⟩ := h₁.number hb rfl (sampleDeposit "1" 5) rfl rfl
  have hlast : Machine.run Ordered.step32 (fun ω l => System.NoJoin ω.system l) ω
      [request 1 (sampleDeposit "1" 5), request 1 (sampleDeposit "1" 5)] = some ω₂ :=
    Machine.run_cons.mpr ⟨rfl, ω₁, hstep₁, Machine.run_cons.mpr ⟨rfl, ω₂, hstep₂, rfl⟩⟩
  have hrun := Ordered.run_system System.NoJoin (Machine.run_append.mpr ⟨ω, hrun, hlast⟩)
  have hsent : (ω₂.system.server (localAddress 1)).sentList.map (·.bankUpdateSeq) = [2 ^ 32 - 1, 0] := by
    rw [h₂.servers.numbered.2.2]
    simp [hnumber₁, hnumber₂, nextSeq]
  refine ⟨ω₂.system, hrun, hsent, fun hpropagates => ?_⟩
  have hlive := (h₂.live hb (List.mem_cons_self ..)).2
  have hsuffix := (hpropagates.suffix (localAddress 1) (List.mem_cons_self ..) hlive h₂.servers.head.2).2
  have hlength := congrArg List.length hsent
  rw [List.length_map] at hlength
  rw [hsent, hlength, h₂.servers.numbered.1] at hsuffix
  revert hsuffix
  decide

/-! ### Acknowledged updates -/

/-- An update is answered by a tail that has logged the answer. -/
lemma Topology.replied (ht : Topology cfg σ) {x : Address} {msg : Message}
    {L : Links Address Message} {out : List Packet} (taken : System.Taken σ x msg L)
    (hs : System.Serve σ x msg L out σ') {u : Request} (hp : .replyToClient u ∈ out)
    (htype : u.type ≠ .query) : u ∈ (σ'.server x).hist ∧ (σ'.server x).istail = true := by
  have ha := Replicated.serve_appends ht taken hs
  have hrole := hs.roleStep ht.toPlain taken
  have hp := hs.out_prefix.subset hp
  have hlogged : u ∈ (σ'.server x).hist ∧ (σ.server x).istail = true := by
    rcases ChainServer.handleMsg_replies (ht.extendingChain x) hp with hq | ⟨hq, rep, rfl⟩ | hq
    · exact absurd hq htype
    · exact ⟨(ha.hist x).subset ((ht.log x).mem_hist hq), ht.taken_reply taken⟩
    · rw [hs.server_self]
      exact hq
  exact ⟨hlogged.1, hrole.tail.mpr (Or.inl hlogged.2)⟩

/-- Every update that some server has answered is in the history of all live servers. -/
def AnsweredKept (cfg : Config) (σ : System) : Prop :=
  ∀ b ∈ cfg.banks, ∀ x ∈ b.servers, ∀ u, Event.sent x (.replyToClient u) ∈ σ.trace →
    u.type ≠ .query → ∀ z ∈ b.servers, σ.crashed z = false → u.body ∈ (σ.server z).bodies

namespace AnsweredKept

/-- The tail that answers has the shortest history of the live servers. -/
lemma step (h : AnsweredKept cfg σ) (ht : Topology cfg σ) (hr : Replicated cfg σ)
    (hcase : System.StepCase σ l σ') : AnsweredKept cfg σ' := by
  have ha := ht.appends hcase
  intro b hb x hx u hu htype z hz hlive
  have hne : x ≠ σ.master.addr := by
    rw [ht.master]
    exact Config.ne_master hb hx
  rcases hcase.sent_packet hne hu with hu | ⟨msg, L, out, taken, hs, hp⟩
  · exact (ha.bodies z).subset (h b hb x hx u hu htype z hz (ha.live hlive))
  · obtain ⟨hmem, htail⟩ := ht.replied taken hs hp htype
    have hsub := Replicated.serve_tail_shortest hr ht taken hs hb hx htail hz hlive
    exact hsub.subset (List.mem_map_of_mem hmem)

theorem reach {ok : System → Label → Prop} (hok : ∀ σ l, ok σ l → System.NoJoin σ l)
    (h : Machine.Reach System.step ok cfg.init σ) : AnsweredKept cfg σ := by
  have init : AnsweredKept cfg cfg.init := by
    intro b _ x _ u hu
    simp [Config.init] at hu
  refine h.invariant_of (J := fun σ => Topology cfg σ ∧ Replicated cfg σ)
    (fun _ hu => ⟨Topology.reach hok hu, Replicated.reach hok hu⟩) init ?_
  exact fun _ l _ h hJ _ hl hs => h.step hJ.1 hJ.2 (System.step_cases hJ.1.toPlain (hok _ l hl) hs)

end AnsweredKept

/-- An update whose reply has been sent stays in the history of every live server, and the history
behind the answers to queries only grows, whoever is the tail. -/
theorem answered_updates_kept (hb : b ∈ cfg.banks)
    (h₁ : Machine.Reach System.step System.NoJoin cfg.init σ₁)
    (h₂ : Machine.Reach System.step System.NoJoin σ₁ σ₂) :
    (∀ x ∈ b.servers, ∀ u, Event.sent x (.replyToClient u) ∈ σ₁.trace → u.type ≠ .query →
      ∀ z ∈ b.servers, σ₂.crashed z = false → u.body ∈ (σ₂.server z).bodies) ∧
    ∀ x ∈ b.servers, ∀ y ∈ b.servers, σ₁.crashed x = false → (σ₁.server x).istail = true →
      σ₂.crashed y = false → (σ₂.server y).istail = true →
        (σ₁.server x).bodies <+: (σ₂.server y).bodies := by
  have ht := Topology.reach (fun _ _ h => h) h₁
  have hr := Replicated.reach (fun _ _ h => h) h₁
  have ha := ht.appends_of_reach (fun _ _ h => h) h₂
  constructor
  · intro x hx u hu htype z hz hlive
    have hkept := AnsweredKept.reach (fun _ _ h => h) h₁ b hb x hx u hu htype z hz (ha.live hlive)
    exact (ha.bodies z).subset hkept
  · intro x hx y hy _ hxtail hylive _
    refine List.IsPrefix.trans ?_ (ha.bodies y)
    by_cases hyx : y = x
    · rw [hyx]
    · rcases List.precedes_total hy hx hyx with hyx | hxy
      · exact hr.sub b hb y x hyx (ha.live hylive)
      · have hdead := ha.crashed y (ht.tail x hxtail b hb y hxy)
        rw [hdead] at hylive
        simp at hylive

open Config in
/-- The tail answers an update and dies; the internal server takes over and answers queries. -/
theorem answered_updates_kept_after_takeover :
    let chain : BankConfig := { bankId := "BOA", servers := [1, 2, 3].map localAddress }
    let answer : List Label := [request 1 (sampleDeposit "1" 5), hop 1 2, hop 2 3]
    let σ₁ := twoBanks.after System.NoJoin answer
    let σ₂ := twoBanks.after System.NoJoin (answer ++ (lose 3 ++ [hop 0 2]))
    (∀ x ∈ chain.servers, ∀ u, Event.sent x (.replyToClient u) ∈ σ₁.trace → u.type ≠ .query →
      ∀ z ∈ chain.servers, σ₂.crashed z = false → u.body ∈ (σ₂.server z).bodies) ∧
    ∀ x ∈ chain.servers, ∀ y ∈ chain.servers, σ₁.crashed x = false →
      (σ₁.server x).istail = true → σ₂.crashed y = false → (σ₂.server y).istail = true →
        (σ₁.server x).bodies <+: (σ₂.server y).bodies := by
  intro chain answer σ₁ σ₂
  have h₁ : Machine.Reach System.step System.NoJoin twoBanks.init σ₁ :=
    reach_after (by decide +kernel)
  have h₂ : Machine.Reach System.step System.NoJoin σ₁ σ₂ := reach_after_append (by decide +kernel)
  exact answered_updates_kept (b := chain) (by decide) h₁ h₂

end ChainReplication
