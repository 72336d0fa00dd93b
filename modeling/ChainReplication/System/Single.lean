import ChainReplication.System.Consistency
import ChainReplication.System.Links
import ChainReplication.System.Inputs
import ChainReplication.System.Observed
import ChainReplication.Extension.Counter
import ChainReplication.Server.Single

/-!
# A chain without failures

While every server of a chain runs, only the first numbers updates and only the last answers. What the
last server answers is what a chain of one server answers to the same requests in the order in which the
last server has taken them up.
-/

namespace ChainReplication

open scoped List

variable {cfg : Config} {b : BankConfig} {σ σ' : System} {l : Label} {t x y : Address}

/-! ### The simulation -/

/-- A server that has handled the requests `reqs` alone is where the tail `t` is, has sent the same
replies, and has carried out the updates in the tail's history. -/
structure Simulated (t : Address) (s : ChainServer) (σ : System) : Prop where
  istail : (σ.server t).istail = true
  ok : (s.receiveRequests (accepted t σ.trace)).ok = true
  matched : ChainServer.Matches (s.receiveRequests (accepted t σ.trace)).server (σ.server t)
  replies : (s.receiveRequests (accepted t σ.trace)).replies = repliesOf t σ.trace
  updates : (accepted t σ.trace).filter (·.type ≠ .query) = (σ.server t).bodies

namespace Simulated

variable {s : ChainServer} {msg : Message} {L : Links Address Message} {out : List Packet}

/-- Steps that the tail has no part in. -/
lemma frame (h : Simulated t s σ) (server : σ'.server t = σ.server t)
    (haccepted : accepted t σ'.trace = accepted t σ.trace)
    (hreplies : repliesOf t σ'.trace = repliesOf t σ.trace) : Simulated t s σ' := by
  constructor
  · rw [server]
    exact h.istail
  · rw [haccepted]
    exact h.ok
  · rw [haccepted, server]
    exact h.matched
  · rw [haccepted, hreplies]
    exact h.replies
  · rw [haccepted, server]
    exact h.updates

/-- The tail takes up a message and the single server what the tail accepts of it. -/
lemma serve (h : Simulated t s σ) (hs : System.Serve σ t msg L out σ')
    (hlive : σ'.crashed t = false) (htail : (σ'.server t).istail = true) {reqs : List Request}
    (haccepted : accepted t (σ.trace ++ [.handled t msg]) = accepted t σ.trace ++ reqs)
    (hbodies : (σ'.server t).bodies = (σ.server t).bodies ++ reqs.filter (·.type ≠ .query))
    {e : Effect} (he : (s.receiveRequests (accepted t σ.trace)).server.receiveRequests reqs = e)
    (hok : e.ok = true) (hreplies : e.replies = ((σ.server t).handleMsg σ.master.addr msg).replies)
    (hmatched : ChainServer.Matches e.server ((σ.server t).handleMsg σ.master.addr msg).server) :
    Simulated t s σ' := by
  obtain ⟨hout, -⟩ := hs.complete hlive
  have haccepted' : accepted t σ'.trace = accepted t σ.trace ++ reqs := by
    rw [hs.trace, accepted_serve, haccepted]
  have hsent : repliesOf t σ'.trace = repliesOf t σ.trace ++
      ((σ.server t).handleMsg σ.master.addr msg).replies := by
    rw [hs.trace, repliesOf_serve, hout]
    rfl
  have heffect : s.receiveRequests (accepted t σ.trace ++ reqs) =
      (s.receiveRequests (accepted t σ.trace)).andThen (·.receiveRequests reqs) :=
    ChainServer.receiveRequests_append reqs
  refine ⟨htail, ?_, ?_, ?_, ?_⟩
  · rw [haccepted', heffect, Effect.andThen, if_pos h.ok, he]
    exact hok
  · rw [haccepted', heffect, hs.server_self, Effect.andThen, if_pos h.ok, he]
    exact hmatched
  · rw [haccepted', hsent, heffect, ChainServer.replies_andThen h.ok, he, h.replies, hreplies]
  · rw [haccepted', List.filter_append, h.updates, hbodies]

section Serve

variable (h : Simulated t s σ) (ht : Topology cfg σ) (hsettled : (σ.server t).sentList = [])
  (taken : System.Taken σ t msg L) (hs : System.Serve σ t msg L out σ')
  (hlive : σ'.crashed t = false)
include h ht taken hs hlive

/-- The tail accepts nothing of the message: its stores stay and it answers nobody. -/
lemma serve_nothing (haccepted : accepted t (σ.trace ++ [.handled t msg]) = accepted t σ.trace)
    (hhist : ((σ.server t).handleMsg σ.master.addr msg).server.hist = (σ.server t).hist)
    (hidle : ((σ.server t).handleMsg σ.master.addr msg).server.accountMap =
        (σ.server t).accountMap ∧
      ((σ.server t).handleMsg σ.master.addr msg).server.processedMap =
        (σ.server t).processedMap ∧
      ((σ.server t).handleMsg σ.master.addr msg).server.bankUpdateSeq =
        (σ.server t).bankUpdateSeq ∧
      ((σ.server t).handleMsg σ.master.addr msg).replies = []) : Simulated t s σ' := by
  have htail := (hs.roleStep ht.toPlain taken).tail.mpr (Or.inl h.istail)
  obtain ⟨haccounts, hprocessed, hseq, hnone⟩ := hidle
  have hm := h.matched
  have hsame : accepted t (σ.trace ++ [.handled t msg]) = accepted t σ.trace ++ [] := by
    rw [haccepted, List.append_nil]
  have hbodies : (σ'.server t).bodies = (σ.server t).bodies := by
    rw [ChainServer.bodies, hs.server_self, hhist, ChainServer.bodies]
  apply h.serve hs hlive htail hsame (hbodies.trans (List.append_nil _).symm) rfl rfl hnone.symm
  exact ⟨hm.head, hm.tail, hm.extendingChain, hm.sentList, hm.accountMap.trans haccounts.symm,
    hm.processedMap.trans hprocessed.symm, hm.bankUpdateSeq.trans hseq.symm⟩

include hsettled in
lemma serve_other (hreq : ∀ q, msg ≠ .request q) : Simulated t s σ' := by
  apply h.serve_nothing ht taken hs hlive (accepted_handled_other _ hreq)
  · cases taken.logStep ht.toPlain with
    | relay | answer => exact absurd rfl (hreq _)
    | keep hist | ack hist | toBeTail hist | reply hist | resend hist => exact hist
  · exact ChainServer.handleMsg_idle hsettled (taken.plain ht.toPlain) hreq

lemma serve_query {req : Request} (hmsg : msg = .request req) (htype : req.type = .query) :
    Simulated t s σ' := by
  subst hmsg
  have htail := (hs.roleStep ht.toPlain taken).tail.mpr (Or.inl h.istail)
  obtain ⟨hok, hreplies, hmatched⟩ := h.matched.query h.istail htype
  have haccepted : accepted t (σ.trace ++ [.handled t (.request req)]) =
      accepted t σ.trace ++ [req] := by
    rw [accepted_handled, acceptNext, if_pos htype]
  apply h.serve hs hlive htail haccepted ?_ ChainServer.receiveRequests_singleton hok hreplies
    hmatched
  have hhist : (σ'.server t).hist = (σ.server t).hist := by
    rw [hs.server_self]
    cases taken.logStep ht.toPlain with
    | relay type | answer type => exact absurd htype type
    | keep hist => exact hist
  rw [ChainServer.bodies, hhist]
  simp [ChainServer.bodies, htype]

include hsettled in
lemma serve_update {req : Request} (hmsg : msg = .request req) (htype : req.type ≠ .query)
    (hplain : req.type ≠ .transfer) (hhead : (σ.server t).ishead = false) :
    Simulated t s σ' := by
  subst hmsg
  have htail := (hs.roleStep ht.toPlain taken).tail.mpr (Or.inl h.istail)
  have hok := (hs.complete hlive).2
  have hcounter := (ht.log t).counter
  have hcount : ((accepted t σ.trace).filter (·.type ≠ .query)).length =
      (σ.server t).bankUpdateSeq := by
    rw [h.updates, ChainServer.length_bodies, hcounter]
  by_cases hnext : req.bankUpdateSeq = (σ.server t).bankUpdateSeq + 1
  · obtain ⟨hok', hreplies, hmatched⟩ := h.matched.update h.istail hhead (ht.extendingChain t)
      hsettled htype hplain hnext
    have haccepted : accepted t (σ.trace ++ [.handled t (.request req)]) =
        accepted t σ.trace ++ [req.body] := by
      rw [accepted_handled, acceptNext, if_neg htype, if_pos (by rw [hcount, hnext])]
    apply h.serve hs hlive htail haccepted ?_ ChainServer.receiveRequests_singleton hok' hreplies
      hmatched
    have hbody : ((σ.server t).answered req).body = req.body := by
      rw [ChainServer.answered_body, ChainServer.number, ← hnext]
    rw [hs.server_self]
    cases taken.logStep ht.toPlain with
    | relay type tail =>
      rw [h.istail] at tail
      cases tail
    | answer type tail next hist =>
      rw [ChainServer.bodies, hist, List.map_append, List.map_singleton, hbody]
      simp [ChainServer.bodies, htype]
    | keep hist seq sent out ignored =>
      rcases ignored req rfl hok with hquery | hle
      · exact absurd hquery htype
      · omega
  · have haccepted : accepted t (σ.trace ++ [.handled t (.request req)]) = accepted t σ.trace := by
      rw [accepted_handled, acceptNext, if_neg htype, if_neg (by rw [hcount]; exact hnext)]
    have heffect : (σ.server t).handleMsg σ.master.addr (.request req) =
        { server := σ.server t } := by
      have hcase := ChainServer.receiveRequest_cases (σ.server t) req
      simp only [ChainServer.handleMsg] at hok ⊢
      generalize (σ.server t).receiveRequest req = e at hcase hok ⊢
      cases hcase with
      | query type => exact absurd type htype
      | refused why => cases hok
      | duplicate head seen => rfl
      | relayed type tail =>
        rw [h.istail] at tail
        cases tail
      | single type tail head =>
        rw [hhead] at head
        cases head
      | tail type tail head next => exact absurd next hnext
    apply h.serve_nothing ht taken hs hlive haccepted
    · rw [heffect]
    · rw [heffect]
      exact ⟨rfl, rfl, rfl, rfl⟩

end Serve

lemma init (hb : b ∈ cfg.banks) (hlast : b.servers.getLast? = some t) (id : String) (a : Address) :
    Simulated t (.single id a) cfg.init := by
  have hserver : cfg.init.server t = cfg.initServer t := rfl
  have ht : t ∈ b.servers := List.mem_of_getLast? hlast
  have htail : (cfg.init.server t).istail = true := by
    rw [hserver, Config.initServer_of_mem hb ht]
    exact decide_eq_true hlast
  refine ⟨htail, rfl, ?_, rfl, ?_⟩
  · rw [hserver, Config.initServer_of_mem hb ht]
    exact ⟨rfl, rfl, rfl, rfl, rfl, rfl, rfl⟩
  · rw [hserver, Config.initServer_of_mem hb ht]
    rfl

/-- The tail and the single server stay together while the whole chain lives. -/
lemma step (h : Simulated t s σ) (hb : b ∈ cfg.banks) (ht : Topology cfg σ)
    (hbank : BankInvariant b (fun req => req.type ≠ .transfer) ChainServer.Indexes σ)
    (hinput : UpdateInput b (fun req => req.type ≠ .transfer) σ l) (hmem : t ∈ b.servers)
    (hhead : (σ.server t).ishead = false) (hlive : σ'.crashed t = false)
    (hcase : System.StepCase σ l σ') : Simulated t s σ' := by
  have hmaster : σ.master.addr ≠ t := by
    rw [ht.master]
    exact (Config.ne_master hb hmem).symm
  cases hcase with
  | @serve _ x msg L out _ taken serve hdelivery =>
    by_cases hxt : x = t
    · subst hxt
      have hsettled := (hbank.server x hmem).settled h.istail
      by_cases hreq : ∃ q, msg = .request q
      · obtain ⟨q, rfl⟩ := hreq
        by_cases htype : q.type = .query
        · exact h.serve_query ht taken serve hlive rfl htype
        · have hplain := hbank.taken_request hdelivery hinput hmem htype
          exact h.serve_update ht hsettled taken serve hlive rfl htype hplain hhead
      · exact h.serve_other ht hsettled taken serve hlive fun q hq => hreq ⟨q, hq⟩
    · apply h.frame (serve.server_of_ne (Ne.symm hxt))
      · rw [serve.trace, accepted_serve_of_ne _ hxt]
      · rw [serve.trace, repliesOf_serve_of_ne _ hxt]
  | crash => exact h.frame rfl rfl rfl
  | relink => exact h.frame rfl (accepted_sent _ _ _) (repliesOf_sent_of_ne _ hmaster _)
  | ignore => exact h.frame rfl rfl rfl
  | detect => exact h.frame rfl (accepted_sent _ _ _) (repliesOf_sent_of_ne _ hmaster _)

theorem reach (hb : b ∈ cfg.banks) (hlast : b.servers.getLast? = some t)
    (hlen : 2 ≤ b.servers.length) (hrun : Machine.Reach System.step
      (fun σ l => System.NoJoin σ l ∧ UpdateInput b (fun req => req.type ≠ .transfer) σ l)
      cfg.init σ) (hlive : ∀ x ∈ b.servers, σ.crashed x = false) (id : String) (a : Address) :
    Simulated t (.single id a) σ := by
  have hmem : t ∈ b.servers := List.mem_of_getLast? hlast
  refine hrun.invariant_of (I := fun σ => (∀ x ∈ b.servers, σ.crashed x = false) →
    Simulated t (.single id a) σ) (J := fun σ => Topology cfg σ ∧
    BankInvariant b (fun req => req.type ≠ .transfer) ChainServer.Indexes σ) ?_
    (fun _ => init hb hlast id a) ?_ hlive
  · intro σ hrun
    exact ⟨Topology.reach (fun _ _ h => h.1) hrun,
      BankInvariant.reach ChainServer.indexes_invariant hb hrun⟩
  · intro σ l σ' h hJ _ hl hs hlive
    have hcase := System.step_cases hJ.1.toPlain hl.1 hs
    have ha := hJ.1.appends hcase
    have hhead : (σ.server t).ishead = false := by
      by_contra hhead
      obtain ⟨z, hz⟩ := Option.isSome_iff_exists.mp (List.isSome_head?.mpr (cfg.servers_ne_nil b hb))
      have hz := List.precedes_first_last (Config.servers_nodup hb) hz hlast hlen
      have hdead := hJ.1.head t (by simpa using hhead) b hb z hz
      rw [ha.live (hlive z hz.left_mem)] at hdead
      cases hdead
    exact (h fun x hx => ha.live (hlive x hx)).step hb hJ.1 hJ.2 hl.2 hmem hhead (hlive t hmem) hcase

end Simulated

/-! ### The chain and the single server -/

/-- When nothing is in flight between live servers, the last one has applied everything. -/
lemma length_le_of_drained (hb : b ∈ cfg.banks) (ht : Topology cfg σ) (hr : Replicated cfg σ)
    (hlinks : NamesLinks b σ) (hlive : ∀ x ∈ b.servers, σ.crashed x = false)
    (hdrained : ∀ x ∈ b.servers, ∀ y ∈ b.servers, σ.link x y = [])
    (hlast : b.servers.getLast? = some t) {l₁ l₂ : List Address}
    (hsplit : b.servers = l₁ ++ x :: l₂) :
    (σ.server x).hist.length ≤ (σ.server t).hist.length := by
  induction l₂ generalizing l₁ x with
  | nil =>
    rw [hsplit, List.getLast?_concat] at hlast
    rw [Option.some.inj hlast]
  | cons y l₂ ih =>
    have hxy : b.servers.Precedes x y := hsplit ▸ List.precedes_of_adjacent
    have hnext (w : Address) (hxw : b.servers.Precedes x w) : ¬ b.servers.Precedes w y :=
      List.not_between_of_adjacent hsplit (Config.servers_nodup hb) hxw
    have hnotLast : b.servers.getLast? ≠ some x :=
      fun hx => List.not_precedes_getLast (Config.servers_nodup hb) hx hxy
    have hlinked := ht.linked_succ hlinks hxy.left_mem hnotLast
    have hsucc : (σ.server x).succServerAddr = y := by
      have hmem : (σ.server x).succServerAddr ∈ b.servers := by
        obtain ⟨b', hb', hxs, -⟩ := hlinked
        obtain rfl := Config.bank_unique_servers hb hb' hxy.left_mem hxs.left_mem
        exact hxs.right_mem
      exact hlinked.eq_of_next hb hxy (hlive y hxy.right_mem) (hlive _ hmem)
        fun w hxw hwy => absurd hwy (hnext w hxw)
    have htail := ht.tail_false_of_precedes hb hxy (hlive y hxy.right_mem)
    have hcovered := hr.covered x (hlive x hxy.left_mem) htail
      (by rw [hsucc]; exact hlive y hxy.right_mem)
    rw [hsucc, hdrained x hxy.left_mem y hxy.right_mem] at hcovered
    have hsplit' : b.servers = (l₁ ++ [x]) ++ y :: l₂ := by simp [hsplit]
    exact le_trans hcovered (ih hsplit')

/-- The chain from `h` to `t` answers as a chain of one server does: the replies of `t` are the first replies of
a single server that handles the updates as `h` has numbered them and the queries where `t` has handled them,
and all of its replies once nothing is in flight in the chain. -/
structure RefinesSingle (b : BankConfig) (h t : Address) (σ : System) : Prop where
  updates : (σ.orderedRequests h t).filter (·.type ≠ .query) = (σ.server h).bodies
  queries : (σ.orderedRequests h t).filter (·.type = .query) = queriesOf t σ.trace
  replies : ∀ id a, repliesOf t σ.trace <+:
    ((ChainServer.single id a).receiveRequests32 (σ.orderedRequests h t)).replies
  drained : ∀ id a, (∀ x ∈ b.servers, ∀ y ∈ b.servers, σ.link x y = []) →
    repliesOf t σ.trace = ((ChainServer.single id a).receiveRequests32 (σ.orderedRequests h t)).replies

/-- A chain of at least two servers without failures, joins and transfers answers as a chain of one server does,
if no head numbers an update with its counter at its last value. -/
theorem chain_refines_single (hb : b ∈ cfg.banks) (hlen : 2 ≤ b.servers.length)
    (hrun : Machine.Reach System.step32 (fun σ l => System.NoJoin σ l ∧
      UpdateInput b (fun req => req.type ≠ .transfer) σ l ∧ σ.CounterFits l) cfg.init σ)
    (hlive : ∀ x ∈ b.servers, σ.crashed x = false) :
    ∀ h t, b.servers.head? = some h → b.servers.getLast? = some t → RefinesSingle b h t σ := by
  intro h t hfirst hlast
  have hfits := System.reach_of_fits hrun fun _ _ h => h.2.2
  have hcounted := System.Counted.reach (fun _ _ h => h.1) (fun _ _ h => h.2.2) hfits
  have hrun : Machine.Reach System.step (fun σ l => System.NoJoin σ l ∧
      UpdateInput b (fun req => req.type ≠ .transfer) σ l) cfg.init σ :=
    hfits.mono fun _ _ h => ⟨h.1, h.2.1⟩
  have ht := Topology.reach (fun _ _ h => h.1) hrun
  have hr := Replicated.reach (fun _ _ h => h.1) hrun
  have hlinks := NamesLinks.reach (fun _ _ h => h.1) hb hrun
  have hsim := Simulated.reach hb hlast hlen hrun hlive
  have hmem : h ∈ b.servers := List.mem_of_head? hfirst
  have hprefix : (σ.server t).bodies <+: (σ.server h).bodies := by
    have hht : b.servers.Precedes h t := List.precedes_first_last (Config.servers_nodup hb) hfirst hlast hlen
    exact hr.sub b hb h t hht (hlive h hmem)
  have hupdates : ∀ q ∈ (σ.server h).bodies, q.type ≠ .query := by
    intro q hq
    obtain ⟨p, hp, rfl⟩ := List.mem_map.mp hq
    exact (ht.log h).update p hp
  have hdrop {q : Request} (hq : q ∈ (σ.server h).bodies.drop (σ.server t).bodies.length) :
      q.type ≠ .query := hupdates q (List.mem_of_mem_drop hq)
  have hordered : (σ.orderedRequests h t).filter (·.type ≠ .query) = (σ.server h).bodies := by
    rw [System.orderedRequests, List.filter_append, (hsim "" .empty).updates,
      List.filter_eq_self.mpr fun q hq => decide_eq_true (hdrop hq)]
    exact List.prefix_iff_eq_append.mp hprefix
  -- the single server has a number for each of them
  have hwidth (id : String) (a : Address) :
      (ChainServer.single id a).receiveRequests32 (σ.orderedRequests h t) =
        (ChainServer.single id a).receiveRequests (σ.orderedRequests h t) := by
    refine ChainServer.receiveRequests32_eq rfl ?_
    have hzero : (ChainServer.single id a).bankUpdateSeq = 0 := rfl
    rw [hordered, ChainServer.length_bodies, ← (ht.log h).counter, hzero, Nat.zero_add]
    exact hcounted.server h
  refine ⟨hordered, ?_, fun id a => ?_, fun id a hdrained => ?_⟩
  · rw [System.orderedRequests, List.filter_append, accepted_queries,
      List.filter_eq_nil_iff.mpr fun q hq => by simpa using hdrop hq, List.append_nil]
  · rw [hwidth, ← (hsim id a).replies]
    exact ChainServer.replies_prefix (hsim id a).ok _
  · obtain ⟨l, hl⟩ := List.head?_eq_some_iff.mp hfirst
    have hle := length_le_of_drained hb ht hr hlinks hlive hdrained hlast
      (hl.trans (List.nil_append _).symm)
    have hnone : (σ.server h).bodies.drop (σ.server t).bodies.length = [] := by
      rw [List.drop_eq_nil_iff, ChainServer.length_bodies, ChainServer.length_bodies]
      exact hle
    rw [hwidth, System.orderedRequests, hnone, List.append_nil]
    exact (hsim id a).replies.symm

open Config in
/-- Two deposits under one request id that disagree, a query between them at the tail, and a third deposit
that the tail has not seen yet. -/
theorem chain_refines_single_underway :
    let chain : BankConfig := { bankId := "BOA", servers := [1, 2, 3].map localAddress }
    let σ := Machine.after System.step32 (fun σ l => System.NoJoin σ l ∧
        UpdateInput chain (fun req => req.type ≠ .transfer) σ l ∧ σ.CounterFits l) twoBanks.init
      [request 1 (sampleDeposit "1" 10), hop 1 2, hop 2 3,
        request 3 { sampleDeposit "q" 0 with type := .query }, request 1 (sampleDeposit "1" 7),
        hop 1 2, hop 2 3, request 1 (sampleDeposit "2" 5), hop 1 2]
    ∀ h t, chain.servers.head? = some h → chain.servers.getLast? = some t → RefinesSingle chain h t σ :=
  chain_refines_single (by decide) (by decide) (Machine.reach_after (by decide +kernel))
    (by decide +kernel)

open Config in
/-- After 2³² - 1 rounds of deposits the head numbers one more with 0. The tail ignores it, and the single
server answers it. -/
theorem chain_refines_single_wrapped : ∃ σ,
    Machine.run System.step32 (fun σ l => System.NoJoin σ l ∧
        UpdateInput growingChain (fun req => req.type ≠ .transfer) σ l)
      growingBank.init (deposits (2 ^ 32 - 1) ++ [request 1 (sampleDeposit "1" 5), hop 1 2]) = some σ ∧
    (∀ x y, σ.link x y = []) ∧ (repliesOf (localAddress 2) σ.trace).length = 2 ^ 32 - 1 ∧
    ¬ RefinesSingle growingChain (localAddress 1) (localAddress 2) σ := by
  have hb : growingChain ∈ growingBank.banks := List.mem_cons_self
  have hclient (ω : Ordered) : UpdateInput growingChain (fun req => req.type ≠ .transfer) ω.system
      (request 1 (sampleDeposit "1" 5)) := by
    rintro - _ ⟨⟩ - _ ⟨⟩ -
    simp [sampleDeposit]
  obtain ⟨ω, r, hrun, -, h⟩ := InRounds.overflow (sampleDeposit "1" 5) hb rfl
    (fun ω l => System.NoJoin ω.system l ∧
      UpdateInput growingChain (fun req => req.type ≠ .transfer) ω.system l)
    ⟨fun ω => ⟨rfl, hclient ω⟩, fun _ => ⟨rfl, by simp [UpdateInput, Label.isInternal, growingChain]⟩,
      fun _ => ⟨rfl, by simp [UpdateInput, Label.isInternal, growingChain]⟩⟩ rfl rfl
  have hlinks (x y : Address) : ω.system.link x y = [] := by simp [h.link, between]
  have hrun := Ordered.run_system (fun σ l => System.NoJoin σ l ∧
    UpdateInput growingChain (fun req => req.type ≠ .transfer) σ l) hrun
  rw [Ordered.init_system] at hrun
  refine ⟨ω.system, hrun, hlinks, h.answers, fun hrefines => ?_⟩
  have hdeposits : ∀ q ∈ ω.system.orderedRequests (localAddress 1) (localAddress 2), q.type = .deposit := by
    intro q hq
    rcases List.mem_append.mp hq with hq | hq
    · exact h.deposits.2 q hq
    · obtain ⟨p, hp, rfl⟩ := List.mem_map.mp (List.mem_of_mem_drop hq)
      exact h.servers.deposits p hp
  have hreplies := congrArg List.length (hrefines.drained "" .empty fun x _ y _ => hlinks x y)
  rw [h.answers, ChainServer.receiveRequests32_single rfl rfl rfl hdeposits, System.orderedRequests,
    List.length_append, List.length_drop, ChainServer.length_bodies, ChainServer.length_bodies,
    h.deposits.1, h.servers.numbered.2.1, h.servers.applied.2.1] at hreplies
  omega

end ChainReplication
