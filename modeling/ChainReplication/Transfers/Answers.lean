import ChainReplication.System.Config
import ChainReplication.System.Inputs
import ChainReplication.Transfers.Conservation

/-!
# Replies to incoming transfers

A server answers a `TRANSFER_TO` from the precedent that `check_update_request` finds. As long as that is an
earlier copy of the same `TRANSFER_TO`, every reply is a `PROCESSED` one in the name of the transfer, and
all live servers of the destination bank have credited it.
-/

namespace ChainReplication

variable {cfg : Config} {W : String → Request} {b c : BankConfig} {σ σ' : System} {l : Label}
  {x y z u : Address} {msg : Message} {r d : String} {rep : Reply} {L : Links Address Message}
  {out : List Packet}

namespace ChainServer

variable {s : ChainServer} {e : Effect} {req : Request}

/-- Whatever `check_update_request` compares the request with is another copy of it. -/
def OwnPrecedent (s : ChainServer) (req : Request) : Prop :=
  ∀ it ∈ s.precedent req, it.reqId = req.reqId ∧ it.accountId = req.accountId ∧ reqConsistent req it = true

instance (s : ChainServer) (req : Request) : Decidable (s.OwnPrecedent req) :=
  inferInstanceAs (Decidable (∀ it ∈ s.precedent req, _))

/-- The request has been answered in its own name with `PROCESSED`, and it is credited. -/
structure AnsweredOwn (s : ChainServer) (q : Request) : Prop where
  reqId : q.reply.reqId = q.reqId
  accountId : q.reply.accountId = q.accountId
  outcome : q.reply.outcome = .processed
  credited : s.Credited q.reqId q.accountId

/-- Every incoming transfer has been answered so. -/
structure AnswersOwn (s : ChainServer) : Prop where
  stored : ∀ k it, s.processedMap.lookup k = some it → it ∈ s.hist ∧ it.key = k
  hist : ∀ q ∈ s.hist, q.type = .transferTo → s.AnsweredOwn q

/-- An incoming transfer without a precedent is credited. -/
lemma answered_own_of_none {s' : ChainServer} (hmem : s.answered req ∈ s'.hist)
    (htype : req.type = .transferTo) (hprecedent : s.precedent req = none) :
    s'.AnsweredOwn (s.answered req) := by
  have hdebits : ¬ (s.number req).Debits := by simp [Request.Debits, number, htype]
  have hreply : (s.answered req).reply =
      { reqId := req.reqId, outcome := .processed, accountId := req.accountId,
        balance := (s.number req).newBalance (s.balance req.accountId) } := by
    rw [answered_of_none hprecedent, Request.answerNew]
    simp only [hdebits, false_and, if_false]
    rfl
  have happlied : (s.answered req).Applied :=
    ⟨answered_newreq.mpr hprecedent, by rw [hreply]⟩
  refine ⟨?_, ?_, happlied.2, s.answered req, hmem, by rwa [answered_type], happlied, rfl, rfl⟩
  · rw [hreply, answered_reqId]
  · rw [hreply, answered_accountId]

theorem AnswersOwn.step (h : s.AnswersOwn) (hlog : s.LogWf) (hstep : LogStep s msg e)
    (hown : ∀ req, msg = .request req → req.type = .transferTo → s.OwnPrecedent req) :
    e.server.AnswersOwn := by
  have old {q : Request} (hq : q ∈ s.hist) (htype : q.type = .transferTo) : e.server.AnsweredOwn q := by
    obtain ⟨hid, hacc, hout, hcredited⟩ := h.hist q hq htype
    exact ⟨hid, hacc, hout, hcredited.mono hstep.prefix_hist.subset⟩
  have same (hist : e.server.hist = s.hist) : e.server.AnswersOwn :=
    ⟨hstep.stored hlog h.stored, fun q hq => old (hist ▸ hq)⟩
  have grown {req : Request} (hmsg : msg = .request req)
      (hist : e.server.hist = s.hist ++ [s.answered req]) : e.server.AnswersOwn := by
    have hmem : s.answered req ∈ e.server.hist := by rw [hist]; simp
    refine ⟨hstep.stored hlog h.stored, fun q hq htype => ?_⟩
    rw [hist, List.mem_append, List.mem_singleton] at hq
    rcases hq with hq | rfl
    · exact old hq htype
    · rw [answered_type] at htype
      cases hprecedent : s.precedent req with
      | none => exact answered_own_of_none hmem htype hprecedent
      | some it =>
        -- the reply is that of the earlier copy
        obtain ⟨hid, hacc, hcons⟩ := hown req hmsg htype it hprecedent
        obtain ⟨hit, -⟩ := precedent_mem h.stored hlog hprecedent
        have hittype : it.type = .transferTo := by
          simp only [reqConsistent, Bool.and_eq_true, decide_eq_true_eq] at hcons
          exact hcons.1.1.1.1.symm.trans htype
        obtain ⟨hrid, hracc, hout, hcredited⟩ := old hit hittype
        have hreply : (s.answered req).reply = it.reply := by
          have hcons : reqConsistent (s.number req) it = true := hcons
          rw [answered_of_precedent hprecedent, Request.answerFrom, if_pos hcons]
        rw [hid] at hrid hcredited
        rw [hacc] at hracc hcredited
        refine ⟨?_, ?_, ?_, ?_⟩
        · rw [hreply, answered_reqId, hrid]
        · rw [hreply, answered_accountId, hracc]
        · rw [hreply, hout]
        · rwa [answered_reqId, answered_accountId]
  cases hstep with
  | keep hist => exact same hist
  | ack hist => exact same hist
  | toBeTail hist => exact same hist
  | reply hist => exact same hist
  | resend hist => exact same hist
  | relay type tail next hist => exact grown rfl hist
  | answer type tail next hist => exact grown rfl hist

end ChainServer

namespace System

/-- A server that handles a `TRANSFER_TO` compares it with nothing but copies of it. -/
def OwnPrecedents (σ : System) (l : Label) : Prop :=
  ∀ e ∈ σ.delivery l, ∀ q ∈ e.2.request?, q.type = .transferTo → (σ.server e.1).OwnPrecedent q

instance (σ : System) (l : Label) : Decidable (OwnPrecedents σ l) :=
  inferInstanceAs (Decidable (∀ e ∈ σ.delivery l, _))

/-- All live servers of the bank have credited the transfer. -/
def CreditedAt (σ : System) (c : BankConfig) (r d : String) : Prop :=
  ∀ z ∈ c.servers, σ.crashed z = false → (σ.server z).Credited r d

instance (σ : System) (c : BankConfig) (r d : String) : Decidable (σ.CreditedAt c r d) :=
  inferInstanceAs (Decidable (∀ z ∈ c.servers, _))

/-- The reply says `PROCESSED`, and the destination bank has credited the transfer. -/
def Backed (cfg : Config) (W : String → Request) (σ : System) (rep : Reply) : Prop :=
  rep.outcome = .processed ∧
    ∃ c ∈ cfg.banks, c.bankId = (W rep.reqId).destBankId ∧ σ.CreditedAt c rep.reqId rep.accountId

lemma Backed.mono (h : Backed cfg W σ rep) (ha : Appends σ σ') : Backed cfg W σ' rep := by
  obtain ⟨hout, c, hc, hid, hcredited⟩ := h
  refine ⟨hout, c, hc, hid, fun z hz hlive => ?_⟩
  exact (hcredited z hz (ha.live hlive)).mono (ha.hist z).subset

end System

/-- The replies on their way and those that have been handled are backed by credits. -/
structure Answers (cfg : Config) (W : String → Request) (σ : System) : Prop where
  server : ∀ x, (σ.server x).AnswersOwn
  link : ∀ u y rep, .reply rep ∈ σ.link u y → σ.Backed cfg W rep
  handled : ∀ x rep, .handled x (.reply rep) ∈ σ.trace → σ.Backed cfg W rep

namespace Answers

lemma init : Answers cfg W cfg.init := by
  refine ⟨?_, ?_, ?_⟩
  · intro x
    exact Config.initServer_cases (P := ChainServer.AnswersOwn) x ⟨by simp, by simp⟩
      fun _ _ _ => ⟨by simp, by simp⟩
  · intro u y rep hrep
    cases hrep
  · intro x rep hrep
    cases hrep

section Serve

variable (h : Answers cfg W σ) (ht : Topology cfg σ) (taken : System.Taken σ x msg L)
  (hs : System.Serve σ x msg L out σ')
include h ht taken hs

lemma serve_server (hown : ∀ req, msg = .request req → req.type = .transferTo →
    (σ.server x).OwnPrecedent req) (y : Address) : (σ'.server y).AnswersOwn := by
  by_cases hyx : y = x
  · subst hyx
    rw [hs.server_self]
    exact (h.server y).step (ht.log y) (taken.logStep ht.toPlain) hown
  · rw [hs.server_of_ne hyx]
    exact h.server y

omit h in
/-- What a tail answers, all live servers of its bank have credited. -/
lemma credited_of_tail (hr : Replicated cfg σ) (hserver : ∀ y, (σ'.server y).AnswersOwn)
    (hc : c ∈ cfg.banks) (hx : x ∈ c.servers) (htail : (σ'.server x).istail = true) {q : Request}
    (hq : q ∈ (σ'.server x).hist) (htype : q.type = .transferTo) :
    σ'.CreditedAt c q.reqId q.accountId := by
  intro z hz hlive
  have hsub := hr.serve_tail_shortest ht taken hs hc hx htail hz hlive
  obtain ⟨q', hq', hbody⟩ := List.mem_map.mp (hsub.subset (List.mem_map_of_mem hq))
  obtain ⟨hid, htype', -, hacc, -⟩ := Request.fields_of_body hbody
  have hcredited := ((hserver z).hist q' hq' (htype'.trans htype)).credited
  rwa [hid, hacc] at hcredited

lemma serve_link (hr : Replicated cfg σ) (hr' : Routed cfg W σ')
    (hkeeps : (σ.server x).KeepsTransfers) (hserver : ∀ y, (σ'.server y).AnswersOwn)
    (ha : Appends σ σ') (hrep : .reply rep ∈ σ'.link u y) : σ'.Backed cfg W rep := by
  rcases Routed.serve_dispatch ht taken hs hrep with hrep | ⟨rfl, hdispatch⟩
  · exact (h.link u y rep hrep).mono ha
  · cases hdispatch with
    | @answer req asked type tail hist =>
      have htype : ((σ.server u).answered req).type = .transferTo := by rwa [ChainServer.answered_type]
      obtain ⟨c, hc, hu, hown⟩ := hr'.hist u _ hist
      obtain ⟨-, -, -, -, -, -, hdest⟩ := hown.of_credit htype
      obtain ⟨hid, hacc, hout, -⟩ := (hserver u).hist _ hist htype
      have htail := (hs.roleStep ht.toPlain taken).tail.mpr (Or.inl tail)
      refine ⟨hout, c, hc, ?_, ?_⟩
      · rw [hid, hdest]
      · rw [hid, hacc]
        exact credited_of_tail ht taken hs hr hserver hc hu htail hist htype
    | release asked mem type =>
      subst asked
      have htransfer := hkeeps (ht.taken_reply taken) _ mem
      rw [type] at htransfer
      cases htransfer
    | other request reply => exact absurd rfl (reply rep)

end Serve

lemma step (h : Answers cfg W σ) (ht : Topology cfg σ) (hr : Replicated cfg σ) (hr' : Routed cfg W σ')
    (hkeeps : ∀ x, (σ.server x).KeepsTransfers) (hguard : σ.OwnPrecedents l)
    (hcase : System.StepCase σ l σ') : Answers cfg W σ' := by
  have ha := ht.appends hcase
  have handled : ∀ x rep, .handled x (.reply rep) ∈ σ'.trace → σ'.Backed cfg W rep := by
    intro y rep hev
    rcases hcase.handled hev with hev | ⟨L, out, taken, -⟩
    · exact (h.handled y rep hev).mono ha
    · rcases taken.origin with ⟨src, hrep⟩ | ⟨_, heq, -⟩
      · exact (h.link src y rep hrep).mono ha
      · cases heq
  -- a step of the master or a crash brings no reply
  have idle (hserver : σ'.server = σ.server)
      (hlink : ∀ u y rep, .reply rep ∈ σ'.link u y → .reply rep ∈ σ.link u y) : Answers cfg W σ' := by
    refine ⟨?_, fun u y rep hrep => (h.link u y rep (hlink u y rep hrep)).mono ha, handled⟩
    rw [hserver]
    exact h.server
  cases hcase with
  | @serve _ x msg L out _ taken serve hdelivery =>
    have hserver := h.serve_server ht taken serve (by
      rintro req rfl htype
      exact hguard _ hdelivery req rfl htype)
    refine ⟨hserver, ?_, handled⟩
    exact fun u y rep => h.serve_link ht taken serve hr hr' (hkeeps x) hserver ha
  | crash => exact idle rfl fun _ _ _ hrep => hrep
  | relink live head =>
    refine idle rfl fun u y rep hrep => ?_
    simp only [System.emit, Links.mem_send] at hrep
    rcases hrep with hrep | ⟨-, hrep⟩
    · exact Links.mem_of_mem_recv _ _ _ hrep
    · simp at hrep
  | ignore => exact idle rfl fun _ _ _ hrep => Links.mem_of_mem_recv _ _ _ hrep
  | detect live dead lookup mem case =>
    refine idle rfl fun u y rep hrep => ?_
    simp only [System.emit, Links.mem_send] at hrep
    rcases hrep with hrep | ⟨-, hrep⟩
    · exact hrep
    · obtain ⟨p, hp, htcp⟩ := List.mem_filterMap.mp hrep
      cases case.notice hp htcp

theorem reach {ok : System → Label → Prop} (hok : ∀ σ l, ok σ l → System.NoJoin σ l)
    (hwork : ∀ σ l, ok σ l → Workload cfg W σ l) (hown : ∀ σ l, ok σ l → σ.OwnPrecedents l)
    (hrun : Machine.Reach System.step ok cfg.init σ) : Answers cfg W σ := by
  refine hrun.invariant_of (J := fun τ => Topology cfg τ ∧ Replicated cfg τ ∧ Routed cfg W τ ∧
    ∀ x, (τ.server x).KeepsTransfers) ?_ init ?_
  · intro τ hτ
    exact ⟨Topology.reach hok hτ, Replicated.reach hok hτ, Routed.reach hok hwork hτ,
      fun x => (carriesOnce_of_reach (hτ.mono hok) "" "" x).1⟩
  · rintro τ l τ' h ⟨ht, hr, -, hkeeps⟩ ⟨-, -, hr', -⟩ hl hs
    exact h.step ht hr hr' hkeeps (hown _ _ hl) (System.step_cases ht.toPlain (hok _ _ hl) hs)

end Answers

/-- As long as the servers compare a `TRANSFER_TO` with nothing but copies of it, every reply between banks,
on its way or handled, says `PROCESSED`, and all live servers of the destination bank have credited the
transfer. -/
theorem replies_credited (hrun : Machine.Reach System.step
    (fun σ l => System.NoJoin σ l ∧ Workload cfg W σ l ∧ σ.OwnPrecedents l) cfg.init σ) :
    (∀ u y rep, .reply rep ∈ σ.link u y → σ.Backed cfg W rep) ∧
      ∀ x rep, .handled x (.reply rep) ∈ σ.trace → σ.Backed cfg W rep := by
  have h : Answers cfg W σ := Answers.reach (fun _ _ h => h.1) (fun _ _ h => h.2.1)
    (fun _ _ h => h.2.2) hrun
  exact ⟨h.link, h.handled⟩

open Config in
/-- The head of the destination bank has credited the transfer, and the repeated `TRANSFER_TO` of the next
tail gets the same reply. -/
theorem replies_credited_takeover :
    let W : String → Request := fun r => if r = "1" then sampleDeposit r 10 else sampleTransfer r 4
    let σ := twoBanks.after
      (fun σ l => System.NoJoin σ l ∧ Workload twoBanks W σ l ∧ σ.OwnPrecedents l)
      ([request 1 (sampleDeposit "1" 10), hop 1 2, hop 2 3, request 1 (sampleTransfer "2" 4), hop 1 2,
        hop 2 3] ++ lose 3 ++ [hop 0 2, hop 3 11, hop 2 11, hop 11 2])
    (∀ u y rep, .reply rep ∈ σ.link u y → σ.Backed twoBanks W rep) ∧
      ∀ x rep, .handled x (.reply rep) ∈ σ.trace → σ.Backed twoBanks W rep :=
  replies_credited (reach_after (by decide +kernel))

end ChainReplication
