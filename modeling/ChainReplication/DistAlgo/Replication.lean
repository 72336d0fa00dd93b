import ChainReplication.DistAlgo.Ledger
import ChainReplication.DistAlgo.Ordered

/-!
# Replication in the DistAlgo system

Every server has the accounts and histories of the ledger of its updates, and every reply is what the ledger
answers at a point that all live servers of the bank have passed.
-/

namespace ChainReplication.DistAlgo

variable {P : Type*} [DecidableEq P] {d : Deployment P} {b : BankSetup P} {σ τ : Network P}
  {p x y z c : P} {rep : Reply} {r req : Request P} {accountOf : String → String}

/-- Every request id is used for one account. -/
def Network.OneAccount (accountOf : String → String) (_ : Network P) : NetworkLabel P → Prop
  | .client _ _ req _ => req.type ≠ .query → accountOf req.reqId = req.accountId
  | _ => True

instance (accountOf : String → String) (σ : Network P) (l : NetworkLabel P) :
    Decidable (σ.OneAccount accountOf l) :=
  match l with
  | .client _ _ req _ => inferInstanceAs (Decidable (req.type ≠ .query → accountOf req.reqId = req.accountId))
  | .deliver _ _ _ | .crash _ | .detect _ _ => instDecidableTrue

/-- The reply is what the ledger answers once it has taken up the updates `seen`: to a query, or to the last of
them. -/
inductive AnsweredAt (rep : Reply) : List (Request P) → Prop
  | query {seen : List (Request P)} {req : Request P} (type : req.type = .query)
      (eq : rep = (Ledger.run seen).query req) : AnsweredAt rep seen
  | update {pre : List (Request P)} {r : Request P} (eq : rep = (Ledger.run pre).reply r) :
      AnsweredAt rep (pre ++ [r])

/-- Every live server of the bank has taken up the updates `seen` first. -/
def Passed (b : BankSetup P) (σ : Network P) (seen : List (Request P)) : Prop :=
  ∀ z ∈ b.servers, ¬ σ.Dead z → seen <+: σ.log z

/-- The reply is what the ledger answers at a point that every live server of the bank has passed. -/
def Answered (b : BankSetup P) (σ : Network P) (rep : Reply) : Prop :=
  ∃ seen, AnsweredAt rep seen ∧ Passed b σ seen

section Grows

variable {seen : List (Request P)} (hgrows : Grows σ τ)
include hgrows

omit [DecidableEq P]

lemma Passed.mono (h : Passed b σ seen) : Passed b τ seen :=
  fun z hz hlive => (h z hz (hgrows.live hlive)).trans (hgrows.log z)

lemma Answered.mono (h : Answered b σ rep) : Answered b τ rep := by
  obtain ⟨seen, hseen, hpassed⟩ := h
  exact ⟨seen, hseen, hpassed.mono hgrows⟩

end Grows

/-- What holds of accounts and replies. -/
structure Accounted (accountOf : String → String) (d : Deployment P) (σ : Network P) : Prop where
  books : ∀ b ∈ d.banks, ∀ p ∈ b.servers, (σ.server p).Bookkept accountOf (σ.log p)
  requests : ∀ x y req, .msg (.request req) ∈ σ.link x y → accountOf req.reqId = req.accountId
  replies : ∀ x y rep, .msg (.reply rep) ∈ σ.link x y → ∃ b ∈ d.banks, x ∈ b.servers ∧ Answered b σ rep

namespace Accounted

lemma init (accountOf : String → String) (d : Deployment P) : Accounted accountOf d d.init where
  books b hb p hp := by
    obtain ⟨l₁, l₂, hsplit⟩ := List.append_of_mem hp
    show (d.initServer p).Bookkept accountOf []
    rw [Deployment.initServer_split hb hsplit]
    refine ⟨Server.setup_sound _ _ _ _ _ _, List.forall_mem_nil _, fun a => rfl, fun a id => rfl⟩
  requests x y req hreq := by cases hreq
  replies x y rep hrep := by cases hrep

omit [DecidableEq P] in
/-- A crash, or what the master sends. -/
lemma congr (h : Accounted accountOf d σ) (hgrows : Grows σ τ) (hserver : τ.server = σ.server)
    (hlog : τ.log = σ.log)
    (hrequests : ∀ x y req, .msg (.request req) ∈ τ.link x y → .msg (.request req) ∈ σ.link x y)
    (hreplies : ∀ x y rep, .msg (.reply rep) ∈ τ.link x y → .msg (.reply rep) ∈ σ.link x y) :
    Accounted accountOf d τ where
  books b hb p hp := by
    rw [hserver, hlog]
    exact h.books b hb p hp
  requests x y req hreq := h.requests x y req (hrequests x y req hreq)
  replies x y rep hrep := by
    obtain ⟨b, hb, hx, hanswered⟩ := h.replies x y rep (hreplies x y rep hrep)
    exact ⟨b, hb, hx, hanswered.mono hgrows⟩

/-- What a tail answers. -/
lemma answered {dst : P} {taken : Option (Request P)} (hord' : Ordered d τ) (hgrows : Grows σ τ)
    (hb : b ∈ d.banks) (hdst : dst ∈ b.servers) (hrear : b.servers.Rear σ.Dead dst)
    (hlog : τ.log dst = σ.log dst ++ taken.toList)
    (hanswer : (∃ req, taken = none ∧ req.type = .query ∧ rep = (Ledger.run (σ.log dst)).query req) ∨
      ∃ r, taken = some r ∧ rep = (Ledger.run (σ.log dst)).reply r) : Answered b τ rep := by
  have hall (z : P) (hz : z ∈ b.servers) (hzlive : ¬ τ.Dead z) : τ.log dst <+: τ.log z := by
    by_cases hzd : z = dst
    · rw [hzd]
    · rcases List.precedes_total hz hdst hzd with hz | hz
      · exact hord'.prefixes b hb z dst hz hzlive
      · exact absurd (hrear z hz) (hgrows.live hzlive)
  rcases hanswer with ⟨req, rfl, htype, heq⟩ | ⟨r, rfl, heq⟩
  · rw [Option.toList_none, List.append_nil] at hlog
    exact ⟨_, .query htype heq, fun z hz hzlive => hlog ▸ hall z hz hzlive⟩
  · rw [Option.toList_some] at hlog
    exact ⟨_, .update heq, fun z hz hzlive => hlog ▸ hall z hz hzlive⟩

theorem step {l : NetworkLabel P} (htop : Topology d σ) (hord' : Ordered d τ)
    (h : Accounted accountOf d σ) (hl : σ.OneAccount accountOf l) (hcase : Network.StepCase σ l τ) :
    Accounted accountOf d τ := by
  have hgrows := hcase.grows
  have hnotices {link : Links P (Mail P)} {out : List (P × Notice P)} {m : Mail P} {x y : P}
      (hm : m ∈ link.send σ.masterProc (out.map fun p => (p.1, Mail.notice p.2)) x y)
      (hnot : ∀ notice, m ≠ .notice notice) : m ∈ link x y := by
    rcases (Links.mem_send _ _ _).mp hm with hm | ⟨-, hsent⟩
    · exact hm
    · obtain ⟨a, -, heq⟩ := List.mem_map.mp hsent
      exact absurd (Prod.mk.inj heq).2.symm (hnot a.2)
  cases hcase with
  | halt others sub => exact h.congr hgrows rfl rfl (fun x y req => sub x y _) fun x y rep => sub x y _
  | detect =>
    exact h.congr hgrows rfl rfl (fun x y req hm => hnotices hm (by simp)) fun x y rep hm => hnotices hm (by simp)
  | order =>
    exact h.congr hgrows rfl rfl (fun x y req hm => Links.mem_of_mem_recv _ _ _ (hnotices hm (by simp)))
      fun x y rep hm => Links.mem_of_mem_recv _ _ _ (hnotices hm (by simp))
  | @serve src dst m s out out' link crashed server alive origin handle sends ends =>
    have hlive : ¬ σ.Dead dst := by simp [Network.Dead, alive]
    obtain ⟨b, hb, hdst⟩ := htop.members dst hlive (htop.masterProc ▸ server)
    have hplaced := htop.placed b hb dst hdst
    have hcase := Server.handle_case hplaced.noExtension handle
    have hsub (x y : P) (m : Mail P) (hm : m ∈ link x y) : m ∈ σ.link x y := by
      rcases origin with ⟨-, rfl⟩ | ⟨-, rfl⟩
      · exact hm
      · exact Links.mem_of_mem_recv _ _ _ hm
    have hreq (req : Request P) (hm : m = .msg (.request req)) (htype : req.type ≠ .query) :
        accountOf req.reqId = req.accountId := by
      rcases origin with ⟨⟨client, server, req', k, rfl, heq, -⟩, -⟩ | ⟨⟨rest, hfront⟩, -⟩
      · obtain rfl := Msg.request.inj (Mail.msg.inj (hm.symm.trans heq))
        exact hl htype
      · refine h.requests src dst req ?_
        rw [hfront, hm]
        exact List.mem_cons_self
    obtain ⟨hbook, hreplies⟩ := (h.books b hb dst hdst).handle hplaced.noExtension
      (fun htail => (hplaced.tail htail).2) hreq handle
    refine ⟨?_, ?_, ?_⟩
    · intro b' hb' p hp
      dsimp only
      by_cases hpd : p = dst
      · rw [hpd, Function.update_self, Function.update_self]
        exact hbook
      · rw [Function.update_of_ne hpd, Function.update_of_ne hpd]
        exact h.books b' hb' p hp
    · intro x y req hm
      rcases (Links.mem_send _ _ _).mp hm with hm | ⟨-, hsent⟩
      · exact h.requests x y req (hsub x y _ hm)
      · exact hbook.owned req (hcase.mem_sent (sends.subset hsent))
    · intro x y rep hm
      rcases (Links.mem_send _ _ _).mp hm with hm | ⟨rfl, hsent⟩
      · obtain ⟨b', hb', hx, hanswered⟩ := h.replies x y rep (hsub x y _ hm)
        exact ⟨b', hb', hx, hanswered.mono hgrows⟩
      · obtain ⟨htail, hanswer⟩ := hreplies y rep (sends.subset hsent)
        exact ⟨b, hb, hdst, answered hord' hgrows hb hdst (hplaced.tail htail).1 (Function.update_self ..) hanswer⟩

end Accounted

namespace Network

theorem reach_accounted (hrun : Machine.Reach step (OneAccount accountOf) d.init σ) : Accounted accountOf d σ :=
  hrun.invariant_of (J := fun σ => Topology d σ ∧ Ordered d σ) (fun _ h => ⟨reach_topology h, reach_ordered h⟩)
    (Accounted.init accountOf d) fun _ _ _ h hJ hJ' hl hs => h.step hJ.1 hJ'.2 hl (step_cases hs)

/-- In every run in which a request id is used for one account, the balances of a server are those of the
ledger of its updates, and what it keeps under an account and an id is the first update there with its answer. -/
theorem books_of_log (hrun : Machine.Reach step (OneAccount accountOf) d.init σ) (hb : b ∈ d.banks)
    (hp : p ∈ b.servers) : (∀ a, (σ.server p).balance a = (Ledger.run (σ.log p)).balance a) ∧
    ∀ a id, (σ.server p).kept (σ.server p).sent a id = (Ledger.run (σ.log p)).first a id :=
  have hbooked := ((reach_accounted hrun).books b hb p hp).booked
  ⟨hbooked.balance, hbooked.kept⟩

/-- The state that the repair leaves, with all requests for one account. -/
def accountedSample : Network ℕ := Machine.after step (OneAccount fun _ => "a") sample.init sampleRepair

lemma reach_accountedSample : Machine.Reach step (OneAccount fun _ => "a") sample.init accountedSample :=
  Machine.reach_after (by decide +kernel)

theorem books_of_log_sample :
    (∀ a, (accountedSample.server 3).balance a = (Ledger.run (accountedSample.log 3)).balance a) ∧
    ∀ a id, (accountedSample.server 3).kept (accountedSample.server 3).sent a id =
      (Ledger.run (accountedSample.log 3)).first a id :=
  books_of_log reach_accountedSample (b := { bankId := "BOA", servers := [1, 2, 3], servers_ne_nil := by decide })
    List.mem_cons_self (by decide)

/-- A reply that a server has sent is what the ledger answers after some updates, to a query or to the last of
them, and from then on every live server of the bank starts with these. -/
theorem replies_of_ledger (hrun : Machine.Reach step (OneAccount accountOf) d.init σ)
    (hsent : .msg (.reply rep) ∈ σ.link x c) : ∃ b ∈ d.banks, x ∈ b.servers ∧ ∃ seen, AnsweredAt rep seen ∧
      ∀ τ, Machine.Reach step (OneAccount accountOf) σ τ → Passed b τ seen := by
  obtain ⟨b, hb, hx, seen, hseen, hpassed⟩ := (reach_accounted hrun).replies x c rep hsent
  exact ⟨b, hb, hx, seen, hseen, fun τ hlater => hpassed.mono (reach_grows hlater)⟩

theorem replies_of_ledger_sample :
    ∃ b ∈ sample.banks, 3 ∈ b.servers ∧ ∃ seen, AnsweredAt sampleReply seen ∧
      ∀ τ, Machine.Reach step (OneAccount fun _ => "a") accountedSample τ → Passed b τ seen :=
  replies_of_ledger (x := 3) (c := 100) reach_accountedSample (mem_of_mem_replies (by decide +kernel))

/-- A query at a live server of a bank is answered from all the updates that the server has taken up, and every
reply that the bank has sent before is the ledger's after a first part of the same updates. -/
theorem query_sees_answered (hrun : Machine.Reach step (OneAccount accountOf) d.init τ) (hb : b ∈ d.banks)
    (hz : z ∈ b.servers) (hlive : ¬ τ.Dead z) {client : P} {s : Server P} {out : List (P × Mail P)}
    (hquery : req.type = .query) (hhandle : (τ.server z).handle client (.msg (.request req)) = some (s, out)) :
    out = [(client, .msg (.reply ((Ledger.run (τ.log z)).query req)))] ∧
    ∀ σ, Machine.Reach step (OneAccount accountOf) d.init σ → Machine.Reach step (OneAccount accountOf) σ τ →
      ∀ x ∈ b.servers, ∀ c rep, .msg (.reply rep) ∈ σ.link x c →
        ∃ seen, AnsweredAt rep seen ∧ seen <+: τ.log z := by
  constructor
  · have hbooked := ((reach_accounted hrun).books b hb z hz).booked
    obtain ⟨acks, hacks, rfl⟩ := Server.posted_eq hhandle
    rw [Server.processReq, if_pos hquery] at hacks
    split_ifs at hacks
    obtain ⟨c', hc', rfl⟩ := hbooked.handleQuery hacks
    obtain rfl := Option.some.inj hc'
    rfl
  · intro σ hσ hlater x hx c rep hsent
    obtain ⟨b', hb', hx', seen, hseen, hpassed⟩ := (reach_accounted hσ).replies x c rep hsent
    obtain rfl := Deployment.bank_unique hb hb' hx hx'
    exact ⟨seen, hseen, hpassed.mono (reach_grows hlater) z hz hlive⟩

/-- Client 100 asks for the balance. -/
def sampleQuery : Request ℕ := { reqId := "BOA.c.3", type := .query, bankId := "BOA", accountId := "a", amount := 0 }

theorem query_sees_answered_sample :
    ∃ s out, (accountedSample.server 3).handle 100 (.msg (.request sampleQuery)) = some (s, out) ∧
      out = [(100, .msg (.reply ((Ledger.run (accountedSample.log 3)).query sampleQuery)))] ∧
      ∀ σ, Machine.Reach step (OneAccount fun _ => "a") sample.init σ →
        Machine.Reach step (OneAccount fun _ => "a") σ accountedSample →
        ∀ x ∈ [1, 2, 3], ∀ c rep, .msg (.reply rep) ∈ σ.link x c →
          ∃ seen, AnsweredAt rep seen ∧ seen <+: accountedSample.log 3 := by
  have hsome : ((accountedSample.server 3).handle 100 (.msg (.request sampleQuery))).isSome = true := by
    decide +kernel
  obtain ⟨⟨s, out⟩, hhandle⟩ := Option.isSome_iff_exists.mp hsome
  exact ⟨s, out, hhandle, query_sees_answered (z := 3)
    (b := { bankId := "BOA", servers := [1, 2, 3], servers_ne_nil := by decide }) reach_accountedSample
    List.mem_cons_self (by decide) (by decide +kernel) rfl hhandle⟩

end Network

end ChainReplication.DistAlgo
