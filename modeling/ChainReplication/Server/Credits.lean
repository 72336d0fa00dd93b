import ChainReplication.Server.Agreement
import ChainReplication.Server.Balance
import Mathlib.Data.List.TakeWhile

/-!
# Answers to incoming transfers

A `TRANSFER_TO` that is answered as processed has been carried out, now or before: the reply that it
gets is that of a request with the same id for the same account. At the source only such a reply takes
a transfer out of `sent_list_`.
-/

namespace ChainReplication

namespace ChainServer

variable {owner : String → String} {s : ChainServer} {msg : Message} {e : Effect} {req : Request}
  {r a : String}

/-- An incoming transfer under the id has been carried out for the account. -/
def Credited (s : ChainServer) (r a : String) : Prop :=
  ∃ q ∈ s.hist, q.type = .transferTo ∧ q.Applied ∧ q.reqId = r ∧ q.accountId = a

instance (s : ChainServer) (r a : String) : Decidable (s.Credited r a) :=
  inferInstanceAs (Decidable (∃ q ∈ s.hist, _))

/-- The replies to incoming transfers say what has happened. -/
def AnswersCredits (s : ChainServer) : Prop :=
  ∀ q ∈ s.hist, q.type = .transferTo → q.reply.reqId = q.reqId ∧ q.reply.accountId = q.accountId ∧
    (q.reply.outcome = .processed → s.Credited q.reqId q.accountId)

lemma Credited.mono (h : s.Credited r a) {s' : ChainServer} (hist : s.hist ⊆ s'.hist) :
    s'.Credited r a := by
  obtain ⟨q, hq, h⟩ := h
  exact ⟨q, hist hq, h⟩

/-- A precedent of an incoming transfer has the same id and account when they are tied to each
other. -/
lemma same_of_precedent {it : Request} (hit : it.Assigned owner) (hreq : req.Assigned owner)
    (h : it.reqId = req.reqId ∨ it.key = req.key) :
    it.reqId = req.reqId ∧ it.accountId = req.accountId := by
  rcases h with hid | hkey
  · exact ⟨hid, by rw [hit.1, hreq.1, hid]⟩
  · exact (Request.key_eq_iff hit.2 hreq.2).mp hkey

theorem AnswersCredits.step (h : s.AnswersCredits) (hlog : s.LogWf)
    (hstored : ∀ k it, s.processedMap.lookup k = some it → it ∈ s.hist ∧ it.key = k)
    (hstep : LogStep s msg e)
    (hassigned : ∀ q ∈ e.server.hist, q.type = .transferTo → q.Assigned owner) :
    e.server.AnswersCredits := by
  have hsub := hstep.prefix_hist.subset
  have old {q : Request} (hq : q ∈ s.hist) (htype : q.type = .transferTo) :
      q.reply.reqId = q.reqId ∧ q.reply.accountId = q.accountId ∧
        (q.reply.outcome = .processed → e.server.Credited q.reqId q.accountId) := by
    obtain ⟨hid, hacc, hcredited⟩ := h q hq htype
    exact ⟨hid, hacc, fun hout => (hcredited hout).mono hsub⟩
  intro q hq htype
  rcases hstep.books with ⟨hist, -⟩ | ⟨req, hist, -⟩
  · rw [hist] at hq
    exact old hq htype
  · have hmem : s.answered req ∈ e.server.hist := by rw [hist]; simp
    rw [hist, List.mem_append, List.mem_singleton] at hq
    rcases hq with hq | rfl
    · exact old hq htype
    · rw [answered_reqId, answered_accountId]
      cases hprecedent : s.precedent req with
      | none =>
        have hnew := answered_of_none hprecedent
        refine ⟨?_, ?_, fun hout => ⟨s.answered req, hmem, htype, ⟨?_, hout⟩, by simp, by simp⟩⟩
        · rw [hnew, Request.answerNew]
          split_ifs <;> rfl
        · rw [hnew, Request.answerNew]
          split_ifs <;> rfl
        · exact answered_newreq.mpr hprecedent
      | some it =>
        have hfrom := answered_of_precedent hprecedent
        obtain ⟨hit, hsame⟩ := precedent_mem hstored hlog hprecedent
        have hreq := hassigned _ hmem htype
        rw [Request.Assigned, answered_reqId, answered_accountId] at hreq
        rw [answered_type] at htype
        rw [hfrom, Request.answerFrom]
        split_ifs with hcons
        · -- the reply is that of the earlier request, which is an incoming transfer too
          have hittype : it.type = .transferTo := by
            simp only [reqConsistent, Bool.and_eq_true, decide_eq_true_eq] at hcons
            exact hcons.1.1.1.1.symm.trans htype
          obtain ⟨hid, hacc⟩ := same_of_precedent (hassigned it (hsub hit) hittype) hreq hsame
          rw [← hid, ← hacc]
          exact old hit hittype
        · exact ⟨rfl, rfl, by simp⟩

/-- A reply takes out of `sent_list_` only what it confirms. -/
lemma mem_receiveTransferReply {rep : Reply} (hq : req ∈ s.sentList) :
    req ∈ (s.receiveTransferReply rep).server.sentList ∨
      rep.outcome = .processed ∧ req.reqId = rep.reqId ∧ req.destAccountId = rep.accountId := by
  unfold receiveTransferReply
  split_ifs with hout
  · exact Or.inl hq
  · by_cases hdone : req.reqId = rep.reqId ∧ req.destAccountId = rep.accountId
    · exact Or.inr ⟨not_not.mp hout, hdone⟩
    · refine Or.inl (List.mem_filter.mpr ⟨hq, ?_⟩)
      simpa using not_and_or.mp hdone

/-- A transfer that a server debits goes into `sent_list_`, and only its reply or an acknowledgement takes it
out. -/
lemma debited_cases {master : Address} {q : Request} (hext : s.extendingChain = false)
    (hmsg : msg.isExtend = false) (hq : q ∈ (s.handleMsg master msg).server.hist)
    (htype : q.type = .transfer) (happlied : q.Applied) :
    q ∈ (s.handleMsg master msg).server.sentList ∨ q ∈ s.hist ∧ (q ∈ s.sentList →
      (∃ rep, msg = .reply rep ∧ rep.outcome = .processed ∧ q.reqId = rep.reqId ∧
        q.destAccountId = rep.accountId) ∨
      ∃ a, msg = .acknowledge a ∧ q.bankUpdateSeq ≤ a.bankUpdateSeq) := by
  by_cases hsent : q ∈ (s.handleMsg master msg).server.sentList
  · exact Or.inl hsent
  · right
    have hlog : LogStep s msg (s.handleMsg master msg) := handleMsg_logStep hext hmsg
    cases hlog with
    | keep hist _ sent =>
      rw [hist] at hq
      rw [sent] at hsent
      exact ⟨hq, fun h => absurd h hsent⟩
    | relay _ _ _ hist _ sent =>
      rw [hist, List.mem_append, List.mem_singleton] at hq
      rw [sent, List.mem_append, List.mem_singleton, not_or] at hsent
      exact ⟨hq.resolve_right hsent.2, fun h => absurd h hsent.1⟩
    | answer _ _ _ hist _ sent =>
      rw [hist, List.mem_append, List.mem_singleton] at hq
      rw [sent, List.mem_append, not_or] at hsent
      rcases hq with hq | rfl
      · exact ⟨hq, fun h => absurd h hsent.1⟩
      · exact absurd (Request.mem_toForward.mpr ⟨rfl, htype, happlied⟩) hsent.2
    | @ack a _ hist _ sent =>
      rw [hist] at hq
      refine ⟨hq, fun h => Or.inr ⟨a, rfl, ?_⟩⟩
      rw [← List.takeWhile_append_dropWhile
        (p := fun it : Request => decide (it.bankUpdateSeq ≤ a.bankUpdateSeq)) (l := s.sentList),
        ← sent, List.mem_append] at h
      have hle := List.mem_takeWhile_imp (h.resolve_right hsent)
      exact of_decide_eq_true hle
    | toBeTail hist _ sent =>
      rw [hist] at hq
      rw [sent] at hsent
      exact ⟨hq, fun h => absurd (List.mem_filter.mpr ⟨h, decide_eq_true htype⟩) hsent⟩
    | @reply rep _ hist =>
      rw [hist] at hq
      exact ⟨hq, fun h => Or.inl ⟨rep, rfl, (mem_receiveTransferReply h).resolve_left hsent⟩⟩
    | resend hist _ sent =>
      rw [hist] at hq
      rw [sent] at hsent
      exact ⟨hq, fun h => absurd h hsent⟩

end ChainServer

end ChainReplication
