import ChainReplication.Server.Dedup
import Mathlib.Algebra.BigOperators.Group.List.Basic

/-!
# Balances and the log

The balance of an account is the sum of the changes that the history records for it.
-/

namespace ChainReplication

/-- What an answered request adds to the balance of the account `a`. -/
def Request.change (req : Request) (a : String) : ℚ :=
  if req.Applied ∧ req.accountId = a then if req.Debits then -req.amount else req.amount else 0

namespace ChainServer

variable {s : ChainServer} {msg : Message} {e : Effect} {req : Request} {a : String}

/-- Every balance is the sum of the changes in the history. -/
def Accounted (s : ChainServer) : Prop := ∀ a, s.balance a = (s.hist.map (·.change a)).sum

lemma answered_change (a : String) : (s.answered req).change a =
    if (s.answered req).Applied ∧ req.accountId = a then
      if req.Debits then -req.amount else req.amount
    else 0 := by
  have hbody := Request.fields_of_body (answered_body s req)
  have hamount : (s.answered req).amount = req.amount := hbody.2.2.2.2.1
  have hdebits : (s.answered req).Debits ↔ req.Debits := by
    unfold Request.Debits
    rw [answered_type]
  simp only [Request.change, answered_accountId, hamount, hdebits]

/-- An answer changes the balance of its account as the log says. -/
lemma balance_answered (a : String) :
    (s.accept.updateRequestReply (s.number req)).1.balance a =
      s.balance a + (s.answered req).change a := by
  have hsame : s.accept.balance = s.balance := rfl
  have hanswered : (s.accept.updateRequestReply (s.number req)).2 = s.answered req := rfl
  rw [balance_updateRequestReply, hanswered, answered_change, hsame]
  by_cases happlied : (s.answered req).Applied
  · have hnew : (s.number req).newBalance (s.balance (s.number req).accountId) =
        s.balance req.accountId + if req.Debits then -req.amount else req.amount := by
      have hdebits : (s.number req).Debits ↔ req.Debits := Iff.rfl
      simp only [Request.newBalance, hdebits]
      split_ifs
      · exact sub_eq_add_neg _ _
      · rfl
    rw [if_pos happlied, hnew]
    by_cases ha : req.accountId = a
    · subst ha
      simp only [happlied, true_and, if_true]
      exact Function.update_self ..
    · have hnot : ¬ ((s.answered req).Applied ∧ req.accountId = a) := fun h => ha h.2
      rw [if_neg hnot, add_zero]
      exact Function.update_of_ne (Ne.symm ha) ..
  · have hnot : ¬ ((s.answered req).Applied ∧ req.accountId = a) := fun h => happlied h.1
    rw [if_neg happlied, if_neg hnot, add_zero]

/-- A handler moves money only for the update that it logs. -/
lemma LogStep.books (hstep : LogStep s msg e) :
    (e.server.hist = s.hist ∧ (e.server.accountMap = s.accountMap ∨
      ∃ b, e.server.accountMap = (s.getBalance b).1.accountMap)) ∨
    ∃ req, e.server.hist = s.hist ++ [s.answered req] ∧
      e.server.accountMap = (s.accept.updateRequestReply (s.number req)).1.accountMap := by
  cases hstep with
  | keep hist seq sent out ignored other accounts => exact Or.inl ⟨hist, accounts⟩
  | relay type tail next hist seq sent out accounts => exact Or.inr ⟨_, hist, accounts⟩
  | answer type tail next hist seq sent out accounts => exact Or.inr ⟨_, hist, accounts⟩
  | ack hist seq sent out accounts => exact Or.inl ⟨hist, Or.inl accounts⟩
  | toBeTail hist seq sent out accounts => exact Or.inl ⟨hist, Or.inl accounts⟩
  | reply hist seq sent out accounts => exact Or.inl ⟨hist, Or.inl accounts⟩
  | resend hist seq sent succ out accounts => exact Or.inl ⟨hist, Or.inl accounts⟩

theorem Accounted.step (h : Accounted s) (hstep : LogStep s msg e) : Accounted e.server := by
  intro a
  rcases hstep.books with ⟨hist, accounts⟩ | ⟨req, hist, accounts⟩
  · rw [hist, ← h a]
    rcases accounts with heq | ⟨b, heq⟩
    · rw [balance_congr heq]
    · rw [balance_congr heq, balance_getBalance]
  · rw [balance_congr accounts, balance_answered, hist, List.map_append, List.sum_append, h a,
      List.map_singleton, List.sum_singleton]

end ChainServer

end ChainReplication
