import ChainReplication.Server.Balance
import ChainReplication.Library.Assoc

/-!
# The money of one server

All balances of a server together are what the updates in its history have brought in and taken out.
-/

namespace ChainReplication

/-- What an answered request adds to the money of its bank. -/
def Request.flow (req : Request) : ℚ :=
  if req.Applied then if req.Debits then -req.amount else req.amount else 0

namespace ChainServer

variable {s : ChainServer} {msg : Message} {e : Effect} {req : Request} {a : String}

/-- The sum of all account balances. -/
def funds (s : ChainServer) : ℚ := (s.accountMap.entries.map fun e => e.2).sum

/-- The funds are the sum of what the history has moved. -/
def Funded (s : ChainServer) : Prop := s.funds = (s.hist.map Request.flow).sum

lemma funds_congr {s' : ChainServer} (h : s'.accountMap = s.accountMap) : s'.funds = s.funds := by
  rw [funds, h, funds]

lemma funds_insert (s : ChainServer) (a : String) (v : ℚ) :
    ({ s with accountMap := s.accountMap.insert a v } : ChainServer).funds =
      s.funds - s.balance a + v :=
  AList.sum_insert s.accountMap a v

/-- A new account is empty. -/
lemma funds_getBalance (a : String) : (s.getBalance a).1.funds = s.funds := by
  by_cases h : a ∈ s.accountMap
  · rw [getBalance_of_mem h]
  · simp only [getBalance, AList.lookup_eq_none.mpr h]
    rw [funds_insert, balance_of_notMem h]
    simp

lemma funds_getOrCreateAccount : (s.getOrCreateAccount req).1.funds = s.funds := by
  by_cases h : req.accountId ∈ s.accountMap
  · rw [getOrCreateAccount_of_mem h]
  · rw [getOrCreateAccount_of_notMem h, funds_insert, balance_of_notMem h]
    simp

lemma flow_of_not_applied (h : ¬ req.Applied) : req.flow = 0 := if_neg h

/-- An update moves the money that its answer records. -/
lemma funds_updateRequestReply (s : ChainServer) (req : Request) :
    (s.updateRequestReply req).1.funds = s.funds + (s.updateRequestReply req).2.flow := by
  cases h : s.precedent req with
  | some it =>
    rw [updateRequestReply_of_precedent h, flow_of_not_applied, add_zero]
    exact fun happlied => Request.answerFrom_checkResult happlied.1
  | none =>
    obtain ⟨hanswer, hserver⟩ := updateRequestReply_of_none h
    have happlied : (req.answerNew (s.balance req.accountId)).Applied ↔
        ¬ (req.Debits ∧ s.balance req.accountId < req.amount) := by
      rw [Request.Applied, Request.answerNew_outcome]
      simp
    rw [hanswer, hserver]
    by_cases hfailed : req.Debits ∧ s.balance req.accountId < req.amount
    · rw [if_pos hfailed, funds_getOrCreateAccount, flow_of_not_applied, add_zero]
      rw [happlied]
      exact not_not.mpr hfailed
    · have hflow : (req.answerNew (s.balance req.accountId)).flow =
          if req.Debits then -req.amount else req.amount := if_pos (happlied.mpr hfailed)
      rw [if_neg hfailed, funds_insert, hflow, Request.newBalance]
      split_ifs
      · abel
      · abel

lemma funds_answered : (s.accept.updateRequestReply (s.number req)).1.funds =
    s.funds + (s.answered req).flow :=
  funds_updateRequestReply s.accept (s.number req)

theorem Funded.step (h : Funded s) (hstep : LogStep s msg e) : Funded e.server := by
  have hold : s.funds = (s.hist.map Request.flow).sum := h
  rw [Funded]
  rcases hstep.books with ⟨hist, accounts⟩ | ⟨req, hist, accounts⟩
  · rw [hist, ← hold]
    rcases accounts with heq | ⟨b, heq⟩
    · rw [funds_congr heq]
    · rw [funds_congr heq, funds_getBalance]
  · rw [funds_congr accounts, funds_answered, hist, List.map_append, List.sum_append, hold,
      List.map_singleton, List.sum_singleton]

end ChainServer

end ChainReplication
