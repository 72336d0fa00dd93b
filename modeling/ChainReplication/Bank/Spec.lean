import ChainReplication.Server.Basic
import Mathlib.Data.List.Induction
import Mathlib.Logic.Function.Basic

/-!
# The reference bank

What a bank does with one update when nothing is replicated: the first update under a request id
for an account is carried out, and every later one is answered from it.
-/

namespace ChainReplication

namespace Request

/-- `WITHDRAW` and `TRANSFER` take money out of their account. -/
def Debits (req : Request) : Prop := req.type = .withdraw ∨ req.type = .transfer

instance (req : Request) : Decidable req.Debits := inferInstanceAs (Decidable (_ ∨ _))

/-- The balance of the account of a request after the update. -/
def newBalance (req : Request) (balance : ℚ) : ℚ :=
  if req.Debits then balance - req.amount else balance + req.amount

/-- The request answered from an earlier one. -/
def answerFrom (req it : Request) (balance : ℚ) : Request :=
  if reqConsistent req it then { req with checkResult := .processed, reply := it.reply }
  else { req with
    checkResult := .inconsistent
    reply := { reqId := req.reqId, outcome := .inconsistentWithHistory, accountId := req.accountId,
               balance := balance } }

/-- The request answered by carrying it out on a balance. -/
def answerNew (req : Request) (balance : ℚ) : Request :=
  { req with
    checkResult := .newreq
    reply :=
      if req.Debits ∧ balance < req.amount then
        { reqId := req.reqId, outcome := .insufficientFunds, accountId := req.accountId,
          balance := balance }
      else { reqId := req.reqId, outcome := .processed, accountId := req.accountId,
             balance := req.newBalance balance } }

/-- The update has changed a balance: it was a first request and the funds sufficed. -/
def Applied (req : Request) : Prop :=
  req.checkResult = .newreq ∧ req.reply.outcome = .processed

instance (req : Request) : Decidable req.Applied := inferInstanceAs (Decidable (_ ∧ _))

variable {req it : Request} {balance : ℚ}

lemma answerFrom_checkResult : (req.answerFrom it balance).checkResult ≠ .newreq := by
  unfold answerFrom
  split_ifs <;> simp

@[simp] lemma answerNew_checkResult : (req.answerNew balance).checkResult = .newreq := rfl

@[simp] lemma answerFrom_body : (req.answerFrom it balance).body = req.body := by
  unfold answerFrom
  split_ifs <;> rfl

@[simp] lemma answerNew_body : (req.answerNew balance).body = req.body := rfl

lemma answerNew_outcome : (req.answerNew balance).reply.outcome = .processed ↔
    ¬ (req.Debits ∧ balance < req.amount) := by
  unfold answerNew
  split_ifs with h <;> simp [h]

end Request

/-- The state of the reference bank: its balances, the first request under each pair of request id
and account with its answer, and all requests with their answers in order. -/
structure Bank where
  balance : String → ℚ := fun _ => 0
  first : String × String → Option Request := fun _ => none
  log : List Request := []

namespace Bank

/-- The answer to an update. -/
def answer (B : Bank) (req : Request) : Request :=
  match B.first (req.reqId, req.accountId) with
  | some it => req.answerFrom it (B.balance req.accountId)
  | none => req.answerNew (B.balance req.accountId)

/-- One transition of the bank. -/
def update (B : Bank) (req : Request) : Bank where
  balance :=
    if (B.answer req).Applied then
      Function.update B.balance req.accountId (req.newBalance (B.balance req.accountId))
    else B.balance
  first := Function.update B.first (req.reqId, req.accountId)
    ((B.first (req.reqId, req.accountId)).or (some (B.answer req)))
  log := B.log ++ [B.answer req]

/-- The bank after a list of updates. -/
def run (reqs : List Request) : Bank := reqs.foldl update {}

variable {B : Bank} {req : Request}

lemma run_append_singleton (reqs : List Request) : run (reqs ++ [req]) = (run reqs).update req := by
  simp [run]

lemma update_body : B.update req.body = B.update req := rfl

/-- A transition depends on the body of the update only. -/
lemma update_congr {req' : Request} (h : req.body = req'.body) : B.update req = B.update req' := by
  rw [← update_body, h, update_body]

lemma answer_of_first {it : Request} (h : B.first (req.reqId, req.accountId) = some it) :
    B.answer req = req.answerFrom it (B.balance req.accountId) := by
  rw [answer, h]

lemma answer_of_none (h : B.first (req.reqId, req.accountId) = none) :
    B.answer req = req.answerNew (B.balance req.accountId) := by
  rw [answer, h]

/-- The first request under a pair stays. -/
lemma first_update (r a : String) : (B.update req).first (r, a) = (B.first (r, a)).or
    (if req.reqId = r ∧ req.accountId = a then some (B.answer req) else none) := by
  by_cases hids : req.reqId = r ∧ req.accountId = a
  · obtain ⟨rfl, rfl⟩ := hids
    simp [update]
  · have hne : (r, a) ≠ (req.reqId, req.accountId) := by
      rintro heq
      obtain ⟨rfl, rfl⟩ := Prod.mk.inj heq
      exact hids ⟨rfl, rfl⟩
    rw [if_neg hids, Option.or_none]
    exact Function.update_of_ne hne ..

/-- A repetition changes neither the balances nor the first requests. -/
lemma update_of_first {it : Request} (h : B.first (req.reqId, req.accountId) = some it) :
    (B.update req).balance = B.balance ∧ (B.update req).first = B.first := by
  constructor
  · have hnot : ¬ (B.answer req).Applied := by
      rw [answer_of_first h]
      exact fun happlied => Request.answerFrom_checkResult happlied.1
    simp only [update, if_neg hnot]
  · simp only [update, h, Option.some_or]
    rw [← h, Function.update_eq_self]

lemma answer_body_eq : (B.answer req).body = req.body := by
  cases h : B.first (req.reqId, req.accountId) with
  | some it => rw [answer_of_first h, Request.answerFrom_body]
  | none => rw [answer_of_none h, Request.answerNew_body]

/-- Later updates do not touch the answers given. -/
lemma log_of_prefix {l k : List Request} (h : l <+: k) : (run l).log <+: (run k).log := by
  obtain ⟨m, rfl⟩ := h
  induction m using List.reverseRecOn with
  | nil => exact ⟨[], by simp⟩
  | append_singleton m req ih =>
    rw [← List.append_assoc, run_append_singleton]
    exact ih.trans (List.prefix_append _ _)

/-- An answer that reports no conflict carries the reply of the first request under its pair. -/
lemma reply_of_log {l : List Request} {q : Request} (hq : q ∈ (run l).log)
    (hout : q.reply.outcome ≠ .inconsistentWithHistory) :
    ∃ it, (run l).first (q.reqId, q.accountId) = some it ∧ q.reply = it.reply := by
  induction l using List.reverseRecOn with
  | nil => cases hq
  | append_singleton l req ih =>
    rw [run_append_singleton] at hq ⊢
    rcases List.mem_append.mp hq with hq | hq
    · obtain ⟨it, hit, hreply⟩ := ih hq
      exact ⟨it, by rw [first_update, hit, Option.some_or], hreply⟩
    · obtain rfl := List.mem_singleton.mp hq
      obtain ⟨hid, -, -, hacc, -⟩ := Request.fields_of_body (@answer_body_eq (run l) req)
      rw [hid, hacc, first_update]
      cases hfirst : (run l).first (req.reqId, req.accountId) with
      | some it =>
        refine ⟨it, Option.some_or, ?_⟩
        rw [answer_of_first hfirst] at hout ⊢
        unfold Request.answerFrom at hout ⊢
        split_ifs at hout ⊢
        · rfl
        · exact absurd rfl hout
      | none => exact ⟨_, by simp, rfl⟩

end Bank

end ChainReplication
