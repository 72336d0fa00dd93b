import ChainReplication.DistAlgo.Server
import Mathlib.Tactic.Cases

/-!
# Accounts and histories of a server

What the operations on one server leave in its accounts, in its histories and in its sent list, as functions
of the account and the request id.
-/

namespace ChainReplication.DistAlgo

variable {P : Type*}

/-- The request is the one with this id for this account. -/
def Request.isNamed (r : Request P) (accountId reqId : String) : Bool :=
  r.accountId = accountId && r.reqId = reqId

/-- What `update_balance` makes of a balance. -/
def Request.settle (req : Request P) (balance : ℚ) : Outcome × ℚ :=
  if req.type = .withdraw ∨ req.type = .transfer then
    if balance < req.amount then (.insufficientFunds, balance) else (.processed, balance - req.amount)
  else if req.type = .deposit then (.processed, balance + req.amount)
  else (.processed, balance)

/-- A new update with its reply. -/
def Request.answered (req : Request P) (balance : ℚ) : Request P :=
  { req with
    isNew := true
    reply :=
      { reqId := req.reqId, type := req.type, accountId := req.accountId
        outcome := (req.settle balance).1, balance := (req.settle balance).2 } }

namespace Server

variable {s t u : Server P} {req r : Request P} {a b id : String} {waiting : List (Request P)}

/-- The balance of an account, 0 when there is none. -/
def balance (s : Server P) (accountId : String) : ℚ :=
  ((s.accounts.lookup accountId).map Account.balance).getD 0

/-- The request of an account that `processed` holds under an id. -/
def stored (s : Server P) (accountId reqId : String) : Option (Request P) :=
  (s.processed.lookup accountId).bind fun history => history.lookup reqId

/-- The request that `processed` holds once those that wait have been moved there. -/
def kept (s : Server P) (waiting : List (Request P)) (accountId reqId : String) : Option (Request P) :=
  (s.stored accountId reqId).or (waiting.find? fun r => r.isNamed accountId reqId)

/-- What `build_reply_from_history` finds. -/
def found (s : Server P) (req : Request P) : Option (Request P) :=
  if req.accountId ∈ s.accounts then
    (s.stored req.accountId req.reqId).or (s.sent.find? fun sentReq => req.reqId = sentReq.reqId)
  else none

/-- Every account carries the id that it is kept under. -/
def Keyed (s : Server P) : Prop := ∀ a account, s.accounts.lookup a = some account → account.accountId = a

/-- `t` differs from `s` in the accounts alone; an account may have got a history that is empty. -/
structure Keeps (s t : Server P) : Prop where
  frame : t = { s with accounts := t.accounts, processed := t.processed, applied := t.applied }
  stored : ∀ a id, t.stored a id = s.stored a id
  keyed : s.Keyed → t.Keyed
  mono : ∀ a ∈ s.accounts, a ∈ t.accounts
  opened : ∀ a ∈ t.processed, a ∈ s.processed ∨ a ∈ t.accounts

/-! ### Named requests -/

lemma isNamed_iff : r.isNamed a id = true ↔ r.accountId = a ∧ r.reqId = id := by
  simp [Request.isNamed]

@[simp]
lemma isNamed_self : r.isNamed r.accountId r.reqId = true := isNamed_iff.mpr ⟨rfl, rfl⟩

lemma kept_nil : s.kept [] a id = s.stored a id := Option.or_none

lemma kept_append (waiting : List (Request P)) (r : Request P) :
    s.kept (waiting ++ [r]) a id = (s.kept waiting a id).or (if r.isNamed a id then some r else none) := by
  rw [kept, kept, List.find?_append, Option.or_assoc]
  congr 2
  cases hr : r.isNamed a id <;> simp [hr]

/-- The history of one account, as `insert_processed_list` finds it. -/
lemma stored_insertProcessedList (r : Request P) : (s.insertProcessedList r).stored a id =
    (s.stored a id).or (if r.isNamed a id then some r else none) := by
  unfold stored insertProcessedList
  by_cases ha : a = r.accountId
  · subst ha
    rw [AList.lookup_insert]
    have hhistory : (s.processed.lookup r.accountId).bind (fun history => history.lookup id) =
        ((s.processed.lookup r.accountId).getD ∅).lookup id := by
      cases s.processed.lookup r.accountId with
      | none => rw [Option.bind_none, Option.getD_none, AList.lookup_empty]
      | some history => rfl
    rw [hhistory, Option.bind_some]
    generalize (s.processed.lookup r.accountId).getD ∅ = history
    by_cases hmem : r.reqId ∈ history
    · rw [if_pos hmem]
      by_cases hid : r.reqId = id
      · subst hid
        rw [Option.or_of_isSome (AList.lookup_isSome.mpr hmem)]
      · rw [if_neg (by simp [isNamed_iff, hid]), Option.or_none]
    · rw [if_neg hmem]
      by_cases hid : r.reqId = id
      · subst hid
        rw [AList.lookup_insert, AList.lookup_eq_none.mpr hmem, if_pos isNamed_self, Option.none_or]
      · rw [AList.lookup_insert_ne (Ne.symm hid), if_neg (by simp [isNamed_iff, hid]), Option.or_none]
  · rw [AList.lookup_insert_ne ha, if_neg (by simp [isNamed_iff, Ne.symm ha]), Option.or_none]

/-- Moving the first waiting request to `processed` keeps what is kept. -/
lemma kept_insertProcessedList (r : Request P) (waiting : List (Request P)) :
    (s.insertProcessedList r).kept waiting a id = s.kept (r :: waiting) a id := by
  rw [kept, kept, stored_insertProcessedList, Option.or_assoc]
  congr 1
  cases hr : r.isNamed a id <;> simp [hr]

/-! ### Accounts -/

lemma Keeps.refl : Keeps s s := ⟨rfl, fun _ _ => rfl, id, fun _ => id, fun _ => Or.inl⟩

lemma Keeps.trans (h₁ : Keeps s t) (h₂ : Keeps t u) : Keeps s u where
  frame := by
    rw [h₂.frame, h₁.frame]
  stored a id := (h₂.stored a id).trans (h₁.stored a id)
  keyed h := h₂.keyed (h₁.keyed h)
  mono a ha := h₂.mono a (h₁.mono a ha)
  opened a ha := (h₂.opened a ha).elim (fun h => (h₁.opened a h).imp_right (h₂.mono a)) Or.inr

lemma Keeps.kept (h : Keeps s t) : t.kept waiting a id = s.kept waiting a id := by
  rw [Server.kept, Server.kept, h.stored]

lemma Keeps.sent (h : Keeps s t) : t.sent = s.sent := by
  rw [h.frame]

lemma getOrCreateAccount_of_mem (h : a ∈ s.accounts) :
    ∃ account, s.accounts.lookup a = some account ∧ s.getOrCreateAccount a = (s, account, false) := by
  obtain ⟨account, haccount⟩ := Option.isSome_iff_exists.mp (AList.lookup_isSome.mpr h)
  refine ⟨account, haccount, ?_⟩
  rw [getOrCreateAccount, haccount]

lemma getOrCreateAccount_of_notMem (h : a ∉ s.accounts) : s.getOrCreateAccount a =
    ({ s with accounts := s.accounts.insert a { accountId := a } }, { accountId := a }, true) := by
  rw [getOrCreateAccount, AList.lookup_eq_none.mpr h]

lemma getOrCreateAccount_keeps : Keeps s (s.getOrCreateAccount a).1 := by
  by_cases h : a ∈ s.accounts
  · obtain ⟨account, -, heq⟩ := getOrCreateAccount_of_mem h
    rw [heq]
    exact Keeps.refl
  · rw [getOrCreateAccount_of_notMem h]
    refine ⟨rfl, fun _ _ => rfl, fun hkeyed b account hb => ?_, fun b hb => ?_, fun _ => Or.inl⟩
    · by_cases hba : b = a
      · subst hba
        rw [AList.lookup_insert] at hb
        obtain rfl := Option.some.inj hb
        rfl
      · rw [AList.lookup_insert_ne hba] at hb
        exact hkeyed b account hb
    · exact (AList.mem_insert _).mpr (Or.inr hb)

lemma getOrCreateAccount_applied : (s.getOrCreateAccount a).1.applied = s.applied := by
  unfold getOrCreateAccount
  split <;> rfl

lemma getOrCreateAccount_lookup :
    (s.getOrCreateAccount a).1.accounts.lookup a = some (s.getOrCreateAccount a).2.1 := by
  by_cases h : a ∈ s.accounts
  · obtain ⟨account, hlookup, heq⟩ := getOrCreateAccount_of_mem h
    rw [heq]
    exact hlookup
  · rw [getOrCreateAccount_of_notMem h]
    exact AList.lookup_insert _

lemma mem_getOrCreateAccount : a ∈ (s.getOrCreateAccount a).1.accounts :=
  AList.lookup_isSome.mp (getOrCreateAccount_lookup ▸ rfl)

/-- A new account has the balance 0, which an account had before it existed. -/
lemma getOrCreateAccount_balance : (s.getOrCreateAccount a).1.balance b = s.balance b := by
  by_cases h : a ∈ s.accounts
  · obtain ⟨account, -, heq⟩ := getOrCreateAccount_of_mem h
    rw [heq]
  · rw [getOrCreateAccount_of_notMem h, balance, balance]
    by_cases hba : b = a
    · subst hba
      rw [AList.lookup_insert, AList.lookup_eq_none.mpr h]
      rfl
    · rw [AList.lookup_insert_ne hba]

lemma getOrCreateAccount_account : (s.getOrCreateAccount a).2.1.balance = s.balance a := by
  rw [← getOrCreateAccount_balance, balance, getOrCreateAccount_lookup]
  rfl

lemma setdefaultProcessed_keeps (h : a ∈ s.accounts) : Keeps s (s.setdefaultProcessed a) := by
  unfold setdefaultProcessed
  split_ifs with hmem
  · exact Keeps.refl
  · refine ⟨rfl, fun b id => ?_, fun hkeyed => hkeyed, fun _ hb => hb, fun b hb => ?_⟩
    · rw [stored, stored]
      by_cases hba : b = a
      · subst hba
        rw [AList.lookup_insert, AList.lookup_eq_none.mpr hmem]
        exact AList.lookup_empty id
      · rw [AList.lookup_insert_ne hba]
    · rcases (AList.mem_insert _).mp hb with rfl | hb
      · exact Or.inr h
      · exact Or.inl hb

lemma setBalance_keeps {account : Account} (hmem : a ∈ s.accounts)
    (hkeyed : s.Keyed → account.accountId = a) {x : ℚ} : Keeps s (s.setBalance account a x) := by
  refine ⟨rfl, fun _ _ => rfl, fun hs b account' hb => ?_, fun b hb => ?_, fun _ => Or.inl⟩
  · rw [setBalance] at hb
    by_cases hba : b = a
    · subst hba
      rw [AList.lookup_insert] at hb
      obtain rfl := Option.some.inj hb
      exact hkeyed hs
    · rw [AList.lookup_insert_ne hba] at hb
      exact hs b account' hb
  · exact (AList.mem_insert _).mpr (Or.inr hb)

lemma setBalance_balance {account : Account} {x : ℚ} :
    (s.setBalance account a x).balance b = if b = a then x else s.balance b := by
  rw [setBalance, balance]
  by_cases hba : b = a
  · subst hba
    rw [AList.lookup_insert, if_pos rfl]
    rfl
  · rw [AList.lookup_insert_ne hba, if_neg hba]
    rfl

/-! ### The bank -/

/-- `update_balance` settles the request against the balance of its account and leaves the others. -/
lemma updateBalance_spec (s : Server P) (req : Request P) : Keeps s (s.updateBalance req).1 ∧
    (s.updateBalance req).1.applied = s.applied ∧
    (s.updateBalance req).2 = req.settle (s.balance req.accountId) ∧
    (∀ b, (s.updateBalance req).1.balance b =
      if b = req.accountId then (req.settle (s.balance req.accountId)).2 else s.balance b) := by
  have hkeeps := getOrCreateAccount_keeps (s := s) (a := req.accountId)
  have happlied := getOrCreateAccount_applied (s := s) (a := req.accountId)
  have hset (x : ℚ) := hkeeps.trans (setBalance_keeps (x := x) mem_getOrCreateAccount
    fun hkeyed => hkeyed _ _ getOrCreateAccount_lookup)
  have hbalance (b : String) := getOrCreateAccount_balance (s := s) (a := req.accountId) (b := b)
  have hsame (b : String) : s.balance b = if b = req.accountId then s.balance req.accountId else s.balance b := by
    split_ifs with hb
    · rw [hb]
    · rfl
  rw [updateBalance, Request.settle, getOrCreateAccount_account]
  split_ifs
  · exact ⟨hkeeps, happlied, rfl, fun b => (hbalance b).trans (hsame b)⟩
  · refine ⟨hset _, happlied, rfl, fun b => ?_⟩
    rw [setBalance_balance, hbalance]
  · refine ⟨hset _, happlied, rfl, fun b => ?_⟩
    rw [setBalance_balance, hbalance]
  · exact ⟨hkeeps, happlied, rfl, fun b => (hbalance b).trans (hsame b)⟩

lemma getBalance_spec : Keeps s (s.getBalance a).1 ∧ (s.getBalance a).1.applied = s.applied ∧
    ∀ b, (s.getBalance a).1.balance b = s.balance b :=
  ⟨getOrCreateAccount_keeps, getOrCreateAccount_applied, fun _ => getOrCreateAccount_balance⟩

/-! ### Duplicates -/

/-- The reply that a request starts from. -/
def freshReply (req : Request P) : Reply := { reqId := req.reqId, type := req.type, accountId := req.accountId }

lemma buildReplyFromHistory_of_mem (h : req.accountId ∈ s.accounts) : s.buildReplyFromHistory req =
    (s.setdefaultProcessed req.accountId,
      ((s.found req).map fun r => replyFrom req r (freshReply req)).getD (freshReply req)) := by
  obtain ⟨account, -, heq⟩ := getOrCreateAccount_of_mem h
  have hkeeps := setdefaultProcessed_keeps h
  have hstored : ((s.setdefaultProcessed req.accountId).processed.lookup req.accountId).bind
      (fun history => history.lookup req.reqId) = s.stored req.accountId req.reqId := hkeeps.stored _ _
  rw [buildReplyFromHistory, heq, found, if_pos h]
  simp only [Bool.false_eq_true, if_false]
  rw [hstored, hkeeps.sent]
  cases s.stored req.accountId req.reqId with
  | some r => rfl
  | none =>
    rw [Option.none_or]
    cases s.sent.find? fun sentReq => req.reqId = sentReq.reqId <;> rfl

lemma buildReplyFromHistory_of_notMem (h : req.accountId ∉ s.accounts) : s.buildReplyFromHistory req =
    ((s.getOrCreateAccount req.accountId).1, freshReply req) := by
  rw [buildReplyFromHistory, getOrCreateAccount_of_notMem h]
  rfl

/-- `build_reply_from_history` keeps the books and answers from what it finds. -/
lemma buildReplyFromHistory_spec (s : Server P) (req : Request P) : Keeps s (s.buildReplyFromHistory req).1 ∧
    (s.buildReplyFromHistory req).1.applied = s.applied ∧
    (∀ b, (s.buildReplyFromHistory req).1.balance b = s.balance b) ∧
    req.accountId ∈ (s.buildReplyFromHistory req).1.accounts ∧
    (s.buildReplyFromHistory req).2 =
      ((s.found req).map fun r => replyFrom req r (freshReply req)).getD (freshReply req) := by
  by_cases h : req.accountId ∈ s.accounts
  · rw [buildReplyFromHistory_of_mem h]
    refine ⟨setdefaultProcessed_keeps h, ?_, fun b => ?_, (setdefaultProcessed_keeps h).mono _ h, rfl⟩
    · unfold setdefaultProcessed
      split_ifs <;> rfl
    · unfold setdefaultProcessed
      split_ifs <;> rfl
  · rw [buildReplyFromHistory_of_notMem h, found, if_neg h]
    exact ⟨getOrCreateAccount_keeps, getOrCreateAccount_applied, fun _ => getOrCreateAccount_balance,
      mem_getOrCreateAccount, rfl⟩

/-- A request for which nothing is found is applied. -/
lemma updateRequestReply_new (h : s.found req = none) : Keeps s (s.updateRequestReply req).1 ∧
    req.accountId ∈ (s.updateRequestReply req).1.accounts ∧
    (s.updateRequestReply req).2 = req.answered (s.balance req.accountId) ∧
    (s.updateRequestReply req).1.applied = s.applied ++ [req.answered (s.balance req.accountId)] ∧
    (∀ b, (s.updateRequestReply req).1.balance b =
      if b = req.accountId then (req.settle (s.balance req.accountId)).2 else s.balance b) := by
  obtain ⟨hkeeps, happlied, hbalance, hmem, hreply⟩ := buildReplyFromHistory_spec s req
  rw [h, Option.map_none, Option.getD_none] at hreply
  obtain ⟨hkeeps', happlied', hsettle, hbalance'⟩ :=
    updateBalance_spec (s.buildReplyFromHistory req).1 req
  simp only [hbalance] at hsettle hbalance'
  have hreq : { req with isNew := true, reply := { freshReply req with
        outcome := ((s.buildReplyFromHistory req).1.updateBalance req).2.1
        balance := ((s.buildReplyFromHistory req).1.updateBalance req).2.2 } } =
      req.answered (s.balance req.accountId) := by
    rw [hsettle]
    rfl
  have htrans := hkeeps.trans hkeeps'
  have hupdate : s.updateRequestReply req = ({ ((s.buildReplyFromHistory req).1.updateBalance req).1 with
      applied := s.applied ++ [req.answered (s.balance req.accountId)] }, req.answered (s.balance req.accountId)) := by
    have hnew : (freshReply req).outcome = .newReq := rfl
    rw [updateRequestReply, hreply, if_pos hnew, ← hreq, ← happlied, ← happlied']
  rw [hupdate]
  refine ⟨⟨?_, htrans.stored, htrans.keyed, htrans.mono, htrans.opened⟩, hkeeps'.mono _ hmem, rfl, rfl, hbalance'⟩
  rw [htrans.frame]

/-- A request for which an answered request is found changes nothing. -/
lemma updateRequestReply_found (h : s.found req = some r) (hr : r.reply.outcome ≠ .newReq) :
    Keeps s (s.updateRequestReply req).1 ∧ req.accountId ∈ (s.updateRequestReply req).1.accounts ∧
    (∃ reply : Reply, reply.outcome ≠ .newReq ∧
      (s.updateRequestReply req).2 = { req with isNew := false, reply := reply }) ∧
    (s.updateRequestReply req).1.applied = s.applied ∧
    (∀ b, (s.updateRequestReply req).1.balance b = s.balance b) := by
  obtain ⟨hkeeps, happlied, hbalance, hmem, hreply⟩ := buildReplyFromHistory_spec s req
  rw [h, Option.map_some, Option.getD_some] at hreply
  have houtcome : (s.buildReplyFromHistory req).2.outcome ≠ .newReq := by
    rw [hreply]
    unfold replyFrom
    split_ifs
    · exact hr
    · nofun
  rw [updateRequestReply, if_neg houtcome]
  split_ifs with hinconsistent
  · obtain ⟨hkeeps', happlied', hbalance'⟩ :=
      getBalance_spec (s := (s.buildReplyFromHistory req).1) (a := req.accountId)
    refine ⟨hkeeps.trans hkeeps', hkeeps'.mono _ hmem, ⟨{ (s.buildReplyFromHistory req).2 with
      balance := ((s.buildReplyFromHistory req).1.getBalance req.accountId).2 }, houtcome, rfl⟩,
      happlied'.trans happlied, fun b => (hbalance' b).trans (hbalance b)⟩
  · exact ⟨hkeeps, hmem, ⟨_, houtcome, rfl⟩, happlied, hbalance⟩

/-! ### What holds of the books -/

/-- Histories belong to accounts that exist, and what is stored or waits has been answered. -/
structure Sound (s : Server P) (waiting : List (Request P)) : Prop where
  keyed : s.Keyed
  opened : ∀ a ∈ s.processed, a ∈ s.accounts
  stored_answered : ∀ a id r, s.stored a id = some r → r.reply.outcome ≠ .newReq
  known : ∀ r ∈ waiting, r.accountId ∈ s.accounts
  answered : ∀ r ∈ waiting, r.reply.outcome ≠ .newReq

/-- Every update that was applied as new is in `processed` once those that wait have been moved there. -/
def AppliedKept (s : Server P) (waiting : List (Request P)) : Prop :=
  ∀ r ∈ s.applied, s.kept waiting r.accountId r.reqId = some r

/-- An account with money has a request. -/
def Funded (s : Server P) (waiting : List (Request P)) : Prop :=
  ∀ a, s.balance a ≠ 0 → (∃ id, (s.stored a id).isSome = true) ∨ ∃ r ∈ waiting, r.accountId = a

lemma Sound.mono {waiting' : List (Request P)} (h : s.Sound waiting) (hsub : waiting' ⊆ waiting) :
    s.Sound waiting' :=
  ⟨h.keyed, h.opened, h.stored_answered, fun r hr => h.known r (hsub hr), fun r hr => h.answered r (hsub hr)⟩

/-- Only the accounts and the histories count. -/
lemma Sound.congr (h : s.Sound waiting) (haccounts : t.accounts = s.accounts)
    (hprocessed : t.processed = s.processed) : t.Sound waiting := by
  have hstored (a id : String) : t.stored a id = s.stored a id := by rw [stored, hprocessed, stored]
  have hkeyed : t.Keyed ↔ s.Keyed := by rw [Keyed, haccounts, Keyed]
  exact
    { keyed := hkeyed.mpr h.keyed
      opened := by
        rw [haccounts, hprocessed]
        exact h.opened
      stored_answered := fun a id r hr => h.stored_answered a id r (hstored a id ▸ hr)
      known := by
        rw [haccounts]
        exact h.known
      answered := h.answered }

lemma setup_sound (serverId : ℕ) (bankId : String) (prev succ : Option P) (master : P) (startDelay : Bool) :
    (setup serverId bankId prev succ master startDelay).Sound [] where
  keyed _ _ h := by cases h
  opened _ h := by cases h
  stored_answered _ _ _ h := by cases h
  known _ h := by cases h
  answered _ h := by cases h

lemma Sound.keeps (h : s.Sound waiting) (hkeeps : Keeps s t) : t.Sound waiting where
  keyed := hkeeps.keyed h.keyed
  opened a ha := (hkeeps.opened a ha).elim (fun ha => hkeeps.mono a (h.opened a ha)) id
  stored_answered a id r hr := h.stored_answered a id r ((hkeeps.stored a id).symm.trans hr)
  known r hr := hkeeps.mono _ (h.known r hr)
  answered := h.answered

lemma AppliedKept.keeps (h : s.AppliedKept waiting) (hkeeps : Keeps s t) (happlied : t.applied = s.applied) :
    t.AppliedKept waiting := by
  intro r hr
  rw [hkeeps.kept]
  exact h r (happlied ▸ hr)

lemma Funded.keeps (h : s.Funded waiting) (hkeeps : Keeps s t) (hbalance : ∀ b, t.balance b = s.balance b) :
    t.Funded waiting := by
  intro a ha
  refine (h a (hbalance a ▸ ha)).imp_left ?_
  rintro ⟨id, hid⟩
  exact ⟨id, (hkeeps.stored a id).symm ▸ hid⟩

/-- The first request that waits is moved to `processed`. -/
lemma Sound.insertProcessedList (h : s.Sound (r :: waiting)) : (s.insertProcessedList r).Sound waiting where
  keyed := h.keyed
  opened a ha := by
    rcases (AList.mem_insert _).mp ha with rfl | ha
    · exact h.known r List.mem_cons_self
    · exact h.opened a ha
  stored_answered a id x hx := by
    rw [stored_insertProcessedList, Option.or_eq_some_iff] at hx
    rcases hx with hx | ⟨-, hx⟩
    · exact h.stored_answered a id x hx
    · split_ifs at hx
      obtain rfl := Option.some.inj hx
      exact h.answered r List.mem_cons_self
  known x hx := h.known x (List.mem_cons_of_mem _ hx)
  answered x hx := h.answered x (List.mem_cons_of_mem _ hx)

lemma AppliedKept.insertProcessedList (h : s.AppliedKept (r :: waiting)) :
    (s.insertProcessedList r).AppliedKept waiting :=
  fun x hx => (kept_insertProcessedList r waiting).trans (h x hx)

/-- What is stored stays, and the request itself is stored. -/
lemma stored_insertProcessedList_isSome (h : (s.stored a id).isSome = true ∨ r.isNamed a id = true) :
    ((s.insertProcessedList r).stored a id).isSome = true := by
  rw [stored_insertProcessedList, Option.isSome_or]
  rcases h with h | h
  · rw [h, Bool.true_or]
  · rw [if_pos h, Option.isSome_some, Bool.or_true]

lemma Funded.insertProcessedList (h : s.Funded (r :: waiting)) : (s.insertProcessedList r).Funded waiting := by
  intro a ha
  rcases h a ha with ⟨id, hid⟩ | ⟨x, hx, hacc⟩
  · exact Or.inl ⟨id, stored_insertProcessedList_isSome (Or.inl hid)⟩
  · rcases List.mem_cons.mp hx with rfl | hx
    · exact Or.inl ⟨x.reqId, stored_insertProcessedList_isSome (Or.inr (hacc ▸ isNamed_self))⟩
    · exact Or.inr ⟨x, hx, hacc⟩

lemma Sound.found_answered (h : s.Sound s.sent) (hfound : s.found req = some r) : r.reply.outcome ≠ .newReq := by
  unfold found at hfound
  split_ifs at hfound
  rcases Option.or_eq_some_iff.mp hfound with hstored | ⟨-, hsent⟩
  · exact h.stored_answered _ _ r hstored
  · exact h.answered r (List.mem_of_find?_eq_some hsent)

/-- A request for which nothing is found is kept nowhere. -/
lemma Sound.kept_of_found_none (h : s.Sound s.sent) (hfound : s.found req = none) :
    s.kept s.sent req.accountId req.reqId = none := by
  unfold found at hfound
  rw [kept, Option.or_eq_none_iff, List.find?_eq_none]
  split_ifs at hfound with hmem
  · obtain ⟨hstored, hsent⟩ := Option.or_eq_none_iff.mp hfound
    refine ⟨hstored, fun r hr hnamed => ?_⟩
    have hne := List.find?_eq_none.mp hsent r hr
    exact hne (by simpa using (isNamed_iff.mp hnamed).2.symm)
  · constructor
    · have hnot : req.accountId ∉ s.processed := fun ha => hmem (h.opened _ ha)
      rw [stored, AList.lookup_eq_none.mpr hnot, Option.bind_none]
    · intro r hr hnamed
      exact hmem ((isNamed_iff.mp hnamed).1 ▸ h.known r hr)

/-! ### One update -/

/-- The request with its reply is the request that was handled. -/
lemma updateRequestReply_req (s : Server P) (req : Request P) :
    ∃ isNew reply, (s.updateRequestReply req).2 = { req with isNew := isNew, reply := reply } := by
  unfold updateRequestReply
  simp only
  split_ifs
  · exact ⟨true, _, rfl⟩
  · exact ⟨false, _, rfl⟩
  · exact ⟨false, _, rfl⟩

lemma settle_outcome {x : ℚ} : (req.settle x).1 ≠ .newReq := by
  unfold Request.settle
  split_ifs <;> nofun

/-- What one update leaves: nothing new for a request that is found, else the update applied to the balance
of its account. -/
inductive UpdateCase (s : Server P) (req : Request P) (t : Server P) (req' : Request P) : Prop
  | found {r : Request P} {reply : Reply} (found : s.found req = some r) (keeps : Keeps s t)
      (mem : req.accountId ∈ t.accounts) (outcome : reply.outcome ≠ .newReq)
      (eq : req' = { req with isNew := false, reply := reply }) (applied : t.applied = s.applied)
      (balance : ∀ b, t.balance b = s.balance b)
  | new (found : s.found req = none) (keeps : Keeps s t) (mem : req.accountId ∈ t.accounts)
      (eq : req' = req.answered (s.balance req.accountId)) (applied : t.applied = s.applied ++ [req'])
      (balance : ∀ b, t.balance b =
        if b = req.accountId then (req.settle (s.balance req.accountId)).2 else s.balance b)

lemma Sound.update_cases (h : s.Sound s.sent) (req : Request P) :
    UpdateCase s req (s.updateRequestReply req).1 (s.updateRequestReply req).2 := by
  cases hfound : s.found req with
  | none =>
    obtain ⟨hkeeps, hmem, heq, happlied, hbalance⟩ := updateRequestReply_new hfound
    exact .new hfound hkeeps hmem heq (heq ▸ happlied) hbalance
  | some r =>
    obtain ⟨hkeeps, hmem, ⟨reply, houtcome, heq⟩, happlied, hbalance⟩ :=
      updateRequestReply_found hfound (h.found_answered hfound)
    exact .found hfound hkeeps hmem houtcome heq happlied hbalance

namespace UpdateCase

variable {req' : Request P}

lemma keeps (h : UpdateCase s req t req') : Keeps s t := by
  cases h <;> assumption

lemma accountId (h : UpdateCase s req t req') : req'.accountId = req.accountId := by
  cases h with
  | found _ _ _ _ eq => rw [eq]
  | new _ _ _ eq => rw [eq]; rfl

lemma reqId (h : UpdateCase s req t req') : req'.reqId = req.reqId := by
  cases h with
  | found _ _ _ _ eq => rw [eq]
  | new _ _ _ eq => rw [eq]; rfl

lemma bankUpdateSeq (h : UpdateCase s req t req') : req'.bankUpdateSeq = req.bankUpdateSeq := by
  cases h with
  | found _ _ _ _ eq => rw [eq]
  | new _ _ _ eq => rw [eq]; rfl

lemma sound (h : UpdateCase s req t req') (hs : s.Sound waiting) : t.Sound (waiting ++ [req']) := by
  have ht := hs.keeps h.keeps
  have hmem : req'.accountId ∈ t.accounts := by
    rw [h.accountId]
    cases h <;> assumption
  have houtcome : req'.reply.outcome ≠ .newReq := by
    cases h with
    | found _ _ _ outcome eq =>
      rw [eq]
      exact outcome
    | new _ _ _ eq =>
      rw [eq]
      exact settle_outcome
  refine ⟨ht.keyed, ht.opened, ht.stored_answered, ?_, ?_⟩
  · exact List.forall_mem_append.mpr ⟨ht.known, List.forall_mem_singleton.mpr hmem⟩
  · exact List.forall_mem_append.mpr ⟨ht.answered, List.forall_mem_singleton.mpr houtcome⟩

/-- What was kept stays kept. -/
lemma kept_append (h : UpdateCase s req t req') {x : Request P} (hx : s.kept waiting a id = some x) :
    t.kept (waiting ++ [req']) a id = some x := by
  rw [Server.kept_append, h.keeps.kept, hx, Option.some_or]

/-- A new update is kept from now on. -/
lemma kept_new (h : UpdateCase s req t req') (hnone : s.kept waiting req.accountId req.reqId = none) :
    t.kept (waiting ++ [req']) req'.accountId req'.reqId = some req' := by
  rw [Server.kept_append, h.keeps.kept, h.accountId, h.reqId, hnone, Option.none_or, if_pos]
  exact isNamed_iff.mpr ⟨h.accountId, h.reqId⟩

lemma appliedKept (h : UpdateCase s req t req')
    (hnone : s.found req = none → s.kept waiting req.accountId req.reqId = none) (hs : s.AppliedKept waiting) :
    t.AppliedKept (waiting ++ [req']) := by
  cases h with
  | found found keeps mem outcome eq applied balance =>
    have h := UpdateCase.found found keeps mem outcome eq applied balance
    exact fun x hx => h.kept_append (hs x (applied ▸ hx))
  | new found keeps mem eq applied balance =>
    have h := UpdateCase.new found keeps mem eq applied balance
    intro x hx
    rw [applied] at hx
    rcases List.mem_append.mp hx with hx | hx
    · exact h.kept_append (hs x hx)
    · rw [List.mem_singleton.mp hx]
      exact h.kept_new (hnone found)

lemma funded (h : UpdateCase s req t req') (hs : s.Funded waiting) : t.Funded (waiting ++ [req']) := by
  have hold {a : String} (ha : s.balance a ≠ 0) : (∃ id, (t.stored a id).isSome = true) ∨
      ∃ r ∈ waiting ++ [req'], r.accountId = a := by
    rcases hs a ha with ⟨id, hid⟩ | ⟨r, hr, hacc⟩
    · exact Or.inl ⟨id, (h.keeps.stored a id).symm ▸ hid⟩
    · exact Or.inr ⟨r, List.mem_append_left _ hr, hacc⟩
  cases h with
  | found found keeps mem outcome eq applied balance => exact fun a ha => hold (balance a ▸ ha)
  | new found keeps mem eq applied balance =>
    intro a ha
    rw [balance] at ha
    split_ifs at ha with hacc
    · exact Or.inr ⟨req', List.mem_append_right _ (List.mem_singleton_self _), by rw [eq, hacc]; rfl⟩
    · exact hold ha

end UpdateCase

variable {req' : Request P} {c : P} {out : List (P × Msg P)}

/-! ### Requests -/

/-- What a request leaves: accounts alone, or one update that is numbered next and kept as the role of the
server says. -/
inductive ServeCase (s : Server P) (req : Request P) (t : Server P) : Prop
  | unchanged (keeps : Keeps s t) (applied : t.applied = s.applied)
      (balance : ∀ b, t.balance b = s.balance b)
  | update {req₀ req' : Request P} {u : Server P} (type : req.type ≠ .query)
      (reqId : req₀.reqId = req.reqId) (accountId : req₀.accountId = req.accountId)
      (bankUpdateSeq : req₀.bankUpdateSeq = s.bankUpdateSeq + 1)
      (update : UpdateCase { s with bankUpdateSeq := req₀.bankUpdateSeq } req₀ u req')
      (eq : t = if s.isTail then u.keepAnswered req' else u.insertSentList req')

lemma handleQuery_state (h : s.handleQuery req = some (t, out)) : t = (s.getBalance req.accountId).1 := by
  obtain ⟨out', -, h⟩ := Option.bind_eq_some_iff.mp h
  exact (Prod.mk.inj (Option.some.inj h)).1.symm

lemma headHandleRequest_state (h : s.headHandleRequest req = some (t, out)) : t = (s.passOn req).1 := by
  obtain ⟨out', -, h⟩ := Option.bind_eq_some_iff.mp h
  exact (Prod.mk.inj (Option.some.inj h)).1.symm

lemma internalHandleRequest_state (h : s.internalHandleRequest req = some (t, out)) : t = (s.passOn req).1 := by
  obtain ⟨out', -, h⟩ := Option.bind_eq_some_iff.mp h
  exact (Prod.mk.inj (Option.some.inj h)).1.symm

lemma singleHandleRequest_state (h : s.singleHandleRequest req = some (t, out)) : t = (s.complete req).1 := by
  obtain ⟨out', -, h⟩ := Option.bind_eq_some_iff.mp h
  exact (Prod.mk.inj (Option.some.inj h)).1.symm

lemma tailHandleRequest_state (h : s.tailHandleRequest req = some (t, out)) : t = (s.complete req).1 := by
  obtain ⟨out', -, h⟩ := Option.bind_eq_some_iff.mp h
  obtain ⟨ack, -, h⟩ := Option.bind_eq_some_iff.mp h
  exact (Prod.mk.inj (Option.some.inj h)).1.symm

lemma Sound.processReq_cases (hs : s.Sound s.sent) (h : s.processReq req c = some (t, out)) :
    ServeCase s req t := by
  have hupdate (req₀ : Request P) := Sound.update_cases (s := { s with bankUpdateSeq := req₀.bankUpdateSeq })
    ⟨hs.keyed, hs.opened, hs.stored_answered, hs.known, hs.answered⟩ req₀
  have hnumbered := hupdate { req with bankUpdateSeq := s.bankUpdateSeq + 1, client := some c }
  unfold processReq at h
  by_cases hquery : req.type = .query
  · rw [if_pos hquery] at h
    split_ifs at h
    rw [handleQuery_state h]
    obtain ⟨hkeeps, happlied, hbalance⟩ := getBalance_spec (s := s) (a := req.accountId)
    exact .unchanged hkeeps happlied hbalance
  rw [if_neg hquery] at h
  by_cases hhead : (s.isHead && !s.isTail) = true
  · rw [if_pos hhead] at h
    have hrole : ¬s.isTail = true := by simpa using (Bool.and_eq_true_iff.mp hhead).2
    refine .update hquery ?_ ?_ ?_ hnumbered ?_
    iterate 3 rfl
    rw [headHandleRequest_state h, if_neg hrole]
    rfl
  rw [if_neg hhead] at h
  by_cases hsingle : (s.isHead && s.isTail) = true
  · rw [if_pos hsingle] at h
    have hrole : s.isTail = true := (Bool.and_eq_true_iff.mp hsingle).2
    refine .update hquery ?_ ?_ ?_ hnumbered ?_
    iterate 3 rfl
    rw [singleHandleRequest_state h, if_pos hrole]
    rfl
  rw [if_neg hsingle] at h
  by_cases hold : req.bankUpdateSeq ≤ s.bankUpdateSeq
  · rw [if_pos hold] at h
    obtain ⟨rfl, -⟩ := Prod.mk.inj (Option.some.inj h)
    exact .unchanged Keeps.refl rfl fun _ => rfl
  rw [if_neg hold] at h
  by_cases hnext : s.bankUpdateSeq = req.bankUpdateSeq - 1
  · rw [if_pos hnext] at h
    refine .update hquery rfl rfl (by omega) (hupdate req) ?_
    by_cases hrole : s.isTail = true
    · rw [if_pos hrole] at h
      rw [tailHandleRequest_state h, if_pos hrole]
      rfl
    · rw [if_neg hrole] at h
      rw [internalHandleRequest_state h, if_neg hrole]
      rfl
  · rw [if_neg hnext] at h
    cases h

lemma AppliedKept.of_stored (h : s.AppliedKept []) : s.AppliedKept waiting := by
  intro r hr
  have hstored := h r hr
  rw [kept_nil] at hstored
  rw [kept, hstored, Option.some_or]

lemma keepAnswered_eq (s : Server P) (r : Request P) : s.keepAnswered r =
    { (if r.isNew then s.insertProcessedList r else s) with
      sent := if s.extendingChain then s.sent ++ [r] else s.sent } := by
  unfold keepAnswered
  simp only [insertSentList, insertProcessedList]
  split_ifs <;> rfl

namespace ServeCase

/-- A request changes neither the role of the server nor the flags of an extension. -/
lemma frame (h : ServeCase s req t) : t.isHead = s.isHead ∧ t.isTail = s.isTail ∧
    t.extendingChain = s.extendingChain ∧ t.abortExtending = s.abortExtending := by
  cases h with
  | unchanged keeps applied balance =>
    rw [keeps.frame]
    exact ⟨rfl, rfl, rfl, rfl⟩
  | update type reqId accountId bankUpdateSeq update eq =>
    rw [eq, keepAnswered_eq, update.keeps.frame]
    unfold insertSentList insertProcessedList
    split_ifs <;> exact ⟨rfl, rfl, rfl, rfl⟩

lemma sent_of_tail (h : ServeCase s req t) (htail : s.isTail = true) (hext : s.extendingChain = false) :
    t.sent = s.sent := by
  cases h with
  | unchanged keeps applied balance => exact keeps.sent
  | update type reqId accountId bankUpdateSeq update eq =>
    rw [eq, if_pos htail, keepAnswered_eq, update.keeps.frame]
    exact if_neg (by simp [hext])

lemma sound (h : ServeCase s req t) (hs : s.Sound s.sent) : t.Sound t.sent := by
  cases h with
  | unchanged keeps applied balance =>
    rw [keeps.sent]
    exact hs.keeps keeps
  | @update req₀ req' u type reqId accountId bankUpdateSeq update eq =>
    have hu : u.Sound (s.sent ++ [req']) := update.sound
      ⟨hs.keyed, hs.opened, hs.stored_answered, hs.known, hs.answered⟩
    have hsent : u.sent = s.sent := update.keeps.sent
    rw [eq]
    split_ifs with htail
    · have ht : (if req'.isNew then u.insertProcessedList req' else u).Sound (s.sent ++ [req']) := by
        split_ifs
        · refine (hu.mono ?_).insertProcessedList
          exact List.cons_subset.mpr ⟨List.mem_append_right _ (List.mem_singleton_self _), List.Subset.refl _⟩
        · exact hu
      rw [keepAnswered_eq, hsent]
      have hsub : (if u.extendingChain then s.sent ++ [req'] else s.sent) ⊆ s.sent ++ [req'] := by
        split_ifs
        · exact List.Subset.refl _
        · exact List.subset_append_left _ _
      have hfin := ht.mono hsub
      exact ⟨hfin.keyed, hfin.opened, hfin.stored_answered, hfin.known, hfin.answered⟩
    · have hwaiting : (u.insertSentList req').sent = s.sent ++ [req'] := by rw [insertSentList, hsent]
      rw [hwaiting]
      exact ⟨hu.keyed, hu.opened, hu.stored_answered, hu.known, hu.answered⟩

/-- A tail has every update that it applied in `processed`. -/
lemma appliedStored (h : ServeCase s req t) (hs : s.Sound s.sent) (htail : s.isTail = true)
    (hstored : s.AppliedKept []) : t.AppliedKept [] := by
  cases h with
  | unchanged keeps applied balance => exact hstored.keeps keeps applied
  | @update req₀ req' u type reqId accountId bankUpdateSeq update eq =>
    have hnone (hfound : Server.found { s with bankUpdateSeq := req₀.bankUpdateSeq } req₀ = none) :
        s.kept [] req₀.accountId req₀.reqId = none := by
      have hkept : s.kept s.sent req₀.accountId req₀.reqId = none := hs.kept_of_found_none hfound
      exact kept_nil.trans (Option.or_eq_none_iff.mp hkept).1
    have hu := update.appliedKept hnone hstored
    rw [eq, if_pos htail, keepAnswered_eq]
    cases update with
    | found found keeps mem outcome eq' applied balance =>
      have hnew : ¬req'.isNew = true := by simp [eq']
      have hstored : Server.AppliedKept { s with bankUpdateSeq := req₀.bankUpdateSeq } [] := hstored
      have hsame : u.AppliedKept [] := hstored.keeps keeps applied
      rw [if_neg hnew]
      exact hsame
    | new found keeps mem eq' applied balance =>
      have hnew : req'.isNew = true := by
        rw [eq']
        rfl
      rw [if_pos hnew]
      exact hu.insertProcessedList

/-- What the updates of a server that is no tail still need is in its sent list. -/
lemma appliedKept (h : ServeCase s req t) (hs : s.Sound s.sent) (htail : s.isTail = false)
    (hkept : s.AppliedKept s.sent) : t.AppliedKept t.sent := by
  cases h with
  | unchanged keeps applied balance =>
    rw [keeps.sent]
    exact hkept.keeps keeps applied
  | @update req₀ req' u type reqId accountId bankUpdateSeq update eq =>
    have hwaiting : (u.insertSentList req').sent = s.sent ++ [req'] := by
      rw [insertSentList, update.keeps.sent]
    rw [eq, if_neg (by simp [htail]), hwaiting]
    exact update.appliedKept (fun hfound => hs.kept_of_found_none hfound) hkept

end ServeCase

/-! ### Moving the sent list -/

lemma AppliedKept.stored_insert (h : s.AppliedKept []) (r : Request P) : (s.insertProcessedList r).AppliedKept [] :=
  AppliedKept.insertProcessedList h.of_stored

/-- The loop of the `ACK` handler moves requests from the sent list to `processed` and does nothing else. -/
lemma moveAcked_frame (n : ℤ) (l : List (Request P)) (s : Server P) (last : Option (Request P)) :
    ∃ processed sent, (moveAcked n l s last).1 = { s with processed := processed, sent := sent } ∧
      (l = [] → sent = []) := by
  induction l generalizing s last with
  | nil => exact ⟨s.processed, [], rfl, fun _ => rfl⟩
  | cons r rest ih =>
    rw [moveAcked]
    split_ifs
    · obtain ⟨processed, sent, heq, -⟩ := ih (s.insertProcessedList r) (some r)
      exact ⟨processed, sent, heq, nofun⟩
    · exact ⟨s.processed, r :: rest, rfl, nofun⟩

/-- What holds of a server and the requests that wait, and is kept when the first of them is moved to
`processed`, holds after the loop of the `ACK` handler. -/
lemma moveAcked_rule {Q : Server P → List (Request P) → Prop}
    (hinsert : ∀ s r l, Q s (r :: l) → Q (s.insertProcessedList r) l)
    (hsent : ∀ s l, Q s l → Q { s with sent := l } l) (n : ℤ) (l : List (Request P)) (last : Option (Request P))
    (h : Q s l) : Q (moveAcked n l s last).1 (moveAcked n l s last).1.sent := by
  induction l generalizing s last with
  | nil => exact hsent s [] h
  | cons r rest ih =>
    rw [moveAcked]
    split_ifs
    · exact ih (some r) (hinsert s r rest h)
    · exact hsent s (r :: rest) h

/-- The same for the loop that moves the whole list. -/
lemma foldl_insertProcessedList_rule {Q : Server P → List (Request P) → Prop}
    (hinsert : ∀ s r l, Q s (r :: l) → Q (s.insertProcessedList r) l) (l : List (Request P)) (h : Q s l) :
    Q (l.foldl insertProcessedList s) [] := by
  induction l generalizing s with
  | nil => exact h
  | cons r rest ih => exact ih (hinsert s r rest h)

lemma moveAcked_sound (n : ℤ) (l : List (Request P)) (last : Option (Request P)) (hs : s.Sound l) :
    (moveAcked n l s last).1.Sound (moveAcked n l s last).1.sent :=
  moveAcked_rule (fun _ _ _ h => h.insertProcessedList)
    (fun _ _ h => ⟨h.keyed, h.opened, h.stored_answered, h.known, h.answered⟩) n l last hs

lemma moveAcked_appliedKept (n : ℤ) (l : List (Request P)) (last : Option (Request P)) (hs : s.AppliedKept l) :
    (moveAcked n l s last).1.AppliedKept (moveAcked n l s last).1.sent :=
  moveAcked_rule (Q := AppliedKept) (fun _ _ _ h => h.insertProcessedList) (fun _ _ h => h) n l last hs

lemma moveAcked_stored (n : ℤ) (l : List (Request P)) (last : Option (Request P)) (hstored : s.AppliedKept []) :
    (moveAcked n l s last).1.AppliedKept [] :=
  moveAcked_rule (Q := fun s _ => s.AppliedKept []) (fun _ r _ h => h.stored_insert r) (fun _ _ h => h) n l
    last hstored

lemma ack_state {n : ℤ} (h : s.ack n = some (t, out)) : t = (moveAcked n s.sent s none).1 := by
  obtain ⟨out', -, h⟩ := Option.bind_eq_some_iff.mp h
  exact (Prod.mk.inj (Option.some.inj h)).1.symm

lemma foldl_insertProcessedList_frame (l : List (Request P)) (s : Server P) :
    ∃ processed, l.foldl insertProcessedList s = { s with processed := processed } := by
  induction l generalizing s with
  | nil => exact ⟨s.processed, rfl⟩
  | cons r rest ih =>
    obtain ⟨processed, heq⟩ := ih (s.insertProcessedList r)
    exact ⟨processed, heq⟩

lemma toBeTail_state (h : s.toBeTail = some (t, out)) :
    t = { s.sent.foldl insertProcessedList { s with isTail := true } with sent := [] } := by
  obtain ⟨out', -, h⟩ := Option.bind_eq_some_iff.mp h
  exact (Prod.mk.inj (Option.some.inj h)).1.symm

end Server

end ChainReplication.DistAlgo
