import ChainReplication.Server.Log

/-!
# Duplicate detection

`update_request_reply` written as a function of the precedent that it finds, and what a server
remembers of the requests that it has carried out.
-/

namespace ChainReplication

namespace ChainServer

variable {s : ChainServer} {req : Request} {a : String}

/-- The balance of an account, 0 for an absent one. -/
def balance (s : ChainServer) (accountId : String) : ℚ := (s.accountMap.lookup accountId).getD 0

/-- The earlier request that `check_update_request` compares a request with. -/
def precedent (s : ChainServer) (req : Request) : Option Request :=
  if req.accountId ∈ s.accountMap then
    (s.processedMap.lookup req.key).or (s.sentList.find? fun it => req.reqId = it.reqId)
  else none

lemma getOrCreateAccount_of_mem (h : req.accountId ∈ s.accountMap) :
    s.getOrCreateAccount req = (s, false) := by
  obtain ⟨b, hb⟩ := Option.isSome_iff_exists.mp (AList.lookup_isSome.mpr h)
  simp [getOrCreateAccount, hb]

lemma getOrCreateAccount_of_notMem (h : req.accountId ∉ s.accountMap) :
    s.getOrCreateAccount req =
      ({ s with accountMap := s.accountMap.insert req.accountId 0 }, true) := by
  simp [getOrCreateAccount, AList.lookup_eq_none.mpr h]

lemma balance_of_notMem (h : a ∉ s.accountMap) : s.balance a = 0 := by
  simp [balance, AList.lookup_eq_none.mpr h]

lemma getBalance_of_mem (h : a ∈ s.accountMap) : s.getBalance a = (s, s.balance a) := by
  obtain ⟨b, hb⟩ := Option.isSome_iff_exists.mp (AList.lookup_isSome.mpr h)
  simp [getBalance, balance, hb]

lemma balance_congr {s' : ChainServer} (h : s'.accountMap = s.accountMap) :
    s'.balance = s.balance := by
  funext a
  rw [balance, h, balance]

lemma balance_getBalance (b : String) : (s.getBalance b).1.balance = s.balance := by
  by_cases h : b ∈ s.accountMap
  · rw [getBalance_of_mem h]
  · funext a
    simp only [getBalance, AList.lookup_eq_none.mpr h]
    by_cases ha : a = b
    · subst ha
      rw [balance_of_notMem h]
      simp [balance]
    · simp [balance, AList.lookup_insert_ne ha]

/-- The account of a request exists in the state that `get_or_create_account` returns. -/
lemma mem_getOrCreateAccount : req.accountId ∈ (s.getOrCreateAccount req).1.accountMap := by
  by_cases h : req.accountId ∈ s.accountMap
  · rwa [getOrCreateAccount_of_mem h]
  · rw [getOrCreateAccount_of_notMem h]
    exact AList.mem_insert _ |>.mpr (Or.inl rfl)

lemma balance_getOrCreateAccount : (s.getOrCreateAccount req).1.balance a = s.balance a := by
  by_cases h : req.accountId ∈ s.accountMap
  · rw [getOrCreateAccount_of_mem h]
  · rw [getOrCreateAccount_of_notMem h]
    by_cases ha : a = req.accountId
    · subst ha
      rw [balance_of_notMem h]
      simp [balance]
    · simp [balance, AList.lookup_insert_ne ha]

lemma checkHistory_precedent (hmem : req.accountId ∈ s.accountMap) (reply : Reply) :
    s.checkHistory req reply = match s.precedent req with
      | some it => if reqConsistent req it then (.processed, it.reply) else (.inconsistent, reply)
      | none => (.newreq, reply) := by
  unfold checkHistory precedent
  rw [if_pos hmem]
  cases s.processedMap.lookup req.key <;> rfl

lemma mem_accounts_of_precedent {it : Request} (h : s.precedent req = some it) :
    req.accountId ∈ s.accountMap := by
  by_contra hmem
  simp [precedent, hmem] at h

/-- `check_update_request` on a request that has a precedent. -/
lemma checkUpdateRequest_of_precedent {it : Request} (h : s.precedent req = some it)
    (reply : Reply) : s.checkUpdateRequest req reply =
      (s, if reqConsistent req it then (.processed, it.reply) else (.inconsistent, reply)) := by
  have hmem := mem_accounts_of_precedent h
  have hcheck := checkHistory_precedent hmem reply
  rw [h] at hcheck
  simp [checkUpdateRequest, getOrCreateAccount_of_mem hmem, hcheck]

/-- `update_request_reply` on a request that has a precedent. -/
lemma updateRequestReply_of_precedent {it : Request} (h : s.precedent req = some it) :
    s.updateRequestReply req = (s, req.answerFrom it (s.balance req.accountId)) := by
  have hcheck := checkUpdateRequest_of_precedent h
    { reqId := req.reqId, accountId := req.accountId }
  by_cases hcons : reqConsistent req it = true
  · simp [updateRequestReply, hcheck, Request.answerFrom, hcons]
  · simp [updateRequestReply, hcheck, Request.answerFrom, hcons,
      getBalance_of_mem (mem_accounts_of_precedent h)]

/-- `update_request_reply` on a request without a precedent: it is carried out. -/
lemma updateRequestReply_of_none (h : s.precedent req = none) :
    (s.updateRequestReply req).2 = req.answerNew (s.balance req.accountId) ∧
      (s.updateRequestReply req).1 = if req.Debits ∧ s.balance req.accountId < req.amount then
        (s.getOrCreateAccount req).1
      else { s with
        accountMap := s.accountMap.insert req.accountId
          (req.newBalance (s.balance req.accountId)) } := by
  have hcheck : s.checkUpdateRequest req { reqId := req.reqId, accountId := req.accountId } =
      ((s.getOrCreateAccount req).1, .newreq,
        { reqId := req.reqId, accountId := req.accountId }) := by
    unfold checkUpdateRequest
    by_cases hmem : req.accountId ∈ s.accountMap
    · rw [getOrCreateAccount_of_mem hmem]
      have hcheck := checkHistory_precedent hmem { reqId := req.reqId, accountId := req.accountId }
      rw [h] at hcheck
      simp [hcheck]
    · simp [getOrCreateAccount_of_notMem hmem]
  have hmem : req.accountId ∈ (s.getOrCreateAccount req).1.accountMap := mem_getOrCreateAccount
  have hlookup : ((s.getOrCreateAccount req).1.accountMap.lookup req.accountId).getD 0 =
      s.balance req.accountId := balance_getOrCreateAccount
  have hinsert : ∀ b, { (s.getOrCreateAccount req).1 with
      accountMap := (s.getOrCreateAccount req).1.accountMap.insert req.accountId b } =
      { s with accountMap := s.accountMap.insert req.accountId b } := by
    intro b
    by_cases hmem : req.accountId ∈ s.accountMap
    · rw [getOrCreateAccount_of_mem hmem]
    · rw [getOrCreateAccount_of_notMem hmem, AList.insert_insert]
  have hidem := getOrCreateAccount_of_mem hmem
  simp only [updateRequestReply, hcheck, updateBalance, hidem, hlookup]
  by_cases hdebit : req.Debits
  · have htype : req.type = .withdraw ∨ req.type = .transfer := hdebit
    rw [if_pos htype]
    by_cases hfunds : s.balance req.accountId < req.amount
    · simp [hfunds, hdebit, getBalance_of_mem hmem, balance_getOrCreateAccount, Request.answerNew]
    · simp only [hfunds, if_false, and_false, hinsert, Request.answerNew, Request.newBalance, hdebit,
        if_true]
      rw [getBalance_of_mem (AList.mem_insert _ |>.mpr (Or.inl rfl))]
      simp [balance]
  · have htype : ¬ (req.type = .withdraw ∨ req.type = .transfer) := hdebit
    rw [if_neg htype]
    simp only [hdebit, false_and, if_false, hinsert, Request.answerNew, Request.newBalance]
    rw [getBalance_of_mem (AList.mem_insert _ |>.mpr (Or.inl rfl))]
    simp [balance]

/-- Only an update that is carried out changes a balance, and only that of its account. -/
lemma balance_updateRequestReply (s : ChainServer) (req : Request) :
    (s.updateRequestReply req).1.balance = if (s.updateRequestReply req).2.Applied then
      Function.update s.balance req.accountId (req.newBalance (s.balance req.accountId))
    else s.balance := by
  cases h : s.precedent req with
  | some it =>
    rw [updateRequestReply_of_precedent h, if_neg]
    exact fun happlied => Request.answerFrom_checkResult happlied.1
  | none =>
    obtain ⟨hanswer, hserver⟩ := updateRequestReply_of_none h
    have happlied : (req.answerNew (s.balance req.accountId)).Applied ↔
        ¬ (req.Debits ∧ s.balance req.accountId < req.amount) := by
      rw [Request.Applied, Request.answerNew_outcome]
      simp
    rw [hanswer, hserver]
    by_cases hfailed : req.Debits ∧ s.balance req.accountId < req.amount
    · rw [if_pos hfailed, if_neg (by rw [happlied]; exact not_not.mpr hfailed)]
      exact funext fun a => balance_getOrCreateAccount
    · rw [if_neg hfailed, if_pos (happlied.mpr hfailed)]
      funext a
      by_cases ha : a = req.accountId
      · rw [ha]
        simp [balance]
      · simp [balance, Function.update_of_ne ha, AList.lookup_insert_ne ha]

lemma mem_accounts_updateRequestReply : a ∈ (s.updateRequestReply req).1.accountMap ↔
    a = req.accountId ∨ a ∈ s.accountMap := by
  have hcreate : a ∈ (s.getOrCreateAccount req).1.accountMap ↔
      a = req.accountId ∨ a ∈ s.accountMap := by
    by_cases hmem : req.accountId ∈ s.accountMap
    · rw [getOrCreateAccount_of_mem hmem]
      constructor
      · exact Or.inr
      · rintro (rfl | h)
        · exact hmem
        · exact h
    · rw [getOrCreateAccount_of_notMem hmem, AList.mem_insert]
  cases h : s.precedent req with
  | some it =>
    rw [updateRequestReply_of_precedent h]
    have hmem := mem_accounts_of_precedent h
    constructor
    · exact Or.inr
    · rintro (rfl | h)
      · exact hmem
      · exact h
  | none =>
    rw [(updateRequestReply_of_none h).2]
    split_ifs
    · exact hcreate
    · exact AList.mem_insert _

/-- A request is carried out exactly when it has no precedent. -/
lemma answered_newreq : (s.answered req).checkResult = .newreq ↔ s.precedent req = none := by
  have hsame : s.accept.precedent (s.number req) = s.precedent req := rfl
  unfold answered
  cases h : s.precedent req with
  | some it =>
    rw [updateRequestReply_of_precedent (hsame.trans h)]
    simp only [reduceCtorEq, iff_false]
    exact Request.answerFrom_checkResult
  | none =>
    rw [(updateRequestReply_of_none (hsame.trans h)).1]
    simp

lemma answered_key : (s.answered req).key = req.key := by
  simp [Request.key]

lemma answered_of_precedent {it : Request} (h : s.precedent req = some it) :
    s.answered req = (s.number req).answerFrom it (s.balance req.accountId) := by
  have hsame : s.accept.precedent (s.number req) = s.precedent req := rfl
  rw [answered, updateRequestReply_of_precedent (hsame.trans h)]
  rfl

lemma answered_of_none (h : s.precedent req = none) :
    s.answered req = (s.number req).answerNew (s.balance req.accountId) := by
  have hsame : s.accept.precedent (s.number req) = s.precedent req := rfl
  rw [answered, (updateRequestReply_of_none (hsame.trans h)).1]
  rfl

/-! ### The stores -/

/-- The first request under a key stays. -/
lemma lookup_insertProcessedList (k : String) :
    (s.insertProcessedList req).processedMap.lookup k =
      (s.processedMap.lookup k).or (if req.key = k then some req else none) := by
  unfold insertProcessedList
  by_cases hmem : req.key ∈ s.processedMap
  · rw [if_pos hmem]
    obtain ⟨it, hit⟩ := Option.isSome_iff_exists.mp (AList.lookup_isSome.mpr hmem)
    split_ifs with hk
    · rw [← hk, hit]
      rfl
    · rw [Option.or_none]
  · rw [if_neg hmem]
    split_ifs with hk
    · rw [← hk, AList.lookup_eq_none.mpr hmem, AList.lookup_insert]
      rfl
    · rw [Option.or_none, AList.lookup_insert_ne (Ne.symm hk)]

lemma lookup_insertAllProcessed (l : List Request) (k : String) :
    (s.insertAllProcessed l).processedMap.lookup k =
      (s.processedMap.lookup k).or (l.find? fun it => it.key = k) := by
  induction l generalizing s with
  | nil => simp [insertAllProcessed]
  | cons q l ih =>
    have ih := ih (s := s.insertProcessedList q)
    rw [insertAllProcessed] at ih ⊢
    rw [List.foldl_cons, ih, lookup_insertProcessedList, Option.or_assoc, List.find?_cons]
    congr 1
    by_cases hk : q.key = k <;> simp [hk]

lemma mem_insertAllProcessed {l : List Request} {k : String} :
    k ∈ (s.insertAllProcessed l).processedMap ↔
      k ∈ s.processedMap ∨ ∃ q ∈ l, q.key = k := by
  rw [← AList.lookup_isSome, lookup_insertAllProcessed, Option.isSome_or, Bool.or_eq_true,
    AList.lookup_isSome, List.find?_isSome]
  simp

lemma mem_remember {q : Request} {k : String} : k ∈ (s.remember q).processedMap ↔
    k ∈ s.processedMap ∨ q.checkResult = .newreq ∧ q.key = k := by
  unfold remember
  split_ifs with hnew
  · rw [← AList.lookup_isSome, lookup_insertProcessedList, Option.isSome_or, Bool.or_eq_true,
      AList.lookup_isSome]
    by_cases hk : q.key = k <;> simp [hk, hnew]
  · simp [hnew]

/-! ### What a server remembers -/

/-- The account exists, and one of the stores holds a request under this id for it. -/
def Remembers (s : ChainServer) (reqId accountId : String) : Prop :=
  accountId ∈ s.accountMap ∧ (reqId ++ "_" ++ accountId ∈ s.processedMap ∨
    ∃ e ∈ s.sentList, e.reqId = reqId ∧ e.accountId = accountId)

lemma Remembers.exists_precedent (h : s.Remembers req.reqId req.accountId) :
    ∃ it, s.precedent req = some it := by
  rw [← Option.isSome_iff_exists, precedent, if_pos h.1, Option.isSome_or, Bool.or_eq_true]
  rcases h.2 with hkey | ⟨e, he, hid, -⟩
  · exact Or.inl (AList.lookup_isSome.mpr hkey)
  · right
    rw [List.find?_isSome]
    exact ⟨e, he, by simp [hid]⟩

/-- Every request that was carried out is remembered, and none was carried out twice. -/
structure Deduplicates (s : ChainServer) : Prop where
  stored : ∀ k it, s.processedMap.lookup k = some it → it ∈ s.hist ∧ it.key = k
  known : ∀ q ∈ s.hist, q.checkResult = .newreq → s.Remembers q.reqId q.accountId
  once : s.hist.Pairwise fun q q' => q.checkResult = .newreq → q'.checkResult = .newreq →
    ¬ (q.reqId = q'.reqId ∧ q.accountId = q'.accountId)

section Step

variable {msg : Message} {e : Effect}

lemma mem_accounts_getBalance (h : a ∈ s.accountMap) (b : String) :
    a ∈ (s.getBalance b).1.accountMap := by
  unfold getBalance
  split
  · exact (AList.mem_insert _).mpr (Or.inr h)
  · exact h

/-- No handler removes an account. -/
lemma LogStep.accounts_mono (hstep : LogStep s msg e) (h : a ∈ s.accountMap) :
    a ∈ e.server.accountMap := by
  cases hstep with
  | keep _ _ _ _ _ _ accounts =>
    rcases accounts with heq | ⟨b, heq⟩
    · rwa [heq]
    · rw [heq]
      exact mem_accounts_getBalance h b
  | relay _ _ _ _ _ _ _ accounts =>
    rw [accounts]
    exact mem_accounts_updateRequestReply.mpr (Or.inr h)
  | answer _ _ _ _ _ _ _ accounts =>
    rw [accounts]
    exact mem_accounts_updateRequestReply.mpr (Or.inr h)
  | ack _ _ _ _ accounts => rwa [accounts]
  | toBeTail _ _ _ _ accounts => rwa [accounts]
  | reply _ _ _ _ accounts => rwa [accounts]
  | resend _ _ _ _ _ accounts => rwa [accounts]

/-- What a server remembers it does not forget, if a reply only removes requests that are in
`processed_map_` as well. -/
lemma LogStep.remembers_mono (hstep : LogStep s msg e) {r : String}
    (hreply : ∀ rep, msg = .reply rep → ∀ t ∈ s.sentList, t.reqId = r → t.accountId = a →
      t.reqId = rep.reqId → t.destAccountId = rep.accountId → t.key ∈ s.processedMap)
    (h : s.Remembers r a) : e.server.Remembers r a := by
  refine ⟨hstep.accounts_mono h.1, ?_⟩
  have hstore := h.2
  have hkey {t : Request} (hid : t.reqId = r) (hacc : t.accountId = a) :
      t.key = r ++ "_" ++ a := by rw [Request.key, hid, hacc]
  cases hstep with
  | keep _ _ sent _ _ _ _ processed => rwa [sent, processed]
  | resend _ _ sent _ _ _ processed => rwa [sent, processed]
  | relay _ _ _ _ _ sent _ _ processed =>
    rw [sent, processed]
    refine hstore.imp id ?_
    rintro ⟨t, ht, heq⟩
    exact ⟨t, List.mem_append_left _ ht, heq⟩
  | answer _ _ _ _ _ sent _ _ processed =>
    rw [sent, processed, mem_remember]
    rcases hstore with hmem | ⟨t, ht, heq⟩
    · exact Or.inl (Or.inl hmem)
    · exact Or.inr ⟨t, List.mem_append_left _ ht, heq⟩
  | @ack a _ _ _ sent _ _ processed =>
    rw [sent, processed, mem_insertAllProcessed]
    rcases hstore with hmem | ⟨t, ht, hid, hacc⟩
    · exact Or.inl (Or.inl hmem)
    · rw [← List.takeWhile_append_dropWhile (p := fun it => decide (it.bankUpdateSeq ≤ a.bankUpdateSeq))
        (l := s.sentList), List.mem_append] at ht
      rcases ht with ht | ht
      · exact Or.inl (Or.inr ⟨t, ht, hkey hid hacc⟩)
      · exact Or.inr ⟨t, ht, hid, hacc⟩
  | toBeTail _ _ sent _ _ processed =>
    rw [sent, processed, mem_insertAllProcessed]
    rcases hstore with hmem | ⟨t, ht, hid, hacc⟩
    · exact Or.inl (Or.inl hmem)
    · by_cases htype : t.type = .transfer
      · exact Or.inr ⟨t, List.mem_filter.mpr ⟨ht, by simpa using htype⟩, hid, hacc⟩
      · exact Or.inl (Or.inr ⟨t, List.mem_filter.mpr ⟨ht, by simpa using htype⟩, hkey hid hacc⟩)
  | @reply rep _ _ _ sent _ _ processed =>
    rw [sent, processed]
    rcases hstore with hmem | ⟨t, ht, hid, hacc⟩
    · exact Or.inl hmem
    · by_cases hdone : t.reqId = rep.reqId ∧ t.destAccountId = rep.accountId
      · left
        rw [← hkey hid hacc]
        exact hreply rep rfl t ht hid hacc hdone.1 hdone.2
      · refine Or.inr ⟨t, List.mem_filter.mpr ⟨ht, ?_⟩, hid, hacc⟩
        simpa using not_and_or.mp hdone

/-- Whatever a handler puts into `processed_map_` is in the history. -/
lemma LogStep.stored (hstep : LogStep s msg e) (hlog : s.LogWf)
    (h : ∀ k it, s.processedMap.lookup k = some it → it ∈ s.hist ∧ it.key = k) (k : String)
    (it : Request) (hit : e.server.processedMap.lookup k = some it) :
    it ∈ e.server.hist ∧ it.key = k := by
  have old {k : String} {it : Request} (hit : s.processedMap.lookup k = some it) :
      it ∈ e.server.hist ∧ it.key = k :=
    ⟨hstep.prefix_hist.subset (h k it hit).1, (h k it hit).2⟩
  have moved {l : List Request} (hl : l ⊆ s.sentList)
      (hit : (s.insertAllProcessed l).processedMap.lookup k = some it) :
      it ∈ e.server.hist ∧ it.key = k := by
    rw [lookup_insertAllProcessed, Option.or_eq_some_iff] at hit
    rcases hit with hit | ⟨-, hit⟩
    · exact old hit
    · refine ⟨hstep.prefix_hist.subset (hlog.mem_hist (hl (List.mem_of_find?_eq_some hit))), ?_⟩
      simpa using List.find?_some hit
  cases hstep with
  | keep _ _ _ _ _ _ _ processed => exact old (processed ▸ hit)
  | resend _ _ _ _ _ _ processed => exact old (processed ▸ hit)
  | reply _ _ _ _ _ processed => exact old (processed ▸ hit)
  | relay _ _ _ _ _ _ _ _ processed => exact old (processed ▸ hit)
  | answer _ _ _ hist _ _ _ _ processed =>
    rw [processed, remember] at hit
    split_ifs at hit
    · rw [lookup_insertProcessedList, Option.or_eq_some_iff] at hit
      rcases hit with hit | ⟨-, hit⟩
      · exact old hit
      · simp only [Option.ite_none_right_eq_some, Option.some.injEq] at hit
        obtain ⟨hk, rfl⟩ := hit
        exact ⟨by rw [hist]; simp, hk⟩
    · exact old hit
  | ack _ _ _ _ _ processed =>
    exact moved (List.takeWhile_sublist _).subset (processed ▸ hit)
  | toBeTail _ _ _ _ _ processed => exact moved List.filter_sublist.subset (processed ▸ hit)

theorem Deduplicates.step (h : Deduplicates s) (hlog : s.LogWf) (hstep : LogStep s msg e)
    (hreply : ∀ rep, msg = .reply rep → ∀ t ∈ s.sentList, t.reqId = rep.reqId →
      t.destAccountId = rep.accountId → t.key ∈ s.processedMap) : Deduplicates e.server := by
  have mono {q : Request} (hq : q ∈ s.hist) (hnew : q.checkResult = .newreq) :
      e.server.Remembers q.reqId q.accountId :=
    hstep.remembers_mono (fun rep hmsg t ht _ _ => hreply rep hmsg t ht) (h.known q hq hnew)
  have same (hist : e.server.hist = s.hist) : Deduplicates e.server :=
    ⟨hstep.stored hlog h.stored, by rw [hist]; exact fun q hq => mono hq,
      by rw [hist]; exact h.once⟩
  have grown {req : Request} (hist : e.server.hist = s.hist ++ [s.answered req])
      (hknown : (s.answered req).checkResult = .newreq →
        e.server.Remembers req.reqId req.accountId) : Deduplicates e.server := by
    refine ⟨hstep.stored hlog h.stored, ?_, ?_⟩
    · intro q hq hnew
      rw [hist, List.mem_append, List.mem_singleton] at hq
      rcases hq with hq | rfl
      · exact mono hq hnew
      · rw [answered_reqId, answered_accountId]
        exact hknown hnew
    · rw [hist, List.pairwise_append]
      refine ⟨h.once, List.pairwise_singleton _ _, ?_⟩
      intro q hq q' hq' hnew hnew' heq
      obtain rfl := List.mem_singleton.mp hq'
      rw [answered_reqId, answered_accountId] at heq
      have hknown := h.known q hq hnew
      rw [heq.1, heq.2] at hknown
      obtain ⟨it, hit⟩ := hknown.exists_precedent
      rw [answered_newreq, hit] at hnew'
      simp at hnew'
  cases hstep with
  | keep hist => exact same hist
  | ack hist => exact same hist
  | toBeTail hist => exact same hist
  | reply hist => exact same hist
  | resend hist => exact same hist
  | @relay req _ type tail next hist seq sent out accounts processed =>
    refine grown hist fun _ => ⟨?_, Or.inr ⟨s.answered req, ?_, by simp, by simp⟩⟩
    · rw [accounts]
      exact mem_accounts_updateRequestReply.mpr (Or.inl rfl)
    · rw [sent]
      simp
  | @answer req _ type tail next hist seq sent out accounts processed =>
    refine grown hist fun hnew => ⟨?_, Or.inl ?_⟩
    · rw [accounts]
      exact mem_accounts_updateRequestReply.mpr (Or.inl rfl)
    · rw [processed, mem_remember]
      exact Or.inr ⟨hnew, by simp [Request.key]⟩

/-- A request carried out under an id for an account is remembered, and it is the only one. -/
structure CarriesOnce (s : ChainServer) (r a : String) : Prop where
  known : ∀ q ∈ s.hist, q.checkResult = .newreq → q.reqId = r → q.accountId = a → s.Remembers r a
  once : (s.hist.filter fun q =>
    q.checkResult = .newreq ∧ q.reqId = r ∧ q.accountId = a).length ≤ 1

theorem CarriesOnce.step {r : String} (h : CarriesOnce s r a) (hstep : LogStep s msg e)
    (hreply : ∀ rep, msg = .reply rep → ∀ t ∈ s.sentList, t.reqId = r → t.accountId = a →
      t.reqId = rep.reqId → t.destAccountId = rep.accountId → t.key ∈ s.processedMap) :
    CarriesOnce e.server r a := by
  have mono (hs : s.Remembers r a) : e.server.Remembers r a := hstep.remembers_mono hreply hs
  have same (hist : e.server.hist = s.hist) : CarriesOnce e.server r a := by
    refine ⟨?_, by rw [hist]; exact h.once⟩
    rw [hist]
    exact fun q hq hnew hid hacc => mono (h.known q hq hnew hid hacc)
  have grown {req : Request} (hist : e.server.hist = s.hist ++ [s.answered req])
      (hknown : (s.answered req).checkResult = .newreq →
        e.server.Remembers req.reqId req.accountId) : CarriesOnce e.server r a := by
    by_cases hfirst : (s.answered req).checkResult = .newreq ∧ req.reqId = r ∧ req.accountId = a
    · obtain ⟨hnew, rfl, rfl⟩ := hfirst
      have hnone : ∀ q ∈ s.hist, ¬ (q.checkResult = .newreq ∧ q.reqId = req.reqId ∧
          q.accountId = req.accountId) := by
        rintro q hq ⟨hq', hid, hacc⟩
        obtain ⟨it, hit⟩ := (h.known q hq hq' hid hacc).exists_precedent
        rw [answered_newreq, hit] at hnew
        cases hnew
      refine ⟨fun _ _ _ _ _ => hknown hnew, ?_⟩
      have hold : (s.hist.filter fun q => q.checkResult = .newreq ∧ q.reqId = req.reqId ∧
          q.accountId = req.accountId) = [] := by
        rw [List.filter_eq_nil_iff]
        intro q hq
        simpa using hnone q hq
      rw [hist, List.filter_append, hold, List.nil_append]
      exact List.length_filter_le _ _
    · refine ⟨?_, ?_⟩
      · intro q hq hnew hid hacc
        rw [hist, List.mem_append, List.mem_singleton] at hq
        rcases hq with hq | rfl
        · exact mono (h.known q hq hnew hid hacc)
        · rw [answered_reqId] at hid
          rw [answered_accountId] at hacc
          exact absurd ⟨hnew, hid, hacc⟩ hfirst
      · have hlast : ([s.answered req].filter fun q => q.checkResult = .newreq ∧ q.reqId = r ∧
            q.accountId = a) = [] := by
          rw [List.filter_eq_nil_iff]
          intro q hq
          rw [List.mem_singleton.mp hq, answered_reqId, answered_accountId, decide_eq_true_eq]
          exact hfirst
        rw [hist, List.filter_append, hlast, List.append_nil]
        exact h.once
  cases hstep with
  | keep hist => exact same hist
  | ack hist => exact same hist
  | toBeTail hist => exact same hist
  | reply hist => exact same hist
  | resend hist => exact same hist
  | @relay req _ type tail next hist seq sent out accounts processed =>
    refine grown hist fun _ => ⟨?_, Or.inr ⟨s.answered req, ?_, by simp, by simp⟩⟩
    · rw [accounts]
      exact mem_accounts_updateRequestReply.mpr (Or.inl rfl)
    · rw [sent]
      simp
  | @answer req _ type tail next hist seq sent out accounts processed =>
    refine grown hist fun hnew => ⟨?_, Or.inl ?_⟩
    · rw [accounts]
      exact mem_accounts_updateRequestReply.mpr (Or.inl rfl)
    · rw [processed, mem_remember]
      exact Or.inr ⟨hnew, by simp [Request.key]⟩

end Step

/-- A precedent is a request of the history under the same id or the same key. -/
lemma precedent_mem (hstored : ∀ k it, s.processedMap.lookup k = some it → it ∈ s.hist ∧ it.key = k)
    (hlog : s.LogWf) {it : Request} (hit : s.precedent req = some it) :
    it ∈ s.hist ∧ (it.reqId = req.reqId ∨ it.key = req.key) := by
  rw [precedent, if_pos (mem_accounts_of_precedent hit), Option.or_eq_some_iff] at hit
  rcases hit with hit | ⟨-, hit⟩
  · exact ⟨(hstored _ it hit).1, Or.inr (hstored _ it hit).2⟩
  · refine ⟨hlog.mem_hist (List.mem_of_find?_eq_some hit), Or.inl ?_⟩
    have hid := List.find?_some hit
    exact (by simpa using hid : req.reqId = it.reqId).symm

/-- Requests under one id for one account are carried out at most once. -/
lemma Deduplicates.length_filter_le (h : Deduplicates s) (r a : String) {P : Request → Bool}
    (hP : ∀ q, P q = true → q.checkResult = .newreq ∧ q.reqId = r ∧ q.accountId = a) :
    (s.hist.filter P).length ≤ 1 := by
  have hpairwise := h.once.filter P
  cases hl : s.hist.filter P with
  | nil => simp
  | cons q l =>
    cases l with
    | nil => simp
    | cons q' l =>
      exfalso
      rw [hl] at hpairwise
      have hq := hP q (List.of_mem_filter (by rw [hl]; simp))
      have hq' := hP q' (List.of_mem_filter (by rw [hl]; simp))
      exact (List.pairwise_cons.mp hpairwise).1 q' (by simp) hq.1 hq'.1
        ⟨by rw [hq.2.1, hq'.2.1], by rw [hq.2.2, hq'.2.2]⟩

end ChainServer

end ChainReplication
