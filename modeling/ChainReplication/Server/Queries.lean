import ChainReplication.Server.Duplicates
import ChainReplication.Server.Roles
import ChainReplication.Server.Single

/-!
# Queries among the updates of a tail

`get_balance` creates the account that a query asks about, and `check_update_request` looks an update up
only if its account exists. Two runs of a tail on the same updates are compared, one of them with queries
in between.
-/

namespace ChainReplication

/-- The replies to updates among the packets of a handler. -/
def Effect.updateReplies (e : Effect) : List Request := e.replies.filter (·.type ≠ .query)

/-- Two runs cannot be told apart by the updates: the same answers, sent or only logged so far, and the
same balances. -/
structure Effect.SameUpdates (e e' : Effect) : Prop where
  ok : e.ok = e'.ok
  hist : e.server.hist = e'.server.hist
  replies : e.updateReplies = e'.updateReplies
  balance : e.server.balance = e'.server.balance

/-- The effect over other accounts. -/
def Effect.withAccounts (e : Effect) (m : AList fun _ : String => ℚ) : Effect :=
  { e with server := { e.server with accountMap := m } }

namespace ChainServer

variable {s s' : ChainServer} {req : Request} {m : AList fun _ : String => ℚ}
  {us us₁ us₂ ws : List Request}

/-- The server carries the update out or answers it, instead of dropping it or failing on its number. -/
def Takes (s : ChainServer) (req : Request) : Prop :=
  s.ishead = true ∨ req.bankUpdateSeq = s.bankUpdateSeq + 1

instance (s : ChainServer) (req : Request) : Decidable (s.Takes req) := inferInstanceAs (Decidable (_ ∨ _))

/-- An update that opens its account finds nothing under its key in `processed_map_` or under its id in
`sent_list_`. -/
def OpensFreely (s : ChainServer) (req : Request) : Prop :=
  s.Takes req → req.accountId ∉ s.accountMap → s.storedEntry req = none

/-- A server that has been asked more: it differs in accounts without money only. -/
structure Queried (s s' : ChainServer) : Prop where
  frame : s' = { s with accountMap := s'.accountMap }
  accounts : ∀ a ∈ s.accountMap, a ∈ s'.accountMap
  balance : s'.balance = s.balance

/-! ### What an answering server does with the accounts -/

/-- The answering handlers change the accounts in `update_request_reply` only. -/
lemma answerUpdate_frame (s : ChainServer) (req : Request) : ∃ p l, (s.answerUpdate req).server =
    { s with
      accountMap := (s.updateRequestReply req).1.accountMap
      hist := s.hist ++ [(s.updateRequestReply req).2]
      processedMap := p
      sentList := l } := by
  obtain ⟨m, hm⟩ := updateRequestReply_eq s req
  unfold answerUpdate
  simp only [hm]
  split_ifs
  · rw [handleTransfer_server]
    obtain ⟨p, hp⟩ := remember_eq (writeLogReply { s with accountMap := m } (s.updateRequestReply req).2)
      (s.updateRequestReply req).2
    rw [hp]
    exact ⟨p, _, rfl⟩
  · change ∃ p l, storeUpdate _ _ = _
    obtain ⟨p, hp⟩ := remember_eq (writeLogReply { s with accountMap := m } (s.updateRequestReply req).2)
      (s.updateRequestReply req).2
    change ∃ p' l, (if (remember _ _).extendingChain then (remember _ _).insertSentList _
      else remember _ _) = _
    rw [hp]
    split_ifs
    · exact ⟨p, _, rfl⟩
    · exact ⟨p, _, rfl⟩

lemma withAccounts_andThen {e : Effect} {f : ChainServer → Effect}
    (h : ∀ t, f { t with accountMap := m } = (f t).withAccounts m) :
    (e.withAccounts m).andThen f = (e.andThen f).withAccounts m := by
  unfold Effect.andThen
  change (if e.ok then _ else _) = _
  split_ifs
  · have h := h e.server
    simp only [Effect.withAccounts] at h ⊢
    rw [h]
  · rfl

lemma forwardTransferToDownstream_withAccounts : { s with accountMap := m }.forwardTransferToDownstream req =
    (s.forwardTransferToDownstream req).withAccounts m := by
  simp only [forwardTransferToDownstream]
  split <;> rfl

lemma insertProcessedList_withAccounts : { s with accountMap := m }.insertProcessedList req =
    { s.insertProcessedList req with accountMap := m } := by
  unfold insertProcessedList
  split_ifs <;> rfl

lemma handleTransfer_withAccounts :
    { s with accountMap := m }.handleTransfer req = (s.handleTransfer req).withAccounts m := by
  unfold handleTransfer
  simp only [insertProcessedList_withAccounts]
  rw [← withAccounts_andThen]
  · congr 1
    split_ifs
    · exact @forwardTransferToDownstream_withAccounts ((s.insertProcessedList req).insertSentList req) req m
    · rfl
    · rfl
  · intro t
    split_ifs <;> rfl

lemma storeUpdate_withAccounts :
    { s with accountMap := m }.storeUpdate req = { s.storeUpdate req with accountMap := m } := by
  unfold storeUpdate
  simp only [insertProcessedList_withAccounts]
  split_ifs <;> simp_all [insertSentList]

/-- Apart from `update_request_reply` the answering handlers do not look at the accounts. -/
lemma answerUpdate_withAccounts (hanswer : (s'.updateRequestReply req).2 = (s.updateRequestReply req).2)
    (hserver : (s'.updateRequestReply req).1 = { (s.updateRequestReply req).1 with accountMap := m }) :
    s'.answerUpdate req = (s.answerUpdate req).withAccounts m := by
  have hlog : { (s.updateRequestReply req).1 with accountMap := m }.writeLogReply
      (s.updateRequestReply req).2 =
      { (s.updateRequestReply req).1.writeLogReply (s.updateRequestReply req).2 with accountMap := m } := rfl
  unfold answerUpdate
  simp only [hanswer, hserver, hlog]
  split_ifs
  · exact handleTransfer_withAccounts
  · rw [storeUpdate_withAccounts]
    rfl

/-- What an answering server does with an update that it takes. -/
def answerTaken (s : ChainServer) (req : Request) : Effect :=
  if s.ishead then s.accept.answerUpdate (s.number req) else s.accept.tailHandleUpdate (s.number req)

lemma receiveRequest_taken (htail : s.istail = true) (htype : req.type ≠ .query) (h : s.Takes req) :
    s.receiveRequest req = s.answerTaken req := by
  unfold answerTaken
  split_ifs with hhead
  · exact receiveRequest_single hhead htail htype
  · have hhead : s.ishead = false := by simpa using hhead
    exact receiveRequest_tail hhead htail htype (h.resolve_left (by simp [hhead]))

lemma receiveRequest_untaken (htype : req.type ≠ .query) (h : ¬ s.Takes req) :
    s.receiveRequest req = { server := s, ok := decide (req.bankUpdateSeq ≤ s.bankUpdateSeq) } := by
  obtain ⟨hhead, hnext⟩ := not_or.mp h
  have hcase := receiveRequest_cases s req
  generalize s.receiveRequest req = e at hcase ⊢
  cases hcase with
  | query type tail => exact absurd type htype
  | refused why =>
    have hseq := (why.resolve_left htype).2
    simp [abort, show ¬ req.bankUpdateSeq ≤ s.bankUpdateSeq by omega]
  | duplicate head seen => simp [seen]
  | relayed type tail next => exact absurd next (not_or.mpr ⟨hhead, hnext⟩)
  | single type tail head => exact absurd head hhead
  | tail type tail head next => exact absurd next hnext

lemma answerTaken_frame (s : ChainServer) (req : Request) : ∃ p l, (s.answerTaken req).server =
    { s.accept with
      accountMap := (s.accept.updateRequestReply (s.number req)).1.accountMap
      hist := s.hist ++ [s.answered req]
      processedMap := p
      sentList := l } := by
  have h := answerUpdate_frame s.accept (s.number req)
  unfold answerTaken
  split_ifs
  · exact h
  · rw [tailHandleUpdate_server]
    exact h

lemma answerTaken_accountMap : (s.answerTaken req).server.accountMap =
    (s.accept.updateRequestReply (s.number req)).1.accountMap := by
  obtain ⟨p, l, h⟩ := answerTaken_frame s req
  rw [h]

lemma answerTaken_hist : (s.answerTaken req).server.hist = s.hist ++ [s.answered req] := by
  obtain ⟨p, l, h⟩ := answerTaken_frame s req
  rw [h]

lemma answerTaken_balance : (s.answerTaken req).server.balance = if (s.answered req).Applied then
    Function.update s.balance req.accountId (req.newBalance (s.balance req.accountId))
  else s.balance :=
  (balance_congr answerTaken_accountMap).trans (balance_updateRequestReply s.accept (s.number req))

lemma mem_accounts_answerTaken {a : String} : a ∈ (s.answerTaken req).server.accountMap ↔
    a = req.accountId ∨ a ∈ s.accountMap := by
  rw [answerTaken_accountMap]
  exact mem_accounts_updateRequestReply

/-! ### One request -/

namespace Queried

lemma refl (s : ChainServer) : Queried s s := ⟨rfl, fun _ h => h, rfl⟩

/-- One more query. -/
lemma query (h : Queried s s') (a : String) : Queried s (s'.getBalance a).1 where
  frame := by
    obtain ⟨m, hm⟩ := getBalance_eq s' a
    rw [hm, h.frame]
  accounts b hb := mem_accounts_getBalance (h.accounts b hb) a
  balance := (balance_getBalance a).trans h.balance

/-- An update that opens its account freely meets the same precedent. -/
lemma precedent_eq (h : Queried s s') (htakes : s.Takes req) (hopens : s.OpensFreely req) :
    s'.precedent req = s.precedent req := by
  have hentry : s'.storedEntry req = s.storedEntry req := by
    rw [h.frame]
    rfl
  by_cases hmem : req.accountId ∈ s.accountMap
  · rw [precedent, precedent, if_pos hmem, if_pos (h.accounts _ hmem)]
    exact hentry
  · have hnone : s'.storedEntry req = none := hentry.trans (hopens htakes hmem)
    rw [precedent, precedent, if_neg hmem]
    split_ifs
    · exact hnone
    · rfl

/-- Both servers answer an update that opens its account freely alike. -/
lemma answerTaken (h : Queried s s') (htakes : s.Takes req) (hopens : s.OpensFreely req) :
    ∃ m, s'.answerTaken req = (s.answerTaken req).withAccounts m ∧
      Queried (s.answerTaken req).server (s'.answerTaken req).server := by
  have hnumber : s'.number req = s.number req := by rw [number, h.frame, number]
  have hprecedent : s'.accept.precedent (s.number req) = s.accept.precedent (s.number req) :=
    @precedent_eq s s' req h htakes hopens
  have hbalance : s'.accept.balance = s.accept.balance := h.balance
  have hanswer : (s'.accept.updateRequestReply (s.number req)).2 =
      (s.accept.updateRequestReply (s.number req)).2 := by
    cases hit : s.accept.precedent (s.number req) with
    | some it =>
      rw [updateRequestReply_of_precedent hit, updateRequestReply_of_precedent (hprecedent.trans hit),
        hbalance]
    | none =>
      rw [(updateRequestReply_of_none hit).1, (updateRequestReply_of_none (hprecedent.trans hit)).1,
        hbalance]
  obtain ⟨m₁, hm₁⟩ := updateRequestReply_eq s.accept (s.number req)
  obtain ⟨m, hm⟩ := updateRequestReply_eq s'.accept (s.number req)
  have hserver : (s'.accept.updateRequestReply (s.number req)).1 =
      { (s.accept.updateRequestReply (s.number req)).1 with accountMap := m } := by
    rw [hm, hm₁, h.frame]
    rfl
  have hupdate : s'.accept.answerUpdate (s.number req) =
      (s.accept.answerUpdate (s.number req)).withAccounts m := answerUpdate_withAccounts hanswer hserver
  have hmap : s'.answerTaken req = (s.answerTaken req).withAccounts m := by
    have hhead : s'.ishead = s.ishead := by rw [h.frame]
    rw [ChainServer.answerTaken, ChainServer.answerTaken, hhead, hnumber, tailHandleUpdate,
      tailHandleUpdate, hupdate, withAccounts_andThen]
    · split_ifs <;> rfl
    · intro t
      change (if t.sentList.isEmpty then _ else _) = Effect.withAccounts (if t.sentList.isEmpty then _ else _) m
      split_ifs <;> rfl
  refine ⟨m, hmap, ?_, ?_, ?_⟩
  · rw [hmap]
    rfl
  · intro a ha
    rw [mem_accounts_answerTaken] at ha ⊢
    exact ha.imp_right (h.accounts a)
  · have hanswered : s'.answered req = s.answered req := by
      rw [answered, hnumber]
      exact hanswer
    rw [answerTaken_balance, answerTaken_balance, hanswered, h.balance]

/-- Both servers handle an update alike if it opens its account freely. -/
lemma update (h : Queried s s') (htail : s.istail = true) (htype : req.type ≠ .query)
    (hopens : s.OpensFreely req) : ∃ m, s'.receiveRequest req = (s.receiveRequest req).withAccounts m ∧
      Queried (s.receiveRequest req).server (s'.receiveRequest req).server := by
  have htail' : s'.istail = true := by rwa [h.frame]
  have htakes' : s'.Takes req ↔ s.Takes req := by rw [Takes, h.frame, Takes]
  by_cases htakes : s.Takes req
  · rw [receiveRequest_taken htail htype htakes,
      receiveRequest_taken htail' htype (htakes'.mpr htakes)]
    exact h.answerTaken htakes hopens
  · rw [receiveRequest_untaken htype htakes, receiveRequest_untaken htype (mt htakes'.mp htakes)]
    refine ⟨s'.accountMap, ?_, h⟩
    simp only [Effect.withAccounts, ← h.frame]
    rw [h.frame]

end Queried

/-! ### Runs -/

lemma receiveRequests_cons : s.receiveRequests (req :: us) =
    (s.receiveRequest req).andThen (·.receiveRequests us) := by
  rw [← List.singleton_append, receiveRequests_append, receiveRequests_singleton]

lemma updateReplies_andThen {e : Effect} {f : ChainServer → Effect} (h : e.ok = true) :
    (e.andThen f).updateReplies = e.updateReplies ++ (f e.server).updateReplies := by
  rw [Effect.updateReplies, replies_andThen h, List.filter_append]
  rfl

/-- Runs that agree so far and agree from there on agree. -/
lemma sameUpdates_andThen {e e' : Effect} {f f' : ChainServer → Effect} (h : e.SameUpdates e')
    (hrest : e'.ok = true → (f e.server).SameUpdates (f' e'.server)) :
    (e.andThen f).SameUpdates (e'.andThen f') := by
  by_cases hok : e'.ok = true
  · have hrest := hrest hok
    have hok' := h.ok.trans hok
    refine ⟨?_, ?_, ?_, ?_⟩
    · rw [Effect.andThen, Effect.andThen, if_pos hok, if_pos hok']
      exact hrest.ok
    · rw [Effect.andThen, Effect.andThen, if_pos hok, if_pos hok']
      exact hrest.hist
    · rw [updateReplies_andThen hok, updateReplies_andThen hok', h.replies, hrest.replies]
    · rw [Effect.andThen, Effect.andThen, if_pos hok, if_pos hok']
      exact hrest.balance
  · have hok' : ¬ e.ok = true := by rwa [h.ok]
    rw [Effect.andThen, Effect.andThen, if_neg hok, if_neg hok']
    exact h

lemma receiveRequest_istail : (s.receiveRequest req).server.istail = s.istail :=
  (KeepsRole.receiveRequest s req).tail

lemma receiveRequest_query (htail : s.istail = true) (htype : req.type = .query) :
    s.receiveRequest req = s.handleQuery req := by
  simp [receiveRequest, htype, htail]

/-- Queries in between leave the answers and the balances of a run as they are. -/
theorem Queried.run (h : Queried s s') (htail : s.istail = true)
    (hopens : ∀ us₁ req us₂, us = us₁ ++ req :: us₂ → (s.receiveRequests us₁).ok = true →
      (s.receiveRequests us₁).server.OpensFreely req)
    (hws : ws.filter (·.type ≠ .query) = us) :
    (s'.receiveRequests ws).SameUpdates (s.receiveRequests us) := by
  induction ws generalizing s s' us with
  | nil =>
    obtain rfl : [] = us := by simpa using hws
    exact ⟨rfl, by rw [h.frame]; rfl, rfl, h.balance⟩
  | cons q ws ih =>
    by_cases htype : q.type = .query
    · rw [List.filter_cons_of_neg (by simp [htype])] at hws
      have htail' : s'.istail = true := by rwa [h.frame]
      have hrest := ih (h.query q.accountId) htail hopens hws
      rw [receiveRequests_cons, receiveRequest_query htail' htype]
      refine ⟨hrest.ok, hrest.hist, ?_, hrest.balance⟩
      rw [updateReplies_andThen rfl, ← hrest.replies]
      simp [Effect.updateReplies, Effect.replies, handleQuery, replyToClient, htype]
    · rw [List.filter_cons_of_pos (by simp [htype])] at hws
      obtain ⟨m, heq, hserver⟩ := h.update htail htype (hopens [] q _ hws.symm rfl)
      rw [receiveRequests_cons, ← hws, receiveRequests_cons]
      apply sameUpdates_andThen
      · refine ⟨?_, ?_, ?_, hserver.balance⟩
        all_goals rw [heq]
        all_goals rfl
      · intro hok
        apply ih hserver (receiveRequest_istail.trans htail) ?_ rfl
        intro us₁ req us₂ hsplit hok₁
        have hrun : s.receiveRequests (q :: us₁) =
            { (s.receiveRequest q).server.receiveRequests us₁ with
              out := (s.receiveRequest q).out ++ ((s.receiveRequest q).server.receiveRequests us₁).out } := by
          rw [receiveRequests_cons, Effect.andThen, if_pos hok]
        have hopens := hopens (q :: us₁) req us₂ (by rw [← hws, hsplit]; rfl)
        rw [hrun] at hopens
        exact hopens hok₁

/-! ### The converse -/

lemma hist_receiveRequest (htail : s.istail = true) : s.hist <+: (s.receiveRequest req).server.hist := by
  by_cases htype : req.type = .query
  · rw [receiveRequest_query htail htype]
    obtain ⟨m, hm⟩ := getBalance_eq s req.accountId
    have hhist : s.hist = (s.getBalance req.accountId).1.hist := by rw [hm]
    exact hhist ▸ List.prefix_rfl
  · by_cases htakes : s.Takes req
    · rw [receiveRequest_taken htail htype htakes, answerTaken_hist]
      exact List.prefix_append _ _
    · have hserver : (s.receiveRequest req).server = s := by rw [receiveRequest_untaken htype htakes]
      exact hserver.symm ▸ List.prefix_rfl

lemma hist_receiveRequests (htail : s.istail = true) (us : List Request) :
    s.hist <+: (s.receiveRequests us).server.hist := by
  induction us generalizing s with
  | nil => exact List.prefix_rfl
  | cons q us ih =>
    rw [receiveRequests_cons, Effect.andThen]
    split_ifs
    · exact (hist_receiveRequest htail).trans (ih (receiveRequest_istail.trans htail))
    · exact hist_receiveRequest htail

lemma istail_receiveRequests (us : List Request) : (s.receiveRequests us).server.istail = s.istail := by
  induction us generalizing s with
  | nil => rfl
  | cons q us ih =>
    rw [receiveRequests_cons, Effect.andThen]
    split_ifs
    · exact ih.trans receiveRequest_istail
    · exact receiveRequest_istail

/-- The answer of an update that is taken stands in the history of the whole run. -/
lemma hist_of_taken (htail : s.istail = true) (htype : req.type ≠ .query) (htakes : s.Takes req) :
    s.hist ++ [s.answered req] <+: (s.receiveRequests (req :: us)).server.hist := by
  have htail' : (s.answerTaken req).server.istail = true := by
    rw [← receiveRequest_taken htail htype htakes]
    exact receiveRequest_istail.trans htail
  rw [receiveRequests_cons, receiveRequest_taken htail htype htakes, ← answerTaken_hist, Effect.andThen]
  split_ifs
  · exact hist_receiveRequests htail' us
  · exact List.prefix_rfl

lemma server_receiveRequests_append (h : (s.receiveRequests us₁).ok = true) :
    (s.receiveRequests (us₁ ++ us₂)).server = ((s.receiveRequests us₁).server.receiveRequests us₂).server := by
  rw [receiveRequests_append, Effect.andThen, if_pos h]

/-- A query for the account of an update changes its answer unless it opens its account freely. -/
lemma opensFreely_of_same {t : ChainServer} (htail : t.istail = true) (htype : req.type ≠ .query)
    (h : (t.receiveRequests ({ req with type := .query } :: req :: us)).server.hist =
      (t.receiveRequests (req :: us)).server.hist) : t.OpensFreely req := by
  intro htakes hmem
  by_contra hentry
  obtain ⟨m, hm⟩ := getBalance_eq t req.accountId
  have hprecedent : t.precedent req = none := if_neg hmem
  have hprecedent' : (t.getBalance req.accountId).1.precedent req = t.storedEntry req := by
    have hopened : req.accountId ∈ (t.getBalance req.accountId).1.accountMap := by
      simp [getBalance, AList.lookup_eq_none.mpr hmem]
    rw [precedent, if_pos hopened, hm]
    rfl
  have hplain := @hist_of_taken t req us htail htype htakes
  have hasked := @hist_of_taken (t.getBalance req.accountId).1 req us (by rw [hm]; exact htail) htype
    (by rw [hm]; exact htakes)
  have hrun : (t.receiveRequests ({ req with type := .query } :: req :: us)).server =
      ((t.getBalance req.accountId).1.receiveRequests (req :: us)).server := by
    rw [receiveRequests_cons, receiveRequest_query htail rfl]
    rfl
  have hhist : (t.getBalance req.accountId).1.hist = t.hist := by rw [hm]
  rw [← hrun, h, hhist] at hasked
  have heq := (List.prefix_of_prefix_length_le hasked hplain (by simp)).eq_of_length (by simp)
  have hanswered := List.append_cancel_left heq
  have hnew := answered_newreq.mpr hprecedent
  rw [← List.singleton_inj.mp hanswered, answered_newreq, hprecedent'] at hnew
  exact hentry hnew

/-- Queries in between do not show in the updates of a tail if and only if every update that opens its
account opens it freely. -/
theorem queries_read_only_iff (htail : s.istail = true) (hus : ∀ q ∈ us, q.type ≠ .query) :
    (∀ ws : List Request, ws.filter (·.type ≠ .query) = us →
      (s.receiveRequests ws).SameUpdates (s.receiveRequests us)) ↔
    ∀ us₁ req us₂, us = us₁ ++ req :: us₂ → (s.receiveRequests us₁).ok = true →
      (s.receiveRequests us₁).server.OpensFreely req := by
  constructor
  · rintro h us₁ req us₂ rfl hok
    have htype : req.type ≠ .query := hus req (by simp)
    have hsame := (h (us₁ ++ { req with type := .query } :: req :: us₂) ?_).hist
    · rw [server_receiveRequests_append hok, server_receiveRequests_append hok] at hsame
      exact opensFreely_of_same ((istail_receiveRequests us₁).trans htail) htype hsame
    · rw [List.filter_append, List.filter_cons_of_neg (by simp), ← List.filter_append, List.filter_eq_self]
      exact fun q hq => by simpa using hus q hq
  · intro h ws hws
    exact (Queried.refl s).run htail h hws

/-! ### A pending transfer -/

/-- A bank of one server that knows the head of another bank. -/
def sampleSingle : ChainServer :=
  { single "CITI" ⟨"localhost", 1⟩ with
    bankHeadList := (∅ : AList fun _ : String => Address).insert "BOA" ⟨"localhost", 2⟩ }

/-- The server holds a transfer under the id "2" of account "a" in `sent_list_`. -/
def samplePending : ChainServer :=
  (sampleSingle.receiveRequests [sampleUpdate "1" "a",
    { sampleUpdate "2" "a" with type := .transfer, destBankId := "BOA", destAccountId := "z" }]).server

theorem queries_read_only_iff_sample : samplePending.istail = true ∧
    ((∀ ws : List Request, ws.filter (·.type ≠ .query) = [sampleUpdate "3" "b"] →
      (samplePending.receiveRequests ws).SameUpdates
        (samplePending.receiveRequests [sampleUpdate "3" "b"])) ↔
    ∀ us₁ req us₂, [sampleUpdate "3" "b"] = us₁ ++ req :: us₂ →
      (samplePending.receiveRequests us₁).ok = true →
        (samplePending.receiveRequests us₁).server.OpensFreely req) :=
  ⟨by decide +kernel, queries_read_only_iff (by decide +kernel) (by decide)⟩

/-- The deposit "2" of account "b" is carried out if nobody asks about "b" before, and is in conflict with
the pending transfer "2" of account "a" otherwise. -/
theorem query_changes_update : ¬ ∀ reqs us ws : List Request, (sampleSingle.receiveRequests reqs).ok = true →
    (∀ q ∈ us, q.type ≠ .query) → ws.filter (·.type ≠ .query) = us →
      ((sampleSingle.receiveRequests reqs).server.receiveRequests ws).SameUpdates
        ((sampleSingle.receiveRequests reqs).server.receiveRequests us) := by
  intro h
  have hsame := (h [sampleUpdate "1" "a",
    { sampleUpdate "2" "a" with type := .transfer, destBankId := "BOA", destAccountId := "z" }]
    [sampleUpdate "2" "b"] [{ sampleUpdate "3" "b" with type := .query }, sampleUpdate "2" "b"]
    (by decide +kernel) (by decide) (by decide)).hist
  exact absurd hsame (by decide +kernel)

end ChainServer

end ChainReplication
