import ChainReplication.Extension.Handoff
import ChainReplication.System.Topology

/-!
# Transfers during a handoff

After the tables are copied a transfer reaches the joining server through `sent_list_` alone. The
list keeps the transfers that wait for the downstream bank: a refused transfer never enters it, and
a confirmed one has left it.
-/

namespace ChainReplication

open scoped List

namespace ChainServer

variable {s s' t u v e : ChainServer} {req q : Request} {master : Address}

/-! ### The tail -/

/-- The steps of a handoff during which only transfers arrive. -/
def TransferStep : HandoffLabel → Prop
  | .request req => req.type = .transfer
  | _ => True

instance : DecidablePred TransferStep := fun l =>
  match l with
  | .request req => inferInstanceAs (Decidable (req.type = .transfer))
  | .reply _ => inferInstanceAs (Decidable True)
  | .snapshot .. => inferInstanceAs (Decidable True)
  | .finish => inferInstanceAs (Decidable True)

/-- What one message can do to the tail. -/
inductive TransferCase (s : ChainServer) : ChainServer → Prop where
  | drop (p : Request → Bool) : TransferCase s { s with sentList := s.sentList.filter p }
  | answer {req : Request} (type : req.type = .transfer) : TransferCase s (s.answeredExtending req)

lemma TailStep.transferCase (hs : TailWf s) (hstep : TailStep TransferStep s s') :
    TransferCase s s' := by
  cases hstep with
  | @request req guard live =>
    have guard : req.type = .transfer := guard
    have hcase := receiveRequest_extending hs.tail hs.extending live
    generalize (s.receiveRequest req).server = s' at hcase ⊢
    cases hcase with
    | query type =>
      rw [guard] at type
      cases type
    | duplicate =>
      have hdrop := TransferCase.drop (s := s) fun _ => true
      rwa [List.filter_true] at hdrop
    | answer type => exact .answer guard
  | reply guard live =>
    rw [receiveTransferReply_server live]
    exact .drop _

/-- The tail has answered the transfers `l` since. Of those that wait for the downstream bank some
may have been confirmed. -/
structure Transferred (s s' : ChainServer) (l : List Request) : Prop where
  hist : s'.hist = s.hist ++ l
  sent : ∃ l₁ l₂, s'.sentList = l₁ ++ l₂ ∧ l₁ <+ s.sentList ∧ l₂ <+ l.filter (·.Applied)
  transfer : ∀ q ∈ l, q.type = .transfer
  kept : ∀ k it, s.processedMap.lookup k = some it → s'.processedMap.lookup k = some it

lemma Transferred.refl (s : ChainServer) : Transferred s s [] :=
  ⟨(List.append_nil _).symm, ⟨s.sentList, [], (List.append_nil _).symm, List.Sublist.refl _,
    List.nil_sublist _⟩, by simp, fun _ _ h => h⟩

/-- What a tail has stored stays. -/
lemma lookup_remember {k : String} {it : Request} (h : s.processedMap.lookup k = some it) :
    (s.remember req).processedMap.lookup k = some it := by
  rw [remember]
  split_ifs
  · rw [lookup_insertProcessedList, h, Option.some_or]
  · exact h

lemma Transferred.drop {l : List Request} (h : Transferred s u l) (p : Request → Bool) :
    Transferred s { u with sentList := u.sentList.filter p } l := by
  obtain ⟨l₁, l₂, hsent, h₁, h₂⟩ := h.sent
  refine ⟨h.hist, ⟨l₁.filter p, l₂.filter p, ?_, List.filter_sublist.trans h₁,
    List.filter_sublist.trans h₂⟩, h.transfer, h.kept⟩
  rw [← List.filter_append, ← hsent]

lemma Transferred.answer {l : List Request} (h : Transferred s u l) (htype : req.type = .transfer) :
    Transferred s (u.answeredExtending req) (l ++ [u.answered req]) := by
  refine ⟨?_, ?_, ?_, fun k it hit => lookup_remember (h.kept k it hit)⟩
  · rw [answeredExtending, h.hist, List.append_assoc]
  · obtain ⟨l₁, l₂, hsent, h₁, h₂⟩ := h.sent
    refine ⟨l₁, l₂ ++ (u.answered req).toForward, ?_, h₁, ?_⟩
    · rw [answeredExtending, extendingSent, if_pos htype, hsent, List.append_assoc]
    · rw [List.filter_append]
      apply h₂.append
      by_cases happlied : (u.answered req).Applied
      · simp [Request.toForward, happlied, htype]
      · simp [Request.toForward, happlied]
  · intro q hq
    rcases List.mem_append.mp hq with hq | hq
    · exact h.transfer q hq
    · rw [List.mem_singleton.mp hq, answered_type, htype]

/-- A transfer that waits for the downstream bank has an account and is in `processed_map_`. -/
def SentStored (s : ChainServer) : Prop :=
  ∀ q ∈ s.sentList, q.accountId ∈ s.accountMap ∧ q.key ∈ s.processedMap

lemma SentStored.answer (h : SentStored s) (htype : req.type = .transfer) :
    SentStored (s.answeredExtending req) := by
  intro q hq
  rw [answeredExtending, List.mem_append] at hq
  rcases hq with hq | hq
  · refine ⟨mem_accounts_updateRequestReply.mpr (Or.inr (h q hq).1), ?_⟩
    exact mem_remember.mpr (Or.inl (h q hq).2)
  · rw [extendingSent, if_pos htype, Request.mem_toForward] at hq
    obtain ⟨rfl, -, happlied⟩ := hq
    refine ⟨mem_accounts_updateRequestReply.mpr (Or.inl answered_accountId), ?_⟩
    exact mem_remember.mpr (Or.inr ⟨happlied.1, rfl⟩)

lemma SentStored.run (h : SentStored s) (hs : TailWf s) (hrun : TailRun TransferStep s u) :
    SentStored u := by
  induction hrun with
  | refl => exact h
  | tail hrun hstep ih =>
    cases hstep.transferCase (hs.run hrun) with
    | drop p => exact fun q hq => ih q (List.mem_of_mem_filter hq)
    | answer type => exact ih.answer type

lemma balance_answeredExtending : (s.answeredExtending req).balance =
    if (s.answered req).Applied then
      Function.update s.balance req.accountId ((s.number req).newBalance (s.balance req.accountId))
    else s.balance :=
  (balance_congr rfl).trans (balance_updateRequestReply s.accept (s.number req))

/-! ### The joining server -/

/-- The joining server `e` has the balances and the requests of the tail `t`. -/
structure Mirrors (t e : ChainServer) : Prop where
  balance : e.balance = t.balance
  processed : ∀ k, e.processedMap.lookup k = t.processedMap.lookup k
  accounts : ∀ a, a ∈ e.accountMap → a ∈ t.accountMap
  sent : e.sentList = []

/-- The joining server after one request of the `SENT` block. -/
def replayed (e : ChainServer) (q : Request) : ChainServer :=
  { e with
    accountMap := (e.updateRequestReply q).1.accountMap
    processedMap := (e.remember (e.updateRequestReply q).2).processedMap
    hist := e.hist ++ [(e.updateRequestReply q).2]
    bankUpdateSeq := max e.bankUpdateSeq q.bankUpdateSeq }

lemma receiveExtendMsgs_sent {l : List Request} : e.receiveExtendMsgs master (l.map .sent) =
    { server := l.foldl replayed e } := by
  induction l generalizing e with
  | nil => rfl
  | cons q l ih =>
    rw [List.map_cons, receiveExtendMsgs_cons (receiveExtendMsg_sent e master q), ih, List.foldl_cons]
    rfl

namespace Mirrors

/-- A transfer that the snapshot has changes nothing. -/
lemma known (h : Mirrors t e) (hacc : q.accountId ∈ e.accountMap) (hkey : q.key ∈ t.processedMap) :
    ¬ (e.updateRequestReply q).2.Applied ∧ Mirrors t (e.replayed q) ∧
      (e.replayed q).accountMap = e.accountMap := by
  obtain ⟨it, hit⟩ := Option.isSome_iff_exists.mp (AList.lookup_isSome.mpr hkey)
  have hprecedent : e.precedent q = some it := by
    rw [precedent, if_pos hacc, h.processed, hit, Option.some_or]
  have hanswer := updateRequestReply_of_precedent hprecedent
  have hnew : (e.updateRequestReply q).2.checkResult ≠ .newreq := by
    rw [hanswer]
    exact Request.answerFrom_checkResult
  have haccounts : (e.replayed q).accountMap = e.accountMap := by
    rw [replayed, hanswer]
  have hprocessed : (e.replayed q).processedMap = e.processedMap := by
    rw [replayed, remember, if_neg hnew]
  refine ⟨fun happlied => hnew happlied.1, ⟨?_, ?_, ?_, h.sent⟩, haccounts⟩
  · rw [balance_congr haccounts, h.balance]
  · rw [hprocessed]
    exact h.processed
  · rw [haccounts]
    exact h.accounts

/-- The joining server debits a transfer as the tail has. -/
lemma applied (h : Mirrors t e) (happlied : (t.answered req).Applied) :
    (e.updateRequestReply (t.answered req)).2 = t.answered req ∧
      Mirrors (t.answeredExtending req) (e.replayed (t.answered req)) := by
  have hnone : t.precedent req = none := answered_newreq.mp happlied.1
  have hprecedent : e.precedent (t.answered req) = none := by
    rw [precedent, answered_accountId, answered_key, h.sent, List.find?_nil, Option.or_none]
    split_ifs with hacc
    · rw [precedent, if_pos (h.accounts _ hacc), Option.or_eq_none_iff] at hnone
      rw [h.processed, hnone.1]
    · rfl
  have hbalance : e.balance (t.answered req).accountId = t.balance req.accountId := by
    rw [answered_accountId, h.balance]
  have hanswered : t.answered req = (t.number req).answerNew (t.balance req.accountId) :=
    (@updateRequestReply_of_none t.accept (t.number req) hnone).1
  have hanswer : (e.updateRequestReply (t.answered req)).2 = t.answered req := by
    rw [(updateRequestReply_of_none hprecedent).1, hbalance, hanswered]
    rfl
  refine ⟨hanswer, ?_, ?_, ?_, h.sent⟩
  · have hserver : (e.replayed (t.answered req)).balance =
        (e.updateRequestReply (t.answered req)).1.balance := balance_congr rfl
    rw [hserver, balance_updateRequestReply, balance_answeredExtending, hanswer, if_pos happlied,
      if_pos happlied, hbalance, answered_accountId, h.balance, hanswered]
    rfl
  · intro k
    have hprocessed := @lookup_insertProcessedList e (t.answered req) k
    have htail := @lookup_insertProcessedList t (t.answered req) k
    rw [replayed, answeredExtending, hanswer, remember, remember, if_pos happlied.1,
      if_pos happlied.1]
    rw [hprocessed, htail, h.processed]
  · intro a ha
    refine mem_accounts_updateRequestReply.mpr ?_
    rcases mem_accounts_updateRequestReply.mp ha with rfl | ha
    · exact Or.inl answered_accountId
    · exact Or.inr (h.accounts a ha)

/-- The tail has refused a transfer, or answered it from an earlier one. -/
lemma refused (h : Mirrors t e) (happlied : ¬ (t.answered req).Applied)
    (hstored : (t.answeredExtending req).processedMap.lookup req.key ≠ some (t.answered req)) :
    Mirrors (t.answeredExtending req) e := by
  refine ⟨?_, ?_, ?_, h.sent⟩
  · rw [balance_answeredExtending, if_neg happlied, h.balance]
  · intro k
    rw [h.processed]
    rw [answeredExtending, remember] at hstored ⊢
    split_ifs at hstored ⊢
    · rw [lookup_insertProcessedList, answered_key] at hstored ⊢
      split_ifs with hk
      · rw [if_pos rfl] at hstored
        rw [← hk]
        cases hlookup : t.processedMap.lookup req.key with
        | some it => rfl
        | none =>
          rw [hlookup] at hstored
          exact absurd rfl hstored
      · rw [Option.or_none]
    · rfl
  · intro a ha
    exact mem_accounts_updateRequestReply.mpr (Or.inr (h.accounts a ha))

/-- The transfers that the snapshot has change nothing. -/
lemma known_all {l : List Request} (h : Mirrors t e)
    (hl : ∀ q ∈ l, q.accountId ∈ e.accountMap ∧ q.key ∈ t.processedMap) :
    Mirrors t (l.foldl replayed e) ∧
      ∃ l', (l.foldl replayed e).hist = e.hist ++ l' ∧ ∀ q ∈ l', ¬ q.Applied := by
  induction l generalizing e with
  | nil => exact ⟨h, [], (List.append_nil _).symm, by simp⟩
  | cons q l ih =>
    obtain ⟨hacc, hkey⟩ := hl q List.mem_cons_self
    obtain ⟨hnot, hmirrors, haccounts⟩ := h.known hacc hkey
    obtain ⟨hrest, l', hhist, hl'⟩ := ih hmirrors fun u hu => by
      rw [haccounts]
      exact hl u (List.mem_cons_of_mem _ hu)
    refine ⟨hrest, (e.updateRequestReply q).2 :: l', ?_, ?_⟩
    · rw [List.foldl_cons, hhist, replayed, List.append_assoc]
      rfl
    · intro u hu
      rcases List.mem_cons.mp hu with rfl | hu
      · exact hnot
      · exact hl' u hu

/-- If the tail has stored no refused transfer since the copy, its debits since the copy bring the
joining server to where the tail is. -/
lemma run (h : Mirrors t e) (ht : TailWf t) (hrun : TailRun TransferStep t u) :
    ∃ l, Transferred t u l ∧
      ((∀ q ∈ l, ¬ q.Applied → u.processedMap.lookup q.key ≠ some q) →
        Mirrors u ((l.filter (·.Applied)).foldl replayed e) ∧
          ((l.filter (·.Applied)).foldl replayed e).hist = e.hist ++ l.filter (·.Applied)) := by
  induction hrun with
  | refl => exact ⟨[], .refl t, fun _ => ⟨h, (List.append_nil _).symm⟩⟩
  | @tail v _ hrun hstep ih =>
    obtain ⟨l, hl, hmirrors⟩ := ih
    cases hstep.transferCase (ht.run hrun) with
    | drop p =>
      refine ⟨l, hl.drop p, fun hstored => ?_⟩
      obtain ⟨h, hhist⟩ := hmirrors hstored
      exact ⟨⟨h.balance, h.processed, h.accounts, h.sent⟩, hhist⟩
    | @answer req type =>
      refine ⟨l ++ [v.answered req], hl.answer type, fun hstored => ?_⟩
      obtain ⟨h, hhist⟩ := hmirrors fun q hq hnot hlookup =>
        hstored q (List.mem_append_left _ hq) hnot (lookup_remember hlookup)
      rw [List.filter_append]
      by_cases happlied : (v.answered req).Applied
      · obtain ⟨hanswer, h'⟩ := h.applied happlied
        have hlast : [v.answered req].filter (·.Applied) = [v.answered req] := by simp [happlied]
        rw [hlast, List.foldl_append, List.foldl_cons, List.foldl_nil]
        refine ⟨h', ?_⟩
        rw [replayed, hanswer, hhist, List.append_assoc]
      · have hlast : [v.answered req].filter (·.Applied) = [] := by simp [happlied]
        have hnot := hstored (v.answered req) (by simp) happlied
        rw [answered_key] at hnot
        rw [hlast, List.append_nil]
        exact ⟨h.refused happlied hnot, hhist⟩

end Mirrors

/-- Whatever the joining server logs or stores was sent to it. -/
lemma foldl_replayed (e : ChainServer) (l : List Request) : ∃ l',
    (l.foldl replayed e).hist = e.hist ++ l' ∧ l'.map Request.body = l.map Request.body ∧
      ∀ k it, (l.foldl replayed e).processedMap.lookup k = some it →
        e.processedMap.lookup k = some it ∨ it ∈ l' := by
  induction l generalizing e with
  | nil => exact ⟨[], (List.append_nil _).symm, rfl, fun _ _ h => Or.inl h⟩
  | cons q l ih =>
    obtain ⟨l', hhist, hbody, hlookup⟩ := ih (e.replayed q)
    refine ⟨(e.updateRequestReply q).2 :: l', ?_, ?_, ?_⟩
    · rw [List.foldl_cons, hhist, replayed, List.append_assoc]
      rfl
    · rw [List.map_cons, List.map_cons, hbody, updateRequestReply_body]
    · intro k it hit
      rcases hlookup k it hit with hit | hit
      · rw [replayed, remember] at hit
        split_ifs at hit
        · rw [lookup_insertProcessedList, Option.or_eq_some_iff] at hit
          rcases hit with hit | ⟨-, hit⟩
          · exact Or.inl hit
          · simp only [Option.ite_none_right_eq_some, Option.some.injEq] at hit
            exact Or.inr (hit.2 ▸ List.mem_cons_self)
        · exact Or.inl hit
      · exact Or.inr (List.mem_cons_of_mem _ hit)

/-! ### What is handed over -/

/-- The joining server `e`, which had logged `n` requests before, has debited what the tail `t` has
debited since it had handled `copied` updates, and has its balances and requests. -/
structure HandedOver (copied n : ℕ) (t e : ChainServer) : Prop where
  debited : ((e.hist.drop n).filter (·.Applied)).map Request.body =
    ((t.hist.drop copied).filter (·.Applied)).map Request.body
  answered : ∀ q ∈ t.hist, q.type = .transfer → q.checkResult = .newreq → q.key ∈ e.processedMap
  balance : e.balance = t.balance
  processed : ∀ k, e.processedMap.lookup k = t.processedMap.lookup k

/-- The tail has every transfer that it has carried out in `processed_map_`, and those since it had
handled `copied` updates that it has debited or stored are in `sent_list_`. -/
structure Awaiting (copied : ℕ) (t : ChainServer) : Prop where
  saved : ∀ q ∈ t.hist, q.type = .transfer → q.checkResult = .newreq → q.key ∈ t.processedMap
  waiting : ∀ q ∈ t.hist.drop copied, q.Applied ∨ t.processedMap.lookup q.key = some q →
    q ∈ t.sentList

/-- No request of the copy is among those answered since. -/
lemma Transferred.notMem {l : List Request} (hl : Transferred t u l) (hu : TailWf u)
    (hq : q ∈ t.hist) : q ∉ l := by
  have hnodup := hu.log.nodup
  rw [hl.hist, List.nodup_append] at hnodup
  exact fun hmem => hnodup.2.2 q hq q hmem rfl

/-- What has been handed over has waited in `sent_list_`. -/
lemma Mirrors.awaiting {l : List Request} (h : Mirrors t e) (ht : TailWf t) (hu : TailWf u)
    (hl : Transferred t u l)
    (hover : HandedOver t.hist.length e.hist.length u (u.sentList.foldl replayed e)) :
    Awaiting t.hist.length u := by
  obtain ⟨l', hhist, hbody, hlookup⟩ := foldl_replayed e u.sentList
  have hdrop : u.hist.drop t.hist.length = l := by rw [hl.hist, List.drop_left]
  -- what the joining server has logged is in `sent_list_`
  have hsent {p q : Request} (hp : p ∈ l') (hq : q ∈ l) (hbodies : p.body = q.body) :
      q ∈ u.sentList := by
    have hmem : p.body ∈ u.sentList.map Request.body := by
      rw [← hbody]
      exact List.mem_map_of_mem hp
    obtain ⟨q', hq', heq⟩ := List.mem_map.mp hmem
    have hhist' : q ∈ u.hist := by
      rw [hl.hist]
      exact List.mem_append_right _ hq
    rwa [hu.log.eq_of_body hhist' (hu.log.mem_hist hq') (hbodies.symm.trans heq.symm)]
  refine ⟨?_, ?_⟩
  · intro q hq htype hnew
    rw [← AList.lookup_isSome, ← hover.processed, AList.lookup_isSome]
    exact hover.answered q hq htype hnew
  · intro q hq hcase
    rw [hdrop] at hq
    rcases hcase with happlied | hstored
    · have hmem : q.body ∈ ((u.hist.drop t.hist.length).filter (·.Applied)).map Request.body := by
        rw [hdrop]
        exact List.mem_map_of_mem (List.mem_filter.mpr ⟨hq, by simpa using happlied⟩)
      rw [← hover.debited, hhist, List.drop_left] at hmem
      obtain ⟨p, hp, heq⟩ := List.mem_map.mp hmem
      exact hsent (List.mem_of_mem_filter hp) hq heq
    · rw [← hover.processed] at hstored
      rcases hlookup _ q hstored with hold | hnew
      · rw [h.processed] at hold
        exact absurd hq (hl.notMem hu (ht.stored _ q hold).1)
      · exact hsent hnew hq rfl

/-- The part of `sent_list_` from before the copy, and all the debits since. -/
lemma Awaiting.sentList {l : List Request} (h : Awaiting t.hist.length u) (ht : TailWf t)
    (hu : TailWf u) (hl : Transferred t u l) :
    (∃ l₁, u.sentList = l₁ ++ l.filter (·.Applied) ∧ l₁ <+ t.sentList) ∧
      ∀ q ∈ l, ¬ q.Applied → u.processedMap.lookup q.key ≠ some q := by
  have hdrop : u.hist.drop t.hist.length = l := by rw [hl.hist, List.drop_left]
  obtain ⟨l₁, l₂, hsent, h₁, h₂⟩ := hl.sent
  have later {q : Request} (hq : q ∈ l) (hmem : q ∈ u.sentList) : q ∈ l₂ := by
    rw [hsent, List.mem_append] at hmem
    refine hmem.resolve_left fun hmem => hl.notMem hu ?_ hq
    exact ht.log.mem_hist (h₁.subset hmem)
  constructor
  · have hsub : l.filter (·.Applied) ⊆ l₂ := by
      intro q hq
      obtain ⟨hq, happlied⟩ := List.mem_filter.mp hq
      exact later hq (h.waiting q (by rwa [hdrop]) (Or.inl (by simpa using happlied)))
    have hnodup : (l.filter (·.Applied)).Nodup := by
      have hnodup := hu.log.nodup
      rw [hl.hist] at hnodup
      exact (hnodup.sublist (List.sublist_append_right _ _)).filter _
    have heq : l₂ = l.filter (·.Applied) :=
      h₂.eq_of_length_le (List.subperm_of_subset hnodup hsub).length_le
    exact ⟨l₁, heq ▸ hsent, h₁⟩
  · intro q hq hnot hstored
    have hmem := h₂.subset (later hq (h.waiting q (by rwa [hdrop]) (Or.inr hstored)))
    exact hnot (by simpa using List.of_mem_filter hmem)

/-- What waits in `sent_list_` is handed over. -/
lemma Mirrors.handedOver (h : Mirrors t e) (haccounts : ∀ a, a ∈ t.accountMap → a ∈ e.accountMap)
    (ht : TailWf t) (hu : TailWf u) (hstored : SentStored t) (hrun : TailRun TransferStep t u)
    (hawaiting : Awaiting t.hist.length u) :
    HandedOver t.hist.length e.hist.length u (u.sentList.foldl replayed e) := by
  obtain ⟨l, hl, -⟩ := h.run ht hrun
  have hdrop : u.hist.drop t.hist.length = l := by rw [hl.hist, List.drop_left]
  obtain ⟨⟨l₁, hsent, h₁⟩, hfailed⟩ := hawaiting.sentList ht hu hl
  obtain ⟨hcopy, l', hhist, hl'⟩ := h.known_all fun q hq =>
    ⟨haccounts _ (hstored q (h₁.subset hq)).1, (hstored q (h₁.subset hq)).2⟩
  obtain ⟨m, hm, hreplay⟩ := hcopy.run ht hrun
  obtain rfl : m = l := List.append_cancel_left (hm.hist.symm.trans hl.hist)
  obtain ⟨hmirrors, hlog⟩ := hreplay hfailed
  rw [hsent, List.foldl_append]
  refine ⟨?_, ?_, hmirrors.balance, hmirrors.processed⟩
  · have hnone : l'.filter (·.Applied) = [] := by
      rw [List.filter_eq_nil_iff]
      intro q hq
      simpa using hl' q hq
    rw [hdrop, hlog, hhist, List.append_assoc, List.drop_left, List.filter_append, hnone,
      List.nil_append, List.filter_filter]
    simp
  · intro q hq htype hnew
    rw [← AList.lookup_isSome, hmirrors.processed, AList.lookup_isSome]
    exact hawaiting.saved q hq htype hnew

lemma Mirrors.handedOver_iff (h : Mirrors t e) (haccounts : ∀ a, a ∈ t.accountMap → a ∈ e.accountMap)
    (ht : TailWf t) (hu : TailWf u) (hstored : SentStored t) (hrun : TailRun TransferStep t u) :
    HandedOver t.hist.length e.hist.length u (u.sentList.foldl replayed e) ↔
      Awaiting t.hist.length u := by
  obtain ⟨l, hl, -⟩ := h.run ht hrun
  exact ⟨h.awaiting ht hu hl, h.handedOver haccounts ht hu hstored hrun⟩

/-- The snapshot brings the joining server to where the tail is. -/
lemma snapshot_mirrors (ht : TailWf t) (he : e.sentList = []) {accounts : List (String × ℚ)}
    {processed : List Request} (haccounts : accounts.Perm t.accounts)
    (hprocessed : processed.Perm t.processed) (master : Address) : ∃ e₁,
      e.receiveExtendMsgs master (t.snapshotMsgs accounts processed) = { server := e₁ } ∧
        Mirrors t e₁ ∧ (∀ a, a ∈ t.accountMap → a ∈ e₁.accountMap) ∧ e₁.hist = e.hist := by
  obtain ⟨am, pm, n, heq, ham, hpm, -⟩ := receiveExtendMsgs_snapshot haccounts hprocessed
    (fun k it hit => (ht.stored k it hit).2) e master
  have hmem (a : String) : a ∈ am ↔ a ∈ t.accountMap := by
    rw [← AList.lookup_isSome, ham, AList.lookup_isSome]
  refine ⟨_, heq, ⟨?_, hpm, fun a => (hmem a).mp, he⟩, fun a => (hmem a).mpr, rfl⟩
  funext a
  simp only [balance, ham]

end ChainServer

/-! ### The handoff -/

open ChainServer

variable {cfg : Config} {σ : System} {x : Address} {h : Handoff}

/-- In a chain without joins `processed_map_` holds requests of the history. -/
theorem stored_of_reach (hrun : Machine.Reach System.step System.NoJoin cfg.init σ) :
    ∀ k it, (σ.server x).processedMap.lookup k = some it → it ∈ (σ.server x).hist ∧ it.key = k := by
  refine Topology.servers (I := fun s => ∀ k it, s.processedMap.lookup k = some it →
    it ∈ s.hist ∧ it.key = k) (fun _ _ h => h) hrun ?_ ?_ x
  · intro x
    exact Config.initServer_cases (P := fun s => ∀ k it, s.processedMap.lookup k = some it →
      it ∈ s.hist ∧ it.key = k) x (by simp) fun _ _ _ => by simp
  · intro σ l x msg e _ hlog _ hstep _ _ h
    exact hstep.stored hlog h

/-- A tail with an empty `sent_list_` extends its chain, while transfers and downstream replies
arrive. What it has debited and stored reaches the joining server exactly if everything it has
debited or stored since the copy waits in `sent_list_` when it sends `FIN`. -/
theorem transfers_handed_over (hrun : Machine.Reach System.step System.NoJoin cfg.init σ)
    (htail : (σ.server x).istail = true) (hsent : (σ.server x).sentList = []) {addr : Address}
    (hext : Machine.Reach Handoff.step (fun _ l => TransferStep l)
      (Handoff.start (σ.server x) addr) h) (hfin : h.phase = .finished) {e : ChainServer}
    (he : e.sentList = []) (master : Address) :
    let e' := e.receiveExtendMsgs master h.stream
    e'.ok = true ∧
      (HandedOver h.copied e.hist.length h.tail e'.server ↔ Awaiting h.copied h.tail) := by
  intro e'
  have hlog := (Topology.reach (fun _ _ h => h) hrun).log x
  have hstart : TailWf (Handoff.start (σ.server x) addr).tail ∧
      SentStored (Handoff.start (σ.server x) addr).tail := by
    rw [Handoff.start, receiveExtendServer_server hsent]
    refine ⟨⟨htail, rfl, ⟨hlog.seqs, hlog.counter, hlog.update, hlog.sent, hlog.suffix⟩,
      stored_of_reach hrun⟩, ?_⟩
    intro q hq
    rw [hsent] at hq
    cases hq
  obtain ⟨hwf, hstored⟩ := hstart
  cases Handoff.shape_of_reach hext with
  | extending phase => simp [phase] at hfin
  | copied phase => simp [phase] at hfin
  | @finished t u accounts processed phase before later haccounts hprocessed tail stream copied =>
    have ht := hwf.run before
    have hu := ht.run later
    obtain ⟨e₁, hcopy, hmirrors, haccounts', hhist⟩ :=
      snapshot_mirrors ht he haccounts hprocessed master
    have hsents : e₁.receiveExtendMsgs master (u.sentList.map .sent) =
        { server := u.sentList.foldl replayed e₁ } := receiveExtendMsgs_sent
    have hend : e' = (u.sentList.foldl replayed e₁).receiveExtendMsgs master [.fin] := by
      change e.receiveExtendMsgs master h.stream = _
      rw [stream, receiveExtendMsgs_append_of_eq hcopy, sentMsgs,
        receiveExtendMsgs_append_of_eq hsents]
    have hiff := hmirrors.handedOver_iff haccounts' ht hu (hstored.run hwf before) later
    rw [hhist] at hiff
    rw [hend, tail, copied]
    refine ⟨rfl, ?_⟩
    constructor
    · intro hover
      have hawaiting := hiff.mp ⟨hover.debited, hover.answered, hover.balance, hover.processed⟩
      exact ⟨hawaiting.saved, hawaiting.waiting⟩
    · intro hawaiting
      have hover := hiff.mpr ⟨hawaiting.saved, hawaiting.waiting⟩
      exact ⟨hover.debited, hover.answered, hover.balance, hover.processed⟩

/-! ### Samples -/

section Sample

open Config

/-- The tail of the first bank's chain, with 10 in the account `a`, extends its chain and handles the
labels `before` and `later` around the snapshot. -/
def transferRun : System :=
  twoBanks.after System.NoJoin [request 1 (sampleDeposit "1" 10), hop 1 2, hop 2 3]

/-- Transfers of the given amounts under the ids "2" and "3". -/
def transferHandoff (before later : List HandoffLabel) : Handoff :=
  Handoff.whole (fun _ l => TransferStep l) (transferRun.server (localAddress 3)) (localAddress 4)
    before later

/-- The downstream reply to the transfer `r`. -/
def transferReply (r : String) : HandoffLabel := .reply { reqId := r, accountId := "z" }

/-- A transfer under the number `n`, as the tail receives it. -/
def numberedTransfer (n : ℕ) (r : String) (amount : ℚ) : HandoffLabel :=
  .request { sampleTransfer r amount with bankUpdateSeq := n }

lemma transferRun_reach : Machine.Reach System.step System.NoJoin twoBanks.init transferRun :=
  reach_after (by decide +kernel)

/-- One transfer before the copy, which is confirmed, and one after it, which still waits. -/
theorem transfers_handed_over_waiting :
    let h := transferHandoff [numberedTransfer 2 "2" 4, transferReply "2"] [numberedTransfer 3 "3" 5]
    let e' := ({} : ChainServer).receiveExtendMsgs (localAddress 0) h.stream
    e'.ok = true ∧ (HandedOver h.copied 0 h.tail e'.server ↔ Awaiting h.copied h.tail) := by
  have hfin : (transferHandoff [numberedTransfer 2 "2" 4, transferReply "2"]
      [numberedTransfer 3 "3" 5]).phase = .finished := by decide +kernel
  exact transfers_handed_over transferRun_reach (by decide +kernel) (by decide +kernel)
    (Handoff.reach_whole (by decide +kernel)) hfin rfl (localAddress 0)

/-- The transfer after the copy is confirmed before `FIN`, and the joining server never sees it. -/
theorem confirmed_transfer_lost :
    ¬ ∀ σ x, Machine.Reach System.step System.NoJoin twoBanks.init σ →
      (σ.server x).istail = true → (σ.server x).sentList = [] → ∀ addr h,
        Machine.Reach Handoff.step (fun _ l => TransferStep l) (Handoff.start (σ.server x) addr) h →
        h.phase = .finished → ∀ (e : ChainServer) (master : Address), e.sentList = [] →
          HandedOver h.copied e.hist.length h.tail (e.receiveExtendMsgs master h.stream).server := by
  intro hclaim
  have hfin : (transferHandoff [] [numberedTransfer 2 "2" 4, transferReply "2"]).phase =
      .finished := by decide +kernel
  have hover := hclaim transferRun (localAddress 3) transferRun_reach (by decide +kernel)
    (by decide +kernel) (localAddress 4) _ (Handoff.reach_whole (by decide +kernel)) hfin {}
    (localAddress 0) rfl
  have hbalance : (({} : ChainServer).receiveExtendMsgs (localAddress 0)
      (transferHandoff [] [numberedTransfer 2 "2" 4, transferReply "2"]).stream).server.balance "a" ≠
      (transferHandoff [] [numberedTransfer 2 "2" 4, transferReply "2"]).tail.balance "a" := by
    decide +kernel
  exact hbalance (congrFun hover.balance "a")

end Sample

end ChainReplication
