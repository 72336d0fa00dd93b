import ChainReplication.Server.Queries
import ChainReplication.System.Joins

/-!
# `NEW_HEAD` at a tail

`handle_new_head` asserts that a tail keeps nothing but transfers in `sent_list_`. A tail that extends its
chain collects every update there, and a server may become tail by `FIN` whatever it has collected.
-/

namespace ChainReplication

namespace ChainServer

variable {s s' : ChainServer} {req : Request} {master : Address} {msg : Message}

/-- What the assertion of `handle_new_head` is about. -/
def TransfersOnly (s : ChainServer) : Prop := s.istail = true → ∀ q ∈ s.sentList, q.type = .transfer

instance (s : ChainServer) : Decidable s.TransfersOnly := inferInstanceAs (Decidable (_ → _))

/-- The message is no update other than a transfer that reaches a tail while it extends its chain, and
no `FIN` that reaches a server with such updates in `sent_list_`. -/
def KeepsToTransfers (s : ChainServer) : Message → Prop
  | .request req => s.istail = true → s.extendingChain = true → s.Takes req →
      req.type = .query ∨ req.type = .transfer
  | .extendMsg .fin => ∀ q ∈ s.sentList, q.type = .transfer
  | _ => True

instance (s : ChainServer) (msg : Message) : Decidable (s.KeepsToTransfers msg) :=
  match msg with
  | .request _ => inferInstanceAs (Decidable (_ → _ → _ → _))
  | .extendMsg .fin => inferInstanceAs (Decidable (∀ q ∈ s.sentList, _))
  | .extendMsg (.start _) | .extendMsg (.account _ _) | .extendMsg (.history _) | .extendMsg (.sent _) =>
    instDecidableTrue
  | .reply _ | .acknowledge _ | .toBeHead | .toBeTail | .newSuccServer _ | .newPreServer _ | .newHead _
  | .newTail _ | .reqSeq _ | .join _ | .extendServer _ | .extendFinish _ | .extendFail =>
    instDecidableTrue

/-! ### The handlers -/

lemma storeUpdate_sentList (s : ChainServer) (req : Request) : (s.storeUpdate req).sentList =
    s.sentList ++ if s.extendingChain then [req] else [] := by
  obtain ⟨p, hp⟩ := remember_eq s req
  change (if (s.remember req).extendingChain then (s.remember req).insertSentList req
    else s.remember req).sentList = _
  rw [hp]
  by_cases hext : s.extendingChain = true
  · rw [if_pos hext, if_pos hext]
    rfl
  · rw [if_neg hext, if_neg hext, List.append_nil]

/-- What an answering server adds to `sent_list_`. -/
lemma answerTaken_sentList : (s.answerTaken req).server.sentList = s.sentList ++
    if req.type = .transfer then if (s.answered req).Applied then [s.answered req] else []
    else if s.extendingChain then [s.answered req] else [] := by
  have hanswered : (s.accept.updateRequestReply (s.number req)).2 = s.answered req := rfl
  have hserver : (s.answerTaken req).server = (s.accept.answerUpdate (s.number req)).server := by
    unfold answerTaken
    split_ifs
    · rfl
    · exact tailHandleUpdate_server
  obtain ⟨m, hm⟩ := updateRequestReply_eq s.accept (s.number req)
  rw [hserver]
  unfold answerUpdate
  simp only [hanswered, hm, answered_type]
  by_cases htype : req.type = .transfer
  · rw [if_pos htype, if_pos htype, handleTransfer_server]
    rfl
  · rw [if_neg htype, if_neg htype]
    exact storeUpdate_sentList _ _

/-- A handler that leaves the role alone and adds nothing to `sent_list_`. -/
lemma TransfersOnly.shrink (h : s.TransfersOnly) (htail : s'.istail = s.istail)
    (hsent : s'.sentList ⊆ s.sentList) : s'.TransfersOnly :=
  fun ht q hq => h (htail ▸ ht) q (hsent hq)

lemma receiveRequest_transfersOnly_iff (h : s.TransfersOnly) :
    (s.receiveRequest req).server.TransfersOnly ↔ s.KeepsToTransfers (.request req) := by
  by_cases htail : s.istail = true
  · by_cases htype : req.type = .query
    · refine iff_of_true ?_ (fun _ _ _ => Or.inl htype)
      obtain ⟨m, hm⟩ := getBalance_eq s req.accountId
      rw [receiveRequest_query htail htype]
      change (s.getBalance req.accountId).1.TransfersOnly
      rw [hm]
      exact h
    · by_cases htakes : s.Takes req
      · have htail' : (s.answerTaken req).server.istail = true := by
          rw [← receiveRequest_taken htail htype htakes]
          exact receiveRequest_istail.trans htail
        rw [receiveRequest_taken htail htype htakes]
        have hold := h htail
        simp only [TransfersOnly, htail', forall_const, answerTaken_sentList, List.forall_mem_append,
          KeepsToTransfers, htail, htakes, htype, false_or]
        rw [and_iff_right hold]
        by_cases htransfer : req.type = .transfer
        · simp only [htransfer, if_true, implies_true, iff_true]
          split_ifs <;> simp [htransfer]
        · simp only [htransfer, if_false]
          split_ifs with hext <;> simp [hext, htransfer]
      · rw [receiveRequest_untaken htype htakes]
        exact iff_of_true h fun _ _ ht => absurd ht htakes
  · refine iff_of_true (fun ht => ?_) fun ht => absurd ht htail
    exact absurd (receiveRequest_istail.symm.trans ht) htail

/-- A handler keeps the assertion true exactly for these messages. -/
theorem handleMsg_transfersOnly_iff (h : s.TransfersOnly) :
    (s.handleMsg master msg).server.TransfersOnly ↔ s.KeepsToTransfers msg := by
  cases msg with
  | request req => exact receiveRequest_transfersOnly_iff h
  | extendMsg m =>
    cases m with
    | fin => exact ⟨fun h' => h' rfl, fun h' _ => h'⟩
    | start a => exact iff_of_true h trivial
    | account a balance =>
      refine iff_of_true ?_ trivial
      simp only [handleMsg, receiveExtendMsg, createAccount]
      by_cases hmem : a ∈ s.accountMap
      · rw [if_pos hmem]
        exact h
      · rw [if_neg hmem]
        exact h
    | history q =>
      refine iff_of_true ?_ trivial
      simp only [handleMsg, receiveExtendMsg]
      obtain ⟨p, hp⟩ := insertProcessedList_eq
        (if q.bankUpdateSeq > s.bankUpdateSeq then { s with bankUpdateSeq := q.bankUpdateSeq } else s) q
      rw [hp]
      split_ifs <;> exact h
    | sent q =>
      refine iff_of_true ?_ trivial
      simp only [handleMsg, receiveExtendMsg]
      generalize hs₀ : (if q.bankUpdateSeq > s.bankUpdateSeq then { s with bankUpdateSeq := q.bankUpdateSeq }
        else s) = s₀
      have h₀ : s₀.TransfersOnly := by
        rw [← hs₀]
        split_ifs <;> exact h
      obtain ⟨m, hm⟩ := updateRequestReply_eq s₀ q
      have hlog :
          ((s₀.updateRequestReply q).1.writeLogReply (s₀.updateRequestReply q).2).TransfersOnly := by
        rw [hm]
        exact h₀
      split_ifs
      · obtain ⟨p, hp⟩ := insertProcessedList_eq
          ((s₀.updateRequestReply q).1.writeLogReply (s₀.updateRequestReply q).2)
          (s₀.updateRequestReply q).2
        rw [hp]
        exact hlog
      · exact hlog
  | acknowledge ack =>
    refine iff_of_true ?_ trivial
    obtain ⟨m, hm⟩ :=
      insertAllProcessed_eq s (s.sentList.takeWhile (·.bankUpdateSeq ≤ ack.bankUpdateSeq))
    simp only [handleMsg, receiveAck, hm]
    exact h.shrink rfl (List.dropWhile_sublist _).subset
  | toBeTail =>
    refine iff_of_true ?_ trivial
    have hkept (q : Request) (hq : q ∈ s.sentList.filter (·.type = .transfer)) : q.type = .transfer := by
      simpa using (List.mem_filter.mp hq).2
    obtain ⟨m, hm⟩ := insertAllProcessed_eq s (s.sentList.filter (·.type ≠ .transfer))
    simp only [handleMsg, toBeTail, hm]
    split
    · exact fun _ => hkept
    · rw [forwardTransfers_server]
      exact fun _ => hkept
  | reply rep =>
    refine iff_of_true ?_ trivial
    simp only [handleMsg, receiveTransferReply]
    split_ifs
    · exact h
    all_goals exact h.shrink rfl List.filter_sublist.subset
  | newHead n =>
    refine iff_of_true ?_ trivial
    simp only [handleMsg, handleNewHead]
    split_ifs
    · rw [resendTransfers_server]
      exact h
    · exact h
    · exact h
  | extendServer a =>
    refine iff_of_true ?_ trivial
    simp only [handleMsg, receiveExtendServer]
    split_ifs <;> exact h
  | extendFail =>
    refine iff_of_true (fun _ q hq => ?_) trivial
    cases hq
  | _ => exact iff_of_true h trivial

/-! ### The assertion -/

lemma resendTransfers_ok_iff {bankId : String} (hbank : bankId ∈ s.bankHeadList) (l : List Request) :
    (s.resendTransfers bankId l).ok = true ↔ ∀ q ∈ l, q.type = .transfer := by
  obtain ⟨head, hhead⟩ := Option.isSome_iff_exists.mp (AList.lookup_isSome.mpr hbank)
  induction l with
  | nil => simp [resendTransfers]
  | cons q l ih =>
    rw [List.forall_mem_cons, ← ih, resendTransfers]
    by_cases htype : q.type = .transfer
    · rw [if_neg (not_not.mpr htype)]
      by_cases hdest : q.destBankId = bankId
      · have hforward : s.forwardTransferToDownstream q =
            { server := s, out := [.tcp head (.request (s.transferToReq q))] } := by
          subst hdest
          simp only [forwardTransferToDownstream, hhead]
        rw [if_pos hdest, hforward]
        simp [htype, Effect.andThen]
      · simp [hdest, htype]
    · simp [htype, abort]

/-- For a bank that the server knows, `handle_new_head` fails its assertion on `sent_list_` or nothing. -/
lemma handleNewHead_ok_iff {n : Notify} (hbank : n.bankId ∈ s.bankHeadList) :
    (s.handleNewHead n).ok = true ↔ s.TransfersOnly := by
  rw [handleNewHead, if_pos hbank]
  by_cases htail : s.istail = true
  · simp only [htail, if_true, TransfersOnly, forall_const]
    exact resendTransfers_ok_iff (AList.mem_insert _ |>.mpr (Or.inl rfl)) _
  · simp [htail, TransfersOnly]

end ChainServer

namespace System

variable {cfg : Config} {σ σ' : System} {l : Label}

/-- Every server accepts `NEW_HEAD`. -/
def AcceptsNewHead (σ : System) : Prop := ∀ x, (σ.server x).TransfersOnly

/-- No step hands a tail that extends its chain an update other than a transfer, or `FIN` to a server that
keeps one in `sent_list_`. -/
def TransfersKept (σ : System) (l : Label) : Prop :=
  ∀ d ∈ σ.delivery l, d.1 ≠ σ.master.addr → (σ.server d.1).KeepsToTransfers d.2

instance (σ : System) (l : Label) : Decidable (TransfersKept σ l) :=
  inferInstanceAs (Decidable (∀ d ∈ σ.delivery l, _))

lemma extendBlock_transfersOnly {s : Address} (h : (σ.server s).TransfersOnly) :
    (σ.extendBlock s).server.TransfersOnly := by
  simp only [extendBlock]
  split_ifs
  · exact h
  · rintro ⟨⟩

/-- One step keeps the assertions true exactly under the guard. -/
lemma acceptsNewHead_step_iff (h : σ.AcceptsNewHead) (hs : σ.step l = some σ') :
    σ'.AcceptsNewHead ↔ TransfersKept σ l := by
  cases servers_cases hs with
  | @serve x msg delivery live ne_master server =>
    have hx := @ChainServer.handleMsg_transfersOnly_iff (σ.server x) σ.master.addr msg (h x)
    rw [TransfersKept, delivery]
    simp only [Option.mem_def, Option.some.injEq, forall_eq', ne_eq, ne_master, not_false_eq_true,
      forall_const]
    rw [← hx, AcceptsNewHead, server]
    constructor
    · intro h'
      have h' := h' x
      rwa [Function.update_self] at h'
    · intro h' y
      by_cases hyx : y = x
      · subst hyx
        rwa [Function.update_self]
      · rw [Function.update_of_ne hyx]
        exact h y
  | @finish s i k label server =>
    refine iff_of_true (fun y => ?_) ?_
    · rw [server]
      by_cases hys : y = s
      · subst hys
        rw [Function.update_self]
        exact extendBlock_transfersOnly (h y)
      · rw [Function.update_of_ne hys]
        exact h y
    · rw [label]
      rintro d ⟨⟩
  | keep idle server =>
    refine iff_of_true (fun y => ?_) fun d hd hne => absurd (idle d hd) hne
    rw [server]
    exact h y

lemma acceptsNewHead_init : cfg.init.AcceptsNewHead := by
  intro x
  apply Config.initServer_cases x
  · rintro ⟨⟩
  · rintro b - - - q ⟨⟩

/-- In runs with any number of joins and crashes, `NEW_HEAD` is handled in every state as long as the guard
holds, and the first step that breaks the guard makes the assertion false. -/
theorem new_head_accepted_iff (hrun : Machine.Reach step TransfersKept cfg.init σ) :
    (σ.AcceptsNewHead ∧ ∀ x, ∀ n : Notify, n.bankId ∈ (σ.server x).bankHeadList →
      ((σ.server x).handleNewHead n).ok = true) ∧
    ∀ l σ', σ.step l = some σ' → (σ'.AcceptsNewHead ↔ TransfersKept σ l) := by
  have h : σ.AcceptsNewHead := by
    apply hrun.invariant acceptsNewHead_init
    exact fun σ l τ h hl hs => (acceptsNewHead_step_iff h hs).mpr hl
  refine ⟨⟨h, fun x n hbank => (ChainServer.handleNewHead_ok_iff hbank).mpr (h x)⟩, ?_⟩
  exact fun l σ' hs => acceptsNewHead_step_iff h hs

open Config

/-- The chain of servers 1 and 2 after server 3 has joined it. -/
theorem new_head_accepted_iff_extended :
    ((growingBank.after TransfersKept (extend 3 2)).AcceptsNewHead ∧ ∀ x, ∀ n : Notify,
      n.bankId ∈ ((growingBank.after TransfersKept (extend 3 2)).server x).bankHeadList →
        (((growingBank.after TransfersKept (extend 3 2)).server x).handleNewHead n).ok = true) ∧
    ∀ l σ', (growingBank.after TransfersKept (extend 3 2)).step l = some σ' →
      (σ'.AcceptsNewHead ↔ TransfersKept (growingBank.after TransfersKept (extend 3 2)) l) :=
  new_head_accepted_iff (reach_after (by decide +kernel))

/-- The tail takes a deposit while it extends its chain: `NEW_HEAD` would end it. -/
theorem extending_tail_refuses_new_head : ¬ ∀ σ, Machine.Reach step (fun _ _ => True) growingBank.init σ →
    σ.AcceptsNewHead := by
  intro h
  have hrun : Machine.Reach step (fun _ _ => True) growingBank.init
      (growingBank.after (fun _ _ => True) [.join (localAddress 3), hop 3 0, hop 0 2,
        request 1 (sampleDeposit "1" 10), hop 1 2]) := reach_after (by decide +kernel)
  exact absurd (h _ hrun (localAddress 2)) (by decide +kernel)

end System

end ChainReplication
