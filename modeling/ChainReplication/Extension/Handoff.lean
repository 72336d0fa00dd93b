import ChainReplication.Library.Machine
import ChainReplication.Extension.Joiner
import ChainReplication.Server.Counters

/-!
# One handoff

A tail between `EXTEND_SERVER` and the `FIN` it sends: it goes on with its requests while its thread
copies the two tables and sends them, and last what has collected in `sent_list_`.
-/

namespace ChainReplication

/-- How far `send_req_to_extend_server` has come. -/
inductive HandoffPhase where
  | extending
  | copied
  | finished
deriving DecidableEq

/-- A tail that extends its chain, and the stream that it has sent or copied for the joining server.
`copied` is for the observer: how many updates the tail had handled when it copied its tables. -/
structure Handoff where
  tail : ChainServer
  stream : List ExtendMsg := []
  phase : HandoffPhase := .extending
  copied : ℕ := 0

/-- The steps of a handoff. -/
inductive HandoffLabel where
  /-- The tail handles a request. -/
  | request (req : Request)
  /-- The tail handles a downstream reply. -/
  | reply (rep : Reply)
  /-- The thread copies the maps, enumerated as given. -/
  | snapshot (accounts : List (String × ℚ)) (processed : List Request)
  /-- The thread sends `sent_list_` and `FIN`. -/
  | finish
deriving DecidableEq

namespace Handoff

/-- The tail `s` has handled `EXTEND_SERVER`. -/
def start (s : ChainServer) (extendAddr : Address) : Handoff :=
  { tail := (s.receiveExtendServer extendAddr).server }

/-- One step; a handler whose assertion fails ends the tail and the handoff with it. -/
def step (h : Handoff) : HandoffLabel → Option Handoff
  | .request req =>
    if h.phase ≠ .finished ∧ (h.tail.receiveRequest req).ok then
      some { h with tail := (h.tail.receiveRequest req).server }
    else none
  | .reply rep =>
    if h.phase ≠ .finished ∧ (h.tail.receiveTransferReply rep).ok then
      some { h with tail := (h.tail.receiveTransferReply rep).server }
    else none
  | .snapshot accounts processed =>
    if h.phase = .extending ∧ accounts.isPerm h.tail.accounts ∧ processed.isPerm h.tail.processed then
      some { h with
        stream := h.tail.snapshotMsgs accounts processed
        phase := .copied
        copied := h.tail.hist.length }
    else none
  | .finish =>
    if h.phase = .copied then
      some { h with
        tail := h.tail.stopActingAsTail
        stream := h.stream ++ h.tail.sentMsgs
        phase := .finished }
    else none

/-- One step with counters of 32 bits. -/
def step32 (h : Handoff) : HandoffLabel → Option Handoff
  | .request req =>
    if h.phase ≠ .finished ∧ (h.tail.receiveRequest32 req).ok then
      some { h with tail := (h.tail.receiveRequest32 req).server }
    else none
  | l => h.step l

/-- The number of a request has 32 bits, and a tail that is the head as well does not number an update while its
counter is at its last value. -/
def CounterFits (h : Handoff) : HandoffLabel → Prop
  | .request req => req.bankUpdateSeq < 2 ^ 32 ∧
      (req.type ≠ .query → h.tail.ishead = true → h.tail.bankUpdateSeq + 1 < 2 ^ 32)
  | _ => True

instance (h : Handoff) (l : HandoffLabel) : Decidable (h.CounterFits l) :=
  match l with
  | .request req => inferInstanceAs (Decidable (req.bankUpdateSeq < 2 ^ 32 ∧ (req.type ≠ .query → _)))
  | .reply _ | .snapshot .. | .finish => inferInstanceAs (Decidable True)

/-- Where the counter does not wrap, the width does not matter. -/
lemma step32_eq {h : Handoff} {l : HandoffLabel} (hfits : h.CounterFits l) : h.step32 l = h.step l := by
  cases l with
  | request req =>
    have hreq : h.tail.receiveRequest32 req = h.tail.receiveRequest req :=
      ChainServer.receiveRequest32_eq hfits.2
    rw [step32, step, hreq]
  | _ => rfl

/-! ### Executions -/

section Execution

variable (ok : Handoff → HandoffLabel → Prop) [∀ h l, Decidable (ok h l)] (s : ChainServer)
  (addr : Address) (before later : List HandoffLabel)

/-- The labels of a whole handoff, with steps of the tail before and after the snapshot. -/
def wholeLabels : List HandoffLabel :=
  let t := (Machine.after step ok (start s addr) before).tail
  before ++ .snapshot t.accounts t.processed.reverse :: later ++ [.finish]

/-- The handoff after them. -/
def whole : Handoff := Machine.after step ok (start s addr) (wholeLabels ok s addr before later)

variable {ok s addr before later}

lemma reach_whole (h : (Machine.run step ok (start s addr)
    (wholeLabels ok s addr before later)).isSome = true) :
    Machine.Reach step ok (start s addr) (whole ok s addr before later) :=
  Machine.reach_after h

end Execution

end Handoff

namespace ChainServer

variable {s : ChainServer} {req : Request}

/-! ### Updates during an extension -/

/-- What the tail adds to `sent_list_` for a request that it answers during an extension. -/
def extendingSent (s : ChainServer) (req : Request) : List Request :=
  if req.type = .transfer then (s.answered req).toForward else [s.answered req]

/-- The tail after a request that it answers during an extension. -/
def answeredExtending (s : ChainServer) (req : Request) : ChainServer :=
  { s.accept with
    accountMap := (s.accept.updateRequestReply (s.number req)).1.accountMap
    processedMap := (s.remember (s.answered req)).processedMap
    hist := s.hist ++ [s.answered req]
    sentList := s.sentList ++ s.extendingSent req }

lemma answerUpdate_extending (hext : s.extendingChain = true) :
    (s.accept.answerUpdate (s.number req)).server = s.answeredExtending req := by
  obtain ⟨am, ham⟩ := updateRequestReply_eq s.accept (s.number req)
  have hanswered : (s.accept.updateRequestReply (s.number req)).2 = s.answered req := rfl
  simp only [answerUpdate, ham, hanswered, answered_type]
  generalize hw : writeLogReply { s.accept with accountMap := am } (s.answered req) = w
  have hprocessed : w.processedMap = s.processedMap := by rw [← hw]; rfl
  have hmap : (w.remember (s.answered req)).processedMap =
      (s.remember (s.answered req)).processedMap := remember_processedMap hprocessed
  obtain ⟨p, hp⟩ := remember_eq w (s.answered req)
  rw [hp] at hmap
  have hmap : p = (s.remember (s.answered req)).processedMap := hmap
  rw [answeredExtending, extendingSent, ham, ← hmap, Request.toForward, answered_type]
  by_cases htype : req.type = .transfer
  · rw [if_pos htype, if_pos htype, handleTransfer_server, hp, ← hw]
    simp only [htype, true_and]
    rfl
  · rw [if_neg htype, if_neg htype]
    change (if (w.remember (s.answered req)).extendingChain then
      (w.remember (s.answered req)).insertSentList (s.answered req) else _) = _
    rw [hp, if_pos (by rw [← hw]; exact hext), ← hw]
    rfl

/-- What a request can do to a tail that extends its chain. -/
inductive ExtendingRequest (s : ChainServer) (req : Request) : ChainServer → Prop where
  | query (type : req.type = .query) : ExtendingRequest s req (s.getBalance req.accountId).1
  | duplicate : ExtendingRequest s req s
  | answer (type : req.type ≠ .query) : ExtendingRequest s req (s.answeredExtending req)

theorem receiveRequest_extending (htail : s.istail = true) (hext : s.extendingChain = true)
    (hok : (s.receiveRequest req).ok = true) :
    ExtendingRequest s req (s.receiveRequest req).server := by
  have hcase := receiveRequest_cases s req
  generalize s.receiveRequest req = e at hcase hok ⊢
  cases hcase with
  | query type => exact .query type
  | refused => simp [abort] at hok
  | duplicate => exact .duplicate
  | relayed type tail =>
    rw [htail] at tail
    simp at tail
  | single type =>
    rw [answerUpdate_extending hext]
    exact .answer type
  | tail type =>
    rw [tailHandleUpdate_server, answerUpdate_extending hext]
    exact .answer type

/-- The counter moves to the next number only. -/
lemma receiveRequest_extending_count (req : Request) (htail : s.istail = true)
    (hext : s.extendingChain = true) : (s.receiveRequest req).server.bankUpdateSeq = s.bankUpdateSeq ∨
      req.type ≠ .query ∧ (s.ishead = true ∨ req.bankUpdateSeq = s.bankUpdateSeq + 1) ∧
        (s.receiveRequest req).server.bankUpdateSeq = s.bankUpdateSeq + 1 := by
  have hcase := receiveRequest_cases s req
  generalize s.receiveRequest req = e at hcase ⊢
  cases hcase with
  | query =>
    obtain ⟨m, hm⟩ := getBalance_eq s req.accountId
    left
    rw [handleQuery, hm]
  | refused => exact Or.inl rfl
  | duplicate => exact Or.inl rfl
  | relayed type tail =>
    rw [htail] at tail
    cases tail
  | single type _ head =>
    rw [answerUpdate_extending hext]
    exact Or.inr ⟨type, Or.inl head, rfl⟩
  | tail type _ _ next =>
    rw [tailHandleUpdate_server, answerUpdate_extending hext]
    exact Or.inr ⟨type, Or.inr next, rfl⟩

/-- A handled reply takes the confirmed transfers out of `sent_list_`. -/
lemma receiveTransferReply_server {rep : Reply} (hok : (s.receiveTransferReply rep).ok = true) :
    (s.receiveTransferReply rep).server = { s with
      sentList := s.sentList.filter
        (fun it => !(it.reqId = rep.reqId && it.destAccountId = rep.accountId)) } := by
  unfold receiveTransferReply at hok ⊢
  split at hok
  · simp [abort] at hok
  · rw [if_neg ‹_›]

/-- A tail with an empty `sent_list_` begins to extend. -/
lemma receiveExtendServer_server (hsent : s.sentList = []) (addr : Address) :
    (s.receiveExtendServer addr).server = { s with
      extendingChain := true, finishSendingHist := false, succServerAddr := addr } := by
  simp [receiveExtendServer, hsent]

/-- One message that a tail handles during an extension. -/
inductive TailStep (ok : HandoffLabel → Prop) (s : ChainServer) : ChainServer → Prop where
  | request {req : Request} (guard : ok (.request req)) (live : (s.receiveRequest req).ok = true) :
      TailStep ok s (s.receiveRequest req).server
  | reply {rep : Reply} (guard : ok (.reply rep)) (live : (s.receiveTransferReply rep).ok = true) :
      TailStep ok s (s.receiveTransferReply rep).server

/-- The messages that a tail handles one after another. -/
def TailRun (ok : HandoffLabel → Prop) : ChainServer → ChainServer → Prop :=
  Relation.ReflTransGen (TailStep ok)

/-- A tail with a well-formed log that extends its chain. -/
structure TailWf (s : ChainServer) : Prop where
  tail : s.istail = true
  extending : s.extendingChain = true
  log : s.LogWf
  stored : ∀ k it, s.processedMap.lookup k = some it → it ∈ s.hist ∧ it.key = k

namespace TailWf

variable {s' : ChainServer} {ok : HandoffLabel → Prop}

lemma request (h : TailWf s) (hstep : ExtendingRequest s req s') : TailWf s' := by
  cases hstep with
  | query type =>
    obtain ⟨m, hm⟩ := getBalance_eq s req.accountId
    rw [hm]
    exact ⟨h.tail, h.extending, ⟨h.log.seqs, h.log.counter, h.log.update, h.log.sent, h.log.suffix⟩,
      h.stored⟩
  | duplicate => exact h
  | answer type =>
    have hnew : s.answered req ∈ s.hist ++ [s.answered req] := by simp
    refine ⟨h.tail, h.extending, ⟨h.log.seqs_append req, ?_, ?_, ?_, ?_⟩, ?_⟩
    · simp [answeredExtending, accept, h.log.counter]
    · intro q hq
      exact mem_append_answered (P := fun q => q.type ≠ .query) h.log.update (by simpa using type) hq
    · refine h.log.sent.append ?_
      rw [extendingSent]
      split_ifs
      · rw [Request.toForward]
        split_ifs
        · exact List.Sublist.refl _
        · exact List.nil_sublist _
      · exact List.Sublist.refl _
    · intro htail
      have htail : s.istail = false := htail
      rw [h.tail] at htail
      cases htail
    · intro k it hit
      have old (hold : s.processedMap.lookup k = some it) :
          it ∈ s.hist ++ [s.answered req] ∧ it.key = k :=
        ⟨List.mem_append_left _ (h.stored k it hold).1, (h.stored k it hold).2⟩
      rw [answeredExtending, remember] at hit
      split_ifs at hit
      · rw [lookup_insertProcessedList, Option.or_eq_some_iff] at hit
        rcases hit with hit | ⟨-, hit⟩
        · exact old hit
        · simp only [Option.ite_none_right_eq_some, Option.some.injEq] at hit
          obtain ⟨hk, rfl⟩ := hit
          exact ⟨hnew, hk⟩
      · exact old hit

lemma step (h : TailWf s) (hstep : TailStep ok s s') : TailWf s' := by
  cases hstep with
  | request guard live => exact h.request (receiveRequest_extending h.tail h.extending live)
  | reply guard live =>
    rw [receiveTransferReply_server live]
    exact ⟨h.tail, h.extending, ⟨h.log.seqs, h.log.counter, h.log.update,
      List.filter_sublist.trans h.log.sent, fun htail => by
        have htail : s.istail = false := htail
        rw [h.tail] at htail
        cases htail⟩, h.stored⟩

lemma run (h : TailWf s) (hrun : TailRun ok s s') : TailWf s' := by
  induction hrun with
  | refl => exact h
  | tail _ hstep ih => exact ih.step hstep

end TailWf

end ChainServer

namespace Handoff

open ChainServer

/-- A handoff is a run of the tail, cut where the thread copies the tables and where it sends
`FIN`. -/
inductive Shape (ok : HandoffLabel → Prop) (s : ChainServer) (h : Handoff) : Prop where
  | extending (phase : h.phase = .extending) (before : TailRun ok s h.tail) (stream : h.stream = [])
  | copied {t accounts processed} (phase : h.phase = .copied) (before : TailRun ok s t)
      (later : TailRun ok t h.tail) (accounts_perm : accounts.Perm t.accounts)
      (processed_perm : processed.Perm t.processed)
      (stream : h.stream = t.snapshotMsgs accounts processed) (copied : h.copied = t.hist.length)
  | finished {t u accounts processed} (phase : h.phase = .finished) (before : TailRun ok s t)
      (later : TailRun ok t u) (accounts_perm : accounts.Perm t.accounts)
      (processed_perm : processed.Perm t.processed) (tail : h.tail = u.stopActingAsTail)
      (stream : h.stream = t.snapshotMsgs accounts processed ++ u.sentMsgs)
      (copied : h.copied = t.hist.length)

variable {ok : HandoffLabel → Prop} {s : ChainServer} {h h' : Handoff} {l : HandoffLabel}

lemma Shape.step (h₀ : Shape ok s h) (hl : ok l) (hstep : h.step l = some h') : Shape ok s h' := by
  -- what the tail handles continues the last part of the run
  have handled {s' : ChainServer} (hnot : h.phase ≠ .finished) (htail : TailStep ok h.tail s')
      (heq : h' = { h with tail := s' }) : Shape ok s h' := by
    rw [heq]
    cases h₀ with
    | extending phase before stream => exact .extending phase (before.tail htail) stream
    | copied phase before later haccounts hprocessed stream copied =>
      exact .copied phase before (later.tail htail) haccounts hprocessed stream copied
    | finished phase => exact absurd phase hnot
  cases l with
  | request req =>
    simp only [Handoff.step] at hstep
    split_ifs at hstep with hok
    exact handled hok.1 (.request hl hok.2) (Option.some.inj hstep).symm
  | reply rep =>
    simp only [Handoff.step] at hstep
    split_ifs at hstep with hok
    exact handled hok.1 (.reply hl hok.2) (Option.some.inj hstep).symm
  | snapshot accounts processed =>
    simp only [Handoff.step] at hstep
    split_ifs at hstep with hok
    obtain ⟨hphase, haccounts, hprocessed⟩ := hok
    obtain rfl := Option.some.inj hstep
    cases h₀ with
    | extending phase before stream =>
      exact .copied rfl before Relation.ReflTransGen.refl (List.isPerm_iff.mp haccounts)
        (List.isPerm_iff.mp hprocessed) rfl rfl
    | copied phase => simp [phase] at hphase
    | finished phase => simp [phase] at hphase
  | finish =>
    simp only [Handoff.step] at hstep
    split_ifs at hstep with hphase
    obtain rfl := Option.some.inj hstep
    cases h₀ with
    | extending phase => simp [phase] at hphase
    | copied phase before later haccounts hprocessed stream copied =>
      exact .finished rfl before later haccounts hprocessed rfl (by rw [stream]) copied
    | finished phase => simp [phase] at hphase

theorem shape_of_reach {addr : Address}
    (hrun : Machine.Reach step (fun _ l => ok l) (start s addr) h) :
    Shape ok (start s addr).tail h :=
  hrun.invariant (Shape.extending rfl Relation.ReflTransGen.refl rfl)
    fun _ _ _ h₀ hl hstep => h₀.step hl hstep

/-- While the tail extends its chain it stays as it has to be. -/
lemma Shape.wf (h₀ : Shape ok s h) (hs : TailWf s) (hphase : h.phase ≠ .finished) : TailWf h.tail := by
  cases h₀ with
  | extending _ before => exact hs.run before
  | copied _ before later => exact (hs.run before).run later
  | finished phase => exact absurd phase hphase

/-- The counter of the tail has 32 bits. -/
lemma counted {addr : Address} (hs : TailWf (start s addr).tail)
    (hseq : (start s addr).tail.bankUpdateSeq < 2 ^ 32)
    (hrun : Machine.Reach step (fun h l => ok l ∧ h.CounterFits l) (start s addr) h) :
    h.tail.bankUpdateSeq < 2 ^ 32 := by
  refine hrun.invariant_of (I := fun h => h.tail.bankUpdateSeq < 2 ^ 32) (J := Shape ok (start s addr).tail)
    (fun _ hu => shape_of_reach (hu.mono fun _ _ h => h.1)) hseq ?_
  intro h l h' hlt hshape _ hl hstep
  cases l with
  | request req =>
    simp only [Handoff.step] at hstep
    split_ifs at hstep with hok
    obtain rfl := Option.some.inj hstep
    have hwf := hshape.wf hs hok.1
    rcases receiveRequest_extending_count req hwf.tail hwf.extending with
      hsame | ⟨htype, hnext, hcount⟩
    · rwa [hsame]
    · rw [hcount]
      rcases hnext with hhead | hnext
      · exact hl.2.2 htype hhead
      · rw [← hnext]
        exact hl.2.1
  | reply rep =>
    simp only [Handoff.step] at hstep
    split_ifs at hstep with hok
    obtain rfl := Option.some.inj hstep
    rwa [receiveTransferReply_server hok.2]
  | snapshot accounts processed =>
    simp only [Handoff.step] at hstep
    split_ifs at hstep
    obtain rfl := Option.some.inj hstep
    exact hlt
  | finish =>
    simp only [Handoff.step] at hstep
    split_ifs at hstep
    obtain rfl := Option.some.inj hstep
    exact hlt

end Handoff

end ChainReplication
