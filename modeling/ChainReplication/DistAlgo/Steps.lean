import ChainReplication.DistAlgo.Network

/-!
# The steps of the DistAlgo system

What each handler of a server leaves and sends, and what a step of the system does with it.
-/

namespace ChainReplication.DistAlgo

variable {P : Type*} {req r r' : Request P} {p q x y src dst : P} {out : List (P × Mail P)}
  {m : Mail P} {k : Option ℕ}

@[simp] lemma Request.body_body : r.body.body = r.body := rfl

namespace Server

variable {s t : Server P}

/-- What `update_request_reply` writes. -/
lemma updateRequestReply_frame (s : Server P) (req : Request P) :
    ∃ accounts processed applied isNew reply, s.updateRequestReply req =
      ({ s with accounts := accounts, processed := processed, applied := applied },
        { req with isNew := isNew, reply := reply }) ∧
      reply.reqId = req.reqId ∧ reply.type = req.type ∧ reply.accountId = req.accountId := by
  obtain ⟨hkeeps, happlied, -, -, hreply⟩ := buildReplyFromHistory_spec s req
  obtain ⟨hupdate, -, -, -⟩ := updateBalance_spec (s.buildReplyFromHistory req).1 req
  obtain ⟨hget, -, -⟩ := getBalance_spec (s := (s.buildReplyFromHistory req).1) (a := req.accountId)
  have hnames : (s.buildReplyFromHistory req).2.reqId = req.reqId ∧
      (s.buildReplyFromHistory req).2.type = req.type ∧
      (s.buildReplyFromHistory req).2.accountId = req.accountId := by
    rw [hreply]
    cases s.found req with
    | none => exact ⟨rfl, rfl, rfl⟩
    | some r =>
      rw [Option.map_some, Option.getD_some, replyFrom]
      split_ifs <;> exact ⟨rfl, rfl, rfl⟩
  rw [updateRequestReply]
  dsimp only
  split_ifs
  · rw [(hkeeps.trans hupdate).frame]
    exact ⟨_, _, _, _, _, rfl, hnames⟩
  · rw [(hkeeps.trans hget).frame]
    exact ⟨_, _, _, _, _, rfl, hnames⟩
  · rw [hkeeps.frame]
    exact ⟨_, _, _, _, _, rfl, hnames⟩

/-- The acknowledgement that a server sends to the one before it. -/
def Acks (s : Server P) (reqs : List (Request P)) (p : P × Mail P) : Prop :=
  s.isHead = false ∧ ∃ q ∈ s.prev, ∃ r ∈ reqs, p = (q, .msg (.ack r.bankUpdateSeq r.reqId))

/-- What a handler of a server leaves and sends. -/
inductive HandleCase (s : Server P) (src : P) : Mail P → Server P → List (P × Mail P) → Prop
  /-- Nothing is taken up: queries, updates that the server has already, news of other banks. -/
  | idle {m out accounts processed applied} (none_taken : s.takenUp src m = none)
      (queries : ∀ p ∈ out, ∃ rep, p.2 = .msg (.reply rep) ∧ rep.type = .query) :
      HandleCase s src m { s with accounts := accounts, processed := processed, applied := applied } out
  | pass {m r y accounts processed applied} (taken : s.takenUp src m = some r.body)
      (next : r.bankUpdateSeq = s.bankUpdateSeq + 1) (relay : s.isTail = false) (succ : s.succ = some y) :
      HandleCase s src m
        { s with
          bankUpdateSeq := r.bankUpdateSeq
          sent := s.sent ++ [r]
          accounts := accounts
          processed := processed
          applied := applied }
        [(y, .msg (.request r))]
  | complete {m r out accounts processed applied} (taken : s.takenUp src m = some r.body)
      (next : r.bankUpdateSeq = s.bankUpdateSeq + 1) (tail : s.isTail = true)
      (out_eq : ∀ p ∈ out, s.Acks [r] p ∨ ∃ c rep, p = (c, .msg (.reply rep)) ∧ rep.reqId = r.reqId ∧
        rep.type = r.type ∧ rep.accountId = r.accountId) :
      HandleCase s src m
        { s with
          bankUpdateSeq := r.bankUpdateSeq
          accounts := accounts
          processed := processed
          applied := applied }
        out
  | acked {n id moved sent out processed} (split : s.sent = moved ++ sent)
      (upTo : ∀ r ∈ moved, r.bankUpdateSeq ≤ n) (out_eq : ∀ p ∈ out, s.Acks moved p) :
      HandleCase s src (.msg (.ack n id)) { s with sent := sent, processed := processed } out
  | head : HandleCase s src (.notice .toBeHead) { s with isHead := true } []
  | tail {out processed} (out_eq : ∀ p ∈ out, s.Acks s.sent p) :
      HandleCase s src (.notice .toBeTail) { s with isTail := true, sent := [], processed := processed } out
  | prev {p : P} : HandleCase s src (.notice (.newPrevServer p)) { s with prev := some p }
      [(s.master, .ackNewPrevServer s.bankId s.bankUpdateSeq.toNat)]
  | succ {y : P} {n : ℕ} : HandleCase s src (.notice (.newSuccServer y n)) { s with succ := some y }
      ((s.sent.filter fun req => (n : ℤ) < req.bankUpdateSeq).map fun req => (y, .msg (.request req)))

/-- The requests that the loop of the `ACK` handler moves. -/
lemma moveAcked_split (n : ℤ) (l : List (Request P)) (s : Server P) (last : Option (Request P)) :
    ∃ moved sent processed, l = moved ++ sent ∧ (∀ r ∈ moved, r.bankUpdateSeq ≤ n) ∧
      (moveAcked n l s last).1 = { s with sent := sent, processed := processed } ∧
      ∀ r ∈ (moveAcked n l s last).2, r ∈ moved ∨ r ∈ last := by
  induction l generalizing s last with
  | nil => exact ⟨[], [], s.processed, rfl, List.forall_mem_nil _, rfl, fun r hr => Or.inr hr⟩
  | cons r rest ih =>
    rw [moveAcked]
    split_ifs with hr
    · obtain ⟨moved, sent, processed, rfl, hupTo, heq, hlast⟩ := ih (s.insertProcessedList r) (some r)
      refine ⟨r :: moved, sent, processed, rfl, ?_, heq, fun x hx => Or.inl ?_⟩
      · exact List.forall_mem_cons.mpr ⟨hr, hupTo⟩
      · rcases hlast x hx with hx | hx
        · exact List.mem_cons_of_mem _ hx
        · obtain rfl := Option.some.inj hx
          exact List.mem_cons_self
    · exact ⟨[], r :: rest, s.processed, rfl, List.forall_mem_nil _, rfl, fun x hx => Or.inr hx⟩

/-- The acknowledgement of the last request of a list. -/
lemma passAck_acks {last : Option (Request P)} {reqs : List (Request P)} {acks : List (P × Msg P)}
    (h : s.passAck last = some acks) (hlast : ∀ r ∈ last, r ∈ reqs) :
    ∀ p ∈ acks.map fun p => (p.1, Mail.msg p.2), s.Acks reqs p := by
  intro p hp
  cases last with
  | none =>
    obtain rfl := Option.some.inj h
    cases hp
  | some r =>
    rw [passAck] at h
    split_ifs at h with hhead
    · obtain rfl := Option.some.inj h
      cases hp
    · obtain ⟨q, hq, h⟩ := Option.bind_eq_some_iff.mp h
      obtain rfl := Option.some.inj h
      obtain rfl := List.mem_singleton.mp hp
      exact ⟨by simpa using hhead, q, hq, r, hlast r rfl, rfl⟩

lemma takenUp_of_head (htype : req.type ≠ .query) (hhead : s.isHead = true) :
    s.takenUp src (.msg (.request req)) =
      some { req with bankUpdateSeq := s.bankUpdateSeq + 1, client := some src }.body := by
  rw [takenUp, if_neg htype, if_pos hhead]

lemma takenUp_of_next (htype : req.type ≠ .query) (hhead : s.isHead = false)
    (hnext : s.bankUpdateSeq = req.bankUpdateSeq - 1) :
    s.takenUp src (.msg (.request req)) = some req.body := by
  rw [takenUp, if_neg htype, if_neg (by simp [hhead]), if_pos hnext]

@[simp] lemma takenUp_ack (n : ℤ) (id : String) : s.takenUp src (.msg (.ack n id)) = none := rfl

@[simp] lemma takenUp_notice (notice : Notice P) : s.takenUp src (.notice notice) = none := rfl

/-- The update is a request that a head numbers, or one that brings its number. -/
lemma takenUp_eq (h : s.takenUp src m = some r) : ∃ req, m = .msg (.request req) ∧ req.type ≠ .query ∧
    (s.isHead = true ∧ r = { req with bankUpdateSeq := s.bankUpdateSeq + 1, client := some src }.body ∨
      s.isHead = false ∧ req.bankUpdateSeq = s.bankUpdateSeq + 1 ∧ r = req.body) := by
  unfold takenUp at h
  split at h
  · split_ifs at h with htype hhead hnext
    · exact ⟨_, rfl, htype, Or.inl ⟨hhead, (Option.some.inj h).symm⟩⟩
    · exact ⟨_, rfl, htype, Or.inr ⟨by simpa using hhead, by omega, (Option.some.inj h).symm⟩⟩
  · cases h

/-- What `head_handle_request` and `internal_handle_request` do. -/
lemma passOn_case {u : Server P × Request P} {acks : List (P × Msg P)}
    (htaken : s.takenUp src m = some r.body) (hnext : r.bankUpdateSeq = s.bankUpdateSeq + 1)
    (hrelay : s.isTail = false) (hu : u = { s with bankUpdateSeq := r.bankUpdateSeq }.passOn r)
    (hout : u.1.forwardRequest u.2 = some acks) :
    HandleCase s src m u.1 (acks.map fun p => (p.1, .msg p.2)) := by
  obtain ⟨accounts, processed, applied, isNew, reply, heq, -⟩ :=
    updateRequestReply_frame { s with bankUpdateSeq := r.bankUpdateSeq } r
  rw [passOn, heq] at hu
  subst hu
  obtain ⟨y, hy, hout⟩ := Option.bind_eq_some_iff.mp hout
  obtain rfl := Option.some.inj hout
  exact .pass (r := { r with isNew := isNew, reply := reply }) htaken hnext hrelay hy

/-- What `single_handle_request` and `tail_handle_request` leave. -/
lemma complete_frame (s : Server P) (hext : s.extendingChain = false) (r : Request P) :
    ∃ accounts processed applied isNew reply, s.complete r =
      ({ s with accounts := accounts, processed := processed, applied := applied },
        { r with isNew := isNew, reply := reply }) ∧
      reply.reqId = r.reqId ∧ reply.type = r.type ∧ reply.accountId = r.accountId := by
  obtain ⟨accounts, processed, applied, isNew, reply, heq, hnames⟩ := updateRequestReply_frame s r
  rw [complete, heq]
  dsimp only
  rw [keepAnswered_eq]
  cases isNew with
  | true =>
    refine ⟨accounts, (({ s with accounts := accounts, processed := processed, applied := applied } :
      Server P).insertProcessedList { r with isNew := true, reply := reply }).processed,
      applied, true, reply, ?_, hnames⟩
    simp only [hext, insertProcessedList, if_true, Bool.false_eq_true, if_false]
  | false =>
    refine ⟨accounts, processed, applied, false, reply, ?_, hnames⟩
    simp only [hext, Bool.false_eq_true, if_false]

lemma replyToClient_eq {acks : List (P × Msg P)} (h : replyToClient r = some acks) :
    ∃ c ∈ r.client, acks = [(c, .reply r.reply)] := by
  obtain ⟨c, hc, h⟩ := Option.bind_eq_some_iff.mp h
  exact ⟨c, hc, (Option.some.inj h).symm⟩

lemma sendAck_eq {acks : List (P × Msg P)} (h : s.sendAck r = some acks) :
    ∃ q ∈ s.prev, acks = [(q, .ack r.bankUpdateSeq r.reqId)] := by
  obtain ⟨q, hq, h⟩ := Option.bind_eq_some_iff.mp h
  exact ⟨q, hq, (Option.some.inj h).symm⟩

lemma singleHandleRequest_case {acks : List (P × Msg P)} (hext : s.extendingChain = false)
    (htaken : s.takenUp src m = some r.body) (hnext : r.bankUpdateSeq = s.bankUpdateSeq + 1)
    (htail : s.isTail = true)
    (h : { s with bankUpdateSeq := r.bankUpdateSeq }.singleHandleRequest r = some (t, acks)) :
    HandleCase s src m t (acks.map fun p => (p.1, .msg p.2)) := by
  obtain ⟨accounts, processed, applied, isNew, reply, heq, hnames⟩ :=
    complete_frame { s with bankUpdateSeq := r.bankUpdateSeq } hext r
  obtain ⟨out, hout, h⟩ := Option.bind_eq_some_iff.mp h
  obtain ⟨rfl, rfl⟩ := Prod.mk.inj (Option.some.inj h)
  rw [heq] at hout ⊢
  obtain ⟨c, -, rfl⟩ := replyToClient_eq hout
  refine .complete htaken hnext htail ?_
  rintro p hp
  obtain rfl := List.mem_singleton.mp hp
  exact Or.inr ⟨c, reply, rfl, hnames⟩

lemma tailHandleRequest_case {acks : List (P × Msg P)} (hext : s.extendingChain = false)
    (hhead : s.isHead = false) (htaken : s.takenUp src m = some r.body)
    (hnext : r.bankUpdateSeq = s.bankUpdateSeq + 1) (htail : s.isTail = true)
    (h : { s with bankUpdateSeq := r.bankUpdateSeq }.tailHandleRequest r = some (t, acks)) :
    HandleCase s src m t (acks.map fun p => (p.1, .msg p.2)) := by
  obtain ⟨accounts, processed, applied, isNew, reply, heq, hnames⟩ :=
    complete_frame { s with bankUpdateSeq := r.bankUpdateSeq } hext r
  obtain ⟨replies, hreplies, h⟩ := Option.bind_eq_some_iff.mp h
  obtain ⟨ack, hack, h⟩ := Option.bind_eq_some_iff.mp h
  obtain ⟨rfl, rfl⟩ := Prod.mk.inj (Option.some.inj h)
  rw [heq] at hreplies hack ⊢
  obtain ⟨q, hq, rfl⟩ := sendAck_eq hack
  refine .complete htaken hnext htail ?_
  intro p hp
  rw [List.map_append, List.mem_append] at hp
  rcases hp with hp | hp
  · right
    split_ifs at hreplies with htype
    · obtain rfl := Option.some.inj hreplies
      cases hp
    · obtain ⟨c, -, rfl⟩ := replyToClient_eq hreplies
      obtain rfl := List.mem_singleton.mp hp
      exact ⟨c, reply, rfl, hnames⟩
  · obtain rfl := List.mem_singleton.mp hp
    exact Or.inl ⟨hhead, q, hq, r, List.mem_singleton_self r, rfl⟩

lemma processReq_case {acks : List (P × Msg P)} (hext : s.extendingChain = false)
    (h : s.processReq req src = some (t, acks)) :
    HandleCase s src (.msg (.request req)) t (acks.map fun p => (p.1, .msg p.2)) := by
  rw [processReq] at h
  split_ifs at h with htype htail hrelay hsingle hold hnext
  · rw [handleQuery] at h
    obtain ⟨out, hout, h⟩ := Option.bind_eq_some_iff.mp h
    obtain ⟨rfl, rfl⟩ := Prod.mk.inj (Option.some.inj h)
    obtain ⟨c, -, rfl⟩ := replyToClient_eq hout
    obtain ⟨hkeeps, -, -⟩ := getBalance_spec (s := s) (a := req.accountId)
    rw [hkeeps.frame]
    refine .idle (by rw [takenUp, if_pos htype]) ?_
    rintro p hp
    obtain rfl := List.mem_singleton.mp hp
    exact ⟨_, rfl, htype⟩
  · obtain ⟨hhead, hrelay⟩ : s.isHead = true ∧ s.isTail = false := by simpa using hrelay
    obtain ⟨out, hout, h⟩ := Option.bind_eq_some_iff.mp h
    obtain ⟨rfl, rfl⟩ := Prod.mk.inj (Option.some.inj h)
    exact passOn_case (takenUp_of_head htype hhead) rfl hrelay rfl hout
  · obtain ⟨hhead, htail⟩ : s.isHead = true ∧ s.isTail = true := by simpa using hsingle
    exact singleHandleRequest_case hext (takenUp_of_head htype hhead) rfl htail h
  · obtain ⟨rfl, rfl⟩ := Prod.mk.inj (Option.some.inj h)
    have hhead : s.isHead = false := by grind
    refine .idle ?_ (List.forall_mem_nil _)
    rw [takenUp, if_neg htype, if_neg (by simp [hhead]), if_neg (by omega)]
  · have hhead : s.isHead = false := by grind
    have htaken : s.takenUp src (.msg (.request req)) = some req.body := takenUp_of_next htype hhead hnext
    have hnext : req.bankUpdateSeq = s.bankUpdateSeq + 1 := by omega
    dsimp only at h
    split_ifs at h with htail
    · exact tailHandleRequest_case hext hhead htaken hnext htail h
    · obtain ⟨out, hout, h⟩ := Option.bind_eq_some_iff.mp h
      obtain ⟨rfl, rfl⟩ := Prod.mk.inj (Option.some.inj h)
      exact passOn_case htaken hnext (by simpa using htail) rfl hout

/-- `h` is what `posted` leaves of a handler. -/
lemma posted_eq {u : Option (Server P × List (P × Msg P))} (h : posted u = some (t, out)) :
    ∃ acks, u = some (t, acks) ∧ out = acks.map fun p => (p.1, .msg p.2) := by
  obtain ⟨⟨t', acks⟩, hu, h⟩ := Option.map_eq_some_iff.mp h
  obtain ⟨rfl, rfl⟩ := Prod.mk.inj h
  exact ⟨acks, hu, rfl⟩

theorem handle_case (hext : s.extendingChain = false) (h : s.handle src m = some (t, out)) :
    HandleCase s src m t out := by
  have hidle {m : Mail P} (hm : s.takenUp src m = none) (h : some (s, []) = some (t, out)) :
      HandleCase s src m t out := by
    obtain ⟨rfl, rfl⟩ := Prod.mk.inj (Option.some.inj h)
    exact .idle hm (List.forall_mem_nil _)
  cases m with
  | ackNewPrevServer id n => exact hidle rfl h
  | msg msg =>
    cases msg with
    | request req =>
      obtain ⟨acks, hu, rfl⟩ := posted_eq h
      exact processReq_case hext hu
    | ack n id =>
      obtain ⟨acks, hu, rfl⟩ := posted_eq h
      obtain ⟨out, hout, hu⟩ := Option.bind_eq_some_iff.mp hu
      obtain ⟨rfl, rfl⟩ := Prod.mk.inj (Option.some.inj hu)
      obtain ⟨moved, sent, processed, hsplit, hupTo, heq, hlast⟩ := moveAcked_split n s.sent s none
      rw [heq] at hout ⊢
      refine .acked hsplit hupTo (passAck_acks hout fun r hr => ?_)
      exact (hlast r hr).resolve_right (by simp)
    | _ => exact hidle rfl h
  | notice notice =>
    cases notice with
    | toBeHead =>
      obtain ⟨rfl, rfl⟩ := Prod.mk.inj (Option.some.inj h)
      exact .head
    | toBeTail =>
      obtain ⟨acks, hu, rfl⟩ := posted_eq h
      obtain ⟨out, hout, hu⟩ := Option.bind_eq_some_iff.mp hu
      obtain ⟨rfl, rfl⟩ := Prod.mk.inj (Option.some.inj hu)
      obtain ⟨processed, heq⟩ := foldl_insertProcessedList_frame s.sent { s with isTail := true }
      rw [heq] at hout ⊢
      exact .tail (passAck_acks hout fun r hr => List.mem_of_getLast? hr)
    | newPrevServer p =>
      obtain ⟨rfl, rfl⟩ := Prod.mk.inj (Option.some.inj h)
      exact .prev
    | newSuccServer y n =>
      obtain ⟨rfl, rfl⟩ := Prod.mk.inj (Option.some.inj h)
      exact .succ
    | _ => exact hidle rfl h

/-- A request that is sent waits for its acknowledgement. -/
lemma HandleCase.mem_sent {y : P} (h : HandleCase s src m t out) (hsent : (y, .msg (.request r)) ∈ out) :
    r ∈ t.sent := by
  have hacks {reqs : List (Request P)} : ¬ s.Acks reqs (y, .msg (.request r)) := by
    rintro ⟨-, q, -, r', -, heq⟩
    simp at heq
  cases h with
  | idle none_taken queries =>
    obtain ⟨rep, heq, -⟩ := queries _ hsent
    simp at heq
  | pass taken next relay succ =>
    obtain ⟨-, heq⟩ := Prod.mk.inj (List.mem_singleton.mp hsent)
    obtain rfl := Msg.request.inj (Mail.msg.inj heq)
    exact List.mem_append_right _ (List.mem_singleton_self _)
  | complete taken next tail out_eq =>
    rcases out_eq _ hsent with h | ⟨c, rep, heq, -⟩
    · exact absurd h hacks
    · simp at heq
  | acked split upTo out_eq => exact absurd (out_eq _ hsent) hacks
  | head => cases hsent
  | tail out_eq => exact absurd (out_eq _ hsent) hacks
  | prev => simp at hsent
  | succ =>
    obtain ⟨r', hr', heq⟩ := List.mem_map.mp hsent
    obtain rfl := Msg.request.inj (Mail.msg.inj (Prod.mk.inj heq).2)
    exact (List.mem_filter.mp hr').1

/-! ### Exceptions -/

lemma headHandleRequest_isSome (hsucc : s.succ.isSome = true) (r : Request P) :
    (s.headHandleRequest r).isSome = true := by
  obtain ⟨y, hy⟩ := Option.isSome_iff_exists.mp hsucc
  obtain ⟨accounts, processed, applied, isNew, reply, heq, -⟩ := updateRequestReply_frame s r
  simp [headHandleRequest, passOn, heq, insertSentList, forwardRequest, hy]

lemma singleHandleRequest_isSome (hext : s.extendingChain = false) (hclient : r.client.isSome = true) :
    (s.singleHandleRequest r).isSome = true := by
  obtain ⟨c, hc⟩ := Option.isSome_iff_exists.mp hclient
  obtain ⟨accounts, processed, applied, isNew, reply, heq, -⟩ := complete_frame s hext r
  simp [singleHandleRequest, heq, replyToClient, hc]

lemma tailHandleRequest_isSome (hext : s.extendingChain = false) (hprev : s.prev.isSome = true)
    (hclient : r.client.isSome = true) : (s.tailHandleRequest r).isSome = true := by
  obtain ⟨c, hc⟩ := Option.isSome_iff_exists.mp hclient
  obtain ⟨q, hq⟩ := Option.isSome_iff_exists.mp hprev
  obtain ⟨accounts, processed, applied, isNew, reply, heq, -⟩ := complete_frame s hext r
  by_cases htype : r.type = .transferTo
  · simp [tailHandleRequest, heq, htype, sendAck, hq]
  · simp [tailHandleRequest, heq, htype, replyToClient, hc, sendAck, hq]

section

variable (hext : s.extendingChain = false) (hprev : s.isHead = false → s.prev.isSome = true)
  (hsucc : s.isTail = false → s.succ.isSome = true)
include hext hprev hsucc

/-- An update that skips no number is handled. -/
lemma processReq_isSome (htype : req.type ≠ .query)
    (hnext : s.isHead = true ∨ req.bankUpdateSeq ≤ s.bankUpdateSeq ∨
      req.bankUpdateSeq = s.bankUpdateSeq + 1 ∧ req.client.isSome = true) :
    (s.processReq req src).isSome = true := by
  rw [processReq]
  rw [if_neg htype]
  split_ifs with hrelay hsingle hold hskip
  · obtain ⟨-, hrelay⟩ : s.isHead = true ∧ s.isTail = false := by simpa using hrelay
    exact headHandleRequest_isSome (s := { s with bankUpdateSeq := s.bankUpdateSeq + 1 }) (hsucc hrelay) _
  · exact singleHandleRequest_isSome (s := { s with bankUpdateSeq := s.bankUpdateSeq + 1 }) hext
      (r := { req with bankUpdateSeq := s.bankUpdateSeq + 1, client := some src }) rfl
  · rfl
  · have hhead : s.isHead = false := by grind
    obtain ⟨-, hclient⟩ := (hnext.resolve_left (by simp [hhead])).resolve_left hold
    dsimp only
    split_ifs with htail
    · exact tailHandleRequest_isSome (s := { s with bankUpdateSeq := req.bankUpdateSeq }) hext
        (hprev hhead) hclient
    · exact headHandleRequest_isSome (s := { s with bankUpdateSeq := req.bankUpdateSeq })
        (hsucc (by simpa using htail)) _
  · have hhead : s.isHead = false := by grind
    obtain ⟨hnumber, -⟩ := (hnext.resolve_left (by simp [hhead])).resolve_left hold
    omega

/-- A server raises no exception when it handles a request that skips no number. -/
lemma handle_request_isSome (hquery : req.type = .query → s.isTail = true)
    (hnext : req.type ≠ .query → s.isHead = true ∨ req.bankUpdateSeq ≤ s.bankUpdateSeq ∨
      req.bankUpdateSeq = s.bankUpdateSeq + 1 ∧ req.client.isSome = true) :
    (s.handle src (.msg (.request req))).isSome = true := by
  rw [handle, posted, Option.isSome_map]
  by_cases htype : req.type = .query
  · rw [processReq, if_pos htype, if_pos (hquery htype)]
    rfl
  · exact processReq_isSome hext hprev hsucc htype (hnext htype)

omit hext hsucc in
/-- No other message makes a server raise an exception. -/
lemma handle_isSome (hm : ∀ req, m ≠ .msg (.request req)) : (s.handle src m).isSome = true := by
  have hpass (last : Option (Request P)) (u : Server P) (hu : u.prev = s.prev) (hhead : u.isHead = s.isHead) :
      (u.passAck last).isSome = true := by
    unfold passAck
    cases last with
    | none => rfl
    | some r =>
      dsimp only
      split_ifs with h
      · rfl
      · obtain ⟨q, hq⟩ := Option.isSome_iff_exists.mp (hprev (by simpa [hhead] using h))
        simp [sendAck, hu, hq]
  cases m with
  | ackNewPrevServer id n => rfl
  | msg msg =>
    cases msg with
    | request req => exact absurd rfl (hm req)
    | ack n id =>
      obtain ⟨moved, sent, processed, -, -, heq, -⟩ := moveAcked_split n s.sent s none
      obtain ⟨out, hout⟩ := Option.isSome_iff_exists.mp
        (hpass (moveAcked n s.sent s none).2 (moveAcked n s.sent s none).1 (by rw [heq]) (by rw [heq]))
      simp [handle, posted, Server.ack, hout]
    | _ => rfl
  | notice notice =>
    cases notice with
    | toBeTail =>
      obtain ⟨processed, heq⟩ := foldl_insertProcessedList_frame s.sent { s with isTail := true }
      obtain ⟨out, hout⟩ := Option.isSome_iff_exists.mp
        (hpass s.sent.getLast? { s.sent.foldl insertProcessedList { s with isTail := true } with sent := [] }
          (by rw [heq]) (by rw [heq]))
      simp [handle, posted, Server.toBeTail, hout]
    | _ => rfl

end

end Server

namespace Network

variable [DecidableEq P] {σ τ : Network P} {l : NetworkLabel P}

/-- The message is the request of a client that the step brings. -/
def FromClient (l : NetworkLabel P) (m : Mail P) : Prop :=
  ∃ client server req k, l = .client client server req k ∧ m = .msg (.request req) ∧ req.bankUpdateSeq = -1

omit [DecidableEq P] in
lemma FromClient.request (h : FromClient l m) : ∃ req, m = .msg (.request req) ∧ req.bankUpdateSeq = -1 := by
  obtain ⟨client, server, req, k, -, hm, hnumber⟩ := h
  exact ⟨req, hm, hnumber⟩

/-- What a step does. -/
inductive StepCase (σ : Network P) (l : NetworkLabel P) : Network P → Prop
  /-- A process ends, also with an exception. -/
  | halt {p : P} {link : Links P (Mail P)} (others : ∀ x y, y ≠ p → link x y = σ.link x y)
      (sub : ∀ x y m, m ∈ link x y → m ∈ σ.link x y) : StepCase σ l ({ σ with link := link }.kill p)
  /-- A server handles a message; one that ends then may not have sent everything. -/
  | serve {src dst : P} {m : Mail P} {s : Server P} {out out' : List (P × Mail P)} {link : Links P (Mail P)}
      {crashed : P → Bool}
      (server : dst ≠ σ.masterProc) (alive : σ.crashed dst = false)
      (origin : FromClient l m ∧ link = σ.link ∨
        (∃ rest, σ.link src dst = m :: rest) ∧ link = σ.link.recv src dst)
      (handle : (σ.server dst).handle src m = some (s, out)) (sends : out' <+: out)
      (ends : crashed = σ.crashed ∧ out' = out ∨ crashed = Function.update σ.crashed dst true) :
      StepCase σ l { σ with
        server := Function.update σ.server dst s
        log := Function.update σ.log dst (σ.log dst ++ ((σ.server dst).takenUp src m).toList)
        crashed := crashed
        link := link.send dst out' }
  /-- The master finds a crash. -/
  | detect {bankId : String} {node : P} {master : Master P} {out : List (P × Notice P)}
      (dead : σ.crashed node = true)
      (notify : σ.master.notifyCrash bankId node = some (master, out)) :
      StepCase σ l { σ with
        master := master
        link := σ.link.send σ.masterProc (out.map fun p => (p.1, .notice p.2)) }
  /-- The master handles a message. -/
  | order {src : P} {m : Mail P} {rest : List (Mail P)} {master : Master P} {out : List (P × Notice P)}
      (front : σ.link src σ.masterProc = m :: rest)
      (handle : σ.master.handle src m = some (master, out)) :
      StepCase σ l { σ with
        master := master
        link := (σ.link.recv src σ.masterProc).send σ.masterProc (out.map fun p => (p.1, .notice p.2)) }

/-- A message that a server handles. -/
lemma handle_cases {src dst : P} {m : Mail P} {link : Links P (Mail P)} (hserver : dst ≠ σ.masterProc)
    (halive : σ.crashed dst = false)
    (horigin : FromClient l m ∧ link = σ.link ∨
      (∃ rest, σ.link src dst = m :: rest) ∧ link = σ.link.recv src dst) :
    StepCase σ l ({ σ with link := link }.handle src dst m k) := by
  have hothers (x y : P) (hy : y ≠ dst) : link x y = σ.link x y := by
    rcases horigin with ⟨-, rfl⟩ | ⟨-, rfl⟩
    · rfl
    · exact Links.recv_of_ne _ _ _ fun h => hy h.2
  have hsub (x y : P) (m : Mail P) (hm : m ∈ link x y) : m ∈ σ.link x y := by
    rcases horigin with ⟨-, rfl⟩ | ⟨-, rfl⟩
    · exact hm
    · exact Links.mem_of_mem_recv _ _ _ hm
  rw [handle]
  dsimp only
  cases hhandle : (σ.server dst).handle src m with
  | none => exact .halt hothers hsub
  | some r =>
    obtain ⟨s, out⟩ := r
    cases k with
    | none => exact .serve hserver halive horigin hhandle (List.prefix_refl out) (Or.inl ⟨rfl, rfl⟩)
    | some n => exact .serve hserver halive horigin hhandle (List.take_prefix n out) (Or.inr rfl)

theorem step_cases (hs : σ.step l = some τ) : StepCase σ l τ := by
  cases l with
  | client client server req k =>
    simp only [step] at hs
    split_ifs at hs with hguard
    obtain rfl := Option.some.inj hs
    obtain ⟨hserver, halive, hnumber⟩ := hguard
    exact handle_cases hserver (by simpa using halive)
      (Or.inl ⟨⟨client, server, req, k, rfl, rfl, hnumber⟩, rfl⟩)
  | deliver src dst k =>
    simp only [step] at hs
    cases hlink : σ.link src dst with
    | nil =>
      rw [hlink] at hs
      cases hs
    | cons m rest =>
      rw [hlink] at hs
      dsimp only at hs
      split_ifs at hs with hcrashed hmaster
      · obtain rfl := Option.some.inj hs
        subst hmaster
        unfold handleMaster
        cases hhandle : σ.master.handle src m with
        | none =>
          refine .halt (fun x y hy => ?_) fun x y m hm => Links.mem_of_mem_recv _ _ _ hm
          exact Links.recv_of_ne _ _ _ fun h => hy h.2
        | some r => exact .order hlink hhandle
      · obtain rfl := Option.some.inj hs
        exact handle_cases hmaster (by simpa using hcrashed) (Or.inr ⟨⟨rest, hlink⟩, rfl⟩)
  | crash p =>
    obtain rfl := Option.some.inj hs
    exact .halt (fun _ _ _ => rfl) fun _ _ _ => id
  | detect bankId node =>
    simp only [step] at hs
    split_ifs at hs with hguard
    obtain rfl := Option.some.inj hs
    unfold handleMaster
    cases hnotify : σ.master.notifyCrash bankId node with
    | none => exact .halt (fun _ _ _ => rfl) fun _ _ _ => id
    | some r => exact .detect hguard.2.1 hnotify

end Network

end ChainReplication.DistAlgo
