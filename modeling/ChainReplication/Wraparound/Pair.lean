import ChainReplication.Server.Counters

/-!
# A head and a tail

The two servers of a chain while deposits go from one to the other, whatever numbers the head gives them.
-/

namespace ChainReplication

open ChainServer

/-- The head `s` at `x` has numbered `k` deposits and the tail `t` at `y` has applied `k'` of them, with their
counters at `c` and `c'`. The deposits `sent` are not acknowledged. -/
structure HeadAndTail (x y : Address) (s t : ChainServer) (c k c' k' : ℕ) (sent : List Request) : Prop where
  head : s.ishead = true ∧ s.istail = false
  tail : t.ishead = false ∧ t.istail = true
  succ : s.succServerAddr = y
  pre : t.preServerAddr = x
  extending : t.extendingChain = false
  numbered : s.bankUpdateSeq = c ∧ s.hist.length = k ∧ s.sentList = sent
  deposits : ∀ q ∈ s.hist, q.type = .deposit
  applied : t.bankUpdateSeq = c' ∧ t.hist.length = k' ∧ t.sentList = []

namespace HeadAndTail

variable {x y : Address} {s t : ChainServer} {c k c' k' : ℕ} {sent : List Request} {req r : Request}

/-- The head numbers a deposit and sends it on. -/
lemma number (h : HeadAndTail x y s t c k c' k' sent) (master : Address) (htype : req.type = .deposit) :
    ∃ s' r,
    s.handleMsg32 master (.request req) = { server := s', out := [.tcp y (.request r)] } ∧
    r.type = .deposit ∧ r.bankUpdateSeq = nextSeq c ∧
    HeadAndTail x y s' t (nextSeq c) (k + 1) c' k' (sent ++ [r]) := by
  obtain ⟨hseq, hhist, hsent⟩ := h.numbered
  obtain rfl := h.succ
  have hupdate : req.type ≠ .query := by simp [htype]
  obtain ⟨am, ham⟩ := updateRequestReply_eq { s with bankUpdateSeq := nextSeq s.bankUpdateSeq }
    { req with bankUpdateSeq := nextSeq s.bankUpdateSeq }
  have hbody := updateRequestReply_body { s with bankUpdateSeq := nextSeq s.bankUpdateSeq }
    { req with bankUpdateSeq := nextSeq s.bankUpdateSeq }
  have hhandle : s.handleMsg32 master (.request req) =
      relayUpdate { s with bankUpdateSeq := nextSeq s.bankUpdateSeq }
        { req with bankUpdateSeq := nextSeq s.bankUpdateSeq } := by
    rw [handleMsg32, receiveRequest32, if_neg hupdate, if_pos (by simp [h.head])]
    rfl
  generalize hr : (updateRequestReply { s with bankUpdateSeq := nextSeq s.bankUpdateSeq }
    { req with bankUpdateSeq := nextSeq s.bankUpdateSeq }).2 = r at hbody
  have hdeposit : r.type = .deposit := (congrArg Request.type hbody).trans htype
  have hnumber : r.bankUpdateSeq = nextSeq c := by
    rw [← hseq]
    exact congrArg Request.bankUpdateSeq hbody
  rw [hhandle, relayUpdate, ham, hr]
  refine ⟨_, r, rfl, hdeposit, hnumber, h.head, h.tail, h.succ, h.pre, h.extending, ?_, ?_,
    h.applied⟩
  · simp [insertSentList, writeLogReply, hseq, hhist, hsent]
  · intro q hq
    rcases List.mem_append.mp hq with hq | hq
    · exact h.deposits q hq
    · rw [List.mem_singleton.mp hq, hdeposit]

/-- The tail applies a deposit that has the number it expects, and acknowledges it. -/
lemma apply (h : HeadAndTail x y s t c k c' k' sent) (master : Address) (htype : r.type = .deposit)
    (hr : r.bankUpdateSeq = c' + 1) : ∃ t' u,
      t.handleMsg32 master (.request r) =
        { server := t', out := [.replyToClient u, .tcp x (.acknowledge ⟨r.bankUpdateSeq⟩)] } ∧
      u.type = .deposit ∧ HeadAndTail x y s t' c k (c' + 1) (k' + 1) sent := by
  obtain ⟨hseq, hhist, hsent⟩ := h.applied
  obtain rfl := h.pre
  have hupdate : r.type ≠ .query := by simp [htype]
  obtain ⟨am, ham⟩ := updateRequestReply_eq { t with bankUpdateSeq := r.bankUpdateSeq } r
  have hbody := updateRequestReply_body { t with bankUpdateSeq := r.bankUpdateSeq } r
  have hhandle : t.handleMsg32 master (.request r) =
      tailHandleUpdate { t with bankUpdateSeq := r.bankUpdateSeq } r := by
    rw [handleMsg32, receiveRequest32, if_neg hupdate, if_neg (by simp [h.tail]),
      if_neg (by simp [h.tail]), if_neg (by omega), if_neg (by omega)]
    exact if_pos h.tail.2
  generalize hu : (updateRequestReply { t with bankUpdateSeq := r.bankUpdateSeq } r).2 = u at hbody
  have hdeposit : u.type = .deposit := (congrArg Request.type hbody).trans htype
  have htransfer : u.type ≠ .transfer := by simp [hdeposit]
  generalize hw : writeLogReply { t with bankUpdateSeq := r.bankUpdateSeq, accountMap := am } u = w
  obtain ⟨pm, hpm⟩ := remember_eq w u
  have hstore : w.storeUpdate u = { w with processedMap := pm } := by
    rw [storeUpdate_eq w u (by rw [← hw]; exact h.extending), hpm]
  have hempty : w.sentList = [] := by
    rw [← hw]
    exact hsent
  rw [hhandle, tailHandleUpdate, answerUpdate, ham, hu, if_neg htransfer, hw, hstore]
  simp only [Effect.andThen, if_true, hempty, List.isEmpty_nil, sendbackAck]
  subst hw
  refine ⟨_, u, rfl, hdeposit, h.head, h.tail, h.succ, h.pre, h.extending, h.numbered,
    h.deposits, hr, ?_, rfl⟩
  simp [writeLogReply, hhist]

/-- The tail ignores a deposit whose number it has passed. -/
lemma ignore (h : HeadAndTail x y s t c k c' k' sent) (master : Address) (htype : r.type = .deposit)
    (hr : r.bankUpdateSeq ≤ c') : t.handleMsg32 master (.request r) = { server := t } := by
  have hupdate : r.type ≠ .query := by simp [htype]
  have hle : r.bankUpdateSeq ≤ t.bankUpdateSeq := h.applied.1 ▸ hr
  rw [handleMsg32, receiveRequest32, if_neg hupdate, if_neg (by simp [h.tail]), if_neg (by simp [h.tail]),
    if_pos hle]

/-- The head forgets a deposit that is acknowledged. -/
lemma forget {a : Acknowledge} (h : HeadAndTail x y s t c k c' k' [r]) (master : Address)
    (hr : r.bankUpdateSeq ≤ a.bankUpdateSeq) : ∃ s',
      s.handleMsg32 master (.acknowledge a) = { server := s' } ∧ HeadAndTail x y s' t c k c' k' [] := by
  obtain ⟨hseq, hhist, hsent⟩ := h.numbered
  obtain ⟨pm, hpm⟩ := insertAllProcessed_eq s [r]
  have htake : s.sentList.takeWhile (·.bankUpdateSeq ≤ a.bankUpdateSeq) = [r] := by simp [hsent, hr]
  have hdrop : s.sentList.dropWhile (·.bankUpdateSeq ≤ a.bankUpdateSeq) = [] := by simp [hsent, hr]
  simp only [handleMsg32, handleMsg, receiveAck, htake, hdrop, hpm, h.head.1, if_true]
  exact ⟨_, rfl, ⟨h.head.1.symm ▸ rfl, h.head.2⟩, h.tail, h.succ, h.pre, h.extending, ⟨hseq, hhist, rfl⟩,
    h.deposits, h.applied⟩

end HeadAndTail

namespace ChainServer

variable {s : ChainServer} {req : Request}

/-- A server that is head and tail answers every deposit. -/
lemma receiveRequest32_single (hhead : s.ishead = true) (htail : s.istail = true)
    (hext : s.extendingChain = false) (htype : req.type = .deposit) : ∃ s' u,
      s.receiveRequest32 req = { server := s', out := [.replyToClient u] } ∧
      s'.ishead = true ∧ s'.istail = true ∧ s'.extendingChain = false := by
  have hupdate : req.type ≠ .query := by simp [htype]
  obtain ⟨am, ham⟩ := updateRequestReply_eq { s with bankUpdateSeq := nextSeq s.bankUpdateSeq }
    { req with bankUpdateSeq := nextSeq s.bankUpdateSeq }
  have hbody := updateRequestReply_body { s with bankUpdateSeq := nextSeq s.bankUpdateSeq }
    { req with bankUpdateSeq := nextSeq s.bankUpdateSeq }
  have hhandle : s.receiveRequest32 req =
      answerUpdate { s with bankUpdateSeq := nextSeq s.bankUpdateSeq }
        { req with bankUpdateSeq := nextSeq s.bankUpdateSeq } := by
    rw [receiveRequest32, if_neg hupdate, if_neg (by simp [htail]), if_pos (by simp [hhead, htail])]
    rfl
  generalize hu : (updateRequestReply { s with bankUpdateSeq := nextSeq s.bankUpdateSeq }
    { req with bankUpdateSeq := nextSeq s.bankUpdateSeq }).2 = u at hbody
  have htransfer : u.type ≠ .transfer := by
    have hdeposit : u.type = .deposit := (congrArg Request.type hbody).trans htype
    simp [hdeposit]
  generalize hw : writeLogReply
    { s with bankUpdateSeq := nextSeq s.bankUpdateSeq, accountMap := am } u = w
  obtain ⟨pm, hpm⟩ := remember_eq w u
  have hstore : w.storeUpdate u = { w with processedMap := pm } := by
    rw [storeUpdate_eq w u (by rw [← hw]; exact hext), hpm]
  rw [hhandle, answerUpdate, ham, hu, if_neg htransfer, hw, hstore]
  subst hw
  exact ⟨_, u, rfl, hhead, htail, hext⟩

lemma receiveRequests32_single (hhead : s.ishead = true) (htail : s.istail = true)
    (hext : s.extendingChain = false) {reqs : List Request} (h : ∀ q ∈ reqs, q.type = .deposit) :
    (s.receiveRequests32 reqs).replies.length = reqs.length := by
  suffices hall : (s.receiveRequests32 reqs).ok = true ∧
      (s.receiveRequests32 reqs).replies.length = reqs.length ∧
      (s.receiveRequests32 reqs).server.ishead = true ∧ (s.receiveRequests32 reqs).server.istail = true ∧
      (s.receiveRequests32 reqs).server.extendingChain = false from hall.2.1
  induction reqs using List.reverseRecOn with
  | nil => exact ⟨rfl, rfl, hhead, htail, hext⟩
  | append_singleton l q ih =>
    obtain ⟨hok, hlength, hhead', htail', hext'⟩ := ih fun q hq => h q (List.mem_append_left _ hq)
    obtain ⟨s', u, heffect, hrest⟩ :=
      receiveRequest32_single hhead' htail' hext' (h q (List.mem_append_right _ (List.mem_singleton_self q)))
    have hone : ({ server := s', out := [.replyToClient u] } : Effect).replies = [u] := rfl
    rw [receiveRequests32_concat, replies_andThen hok, heffect, hone, List.length_append, hlength,
      List.length_append, Effect.andThen, if_pos hok, heffect]
    exact ⟨rfl, rfl, hrest⟩

end ChainServer

end ChainReplication
