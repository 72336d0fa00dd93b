import ChainReplication.Server.Single

/-!
# Counters of 32 bits

`bank_update_seq_` and the numbers in messages are unsigned integers of 32 bits. A server only counts where
it numbers an update as the head, and there the increment may wrap. Until it does, the width makes no
difference.
-/

namespace ChainReplication

/-- `bank_update_seq_++`. -/
def nextSeq (seq : ℕ) : ℕ := (seq + 1) % 2 ^ 32

/-- `bank_update_seq() - 1`. -/
def prevSeq (seq : ℕ) : ℕ := (seq + (2 ^ 32 - 1)) % 2 ^ 32

variable {n : ℕ}

lemma nextSeq_of_lt (h : n + 1 < 2 ^ 32) : nextSeq n = n + 1 := Nat.mod_eq_of_lt h

lemma prevSeq_succ (h : n < 2 ^ 32) : prevSeq (n + 1) = n := by
  rw [prevSeq]
  omega

lemma prevSeq_nextSeq (h : n < 2 ^ 32) : prevSeq (nextSeq n) = n := by
  rw [prevSeq, nextSeq]
  omega

namespace ChainServer

/-- `receive_request` with a counter of 32 bits. -/
def receiveRequest32 (s : ChainServer) (req : Request) : Effect :=
  if req.type = .query then
    if s.istail then s.handleQuery req else s.abort
  else if s.ishead && !s.istail then
    let s := { s with bankUpdateSeq := nextSeq s.bankUpdateSeq }
    s.headHandleUpdate { req with bankUpdateSeq := s.bankUpdateSeq }
  else if s.ishead && s.istail then
    let s := { s with bankUpdateSeq := nextSeq s.bankUpdateSeq }
    s.singleHandleUpdate { req with bankUpdateSeq := s.bankUpdateSeq }
  else if s.bankUpdateSeq ≥ req.bankUpdateSeq then { server := s }
  -- the number is positive here, so the subtraction does not wrap
  else if s.bankUpdateSeq ≠ req.bankUpdateSeq - 1 then s.abort
  else
    let s := { s with bankUpdateSeq := req.bankUpdateSeq }
    if s.istail then s.tailHandleUpdate req else s.internalHandleUpdate req

/-- `handle_msg`. The other handlers only copy and compare numbers. -/
def handleMsg32 (s : ChainServer) (master : Address) : Message → Effect
  | .request req => s.receiveRequest32 req
  | msg => s.handleMsg master msg

/-- Handle requests one after the other. -/
def receiveRequests32 (s : ChainServer) (reqs : List Request) : Effect :=
  reqs.foldl (fun e req => e.andThen (·.receiveRequest32 req)) { server := s }

variable {s : ChainServer} {req : Request} {msg : Message}

/-- As long as the head's counter does not wrap, the width does not matter. -/
lemma receiveRequest32_eq (h : req.type ≠ .query → s.ishead = true → s.bankUpdateSeq + 1 < 2 ^ 32) :
    s.receiveRequest32 req = s.receiveRequest req := by
  unfold receiveRequest32 receiveRequest
  by_cases htype : req.type = .query
  · rw [if_pos htype, if_pos htype]
  rw [if_neg htype, if_neg htype]
  by_cases hhead : s.ishead = true
  · simp only [nextSeq_of_lt (h htype hhead)]
  · simp only [hhead, Bool.false_and, Bool.false_eq_true, if_false]

lemma handleMsg32_eq (master : Address) (h : ∀ req ∈ msg.request?, req.type ≠ .query → s.ishead = true →
    s.bankUpdateSeq + 1 < 2 ^ 32) : s.handleMsg32 master msg = s.handleMsg master msg := by
  cases msg with
  | request req => exact receiveRequest32_eq (h req rfl)
  | _ => rfl

/-- An update moves the counter by one at most, and a query leaves it. -/
lemma receiveRequest_count (hext : s.extendingChain = false) (req : Request) :
    (s.receiveRequest req).server.extendingChain = false ∧
      (s.receiveRequest req).server.bankUpdateSeq ≤
        s.bankUpdateSeq + ([req].filter (·.type ≠ .query)).length := by
  have hrole : RoleStep s (.request req) (s.handleMsg .empty (.request req)).server :=
    handleMsg_roleStep hext rfl
  refine ⟨hrole.extendingChain.trans hext, ?_⟩
  have hstep := @receiveRequest_logStep s req hext
  generalize s.receiveRequest req = e at hstep
  cases hstep with
  | keep _ seq =>
    rw [seq]
    exact Nat.le_add_right _ _
  | relay type _ _ _ seq => simp [seq, type]
  | answer type _ _ _ seq => simp [seq, type]

lemma receiveRequests_count (hext : s.extendingChain = false) (reqs : List Request) :
    (s.receiveRequests reqs).server.extendingChain = false ∧
      (s.receiveRequests reqs).server.bankUpdateSeq ≤
        s.bankUpdateSeq + (reqs.filter (·.type ≠ .query)).length := by
  induction reqs using List.reverseRecOn with
  | nil => exact ⟨hext, le_rfl⟩
  | append_singleton l req ih =>
    obtain ⟨hext', hcount⟩ := ih
    obtain ⟨hext'', hnext⟩ := receiveRequest_count hext' req
    rw [receiveRequests_append, Effect.andThen, List.filter_append, List.length_append]
    split_ifs
    · simp only [receiveRequests_singleton]
      exact ⟨hext'', by omega⟩
    · exact ⟨hext', by omega⟩

lemma receiveRequests32_concat (reqs : List Request) (req : Request) : s.receiveRequests32 (reqs ++ [req]) =
    (s.receiveRequests32 reqs).andThen (·.receiveRequest32 req) := by
  rw [receiveRequests32, List.foldl_append]
  rfl

/-- As long as there are numbers for all updates, the width does not matter. -/
lemma receiveRequests32_eq (hext : s.extendingChain = false) {reqs : List Request}
    (h : s.bankUpdateSeq + (reqs.filter (·.type ≠ .query)).length < 2 ^ 32) :
    s.receiveRequests32 reqs = s.receiveRequests reqs := by
  induction reqs using List.reverseRecOn with
  | nil => rfl
  | append_singleton l req ih =>
    rw [List.filter_append, List.length_append] at h
    have hcount := (receiveRequests_count hext l).2
    have hreq : (s.receiveRequests l).server.receiveRequest32 req =
        (s.receiveRequests l).server.receiveRequest req := by
      apply receiveRequest32_eq
      intro htype _
      have hone : ([req].filter (·.type ≠ .query)).length = 1 := by simp [htype]
      omega
    rw [receiveRequests32_concat, ih (by omega), receiveRequests_append, Effect.andThen, Effect.andThen,
      hreq, receiveRequests_singleton]

end ChainServer

end ChainReplication
