import ChainReplication.Server.Dedup
import ChainReplication.Library.Assoc
import ChainReplication.Library.SeqStream

/-!
# The joining server

What `receive_extend_msg` makes of a whole stream: the snapshot copies the tail's two tables,
whatever order they come in, and each request of the `SENT` block is handled as an update.
-/

namespace ChainReplication

namespace ChainServer

variable {s t : ChainServer} {master : Address} {req : Request} {m : ExtendMsg}
  {ms ms' : List ExtendMsg}

/-- The joining server handles a stream, until an assertion fails. -/
def receiveExtendMsgs (s : ChainServer) (master : Address) : List ExtendMsg → Effect
  | [] => { server := s }
  | m :: ms => (s.receiveExtendMsg master m).andThen (·.receiveExtendMsgs master ms)

/-! ### Streams -/

lemma receiveExtendMsgs_append : s.receiveExtendMsgs master (ms ++ ms') =
    (s.receiveExtendMsgs master ms).andThen (·.receiveExtendMsgs master ms') := by
  induction ms generalizing s with
  | nil => simp [receiveExtendMsgs, Effect.andThen]
  | cons m ms ih =>
    simp only [List.cons_append, receiveExtendMsgs, Effect.andThen, ih]
    by_cases hm : (s.receiveExtendMsg master m).ok = true
    · simp only [hm, if_true]
      split_ifs <;> simp
    · simp [hm]

/-- A stream that is handled to its end leaves the state that its parts leave one after another. -/
lemma receiveExtendMsgs_append_of_ok (h : (s.receiveExtendMsgs master ms).ok = true)
    (ms' : List ExtendMsg) :
    (s.receiveExtendMsgs master (ms ++ ms')).server =
        ((s.receiveExtendMsgs master ms).server.receiveExtendMsgs master ms').server ∧
      (s.receiveExtendMsgs master (ms ++ ms')).ok =
        ((s.receiveExtendMsgs master ms).server.receiveExtendMsgs master ms').ok := by
  rw [receiveExtendMsgs_append, Effect.andThen, if_pos h]
  exact ⟨rfl, rfl⟩

lemma receiveExtendMsgs_cons {s' : ChainServer} (h : s.receiveExtendMsg master m = { server := s' }) :
    s.receiveExtendMsgs master (m :: ms) = s'.receiveExtendMsgs master ms := by
  simp [receiveExtendMsgs, h, Effect.andThen]

lemma receiveExtendMsgs_append_of_eq {s' : ChainServer}
    (h : s.receiveExtendMsgs master ms = { server := s' }) :
    s.receiveExtendMsgs master (ms ++ ms') = s'.receiveExtendMsgs master ms' := by
  simp [receiveExtendMsgs_append, h, Effect.andThen]

/-- No assertion fails in a part of a stream in which none fails. -/
lemma ok_of_isPrefix (hms : ms <+: ms') (h : (s.receiveExtendMsgs master ms').ok = true) :
    (s.receiveExtendMsgs master ms).ok = true := by
  obtain ⟨rest, rfl⟩ := hms
  rw [receiveExtendMsgs_append, Effect.andThen] at h
  by_contra hnot
  rw [if_neg hnot] at h
  exact hnot h

/-! ### One message -/

/-- The decision on a request does not look at the counter. -/
lemma updateRequestReply_seq (s : ChainServer) (n : ℕ) (req : Request) :
    (updateRequestReply { s with bankUpdateSeq := n } req).2 = (s.updateRequestReply req).2 ∧
      (updateRequestReply { s with bankUpdateSeq := n } req).1 =
        { (s.updateRequestReply req).1 with bankUpdateSeq := n } := by
  have hsame : precedent { s with bankUpdateSeq := n } req = s.precedent req := rfl
  have hbalance : balance { s with bankUpdateSeq := n } req.accountId = s.balance req.accountId := rfl
  cases h : s.precedent req with
  | some it =>
    rw [updateRequestReply_of_precedent h, updateRequestReply_of_precedent (hsame.trans h)]
    exact ⟨rfl, rfl⟩
  | none =>
    obtain ⟨hanswer, hserver⟩ := updateRequestReply_of_none h
    obtain ⟨hanswer', hserver'⟩ := updateRequestReply_of_none (hsame.trans h)
    rw [hanswer, hserver, hanswer', hserver', hbalance]
    refine ⟨rfl, ?_⟩
    split_ifs
    · simp only [getOrCreateAccount]
      split <;> rfl
    · rfl

/-- The counter after a request that carries a number. -/
lemma max_bankUpdateSeq (s : ChainServer) (req : Request) :
    (if req.bankUpdateSeq > s.bankUpdateSeq then { s with bankUpdateSeq := req.bankUpdateSeq }
      else s) = { s with bankUpdateSeq := max s.bankUpdateSeq req.bankUpdateSeq } := by
  split_ifs with hlt
  · rw [max_eq_right hlt.le]
  · rw [max_eq_left (not_lt.mp hlt)]

lemma receiveExtendMsg_history (s : ChainServer) (master : Address) (req : Request) :
    s.receiveExtendMsg master (.history req) = { server :=
      { s.insertProcessedList req with bankUpdateSeq := max s.bankUpdateSeq req.bankUpdateSeq } } := by
  simp only [receiveExtendMsg, max_bankUpdateSeq, insertProcessedList]
  split_ifs <;> rfl

/-- A request of the `SENT` block is handled as an update, without a number of its own. -/
lemma receiveExtendMsg_sent (s : ChainServer) (master : Address) (req : Request) :
    s.receiveExtendMsg master (.sent req) = { server :=
      { s with
        accountMap := (s.updateRequestReply req).1.accountMap
        processedMap := (s.remember (s.updateRequestReply req).2).processedMap
        hist := s.hist ++ [(s.updateRequestReply req).2]
        bankUpdateSeq := max s.bankUpdateSeq req.bankUpdateSeq } } := by
  obtain ⟨hanswer, hserver⟩ := updateRequestReply_seq s (max s.bankUpdateSeq req.bankUpdateSeq) req
  obtain ⟨am, ham⟩ := updateRequestReply_eq s req
  simp only [receiveExtendMsg, max_bankUpdateSeq, hanswer, hserver, ham, writeLogReply, remember,
    insertProcessedList]
  split_ifs <;> rfl

/-- Nothing that a joining server receives goes to its `sent_list_`. -/
lemma receiveExtendMsg_sentList : (s.receiveExtendMsg master m).server.sentList = s.sentList := by
  cases m with
  | account a b =>
    simp only [receiveExtendMsg, createAccount]
    split_ifs <;> rfl
  | history req =>
    obtain ⟨p, hp⟩ := insertProcessedList_eq s req
    rw [receiveExtendMsg_history, hp]
  | sent req => rw [receiveExtendMsg_sent]
  | _ => rfl

lemma receiveExtendMsgs_sentList :
    (s.receiveExtendMsgs master ms).server.sentList = s.sentList := by
  induction ms generalizing s with
  | nil => rfl
  | cons m ms ih =>
    rw [receiveExtendMsgs, Effect.andThen]
    split_ifs
    · exact ih.trans receiveExtendMsg_sentList
    · exact receiveExtendMsg_sentList

/-! ### The snapshot -/

lemma receiveExtendMsgs_account {l : List (String × ℚ)} (hl : (l.map Prod.fst).Nodup)
    (hnew : ∀ a ∈ l, a.1 ∉ s.accountMap) :
    s.receiveExtendMsgs master (l.map fun a => .account a.1 a.2) = { server := { s with
      accountMap := l.foldl (fun t a => t.insert a.1 a.2) s.accountMap } } := by
  induction l generalizing s with
  | nil => rfl
  | cons a l ih =>
    obtain ⟨ha, hl⟩ := List.nodup_cons.mp hl
    have hcreate : s.createAccount a.1 a.2 =
        some { s with accountMap := s.accountMap.insert a.1 a.2 } :=
      if_neg (hnew a List.mem_cons_self)
    have hrest : ∀ c ∈ l, c.1 ∉ ({ s with accountMap := s.accountMap.insert a.1 a.2 } :
        ChainServer).accountMap := by
      intro c hc
      rw [AList.mem_insert, not_or]
      refine ⟨?_, hnew c (List.mem_cons_of_mem _ hc)⟩
      intro heq
      exact ha (heq ▸ List.mem_map_of_mem hc)
    have haccount : s.receiveExtendMsg master (.account a.1 a.2) =
        { server := { s with accountMap := s.accountMap.insert a.1 a.2 } } := by
      simp only [receiveExtendMsg, hcreate]
    rw [List.map_cons, receiveExtendMsgs_cons haccount, ih hl hrest, List.foldl_cons]

/-- The `HISTORY` messages add the requests whose keys are new and raise the counter. -/
lemma receiveExtendMsgs_history (s : ChainServer) (master : Address) (l : List Request) :
    ∃ p n, s.receiveExtendMsgs master (l.map .history) =
        { server := { s with processedMap := p, bankUpdateSeq := n } } ∧
      (∀ k, p.lookup k = (s.processedMap.lookup k).or (l.find? fun it => it.key = k)) ∧
      n = SeqStream.reach s.bankUpdateSeq (l.map (·.bankUpdateSeq)) := by
  induction l generalizing s with
  | nil => exact ⟨s.processedMap, s.bankUpdateSeq, rfl, by simp, rfl⟩
  | cons q l ih =>
    obtain ⟨p, hp⟩ := insertProcessedList_eq s q
    obtain ⟨p', n, heq, hlookup, hn⟩ :=
      ih { s with processedMap := p, bankUpdateSeq := max s.bankUpdateSeq q.bankUpdateSeq }
    refine ⟨p', n, ?_, ?_, ?_⟩
    · rw [List.map_cons, receiveExtendMsgs_cons (receiveExtendMsg_history s master q), hp, heq]
    · intro k
      have hinsert := @lookup_insertProcessedList s q k
      rw [hp] at hinsert
      rw [hlookup, hinsert, Option.or_assoc, List.find?_cons]
      congr 1
      by_cases hk : q.key = k <;> simp [hk]
    · rw [hn]
      rfl

/-- After the snapshot of `t` the joining server has the tables of `t`, and its counter is the
largest number in `processed_map_`. -/
theorem receiveExtendMsgs_snapshot {accounts : List (String × ℚ)} {processed : List Request}
    (haccounts : accounts.Perm t.accounts) (hprocessed : processed.Perm t.processed)
    (hkeys : ∀ k it, t.processedMap.lookup k = some it → it.key = k) (s : ChainServer)
    (master : Address) : ∃ am pm n,
      s.receiveExtendMsgs master (t.snapshotMsgs accounts processed) = { server := { s with
        accountMap := am, processedMap := pm, bankUpdateSeq := n, preServerAddr := t.localAddr } } ∧
      (∀ a, am.lookup a = t.accountMap.lookup a) ∧
      (∀ k, pm.lookup k = t.processedMap.lookup k) ∧
      n = SeqStream.reach 0 (processed.map (·.bankUpdateSeq)) := by
  have hnodup : (accounts.map Prod.fst).Nodup := by
    have hperm := haccounts.map Prod.fst
    rw [ChainServer.accounts, List.map_map] at hperm
    exact hperm.nodup_iff.mpr t.accountMap.keys_nodup
  let w : ChainServer := { s with
    processedMap := ∅, accountMap := ∅, bankUpdateSeq := 0, preServerAddr := t.localAddr }
  have haccount := @receiveExtendMsgs_account w master _ hnodup
    fun a _ => AList.notMem_empty a.1
  obtain ⟨pm, n, hhistory, hlookup, hn⟩ := receiveExtendMsgs_history
    { w with accountMap := accounts.foldl (fun t a => t.insert a.1 a.2) w.accountMap } master processed
  refine ⟨_, pm, n, ?_, AList.lookup_foldl_insert_of_perm haccounts, ?_, hn⟩
  · have hstart : s.receiveExtendMsg master (.start t.localAddr) = { server := w } := rfl
    rw [snapshotMsgs, List.cons_append, receiveExtendMsgs_cons hstart,
      receiveExtendMsgs_append_of_eq haccount, hhistory]
  · intro k
    rw [hlookup, AList.lookup_empty, Option.none_or]
    exact AList.find?_eq_lookup_of_perm hprocessed hkeys k

end ChainServer

end ChainReplication
