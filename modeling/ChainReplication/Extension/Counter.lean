import ChainReplication.Extension.Handoff
import ChainReplication.System.Counters
import ChainReplication.System.Inputs
import ChainReplication.System.Config

/-!
# The counter of a joining server

A handoff does not send `bank_update_seq_`. The joining server takes the largest number among the
requests it is sent, so it misses the numbers of the requests that the tail does not hand over: the
repetitions from before the extension.
-/

namespace ChainReplication

namespace ChainServer

variable {s s' : ChainServer} {req : Request} {msg : Message} {e : Effect} {ok : HandoffLabel → Prop}

/-! ### Which requests a server stores -/

/-- The two stores together hold the first request of the history under each key. -/
structure Indexes (s : ChainServer) : Prop where
  plain : ∀ q ∈ s.hist, q.type ≠ .transfer
  settled : s.istail = true → s.sentList = []
  first : ∀ k, (s.processedMap.lookup k).or (s.sentList.find? fun it => it.key = k) =
    s.hist.find? fun it => it.key = k

/-- A tail with an empty `sent_list_` stores the requests whose keys are new. -/
lemma lookup_remember_answered (hsent : s.sentList = []) (k : String) :
    (s.remember (s.answered req)).processedMap.lookup k =
      (s.processedMap.lookup k).or (if req.key = k then some (s.answered req) else none) := by
  rw [remember]
  by_cases hnew : (s.answered req).checkResult = .newreq
  · rw [if_pos hnew, lookup_insertProcessedList, answered_key]
  · rw [if_neg hnew]
    split_ifs with hk
    · have hprecedent : s.precedent req ≠ none := fun hnone => hnew (answered_newreq.mpr hnone)
      obtain ⟨it, hit⟩ := Option.ne_none_iff_exists'.mp hprecedent
      have hmem := mem_accounts_of_precedent hit
      rw [precedent, if_pos hmem, hsent, List.find?_nil, Option.or_none] at hit
      rw [← hk, hit]
      rfl
    · rw [Option.or_none]

theorem Indexes.step (h : Indexes s) (hlog : s.LogWf) (hstep : LogStep s msg e)
    (hrole : RoleStep s msg e.server)
    (hreq : ∀ req, msg = .request req → req.type ≠ .query → req.type ≠ .transfer)
    (hreply : ∀ rep, msg = .reply rep → s.istail = true) : Indexes e.server := by
  have plain {req : Request} (hmsg : msg = .request req) (htype : req.type ≠ .query) :
      ∀ q ∈ s.hist ++ [s.answered req], q.type ≠ .transfer := by
    intro q hq
    refine mem_append_answered (P := fun q => q.type ≠ .transfer) h.plain ?_ hq
    rw [answered_type]
    exact hreq req hmsg htype
  have moved {l l' : List Request} (hl : s.sentList = l ++ l') (k : String) :
      ((s.insertAllProcessed l).processedMap.lookup k).or (l'.find? fun it => it.key = k) =
        s.hist.find? fun it => it.key = k := by
    rw [← h.first k, lookup_insertAllProcessed, hl, List.find?_append, Option.or_assoc]
  cases hstep with
  | keep hist seq sent out ignored other accounts processed =>
    refine ⟨by rw [hist]; exact h.plain, ?_, ?_⟩
    · intro htail
      rw [sent]
      exact h.settled ((hrole.tail.mp htail).resolve_right other.1)
    · rw [hist, sent, processed]
      exact h.first
  | @relay req _ type tail next hist seq sent out accounts processed =>
    refine ⟨by rw [hist]; exact plain rfl type, ?_, ?_⟩
    · intro htail
      rw [hrole.tail, tail] at htail
      simp at htail
    · intro k
      rw [hist, sent, processed, List.find?_append, List.find?_append, ← Option.or_assoc, h.first]
  | @answer req _ type tail next hist seq sent out accounts processed =>
    have hempty := h.settled tail
    have hsent : e.server.sentList = [] := by
      rw [sent, hempty, Request.toForward, if_neg]
      · rfl
      · rw [answered_type]
        exact fun htransfer => hreq req rfl type htransfer.1
    refine ⟨by rw [hist]; exact plain rfl type, fun _ => hsent, ?_⟩
    intro k
    have hfirst := h.first k
    rw [hempty, List.find?_nil, Option.or_none] at hfirst
    rw [hist, hsent, processed, lookup_remember_answered hempty, hfirst, List.find?_nil,
      Option.or_none, List.find?_append, List.find?_singleton, answered_key]
    simp only [decide_eq_true_eq]
  | ack hist seq sent out accounts processed =>
    refine ⟨by rw [hist]; exact h.plain, ?_, ?_⟩
    · intro htail
      rw [sent, h.settled ((hrole.tail.mp htail).resolve_right (by simp))]
      rfl
    · rw [hist, sent, processed]
      exact moved List.takeWhile_append_dropWhile.symm
  | toBeTail hist seq sent out accounts processed =>
    have hall : s.sentList.filter (·.type ≠ .transfer) = s.sentList := by
      rw [List.filter_eq_self]
      intro t ht
      simpa using h.plain t (hlog.mem_hist ht)
    have hsent : e.server.sentList = [] := by
      rw [sent, List.filter_eq_nil_iff]
      intro t ht
      simpa using h.plain t (hlog.mem_hist ht)
    refine ⟨by rw [hist]; exact h.plain, fun _ => hsent, ?_⟩
    rw [hist, hsent, processed, hall]
    exact moved (List.append_nil _).symm
  | @reply rep _ hist seq sent out accounts processed =>
    have hempty := h.settled (hreply rep rfl)
    have hsent : e.server.sentList = s.sentList := by
      rw [sent, hempty]
      rfl
    refine ⟨by rw [hist]; exact h.plain, fun _ => hsent.trans hempty, ?_⟩
    rw [hist, hsent, processed]
    exact h.first
  | resend hist seq sent succ out accounts processed =>
    refine ⟨by rw [hist]; exact h.plain, ?_, ?_⟩
    · intro htail
      rw [sent]
      exact h.settled ((hrole.tail.mp htail).resolve_right (by simp))
    · rw [hist, sent, processed]
      exact h.first

lemma indexes_invariant : ServerInvariant (fun req => req.type ≠ .transfer) Indexes where
  init s haccounts hprocessed hsent hhist := by
    refine ⟨?_, fun _ => hsent, ?_⟩
    · simp [hhist]
    · simp [hhist, hsent, hprocessed]
  hist _ h := h.plain
  settled _ h := h.settled
  step _ _ _ h hlog hstep hrole hreq hreply := h.step hlog hstep hrole hreq hreply

/-! ### The tail during the extension -/

/-- The requests of a handoff are queries and updates that are no transfers. -/
def PlainStep : HandoffLabel → Prop
  | .request req => req.type ≠ .transfer
  | .reply _ => False
  | _ => True

instance : DecidablePred PlainStep := fun l =>
  match l with
  | .request req => inferInstanceAs (Decidable (req.type ≠ .transfer))
  | .reply _ => inferInstanceAs (Decidable False)
  | .snapshot .. => inferInstanceAs (Decidable True)
  | .finish => inferInstanceAs (Decidable True)

/-- The server has handled the requests `l` since, all of which are in its `sent_list_`. -/
structure Extended (s s' : ChainServer) (l : List Request) : Prop where
  hist : s'.hist = s.hist ++ l
  sent : s'.sentList = s.sentList ++ l
  processed : l = [] → s'.processedMap = s.processedMap

lemma Extended.refl (s : ChainServer) : Extended s s [] :=
  ⟨(List.append_nil _).symm, (List.append_nil _).symm, fun _ => rfl⟩

lemma Extended.trans {u : ChainServer} {l l' : List Request} (h : Extended s s' l)
    (h' : Extended s' u l') : Extended s u (l ++ l') := by
  refine ⟨?_, ?_, ?_⟩
  · rw [h'.hist, h.hist, List.append_assoc]
  · rw [h'.sent, h.sent, List.append_assoc]
  · intro hnil
    obtain ⟨hl, hl'⟩ := List.append_eq_nil_iff.mp hnil
    rw [h'.processed hl', h.processed hl]

lemma ExtendingRequest.extended (hstep : ExtendingRequest s req s') (hplain : req.type ≠ .transfer) :
    ∃ l, Extended s s' l := by
  cases hstep with
  | query type =>
    obtain ⟨m, hm⟩ := getBalance_eq s req.accountId
    rw [hm]
    exact ⟨[], (List.append_nil _).symm, (List.append_nil _).symm, fun _ => rfl⟩
  | duplicate => exact ⟨[], .refl s⟩
  | answer type =>
    refine ⟨[s.answered req], rfl, ?_, by simp⟩
    rw [answeredExtending, extendingSent, if_neg hplain]

lemma TailRun.extended (hs : TailWf s) (hrun : TailRun PlainStep s s') : ∃ l, Extended s s' l := by
  induction hrun with
  | refl => exact ⟨[], .refl s⟩
  | tail hrun hstep ih =>
    obtain ⟨l, hl⟩ := ih
    have hwf := hs.run hrun
    cases hstep with
    | request guard live =>
      obtain ⟨l', hl'⟩ := (receiveRequest_extending hwf.tail hwf.extending live).extended guard
      exact ⟨l ++ l', hl.trans hl'⟩
    | reply guard => exact absurd guard id

/-! ### The joining server -/

lemma receiveExtendMsgs_sent_seq (s : ChainServer) (master : Address) (l : List Request) :
    (s.receiveExtendMsgs master (l.map .sent)).ok = true ∧
      (s.receiveExtendMsgs master (l.map .sent)).server.bankUpdateSeq =
        SeqStream.reach s.bankUpdateSeq (l.map (·.bankUpdateSeq)) := by
  induction l generalizing s with
  | nil => exact ⟨rfl, rfl⟩
  | cons q l ih =>
    rw [List.map_cons, receiveExtendMsgs_cons (receiveExtendMsg_sent s master q)]
    exact ih _

/-- The joining server ends with the largest number that was handed over. -/
lemma receiveExtendMsgs_whole {t u : ChainServer} {accounts : List (String × ℚ)}
    {processed : List Request} (haccounts : accounts.Perm t.accounts)
    (hprocessed : processed.Perm t.processed)
    (hkeys : ∀ k it, t.processedMap.lookup k = some it → it.key = k) (s : ChainServer)
    (master : Address) :
    let e := s.receiveExtendMsgs master (t.snapshotMsgs accounts processed ++ u.sentMsgs)
    e.ok = true ∧ e.server.bankUpdateSeq =
      SeqStream.reach 0 ((processed ++ u.sentList).map (·.bankUpdateSeq)) := by
  intro e
  obtain ⟨am, pm, n, hcopy, -, -, hn⟩ :=
    receiveExtendMsgs_snapshot haccounts hprocessed hkeys s master
  have he : e =
      ({ s with accountMap := am, processedMap := pm, bankUpdateSeq := n, preServerAddr := t.localAddr } :
        ChainServer).receiveExtendMsgs master u.sentMsgs := receiveExtendMsgs_append_of_eq hcopy
  obtain ⟨hok, hseq⟩ := receiveExtendMsgs_sent_seq { s with
    accountMap := am, processedMap := pm, bankUpdateSeq := n, preServerAddr := t.localAddr }
    master u.sentList
  obtain ⟨hserver, hlast⟩ := receiveExtendMsgs_append_of_ok hok [.fin]
  rw [he, sentMsgs, hserver, hlast]
  refine ⟨rfl, ?_⟩
  rw [List.map_append, SeqStream.reach_append, ← hn]
  exact hseq

/-! ### When the counters agree -/

/-- The last update of the history is the first under its key. -/
def LastIsFirst (s : ChainServer) : Prop :=
  ∀ l q, s.hist = l ++ [q] → ∀ p ∈ l, p.key ≠ q.key

lemma LogWf.seq_of_getLast {l : List Request} {q : Request} (h : LogWf s) (hl : s.hist = l ++ [q]) :
    q.bankUpdateSeq = s.hist.length := by
  have hseqs := h.seqs
  rw [hl, List.map_append, List.length_append, List.length_singleton, List.range'_concat] at hseqs
  have hlast := List.append_inj_right' hseqs rfl
  rw [hl]
  simpa [Nat.add_comm] using hlast

lemma LastIsFirst.iff_find? {l : List Request} {q : Request} (hl : s.hist = l ++ [q]) (hq : q ∉ l) :
    s.LastIsFirst ↔ (s.hist.find? fun it => it.key = q.key) = some q := by
  rw [hl, List.find?_append, List.find?_singleton, if_pos (by simp)]
  constructor
  · intro h
    have hnone : (l.find? fun it => it.key = q.key) = none := by
      rw [List.find?_eq_none]
      intro p hp
      simpa using h l q hl p hp
    rw [hnone, Option.none_or]
  · intro h l' q' hl' p hp hk
    obtain ⟨rfl, hq'⟩ := List.append_inj' (hl.symm.trans hl') rfl
    obtain rfl : q = q' := by simpa using hq'
    obtain ⟨p', hp'⟩ := Option.isSome_iff_exists.mp
      (List.find?_isSome.mpr ⟨p, hp, decide_eq_true hk⟩ : (l.find? fun it => it.key = q.key).isSome)
    rw [hp', Option.some_or] at h
    exact hq (Option.some.inj h ▸ List.mem_of_find?_eq_some hp')

/-- `processed_map_` holds the largest number exactly if the last update is the first under its
key. -/
lemma Indexes.reach_eq_iff (hs : s.Indexes) (hempty : s.sentList = []) (hlog : s.LogWf)
    {processed : List Request}
    (hprocessed : ∀ p, p ∈ processed ↔ s.processedMap.lookup p.key = some p) :
    SeqStream.reach 0 (processed.map (·.bankUpdateSeq)) = s.hist.length ↔ s.LastIsFirst := by
  have hstored {p : Request} : p ∈ processed ↔ (s.hist.find? fun it => it.key = p.key) = some p := by
    rw [hprocessed, ← hs.first, hempty, List.find?_nil, Option.or_none]
  have hhist {p : Request} (hp : p ∈ processed) : p ∈ s.hist :=
    List.mem_of_find?_eq_some (hstored.mp hp)
  rw [SeqStream.reach_eq_iff (Nat.zero_le _)]
  · rcases List.eq_nil_or_concat s.hist with hnil | ⟨l, q, hl⟩
    · rw [hnil]
      simp [LastIsFirst, hnil]
    · rw [List.concat_eq_append] at hl
      have hseq := hlog.seq_of_getLast hl
      have hlast {p : Request} (hp : p ∈ s.hist) (heq : p.bankUpdateSeq = s.hist.length) : p = q := by
        have hget := (hlog.getElem? hp).1
        rw [heq, hl] at hget
        simpa using hget.symm
      have hq : q ∉ l := by
        have hnodup := hlog.nodup
        rw [hl, List.nodup_append] at hnodup
        exact fun hmem => hnodup.2.2 q hmem q List.mem_cons_self rfl
      rw [LastIsFirst.iff_find? hl hq, ← hstored]
      constructor
      · rintro (hzero | hmem)
        · rw [hl] at hzero
          simp at hzero
        · obtain ⟨p, hp, heq⟩ := List.mem_map.mp hmem
          exact hlast (hhist hp) heq ▸ hp
      · intro hp
        right
        rw [← hseq]
        exact List.mem_map_of_mem hp
  · intro k hk
    obtain ⟨p, hp, rfl⟩ := List.mem_map.mp hk
    exact (hlog.getElem? (hhist hp)).2.2

lemma mem_processed (h : ∀ k it, s.processedMap.lookup k = some it → it.key = k) :
    req ∈ s.processed ↔ s.processedMap.lookup req.key = some req := by
  rw [processed, List.mem_map]
  constructor
  · rintro ⟨⟨k, it⟩, he, rfl⟩
    have hlookup : s.processedMap.lookup k = some it := AList.mem_lookup_iff.mpr he
    rwa [h k it hlookup]
  · intro hlookup
    exact ⟨⟨req.key, req⟩, AList.mem_lookup_iff.mp hlookup, rfl⟩

/-- The largest number is handed over exactly if the tail has handled an update since the extension
began, or the last update before is in `processed_map_`. -/
lemma Extended.reach_eq_iff {t : ChainServer} {l l' : List Request} {processed : List Request}
    (hs : s.Indexes) (hempty : s.sentList = []) (hlog : s.LogWf) (ht : TailWf t) (hu : TailWf s')
    (hbefore : Extended s t l) (hlater : Extended t s' l') (hprocessed : processed.Perm t.processed) :
    SeqStream.reach 0 ((processed ++ s'.sentList).map (·.bankUpdateSeq)) = s'.bankUpdateSeq ↔
      s.hist.length < s'.hist.length ∨ s.LastIsFirst := by
  have hall := hbefore.trans hlater
  have hsent : s'.sentList = l ++ l' := by rw [hall.sent, hempty, List.nil_append]
  have hmem {p : Request} : p ∈ processed ↔ t.processedMap.lookup p.key = some p := by
    rw [hprocessed.mem_iff, mem_processed fun k it hit => (ht.stored k it hit).2]
  rw [hu.log.counter]
  rcases List.eq_nil_or_concat (l ++ l') with hnil | ⟨r, q, hr⟩
  · -- nothing has happened since the extension began
    have hsame : t.processedMap = s.processedMap := hbefore.processed (List.append_eq_nil_iff.mp hnil).1
    have hhist : s'.hist = s.hist := by rw [hall.hist, hnil, List.append_nil]
    rw [hsent, hnil, List.append_nil, hhist, hs.reach_eq_iff hempty hlog fun p => hsame ▸ hmem]
    simp
  · rw [List.concat_eq_append] at hr
    have hhist : s'.hist = (s.hist ++ r) ++ [q] := by rw [hall.hist, hr, List.append_assoc]
    have hseq := hu.log.seq_of_getLast hhist
    have hlt : s.hist.length < s'.hist.length := by
      rw [hhist]
      simp
    have hle : ∀ k ∈ (processed ++ s'.sentList).map (·.bankUpdateSeq), k ≤ s'.hist.length := by
      intro k hk
      obtain ⟨p, hp, rfl⟩ := List.mem_map.mp hk
      refine (hu.log.getElem? ?_).2.2
      rcases List.mem_append.mp hp with hp | hp
      · rw [hlater.hist]
        exact List.mem_append_left _ (ht.stored _ p (hmem.mp hp)).1
      · exact hu.log.mem_hist hp
    rw [SeqStream.reach_eq_iff (Nat.zero_le _) hle]
    refine iff_of_true (Or.inr ?_) (Or.inl hlt)
    rw [← hseq]
    apply List.mem_map_of_mem
    rw [hsent, hr]
    simp

/-- A tail with an empty `sent_list_` begins an extension. -/
lemma Indexes.start (h : Indexes s) (hlog : s.LogWf) (htail : s.istail = true) (addr : Address) :
    TailWf (Handoff.start s addr).tail ∧ Extended s (Handoff.start s addr).tail [] := by
  have hempty := h.settled htail
  rw [Handoff.start, receiveExtendServer_server hempty]
  refine ⟨⟨htail, rfl, ⟨hlog.seqs, hlog.counter, hlog.update, hlog.sent, hlog.suffix⟩, ?_⟩,
    ⟨(List.append_nil _).symm, (List.append_nil _).symm, fun _ => rfl⟩⟩
  intro k it hit
  have hfirst := h.first k
  rw [hempty, List.find?_nil, Option.or_none] at hfirst
  have hfind := hfirst.symm.trans hit
  exact ⟨List.mem_of_find?_eq_some hfind, by simpa using List.find?_some hfind⟩

/-! ### The next update -/

/-- The counters agree, so every update that `t` forwards next passes the assertion of
`receive_request` at `e`. -/
def InStep (t e : ChainServer) : Prop :=
  e.bankUpdateSeq = t.bankUpdateSeq ∧ ∀ req addr q,
    Packet.tcp addr (.request q) ∈ (t.receiveRequest32 req).out → e.bankUpdateSeq = prevSeq q.bankUpdateSeq

/-- A relayed update keeps the number that it has been given. -/
lemma relayUpdate_number {addr : Address} {q : Request}
    (hq : Packet.tcp addr (.request q) ∈ (s.relayUpdate req).out) : q.bankUpdateSeq = req.bankUpdateSeq := by
  simp only [relayUpdate, forwardRequest, List.mem_singleton, Packet.tcp.injEq, Message.request.injEq] at hq
  rw [hq.2]
  exact (Request.fields_of_body (updateRequestReply_body s req)).2.2.1

lemma inStep_iff {t e : ChainServer} (htail : t.istail = false) (hseq : t.bankUpdateSeq < 2 ^ 32) :
    InStep t e ↔ e.bankUpdateSeq = t.bankUpdateSeq := by
  constructor
  · exact And.left
  · intro heq
    refine ⟨heq, fun req addr q hq => ?_⟩
    unfold receiveRequest32 at hq
    split_ifs at hq with htype hacting hhead hsingle hseen hgap
    · simp [htail] at hacting
    · simp [abort] at hq
    · rw [heq, relayUpdate_number hq, prevSeq_nextSeq hseq]
    · simp [htail] at hsingle
    · simp at hq
    · simp [abort] at hq
    · have hnext : req.bankUpdateSeq = t.bankUpdateSeq + 1 := by omega
      simp only [htail, Bool.false_eq_true, if_false] at hq
      rw [heq, relayUpdate_number hq, hnext, prevSeq_succ hseq]

end ChainServer

/-! ### The handoff -/

open ChainServer

variable {cfg : Config} {b : BankConfig} {σ : System} {x : Address} {h : Handoff}

/-- A tail of a chain without joins and transfers extends its chain, and no head numbers an update with its
counter at its last value. The joining server ends with the tail's counter, and accepts the update that is
forwarded next, exactly if the tail has handled an update since the extension began or the last one before was
the first under its key. -/
theorem extension_preserves_counter (hb : b ∈ cfg.banks) (hrun : Machine.Reach System.step32
      (fun σ l => System.NoJoin σ l ∧ UpdateInput b (·.type ≠ .transfer) σ l ∧ σ.CounterFits l) cfg.init σ)
    (hx : x ∈ b.servers) (htail : (σ.server x).istail = true) {addr : Address}
    (hext : Machine.Reach Handoff.step32 (fun h l => PlainStep l ∧ h.CounterFits l)
      (Handoff.start (σ.server x) addr) h) (hfin : h.phase = .finished) (e : ChainServer)
    (master : Address) :
    let e' := e.receiveExtendMsgs master h.stream
    e'.ok = true ∧ (InStep h.tail e'.server ↔
      (σ.server x).hist.length < h.tail.hist.length ∨ (σ.server x).LastIsFirst) := by
  intro e'
  have hfits := System.reach_of_fits hrun fun _ _ h => h.2.2
  have hcounted := System.Counted.reach (fun _ _ h => h.1) (fun _ _ h => h.2.2) hfits
  have hrun := hfits.mono fun _ _ h => And.intro h.1 h.2.1
  have hext := hext.congr fun _ _ h => Handoff.step32_eq h.2
  have hinv := BankInvariant.reach indexes_invariant hb hrun
  have hindexes := hinv.server x hx
  have hempty := hindexes.settled htail
  have htop : Topology cfg σ := Topology.reach (fun _ _ h => h.1) hrun
  obtain ⟨hwf, hstart⟩ := hindexes.start (htop.log x) htail addr
  have hwidth : h.tail.bankUpdateSeq < 2 ^ 32 := by
    refine Handoff.counted hwf ?_ hext
    rw [Handoff.start, receiveExtendServer_server hempty]
    exact hcounted.server x
  cases Handoff.shape_of_reach (hext.mono fun _ _ h => h.1) with
  | extending phase => simp [phase] at hfin
  | copied phase => simp [phase] at hfin
  | @finished t u accounts processed phase before later haccounts hprocessed tail stream =>
    have ht := hwf.run before
    have hu := ht.run later
    obtain ⟨l, hbefore⟩ := TailRun.extended hwf before
    obtain ⟨l', hlater⟩ := TailRun.extended ht later
    obtain ⟨hok, hseq⟩ := receiveExtendMsgs_whole (u := u) haccounts hprocessed
      (fun k it hit => (ht.stored k it hit).2) e master
    rw [← stream] at hok hseq
    have hcounter : h.tail.bankUpdateSeq = u.bankUpdateSeq := by rw [tail]; rfl
    have hhist : h.tail.hist = u.hist := by rw [tail]; rfl
    refine ⟨hok, ?_⟩
    rw [inStep_iff (by rw [tail]; rfl) hwidth, hcounter, hhist, hseq]
    exact Extended.reach_eq_iff hindexes hempty (htop.log x) ht hu (hstart.trans hbefore) hlater
      hprocessed

/-! ### Samples -/

section Sample

open Config

/-- A chain of one server. -/
def counterChain : BankConfig := { bankId := "CITI", servers := [localAddress 11] }

/-- The server has handled a deposit and its repetition. -/
def counterRun : System :=
  Machine.after System.step32 (fun σ l => System.NoJoin σ l ∧
      UpdateInput counterChain (·.type ≠ .transfer) σ l ∧ σ.CounterFits l) twoBanks.init
    [request 11 (sampleDeposit "1" 10), request 11 (sampleDeposit "1" 10)]

/-- It extends its chain and handles the requests `reqs` meanwhile. -/
def counterHandoff (reqs : List Request) : Handoff :=
  let h := Handoff.start (counterRun.server (localAddress 11)) (localAddress 12)
  Machine.after Handoff.step32 (fun h l => PlainStep l ∧ h.CounterFits l) h
    (.snapshot h.tail.accounts h.tail.processed.reverse :: reqs.map .request ++ [.finish])

lemma counterRun_reach : Machine.Reach System.step32 (fun σ l => System.NoJoin σ l ∧
    UpdateInput counterChain (·.type ≠ .transfer) σ l ∧ σ.CounterFits l) twoBanks.init counterRun :=
  Machine.reach_after (by decide +kernel)

/-- A conflicting request during the extension hands the number over. -/
theorem extension_preserves_counter_conflict :
    let h := counterHandoff [sampleDeposit "1" 7]
    let e' := ({} : ChainServer).receiveExtendMsgs (localAddress 0) h.stream
    e'.ok = true ∧ (InStep h.tail e'.server ↔
      (counterRun.server (localAddress 11)).hist.length < h.tail.hist.length ∨
        (counterRun.server (localAddress 11)).LastIsFirst) := by
  have hfin : (counterHandoff [sampleDeposit "1" 7]).phase = .finished := by decide +kernel
  exact extension_preserves_counter (b := counterChain) (by decide) counterRun_reach (by decide)
    (by decide +kernel) (Machine.reach_after (by decide +kernel)) hfin {} (localAddress 0)

/-- Nothing arrives during the extension: the joining server is one behind. -/
theorem extension_loses_counter :
    ¬ ∀ b ∈ twoBanks.banks, ∀ σ, Machine.Reach System.step32
      (fun σ l => System.NoJoin σ l ∧ UpdateInput b (·.type ≠ .transfer) σ l) twoBanks.init σ →
      ∀ x ∈ b.servers, (σ.server x).istail = true → ∀ addr h,
        Machine.Reach Handoff.step32 (fun _ l => PlainStep l) (Handoff.start (σ.server x) addr) h →
        h.phase = .finished → ∀ (e : ChainServer) (master : Address),
          InStep h.tail (e.receiveExtendMsgs master h.stream).server := by
  intro hclaim
  have hfin : (counterHandoff []).phase = .finished := by decide +kernel
  have hext : Machine.Reach Handoff.step32 (fun h l => PlainStep l ∧ h.CounterFits l)
      (Handoff.start (counterRun.server (localAddress 11)) (localAddress 12)) (counterHandoff []) :=
    Machine.reach_after (by decide +kernel)
  have hstep := hclaim counterChain (by decide) counterRun
    (counterRun_reach.mono fun _ _ h => ⟨h.1, h.2.1⟩) (localAddress 11) (by decide) (by decide +kernel)
    (localAddress 12) (counterHandoff []) (hext.mono fun _ _ h => h.1) hfin {} (localAddress 0)
  have hbehind : (({} : ChainServer).receiveExtendMsgs (localAddress 0)
      (counterHandoff []).stream).server.bankUpdateSeq ≠ (counterHandoff []).tail.bankUpdateSeq := by
    decide +kernel
  exact hbehind hstep.1

end Sample

end ChainReplication
