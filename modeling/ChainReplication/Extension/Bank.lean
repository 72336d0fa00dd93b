import ChainReplication.Extension.Handoff
import ChainReplication.System.Replicas

/-!
# A handoff preserves the bank state

Both ends of a handoff are compared with the reference bank. The snapshot hands over the bank as it
is when the tables are copied; of the requests in `sent_list_` those from before the copy repeat
requests that the copy has, and the others replay the transitions since.
-/

namespace ChainReplication

namespace ChainServer

variable {owner : String → String} {s s' : ChainServer} {B : Bank} {req : Request} {r a : String}

/-- The balances and `processed_map_` are those of the reference bank. -/
structure Holds (owner : String → String) (s : ChainServer) (B : Bank) : Prop where
  balance : s.balance = B.balance
  first : ∀ r a, '_' ∉ a.toList → s.processedMap.lookup (r ++ "_" ++ a) = B.first (r, a)
  stored : ∀ k it, s.processedMap.lookup k = some it →
    it.key = k ∧ it.Assigned owner ∧ it.accountId ∈ s.accountMap

/-- The requests in `sent_list_` are known to the reference bank. -/
def SentKnown (owner : String → String) (s : ChainServer) (B : Bank) : Prop :=
  ∀ q ∈ s.sentList, q.Assigned owner ∧ (B.first (q.reqId, q.accountId)).isSome

/-! ### One update -/

namespace Holds

lemma congr (h : Holds owner s B) (accounts : s'.accountMap = s.accountMap)
    (processed : s'.processedMap = s.processedMap) {B' : Bank} (balance : B'.balance = B.balance)
    (first : B'.first = B.first) : Holds owner s' B' := by
  refine ⟨?_, ?_, ?_⟩
  · rw [balance_congr accounts, h.balance, balance]
  · rw [processed, first]
    exact h.first
  · rw [processed, accounts]
    exact h.stored

lemma precedent_eq (h : Holds owner s B) (hsent : s.SentKnown owner B) (hreq : req.Assigned owner) :
    s.precedent req = B.first (req.reqId, req.accountId) := by
  have hlookup : s.processedMap.lookup req.key = B.first (req.reqId, req.accountId) :=
    h.first req.reqId req.accountId hreq.2
  cases hfirst : B.first (req.reqId, req.accountId) with
  | some it =>
    rw [hfirst] at hlookup
    obtain ⟨hkey, hassigned, hmem⟩ := h.stored _ it hlookup
    have hacc := ((Request.key_eq_iff hassigned.2 hreq.2).mp hkey).2
    rw [precedent, if_pos (hacc ▸ hmem), hlookup, Option.some_or]
  | none =>
    rw [precedent, hlookup, hfirst, Option.none_or]
    split_ifs
    · rw [List.find?_eq_none]
      intro it hit hid
      have hid : req.reqId = it.reqId := of_decide_eq_true hid
      obtain ⟨hassigned, hknown⟩ := hsent it hit
      rw [← hid, hassigned.1, ← hid, ← hreq.1, hfirst] at hknown
      simp at hknown
    · rfl

/-- The server answers as the reference bank does. -/
lemma answer_eq (h : Holds owner s B) (hsent : s.SentKnown owner B) (hreq : req.Assigned owner) :
    (s.updateRequestReply req).2 = B.answer req := by
  have hprecedent := h.precedent_eq hsent hreq
  cases hfirst : B.first (req.reqId, req.accountId) with
  | some it =>
    rw [updateRequestReply_of_precedent (hprecedent.trans hfirst), h.balance]
    exact (Bank.answer_of_first hfirst).symm
  | none =>
    rw [(updateRequestReply_of_none (hprecedent.trans hfirst)).1, h.balance]
    exact (Bank.answer_of_none hfirst).symm

/-- The server handles an update as the reference bank does. -/
lemma update (h : Holds owner s B) (hsent : s.SentKnown owner B) (hreq : req.Assigned owner)
    (accounts : s'.accountMap = (s.updateRequestReply req).1.accountMap)
    (processed : s'.processedMap = (s.remember (s.updateRequestReply req).2).processedMap) :
    Holds owner s' (B.update req) := by
  have hanswer := h.answer_eq hsent hreq
  have hbody := updateRequestReply_body s req
  obtain ⟨hid, -, -, hacc, -⟩ := Request.fields_of_body hbody
  refine ⟨?_, ?_, ?_⟩
  · rw [balance_congr accounts, balance_updateRequestReply, hanswer, h.balance]
    rfl
  · intro r a ha
    have hkey : (s.updateRequestReply req).2.key = r ++ "_" ++ a ↔
        req.reqId = r ∧ req.accountId = a := by
      rw [Request.key_eq_iff (by rw [hacc]; exact hreq.2) ha, hid, hacc]
    rw [processed, Bank.first_update, ← h.first r a ha, ← hanswer, remember]
    by_cases hnew : (s.updateRequestReply req).2.checkResult = .newreq
    · rw [if_pos hnew, lookup_insertProcessedList]
      simp only [hkey]
    · rw [if_neg hnew]
      split_ifs with hids
      · obtain ⟨rfl, rfl⟩ := hids
        cases hfirst : B.first (req.reqId, req.accountId) with
        | some it => rw [h.first _ _ ha, hfirst, Option.some_or]
        | none =>
          rw [hanswer, Bank.answer_of_none hfirst] at hnew
          exact absurd rfl hnew
      · rw [Option.or_none]
  · intro k it hit
    have hmem {c : String} (hc : c = req.accountId ∨ c ∈ s.accountMap) : c ∈ s'.accountMap := by
      rw [accounts]
      exact mem_accounts_updateRequestReply.mpr hc
    have old (hold : s.processedMap.lookup k = some it) :
        it.key = k ∧ it.Assigned owner ∧ it.accountId ∈ s'.accountMap := by
      obtain ⟨hk, hassigned, hacc⟩ := h.stored k it hold
      exact ⟨hk, hassigned, hmem (Or.inr hacc)⟩
    rw [processed, remember] at hit
    split_ifs at hit
    · rw [lookup_insertProcessedList, Option.or_eq_some_iff] at hit
      rcases hit with hit | ⟨-, hit⟩
      · exact old hit
      · simp only [Option.ite_none_right_eq_some, Option.some.injEq] at hit
        obtain ⟨hk, rfl⟩ := hit
        refine ⟨hk, ?_, hmem (Or.inl hacc)⟩
        rw [Request.Assigned, hid, hacc]
        exact hreq
    · exact old hit

/-- Two servers that hold the same bank have the same request under every key. -/
lemma lookup_eq (h : Holds owner s B) (h' : Holds owner s' B) (k : String) :
    s.processedMap.lookup k = s'.processedMap.lookup k := by
  have found {u u' : ChainServer} (hu : Holds owner u B) (hu' : Holds owner u' B) {it : Request}
      (hit : u.processedMap.lookup k = some it) : u'.processedMap.lookup k = some it := by
    obtain ⟨rfl, hassigned, -⟩ := hu.stored k it hit
    have hfirst := hu.first it.reqId it.accountId hassigned.2
    exact (hu'.first it.reqId it.accountId hassigned.2).trans (hfirst.symm.trans hit)
  cases hit : s.processedMap.lookup k with
  | some it => exact (found h h' hit).symm
  | none =>
    cases hit' : s'.processedMap.lookup k with
    | none => rfl
    | some it =>
      rw [found h' h hit'] at hit
      cases hit

end Holds

/-! ### The joining server -/

/-- A joining server that handles the stream ends with the tables of the reference bank. -/
def Rebuilds (owner : String → String) (ms : List ExtendMsg) (B : Bank) : Prop :=
  ∀ (s : ChainServer) (master : Address), s.sentList = [] →
    (s.receiveExtendMsgs master ms).ok = true ∧ Holds owner (s.receiveExtendMsgs master ms).server B

lemma Rebuilds.congr {ms : List ExtendMsg} (h : Rebuilds owner ms B) {B' : Bank}
    (balance : B'.balance = B.balance) (first : B'.first = B.first) : Rebuilds owner ms B' := by
  intro s master hs
  obtain ⟨hok, hholds⟩ := h s master hs
  exact ⟨hok, hholds.congr rfl rfl balance first⟩

/-- The snapshot hands over the tables of the tail. -/
lemma Holds.snapshot (h : Holds owner s B) {accounts : List (String × ℚ)} {processed : List Request}
    (haccounts : accounts.Perm s.accounts) (hprocessed : processed.Perm s.processed) :
    Rebuilds owner (s.snapshotMsgs accounts processed) B := by
  intro u master hu
  obtain ⟨am, pm, n, heq, ham, hpm, -⟩ := receiveExtendMsgs_snapshot haccounts hprocessed
    (fun k it hit => (h.stored k it hit).1) u master
  rw [heq]
  refine ⟨rfl, ?_, ?_, ?_⟩
  · rw [← h.balance]
    funext a
    simp only [ChainServer.balance, ham]
  · intro r a ha
    rw [hpm]
    exact h.first r a ha
  · intro k it hit
    rw [hpm] at hit
    obtain ⟨hk, hassigned, hmem⟩ := h.stored k it hit
    refine ⟨hk, hassigned, ?_⟩
    rw [← AList.lookup_isSome, ham, AList.lookup_isSome]
    exact hmem

/-- One request of the `SENT` block is one transition. -/
lemma Rebuilds.sent {ms : List ExtendMsg} (h : Rebuilds owner ms B) (hreq : req.Assigned owner) :
    Rebuilds owner (ms ++ [.sent req]) (B.update req) := by
  intro s master hs
  obtain ⟨hok, hholds⟩ := h s master hs
  obtain ⟨hserver, hok'⟩ := receiveExtendMsgs_append_of_ok hok [.sent req]
  have hempty : (s.receiveExtendMsgs master ms).server.sentList = [] :=
    receiveExtendMsgs_sentList.trans hs
  rw [hserver, hok', receiveExtendMsgs_cons (receiveExtendMsg_sent _ master req)]
  refine ⟨rfl, hholds.update ?_ hreq rfl rfl⟩
  rw [SentKnown, hempty]
  simp

/-- The requests that the copy already has change nothing. -/
lemma Rebuilds.sent_known {ms : List ExtendMsg} {l : List Request} (h : Rebuilds owner ms B)
    (hl : ∀ q ∈ l, q.Assigned owner ∧ (B.first (q.reqId, q.accountId)).isSome) :
    Rebuilds owner (ms ++ l.map .sent) B := by
  induction l generalizing ms with
  | nil => simpa using h
  | cons q l ih =>
    obtain ⟨hassigned, hknown⟩ := hl q List.mem_cons_self
    obtain ⟨it, hit⟩ := Option.isSome_iff_exists.mp hknown
    obtain ⟨hbalance, hfirst⟩ := Bank.update_of_first hit
    have hq := (h.sent hassigned).congr hbalance.symm hfirst.symm
    have hrest := ih hq fun u hu => hl u (List.mem_cons_of_mem _ hu)
    simpa using hrest

/-- The requests since the copy replay the transitions since the copy. -/
lemma Rebuilds.sent_new {ms : List ExtendMsg} {l : List Request} (h : Rebuilds owner ms B)
    (hl : ∀ q ∈ l, q.Assigned owner) : Rebuilds owner (ms ++ l.map .sent) (l.foldl Bank.update B) := by
  induction l generalizing ms B with
  | nil => simpa using h
  | cons q l ih =>
    have hrest := ih (h.sent (hl q List.mem_cons_self)) fun u hu => hl u (List.mem_cons_of_mem _ hu)
    simpa using hrest

/-- `FIN` changes the role only. -/
lemma Rebuilds.fin {ms : List ExtendMsg} (h : Rebuilds owner ms B) : Rebuilds owner (ms ++ [.fin]) B := by
  intro s master hs
  obtain ⟨hok, hholds⟩ := h s master hs
  obtain ⟨hserver, hok'⟩ := receiveExtendMsgs_append_of_ok hok [.fin]
  rw [hserver, hok']
  refine ⟨rfl, hholds.congr ?_ ?_ rfl rfl⟩
  · rfl
  · rfl

/-! ### The tail -/

/-- A tail during an extension. -/
structure Extending (owner : String → String) (s : ChainServer) (B : Bank) : Prop where
  tail : s.istail = true
  extending : s.extendingChain = true
  holds : Holds owner s B
  sent : s.SentKnown owner B

/-- A tail follows the reference bank with `processed_map_` alone. -/
lemma Follows.holds (h : s.Follows owner) (htail : s.istail = true) :
    Holds owner s (Bank.run s.bodies) := by
  refine ⟨funext h.balance, ?_, ?_⟩
  · intro r a ha
    rw [← h.first r a ha, recalled, h.settled htail, List.find?_nil, Option.or_none]
  · intro k it hit
    obtain ⟨hmem, hk⟩ := h.stored k it hit
    exact ⟨hk, (h.assigned it hmem).1, h.accounts it hmem⟩

/-- What the tail puts into `sent_list_` is what the reference bank has done since. -/
lemma Extending.step (h : Extending owner s B) (hstep : ExtendingRequest s req s')
    (hreq : req.type ≠ .query → req.Assigned owner ∧ req.type ≠ .transfer) :
    ∃ l, s'.sentList = s.sentList ++ l ∧ Extending owner s' (l.foldl Bank.update B) := by
  cases hstep with
  | query type =>
    obtain ⟨m, hm⟩ := getBalance_eq s req.accountId
    have hbalance := balance_getBalance (s := s) req.accountId
    have hmem {c : String} (hc : c ∈ s.accountMap) := mem_accounts_getBalance hc req.accountId
    rw [hm] at hbalance hmem ⊢
    refine ⟨[], (List.append_nil _).symm, h.tail, h.extending, ⟨?_, h.holds.first, ?_⟩, h.sent⟩
    · exact hbalance.trans h.holds.balance
    · intro k it hit
      obtain ⟨hk, hassigned, hacc⟩ := h.holds.stored k it hit
      exact ⟨hk, hassigned, hmem hacc⟩
  | duplicate => exact ⟨[], (List.append_nil _).symm, h⟩
  | answer type =>
    obtain ⟨hassigned, hplain⟩ := hreq type
    have hsent : s.extendingSent req = [s.answered req] := if_neg hplain
    have hupdate : B.update (s.answered req) = B.update (s.number req) :=
      Bank.update_congr (answered_body s req)
    refine ⟨[s.answered req], ?_, h.tail, h.extending, ?_, ?_⟩
    · rw [answeredExtending, hsent]
    · have haccept : Holds owner s.accept B := by
        refine h.holds.congr ?_ ?_ rfl rfl
        · rfl
        · rfl
      have hsame : s.accept.processedMap = s.processedMap := rfl
      have hprocessed : (s.remember (s.answered req)).processedMap =
          (s.accept.remember (s.answered req)).processedMap := (remember_processedMap hsame).symm
      rw [List.foldl_cons, List.foldl_nil, hupdate]
      exact haccept.update h.sent hassigned rfl hprocessed
    · intro q hq
      rw [answeredExtending, hsent, List.mem_append, List.mem_singleton] at hq
      rw [List.foldl_cons, List.foldl_nil, Bank.first_update, Option.isSome_or, Bool.or_eq_true]
      rcases hq with hq | rfl
      · exact ⟨(h.sent q hq).1, Or.inl (h.sent q hq).2⟩
      · refine ⟨?_, Or.inr (by simp)⟩
        rw [Request.Assigned, answered_reqId, answered_accountId]
        exact hassigned

/-- The requests of a handoff are queries and assigned updates that are no transfers. -/
def AssignedStep (owner : String → String) : HandoffLabel → Prop
  | .request req => req.type ≠ .query → req.Assigned owner ∧ req.type ≠ .transfer
  | .reply _ => False
  | _ => True

instance (owner : String → String) : DecidablePred (AssignedStep owner) := fun l =>
  match l with
  | .request req =>
    inferInstanceAs (Decidable (req.type ≠ .query → req.Assigned owner ∧ req.type ≠ .transfer))
  | .reply _ => inferInstanceAs (Decidable False)
  | .snapshot .. => inferInstanceAs (Decidable True)
  | .finish => inferInstanceAs (Decidable True)

lemma Extending.run (h : Extending owner s B) (hrun : TailRun (AssignedStep owner) s s') :
    ∃ l, s'.sentList = s.sentList ++ l ∧ Extending owner s' (l.foldl Bank.update B) := by
  induction hrun with
  | refl => exact ⟨[], (List.append_nil _).symm, h⟩
  | tail _ hstep ih =>
    obtain ⟨l, hsent, hext⟩ := ih
    cases hstep with
    | request guard live =>
      have hcase := receiveRequest_extending hext.tail hext.extending live
      obtain ⟨l', hsent', hext'⟩ := hext.step hcase guard
      refine ⟨l ++ l', ?_, ?_⟩
      · rw [hsent', hsent, List.append_assoc]
      · rwa [List.foldl_append]
    | reply guard => exact absurd guard id

lemma Follows.extending (h : s.Follows owner) (htail : s.istail = true) (addr : Address) :
    Extending owner (Handoff.start s addr).tail (Bank.run s.bodies) := by
  have hsent := h.settled htail
  rw [Handoff.start, receiveExtendServer_server hsent]
  refine ⟨htail, rfl, (h.holds htail).congr ?_ ?_ rfl rfl, ?_⟩
  · rfl
  · rfl
  · intro q hq
    rw [hsent] at hq
    cases hq

/-- The stream of a snapshot and the `SENT` block rebuilds what the tail holds in the end. -/
lemma Rebuilds.whole {t u : ChainServer} {B : Bank} (ht : Extending owner t B)
    (hlater : TailRun (AssignedStep owner) t u) {accounts : List (String × ℚ)}
    {processed : List Request} (haccounts : accounts.Perm t.accounts)
    (hprocessed : processed.Perm t.processed) : ∃ B', Holds owner u B' ∧
      Rebuilds owner (t.snapshotMsgs accounts processed ++ u.sentMsgs) B' := by
  obtain ⟨l, hsent, hext⟩ := ht.run hlater
  have hcopy := (ht.holds.snapshot haccounts hprocessed).sent_known ht.sent
  have hnew : ∀ q ∈ l, q.Assigned owner :=
    fun q hq => (hext.sent q (hsent ▸ List.mem_append_right _ hq)).1
  refine ⟨_, hext.holds, ?_⟩
  simpa [sentMsgs, hsent] using (hcopy.sent_new hnew).fin

/-- Whatever part of the stream has been sent, no assertion of the joining server fails. -/
lemma Extending.stream_ok {h : Handoff} {t e : ChainServer} {B : Bank} (ht : Extending owner t B)
    (hshape : Handoff.Shape (AssignedStep owner) t h) (he : e.sentList = []) (master : Address) :
    (e.receiveExtendMsgs master h.stream).ok = true := by
  cases hshape with
  | extending phase before stream =>
    rw [stream]
    rfl
  | copied phase before later haccounts hprocessed stream =>
    obtain ⟨l, -, hext⟩ := ht.run before
    rw [stream]
    exact ((hext.holds.snapshot haccounts hprocessed) e master he).1
  | finished phase before later haccounts hprocessed tail stream =>
    obtain ⟨l, -, hext⟩ := ht.run before
    obtain ⟨B', -, hrebuilds⟩ := Rebuilds.whole hext later haccounts hprocessed
    rw [stream]
    exact (hrebuilds e master he).1

end ChainServer

/-! ### The handoff -/

open ChainServer

variable {cfg : Config} {b : BankConfig} {owner : String → String} {σ : System} {x : Address}
  {h : Handoff}

/-- What a tail of a chain without joins and transfers may have sent to a joining server. -/
def Streamed (cfg : Config) (b : BankConfig) (owner : String → String) (ms : List ExtendMsg) : Prop :=
  ∃ σ, Machine.Reach System.step (fun σ l => System.NoJoin σ l ∧ AssignedInput b owner σ l)
    cfg.init σ ∧ ∃ x ∈ b.servers, (σ.server x).istail = true ∧ ∃ addr h,
      Machine.Reach Handoff.step (fun _ l => AssignedStep owner l)
        (Handoff.start (σ.server x) addr) h ∧ ms <+: h.stream

lemma Streamed.ok {ms : List ExtendMsg} (hb : b ∈ cfg.banks) (hms : Streamed cfg b owner ms)
    {e : ChainServer} (he : e.sentList = []) (master : Address) :
    (e.receiveExtendMsgs master ms).ok = true := by
  obtain ⟨σ, hrun, x, hx, htail, addr, h, hext, hpre⟩ := hms
  have ht := (follows_of_reach hb hrun x hx).extending htail addr
  exact ok_of_isPrefix hpre (ht.stream_ok (Handoff.shape_of_reach hext) he master)

lemma Streamed.flatten_ok {earlier : List (List ExtendMsg)} (hb : b ∈ cfg.banks)
    (hearlier : ∀ ms ∈ earlier, Streamed cfg b owner ms) {e : ChainServer} (he : e.sentList = [])
    (master : Address) : (e.receiveExtendMsgs master earlier.flatten).ok = true := by
  induction earlier generalizing e with
  | nil => rfl
  | cons ms earlier ih =>
    have hok := (hearlier ms List.mem_cons_self).ok hb he master
    have hempty : (e.receiveExtendMsgs master ms).server.sentList = [] :=
      receiveExtendMsgs_sentList.trans he
    have hrest := ih (fun u hu => hearlier u (List.mem_cons_of_mem _ hu)) hempty
    rw [List.flatten_cons, (receiveExtendMsgs_append_of_ok hok _).2]
    exact hrest

/-- A tail of a chain without joins and transfers extends its chain, with requests arriving before
the snapshot, between the snapshot and `FIN`, and in any order. The joining server, which may have
seen parts of such streams before, ends with the tail's balances and `processed_map_`. -/
theorem extension_preserves_bank (hb : b ∈ cfg.banks)
    (hrun : Machine.Reach System.step (fun σ l => System.NoJoin σ l ∧ AssignedInput b owner σ l)
      cfg.init σ) (hx : x ∈ b.servers) (htail : (σ.server x).istail = true) {addr : Address}
    (hext : Machine.Reach Handoff.step (fun _ l => AssignedStep owner l)
      (Handoff.start (σ.server x) addr) h) (hfin : h.phase = .finished) {e : ChainServer}
    (he : e.sentList = []) {earlier : List (List ExtendMsg)}
    (hearlier : ∀ ms ∈ earlier, Streamed cfg b owner ms) (master : Address) :
    let e' := e.receiveExtendMsgs master (earlier.flatten ++ h.stream)
    e'.ok = true ∧ (∀ a, e'.server.balance a = h.tail.balance a) ∧
      ∀ k, e'.server.processedMap.lookup k = h.tail.processedMap.lookup k := by
  intro e'
  have hok := Streamed.flatten_ok hb hearlier he master
  obtain ⟨hserver, hok'⟩ := receiveExtendMsgs_append_of_ok hok h.stream
  cases Handoff.shape_of_reach hext with
  | extending phase => simp [phase] at hfin
  | copied phase => simp [phase] at hfin
  | finished phase before later haccounts hprocessed tail stream =>
    obtain ⟨l, -, ht⟩ := ((follows_of_reach hb hrun x hx).extending htail addr).run before
    obtain ⟨B, hholds, hrebuilds⟩ := Rebuilds.whole ht later haccounts hprocessed
    obtain ⟨hstream, hjoined⟩ := hrebuilds (e.receiveExtendMsgs master earlier.flatten).server master
      (receiveExtendMsgs_sentList.trans he)
    rw [← stream] at hstream hjoined
    rw [← hserver] at hjoined
    rw [tail]
    refine ⟨hok'.trans hstream, fun a => ?_, fun k => hjoined.lookup_eq hholds k⟩
    rw [hjoined.balance, ← hholds.balance]
    rfl

/-! ### A sample -/

section Sample

open Config

/-- The second bank of the sample configuration. -/
def sampleChain : BankConfig := { bankId := "CITI", servers := [localAddress 11] }

/-- A server of this bank has handled some requests. -/
def sampleRun (reqs : List Request) : System :=
  twoBanks.after (fun σ l => System.NoJoin σ l ∧ AssignedInput sampleChain (fun _ => "a") σ l)
    (reqs.map (request 11))

/-- A deposit before the extension, a new and a repeated one before the snapshot, a withdrawal and a
conflicting deposit after it. -/
def sampleHandoff : Handoff :=
  Handoff.whole (fun _ l => AssignedStep (fun _ => "a") l)
    ((sampleRun [sampleDeposit "1" 10]).server (localAddress 11)) (localAddress 12)
    [.request (sampleDeposit "2" 5), .request (sampleDeposit "1" 10)]
    [.request { sampleDeposit "3" 7 with type := .withdraw }, .request (sampleDeposit "2" 6)]

lemma sampleHandoff_reach : Machine.Reach Handoff.step (fun _ l => AssignedStep (fun _ => "a") l)
    (Handoff.start ((sampleRun [sampleDeposit "1" 10]).server (localAddress 11)) (localAddress 12))
    sampleHandoff :=
  Handoff.reach_whole (by decide +kernel)

/-- The joining server has seen the beginning of the stream before. -/
theorem extension_preserves_bank_interleaved :
    let e' := ({} : ChainServer).receiveExtendMsgs (localAddress 0)
      ([sampleHandoff.stream.take 3].flatten ++ sampleHandoff.stream)
    e'.ok = true ∧ (∀ a, e'.server.balance a = sampleHandoff.tail.balance a) ∧
      ∀ k, e'.server.processedMap.lookup k = sampleHandoff.tail.processedMap.lookup k := by
  have hrun : Machine.Reach System.step
      (fun σ l => System.NoJoin σ l ∧ AssignedInput sampleChain (fun _ => "a") σ l) twoBanks.init
      (sampleRun [sampleDeposit "1" 10]) := reach_after (by decide +kernel)
  have htail : ((sampleRun [sampleDeposit "1" 10]).server (localAddress 11)).istail = true := by
    decide +kernel
  have hfin : sampleHandoff.phase = .finished := by decide +kernel
  have hearlier : ∀ ms ∈ [sampleHandoff.stream.take 3],
      Streamed twoBanks sampleChain (fun _ => "a") ms := by
    intro ms hms
    rw [List.mem_singleton.mp hms]
    exact ⟨_, hrun, localAddress 11, by decide, htail, localAddress 12, sampleHandoff,
      sampleHandoff_reach, List.take_prefix ..⟩
  exact extension_preserves_bank (by decide) hrun (by decide) htail sampleHandoff_reach hfin rfl
    hearlier (localAddress 0)

end Sample

end ChainReplication
