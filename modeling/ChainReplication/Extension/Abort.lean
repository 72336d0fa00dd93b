import ChainReplication.Extension.Handoff
import ChainReplication.System.Debit

/-!
# An aborted extension

A tail has begun to extend its chain, may have sent `FIN` and relayed updates to the joining server,
and hears that the joining server has crashed. `extending_server_fail` makes it the tail again and
clears `sent_list_`, whatever that list holds.
-/

namespace ChainReplication

/-- A server that extends its chain, and the downstream replies that its chain has handled. -/
structure Extension where
  server : ChainServer
  replied : List Reply

/-- What happens until the extension is aborted. -/
inductive ExtensionLabel where
  /-- The server handles a message. -/
  | handle (msg : Message)
  /-- Its thread sends `FIN`, and the server stops acting as the tail. -/
  | finish
  /-- Another server of the chain handles a downstream reply. -/
  | elsewhere (rep : Reply)
deriving DecidableEq

namespace Extension

/-- The tail `s` has handled `EXTEND_SERVER`. -/
def start (s : ChainServer) (extendAddr : Address) (replied : List Reply) : Extension :=
  { server := (s.receiveExtendServer extendAddr).server, replied := replied }

/-- One step; a handler whose assertion fails ends the server. -/
def step (master : Address) (x : Extension) : ExtensionLabel → Option Extension
  | .handle msg =>
    if msg.isExtend = false ∧ (x.server.handleMsg master msg).ok then
      some { server := (x.server.handleMsg master msg).server,
             replied := x.replied ++ msg.reply?.toList }
    else none
  | .finish =>
    if x.server.extendingChain then some { x with server := x.server.stopActingAsTail } else none
  | .elsewhere rep => some { x with replied := x.replied ++ [rep] }

/-- A debited transfer whose downstream reply has not arrived. -/
def Awaits (x : Extension) (q : Request) : Prop :=
  q.type = .transfer ∧ q.Applied ∧
    ∀ rep ∈ x.replied, ¬ (rep.reqId = q.reqId ∧ rep.accountId = q.destAccountId)

instance (x : Extension) (q : Request) : Decidable (x.Awaits q) :=
  inferInstanceAs (Decidable (_ ∧ _ ∧ ∀ _ ∈ _, _))

/-- A reply that the server handles takes no update out of `sent_list_` that `processed_map_` lacks. -/
def SavesReplied (x : Extension) : ExtensionLabel → Prop
  | .handle (.reply rep) => ∀ t ∈ x.server.sentList, t.reqId = rep.reqId →
      t.destAccountId = rep.accountId → t.checkResult = .newreq → t.key ∈ x.server.processedMap
  | _ => True

instance (x : Extension) (l : ExtensionLabel) : Decidable (x.SavesReplied l) :=
  match l with
  | .handle (.reply rep) => inferInstanceAs (Decidable (∀ t ∈ x.server.sentList, t.reqId = rep.reqId →
      t.destAccountId = rep.accountId → t.checkResult = .newreq → t.key ∈ x.server.processedMap))
  | .handle (.request _) | .handle (.acknowledge _) | .handle .toBeHead | .handle .toBeTail
  | .handle (.newSuccServer _) | .handle (.newPreServer _) | .handle (.newHead _)
  | .handle (.newTail _) | .handle (.reqSeq _) | .handle (.join _) | .handle (.extendServer _)
  | .handle (.extendMsg _) | .handle (.extendFinish _) | .handle .extendFail | .finish
  | .elsewhere _ => inferInstanceAs (Decidable True)

/-- `sent_list_` holds nothing that the server still needs: every update in it that was carried out is
in `processed_map_`, and no transfer waits for its downstream reply. -/
structure Drained (x : Extension) : Prop where
  recorded : ∀ q ∈ x.server.sentList, q.checkResult = .newreq → q.key ∈ x.server.processedMap
  confirmed : ∀ q ∈ x.server.hist, ¬ x.Awaits q

/-- The server `s` has forgotten nothing of what it did by the end of `x`. -/
structure ForgetsNothing (x : Extension) (s : ChainServer) : Prop where
  tail : s.istail = true
  recorded : ∀ q ∈ s.hist, q.checkResult = .newreq → q.key ∈ s.processedMap
  answered : ∀ q ∈ s.hist, q.checkResult = .newreq → ∀ req : Request, req.reqId = q.reqId →
    req.accountId = q.accountId → (s.answered req).checkResult ≠ .newreq
  waiting : ∀ q ∈ s.hist, x.Awaits q → q ∈ s.sentList

end Extension

namespace ChainServer

variable {s s' : ChainServer} {req : Request} {msg : Message} {e : Effect} {master : Address}

/-- Every update that was carried out is in one of the two stores. -/
structure Recorded (s : ChainServer) : Prop where
  accounts : ∀ q ∈ s.hist, q.checkResult = .newreq → q.accountId ∈ s.accountMap
  known : ∀ q ∈ s.hist, q.checkResult = .newreq → q.key ∈ s.processedMap ∨ q ∈ s.sentList
  sent : ∀ q ∈ s.sentList, q ∈ s.hist

namespace Recorded

/-- The server stores the update that it has answered. -/
lemma grown (h : Recorded s) (hist : s'.hist = s.hist ++ [s.answered req])
    (accounts : s'.accountMap = (s.accept.updateRequestReply (s.number req)).1.accountMap)
    (processed : ∀ k ∈ s.processedMap, k ∈ s'.processedMap) {l : List Request}
    (sent : s'.sentList = s.sentList ++ l) (hl : ∀ q ∈ l, q = s.answered req)
    (hnew : (s.answered req).checkResult = .newreq →
      (s.answered req).key ∈ s'.processedMap ∨ s.answered req ∈ l) : Recorded s' := by
  refine ⟨?_, ?_, ?_⟩
  · intro q hq hq'
    rw [hist, List.mem_append, List.mem_singleton] at hq
    rw [accounts, mem_accounts_updateRequestReply]
    rcases hq with hq | rfl
    · exact Or.inr (h.accounts q hq hq')
    · exact Or.inl answered_accountId
  · intro q hq hq'
    rw [hist, List.mem_append, List.mem_singleton] at hq
    rw [sent, List.mem_append]
    rcases hq with hq | rfl
    · exact (h.known q hq hq').imp (processed _) Or.inl
    · exact (hnew hq').imp id Or.inr
  · intro q hq
    rw [sent, List.mem_append] at hq
    rw [hist, List.mem_append, List.mem_singleton]
    exact hq.imp (h.sent q) (hl q)

/-- The server handles a request, whether it extends its chain or not. -/
lemma request (h : Recorded s) : Recorded (s.receiveRequest req).server := by
  have mono {q : Request} {k : String} (hk : k ∈ s.processedMap) : k ∈ (s.remember q).processedMap :=
    mem_remember.mpr (Or.inl hk)
  have stored (hnew : (s.answered req).checkResult = .newreq) :
      (s.answered req).key ∈ (s.remember (s.answered req)).processedMap :=
    mem_remember.mpr (Or.inr ⟨hnew, rfl⟩)
  have answer : Recorded (s.accept.answerUpdate (s.number req)).server := by
    cases hext : s.extendingChain with
    | true =>
      rw [answerUpdate_extending hext]
      apply @grown s (s.answeredExtending req) req h rfl rfl (fun k hk => mono hk)
        (s.extendingSent req) rfl ?_ fun hnew => Or.inl (stored hnew)
      intro q hq
      rw [extendingSent] at hq
      split_ifs at hq
      · exact (Request.mem_toForward.mp hq).1
      · exact List.mem_singleton.mp hq
    | false =>
      rw [answerUpdate_server req hext]
      exact h.grown rfl rfl (fun k hk => mono hk) rfl
        (fun q hq => (Request.mem_toForward.mp hq).1) fun hnew => Or.inl (stored hnew)
  have hcase := receiveRequest_cases s req
  generalize s.receiveRequest req = e at hcase ⊢
  cases hcase with
  | query type tail =>
    have haccounts : ∀ a ∈ s.accountMap, a ∈ (s.getBalance req.accountId).1.accountMap :=
      fun a ha => mem_accounts_getBalance ha _
    obtain ⟨m, hm⟩ := getBalance_eq s req.accountId
    simp only [handleQuery]
    rw [hm] at haccounts ⊢
    exact ⟨fun q hq hnew => haccounts _ (h.accounts q hq hnew), h.known, h.sent⟩
  | refused => exact h
  | duplicate => exact h
  | relayed =>
    rw [relayUpdate_server]
    exact h.grown rfl rfl (fun k hk => hk) rfl (fun q hq => List.mem_singleton.mp hq)
      fun _ => Or.inr (List.mem_singleton.mpr rfl)
  | single => exact answer
  | tail =>
    rw [tailHandleUpdate_server]
    exact answer

/-- The server moves updates to `processed_map_`, or removes what `processed_map_` has. -/
lemma moved (h : Recorded s) (hist : s'.hist = s.hist)
    (accounts : ∀ a ∈ s.accountMap, a ∈ s'.accountMap)
    (processed : ∀ k ∈ s.processedMap, k ∈ s'.processedMap)
    (sub : ∀ q ∈ s'.sentList, q ∈ s.sentList)
    (gone : ∀ q ∈ s.sentList, q.checkResult = .newreq → q.key ∈ s'.processedMap ∨ q ∈ s'.sentList) :
    Recorded s' := by
  refine ⟨?_, ?_, ?_⟩
  · intro q hq hnew
    rw [hist] at hq
    exact accounts _ (h.accounts q hq hnew)
  · intro q hq hnew
    rw [hist] at hq
    rcases h.known q hq hnew with hkey | hsent
    · exact Or.inl (processed _ hkey)
    · exact gone q hsent hnew
  · intro q hq
    rw [hist]
    exact h.sent q (sub q hq)

/-- The server handles any other message. -/
lemma other (h : Recorded s) (hstep : LogStep s msg e) (hreq : ∀ q, msg ≠ .request q)
    (hreply : ∀ rep, msg = .reply rep → ∀ t ∈ s.sentList, t.reqId = rep.reqId →
      t.destAccountId = rep.accountId → t.checkResult = .newreq → t.key ∈ s.processedMap) :
    Recorded e.server := by
  have same (hist : e.server.hist = s.hist) (sent : e.server.sentList = s.sentList)
      (processed : e.server.processedMap = s.processedMap) : Recorded e.server := by
    apply h.moved hist (fun a => hstep.accounts_mono) (by rw [processed]; exact fun k hk => hk)
    · rw [sent]
      exact fun q hq => hq
    · rw [sent]
      exact fun q hq _ => Or.inr hq
  have inserted {l : List Request} {k : String} (hk : k ∈ s.processedMap) :
      k ∈ (s.insertAllProcessed l).processedMap := mem_insertAllProcessed.mpr (Or.inl hk)
  cases hstep with
  | keep hist seq sent out ignored other accounts processed => exact same hist sent processed
  | resend hist seq sent succ out accounts processed => exact same hist sent processed
  | relay => exact absurd rfl (hreq _)
  | answer => exact absurd rfl (hreq _)
  | @ack a _ hist seq sent out accounts processed =>
    apply h.moved hist (by rw [accounts]; exact fun k hk => hk)
      (by rw [processed]; exact fun k hk => inserted hk)
    · rw [sent]
      exact fun q hq => (List.dropWhile_sublist _).subset hq
    · intro q hq _
      rw [processed, sent, mem_insertAllProcessed]
      rw [← List.takeWhile_append_dropWhile (p := fun it => decide (it.bankUpdateSeq ≤ a.bankUpdateSeq))
        (l := s.sentList), List.mem_append] at hq
      exact hq.imp (fun hq => Or.inr ⟨q, hq, rfl⟩) id
  | toBeTail hist seq sent out accounts processed =>
    apply h.moved hist (by rw [accounts]; exact fun k hk => hk)
      (by rw [processed]; exact fun k hk => inserted hk)
    · rw [sent]
      exact fun q hq => List.mem_of_mem_filter hq
    · intro q hq _
      rw [processed, sent, mem_insertAllProcessed]
      by_cases htype : q.type = .transfer
      · exact Or.inr (List.mem_filter.mpr ⟨hq, decide_eq_true htype⟩)
      · exact Or.inl (Or.inr ⟨q, List.mem_filter.mpr ⟨hq, decide_eq_true htype⟩, rfl⟩)
  | @reply rep _ hist seq sent out accounts processed =>
    apply h.moved hist (by rw [accounts]; exact fun k hk => hk) (by rw [processed]; exact fun k hk => hk)
    · rw [sent]
      exact fun q hq => List.mem_of_mem_filter hq
    · intro q hq hnew
      rw [processed, sent]
      by_cases hdone : q.reqId = rep.reqId ∧ q.destAccountId = rep.accountId
      · exact Or.inl (hreply rep rfl q hq hdone.1 hdone.2 hnew)
      · refine Or.inr (List.mem_filter.mpr ⟨hq, ?_⟩)
        simpa using not_and_or.mp hdone

end Recorded

end ChainServer

/-! ### The run -/

namespace Extension

open ChainServer

variable {s : ChainServer} {master addr : Address} {x y : Extension} {l : ExtensionLabel}
  {replied : List Reply}

lemma recorded_step (h : x.server.Recorded) (hok : x.SavesReplied l)
    (hstep : x.step master l = some y) : y.server.Recorded := by
  cases l with
  | handle msg =>
    simp only [step] at hstep
    split_ifs at hstep with hguard
    obtain rfl := Option.some.inj hstep
    by_cases hreq : ∃ q, msg = .request q
    · obtain ⟨q, rfl⟩ := hreq
      exact h.request
    · have hreq : ∀ q, msg ≠ .request q := fun q hq => hreq ⟨q, hq⟩
      apply h.other (handleMsg_logStep_other hguard.1 hreq) hreq
      rintro rep rfl
      exact hok
  | finish =>
    simp only [step] at hstep
    split_ifs at hstep
    obtain rfl := Option.some.inj hstep
    exact ⟨h.accounts, h.known, h.sent⟩
  | elsewhere rep =>
    obtain rfl := Option.some.inj hstep
    exact h

lemma recorded_of_reach (hsent : s.sentList = [])
    (hsaved : ∀ q ∈ s.hist, q.checkResult = .newreq →
      q.accountId ∈ s.accountMap ∧ q.key ∈ s.processedMap)
    (hrun : Machine.Reach (step master) SavesReplied (start s addr replied) x) :
    x.server.Recorded := by
  refine hrun.invariant (I := fun x => x.server.Recorded) ?_ fun _ _ _ h hok hs =>
    recorded_step h hok hs
  rw [start, receiveExtendServer_server hsent]
  refine ⟨fun q hq hnew => (hsaved q hq hnew).1, fun q hq hnew => Or.inl (hsaved q hq hnew).2, ?_⟩
  intro q hq
  have hq : q ∈ s.sentList := hq
  rw [hsent] at hq
  cases hq

end Extension

open Extension ChainServer in
/-- A tail that remembers all it has carried out extends its chain, and no reply takes the only record of
an update. When the extension is aborted, the server has forgotten nothing exactly if `sent_list_` held
nothing that it still needs. -/
theorem abort_forgets_nothing {s : ChainServer} {master addr : Address} {replied : List Reply}
    {x : Extension} (hsent : s.sentList = [])
    (hsaved : ∀ q ∈ s.hist, q.checkResult = .newreq →
      q.accountId ∈ s.accountMap ∧ q.key ∈ s.processedMap)
    (hrun : Machine.Reach (Extension.step master) SavesReplied (start s addr replied) x) :
    x.ForgetsNothing x.server.extendingServerFail.server ↔ x.Drained := by
  have hrecorded := recorded_of_reach hsent hsaved hrun
  constructor
  · intro h
    refine ⟨fun q hq hnew => h.recorded q (hrecorded.sent q hq) hnew, fun q hq hawaits => ?_⟩
    have hcleared : q ∈ ([] : List Request) := h.waiting q hq hawaits
    cases hcleared
  · intro h
    have hkey : ∀ q ∈ x.server.hist, q.checkResult = .newreq → q.key ∈ x.server.processedMap := by
      intro q hq hnew
      rcases hrecorded.known q hq hnew with hkey | hmem
      · exact hkey
      · exact h.recorded q hmem hnew
    refine ⟨rfl, hkey, ?_, fun q hq hawaits => absurd hawaits (h.confirmed q hq)⟩
    intro q hq hnew req hid hacc hagain
    have hmem : req.accountId ∈ x.server.accountMap := hacc ▸ hrecorded.accounts q hq hnew
    have hkey : req.key ∈ x.server.processedMap := by
      rw [Request.key, hid, hacc]
      exact hkey q hq hnew
    obtain ⟨it, hit⟩ := Option.isSome_iff_exists.mp (AList.lookup_isSome.mpr hkey)
    have hprecedent : x.server.extendingServerFail.server.precedent req = some it := by
      have hmem : req.accountId ∈ x.server.extendingServerFail.server.accountMap := hmem
      have hit : x.server.extendingServerFail.server.processedMap.lookup req.key = some it := hit
      rw [precedent, if_pos hmem, hit, Option.some_or]
    rw [answered_newreq, hprecedent] at hagain
    cases hagain

/-- In a chain without joins where no reply takes the only record of a transfer, a tail with an empty
`sent_list_` remembers all it has carried out. -/
theorem saved_of_reach {cfg : Config} {σ : System} {x : Address} (hrun : Machine.Reach System.step
    (fun σ l => System.NoJoin σ l ∧ SavedBeforeReply σ l) cfg.init σ)
    (hsent : (σ.server x).sentList = []) :
    ∀ q ∈ (σ.server x).hist, q.checkResult = .newreq →
      q.accountId ∈ (σ.server x).accountMap ∧ q.key ∈ (σ.server x).processedMap := by
  intro q hq hnew
  obtain ⟨hacc, hstore⟩ := (deduplicates_of_reach hrun x).known q hq hnew
  refine ⟨hacc, hstore.resolve_right ?_⟩
  rintro ⟨t, ht, -⟩
  rw [hsent] at ht
  cases ht

/-! ### Samples -/

section Sample

open Config Extension

/-- The tail of the first bank's chain has answered a deposit of 10 into the account `a`. -/
def abortRun : System :=
  twoBanks.after (fun σ l => System.NoJoin σ l ∧ SavedBeforeReply σ l)
    [request 1 (sampleDeposit "1" 10), hop 1 2, hop 2 3]

/-- It extends its chain. -/
def abortStart : Extension :=
  start (abortRun.server (localAddress 3)) (localAddress 4) []

lemma abortRun_reach : Machine.Reach System.step
    (fun σ l => System.NoJoin σ l ∧ SavedBeforeReply σ l) twoBanks.init abortRun :=
  reach_after (by decide +kernel)

/-- A deposit under the number `n`, as the server receives it. -/
def numberedDeposit (n : ℕ) (r : String) (amount : ℚ) : ExtensionLabel :=
  .handle (.request { sampleDeposit r amount with bankUpdateSeq := n })

/-- A transfer is confirmed before `FIN`, a deposit is relayed after it and acknowledged. -/
theorem abort_forgets_nothing_acknowledged :
    let x := Machine.after (Extension.step (localAddress 0)) SavesReplied abortStart
      [.handle (.request { sampleTransfer "2" 4 with bankUpdateSeq := 2 }),
        .handle (.reply { reqId := "2", accountId := "z" }), .finish, numberedDeposit 3 "3" 5,
        .handle (.acknowledge ⟨3⟩)]
    x.ForgetsNothing x.server.extendingServerFail.server ↔ x.Drained := by
  have hsent : (abortRun.server (localAddress 3)).sentList = [] := by decide +kernel
  exact abort_forgets_nothing hsent (saved_of_reach abortRun_reach hsent)
    (Machine.reach_after (by decide +kernel))

/-- A deposit is relayed after `FIN`, and the joining server dies before it acknowledges it. -/
theorem abort_forgets_deposit :
    ¬ ∀ σ, Machine.Reach System.step System.NoJoin twoBanks.init σ → ∀ x,
      (σ.server x).istail = true → (σ.server x).sentList = [] → ∀ addr replied ext,
        Machine.Reach (Extension.step σ.master.addr) (fun _ _ => True)
          (start (σ.server x) addr replied) ext →
        ext.ForgetsNothing ext.server.extendingServerFail.server := by
  intro hclaim
  let ext := Machine.after (Extension.step (localAddress 0)) (fun _ _ => True) abortStart
    [.finish, numberedDeposit 2 "2" 5]
  have hrun : Machine.Reach (Extension.step (localAddress 0)) (fun _ _ => True) abortStart ext :=
    Machine.reach_after (by decide +kernel)
  have hforgets := hclaim abortRun (abortRun_reach.mono fun _ _ h => h.1) (localAddress 3)
    (by decide +kernel) (by decide +kernel) (localAddress 4) [] ext hrun
  have hlost : ¬ ∀ q ∈ ext.server.extendingServerFail.server.hist, q.checkResult = .newreq →
      q.key ∈ ext.server.extendingServerFail.server.processedMap := by
    decide +kernel
  exact hlost hforgets.recorded

end Sample

end ChainReplication
