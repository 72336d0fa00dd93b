import ChainReplication.DistAlgo.Handoff
import ChainReplication.DistAlgo.Steps
import Mathlib.Data.List.Find
import Mathlib.Data.List.Induction

/-!
# The ledger of a bank in the DistAlgo implementation

What a bank does with its updates one after another when nothing is replicated. The accounts and histories of
a server are those of the ledger of the updates that it has taken up, and its replies those of the ledger.
-/

namespace ChainReplication.DistAlgo

variable {P : Type*} {req r : Request P} {a id : String}

/-- The reply to a request from one that was answered before under its id. -/
def Request.repeated (req found : Request P) (balance : ℚ) : Reply :=
  let reply : Reply := { reqId := req.reqId, type := req.type, accountId := req.accountId }
  if req.consistentWith found then { reply with outcome := found.reply.outcome, balance := found.reply.balance }
  else { reply with outcome := .inconsistentWithHistory, balance := balance }

/-- The balances, and the first update under each pair of account and request id with its reply. -/
structure Ledger (P : Type*) where
  balance : String → ℚ := fun _ => 0
  first : String → String → Option (Request P) := fun _ _ => none

namespace Ledger

/-- The reply to an update. -/
def reply (L : Ledger P) (req : Request P) : Reply :=
  match L.first req.accountId req.reqId with
  | some r => req.repeated r (L.balance req.accountId)
  | none => (req.answered (L.balance req.accountId)).reply

/-- The reply to a query. -/
def query (L : Ledger P) (req : Request P) : Reply where
  reqId := req.reqId
  type := req.type
  accountId := req.accountId
  balance := L.balance req.accountId
  outcome := .processed

/-- The first update under an id is carried out. -/
def update (L : Ledger P) (req : Request P) : Ledger P :=
  match L.first req.accountId req.reqId with
  | some _ => L
  | none =>
    { balance := Function.update L.balance req.accountId (req.settle (L.balance req.accountId)).2
      first := fun a id =>
        if req.isNamed a id then some (req.answered (L.balance req.accountId)) else L.first a id }

/-- The ledger after a list of updates. -/
def run (log : List (Request P)) : Ledger P := log.foldl update {}

variable {L : Ledger P}

@[simp] lemma run_nil : run ([] : List (Request P)) = {} := rfl

lemma run_append_singleton (log : List (Request P)) (req : Request P) :
    run (log ++ [req]) = (run log).update req := by
  rw [run, List.foldl_append]
  rfl

lemma update_of_some (h : L.first req.accountId req.reqId = some r) : L.update req = L := by
  rw [update, h]

lemma update_of_none (h : L.first req.accountId req.reqId = none) : L.update req =
    { balance := Function.update L.balance req.accountId (req.settle (L.balance req.accountId)).2
      first := fun a id =>
        if req.isNamed a id then some (req.answered (L.balance req.accountId)) else L.first a id } := by
  rw [update, h]

/-- The ledger does not depend on what servers note on a request. -/
lemma update_body : L.update req.body = L.update req := rfl

lemma reply_body : L.reply req.body = L.reply req := rfl

/-- A first update is never answered as one that contradicts an earlier one. -/
lemma first_outcome (log : List (Request P)) (h : (run log).first a id = some r) :
    r.reply.outcome ≠ .inconsistentWithHistory := by
  induction log using List.reverseRecOn with
  | nil => cases h
  | append_singleton log req ih =>
    rw [run_append_singleton] at h
    cases hfirst : (run log).first req.accountId req.reqId with
    | some r' =>
      rw [update_of_some hfirst] at h
      exact ih h
    | none =>
      rw [update_of_none hfirst] at h
      dsimp only at h
      split_ifs at h
      · obtain rfl := Option.some.inj h
        show (req.settle _).1 ≠ _
        rw [Request.settle]
        split_ifs <;> simp
      · exact ih h

end Ledger

namespace Server

variable {s t u : Server P} {accountOf : String → String} {waiting log : List (Request P)}

/-! ### One update -/

/-- With one account for each request id, what is found is what is kept. -/
lemma Sound.found_eq (h : s.Sound s.sent) (howned : s.SentOwned accountOf)
    (hreq : accountOf req.reqId = req.accountId) : s.found req = s.kept s.sent req.accountId req.reqId := by
  by_cases hmem : req.accountId ∈ s.accounts
  · rw [found, if_pos hmem, kept]
    congr 1
    refine List.find?_congr fun r hr => ?_
    have hacc := howned r hr
    rw [Request.isNamed, Bool.eq_iff_iff]
    simp only [decide_eq_true_eq, Bool.and_eq_true]
    constructor
    · exact fun hid => ⟨by rw [← hacc, ← hid, hreq], hid.symm⟩
    · exact fun hboth => hboth.2.symm
  · have hfound : s.found req = none := if_neg hmem
    rw [hfound, h.kept_of_found_none hfound]

/-- The reply to a request for which a first one is found. -/
lemma updateRequestReply_reply (h : s.found req = some r) (hr : r.reply.outcome ≠ .newReq)
    (hr' : r.reply.outcome ≠ .inconsistentWithHistory) :
    (s.updateRequestReply req).2.reply = req.repeated r (s.balance req.accountId) ∧
    (s.updateRequestReply req).2.isNew = false := by
  obtain ⟨-, -, hbalance, -, hreply⟩ := buildReplyFromHistory_spec s req
  rw [h, Option.map_some, Option.getD_some, replyFrom] at hreply
  rw [updateRequestReply, Request.repeated]
  by_cases hconsistent : req.consistentWith r = true
  · rw [if_pos hconsistent] at hreply
    have houtcome : (s.buildReplyFromHistory req).2.outcome = r.reply.outcome := by rw [hreply]
    rw [houtcome, if_neg hr, if_neg hr', if_pos hconsistent, hreply]
    exact ⟨rfl, rfl⟩
  · rw [if_neg hconsistent] at hreply
    have houtcome : (s.buildReplyFromHistory req).2.outcome = .inconsistentWithHistory := by rw [hreply]
    rw [houtcome, if_neg (by decide), if_pos rfl, if_neg hconsistent, hreply, getBalance,
      getOrCreateAccount_account, hbalance]
    exact ⟨rfl, rfl⟩

/-- The server has the books of the ledger. -/
structure Booked (s : Server P) (waiting : List (Request P)) (L : Ledger P) : Prop where
  balance : ∀ a, s.balance a = L.balance a
  kept : ∀ a id, s.kept waiting a id = L.first a id

namespace Booked

variable {L : Ledger P}

/-- A request adds to the books of the server what it adds to the ledger, and its reply is that of the ledger. -/
lemma updateRequestReply (h : Booked s s.sent L) (hs : s.Sound s.sent) (howned : s.SentOwned accountOf)
    (hreq : accountOf req.reqId = req.accountId)
    (hfirst : ∀ a id r, L.first a id = some r → r.reply.outcome ≠ .inconsistentWithHistory) :
    (s.updateRequestReply req).2.reply = L.reply req ∧
    Booked (s.updateRequestReply req).1 (s.sent ++ [(s.updateRequestReply req).2]) (L.update req) ∧
    ((s.updateRequestReply req).2.isNew = false → Booked (s.updateRequestReply req).1 s.sent (L.update req)) := by
  have hfound := (hs.found_eq howned hreq).trans (h.kept req.accountId req.reqId)
  cases hcase : s.found req with
  | none =>
    have hnone : L.first req.accountId req.reqId = none := hfound.symm.trans hcase
    obtain ⟨hkeeps, -, heq, -, hbalance⟩ := updateRequestReply_new hcase
    rw [h.balance] at heq hbalance
    rw [heq]
    refine ⟨?_, ⟨fun b => ?_, fun a id => ?_⟩, fun hnew => ?_⟩
    · rw [Ledger.reply, hnone]
    · rw [hbalance, Ledger.update_of_none hnone, h.balance]
      exact (Function.update_apply ..).symm
    · rw [kept_append, hkeeps.kept, h.kept, Ledger.update_of_none hnone]
      have hsame : (req.answered (L.balance req.accountId)).isNamed a id = req.isNamed a id := rfl
      rw [hsame]
      dsimp only
      split_ifs with hnamed
      · obtain ⟨rfl, rfl⟩ := isNamed_iff.mp hnamed
        rw [hnone, Option.none_or]
      · exact Option.or_none
    · cases hnew
  | some r =>
    have hsome : L.first req.accountId req.reqId = some r := hfound.symm.trans hcase
    have hanswered := hs.found_answered hcase
    obtain ⟨hkeeps, -, ⟨reply, -, heq⟩, -, hbalance⟩ := updateRequestReply_found hcase hanswered
    obtain ⟨hreply, -⟩ := updateRequestReply_reply hcase hanswered (hfirst _ _ r hsome)
    rw [Ledger.update_of_some hsome]
    have hkept (a id : String) : (s.updateRequestReply req).1.kept s.sent a id = L.first a id :=
      hkeeps.kept.trans (h.kept a id)
    refine ⟨?_, ⟨fun b => (hbalance b).trans (h.balance b), fun a id => ?_⟩,
      fun _ => ⟨fun b => (hbalance b).trans (h.balance b), hkept⟩⟩
    · rw [hreply, Ledger.reply, hsome, h.balance]
    · rw [kept_append, hkept, heq]
      have hsame : ({ req with isNew := false, reply := reply } : Request P).isNamed a id = req.isNamed a id := rfl
      rw [hsame]
      split_ifs with hnamed
      · obtain ⟨rfl, rfl⟩ := isNamed_iff.mp hnamed
        rw [hsome, Option.some_or]
      · exact Option.or_none

/-- A query is answered from the ledger. -/
lemma handleQuery {out : List (P × Msg P)} (h : Booked s waiting L) (hquery : s.handleQuery req = some (t, out)) :
    ∃ c ∈ req.client, out = [(c, .reply (L.query req))] := by
  rw [Server.handleQuery] at hquery
  obtain ⟨replies, hreplies, heq⟩ := Option.bind_eq_some_iff.mp hquery
  obtain ⟨-, rfl⟩ := Prod.mk.inj (Option.some.inj heq)
  obtain ⟨c, hc, rfl⟩ := replyToClient_eq hreplies
  refine ⟨c, hc, ?_⟩
  rw [Ledger.query, ← h.balance]
  simp only [getBalance, getOrCreateAccount_account]

end Booked

/-- Accounts, histories and sent list are those of the ledger of a list of updates. -/
structure Bookkept (accountOf : String → String) (s : Server P) (log : List (Request P)) : Prop where
  sound : s.Sound s.sent
  owned : s.SentOwned accountOf
  booked : Booked s s.sent (Ledger.run log)

namespace Bookkept

/-- Only accounts, histories and the sent list count. -/
lemma congr (h : Bookkept accountOf s log) (haccounts : t.accounts = s.accounts)
    (hprocessed : t.processed = s.processed) (hsent : t.sent = s.sent) : Bookkept accountOf t log := by
  have hbalance (a : String) : t.balance a = s.balance a := by rw [balance, haccounts, balance]
  have hstored (a id : String) : t.stored a id = s.stored a id := by rw [stored, hprocessed, stored]
  refine ⟨?_, ?_, ⟨fun a => (hbalance a).trans (h.booked.balance a), fun a id => ?_⟩⟩
  · rw [hsent]
    exact h.sound.congr haccounts hprocessed
  · rw [SentOwned, hsent]
    exact h.owned
  · rw [hsent, kept, hstored]
    exact h.booked.kept a id

/-- A query, or whatever changes accounts alone. -/
lemma keeps (h : Bookkept accountOf s log) (hkeeps : Keeps s t) (hbalance : ∀ b, t.balance b = s.balance b) :
    Bookkept accountOf t log := by
  refine ⟨hkeeps.sent ▸ h.sound.keeps hkeeps, ?_, ⟨fun a => (hbalance a).trans (h.booked.balance a), fun a id => ?_⟩⟩
  · rw [SentOwned, hkeeps.sent]
    exact h.owned
  · rw [hkeeps.sent, hkeeps.kept]
    exact h.booked.kept a id

variable (h : Bookkept accountOf s log) (hreq : accountOf req.reqId = req.accountId)
include h hreq

/-- What a head or an internal server does with an update. -/
lemma passOn : Bookkept accountOf (s.passOn req).1 (log ++ [req.body]) := by
  obtain ⟨-, hbooked, -⟩ := h.booked.updateRequestReply h.sound h.owned hreq fun _ _ _ => Ledger.first_outcome log
  have hcase := h.sound.update_cases req
  have hsent : (s.passOn req).1.sent = s.sent ++ [(s.updateRequestReply req).2] := by
    show (s.updateRequestReply req).1.sent ++ _ = _
    rw [hcase.keeps.sent]
  refine ⟨?_, ?_, ?_⟩
  · rw [hsent]
    exact (hcase.sound h.sound).congr rfl rfl
  · rw [SentOwned, hsent]
    refine List.forall_mem_append.mpr ⟨h.owned, List.forall_mem_singleton.mpr ?_⟩
    rw [hcase.reqId, hcase.accountId, hreq]
  · rw [hsent, Ledger.run_append_singleton, Ledger.update_body]
    exact ⟨hbooked.balance, hbooked.kept⟩

/-- What a tail does with an update. -/
lemma complete (hext : s.extendingChain = false) (hsent : s.sent = []) :
    Bookkept accountOf (s.complete req).1 (log ++ [req.body]) ∧
    (s.complete req).2.reply = (Ledger.run log).reply req := by
  obtain ⟨hreply, hbooked, hold⟩ :=
    h.booked.updateRequestReply h.sound h.owned hreq fun _ _ _ => Ledger.first_outcome log
  have hcase := h.sound.update_cases req
  have hsound := hcase.sound h.sound
  refine ⟨?_, hreply⟩
  rw [hsent] at hbooked hold hsound
  have hext' : (s.updateRequestReply req).1.extendingChain = false := by
    rw [hcase.keeps.frame]
    exact hext
  have heq : (s.complete req).1 = { (if (s.updateRequestReply req).2.isNew then
      (s.updateRequestReply req).1.insertProcessedList (s.updateRequestReply req).2 else
      (s.updateRequestReply req).1) with sent := [] } := by
    show (s.updateRequestReply req).1.keepAnswered (s.updateRequestReply req).2 = _
    rw [keepAnswered_eq, hext', hcase.keeps.sent, hsent]
    rfl
  rw [← Ledger.update_body, ← Ledger.run_append_singleton] at hbooked hold
  rw [heq]
  refine ⟨?_, List.forall_mem_nil _, ?_⟩
  · split_ifs
    · exact hsound.insertProcessedList.congr rfl rfl
    · exact (hsound.mono (List.nil_subset _)).congr rfl rfl
  · split_ifs with hnew
    · exact ⟨hbooked.balance, fun a id => (kept_insertProcessedList _ []).trans (hbooked.kept a id)⟩
    · have hbooked := hold (by simpa using hnew)
      exact ⟨hbooked.balance, hbooked.kept⟩

omit hreq in
/-- A request adds its update to the books, and its reply is that of the ledger. -/
lemma processReq {src : P} {acks : List (P × Msg P)} (hext : s.extendingChain = false)
    (hsent : s.isTail = true → s.sent = []) (hreq : req.type ≠ .query → accountOf req.reqId = req.accountId)
    (hhandle : s.processReq req src = some (t, acks)) :
    Bookkept accountOf t (log ++ (s.takenUp src (.msg (.request req))).toList) ∧
    ∀ c rep, (c, .reply rep) ∈ acks → s.isTail = true ∧
      (s.takenUp src (.msg (.request req)) = none ∧ req.type = .query ∧ rep = (Ledger.run log).query req ∨
        ∃ r, s.takenUp src (.msg (.request req)) = some r ∧ rep = (Ledger.run log).reply r) := by
  have hnumbered (n : ℤ) : Bookkept accountOf { s with bankUpdateSeq := n } log := h.congr rfl rfl rfl
  have hpass {r : Request P} {n : ℤ} (htaken : s.takenUp src (.msg (.request req)) = some r.body)
      (hr : accountOf r.reqId = r.accountId)
      (hhandle : { s with bankUpdateSeq := n }.headHandleRequest r = some (t, acks)) :
      Bookkept accountOf t (log ++ (s.takenUp src (.msg (.request req))).toList) ∧
      ∀ c rep, (c, .reply rep) ∉ acks := by
    obtain ⟨out, hout, heq⟩ := Option.bind_eq_some_iff.mp hhandle
    obtain ⟨rfl, rfl⟩ := Prod.mk.inj (Option.some.inj heq)
    obtain ⟨y, -, heq⟩ := Option.bind_eq_some_iff.mp hout
    obtain rfl := Option.some.inj heq
    rw [htaken]
    exact ⟨(hnumbered n).passOn hr, fun c rep hmem => by simp at hmem⟩
  have hcomplete (r : Request P) (hr : accountOf r.reqId = r.accountId) (htail : s.isTail = true) :=
    (hnumbered r.bankUpdateSeq).complete hr hext (hsent htail)
  rw [Server.processReq] at hhandle
  split_ifs at hhandle with htype htail hrelay hsingle hold hnext
  · obtain ⟨c', -, rfl⟩ := h.booked.handleQuery hhandle
    rw [handleQuery_state hhandle]
    obtain ⟨hkeeps, -, hbalance⟩ := getBalance_spec (s := s) (a := req.accountId)
    have hnone : s.takenUp src (.msg (.request req)) = none := by rw [takenUp, if_pos htype]
    rw [hnone, Option.toList_none, List.append_nil]
    refine ⟨h.keeps hkeeps hbalance, fun c rep hmem => ⟨htail, Or.inl ⟨rfl, htype, ?_⟩⟩⟩
    exact Msg.reply.inj (Prod.mk.inj (List.mem_singleton.mp hmem)).2
  · obtain ⟨hhead, -⟩ : s.isHead = true ∧ s.isTail = false := by simpa using hrelay
    obtain ⟨hbook, hreplies⟩ := hpass (takenUp_of_head htype hhead) (hreq htype) hhandle
    exact ⟨hbook, fun c rep hmem => absurd hmem (hreplies c rep)⟩
  · obtain ⟨hhead, htail⟩ : s.isHead = true ∧ s.isTail = true := by simpa using hsingle
    obtain ⟨out, hout, heq⟩ := Option.bind_eq_some_iff.mp hhandle
    obtain ⟨rfl, rfl⟩ := Prod.mk.inj (Option.some.inj heq)
    obtain ⟨c', -, rfl⟩ := replyToClient_eq hout
    obtain ⟨hbook, hreply⟩ :=
      hcomplete { req with bankUpdateSeq := s.bankUpdateSeq + 1, client := some src } (hreq htype) htail
    rw [takenUp_of_head htype hhead]
    refine ⟨hbook, fun c rep hmem => ⟨htail, Or.inr ⟨_, rfl, ?_⟩⟩⟩
    obtain ⟨-, hrep⟩ := Prod.mk.inj (List.mem_singleton.mp hmem)
    rw [Msg.reply.inj hrep, hreply, Ledger.reply_body]
  · obtain ⟨rfl, rfl⟩ := Prod.mk.inj (Option.some.inj hhandle)
    have hhead : s.isHead = false := by grind
    have hnone : s.takenUp src (.msg (.request req)) = none := by
      rw [takenUp, if_neg htype, if_neg (by simp [hhead]), if_neg (by omega)]
    rw [hnone, Option.toList_none, List.append_nil]
    exact ⟨h, fun c rep hmem => by cases hmem⟩
  · have hhead : s.isHead = false := by grind
    have htaken : s.takenUp src (.msg (.request req)) = some req.body := takenUp_of_next htype hhead hnext
    dsimp only at hhandle
    split_ifs at hhandle with htail
    · obtain ⟨replies, hreplies, hhandle⟩ := Option.bind_eq_some_iff.mp hhandle
      obtain ⟨ack, hack, heq⟩ := Option.bind_eq_some_iff.mp hhandle
      obtain ⟨rfl, rfl⟩ := Prod.mk.inj (Option.some.inj heq)
      obtain ⟨q, -, rfl⟩ := sendAck_eq hack
      obtain ⟨hbook, hreply⟩ := hcomplete req (hreq htype) htail
      rw [htaken]
      refine ⟨hbook, fun c rep hmem => ⟨htail, Or.inr ⟨_, rfl, ?_⟩⟩⟩
      rcases List.mem_append.mp hmem with hmem | hmem
      · split_ifs at hreplies
        · obtain rfl := Option.some.inj hreplies
          cases hmem
        · obtain ⟨c', -, rfl⟩ := replyToClient_eq hreplies
          obtain ⟨-, hrep⟩ := Prod.mk.inj (List.mem_singleton.mp hmem)
          rw [Msg.reply.inj hrep, hreply, Ledger.reply_body]
      · simp at hmem
    · obtain ⟨hbook, hreplies⟩ := hpass htaken (hreq htype) hhandle
      exact ⟨hbook, fun c rep hmem => absurd hmem (hreplies c rep)⟩

omit hreq in
/-- Every message adds to the books what the server takes up. -/
lemma handle {src : P} {m : Mail P} {out : List (P × Mail P)} (hext : s.extendingChain = false)
    (hsent : s.isTail = true → s.sent = [])
    (hreq : ∀ req, m = .msg (.request req) → req.type ≠ .query → accountOf req.reqId = req.accountId)
    (hhandle : s.handle src m = some (t, out)) :
    Bookkept accountOf t (log ++ (s.takenUp src m).toList) ∧
    ∀ c rep, (c, .msg (.reply rep)) ∈ out → s.isTail = true ∧
      ((∃ req, s.takenUp src m = none ∧ req.type = .query ∧ rep = (Ledger.run log).query req) ∨
        ∃ r, s.takenUp src m = some r ∧ rep = (Ledger.run log).reply r) := by
  have hquiet (hbook : Bookkept accountOf t log) (hnone : s.takenUp src m = none)
      (hout : ∀ a ∈ out, ∀ rep, a.2 ≠ .msg (.reply rep)) :
      Bookkept accountOf t (log ++ (s.takenUp src m).toList) ∧
      ∀ c rep, (c, .msg (.reply rep)) ∈ out → s.isTail = true ∧
        ((∃ req, s.takenUp src m = none ∧ req.type = .query ∧ rep = (Ledger.run log).query req) ∨
          ∃ r, s.takenUp src m = some r ∧ rep = (Ledger.run log).reply r) := by
    rw [hnone, Option.toList_none, List.append_nil]
    exact ⟨hbook, fun c rep hmem => absurd rfl (hout _ hmem rep)⟩
  have hidle (hnone : s.takenUp src m = none) (hhandle : some (s, []) = some (t, out)) :
      Bookkept accountOf t (log ++ (s.takenUp src m).toList) ∧
      ∀ c rep, (c, .msg (.reply rep)) ∈ out → s.isTail = true ∧
        ((∃ req, s.takenUp src m = none ∧ req.type = .query ∧ rep = (Ledger.run log).query req) ∨
          ∃ r, s.takenUp src m = some r ∧ rep = (Ledger.run log).reply r) := by
    obtain ⟨rfl, rfl⟩ := Prod.mk.inj (Option.some.inj hhandle)
    exact hquiet h hnone (List.forall_mem_nil _)
  have hinsert (s : Server P) (r : Request P) (l : List (Request P))
      (hbook : s.Sound (r :: l) ∧ Booked s (r :: l) (Ledger.run log)) :
      (s.insertProcessedList r).Sound l ∧ Booked (s.insertProcessedList r) l (Ledger.run log) :=
    ⟨hbook.1.insertProcessedList, hbook.2.balance,
      fun a id => (kept_insertProcessedList r l).trans (hbook.2.kept a id)⟩
  have hrest (s : Server P) (l : List (Request P)) (hbook : s.Sound l ∧ Booked s l (Ledger.run log)) :
      Sound { s with sent := l } l ∧ Booked { s with sent := l } l (Ledger.run log) :=
    ⟨hbook.1.congr rfl rfl, hbook.2.balance, hbook.2.kept⟩
  have hacks {reqs : List (Request P)} (hout : ∀ a ∈ out, s.Acks reqs a) (a : P × Mail P) (ha : a ∈ out)
      (rep : Reply) : a.2 ≠ .msg (.reply rep) := by
    obtain ⟨-, q, -, r, -, rfl⟩ := hout a ha
    simp
  cases m with
  | ackNewPrevServer id n => exact hidle rfl hhandle
  | msg msg =>
    cases msg with
    | request req =>
      obtain ⟨acks, hu, rfl⟩ := posted_eq hhandle
      obtain ⟨hbook, hreplies⟩ := h.processReq hext hsent (hreq req rfl) hu
      refine ⟨hbook, fun c rep hmem => ?_⟩
      obtain ⟨⟨c', msg⟩, hack, heq⟩ := List.mem_map.mp hmem
      obtain ⟨rfl, hmsg⟩ := Prod.mk.inj heq
      obtain rfl := Mail.msg.inj hmsg
      exact (hreplies _ rep hack).imp_right (Or.imp_left fun hquery => ⟨req, hquery⟩)
    | ack n id =>
      obtain ⟨acks, hu, rfl⟩ := posted_eq hhandle
      obtain ⟨out, hout, heq⟩ := Option.bind_eq_some_iff.mp hu
      obtain ⟨rfl, rfl⟩ := Prod.mk.inj (Option.some.inj heq)
      obtain ⟨moved, sent, processed, hsplit, -, hmoved, hlast⟩ := moveAcked_split n s.sent s none
      have hrule := moveAcked_rule (Q := fun s l => s.Sound l ∧ Booked s l (Ledger.run log)) hinsert hrest n
        s.sent none ⟨h.sound, h.booked⟩
      refine hquiet ⟨hrule.1, ?_, hrule.2⟩ rfl ?_
      · rw [hmoved]
        exact fun r hr => h.owned r (hsplit ▸ List.mem_append_right _ hr)
      · rw [hmoved] at hout
        exact hacks (passAck_acks hout fun r hr => (hlast r hr).resolve_right (by simp))
    | _ => exact hidle rfl hhandle
  | notice notice =>
    cases notice with
    | toBeTail =>
      obtain ⟨acks, hu, rfl⟩ := posted_eq hhandle
      obtain ⟨out, hout, heq⟩ := Option.bind_eq_some_iff.mp hu
      obtain ⟨rfl, rfl⟩ := Prod.mk.inj (Option.some.inj heq)
      obtain ⟨processed, hfold⟩ := foldl_insertProcessedList_frame s.sent { s with isTail := true }
      have hrule := foldl_insertProcessedList_rule (s := { s with isTail := true })
        (Q := fun s l => s.Sound l ∧ Booked s l (Ledger.run log)) hinsert s.sent
        ⟨h.sound.congr rfl rfl, ⟨h.booked.balance, h.booked.kept⟩⟩
      refine hquiet ⟨hrule.1.congr rfl rfl, List.forall_mem_nil _, ⟨hrule.2.balance, hrule.2.kept⟩⟩ rfl ?_
      rw [hfold] at hout
      exact hacks (passAck_acks hout fun r hr => List.mem_of_getLast? hr)
    | toBeHead =>
      obtain ⟨rfl, rfl⟩ := Prod.mk.inj (Option.some.inj hhandle)
      exact hquiet (h.congr rfl rfl rfl) rfl (List.forall_mem_nil _)
    | newPrevServer p =>
      obtain ⟨rfl, rfl⟩ := Prod.mk.inj (Option.some.inj hhandle)
      exact hquiet (h.congr rfl rfl rfl) rfl (List.forall_mem_singleton.mpr fun _ => by simp)
    | newSuccServer y n =>
      obtain ⟨rfl, rfl⟩ := Prod.mk.inj (Option.some.inj hhandle)
      exact hquiet (h.congr rfl rfl rfl) rfl (List.forall_mem_map.mpr fun _ _ _ => by simp)
    | _ => exact hidle rfl hhandle

end Bookkept

end Server

end ChainReplication.DistAlgo
