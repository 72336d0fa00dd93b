import ChainReplication.Server.Dedup
import ChainReplication.Library.Separator
import Mathlib.Data.List.Find

/-!
# A server as a replica of the reference bank

`check_update_request` decides from the part of the history in `processed_map_` and the part in
`sent_list_`. When a request id belongs to one account and account ids have no `_`, the two parts
together hold the first request under each id, however the acknowledgements have split them, so the
decision is that of the reference bank.
-/

namespace ChainReplication

/-- The request id belongs to one account, whose id has no `_`. -/
def Request.Assigned (owner : String → String) (req : Request) : Prop :=
  req.accountId = owner req.reqId ∧ '_' ∉ req.accountId.toList

instance (owner : String → String) (req : Request) : Decidable (req.Assigned owner) :=
  inferInstanceAs (Decidable (_ ∧ _))

lemma Request.key_eq_iff {q : Request} (hq : '_' ∉ q.accountId.toList) {r a : String}
    (ha : '_' ∉ a.toList) : q.key = r ++ "_" ++ a ↔ q.reqId = r ∧ q.accountId = a :=
  String.append_sep_inj rfl hq ha

namespace ChainServer

variable {owner : String → String} {s : ChainServer} {req q : Request} {r a : String}
  {msg : Message} {e : Effect}

/-- The request that the server remembers under an id for an account. -/
def recalled (s : ChainServer) (reqId accountId : String) : Option Request :=
  (s.processedMap.lookup (reqId ++ "_" ++ accountId)).or
    (s.sentList.find? fun it => it.reqId = reqId ∧ it.accountId = accountId)

/-- The balances, the answers and the first requests are those of the reference bank after the
updates of the history. -/
structure Agrees (s : ChainServer) : Prop where
  balance : ∀ a, s.balance a = (Bank.run s.bodies).balance a
  log : s.hist = (Bank.run s.bodies).log
  first : ∀ r a, '_' ∉ a.toList → s.recalled r a = (Bank.run s.bodies).first (r, a)

/-- What the agreement rests on, for a history of assigned requests without transfers. -/
structure Follows (owner : String → String) (s : ChainServer) : Prop extends Agrees s where
  assigned : ∀ q ∈ s.hist, q.Assigned owner ∧ q.type ≠ .transfer
  settled : s.istail = true → s.sentList = []
  accounts : ∀ q ∈ s.hist, q.accountId ∈ s.accountMap
  stored : ∀ k it, s.processedMap.lookup k = some it → it ∈ s.hist ∧ it.key = k

/-! ### The decision -/

/-- The precedent of an assigned request is the request remembered under its id. -/
lemma Follows.precedent_eq (h : Follows owner s) (hlog : s.LogWf) (hreq : req.Assigned owner) :
    s.precedent req = s.recalled req.reqId req.accountId := by
  have hfind : (s.sentList.find? fun it => req.reqId = it.reqId) =
      s.sentList.find? fun it => it.reqId = req.reqId ∧ it.accountId = req.accountId := by
    apply List.find?_congr
    intro it hit
    have hacc := (h.assigned it (hlog.mem_hist hit)).1.1
    rw [decide_eq_decide]
    constructor
    · intro hid
      exact ⟨hid.symm, by rw [hacc, hreq.1, hid]⟩
    · exact fun hid => hid.1.symm
  by_cases hmem : req.accountId ∈ s.accountMap
  · rw [precedent, if_pos hmem, hfind]
    rfl
  · rw [precedent, if_neg hmem, eq_comm, recalled, Option.or_eq_none_iff]
    constructor
    · by_contra hne
      obtain ⟨it, hit⟩ := Option.ne_none_iff_exists'.mp hne
      obtain ⟨hhist, hkey⟩ := h.stored _ it hit
      have hacc := ((Request.key_eq_iff (h.assigned it hhist).1.2 hreq.2).mp hkey).2
      exact hmem (hacc ▸ h.accounts it hhist)
    · rw [List.find?_eq_none]
      intro it hit heq
      have hacc := (of_decide_eq_true heq).2
      exact hmem (hacc ▸ h.accounts it (hlog.mem_hist hit))

/-- A server answers an assigned request as the reference bank does. -/
lemma Follows.answered_eq (h : Follows owner s) (hlog : s.LogWf) (hreq : req.Assigned owner) :
    s.answered req = (Bank.run s.bodies).answer (s.number req) := by
  have hfirst := h.first req.reqId req.accountId hreq.2
  have hprecedent : s.accept.precedent (s.number req) =
      (Bank.run s.bodies).first ((s.number req).reqId, (s.number req).accountId) :=
    (h.precedent_eq hlog hreq).trans hfirst
  have hbalance : s.accept.balance (s.number req).accountId =
      (Bank.run s.bodies).balance req.accountId := h.balance req.accountId
  rw [answered]
  cases hit : (Bank.run s.bodies).first ((s.number req).reqId, (s.number req).accountId) with
  | some it =>
    rw [updateRequestReply_of_precedent (hprecedent.trans hit), hbalance]
    exact (Bank.answer_of_first hit).symm
  | none =>
    rw [(updateRequestReply_of_none (hprecedent.trans hit)).1, hbalance]
    exact (Bank.answer_of_none hit).symm

/-! ### The stores -/

/-- Moving the front of `sent_list_` to `processed_map_` loses nothing. -/
lemma recalled_moved {s' : ChainServer} {l l' : List Request} (hsent : s.sentList = l ++ l')
    (hs' : s'.sentList = l') (hprocessed : s'.processedMap = (s.insertAllProcessed l).processedMap)
    (hl : ∀ q ∈ l, '_' ∉ q.accountId.toList) (ha : '_' ∉ a.toList) :
    s'.recalled r a = s.recalled r a := by
  have hfind : (l.find? fun it => it.key = r ++ "_" ++ a) =
      l.find? fun it => it.reqId = r ∧ it.accountId = a := by
    apply List.find?_congr
    intro it hit
    rw [decide_eq_decide]
    exact Request.key_eq_iff (hl it hit) ha
  rw [recalled, recalled, hs', hprocessed, lookup_insertAllProcessed, hsent, List.find?_append,
    hfind, Option.or_assoc]

/-- What is remembered once the server has accepted the request `q`. -/
lemma recalled_sent {s' : ChainServer} (hsent : s'.sentList = s.sentList ++ [q])
    (hprocessed : s'.processedMap = s.processedMap) : s'.recalled r a =
      (s.recalled r a).or (if q.reqId = r ∧ q.accountId = a then some q else none) := by
  rw [recalled, recalled, hsent, hprocessed, List.find?_append, Option.or_assoc]
  congr 2
  rw [List.find?_singleton]
  simp only [decide_eq_true_eq]

lemma recalled_stored {s' : ChainServer} (hsent : s'.sentList = [])
    (hempty : s.sentList = []) (hprocessed : s'.processedMap = (s.remember q).processedMap)
    (hq : '_' ∉ q.accountId.toList) (ha : '_' ∉ a.toList)
    (hnew : q.checkResult ≠ .newreq → (s.recalled q.reqId q.accountId).isSome) :
    s'.recalled r a =
      (s.recalled r a).or (if q.reqId = r ∧ q.accountId = a then some q else none) := by
  simp only [recalled, hsent, hempty, List.find?_nil, Option.or_none] at hnew ⊢
  rw [hprocessed, remember]
  by_cases hcheck : q.checkResult = .newreq
  · rw [if_pos hcheck, lookup_insertProcessedList]
    simp only [Request.key_eq_iff hq ha]
  · rw [if_neg hcheck]
    split_ifs with hids
    · obtain ⟨rfl, rfl⟩ := hids
      obtain ⟨it, hit⟩ := Option.isSome_iff_exists.mp (hnew hcheck)
      rw [hit]
      rfl
    · rw [Option.or_none]

/-! ### The steps -/

/-- A step that leaves the history alone. -/
lemma Agrees.frame (h : s.Agrees) {s' : ChainServer} (hist : s'.hist = s.hist)
    (balance : s'.balance = s.balance)
    (recalled : ∀ r a, '_' ∉ a.toList → s'.recalled r a = s.recalled r a) : s'.Agrees := by
  have hbodies : s'.bodies = s.bodies := by rw [bodies, hist, bodies]
  refine ⟨?_, ?_, ?_⟩
  · intro a
    rw [balance, hbodies]
    exact h.balance a
  · rw [hist, hbodies]
    exact h.log
  · intro r a ha
    rw [recalled r a ha, hbodies]
    exact h.first r a ha

/-- A step that accepts a request. -/
lemma Follows.grown (h : s.Follows owner) (hlog : s.LogWf) (hreq : req.Assigned owner)
    {s' : ChainServer} (hist : s'.hist = s.hist ++ [s.answered req])
    (accounts : s'.accountMap = (s.accept.updateRequestReply (s.number req)).1.accountMap)
    (recalled : ∀ r a, '_' ∉ a.toList → s'.recalled r a = (s.recalled r a).or
      (if req.reqId = r ∧ req.accountId = a then some (s.answered req) else none)) :
    s'.Agrees := by
  have hanswer := h.answered_eq hlog hreq
  have hbodies : s'.bodies = s.bodies ++ [(s.number req).body] := by
    rw [bodies, hist, List.map_append, List.map_singleton, answered_body]
    rfl
  have hrun : Bank.run s'.bodies = (Bank.run s.bodies).update (s.number req) := by
    rw [hbodies, Bank.run_append_singleton]
    rfl
  refine ⟨?_, ?_, ?_⟩
  · intro a
    have hbalance : s.accept.balance = (Bank.run s.bodies).balance := funext h.balance
    rw [balance_congr accounts, balance_updateRequestReply, hrun, Bank.update, ← hanswer, hbalance]
    rfl
  · rw [hrun, hist, hanswer, Bank.update, ← h.log]
  · intro r a ha
    rw [recalled r a ha, hrun, Bank.first_update, ← hanswer, h.first r a ha]
    rfl

namespace Follows

variable (h : s.Follows owner)
include h

/-- A step after which the history is the same. -/
lemma same (hlog : s.LogWf) (hstep : LogStep s msg e) (hist : e.server.hist = s.hist)
    (hagrees : e.server.Agrees) (hsettled : e.server.istail = true → e.server.sentList = []) :
    e.server.Follows owner := by
  refine ⟨hagrees, ?_, hsettled, ?_, hstep.stored hlog h.stored⟩
  · rw [hist]
    exact h.assigned
  · rw [hist]
    exact fun q hq => hstep.accounts_mono (h.accounts q hq)

/-- A step that takes up an assigned request. -/
lemma take (hlog : s.LogWf) (hstep : LogStep s msg e) (hreq : req.Assigned owner)
    (hplain : req.type ≠ .transfer) (hist : e.server.hist = s.hist ++ [s.answered req])
    (accounts : e.server.accountMap = (s.accept.updateRequestReply (s.number req)).1.accountMap)
    (recalled : ∀ r a, '_' ∉ a.toList → e.server.recalled r a = (s.recalled r a).or
      (if req.reqId = r ∧ req.accountId = a then some (s.answered req) else none))
    (hsettled : e.server.istail = true → e.server.sentList = []) : e.server.Follows owner := by
  refine ⟨h.grown hlog hreq hist accounts recalled, ?_, hsettled, ?_, hstep.stored hlog h.stored⟩
  · intro q hq
    rw [hist, List.mem_append, List.mem_singleton] at hq
    rcases hq with hq | rfl
    · exact h.assigned q hq
    · rw [Request.Assigned, answered_reqId, answered_accountId, answered_type]
      exact ⟨hreq, hplain⟩
  · intro q hq
    rw [hist, List.mem_append, List.mem_singleton] at hq
    rcases hq with hq | rfl
    · exact hstep.accounts_mono (h.accounts q hq)
    · rw [answered_accountId, accounts]
      exact mem_accounts_updateRequestReply.mpr (Or.inl rfl)

/-- A tail stores the request that it answers. -/
lemma recalled_answer (hlog : s.LogWf) (hreq : req.Assigned owner) {s' : ChainServer} (hempty : s.sentList = [])
    (hsent : s'.sentList = [])
    (hprocessed : s'.processedMap = (s.remember (s.answered req)).processedMap) (ha : '_' ∉ a.toList) :
    s'.recalled r a = (s.recalled r a).or
      (if req.reqId = r ∧ req.accountId = a then some (s.answered req) else none) := by
  rw [recalled_stored hsent hempty hprocessed ?_ ha, answered_reqId, answered_accountId]
  · intro hold
    rw [answered_reqId, answered_accountId, ← h.precedent_eq hlog hreq, Option.isSome_iff_ne_none]
    exact fun hnone => hold (answered_newreq.mpr hnone)
  · rw [answered_accountId]
    exact hreq.2

/-- The front of `sent_list_` is acknowledged. -/
lemma agrees_moved (hlog : s.LogWf) {s' : ChainServer} {l l' : List Request} (hist : s'.hist = s.hist)
    (accounts : s'.accountMap = s.accountMap) (hsplit : s.sentList = l ++ l') (hsent : s'.sentList = l')
    (hprocessed : s'.processedMap = (s.insertAllProcessed l).processedMap) : s'.Agrees := by
  refine h.toAgrees.frame hist (balance_congr accounts) fun r a ha => ?_
  apply recalled_moved hsplit hsent hprocessed ?_ ha
  intro q hq
  exact (h.assigned q (hlog.mem_hist (hsplit ▸ List.mem_append_left _ hq))).1.2

/-- Nothing that is remembered changes. -/
lemma agrees_stores {s' : ChainServer} (hist : s'.hist = s.hist) (balance : s'.balance = s.balance)
    (sent : s'.sentList = s.sentList) (processed : s'.processedMap = s.processedMap) : s'.Agrees := by
  refine h.toAgrees.frame hist balance fun r a _ => ?_
  rw [recalled, sent, processed, recalled]

theorem step (hlog : s.LogWf) (hstep : LogStep s msg e) (hrole : RoleStep s msg e.server)
    (hreq : ∀ req, msg = .request req → req.type ≠ .query →
      req.Assigned owner ∧ req.type ≠ .transfer)
    (hreply : ∀ rep, msg = .reply rep → s.istail = true) : e.server.Follows owner := by
  have hplain (t : Request) (ht : t ∈ s.sentList) : t.type ≠ .transfer :=
    (h.assigned t (hlog.mem_hist ht)).2
  have hsettled (hmsg : msg ≠ .toBeTail) (htail : e.server.istail = true) : s.sentList = [] :=
    h.settled ((hrole.tail.mp htail).resolve_right hmsg)
  cases hstep with
  | keep hist seq sent out ignored other accounts processed =>
    have balance : e.server.balance = s.balance := by
      rcases accounts with heq | ⟨b, heq⟩
      · exact balance_congr heq
      · rw [balance_congr heq, balance_getBalance]
    apply h.same hlog (.keep hist seq sent out ignored other accounts processed) hist
    · exact h.agrees_stores hist balance sent processed
    · exact fun htail => sent.trans (hsettled other.1 htail)
  | @relay req _ type tail next hist seq sent out accounts processed =>
    obtain ⟨hassigned, hplain⟩ := hreq req rfl type
    apply h.take hlog (.relay type tail next hist seq sent out accounts processed) hassigned hplain hist
      accounts
    · intro r a _
      rw [recalled_sent sent processed, answered_reqId, answered_accountId]
    · intro htail
      rw [hrole.tail, tail] at htail
      simp at htail
  | @answer req _ type tail next hist seq sent out accounts processed =>
    obtain ⟨hassigned, hplain⟩ := hreq req rfl type
    have hempty := h.settled tail
    have hsent : e.server.sentList = [] := by
      rw [sent, hempty, Request.toForward, if_neg]
      · rfl
      · rw [answered_type]
        exact fun htransfer => hplain htransfer.1
    apply h.take hlog (.answer type tail next hist seq sent out accounts processed) hassigned hplain hist
      accounts
    · exact fun r a => h.recalled_answer hlog hassigned hempty hsent processed
    · exact fun _ => hsent
  | ack hist seq sent out accounts processed =>
    apply h.same hlog (.ack hist seq sent out accounts processed) hist
    · exact h.agrees_moved hlog hist accounts (List.takeWhile_append_dropWhile).symm sent processed
    · intro htail
      rw [sent, hsettled (by simp) htail]
      rfl
  | toBeTail hist seq sent out accounts processed =>
    have hall : s.sentList.filter (·.type ≠ .transfer) = s.sentList := by
      rw [List.filter_eq_self]
      intro t ht
      simpa using hplain t ht
    have hsent : e.server.sentList = [] := by
      rw [sent, List.filter_eq_nil_iff]
      intro t ht
      simpa using hplain t ht
    apply h.same hlog (.toBeTail hist seq sent out accounts processed) hist
    · rw [hall] at processed
      exact h.agrees_moved hlog hist accounts (List.append_nil _).symm hsent processed
    · exact fun _ => hsent
  | @reply rep _ hist seq sent out accounts processed =>
    have hempty := h.settled (hreply rep rfl)
    have hsent : e.server.sentList = [] := by
      rw [sent, hempty]
      rfl
    apply h.same hlog (.reply hist seq sent out accounts processed) hist
    · exact h.agrees_stores hist (balance_congr accounts) (hsent.trans hempty.symm) processed
    · exact fun _ => hsent
  | resend hist seq sent succ out accounts processed =>
    apply h.same hlog (.resend hist seq sent succ out accounts processed) hist
    · exact h.agrees_stores hist (balance_congr accounts) sent processed
    · exact fun htail => sent.trans (hsettled (by simp) htail)

end Follows

end ChainServer

end ChainReplication
