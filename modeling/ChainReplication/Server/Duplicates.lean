import ChainReplication.Library.Machine
import ChainReplication.Server.Agreement

/-!
# Duplicate detection away from the tail

At a head or an internal server `processed_map_` holds what has been acknowledged and `sent_list_` the
rest of the history. The lookups of `check_update_request` are compared with the first update under the
same request id for the same account.
-/

namespace ChainReplication

/-- The messages that feed the history and `sent_list_` of a server that is not the tail. -/
def Message.isIntake : Message → Bool
  | .request _ | .acknowledge _ => true
  | _ => false

namespace ChainServer

variable {s s₀ s' : ChainServer} {master : Address} {msg : Message} {req it first : Request}

/-- One handler run that no assertion ends. -/
def serve (master : Address) (s : ChainServer) (msg : Message) : Option ChainServer :=
  if (s.handleMsg master msg).ok then some (s.handleMsg master msg).server else none

/-- A server that has handled nothing. -/
structure Fresh (s : ChainServer) : Prop where
  accounts : s.accountMap = ∅
  processed : s.processedMap = ∅
  sent : s.sentList = []
  hist : s.hist = []

/-- The first update handled under an id for an account. -/
def firstUpdate (s : ChainServer) (reqId accountId : String) : Option Request :=
  s.hist.find? fun it => it.reqId = reqId ∧ it.accountId = accountId

/-- What the check of an update should give: the first update under its id for its account decides. -/
def exactCheck (s : ChainServer) (req : Request) (reply : Reply) : CheckRequest × Reply :=
  match s.firstUpdate req.reqId req.accountId with
  | some it => if reqConsistent req it then (.processed, it.reply) else (.inconsistent, reply)
  | none => (.newreq, reply)

/-- The entry that the lookups for an existing account reach first: by the key in `processed_map_`, then
by the request id in `sent_list_`. -/
def storedEntry (s : ChainServer) (req : Request) : Option Request :=
  (s.processedMap.lookup req.key).or (s.sentList.find? fun it => req.reqId = it.reqId)

/-- Two earlier requests decide about an update alike: it conflicts with both, or with none and they
carry one reply. -/
def SameVerdict (req it it' : Request) : Prop :=
  reqConsistent req it = reqConsistent req it' ∧ (reqConsistent req it = true → it.reply = it'.reply)

/-- No update for the account has been handled, or the entry reached is one for the id and the account of
the update, or it decides like the first such update. -/
def Distinguishes (s : ChainServer) (req : Request) : Prop :=
  (∃ q ∈ s.hist, q.accountId = req.accountId) → ∀ it ∈ s.storedEntry req,
    it.reqId = req.reqId ∧ it.accountId = req.accountId ∨
      ∃ first ∈ s.firstUpdate req.reqId req.accountId, SameVerdict req it first

/-- The message is an acknowledgement or an update that the stores distinguish from the others. -/
def Attentive (s : ChainServer) (msg : Message) : Prop :=
  msg.isIntake = true ∧ ∀ req, msg = .request req → s.Distinguishes req

/-! ### The two stores -/

/-- The history is what has been acknowledged, under its keys in `processed_map_`, followed by
`sent_list_`. -/
structure Divided (s : ChainServer) : Prop where
  tail : s.istail = false
  stores : ∃ acked, s.hist = acked ++ s.sentList ∧
    ∀ k, s.processedMap.lookup k = acked.find? fun it => it.key = k
  accounts : ∀ a, a ∈ s.accountMap ↔ ∃ q ∈ s.hist, q.accountId = a

lemma Fresh.divided (h : s.Fresh) (htail : s.istail = false) : s.Divided where
  tail := htail
  stores := by
    refine ⟨[], ?_, ?_⟩
    · rw [h.hist, h.sent, List.append_nil]
    · intro k
      rw [h.processed]
      rfl
  accounts a := by
    rw [h.accounts, h.hist]
    simp

/-- A relaying server puts the update at the end of its history and of `sent_list_`. -/
lemma Divided.relay (h : s.Divided) : (s.accept.relayUpdate (s.number req)).server.Divided := by
  rw [relayUpdate_server]
  refine ⟨h.tail, ?_, ?_⟩
  · obtain ⟨acked, hsplit, hlookup⟩ := h.stores
    refine ⟨acked, ?_, hlookup⟩
    rw [hsplit, List.append_assoc]
  · intro a
    have hnew : a ∈ (s.accept.updateRequestReply (s.number req)).1.accountMap ↔
        a = req.accountId ∨ a ∈ s.accountMap := mem_accounts_updateRequestReply
    simp only [hnew, h.accounts a, List.mem_append, List.mem_singleton]
    constructor
    · rintro (rfl | ⟨q, hq, hacc⟩)
      · exact ⟨s.answered req, Or.inr rfl, answered_accountId⟩
      · exact ⟨q, Or.inl hq, hacc⟩
    · rintro ⟨q, hq | rfl, hacc⟩
      · exact Or.inr ⟨q, hq, hacc⟩
      · exact Or.inl (hacc.symm.trans answered_accountId)

/-- An acknowledgement moves the front of `sent_list_` to the acknowledged part. -/
lemma Divided.acknowledged (h : s.Divided) {l l' : List Request} (hsent : s.sentList = l ++ l') :
    { s.insertAllProcessed l with sentList := l' }.Divided := by
  obtain ⟨acked, hsplit, hlookup⟩ := h.stores
  have hprocessed := lookup_insertAllProcessed (s := s) l
  obtain ⟨m, hm⟩ := insertAllProcessed_eq s l
  rw [hm] at hprocessed ⊢
  refine ⟨h.tail, ⟨acked ++ l, ?_, ?_⟩, h.accounts⟩
  · exact hsplit.trans (by rw [hsent, List.append_assoc])
  · intro k
    rw [List.find?_append, ← hlookup]
    exact hprocessed k

/-- What a head or an internal server does with the messages that feed its stores. -/
lemma serve_cases (htail : s.istail = false) (hmsg : msg.isIntake = true)
    (hs : s.serve master msg = some s') : s' = s ∨
      (∃ req, msg = .request req ∧ s' = (s.accept.relayUpdate (s.number req)).server) ∨
      ∃ l l', s.sentList = l ++ l' ∧ s' = { s.insertAllProcessed l with sentList := l' } := by
  unfold serve at hs
  split_ifs at hs with hok
  obtain rfl := Option.some.inj hs
  cases msg with
  | request req =>
    have hcase := receiveRequest_cases s req
    simp only [handleMsg] at hok ⊢
    generalize s.receiveRequest req = e at hcase hok ⊢
    cases hcase with
    | query type tail => simp [htail] at tail
    | refused why => cases hok
    | duplicate head seen => exact Or.inl rfl
    | relayed type tail next => exact Or.inr (Or.inl ⟨req, rfl, rfl⟩)
    | single type tail => simp [htail] at tail
    | tail type tail => simp [htail] at tail
  | acknowledge ack =>
    right
    right
    exact ⟨_, _, (List.takeWhile_append_dropWhile).symm, rfl⟩
  | _ => cases hmsg

lemma Divided.step (h : s.Divided) (hmsg : msg.isIntake = true) (hs : s.serve master msg = some s') :
    s'.Divided := by
  obtain rfl | ⟨req, -, rfl⟩ | ⟨l, l', hsent, rfl⟩ := serve_cases h.tail hmsg hs
  · exact h
  · exact h.relay
  · exact h.acknowledged hsent

/-! ### The decision -/

/-- The first element of a kind is the first of a narrower kind that it belongs to. -/
lemma find?_narrow {l : List Request} {p q : Request → Bool} (hfind : l.find? p = some it)
    (hq : q it = true) (himp : ∀ x ∈ l, q x = true → p x = true) : l.find? q = some it := by
  induction l with
  | nil => cases hfind
  | cons x l ih =>
    rw [List.find?_cons] at hfind ⊢
    cases hqx : q x with
    | true =>
      rw [himp x (by simp) hqx] at hfind
      exact hfind
    | false =>
      cases hpx : p x with
      | true =>
        rw [hpx] at hfind
        obtain rfl := Option.some.inj hfind
        rw [hqx] at hq
        cases hq
      | false =>
        rw [hpx] at hfind
        exact ih hfind fun y hy => himp y (List.mem_cons_of_mem x hy)

/-- With no entry reached there is no earlier update under the id for the account. -/
lemma Divided.firstUpdate_of_none (h : s.Divided) (hfound : s.precedent req = none) :
    s.firstUpdate req.reqId req.accountId = none := by
  rw [firstUpdate, List.find?_eq_none]
  intro q hq hpair
  obtain ⟨hid, hacc⟩ := of_decide_eq_true hpair
  rw [precedent, if_pos ((h.accounts _).mpr ⟨q, hq, hacc⟩), Option.or_eq_none_iff] at hfound
  obtain ⟨acked, hsplit, hlookup⟩ := h.stores
  rw [hsplit, List.mem_append] at hq
  rcases hq with hq | hq
  · rw [hlookup, List.find?_eq_none] at hfound
    exact hfound.1 q hq (by simp [Request.key, hid, hacc])
  · exact List.find?_eq_none.mp hfound.2 q hq (by simp [hid])

/-- An entry reached under the right id and account is the first such update. -/
lemma Divided.firstUpdate_of_precedent (h : s.Divided) (hfound : s.precedent req = some it)
    (hid : it.reqId = req.reqId) (hacc : it.accountId = req.accountId) :
    s.firstUpdate req.reqId req.accountId = some it := by
  obtain ⟨acked, hsplit, hlookup⟩ := h.stores
  rw [precedent, if_pos (mem_accounts_of_precedent hfound), hlookup] at hfound
  rw [firstUpdate, hsplit, List.find?_append]
  have hkey (x : Request) (hx : decide (x.reqId = req.reqId ∧ x.accountId = req.accountId) = true) :
      decide (x.key = req.key) = true := by
    obtain ⟨hx, hx'⟩ := of_decide_eq_true hx
    simp [Request.key, hx, hx']
  rcases Option.or_eq_some_iff.mp hfound with hit | ⟨hnone, hit⟩
  · rw [find?_narrow hit (by simp [hid, hacc]) fun x _ => hkey x]
    rfl
  · have hacked : (acked.find? fun x => x.reqId = req.reqId ∧ x.accountId = req.accountId) = none := by
      rw [List.find?_eq_none] at hnone ⊢
      exact fun x hx hpair => hnone x hx (hkey x hpair)
    rw [hacked, Option.none_or]
    apply find?_narrow hit (by simp [hid, hacc])
    intro x _ hx
    simp [(of_decide_eq_true hx).1]

/-- For an account of the history the lookups decide. -/
lemma Divided.precedent_eq (h : s.Divided) : s.precedent req = some it ↔
    (∃ q ∈ s.hist, q.accountId = req.accountId) ∧ s.storedEntry req = some it := by
  rw [precedent, ← h.accounts]
  split_ifs with hmem <;> simp [hmem, storedEntry]

lemma checkUpdateRequest_of_none (h : s.precedent req = none) (reply : Reply) :
    (s.checkUpdateRequest req reply).2 = (.newreq, reply) := by
  unfold checkUpdateRequest
  by_cases hmem : req.accountId ∈ s.accountMap
  · simp [getOrCreateAccount_of_mem hmem, checkHistory_precedent hmem reply, h]
  · simp [getOrCreateAccount_of_notMem hmem]

/-- The check is exact for the updates that the stores distinguish, and for no others. -/
theorem Divided.check_iff (h : s.Divided) (req : Request) (reply : Reply) :
    (s.checkUpdateRequest req reply).2 = s.exactCheck req reply ↔ s.Distinguishes req := by
  cases hfound : s.precedent req with
  | none =>
    rw [checkUpdateRequest_of_none hfound, exactCheck, h.firstUpdate_of_none hfound]
    refine ⟨fun _ hacc it hit => ?_, fun _ => rfl⟩
    rw [h.precedent_eq.mpr ⟨hacc, hit⟩] at hfound
    cases hfound
  | some it =>
    obtain ⟨hacc, hentry⟩ := h.precedent_eq.mp hfound
    rw [checkUpdateRequest_of_precedent hfound, Distinguishes, hentry]
    by_cases hpair : it.reqId = req.reqId ∧ it.accountId = req.accountId
    · rw [exactCheck, h.firstUpdate_of_precedent hfound hpair.1 hpair.2]
      refine ⟨fun _ _ it' hit' => ?_, fun _ => rfl⟩
      obtain rfl := Option.some.inj hit'
      exact Or.inl hpair
    · rw [exactCheck]
      cases hfirst : s.firstUpdate req.reqId req.accountId with
      | none =>
        simp only [Option.mem_def, Option.some.injEq, forall_eq', hpair, false_or, reduceCtorEq,
          false_and, exists_false, imp_false]
        refine ⟨fun heq => ?_, fun hnot => absurd hacc hnot⟩
        split_ifs at heq <;> cases heq
      | some first =>
        simp only [Option.mem_def, Option.some.injEq, forall_eq', hpair, false_or, exists_eq_left',
          SameVerdict, hacc, forall_const]
        cases reqConsistent req it <;> cases reqConsistent req first <;> simp

/-! ### The acknowledgements -/

/-- The balances, the answers and the first updates are those of the reference bank. -/
structure Replays (s : ChainServer) : Prop where
  balance : s.balance = (Bank.run s.bodies).balance
  log : s.hist = (Bank.run s.bodies).log
  first : ∀ r a, s.firstUpdate r a = (Bank.run s.bodies).first (r, a)

lemma Fresh.replays (h : s.Fresh) : s.Replays where
  balance := by
    funext a
    rw [balance, h.accounts, bodies, h.hist]
    rfl
  log := by
    rw [bodies, h.hist]
    rfl
  first r a := by
    rw [firstUpdate, bodies, h.hist]
    rfl

lemma answerFrom_of_sameVerdict (h : SameVerdict req it first) (b : ℚ) :
    req.answerFrom it b = req.answerFrom first b := by
  unfold Request.answerFrom
  rw [← h.1]
  split_ifs with hcons
  · rw [h.2 hcons]
  · rfl

/-- An update that the stores distinguish is answered as the reference bank answers it. -/
lemma Replays.answered_eq (h : s.Replays) (hd : s.Divided) (hreq : s.Distinguishes req) :
    s.answered req = (Bank.run s.bodies).answer (s.number req) := by
  have hfirst : (Bank.run s.bodies).first ((s.number req).reqId, (s.number req).accountId) =
      s.firstUpdate req.reqId req.accountId := (h.first _ _).symm
  have hbalance : s.balance req.accountId = (Bank.run s.bodies).balance req.accountId := by
    rw [h.balance]
  cases hfound : s.precedent req with
  | none =>
    rw [hd.firstUpdate_of_none hfound] at hfirst
    rw [answered_of_none hfound, Bank.answer_of_none hfirst, hbalance]
    rfl
  | some it =>
    rw [answered_of_precedent hfound, hbalance]
    obtain ⟨hacc, hentry⟩ := hd.precedent_eq.mp hfound
    rcases hreq hacc it hentry with ⟨hid, hacc'⟩ | ⟨first, hmem, hverdict⟩
    · rw [hd.firstUpdate_of_precedent hfound hid hacc'] at hfirst
      rw [Bank.answer_of_first hfirst]
      rfl
    · rw [hmem] at hfirst
      have hverdict : SameVerdict (s.number req) it first := hverdict
      rw [Bank.answer_of_first hfirst]
      exact answerFrom_of_sameVerdict hverdict _

lemma Replays.relay (h : s.Replays) (hd : s.Divided) (hreq : s.Distinguishes req) :
    (s.accept.relayUpdate (s.number req)).server.Replays := by
  have hanswer := h.answered_eq hd hreq
  rw [relayUpdate_server]
  have hrun : Bank.run (s.hist ++ [s.answered req] |>.map Request.body) =
      (Bank.run s.bodies).update (s.number req) := by
    rw [List.map_append, List.map_singleton, answered_body, ← bodies, Bank.run_append_singleton]
    rfl
  refine ⟨?_, ?_, ?_⟩
  · have hbalance : s.accept.balance = (Bank.run s.bodies).balance := h.balance
    simp only [bodies] at hrun ⊢
    rw [hrun, Bank.update, ← bodies, ← hanswer, ← hbalance]
    exact (balance_congr rfl).trans (balance_updateRequestReply s.accept (s.number req))
  · simp only [bodies] at hrun ⊢
    rw [hrun, hanswer, Bank.update, ← bodies, ← h.log]
  · intro r a
    have hfirst := h.first r a
    simp only [bodies, firstUpdate] at hrun hfirst ⊢
    rw [hrun, Bank.first_update, ← bodies, ← hanswer, List.find?_append, hfirst]
    congr 1
    rw [List.find?_singleton]
    simp only [answered_reqId, answered_accountId, decide_eq_true_eq]
    rfl

lemma Replays.step (h : s.Replays) (hd : s.Divided) (hmsg : s.Attentive msg)
    (hs : s.serve master msg = some s') : s'.Replays := by
  obtain rfl | ⟨req, rfl, rfl⟩ | ⟨l, l', -, rfl⟩ := serve_cases hd.tail hmsg.1 hs
  · exact h
  · exact h.relay hd (hmsg.2 req rfl)
  · obtain ⟨m, hm⟩ := insertAllProcessed_eq s l
    rw [hm]
    exact ⟨h.balance, h.log, h.first⟩

/-! ### Runs -/

lemma divided_of_reach (hfresh : s₀.Fresh) (htail : s₀.istail = false)
    (h : Machine.Reach (serve master) (fun _ m => m.isIntake = true) s₀ s) : s.Divided :=
  h.invariant (hfresh.divided htail) fun _ _ _ hd hmsg hs => hd.step hmsg hs

lemma replays_of_reach (hfresh : s₀.Fresh) (htail : s₀.istail = false)
    (h : Machine.Reach (serve master) Attentive s₀ s) : s.Replays := by
  apply h.invariant_of (J := Divided) ?_ hfresh.replays
  · exact fun u v m hm hd _ hmsg hs => hm.step hd hmsg hs
  · exact fun u hu => divided_of_reach hfresh htail (hu.mono fun _ _ hmsg => hmsg.1)

/-- Away from the tail the check of an update is exact if and only if its stores distinguish the update,
and then it does not depend on when the acknowledgements came. -/
theorem check_exact_iff (hfresh : s₀.Fresh) (htail : s₀.istail = false) :
    (∀ s, Machine.Reach (serve master) (fun _ m => m.isIntake = true) s₀ s → ∀ req reply,
      (s.checkUpdateRequest req reply).2 = s.exactCheck req reply ↔ s.Distinguishes req) ∧
    ∀ s s', Machine.Reach (serve master) Attentive s₀ s → Machine.Reach (serve master) Attentive s₀ s' →
      s.bodies = s'.bodies → ∀ req reply, s.Distinguishes req → s'.Distinguishes req →
        (s.checkUpdateRequest req reply).2 = (s'.checkUpdateRequest req reply).2 := by
  have divided {s : ChainServer} (h : Machine.Reach (serve master) Attentive s₀ s) : s.Divided :=
    divided_of_reach hfresh htail (h.mono fun _ _ hmsg => hmsg.1)
  constructor
  · exact fun s hs req reply => (divided_of_reach hfresh htail hs).check_iff req reply
  · intro s s' hs hs' hbodies req reply hreq hreq'
    have hhist : s.hist = s'.hist := by
      rw [(replays_of_reach hfresh htail hs).log, (replays_of_reach hfresh htail hs').log, hbodies]
    rw [((divided hs).check_iff req reply).mpr hreq, ((divided hs').check_iff req reply).mpr hreq',
      exactCheck, exactCheck, firstUpdate, firstUpdate, hhist]

def sampleUpdate (reqId accountId : String) : Request :=
  { reqId := reqId, type := .deposit, clientAddr := .empty, accountId := accountId, amount := 5 }

lemma fresh_head : ({ ishead := true } : ChainServer).Fresh := ⟨rfl, rfl, rfl, rfl⟩

/-- A head with two updates in `sent_list_`, under different ids for different accounts. -/
def sampleHead : ChainServer :=
  Machine.after (serve .empty) (fun _ m => m.isIntake = true) { ishead := true }
    [.request (sampleUpdate "1" "a"), .request (sampleUpdate "2" "b")]

lemma sampleHead_reach : Machine.Reach (serve .empty) (fun _ m => m.isIntake = true) { ishead := true }
    sampleHead :=
  Machine.reach_after (by decide +kernel)

theorem check_exact_iff_sample :
    (sampleHead.checkUpdateRequest (sampleUpdate "1" "a") {}).2 =
        sampleHead.exactCheck (sampleUpdate "1" "a") {} ↔
      sampleHead.Distinguishes (sampleUpdate "1" "a") :=
  (check_exact_iff fresh_head rfl).1 _ sampleHead_reach _ _

/-- The id "1" was used for account "a" only, but the head takes an update under it for account "b" for a
repetition. -/
theorem check_takes_first_use_for_repetition :
    ¬ ∀ s₀ s : ChainServer, s₀.Fresh → s₀.istail = false →
      Machine.Reach (serve .empty) (fun _ m => m.isIntake = true) s₀ s → ∀ req reply,
        (s.checkUpdateRequest req reply).2 = s.exactCheck req reply := by
  intro h
  have hcheck := h _ _ fresh_head rfl sampleHead_reach (sampleUpdate "1" "b") {}
  exact absurd hcheck (by decide +kernel)

end ChainServer

end ChainReplication
