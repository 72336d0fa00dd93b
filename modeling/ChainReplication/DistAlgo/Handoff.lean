import ChainReplication.DistAlgo.Extension
import ChainReplication.Library.Assoc

/-!
# The state that a new tail gets

The snapshot is taken while the tail goes on; what it handles from `NEW_TAIL_COME` on is in its sent list too.
The new server replays the part of that list that the snapshot does not have.
-/

namespace ChainReplication.DistAlgo

variable {P : Type*}

namespace Server

variable {s t u o n : Server P} {req req' r : Request P} {accountOf : String → String}

/-- `n` has the balances, the histories and the number of `o`. -/
structure Copy (o n : Server P) : Prop where
  sound : n.Sound []
  sent : n.sent = []
  balance : ∀ a, n.balance a = o.balance a
  stored : ∀ a id, n.stored a id = o.stored a id
  bankUpdateSeq : n.bankUpdateSeq = o.bankUpdateSeq

/-- Every request in the sent list is in `processed`, perhaps as a duplicate. -/
def SentStored (s : Server P) : Prop := ∀ r ∈ s.sent, (s.stored r.accountId r.reqId).isSome = true

/-- No request id in the sent list is used for two accounts. -/
def SentOwned (accountOf : String → String) (s : Server P) : Prop := ∀ r ∈ s.sent, accountOf r.reqId = r.accountId

/-! ### One update -/

lemma answered_answered {x : ℚ} : (req.answered x).answered x = req.answered x := rfl

/-- With one account for each request id, a tail finds exactly what its `processed` holds. -/
lemma found_isSome (hstored : s.SentStored) (howned : s.SentOwned accountOf)
    (hreq : accountOf req.reqId = req.accountId) (hfound : s.found req = some r) :
    (s.stored req.accountId req.reqId).isSome = true := by
  unfold found at hfound
  split_ifs at hfound
  rcases Option.or_eq_some_iff.mp hfound with hfound | ⟨-, hfound⟩
  · rw [hfound]
    rfl
  · have hmem := List.mem_of_find?_eq_some hfound
    have hid : req.reqId = r.reqId := by simpa using List.find?_some hfound
    have hacc : r.accountId = req.accountId := by rw [← howned r hmem, ← hid, hreq]
    rw [← hacc, hid]
    exact hstored r hmem

/-- The new server finds what its `processed` holds. -/
lemma Copy.found (h : Copy o n) : n.found req = o.stored req.accountId req.reqId := by
  rw [Server.found, h.sent, List.find?_nil, Option.or_none, ← h.stored]
  split_ifs with hmem
  · rfl
  · have hnot : req.accountId ∉ n.processed := fun ha => hmem (h.sound.opened _ ha)
    have hnone : n.stored req.accountId req.reqId = none := by
      rw [Server.stored, AList.lookup_eq_none.mpr hnot, Option.bind_none]
    exact hnone.symm

lemma keepAnswered_books (u : Server P) (r : Request P) : (u.keepAnswered r).bankUpdateSeq = u.bankUpdateSeq ∧
    (∀ a, (u.keepAnswered r).balance a = u.balance a) ∧
    ∀ a id, (u.keepAnswered r).stored a id =
      if r.isNew then (u.stored a id).or (if r.isNamed a id then some r else none) else u.stored a id := by
  have hstored (a id : String) : (u.insertProcessedList r).stored a id =
      (u.stored a id).or (if r.isNamed a id then some r else none) := stored_insertProcessedList r
  cases hnew : r.isNew with
  | true =>
    have heq := keepAnswered_eq u r
    rw [if_pos hnew] at heq
    rw [heq]
    exact ⟨rfl, fun _ => rfl, hstored⟩
  | false =>
    have heq := keepAnswered_eq u r
    rw [if_neg (by simp [hnew])] at heq
    rw [heq]
    exact ⟨rfl, fun _ => rfl, fun _ _ => rfl⟩

/-- The new server does with a request of the sent list what the tail did with it. -/
lemma Copy.update (h : Copy o n) (hs : o.Sound o.sent) (hstored : o.SentStored) (howned : o.SentOwned accountOf)
    (hreq : accountOf req.reqId = req.accountId) (hseq : req.bankUpdateSeq = o.bankUpdateSeq + 1)
    (hu : UpdateCase { o with bankUpdateSeq := req.bankUpdateSeq } req u req') :
    Copy (u.keepAnswered req') (n.applySent req') := by
  have hseq' : req'.bankUpdateSeq = req.bankUpdateSeq := hu.bankUpdateSeq
  have hlt : n.bankUpdateSeq < req'.bankUpdateSeq := by
    rw [hseq', hseq, h.bankUpdateSeq]
    omega
  have hn : Copy o n := h
  have hsound : Sound { n with bankUpdateSeq := req'.bankUpdateSeq } n.sent := by
    rw [h.sent]
    exact h.sound.congr rfl rfl
  have hv := Sound.update_cases (s := { n with bankUpdateSeq := req'.bankUpdateSeq }) hsound req'
  have hfound : Server.found { n with bankUpdateSeq := req'.bankUpdateSeq } req' =
      o.stored req.accountId req.reqId := by
    rw [← hu.accountId, ← hu.reqId]
    exact h.found
  obtain ⟨hkeptSeq, hkeptBalance, hkeptStored⟩ := keepAnswered_books u req'
  rw [applySent, if_pos hlt]
  generalize updateRequestReply { n with bankUpdateSeq := req'.bankUpdateSeq } req' = v at hv ⊢
  have hvkeeps := hv.keeps
  have hempty : Sound { n with bankUpdateSeq := req'.bankUpdateSeq } [] := h.sent ▸ hsound
  have hvsound : v.1.Sound [v.2] := hv.sound hempty
  have hvseq : v.1.bankUpdateSeq = req'.bankUpdateSeq := by rw [hvkeeps.frame]
  have huseq : u.bankUpdateSeq = req.bankUpdateSeq := by rw [hu.keeps.frame]
  have hvstored (a id : String) : (v.1.insertProcessedList v.2).stored a id =
      (o.stored a id).or (if v.2.isNamed a id then some v.2 else none) := by
    rw [stored_insertProcessedList, hvkeeps.stored]
    exact congrArg (Option.or · _) (h.stored a id)
  have hkeptStored' (a id : String) : (u.keepAnswered req').stored a id =
      if req'.isNew then (o.stored a id).or (if req'.isNamed a id then some req' else none) else o.stored a id := by
    rw [hkeptStored, hu.keeps.stored]
    rfl
  have hacc : req'.accountId = req.accountId := hu.accountId
  have hid : req'.reqId = req.reqId := hu.reqId
  have hvacc : v.2.accountId = req'.accountId := hv.accountId
  have hvid : v.2.reqId = req'.reqId := hv.reqId
  have hbooks : (∀ a, v.1.balance a = u.balance a) ∧
      ∀ a id, (v.1.insertProcessedList v.2).stored a id = (u.keepAnswered req').stored a id := by
    cases hu with
    | @found r reply found keeps mem outcome eq applied balance =>
      have hsome : (o.stored req.accountId req.reqId).isSome = true :=
        found_isSome (s := { o with bankUpdateSeq := req.bankUpdateSeq }) hstored howned hreq found
      cases hv with
      | new found' =>
        rw [← hfound, found'] at hsome
        cases hsome
      | found _ _ _ _ eq' _ balance' =>
        refine ⟨fun a => ?_, fun a id => ?_⟩
        · rw [balance', balance]
          exact h.balance a
        · have hnew : ¬req'.isNew = true := by simp [eq]
          rw [hvstored, hkeptStored', if_neg hnew]
          split_ifs with hnamed
          · obtain ⟨ha, hi⟩ := isNamed_iff.mp hnamed
            rw [← ha, ← hi, hvacc, hvid, hacc, hid, Option.or_of_isSome hsome]
          · rw [Option.or_none]
    | new found keeps mem eq applied balance =>
      have hnone : o.stored req.accountId req.reqId = none := by
        have hkept : o.kept o.sent req.accountId req.reqId = none := Sound.kept_of_found_none
          (s := { o with bankUpdateSeq := req.bankUpdateSeq })
          ⟨hs.keyed, hs.opened, hs.stored_answered, hs.known, hs.answered⟩ found
        exact (Option.or_eq_none_iff.mp hkept).1
      have heq : req' = req.answered (o.balance req.accountId) := eq
      have hnew : req'.isNew = true := by
        rw [eq]
        rfl
      cases hv with
      | found found' =>
        rw [hfound, hnone] at found'
        cases found'
      | new _ _ _ eq' _ balance' =>
        have hsame : n.balance req'.accountId = o.balance req.accountId := by rw [hacc, h.balance]
        have heq' : v.2 = req' := by
          have heq' : v.2 = req'.answered (n.balance req'.accountId) := eq'
          rw [heq', hsame, heq, answered_answered]
        have hsettle : req'.settle (n.balance req'.accountId) = req.settle (o.balance req.accountId) := by
          rw [hsame, heq]
          rfl
        have hnew' (a : String) : v.1.balance a =
            if a = req'.accountId then (req'.settle (n.balance req'.accountId)).2 else n.balance a := balance' a
        refine ⟨fun a => ?_, fun a id => ?_⟩
        · rw [hnew', balance, hsettle, hacc, h.balance]
          rfl
        · rw [hvstored, hkeptStored', if_pos hnew, heq']
  refine ⟨hvsound.insertProcessedList, hvkeeps.sent.trans h.sent, fun a => ?_, hbooks.2, ?_⟩
  · rw [hkeptBalance]
    exact hbooks.1 a
  · rw [hkeptSeq, huseq, ← hseq']
    exact hvseq

/-! ### One request -/

lemma keepAnswered_sent (u : Server P) (r : Request P) :
    (u.keepAnswered r).sent = if u.extendingChain then u.sent ++ [r] else u.sent := by
  rw [keepAnswered_eq]

lemma Funded.mono {waiting waiting' : List (Request P)} (h : s.Funded waiting) (hsub : waiting ⊆ waiting') :
    s.Funded waiting' := by
  intro a ha
  refine (h a ha).imp_right ?_
  rintro ⟨r, hr, hacc⟩
  exact ⟨r, hsub hr, hacc⟩

/-- With its sent list in `processed` a server has there a request for every account with money. -/
lemma Funded.stored (h : s.Funded s.sent) (hstored : s.SentStored) : s.Funded [] := by
  intro a ha
  rcases h a ha with hid | ⟨r, hr, hacc⟩
  · exact Or.inl hid
  · exact Or.inl ⟨r.reqId, hacc ▸ hstored r hr⟩

namespace ServeCase

/-- What a request adds to the sent list is numbered, and its id belongs to the account. -/
lemma sent_append (h : ServeCase s req t) (hreq : req.type ≠ .query → accountOf req.reqId = req.accountId) :
    s.bankUpdateSeq ≤ t.bankUpdateSeq ∧ ∃ l, t.sent = s.sent ++ l ∧
      ∀ r ∈ l, r.bankUpdateSeq ≤ t.bankUpdateSeq ∧ accountOf r.reqId = r.accountId := by
  cases h with
  | unchanged keeps applied balance =>
    refine ⟨?_, [], ?_, by rintro r ⟨⟩⟩
    · rw [keeps.frame]
    · rw [keeps.sent, List.append_nil]
  | @update req₀ req' u type reqId accountId bankUpdateSeq update eq =>
    have husent : u.sent = s.sent := update.keeps.sent
    have huseq : u.bankUpdateSeq = req₀.bankUpdateSeq := by rw [update.keeps.frame]
    have hnew : req'.bankUpdateSeq ≤ u.bankUpdateSeq ∧ accountOf req'.reqId = req'.accountId := by
      rw [update.bankUpdateSeq, huseq, update.reqId, update.accountId, reqId, accountId]
      exact ⟨le_refl _, hreq type⟩
    have hle : s.bankUpdateSeq ≤ u.bankUpdateSeq := by omega
    rw [eq]
    split_ifs
    · rw [(keepAnswered_books u req').1, keepAnswered_sent, husent]
      refine ⟨hle, ?_⟩
      split_ifs
      · exact ⟨[req'], rfl, List.forall_mem_singleton.mpr hnew⟩
      · exact ⟨[], (List.append_nil _).symm, by rintro r ⟨⟩⟩
    · exact ⟨hle, [req'], congrArg (· ++ [req']) husent, List.forall_mem_singleton.mpr hnew⟩

lemma funded (h : ServeCase s req t) (hs : s.Funded s.sent) : t.Funded t.sent := by
  cases h with
  | unchanged keeps applied balance =>
    rw [keeps.sent]
    exact hs.keeps keeps balance
  | @update req₀ req' u type reqId accountId bankUpdateSeq update eq =>
    have husent : u.sent = s.sent := update.keeps.sent
    have hu : u.Funded (s.sent ++ [req']) := update.funded hs
    rw [eq]
    split_ifs with htail
    · have hkept : Funded (if req'.isNew then u.insertProcessedList req' else u) s.sent := by
        cases update with
        | found found keeps mem outcome eq' applied balance =>
          have hsame : u.Funded s.sent :=
            Funded.keeps (s := { s with bankUpdateSeq := req₀.bankUpdateSeq }) hs keeps balance
          rwa [if_neg (by simp [eq'])]
        | new found keeps mem eq' applied balance =>
          rw [if_pos (by rw [eq']; rfl)]
          refine (hu.mono ?_).insertProcessedList
          exact List.append_subset.mpr ⟨List.subset_cons_self _ _, by simp⟩
      rw [keepAnswered_eq, husent]
      have hsub : s.sent ⊆ if u.extendingChain then s.sent ++ [req'] else s.sent := by
        split_ifs
        · exact List.subset_append_left _ _
        · exact List.Subset.refl _
      exact hkept.mono hsub
    · have hwaiting : (u.insertSentList req').sent = s.sent ++ [req'] := by rw [insertSentList, husent]
      rw [hwaiting]
      exact hu

/-- A tail has what it sends to its new tail in `processed`. -/
lemma sentStored (h : ServeCase s req t) (htail : s.isTail = true) (hstored : s.SentStored)
    (howned : s.SentOwned accountOf) (hreq : req.type ≠ .query → accountOf req.reqId = req.accountId) :
    t.SentStored := by
  cases h with
  | unchanged keeps applied balance =>
    intro r hr
    rw [keeps.stored]
    exact hstored r (keeps.sent ▸ hr)
  | @update req₀ req' u type reqId accountId bankUpdateSeq update eq =>
    have husent : u.sent = s.sent := update.keeps.sent
    have hukeeps := update.keeps
    obtain ⟨-, -, hkept⟩ := keepAnswered_books u req'
    have hstay (a id : String) (hsome : (s.stored a id).isSome = true) :
        ((u.keepAnswered req').stored a id).isSome = true := by
      have hsome : (u.stored a id).isSome = true := (hukeeps.stored a id).symm ▸ hsome
      rw [hkept]
      split_ifs
      · rw [Option.or_of_isSome hsome, hsome]
      · rw [Option.or_of_isSome hsome, hsome]
      · exact hsome
    have hacc := update.accountId
    have hid := update.reqId
    have hnew : ((u.keepAnswered req').stored req'.accountId req'.reqId).isSome = true := by
      cases update with
      | found found keeps mem outcome eq' applied balance =>
        rw [hacc, hid]
        refine hstay _ _ (found_isSome (s := { s with bankUpdateSeq := req₀.bankUpdateSeq }) hstored howned ?_ found)
        rw [reqId, accountId]
        exact hreq type
      | new found keeps mem eq' applied balance =>
        have hisNew : req'.isNew = true := by
          rw [eq']
          rfl
        rw [hkept, if_pos hisNew, if_pos isNamed_self, Option.isSome_or, Option.isSome_some, Bool.or_true]
    rw [eq, if_pos htail]
    intro r hr
    have hmem : r ∈ s.sent ++ [req'] := by
      rw [keepAnswered_sent, husent] at hr
      split_ifs at hr
      · exact hr
      · exact List.mem_append_left _ hr
    rcases List.mem_append.mp hmem with hr | hr
    · exact hstay _ _ (hstored r hr)
    · rw [List.mem_singleton.mp hr]
      exact hnew

/-- A copy that replays what the request has added to the sent list is a copy again. -/
lemma copies (h : ServeCase s req t) (hs : s.Sound s.sent) (htail : s.isTail = true)
    (hext : s.extendingChain = true) (hstored : s.SentStored) (howned : s.SentOwned accountOf)
    (hreq : req.type ≠ .query → accountOf req.reqId = req.accountId) (hcopy : Copy s (s.sent.foldl applySent n)) :
    Copy t (t.sent.foldl applySent n) := by
  cases h with
  | unchanged keeps applied balance =>
    rw [keeps.sent]
    refine ⟨hcopy.sound, hcopy.sent, fun a => ?_, fun a id => ?_, ?_⟩
    · rw [hcopy.balance, balance]
    · rw [hcopy.stored, keeps.stored]
    · rw [hcopy.bankUpdateSeq, keeps.frame]
  | @update req₀ req' u type reqId accountId bankUpdateSeq update eq =>
    have hext' : u.extendingChain = true := by
      rw [update.keeps.frame]
      exact hext
    have husent : u.sent = s.sent := update.keeps.sent
    rw [eq, if_pos htail, keepAnswered_sent, if_pos hext', husent, List.foldl_append]
    refine hcopy.update hs hstored howned ?_ bankUpdateSeq update
    rw [reqId, accountId]
    exact hreq type

end ServeCase

/-! ### The snapshot -/

/-- `n` has the histories of the snapshot and the accounts that these belong to. -/
structure Mirrors (snap : Snapshot P) (n : Server P) : Prop where
  sent : n.sent = []
  bankUpdateSeq : n.bankUpdateSeq = snap.bankUpdateSeq
  processed : ∀ a, n.processed.lookup a = snap.processed.lookup a
  accounts : ∀ a, n.accounts.lookup a = if a ∈ snap.processed then snap.accounts.lookup a else none

/-- A server that mirrors the snapshot and replays the sent list is a copy of `s`. -/
structure Tracks (snap : Snapshot P) (s : Server P) : Prop where
  accounts : ∀ a ∈ snap.processed, ∃ account, snap.accounts.lookup a = some account ∧ account.accountId = a
  copy : ∀ n, Mirrors snap n → Copy s (s.sent.foldl applySent n)

lemma foldl_applySent_of_le {l : List (Request P)} (h : ∀ r ∈ l, r.bankUpdateSeq ≤ n.bankUpdateSeq) :
    l.foldl applySent n = n := by
  induction l with
  | nil => rfl
  | cons r l ih =>
    obtain ⟨hr, hl⟩ := List.forall_mem_cons.mp h
    rw [List.foldl_cons, applySent, if_neg (not_lt.mpr hr)]
    exact ih hl

lemma Mirrors.stored {snap : Snapshot P} (h : Mirrors snap n) (a id : String) :
    n.stored a id = (snap.processed.lookup a).bind fun history => history.lookup id := by
  rw [Server.stored, h.processed]

/-- An account without a history has no money, so that leaving it out changes no balance. -/
lemma Tracks.start (hs : s.Sound s.sent) (hfunded : s.Funded [])
    (hnumbered : ∀ r ∈ s.sent, r.bankUpdateSeq ≤ s.bankUpdateSeq) :
    Tracks ⟨s.processed, s.accounts, s.bankUpdateSeq⟩ s where
  accounts a ha := by
    obtain ⟨account, haccount⟩ := Option.isSome_iff_exists.mp (AList.lookup_isSome.mpr (hs.opened a ha))
    exact ⟨account, haccount, hs.keyed a account haccount⟩
  copy n h := by
    have hstored (a id : String) : n.stored a id = s.stored a id := h.stored a id
    have haccounts (a : String) : n.accounts.lookup a = if a ∈ s.processed then s.accounts.lookup a else none :=
      h.accounts a
    rw [foldl_applySent_of_le fun r hr => h.bankUpdateSeq ▸ hnumbered r hr]
    refine ⟨⟨?_, ?_, ?_, ?_, ?_⟩, h.sent, ?_, hstored, h.bankUpdateSeq⟩
    · intro a account ha
      rw [haccounts] at ha
      split_ifs at ha
      exact hs.keyed a account ha
    · intro a ha
      have hmem : a ∈ s.processed := by
        rw [← AList.lookup_isSome, ← h.processed a, AList.lookup_isSome]
        exact ha
      rw [← AList.lookup_isSome, haccounts, if_pos hmem, AList.lookup_isSome]
      exact hs.opened a hmem
    · exact fun a id r hr => hs.stored_answered a id r ((hstored a id).symm.trans hr)
    · rintro r ⟨⟩
    · rintro r ⟨⟩
    · intro a
      rw [Server.balance, haccounts]
      split_ifs with hmem
      · rfl
      · by_contra hne
        obtain ⟨id, hid⟩ | ⟨r, hr, -⟩ := hfunded a (Ne.symm hne)
        · rw [Server.stored, AList.lookup_eq_none.mpr hmem] at hid
          cases hid
        · cases hr

lemma Tracks.serve {snap : Snapshot P} (h : Tracks snap s) (hcase : ServeCase s req t) (hs : s.Sound s.sent)
    (htail : s.isTail = true) (hext : s.extendingChain = true) (hstored : s.SentStored)
    (howned : s.SentOwned accountOf) (hreq : req.type ≠ .query → accountOf req.reqId = req.accountId) :
    Tracks snap t :=
  ⟨h.accounts, fun n hn => hcase.copies hs htail hext hstored howned hreq (h.copy n hn)⟩

end Server

/-! ### The messages -/

/-- The account that the snapshot has under an id. -/
def Snapshot.account (snap : Snapshot P) (accountId : String) : Account :=
  (snap.accounts.lookup accountId).getD { accountId := accountId }

/-- One message for each account with a history. -/
def Snapshot.histories (snap : Snapshot P) (items : List (String × History P)) : List (Msg P) :=
  items.map fun item => .oldTailHistory (snap.accounts.lookup item.1) item.2

namespace Server

variable {n : Server P} {p : P} {snap : Snapshot P} {items : List (String × History P)}

lemma receiveAll_append (msgs msgs' : List (Msg P)) :
    n.receiveAll p (msgs ++ msgs') = (n.receiveAll p msgs).bind fun n => n.receiveAll p msgs' :=
  List.foldlM_append

lemma receiveAll_histories (haccounts : ∀ item ∈ items,
      ∃ account, snap.accounts.lookup item.1 = some account ∧ account.accountId = item.1) :
    n.receiveAll p (snap.histories items) = some { n with
      accounts := items.foldl (fun accounts item => accounts.insert item.1 (snap.account item.1)) n.accounts
      processed := items.foldl (fun processed item => processed.insert item.1 item.2) n.processed } := by
  induction items generalizing n with
  | nil => rfl
  | cons item items ih =>
    obtain ⟨⟨account, hlookup, hid⟩, hitems⟩ := List.forall_mem_cons.mp haccounts
    have haccount : snap.account item.1 = account := by rw [Snapshot.account, hlookup, Option.getD_some]
    rw [List.foldl_cons, List.foldl_cons, haccount]
    have hfirst : n.receive p (.oldTailHistory (snap.accounts.lookup item.1) item.2) = some { n with
        accounts := n.accounts.insert item.1 account, processed := n.processed.insert item.1 item.2 } := by
      rw [receive, hlookup, oldTailHistory, Option.map_some, hid]
    show (n.receive p _).bind (fun n => n.receiveAll p (snap.histories items)) = _
    rw [hfirst, Option.bind_some, ih hitems]

/-- After `BEGIN_OLD_TAIL_HISTORY` and the histories, in any order, the new server mirrors the snapshot,
whatever it held before. -/
lemma receiveAll_mirrors (hitems : items.Perm (snap.processed.entries.map fun e => (e.1, e.2)))
    (haccounts : ∀ a ∈ snap.processed, ∃ account, snap.accounts.lookup a = some account ∧ account.accountId = a)
    (serverId : ℕ) : ∃ n', n.receiveAll p (.beginOldTailHistory serverId snap.bankUpdateSeq :: snap.histories items) =
      some n' ∧ Mirrors snap n' := by
  have hkeys := AList.map_fst_perm_keys hitems
  have hnodup : (items.map Prod.fst).Nodup := hkeys.nodup_iff.mpr snap.processed.keys_nodup
  refine ⟨{ n.beginOldTailHistory p snap.bankUpdateSeq with
    accounts := items.foldl (fun accounts item => accounts.insert item.1 (snap.account item.1)) ∅
    processed := items.foldl (fun processed item => processed.insert item.1 item.2) ∅ }, ?_, rfl, rfl, ?_, ?_⟩
  · show (some (n.beginOldTailHistory p snap.bankUpdateSeq)).bind (fun n => n.receiveAll p (snap.histories items)) = _
    rw [Option.bind_some, receiveAll_histories]
    · rfl
    · intro item hitem
      have hlookup := (AList.mem_iff_of_perm hitems).mp hitem
      exact haccounts item.1 (AList.lookup_isSome.mp (hlookup ▸ rfl))
  · exact AList.lookup_foldl_insert_of_perm hitems
  · intro a
    show AList.lookup a (items.foldl (fun accounts item => accounts.insert item.1 (snap.account item.1))
      (∅ : AList fun _ : String => Account)) = _
    split_ifs with ha
    · obtain ⟨account, hlookup, -⟩ := haccounts a ha
      obtain ⟨item, hitem, rfl⟩ := List.mem_map.mp (hkeys.mem_iff.mpr ha)
      have haccount : snap.account item.1 = account := by rw [Snapshot.account, hlookup, Option.getD_some]
      rw [hlookup, ← haccount]
      exact AList.lookup_foldl_insert hnodup hitem ∅
    · rw [AList.lookup_foldl_insert_of_notMem (fun hmem => ha (hkeys.mem_iff.mp hmem)), AList.lookup_empty]

end Server

/-! ### Runs -/

namespace Extending

/-- One `NEW_TAIL_COME`, which reaches a tail, no `ABORT_EXTENDING`, and no update whose id is used for another
account. A tail gets no acknowledgement. -/
def HandsOver (accountOf : String → String) (s : Extending P) : ExtendLabel P → Prop
  | .request req _ => req.type ≠ .query → accountOf req.reqId = req.accountId
  | .ack _ => s.fresh = true
  | .toBeTail => s.fresh = true
  | .newTailCome _ => s.server.isTail = true
  | .abort => False
  | _ => True

instance (accountOf : String → String) (s : Extending P) (l : ExtendLabel P) : Decidable (s.HandsOver accountOf l) :=
  match l with
  | .request req _ => inferInstanceAs (Decidable (req.type ≠ .query → accountOf req.reqId = req.accountId))
  | .ack _ | .toBeTail => inferInstanceAs (Decidable (s.fresh = true))
  | .newTailCome _ => inferInstanceAs (Decidable (s.server.isTail = true))
  | .abort => instDecidableFalse
  | .toBeHead | .main | .thread | .iterate _ => instDecidableTrue

/-- The next statement of the background thread takes the lock and sends `OLD_TAIL_SENT_LIST`. -/
def sendsSent (s : Extending P) : Bool :=
  match s.thread with
  | .sendSent _ => true
  | _ => false

/-- The new tail has been sent what the snapshot says, the items of `rest` apart. -/
def Shipped (link : List (Msg P)) (snap : Snapshot P) (rest : List (String × History P)) : Prop :=
  ∃ serverId done, link = .beginOldTailHistory serverId snap.bankUpdateSeq :: snap.histories done ∧
    (done ++ rest).Perm (snap.processed.entries.map fun e => (e.1, e.2))

/-- What the background thread has copied and sent, at each of its statements. -/
def Copied (s : Extending P) : Prop :=
  match s.thread with
  | .notStarted | .copyProcessed => s.link = []
  | .copyBank processed => s.link = [] ∧ processed = s.server.processed
  | .copySn processed accounts => s.link = [] ∧ processed = s.server.processed ∧ accounts = s.server.accounts
  | .beginHistory snap => s.link = [] ∧ Server.Tracks snap s.server
  | .iterate snap => (∃ serverId, s.link = [.beginOldTailHistory serverId snap.bankUpdateSeq]) ∧
      Server.Tracks snap s.server
  | .loop snap items => Shipped s.link snap items ∧ Server.Tracks snap s.server
  | .send snap item items => Shipped s.link snap (item :: items) ∧ Server.Tracks snap s.server
  | .sendSent snap => Shipped s.link snap [] ∧ Server.Tracks snap s.server
  | _ => True

/-- What holds of a tail that extends its chain. -/
structure HandoffInv (accountOf : String → String) (s : Extending P) : Prop where
  idle : s.idle = true
  sound : s.server.Sound s.server.sent
  funded : s.server.Funded s.server.sent
  owned : s.server.SentOwned accountOf
  numbered : ∀ r ∈ s.server.sent, r.bankUpdateSeq ≤ s.server.bankUpdateSeq
  tail : s.thread.early = true → s.server.isTail = true ∧ s.server.extendingChain = true ∧
    s.server.abortExtending = false ∧ s.server.SentStored
  copied : s.Copied

variable {accountOf : String → String} {s t : Extending P}

lemma HandoffInv.request {req : Request P} {c : P} {server : Server P} {out : List (P × Msg P)}
    (h : s.HandoffInv accountOf) (hlock : s.thread.locked = false)
    (hreq : req.type ≠ .query → accountOf req.reqId = req.accountId)
    (hs : s.server.processReq req c = some (server, out)) : HandoffInv accountOf { s with server := server } := by
  have hcase := h.sound.processReq_cases hs
  obtain ⟨-, htail, hext, habort⟩ := hcase.frame
  obtain ⟨hle, l, hsent, hl⟩ := hcase.sent_append hreq
  refine ⟨h.idle, hcase.sound h.sound, hcase.funded h.funded, ?_, ?_, fun hearly => ?_, ?_⟩
  · intro r hr
    rw [hsent] at hr
    exact (List.mem_append.mp hr).elim (h.owned r) fun hr => (hl r hr).2
  · intro r hr
    rw [hsent] at hr
    exact (List.mem_append.mp hr).elim (fun hr => (h.numbered r hr).trans hle) fun hr => (hl r hr).1
  · obtain ⟨htail', hext', habort', hstored⟩ := h.tail hearly
    exact ⟨htail.trans htail', hext.trans hext', habort.trans habort',
      hcase.sentStored htail' hstored h.owned hreq⟩
  · have htracks (snap : Snapshot P) (hearly : s.thread.early = true) (htracks : Server.Tracks snap s.server) :
        Server.Tracks snap server := by
      obtain ⟨htail', hext', -, hstored⟩ := h.tail hearly
      exact htracks.serve hcase h.sound htail' hext' hstored h.owned hreq
    have hcopied := h.copied
    obtain ⟨old, main, thread, link, aborted⟩ := s
    cases thread with
    | copyBank _ | copySn _ _ => cases hlock
    | notStarted | copyProcessed => exact hcopied
    | clear | setTail | setExtending | checkAbort | resetTail | finished => trivial
    | beginHistory snap | iterate snap | loop snap _ | send snap _ _ | sendSent snap =>
      exact hcopied.imp_right (htracks snap rfl)

/-- Before `NEW_TAIL_COME` only the books matter. -/
lemma HandoffInv.prepare {server : Server P} (h : s.HandoffInv accountOf) (hfresh : s.fresh = true)
    (hsound : server.Sound server.sent) (hfunded : server.Funded server.sent)
    (howned : server.SentOwned accountOf) (hnumbered : ∀ r ∈ server.sent, r.bankUpdateSeq ≤ server.bankUpdateSeq) :
    HandoffInv accountOf { s with server := server } := by
  refine ⟨h.idle, hsound, hfunded, howned, hnumbered, fun hearly => ?_, ?_⟩
  · rw [show s.thread = _ from thread_of_fresh hfresh] at hearly
    cases hearly
  · have hcopied := h.copied
    rw [Copied, thread_of_fresh hfresh] at hcopied
    rw [Copied, show s.thread = _ from thread_of_fresh hfresh]
    exact hcopied

lemma HandoffInv.ack {n : ℤ} {server : Server P} {out : List (P × Msg P)} (h : s.HandoffInv accountOf)
    (hfresh : s.fresh = true) (hs : s.server.ack n = some (server, out)) :
    HandoffInv accountOf { s with server := server } := by
  rw [Server.ack_state hs]
  obtain ⟨processed, sent, heq, -⟩ := Server.moveAcked_frame n s.server.sent s.server none
  have hmem {C : Request P → Prop} (hC : ∀ r ∈ s.server.sent, C r) :
      ∀ r ∈ (Server.moveAcked n s.server.sent s.server none).1.sent, C r :=
    Server.moveAcked_rule (Q := fun _ l => ∀ r ∈ l, C r) (fun _ _ _ hl => (List.forall_mem_cons.mp hl).2)
      (fun _ _ hl => hl) n s.server.sent none hC
  refine h.prepare hfresh (Server.moveAcked_sound n _ none h.sound) ?_ (hmem h.owned) (hmem ?_)
  · exact Server.moveAcked_rule (Q := Server.Funded) (fun _ _ _ hf => hf.insertProcessedList) (fun _ _ hf => hf)
      n s.server.sent none h.funded
  · rw [heq]
    exact h.numbered

lemma HandoffInv.toBeTail {server : Server P} {out : List (P × Msg P)} (h : s.HandoffInv accountOf)
    (hfresh : s.fresh = true) (hs : s.server.toBeTail = some (server, out)) :
    HandoffInv accountOf { s with server := server } := by
  rw [Server.toBeTail_state hs]
  have hsound := Server.foldl_insertProcessedList_rule (s := { s.server with isTail := true })
    (Q := Server.Sound) (fun _ _ _ h => h.insertProcessedList) s.server.sent
    (h.sound.congr rfl rfl)
  refine h.prepare hfresh ?_ ?_ ?_ ?_
  · exact hsound.congr rfl rfl
  · exact Server.foldl_insertProcessedList_rule (s := { s.server with isTail := true })
      (Q := Server.Funded) (fun _ _ _ h => h.insertProcessedList) s.server.sent h.funded
  · rintro r ⟨⟩
  · rintro r ⟨⟩

lemma HandoffInv.newTailCome {newTail : P} {server : Server P} (h : s.HandoffInv accountOf)
    (hfresh : s.fresh = true) (htail : s.server.isTail = true) (hcome : s.server.newTailCome newTail = some server) :
    HandoffInv accountOf { s with server := server, thread := .copyProcessed } := by
  have hcopied := h.copied
  rw [Copied, thread_of_fresh hfresh] at hcopied
  unfold Server.newTailCome at hcome
  split_ifs at hcome with hsent
  obtain rfl := Option.some.inj hcome
  have hstored : s.server.SentStored := by
    intro r hr
    rw [hsent] at hr
    cases hr
  exact ⟨h.idle, h.sound.congr rfl rfl,
    h.funded, h.owned, h.numbered, fun _ => ⟨htail, rfl, rfl, hstored⟩, hcopied⟩

lemma HandoffInv.toBeHead (h : s.HandoffInv accountOf) :
    HandoffInv accountOf { s with server := s.server.toBeHead } := by
  have htracks {snap : Snapshot P} (ht : Server.Tracks snap s.server) : Server.Tracks snap s.server.toBeHead := by
    refine ⟨ht.accounts, fun n hn => ?_⟩
    have hcopy := ht.copy n hn
    exact ⟨hcopy.sound, hcopy.sent, hcopy.balance, hcopy.stored, hcopy.bankUpdateSeq⟩
  have hcopied := h.copied
  refine ⟨h.idle, h.sound.congr rfl rfl,
    h.funded, h.owned, h.numbered, h.tail, ?_⟩
  obtain ⟨server, main, thread, link, aborted⟩ := s
  cases thread with
  | notStarted | copyProcessed | copyBank _ | copySn _ _ => exact hcopied
  | clear | setTail | setExtending | checkAbort | resetTail | finished => trivial
  | beginHistory snap | iterate snap | loop snap _ | send snap _ _ | sendSent snap => exact hcopied.imp_right htracks

/-- The copies are taken under `snapshot_lock`, so that they are of one state. -/
lemma HandoffInv.threadStep (h : s.HandoffInv accountOf) (hstep : s.threadStep = some t) :
    t.HandoffInv accountOf := by
  have htail := h.tail
  have hcopied := h.copied
  obtain ⟨server, main, thread, link, aborted⟩ := s
  cases thread with
  | notStarted | iterate _ | finished => cases hstep
  | copyProcessed =>
    obtain rfl := Option.some.inj hstep
    exact ⟨h.idle, h.sound, h.funded, h.owned, h.numbered, htail, hcopied, rfl⟩
  | copyBank processed =>
    obtain rfl := Option.some.inj hstep
    exact ⟨h.idle, h.sound, h.funded, h.owned, h.numbered, htail, hcopied.1, hcopied.2, rfl⟩
  | copySn processed accounts =>
    obtain rfl := Option.some.inj hstep
    obtain ⟨hlink, hprocessed, haccounts⟩ := hcopied
    have hprocessed : processed = server.processed := hprocessed
    have haccounts : accounts = server.accounts := haccounts
    rw [hprocessed, haccounts]
    have hfunded := h.funded.stored (htail rfl).2.2.2
    exact ⟨h.idle, h.sound, h.funded, h.owned, h.numbered, htail, hlink, .start h.sound hfunded h.numbered⟩
  | beginHistory snap =>
    obtain rfl := Option.some.inj hstep
    obtain ⟨hlink, htracks⟩ := hcopied
    have hlink : link = [] := hlink
    refine ⟨h.idle, h.sound, h.funded, h.owned, h.numbered, htail, ⟨server.serverId, ?_⟩, htracks⟩
    rw [hlink, List.nil_append]
  | loop snap items =>
    obtain ⟨hlink, htracks⟩ := hcopied
    cases items with
    | nil =>
      obtain rfl := Option.some.inj hstep
      exact ⟨h.idle, h.sound, h.funded, h.owned, h.numbered, htail, hlink, htracks⟩
    | cons item items =>
      obtain rfl := Option.some.inj hstep
      have habort : server.abortExtending = false := (htail rfl).2.2.1
      rw [if_neg (by simp [habort])]
      exact ⟨h.idle, h.sound, h.funded, h.owned, h.numbered, htail, hlink, htracks⟩
  | send snap item items =>
    obtain rfl := Option.some.inj hstep
    obtain ⟨⟨serverId, done, hlink, hperm⟩, htracks⟩ := hcopied
    refine ⟨h.idle, h.sound, h.funded, h.owned, h.numbered, htail, ⟨serverId, done ++ [item], ?_, ?_⟩, htracks⟩
    · rw [hlink]
      simp [Snapshot.histories]
    · rwa [List.append_assoc, List.singleton_append]
  | sendSent snap =>
    obtain rfl := Option.some.inj hstep
    exact ⟨h.idle, h.sound, h.funded, h.owned, h.numbered, htail, trivial⟩
  | clear =>
    obtain rfl := Option.some.inj hstep
    have hsound : server.Sound [] := h.sound.mono (List.nil_subset _)
    obtain ⟨ht, hext, habort, hstored⟩ := htail rfl
    have hfunded : server.Funded [] := h.funded.stored hstored
    exact ⟨h.idle, hsound.congr rfl rfl, hfunded,
      by rintro r ⟨⟩, by rintro r ⟨⟩, fun _ => ⟨ht, hext, habort, by rintro r ⟨⟩⟩, trivial⟩
  | setTail | setExtending | resetTail =>
    obtain rfl := Option.some.inj hstep
    exact ⟨h.idle, h.sound.congr rfl rfl,
      h.funded, h.owned, h.numbered, nofun, trivial⟩
  | checkAbort =>
    obtain rfl := Option.some.inj hstep
    by_cases habort : server.abortExtending = true
    · rw [if_pos habort]
      exact ⟨h.idle, h.sound, h.funded, h.owned, h.numbered, nofun, trivial⟩
    · rw [if_neg habort]
      exact ⟨h.idle, h.sound, h.funded, h.owned, h.numbered, nofun, trivial⟩

lemma HandoffInv.step {l : ExtendLabel P} (h : s.HandoffInv accountOf) (hl : s.HandsOver accountOf l)
    (hs : s.step l = some t) : t.HandoffInv accountOf := by
  cases l with
  | request req c =>
    simp only [Extending.step] at hs
    split_ifs at hs with hfree
    obtain ⟨r, hr, rfl⟩ := Option.map_eq_some_iff.mp hs
    exact h.request (by simpa using (Bool.and_eq_true_iff.mp hfree).2) hl hr
  | ack n =>
    simp only [Extending.step] at hs
    split_ifs at hs
    obtain ⟨r, hr, rfl⟩ := Option.map_eq_some_iff.mp hs
    exact h.ack hl hr
  | toBeHead =>
    simp only [Extending.step] at hs
    split_ifs at hs
    obtain rfl := Option.some.inj hs
    exact h.toBeHead
  | toBeTail =>
    simp only [Extending.step] at hs
    split_ifs at hs
    obtain ⟨r, hr, rfl⟩ := Option.map_eq_some_iff.mp hs
    exact h.toBeTail hl hr
  | newTailCome newTail =>
    simp only [Extending.step] at hs
    split_ifs at hs with hfree
    obtain ⟨server, hserver, rfl⟩ := Option.map_eq_some_iff.mp hs
    exact h.newTailCome (Bool.and_eq_true_iff.mp hfree).2 hl hserver
  | abort => exact hl.elim
  | main =>
    rw [Extending.step, mainStep, main_of_idle h.idle] at hs
    cases hs
  | thread => exact h.threadStep hs
  | iterate accountIds =>
    have hcopied := h.copied
    obtain ⟨server, main, thread, link, aborted⟩ := s
    cases thread with
    | iterate snap =>
      simp only [Extending.step] at hs
      split_ifs at hs with hperm
      obtain rfl := Option.some.inj hs
      obtain ⟨⟨serverId, hlink⟩, htracks⟩ := hcopied
      exact ⟨h.idle, h.sound, h.funded, h.owned, h.numbered, h.tail,
        ⟨serverId, [], hlink, AList.map_lookup_perm hperm ∅⟩, htracks⟩
    | _ => cases hs

/-- Wherever the snapshot and the last locked block fall between the requests of a tail, the new server that
has handled what the background thread sends has the balances, the histories and the number that the tail has in
that block, whatever it held before. -/
theorem handoff_exact {serverId : ℕ} {bankId : String} {prev succ : Option P} {master : P}
    {startDelay : Bool} (hrun : Machine.Reach step (HandsOver accountOf)
      { server := .setup serverId bankId prev succ master startDelay } s)
    (hblock : s.sendsSent = true) (n : Server P) (p : P) :
    ∃ n', n.receiveAll p (s.link ++ [.oldTailSentList s.server.sent]) = some n' ∧
      (∀ a, n'.balance a = s.server.balance a) ∧ (∀ a id, n'.stored a id = s.server.stored a id) ∧
      n'.bankUpdateSeq = s.server.bankUpdateSeq := by
  have h : s.HandoffInv accountOf := by
    refine hrun.invariant (I := HandoffInv accountOf) ?_ fun s l t h hl hs => h.step hl hs
    refine ⟨rfl, Server.setup_sound serverId bankId prev succ master startDelay, ?_, ?_, ?_, nofun, rfl⟩
    · exact fun a ha => absurd rfl ha
    · rintro r ⟨⟩
    · rintro r ⟨⟩
  have hcopied := h.copied
  unfold sendsSent at hblock
  split at hblock
  · rename_i snap hthread
    rw [Copied, hthread] at hcopied
    obtain ⟨⟨beginId, done, hlink, hperm⟩, htracks⟩ := hcopied
    rw [List.append_nil] at hperm
    obtain ⟨n₀, hn₀, hmirrors⟩ := Server.receiveAll_mirrors (n := n) (p := p) hperm htracks.accounts beginId
    have hcopy := htracks.copy n₀ hmirrors
    refine ⟨(n₀.oldTailSentList s.server.sent).1, ?_, hcopy.balance, hcopy.stored, hcopy.bankUpdateSeq⟩
    rw [hlink, Server.receiveAll_append, hn₀, Option.bind_some]
    rfl
  · cases hblock

/-- An update of one account that server 1 forwards. -/
def sampleUpdate (reqId : String) (type : RequestType) (bankUpdateSeq : ℤ) : Request ℕ where
  reqId := reqId
  type := type
  bankId := "BOA"
  accountId := "a"
  amount := 5
  bankUpdateSeq := bankUpdateSeq
  client := some 50

/-- The second deposit falls between `NEW_TAIL_COME` and the snapshot, its duplicate and a withdrawal between
the snapshot and the last block. -/
def sampleHandoff : List (ExtendLabel ℕ) :=
  [.request (sampleUpdate "1" .deposit 1) 1, .newTailCome 3, .request (sampleUpdate "2" .deposit 2) 1, .thread,
    .thread, .thread, .request (sampleUpdate "2" .deposit 3) 1, .thread, .iterate ["a"], .thread,
    .request (sampleUpdate "3" .withdraw 4) 1, .thread, .thread]

theorem handoff_exact_sample :
    let s := Machine.after step (HandsOver fun _ => "a")
      { server := .setup 2 "BOA" (some 1) none 100 false } sampleHandoff
    ∃ n', (Server.setup 3 "BOA" none none 100 true).receiveAll 2 (s.link ++ [.oldTailSentList s.server.sent]) =
        some n' ∧ (∀ a, n'.balance a = s.server.balance a) ∧ (∀ a id, n'.stored a id = s.server.stored a id) ∧
      n'.bankUpdateSeq = s.server.bankUpdateSeq :=
  handoff_exact (Machine.reach_after (by decide +kernel)) (by decide +kernel) _ 2

end Extending

end ChainReplication.DistAlgo
