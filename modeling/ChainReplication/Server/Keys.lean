import ChainReplication.Server.Dedup
import ChainReplication.Library.Separator
import ChainReplication.Client.Requests

/-!
# The keys of the processed requests

`processed_map_` is to find a request by its id and its account. The key joins the two with `_`, which both
may contain.
-/

namespace ChainReplication

/-- What a map from pairs of a request id and an account id holds once the requests have been inserted in
order, the first one of a pair staying. -/
def firstWith (reqs : List Request) (reqId accountId : String) : Option Request :=
  reqs.find? fun q => q.reqId = reqId ∧ q.accountId = accountId

namespace ChainServer

/-- `processed_map_`, filled from empty with some requests, agrees with the map from pairs at a pair. -/
def AgreesAt (s : ChainServer) (reqs : List Request) (reqId accountId : String) : Prop :=
  ({ s with processedMap := ∅ }.insertAllProcessed reqs).processedMap.lookup
    (reqId ++ "_" ++ accountId) = firstWith reqs reqId accountId

instance (s : ChainServer) (reqs : List Request) (reqId accountId : String) :
    Decidable (s.AgreesAt reqs reqId accountId) := inferInstanceAs (Decidable (_ = _))

variable {s : ChainServer} {reqs : List Request} {r a : String}

lemma agreesAt_iff_find? : s.AgreesAt reqs r a ↔
    (reqs.find? fun q => q.key = r ++ "_" ++ a) = firstWith reqs r a := by
  rw [AgreesAt, lookup_insertAllProcessed, AList.lookup_empty, Option.none_or]

/-- The map agrees at a pair as long as no other pair with the same key comes first. -/
lemma agreesAt_iff : s.AgreesAt reqs r a ↔
    ∀ l q l', reqs = l ++ q :: l' → q.key = r ++ "_" ++ a →
      (q.reqId = r ∧ q.accountId = a) ∨ ∃ q' ∈ l, q'.reqId = r ∧ q'.accountId = a := by
  have hkey (q : Request) (hq : decide (q.reqId = r ∧ q.accountId = a) = true) :
      decide (q.key = r ++ "_" ++ a) = true := by
    obtain ⟨rfl, rfl⟩ := of_decide_eq_true hq
    exact decide_eq_true rfl
  rw [agreesAt_iff_find?, firstWith, List.find?_eq_find?_iff hkey]
  simp only [decide_eq_true_eq]

/-- An inserted request with a further `_` is also found under a pair that is not its own. -/
lemma agreesAt_all_iff : (∀ r a, s.AgreesAt reqs r a) ↔
    ∀ q ∈ reqs, '_' ∉ q.reqId.toList ∧ '_' ∉ q.accountId.toList := by
  constructor
  · intro h q hq
    by_contra hsep
    have hsep : '_' ∈ q.reqId.toList ∨ '_' ∈ q.accountId.toList := by
      by_contra! hnot
      exact hsep hnot
    obtain ⟨r', a', hkey, hne⟩ := @String.exists_split_ne "_" _ rfl _ _ hsep
    have hown := agreesAt_iff_find?.mp (h q.reqId q.accountId)
    have hother := agreesAt_iff_find?.mp (h r' a')
    rw [hkey, hown] at hother
    cases hfirst : firstWith reqs q.reqId q.accountId with
    | none =>
      have hnot := List.find?_eq_none.mp hfirst q hq
      simp at hnot
    | some q' =>
      rw [hfirst] at hother
      have hpair := List.find?_some hfirst
      have hpair' := List.find?_some hother.symm
      simp only [decide_eq_true_eq] at hpair hpair'
      exact hne ⟨hpair'.1.symm.trans hpair.1, hpair'.2.symm.trans hpair.2⟩
  · intro h r a
    refine agreesAt_iff.mpr fun l q l' hreqs hkey => Or.inl ?_
    obtain ⟨hid, hacc⟩ := h q (hreqs ▸ List.mem_append_right l List.mem_cons_self)
    exact (String.append_sep_inj_of_notMem rfl hid hacc).mp hkey

/-- The map agrees with the map from pairs at a pair exactly when no other pair with the same key comes
first, and at every pair exactly when no inserted request has a `_` in its id or its account id. -/
theorem processedMap_agrees_iff (s : ChainServer) (reqs : List Request) :
    (∀ r a, s.AgreesAt reqs r a ↔
      ∀ l q l', reqs = l ++ q :: l' → q.reqId ++ "_" ++ q.accountId = r ++ "_" ++ a →
        (q.reqId = r ∧ q.accountId = a) ∨ ∃ q' ∈ l, q'.reqId = r ∧ q'.accountId = a) ∧
    ((∀ r a, s.AgreesAt reqs r a) ↔
      ∀ q ∈ reqs, '_' ∉ q.reqId.toList ∧ '_' ∉ q.accountId.toList) :=
  ⟨fun _ _ => agreesAt_iff, agreesAt_all_iff⟩

/-- A deposit of a client, as its configuration gives it. -/
def samplePayment (clientid accountId : String) : Request :=
  { reqId := Client.reqId "BOA" clientid 1, type := .deposit, clientAddr := .empty,
    accountId := accountId, bankId := "BOA", amount := 5 }

/-- The payments of two clients into two accounts of one bank share a key: the second one is found before it
is inserted, and a server with both accounts takes it for processed. -/
theorem processedMap_collision :
    let paid := samplePayment "c" "x.1_y"
    let next := samplePayment "c.1_x" "y"
    let s : ChainServer := { accountMap := (∅ : AList fun _ => ℚ).insert "y" 0 }
    ¬ s.AgreesAt [paid] next.reqId next.accountId ∧
      firstWith [paid] next.reqId next.accountId = none ∧
      ((s.insertAllProcessed [paid]).updateRequestReply next).2.checkResult = .processed := by
  decide +kernel

end ChainServer

end ChainReplication
