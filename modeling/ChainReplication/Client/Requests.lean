import ChainReplication.Message
import ChainReplication.Library.OrderedMap
import ChainReplication.DistAlgo.Workload

/-!
# The requests of a client

The part of `read_config_client` that fills the list of requests of a client, from the entries of the
configuration or at random. `run` sets the client address later.
-/

namespace ChainReplication

namespace Client

/-- The id of a request. -/
def reqId (bankId clientid : String) (seq : ℤ) : String :=
  bankId ++ "." ++ clientid ++ "." ++ toString seq

/-- An entry of `requests`. -/
structure RequestEntry where
  bankId : String
  accountId : String
  seq : ℤ
  type : String
  amount : ℚ := 0
  destBankId : String := ""
  destAccountId : String := ""

/-- The request for an entry; `none` when its type is illegal. -/
def RequestEntry.toRequest (clientid : String) (e : RequestEntry) : Option Request :=
  let req : Request :=
    { reqId := reqId e.bankId clientid e.seq
      type := .query
      clientAddr := .empty
      bankId := e.bankId
      accountId := e.accountId
      amount := e.amount }
  if e.type = "QUERY" then some { req with type := .query, amount := 0 }
  else if e.type = "DEPOSIT" then some { req with type := .deposit }
  else if e.type = "WITHDRAW" then some { req with type := .withdraw }
  else if e.type = "TRANSFER" then
    some { req with
      type := .transfer, destBankId := e.destBankId, destAccountId := e.destAccountId }
  else none

/-- The requests of a client whose configuration lists them. -/
def readRequests (clientid : String) (entries : List RequestEntry) : Option (List Request) :=
  entries.mapM (RequestEntry.toRequest clientid)

/-- The fields of `reqseed`. -/
structure ReqSeed where
  reqNum : ℕ
  accountNum : ℕ
  maxAmount : ℕ
  probQuery : ℕ
  probDeposit : ℕ
  probWithdraw : ℕ

namespace ReqSeed

/-- What the random draws for types range over. -/
def total (seed : ReqSeed) : ℕ := seed.probQuery + seed.probDeposit + seed.probWithdraw

/-- `genreq_map`. -/
def genreqMap (seed : ReqSeed) : OrderedMap ℕ RequestType :=
  ((OrderedMap.empty.assign seed.probQuery .query).assign
    (seed.probQuery + seed.probDeposit) .deposit).assign
      (seed.probQuery + seed.probDeposit + seed.probWithdraw) .withdraw

/-- The type for a draw; `none` stands for `end()`. -/
def typeOf (seed : ReqSeed) (reqTmp : ℕ) : Option RequestType :=
  (seed.genreqMap.upperBound reqTmp).map Prod.snd

/-- The request number `i`, with the values of the four calls of `rand`. -/
def genRequest (seed : ReqSeed) (clientid : String) (bankIds : List String) (i : ℕ)
    (rand : Fin 4 → ℕ) : Option Request := do
  let bankid ← bankIds[rand 0 % bankIds.length]?
  let accountid := "account" ++ toString (rand 1 % seed.accountNum + 1)
  let type ← seed.typeOf (rand 3 % seed.total)
  return {
    reqId := reqId bankid clientid (i + 1)
    type := type
    clientAddr := .empty
    bankId := bankid
    accountId := accountid
    amount := if type = .query then 0 else (rand 2 % (seed.maxAmount + 1) : ℕ) }

/-- The requests of a client whose configuration has a seed. -/
def genRequests (seed : ReqSeed) (clientid : String) (bankIds : List String)
    (rand : ℕ → Fin 4 → ℕ) : Option (List Request) :=
  (List.range seed.reqNum).mapM fun i => seed.genRequest clientid bankIds i (rand i)

/-- The configured weight of a type. -/
def weight (seed : ReqSeed) : RequestType → ℕ
  | .query => seed.probQuery
  | .deposit => seed.probDeposit
  | .withdraw => seed.probWithdraw
  | .transfer | .transferTo => 0

/-- The number of draws that give a type. -/
def draws (seed : ReqSeed) (type : RequestType) : ℕ :=
  ((Finset.range seed.total).filter fun t => seed.typeOf t = some type).card

/-- Every draw gives a type, each type as often as its weight says, and the types of positive weight are
the ones that occur. -/
structure RespectsWeights (seed : ReqSeed) : Prop where
  found : ∀ t < seed.total, seed.typeOf t ≠ none
  draws : ∀ type, seed.draws type = seed.weight type
  generated : ∀ type, (∃ t < seed.total, seed.typeOf t = some type) ↔ 0 < seed.weight type

variable {seed : ReqSeed} {t : ℕ} {type : RequestType}

/-- The entries of `genreq_map`: a key that repeats the one before it replaces its type. -/
lemma mem_genreqMap {e : ℕ × RequestType} : e ∈ seed.genreqMap.entries ↔
    e = (seed.total, .withdraw) ∨
    e = (seed.probQuery + seed.probDeposit, .deposit) ∧ 0 < seed.probWithdraw ∨
    e = (seed.probQuery, .query) ∧ 0 < seed.probDeposit := by
  simp only [genreqMap, OrderedMap.mem_assign, OrderedMap.notMem_empty, false_and, or_false, total]
  constructor
  · rintro (rfl | ⟨rfl | ⟨rfl, hdeposit⟩, hwithdraw⟩)
    · exact Or.inl rfl
    · exact Or.inr (Or.inl ⟨rfl, by simp only at hwithdraw; omega⟩)
    · exact Or.inr (Or.inr ⟨rfl, by simp only at hdeposit; omega⟩)
  · rintro (rfl | ⟨rfl, hwithdraw⟩ | ⟨rfl, hdeposit⟩)
    · exact Or.inl rfl
    · exact Or.inr ⟨Or.inl rfl, by simp only; omega⟩
    · exact Or.inr ⟨Or.inr ⟨rfl, by simp only; omega⟩, by simp only; omega⟩

/-- What a draw gives: a type that the next assignment has replaced passes its draws on. -/
lemma typeOf_of_lt (h : t < seed.total) : seed.typeOf t = some
    (if t < seed.probQuery ∧ 0 < seed.probDeposit then .query
      else if t < seed.probQuery + seed.probDeposit ∧ 0 < seed.probWithdraw then .deposit
      else .withdraw) := by
  have hfound {e : ℕ × RequestType} (he : e ∈ seed.genreqMap.entries) (hlt : t < e.1)
      (hleast : ∀ e' ∈ seed.genreqMap.entries, t < e'.1 → e.1 ≤ e'.1) :
      seed.typeOf t = some e.2 := by
    rw [typeOf, OrderedMap.upperBound_of_least he hlt hleast, Option.map_some]
  have htotal : seed.total = seed.probQuery + seed.probDeposit + seed.probWithdraw := rfl
  split_ifs with hquery hdeposit
  · refine hfound (e := (seed.probQuery, .query)) (mem_genreqMap.mpr (by simp [hquery.2])) hquery.1 ?_
    intro e' he' hlt
    rcases mem_genreqMap.mp he' with rfl | ⟨rfl, -⟩ | ⟨rfl, -⟩ <;> simp only <;> omega
  · refine hfound (e := (seed.probQuery + seed.probDeposit, .deposit))
      (mem_genreqMap.mpr (by simp [hdeposit.2])) hdeposit.1 ?_
    intro e' he' hlt
    rcases mem_genreqMap.mp he' with rfl | ⟨rfl, -⟩ | ⟨rfl, hpos⟩ <;> simp only at hlt ⊢ <;> omega
  · refine hfound (e := (seed.total, .withdraw)) (mem_genreqMap.mpr (Or.inl rfl)) h ?_
    intro e' he' hlt
    rcases mem_genreqMap.mp he' with rfl | ⟨rfl, -⟩ | ⟨rfl, hpos⟩ <;> simp only at hlt ⊢ <;> omega

/-- No assignment replaces a type of positive weight. -/
def Kept (seed : ReqSeed) : Prop :=
  0 < seed.probWithdraw ∧ (0 < seed.probDeposit ∨ seed.probQuery = 0)

instance (seed : ReqSeed) : Decidable seed.Kept := inferInstanceAs (Decidable (_ ∧ _))

/-- When no type is replaced, each one has the draws between its own key and the one before it. -/
lemma typeOf_of_kept (hkept : seed.Kept) (h : t < seed.total) : seed.typeOf t = some
    (if t < seed.probQuery then .query
      else if t < seed.probQuery + seed.probDeposit then .deposit
      else .withdraw) := by
  obtain ⟨hwithdraw, hdeposit⟩ := hkept
  have hquery : t < seed.probQuery ∧ 0 < seed.probDeposit ↔ t < seed.probQuery := by omega
  have hpos : t < seed.probQuery + seed.probDeposit ∧ 0 < seed.probWithdraw ↔
      t < seed.probQuery + seed.probDeposit := by omega
  rw [typeOf_of_lt h]
  simp only [hquery, hpos]

/-- When a type is replaced, some draw of it goes to a type of weight 0. -/
lemma exists_replaced (htotal : 0 < seed.total) (hkept : ¬ seed.Kept) : ∃ t < seed.total,
    seed.typeOf t = some .withdraw ∧ seed.probWithdraw = 0 ∨
    seed.typeOf t = some .deposit ∧ seed.probDeposit = 0 ∧ t < seed.probQuery := by
  by_cases hwithdraw : seed.probWithdraw = 0
  · have hsum : seed.total = seed.probQuery + seed.probDeposit + seed.probWithdraw := rfl
    refine ⟨seed.total - 1, by omega, Or.inl ⟨?_, hwithdraw⟩⟩
    rw [typeOf_of_lt (by omega), if_neg (by omega), if_neg (by omega)]
  · have hnot : seed.probDeposit = 0 ∧ 0 < seed.probQuery := by
      unfold Kept at hkept
      omega
    refine ⟨0, htotal, Or.inr ⟨?_, hnot⟩⟩
    rw [typeOf_of_lt htotal, if_neg (by omega), if_pos (by omega)]

/-- The number of draws of a type that has an interval of them. -/
lemma draws_of_interval {a b : ℕ} (hb : b ≤ seed.total)
    (h : ∀ t < seed.total, seed.typeOf t = some type ↔ a ≤ t ∧ t < b) :
    seed.draws type = b - a := by
  have hfilter : ((Finset.range seed.total).filter fun t => seed.typeOf t = some type) =
      Finset.Ico a b := by
    ext t
    rw [Finset.mem_filter, Finset.mem_range, Finset.mem_Ico]
    constructor
    · rintro ⟨ht, htype⟩
      exact (h t ht).mp htype
    · intro ht
      have hlt : t < seed.total := by omega
      exact ⟨hlt, (h t hlt).mpr ht⟩
  rw [draws, hfilter, Nat.card_Ico]

lemma draws_of_kept (hkept : seed.Kept) (type : RequestType) : seed.draws type = seed.weight type := by
  have htotal : seed.total = seed.probQuery + seed.probDeposit + seed.probWithdraw := rfl
  cases type with
  | query =>
    have hdraws : seed.draws .query = seed.probQuery - 0 := by
      refine draws_of_interval (by omega) fun t ht => ?_
      rw [typeOf_of_kept hkept ht]
      split_ifs <;> simp <;> omega
    simpa [weight] using hdraws
  | deposit =>
    have hdraws : seed.draws .deposit = seed.probQuery + seed.probDeposit - seed.probQuery := by
      refine draws_of_interval (by omega) fun t ht => ?_
      rw [typeOf_of_kept hkept ht]
      split_ifs <;> simp <;> omega
    simpa [weight] using hdraws
  | withdraw =>
    have hdraws : seed.draws .withdraw = seed.total - (seed.probQuery + seed.probDeposit) := by
      refine draws_of_interval le_rfl fun t ht => ?_
      rw [typeOf_of_kept hkept ht]
      split_ifs <;> simp <;> omega
    rw [hdraws, weight]
    omega
  | transfer | transferTo =>
    refine draws_of_interval (a := 0) (b := 0) (Nat.zero_le seed.total) fun t ht => ?_
    rw [typeOf_of_kept hkept ht]
    split_ifs <;> simp

/-- A type occurs among the draws when their number is positive. -/
lemma draws_pos : 0 < seed.draws type ↔ ∃ t < seed.total, seed.typeOf t = some type := by
  rw [draws, Finset.card_pos]
  simp [Finset.Nonempty]

/-- The generated requests respect the weights exactly when every type of positive weight keeps its key:
the last weight is positive, and the middle one is unless the first is 0. -/
theorem respectsWeights_iff (htotal : 0 < seed.total) : seed.RespectsWeights ↔
    0 < seed.probWithdraw ∧ (0 < seed.probDeposit ∨ seed.probQuery = 0) := by
  constructor
  · intro h
    by_contra hnot
    obtain ⟨t, ht, ⟨htype, hweight⟩ | ⟨htype, hweight⟩⟩ := exists_replaced htotal hnot
    · have hpos := (h.generated .withdraw).mp ⟨t, ht, htype⟩
      exact absurd hweight hpos.ne'
    · have hpos := (h.generated .deposit).mp ⟨t, ht, htype⟩
      exact absurd hweight.1 hpos.ne'
  · intro hkept
    refine ⟨fun t ht => ?_, draws_of_kept hkept, fun type => ?_⟩
    · rw [typeOf_of_kept hkept ht]
      exact Option.some_ne_none _
    · rw [← draws_pos, draws_of_kept hkept]

/-- The seed of the sample configurations. -/
def sampleSeed (query deposit withdraw : ℕ) : ReqSeed :=
  { reqNum := 10, accountNum := 1, maxAmount := 1000,
    probQuery := query, probDeposit := deposit, probWithdraw := withdraw }

theorem respectsWeights_iff_sample : 0 < (sampleSeed 3 5 2).total ∧
    ((sampleSeed 3 5 2).RespectsWeights ↔ 0 < (2 : ℕ) ∧ (0 < (5 : ℕ) ∨ (3 : ℕ) = 0)) :=
  ⟨by decide, respectsWeights_iff (by decide)⟩

/-- Without deposits, the queries turn into deposits. -/
theorem not_respectsWeights_sample : 0 < (sampleSeed 1 0 1).total ∧ ¬ (sampleSeed 1 0 1).RespectsWeights ∧
    (sampleSeed 1 0 1).typeOf 0 = some .deposit := by
  refine ⟨by decide, fun h => ?_, by decide⟩
  have hdraws := h.draws .query
  exact absurd hdraws (by decide)

/-- Every round of the loop finds a type, and a query has no amount. -/
lemma genRequest_eq {bankIds : List String} {rand : Fin 4 → ℕ} (hbanks : bankIds ≠ [])
    (htotal : 0 < seed.total) (clientid : String) (i : ℕ) :
    ∃ req, seed.genRequest clientid bankIds i rand = some req ∧ req.bankId ∈ bankIds ∧
      req.reqId = reqId req.bankId clientid (i + 1) ∧
      seed.typeOf (rand 3 % seed.total) = some req.type ∧ (req.type = .query → req.amount = 0) := by
  have hbank : rand 0 % bankIds.length < bankIds.length :=
    Nat.mod_lt _ (List.length_pos_iff.mpr hbanks)
  have htype := @typeOf_of_lt seed _ (Nat.mod_lt (rand 3) htotal)
  rw [genRequest, List.getElem?_eq_getElem hbank, htype]
  exact ⟨_, rfl, List.getElem_mem hbank, rfl, rfl, fun hquery => if_pos hquery⟩

/-! ### The DistAlgo implementation -/

/-- `random_req_type` gives each type the draws between its own breakpoint and the one before it. -/
lemma pick_weight (h : t < seed.total) :
    DistAlgo.pick seed.weight 0 [.query, .deposit, .withdraw] t = some
      (if t < seed.probQuery then .query
        else if t < seed.probQuery + seed.probDeposit then .deposit
        else .withdraw) := by
  have htotal : seed.total = seed.probQuery + seed.probDeposit + seed.probWithdraw := rfl
  simp only [DistAlgo.pick_cons, DistAlgo.pick_nil, Nat.cast_lt, weight, zero_add]
  rw [← htotal, if_pos h]
  split_ifs <;> rfl

/-- The two implementations agree on every draw exactly when the weights are respected. -/
theorem typeOf_eq_randomReqType_iff (htotal : 0 < seed.total) :
    (∀ t < seed.total, seed.typeOf t =
      DistAlgo.randomReqType seed.weight [.query, .deposit, .withdraw] (t / seed.total)) ↔
    seed.Kept := by
  have hsum : ([.query, .deposit, .withdraw].map seed.weight).sum = seed.total := by
    simp [weight, total, add_assoc]
  simp only [DistAlgo.randomReqType_draw hsum htotal]
  constructor
  · intro h
    have hsum : seed.total = seed.probQuery + seed.probDeposit + seed.probWithdraw := rfl
    by_contra hnot
    obtain ⟨t, ht, hreplaced⟩ := exists_replaced htotal hnot
    rw [h t ht, pick_weight ht] at hreplaced
    split_ifs at hreplaced <;> simp at hreplaced <;> omega
  · intro hkept t ht
    rw [typeOf_of_kept hkept ht, pick_weight ht]

end ReqSeed

end Client

end ChainReplication
