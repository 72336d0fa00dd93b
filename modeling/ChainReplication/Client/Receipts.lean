import ChainReplication.Client.Turns

/-!
# What a client receives

What `receive` brings tells alone which reply counts for a request, how many timeouts come before it, and
which server the latest notification names. The client that `run` keeps follows it.
-/

namespace ChainReplication

namespace Receipt

/-- The reply that has come, if one has. -/
def reply? : Receipt → Option Reply
  | .message (.reply reply) => some reply
  | _ => none

/-- The server that a notification names for requests of the kind of `req`. -/
def names (req : Request) : Receipt → Option Address
  | .message (.newHead notify) =>
    if req.type ≠ .query ∧ notify.bankId = req.bankId then some notify.serverAddr else none
  | .message (.newTail notify) =>
    if req.type = .query ∧ notify.bankId = req.bankId then some notify.serverAddr else none
  | _ => none

/-- A notification is about a bank that the client knows, as the handlers assert. -/
def Known (c : Client) : Receipt → Prop
  | .message (.newHead notify) => notify.bankId ∈ c.bankHeadList
  | .message (.newTail notify) => notify.bankId ∈ c.bankTailList
  | _ => True

end Receipt

namespace RunningClient

/-- The reply at the end of `es` is dropped on purpose. -/
def Dropped (c : RunningClient) (es : List Receipt) : Prop :=
  c.dropInterval ≠ 0 ∧ (c.recvCount + es.countP fun e => e.reply?.isSome) % c.dropInterval = 0

/-- `e`, which comes after `past`, is a reply to `reqId` that is not dropped. -/
def Accepts (c : RunningClient) (reqId : String) (past : List Receipt) (e : Receipt) : Prop :=
  e.reply?.map Reply.reqId = some reqId ∧ ¬ c.Dropped (past ++ [e])

instance (c : RunningClient) (es : List Receipt) : Decidable (c.Dropped es) :=
  inferInstanceAs (Decidable (_ ∧ _))

instance (c : RunningClient) (reqId : String) (past : List Receipt) (e : Receipt) :
    Decidable (c.Accepts reqId past e) :=
  inferInstanceAs (Decidable (_ ∧ _))

/-- The part of `es`, which comes after `past`, before the first reply to `reqId` that is not dropped. -/
def beforeReply (c : RunningClient) (reqId : String) : List Receipt → List Receipt → List Receipt
  | _, [] => []
  | past, e :: es =>
    if c.Accepts reqId past e then [] else e :: c.beforeReply reqId (past ++ [e]) es

/-- The number of timeouts in that part. -/
def timeouts (c : RunningClient) (reqId : String) (past es : List Receipt) : ℕ :=
  (c.beforeReply reqId past es).count .timeout

/-- The server that the latest notification in `es` names for `req`, and the configured one if there is
none. -/
def latest (c : RunningClient) (req : Request) (es : List Receipt) : Option Address :=
  (es.reverse.findSome? (Receipt.names req)).or (c.target req)

/-- After `es` the client is in the turn of request number `i`. -/
def InTurn (c : RunningClient) (reqs : List Request) (es : List Receipt) (i : ℕ) (t : Turn) : Prop :=
  ∃ ts, c.run reqs es = some (ts ++ [t]) ∧ ts.length = i ∧ ¬ t.Over

/-- The turn of request number `i` begins after `es`. -/
def Begins (c : RunningClient) (reqs : List Request) (es : List Receipt) (i : ℕ) : Prop :=
  ∃ t, c.InTurn reqs es i t ∧ t.events = []

/-- Where request number `i` has been sent when `receive` has brought `es`. -/
def sent (c : RunningClient) (reqs : List Request) (es : List Receipt) (i : ℕ) : List Address :=
  (((c.run reqs es).getD [])[i]?.map Turn.targets).getD []

/-- `d` is what the client `c` has become when `receive` has brought `es`. -/
structure Follows (c : RunningClient) (es : List Receipt) (d : RunningClient) : Prop where
  addr : d.addr = c.addr
  resendNum : d.resendNum = c.resendNum
  resendNewhead : d.resendNewhead = c.resendNewhead
  dropInterval : d.dropInterval = c.dropInterval
  recvCount : d.recvCount = c.recvCount + es.countP fun e => e.reply?.isSome
  mem_bankHeadList : ∀ b, b ∈ d.bankHeadList ↔ b ∈ c.bankHeadList
  mem_bankTailList : ∀ b, b ∈ d.bankTailList ↔ b ∈ c.bankTailList
  target : ∀ req, d.target req = c.latest req es

variable {c d : RunningClient} {es past : List Receipt} {e : Receipt} {req : Request}
  {reqId : String}

lemma Follows.refl (c : RunningClient) : c.Follows [] c where
  addr := rfl
  resendNum := rfl
  resendNewhead := rfl
  dropInterval := rfl
  recvCount := rfl
  mem_bankHeadList _ := Iff.rfl
  mem_bankTailList _ := Iff.rfl
  target _ := by simp [latest]

lemma latest_append : c.latest req (es ++ [e]) = (e.names req).or (c.latest req es) := by
  simp only [latest, List.reverse_append, List.reverse_cons, List.reverse_nil, List.nil_append,
    List.singleton_append, List.findSome?_cons]
  cases e.names req <;> simp

/-- A client that only counts replies follows a result that names no server. -/
lemma Follows.append_of_names_eq_none (h : c.Follows es d) (hnames : ∀ req, e.names req = none) :
    c.Follows (es ++ [e])
      { d with recvCount := d.recvCount + if e.reply?.isSome then 1 else 0 } where
  addr := h.addr
  resendNum := h.resendNum
  resendNewhead := h.resendNewhead
  dropInterval := h.dropInterval
  recvCount := by
    simp only [h.recvCount, List.countP_append, List.countP_singleton, Nat.add_assoc]
  mem_bankHeadList := h.mem_bankHeadList
  mem_bankTailList := h.mem_bankTailList
  target req := by
    rw [latest_append, hnames, Option.none_or]
    exact h.target req

/-- The client counts the replies so that it drops exactly the dropped ones. -/
lemma Follows.dropReply (h : c.Follows es d) : d.dropReply = true ↔ c.Dropped es := by
  simp only [RunningClient.dropReply, Dropped, h.dropInterval, h.recvCount]
  split_ifs with hzero <;> simp [hzero]

/-- A client that enters what a notification says follows it. -/
lemma Follows.append_of_target (h : c.Follows es d) {D : Client} (hreply : e.reply? = none)
    (hheads : ∀ b, b ∈ D.bankHeadList ↔ b ∈ d.bankHeadList)
    (htails : ∀ b, b ∈ D.bankTailList ↔ b ∈ d.bankTailList)
    (htarget : ∀ req, D.target req = (e.names req).or (d.target req)) :
    c.Follows (es ++ [e]) { d with toClient := D } where
  addr := h.addr
  resendNum := h.resendNum
  resendNewhead := h.resendNewhead
  dropInterval := h.dropInterval
  recvCount := by simp [h.recvCount, hreply]
  mem_bankHeadList b := (hheads b).trans (h.mem_bankHeadList b)
  mem_bankTailList b := (htails b).trans (h.mem_bankTailList b)
  target req := by
    rw [latest_append, ← h.target req]
    exact htarget req

/-- A bank that is in the list gets a new address there. -/
lemma mem_insert_of_mem {m : AList fun _ : String => Address} {b b' : String} {a : Address} (hb : b ∈ m) :
    b' ∈ m.insert b a ↔ b' ∈ m := by
  rw [AList.mem_insert]
  constructor
  · rintro (rfl | hb')
    · exact hb
    · exact hb'
  · exact Or.inr

lemma Follows.handleNewHead {notify : Notify} (h : c.Follows es d)
    (hknown : notify.bankId ∈ c.bankHeadList) :
    ∃ D, d.toClient.handleNewHead notify = some D ∧
      c.Follows (es ++ [.message (.newHead notify)]) { d with toClient := D } := by
  have hmem : notify.bankId ∈ d.bankHeadList := (h.mem_bankHeadList _).mpr hknown
  refine ⟨_, if_pos hmem,
    h.append_of_target rfl (fun _ => mem_insert_of_mem hmem) (fun _ => Iff.rfl) fun req => ?_⟩
  simp only [Client.target, Client.getBankHead, Client.getBankTail, Receipt.names]
  by_cases hquery : req.type = .query
  · simp [hquery]
  · by_cases hbank : notify.bankId = req.bankId
    · simp [hquery, hbank]
    · simp [hquery, hbank, AList.lookup_insert_ne (Ne.symm hbank)]

lemma Follows.handleNewTail {notify : Notify} (h : c.Follows es d)
    (hknown : notify.bankId ∈ c.bankTailList) :
    ∃ D, d.toClient.handleNewTail notify = some D ∧
      c.Follows (es ++ [.message (.newTail notify)]) { d with toClient := D } := by
  have hmem : notify.bankId ∈ d.bankTailList := (h.mem_bankTailList _).mpr hknown
  refine ⟨_, if_pos hmem,
    h.append_of_target rfl (fun _ => Iff.rfl) (fun _ => mem_insert_of_mem hmem) fun req => ?_⟩
  simp only [Client.target, Client.getBankHead, Client.getBankTail, Receipt.names]
  by_cases hquery : req.type = .query
  · by_cases hbank : notify.bankId = req.bankId
    · simp [hquery, hbank]
    · simp [hquery, hbank, AList.lookup_insert_ne (Ne.symm hbank)]
  · simp [hquery]

/-- The handlers follow a message that is no reply. -/
lemma Follows.handleMsg {msg : Message} (h : c.Follows es d) (hmsg : ∀ reply, msg ≠ .reply reply)
    (hknown : Receipt.Known c.toClient (.message msg)) :
    ∃ D, d.toClient.handleMsg msg = some D ∧
      c.Follows (es ++ [.message msg]) { d with toClient := D } := by
  cases msg with
  | newHead notify => exact h.handleNewHead hknown
  | newTail notify => exact h.handleNewTail hknown
  | reply reply => exact absurd rfl (hmsg reply)
  | _ => exact ⟨_, rfl, h.append_of_names_eq_none fun _ => rfl⟩

/-- The banks of a request are configured, as `run` asserts. -/
def KnownBank (c : RunningClient) (req : Request) : Prop :=
  req.bankId ∈ c.bankHeadList ∧ req.bankId ∈ c.bankTailList

lemma Follows.exists_target (h : c.Follows es d) (hreq : c.KnownBank req) :
    ∃ a, d.target req = some a := by
  rw [← Option.isSome_iff_exists]
  simp only [Client.target]
  split_ifs
  · exact AList.lookup_isSome.mpr ((h.mem_bankTailList _).mpr hreq.2)
  · exact AList.lookup_isSome.mpr ((h.mem_bankHeadList _).mpr hreq.1)

/-! ### The results before the reply that counts -/

lemma beforeReply_append :
    c.beforeReply reqId past (es ++ [e]) =
      if c.beforeReply reqId past es = es ∧ ¬ c.Accepts reqId (past ++ es) e then es ++ [e]
      else c.beforeReply reqId past es := by
  induction es generalizing past with
  | nil =>
    simp only [List.nil_append, beforeReply, true_and, List.append_nil]
    split_ifs <;> simp_all
  | cons a es ih =>
    simp only [List.cons_append, beforeReply]
    split_ifs with h h' h' <;> simp_all [List.append_assoc]

lemma length_beforeReply_le : (c.beforeReply reqId past es).length ≤ es.length := by
  induction es generalizing past with
  | nil => simp [beforeReply]
  | cons a es ih =>
    simp only [beforeReply]
    split_ifs
    · simp
    · simpa using ih

/-- After the reply that counts, nothing changes any more. -/
lemma beforeReply_append_of_ne (h : c.beforeReply reqId past es ≠ es) :
    c.beforeReply reqId past (es ++ [e]) = c.beforeReply reqId past es := by
  rw [beforeReply_append, if_neg]
  rintro ⟨heq, -⟩
  exact h heq

lemma beforeReply_append_ne (h : c.beforeReply reqId past es ≠ es) :
    c.beforeReply reqId past (es ++ [e]) ≠ es ++ [e] := by
  rw [beforeReply_append_of_ne h]
  intro heq
  have hle : (c.beforeReply reqId past es).length ≤ es.length := length_beforeReply_le
  rw [heq, List.length_append, List.length_singleton] at hle
  omega

end RunningClient

end ChainReplication
