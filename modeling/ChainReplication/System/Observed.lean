import ChainReplication.Server.Log
import ChainReplication.System.Basic

/-!
# What an observer sees at a tail

The requests that a tail accepts and the replies that it sends, read off the trace.
-/

namespace ChainReplication

variable {t x : Address} {msg : Message}

/-- What a tail makes of the next request that it takes up: queries pass, an update passes when its
number is the next one, as its client sent it. Any other update is ignored as a repetition. -/
def acceptNext (reqs : List Request) (req : Request) : List Request :=
  if req.type = .query then reqs ++ [req]
  else if req.bankUpdateSeq = (reqs.filter (·.type ≠ .query)).length + 1 then reqs ++ [req.body]
  else reqs

/-- The requests that the tail `t` has accepted, in the order in which it has handled them. -/
def accepted (t : Address) (trace : List Event) : List Request :=
  trace.foldl (fun reqs ev => match ev with
    | .handled s (.request req) => if s = t then acceptNext reqs req else reqs
    | _ => reqs) []

/-- The replies that the server `t` has sent, in their order. -/
def repliesOf (t : Address) (trace : List Event) : List Request :=
  trace.filterMap fun
    | .sent s (.replyToClient req) => if s = t then some req else none
    | _ => none

/-- The requests that the tail `t` has accepted, and after them the updates that the head `h` has
numbered and the tail has not accepted yet. -/
def System.orderedRequests (σ : System) (h t : Address) : List Request :=
  accepted t σ.trace ++ (σ.server h).bodies.drop (σ.server t).bodies.length

/-- The queries that the server `t` has handled, in their order. -/
def queriesOf (t : Address) (trace : List Event) : List Request :=
  trace.filterMap fun
    | .handled s (.request req) => if s = t ∧ req.type = .query then some req else none
    | _ => none

/-- The accepted queries are the handled ones. -/
lemma accepted_queries (trace : List Event) :
    (accepted t trace).filter (·.type = .query) = queriesOf t trace := by
  induction trace using List.reverseRecOn with
  | nil => rfl
  | append_singleton trace ev ih =>
    rw [queriesOf, List.filterMap_append, ← queriesOf, ← ih, accepted, List.foldl_append, ← accepted]
    have kept (reqs : List Request) : reqs = reqs ++ [] := (List.append_nil _).symm
    cases ev with
    | sent s p => exact kept _
    | handled s msg =>
      cases msg with
      | request req =>
        by_cases hs : s = t
        · by_cases htype : req.type = .query
          · simp [acceptNext, hs, htype]
          · by_cases hnext : req.bankUpdateSeq =
                ((accepted t trace).filter (·.type ≠ .query)).length + 1
            · simp [acceptNext, hs, htype, hnext]
            · simp only [List.foldl_cons, List.foldl_nil, hs, if_true, acceptNext, if_neg htype,
                if_neg hnext]
              simp [htype]
        · simp [hs]
      | _ => exact kept _

lemma accepted_sent (trace : List Event) (s : Address) (out : List Packet) :
    accepted t (trace ++ out.map (.sent s)) = accepted t trace := by
  rw [accepted, List.foldl_append, List.foldl_map]
  exact List.foldl_fixed' (fun _ => rfl) out

lemma repliesOf_sent (trace : List Event) (out : List Packet) :
    repliesOf t (trace ++ out.map (.sent t)) = repliesOf t trace ++ out.filterMap fun
      | .replyToClient req => some req
      | _ => none := by
  rw [repliesOf, List.filterMap_append, List.filterMap_map]
  congr 1
  apply List.filterMap_congr
  intro p _
  cases p <;> simp

lemma repliesOf_sent_of_ne (trace : List Event) {s : Address} (hs : s ≠ t) (out : List Packet) :
    repliesOf t (trace ++ out.map (.sent s)) = repliesOf t trace := by
  rw [repliesOf, List.filterMap_append, List.filterMap_map, repliesOf]
  have hnone : out.filterMap ((fun
      | .sent s (.replyToClient req) => if s = t then some req else none
      | _ => none) ∘ Event.sent s) = [] := by
    rw [List.filterMap_eq_nil_iff]
    intro p _
    cases p <;> simp [hs]
  rw [hnone, List.append_nil]

lemma accepted_handled_of_ne (trace : List Event) (hxt : x ≠ t) :
    accepted t (trace ++ [.handled x msg]) = accepted t trace := by
  rw [accepted, List.foldl_append]
  cases msg <;> simp [accepted, hxt]

lemma accepted_handled (trace : List Event) (req : Request) :
    accepted t (trace ++ [.handled t (.request req)]) = acceptNext (accepted t trace) req := by
  rw [accepted, List.foldl_append]
  simp [accepted]

lemma accepted_handled_other (trace : List Event) (hreq : ∀ q, msg ≠ .request q) :
    accepted t (trace ++ [.handled t msg]) = accepted t trace := by
  rw [accepted, List.foldl_append]
  cases msg with
  | request q => exact absurd rfl (hreq q)
  | _ => rfl

/-! ### A server serves a message -/

lemma accepted_serve_of_ne (trace : List Event) (hxt : x ≠ t) (out : List Packet) :
    accepted t (trace ++ .handled x msg :: out.map (.sent x)) = accepted t trace := by
  rw [List.append_cons, accepted_sent, accepted_handled_of_ne _ hxt]

lemma accepted_serve (trace : List Event) (out : List Packet) :
    accepted t (trace ++ .handled t msg :: out.map (.sent t)) = accepted t (trace ++ [.handled t msg]) := by
  rw [List.append_cons, accepted_sent]

lemma repliesOf_serve_of_ne (trace : List Event) (hxt : x ≠ t) (out : List Packet) :
    repliesOf t (trace ++ .handled x msg :: out.map (.sent x)) = repliesOf t trace := by
  have hhandled : repliesOf t (trace ++ [.handled x msg]) = repliesOf t trace := by simp [repliesOf]
  rw [List.append_cons, repliesOf_sent_of_ne _ hxt, hhandled]

lemma repliesOf_serve (trace : List Event) (out : List Packet) :
    repliesOf t (trace ++ .handled t msg :: out.map (.sent t)) = repliesOf t trace ++ out.filterMap fun
      | .replyToClient req => some req
      | _ => none := by
  have hhandled : repliesOf t (trace ++ [.handled t msg]) = repliesOf t trace := by simp [repliesOf]
  rw [List.append_cons, repliesOf_sent, hhandled]

end ChainReplication
