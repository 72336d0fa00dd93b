import ChainReplication.Client.Run

/-!
# The loops of a client, result by result

The same program as a machine that takes one result of `receive` at a time: it reads it in the turn of the
current request and begins the next turn when this one is over.
-/

namespace ChainReplication

namespace Turn

/-- The condition of the outer loop has failed. -/
def Over (t : Turn) : Prop := t.acceptFlag = true ∨ t.client.resendNum < t.retry

instance (t : Turn) : Decidable t.Over := inferInstanceAs (Decidable (_ ∨ _))

/-- What a turn that waits makes of one result, up to the next call of `receive`. -/
def read (t : Turn) : Receipt → Option Turn
  | .timeout => t.onTimeout.map fun t => if t.Over then t else t.send
  | .message msg => t.onMessage msg

/-- The loops of a turn from a call of `receive` on. -/
def resume (t : Turn) (es : List Receipt) : Option (Turn × Option (List Receipt)) :=
  match receiveLoop es t with
  | none => none
  | some (t', none) => some (t', none)
  | some (t', some es') => retryLoop t' es'

@[simp] lemma send_client (t : Turn) : t.send.client = t.client := rfl
@[simp] lemma send_req (t : Turn) : t.send.req = t.req := rfl
@[simp] lemma send_retry (t : Turn) : t.send.retry = t.retry := rfl
@[simp] lemma send_acceptFlag (t : Turn) : t.send.acceptFlag = t.acceptFlag := rfl
@[simp] lemma send_events (t : Turn) : t.send.events = t.events := rfl
@[simp] lemma send_targets (t : Turn) : t.send.targets = t.targets ++ [t.target] := rfl
@[simp] lemma send_over (t : Turn) : t.send.Over ↔ t.Over := Iff.rfl

variable {t u : Turn} {es : List Receipt}

lemma retryLoop_of_over (h : t.Over) : t.retryLoop es = some (t, some es) := by
  rw [retryLoop, dif_neg]
  rintro ⟨hretry, haccept⟩
  rcases h with h | h
  · simp [haccept] at h
  · omega

lemma retryLoop_of_not_over (h : ¬ t.Over) : t.retryLoop es = t.send.resume es := by
  simp only [Over, not_or, Bool.not_eq_true, not_lt] at h
  rw [retryLoop, dif_pos ⟨h.2, h.1⟩]
  split <;> simp_all only [resume]

lemma resume_nil (h : ¬ t.Over) : t.resume [] = some (t, none) := by
  simp only [Over, not_or, Bool.not_eq_true] at h
  simp [resume, receiveLoop, h.1]

/-- A timeout leaves the inner loop. -/
lemma resume_timeout (h : ¬ t.Over) :
    t.resume (.timeout :: es) = t.onTimeout.bind fun u => u.retryLoop es := by
  simp only [Over, not_or, Bool.not_eq_true] at h
  simp only [resume, receiveLoop, h.1, Bool.false_eq_true, if_false]
  cases t.onTimeout <;> rfl

/-- A message leaves the inner loop only when it is accepted, and then the outer loop too. -/
lemma resume_message {msg : Message} (h : ¬ t.Over) :
    t.resume (.message msg :: es) =
      (t.onMessage msg).bind fun u => if u.acceptFlag then some (u, some es) else u.resume es := by
  simp only [Over, not_or, Bool.not_eq_true] at h
  simp only [resume, receiveLoop, h.1, Bool.false_eq_true, if_false]
  cases t.onMessage msg with
  | none => rfl
  | some u =>
    simp only [Option.bind_some]
    split_ifs with haccept
    · rw [receiveLoop_of_acceptFlag haccept]
      exact retryLoop_of_over (Or.inl haccept)
    · rfl

lemma onReply_retry (reply : Reply) : (t.onReply reply).retry = t.retry := by
  simp only [onReply]
  split_ifs <;> rfl

lemma onReply_resendNum (reply : Reply) :
    (t.onReply reply).client.resendNum = t.client.resendNum := by
  simp only [onReply]
  split_ifs <;> rfl

lemma onMessage_of_not_reply {msg : Message} (h : ∀ reply, msg ≠ .reply reply) :
    t.onMessage msg = (t.client.handleMsg msg).map fun d =>
      { t with client := { t.client with toClient := d }, events := t.events ++ [.message msg] } := by
  cases msg with
  | reply reply => exact absurd rfl (h reply)
  | _ => rfl

/-- A message does not change the number of retries, so that only an accepted reply ends the turn. -/
lemma onMessage_over {msg : Message} (hover : ¬ t.Over) (h : t.onMessage msg = some u) :
    u.Over ↔ u.acceptFlag = true := by
  have hretry : u.retry = t.retry ∧ u.client.resendNum = t.client.resendNum := by
    by_cases hmsg : ∃ reply, msg = .reply reply
    · obtain ⟨reply, rfl⟩ := hmsg
      obtain rfl := Option.some.inj h
      exact ⟨onReply_retry reply, onReply_resendNum reply⟩
    · rw [onMessage_of_not_reply (not_exists.mp hmsg)] at h
      obtain ⟨d, -, rfl⟩ := Option.map_eq_some_iff.mp h
      exact ⟨rfl, rfl⟩
  simp only [Over, not_or, not_lt] at hover ⊢
  simp [hretry, hover.2]

end Turn

/-- Where `run` stands: the turns so far, the latest first, and the requests that come after them. -/
structure Progress where
  turns : List Turn
  rest : List Request

namespace Progress

/-- The turn of the next request, if there is one, after its first sending. -/
def next (c : RunningClient) (done : List Turn) : List Request → Option Progress
  | [] => some ⟨done, []⟩
  | req :: rest => (Turn.start c req).map fun t => ⟨t.send :: done, rest⟩

/-- One result of `receive`. -/
def step (p : Progress) (e : Receipt) : Option Progress :=
  match p.turns with
  | [] => some p
  | t :: done =>
    if t.Over then some p
    else (t.read e).bind fun t =>
      if t.Over then next t.client (t :: done) p.rest else some ⟨t :: done, p.rest⟩

end Progress

namespace RunningClient

/-- Where `run` stands when `receive` has brought `es`. -/
def progress (c : RunningClient) (reqs : List Request) (es : List Receipt) : Option Progress :=
  (Progress.next c [] reqs).bind fun p => es.foldlM Progress.step p

variable {c : RunningClient} {done : List Turn} {reqs : List Request} {es : List Receipt}

lemma not_over_start {req : Request} {t : Turn} (h : Turn.start c req = some t) : ¬ t.Over := by
  obtain ⟨target, -, rfl⟩ := Option.map_eq_some_iff.mp h
  simp [Turn.Over]

/-- The end of a turn in the loop over the requests. -/
def finish (done : List Turn) (reqs : List Request) (r : Turn × Option (List Receipt)) :
    Option (List Turn) :=
  match r with
  | (t, none) => some (t :: done)
  | (t, some es) => t.client.runFrom (t :: done) reqs es

lemma runFrom_cons {req : Request} :
    c.runFrom done (req :: reqs) es =
      ((Turn.start c req).bind fun t => t.retryLoop es).bind (finish done reqs) := by
  rw [runFrom]
  cases (Turn.start c req).bind fun t => t.retryLoop es with
  | none => rfl
  | some r =>
    obtain ⟨t, _ | es⟩ := r <;> rfl

/-- When all requests are done, nothing is read any more. -/
lemma foldlM_step_done (hdone : ∀ t ∈ done.head?, t.Over) :
    es.foldlM Progress.step ⟨done, []⟩ = some ⟨done, []⟩ := by
  induction es with
  | nil => rfl
  | cons e es ih =>
    have hstep : Progress.step ⟨done, []⟩ e = some ⟨done, []⟩ := by
      cases done with
      | nil => rfl
      | cons t done => simp [Progress.step, hdone t rfl]
    rw [List.foldlM_cons, hstep]
    exact ih

/-- The loop over the requests goes as the machine, if a turn that waits does. -/
lemma runFrom_eq_of (hdone : ∀ t ∈ done.head?, t.Over)
    (hresume : ∀ (t : Turn) (done : List Turn) (reqs : List Request), ¬ t.Over →
      (t.resume es).bind (finish done reqs) =
        (es.foldlM Progress.step ⟨t :: done, reqs⟩).map Progress.turns) :
    c.runFrom done reqs es =
      ((Progress.next c done reqs).bind fun p => es.foldlM Progress.step p).map Progress.turns := by
  cases reqs with
  | nil =>
    rw [runFrom, Progress.next, Option.bind_some, foldlM_step_done hdone]
    rfl
  | cons req reqs =>
    rw [runFrom_cons, Progress.next]
    cases hstart : Turn.start c req with
    | none => rfl
    | some t =>
      have hover := not_over_start hstart
      simp only [Option.bind_some, Option.map_some]
      rw [Turn.retryLoop_of_not_over hover]
      exact hresume t.send done reqs hover

/-- A turn that waits, and all that comes after it, goes as the machine. -/
lemma resume_eq (t : Turn) (done : List Turn) (reqs : List Request) (hover : ¬ t.Over) :
    (t.resume es).bind (finish done reqs) =
      (es.foldlM Progress.step ⟨t :: done, reqs⟩).map Progress.turns := by
  induction es generalizing t done reqs with
  | nil =>
    rw [Turn.resume_nil hover]
    rfl
  | cons e es ih =>
    have hnext : ∀ u : Turn, u.Over → (finish done reqs (u, some es)) =
        ((Progress.next u.client (u :: done) reqs).bind fun p =>
          es.foldlM Progress.step p).map Progress.turns := by
      intro u hu
      exact runFrom_eq_of (by simpa using hu) ih
    rw [List.foldlM_cons]
    cases e with
    | timeout =>
      rw [Turn.resume_timeout hover]
      simp only [Progress.step, hover, if_false, Turn.read]
      cases t.onTimeout with
      | none => rfl
      | some u =>
        simp only [Option.bind_some, Option.map_some]
        by_cases hu : u.Over
        · rw [Turn.retryLoop_of_over hu]
          simp only [hu, if_true, Option.bind_some]
          exact hnext u hu
        · rw [Turn.retryLoop_of_not_over hu]
          simp only [hu, if_false, Turn.send_over]
          exact ih u.send done reqs hu
    | message msg =>
      rw [Turn.resume_message hover]
      simp only [Progress.step, hover, if_false, Turn.read]
      cases hmsg : t.onMessage msg with
      | none => rfl
      | some u =>
        have hiff := Turn.onMessage_over hover hmsg
        simp only [Option.bind_some, ← hiff]
        by_cases hu : u.Over
        · simp only [hu, if_true, Option.bind_some]
          exact hnext u hu
        · simp only [hu, if_false]
          exact ih u done reqs hu

/-- The loops and the machine are the same program. -/
theorem run_eq_progress :
    c.run reqs es = (c.progress reqs es).map fun p => p.turns.reverse := by
  rw [run, runFrom_eq_of (by simp) resume_eq, progress, Option.map_map]
  rfl

end RunningClient

end ChainReplication
