import ChainReplication.System.Counters
import ChainReplication.System.Replication

/-!
# Receivers that take messages in turn

`send_msg_tcp` blocks until it is connected and a receiver serves one connection at a time, so a
process handles its TCP messages in the order in which their sends were completed, whoever has sent
them. The links of the system only keep the order of each sender; here every process has one inbox.
-/

namespace ChainReplication

/-- The TCP messages to `dst` among the events, with their senders. -/
def arrivals (evs : List Event) (dst : Address) : List (Address × Message) :=
  evs.filterMap fun
    | .sent src p => p.tcp?.bind fun q => if q.1 = dst then some (src, q.2) else none
    | .handled _ _ => none

/-- The system with an inbox for each process. -/
structure Ordered where
  system : System
  inbox : Address → List (Address × Message)

namespace Ordered

/-- The receiver takes the message that was sent to it first. -/
def InTurn (ω : Ordered) : Label → Prop
  | .deliver src dst _ => (ω.inbox dst).head?.map Prod.fst = some src
  | _ => True

instance (ω : Ordered) (l : Label) : Decidable (ω.InTurn l) :=
  match l with
  | .deliver src dst _ => inferInstanceAs (Decidable ((ω.inbox dst).head?.map Prod.fst = some src))
  | .client .. | .crash _ | .detect .. | .join _ | .snapshot .. | .extendSend .. | .extendFin .. =>
    inferInstanceAs (Decidable True)

/-- What stays in an inbox once a step has taken its message. -/
def waiting (ω : Ordered) (l : Label) (dst : Address) : List (Address × Message) :=
  match l with
  | .deliver _ dst' _ => if dst = dst' then (ω.inbox dst).tail else ω.inbox dst
  | _ => ω.inbox dst

/-- A step of the system in which the receiver takes its messages in turn. -/
def stepOf (step : System → Label → Option System) (ω : Ordered) (l : Label) : Option Ordered :=
  if ω.InTurn l then
    (step ω.system l).map fun σ =>
      { system := σ
        inbox := fun dst => ω.waiting l dst ++ arrivals (σ.trace.drop ω.system.trace.length) dst }
  else none

/-- With counters without a bound. -/
def step : Ordered → Label → Option Ordered := stepOf System.step

/-- With counters of 32 bits. -/
def step32 : Ordered → Label → Option Ordered := stepOf System.step32

/-- Nothing is in flight. -/
def init (cfg : Config) : Ordered := { system := cfg.init, inbox := fun _ => [] }

lemma init_system (cfg : Config) : (init cfg).system = cfg.init := rfl

/-- The links hold what the inboxes hold. -/
def Linked (ω : Ordered) : Prop :=
  ∀ src dst, ω.system.link src dst = ((ω.inbox dst).filter (·.1 = src)).map Prod.snd

variable {cfg : Config} {ω ω' : Ordered} {σ σ' : System} {l : Label} {src dst : Address}
  {out : List Packet}

lemma stepOf_eq {step : System → Label → Option System} (h : stepOf step ω l = some ω') :
    ω.InTurn l ∧ step ω.system l = some ω'.system ∧ ∀ dst, ω'.inbox dst =
      ω.waiting l dst ++ arrivals (ω'.system.trace.drop ω.system.trace.length) dst := by
  rw [stepOf] at h
  split_ifs at h with hturn
  obtain ⟨σ, hσ, rfl⟩ := Option.map_eq_some_iff.mp h
  exact ⟨hturn, hσ, fun _ => rfl⟩

lemma step_eq (h : ω.step l = some ω') : ω.InTurn l ∧ ω.system.step l = some ω'.system ∧
    ∀ dst, ω'.inbox dst =
      ω.waiting l dst ++ arrivals (ω'.system.trace.drop ω.system.trace.length) dst :=
  stepOf_eq h

lemma step32_eq (h : ω.system.CounterFits l) : ω.step32 l = ω.step l := by
  rw [step32, step, stepOf, stepOf, System.step32_eq h]

/-- A run whose counters fit is a run with counters without a bound. -/
lemma reach_of_fits {ok : Ordered → Label → Prop} (h : Machine.Reach step32 ok (init cfg) ω)
    (hfits : ∀ ω l, ok ω l → ω.system.CounterFits l) : Machine.Reach step ok (init cfg) ω :=
  h.congr fun ω l hl => step32_eq (hfits ω l hl)

/-- The order only takes runs away. -/
theorem reach_system {ok : System → Label → Prop}
    (h : Machine.Reach step (fun ω l => ok ω.system l) (init cfg) ω) :
    Machine.Reach System.step ok cfg.init ω.system :=
  h.map Ordered.system (fun _ _ h => h) fun _ _ _ h => (step_eq h).2.1

lemma run_system (ok : System → Label → Prop) [∀ σ l, Decidable (ok σ l)] {ls : List Label}
    (h : Machine.run step32 (fun ω l => ok ω.system l) ω ls = some ω') :
    Machine.run System.step32 ok ω.system ls = some ω'.system :=
  Machine.run_map Ordered.system (fun _ _ h => h) (fun _ _ _ h => (stepOf_eq h).2.1) h

/-! ### What a step sends -/

lemma arrivals_sent (src : Address) (out : List Packet) (dst : Address) :
    arrivals (out.map (.sent src)) dst = (sentTo out dst).map (src, ·) := by
  induction out with
  | nil => rfl
  | cons p out ih =>
    simp only [arrivals, sentTo, List.map_cons, List.filterMap_cons] at ih ⊢
    cases p.tcp? with
    | none => exact ih
    | some q =>
      simp only [Option.bind_some, List.filterMap_cons]
      split_ifs
      · rw [List.map_cons, ih]
      · exact ih

lemma arrivals_emit (src : Address) (out : List Packet) (dst : Address) :
    arrivals ((σ.trace ++ out.map (Event.sent src)).drop σ.trace.length) dst =
      (sentTo out dst).map (src, ·) := by
  rw [List.drop_left, arrivals_sent]

lemma arrivals_serve {x : Address} {msg : Message} {L : Links Address Message}
    (hs : System.Serve σ x msg L out σ') (dst : Address) :
    arrivals (σ'.trace.drop σ.trace.length) dst = (sentTo out dst).map (x, ·) := by
  rw [hs.trace, List.drop_left, arrivals, List.filterMap_cons, ← arrivals]
  exact arrivals_sent x out dst

lemma arrivals_silent (htrace : σ'.trace = σ.trace) (dst : Address) :
    arrivals (σ'.trace.drop σ.trace.length) dst = [] := by
  rw [htrace, List.drop_length]
  rfl

/-- One process sends in a step. -/
lemma step_sends (h : System.StepCase σ l σ') : ∃ src out,
    σ'.link = (σ.left l).send src (out.filterMap Packet.tcp?) ∧
      ∀ dst, arrivals (σ'.trace.drop σ.trace.length) dst = (sentTo out dst).map (src, ·) := by
  have silent (σ' : System) (hlink : σ'.link = σ.left l) (htrace : σ'.trace = σ.trace) :
      ∃ src out, σ'.link = (σ.left l).send src (out.filterMap Packet.tcp?) ∧
        ∀ dst, arrivals (σ'.trace.drop σ.trace.length) dst = (sentTo out dst).map (src, ·) := by
    refine ⟨.empty, [], ?_, arrivals_silent htrace⟩
    rw [hlink, List.filterMap_nil, Links.send_nil]
  cases h with
  | @serve _ x msg L out _ taken serve delivery left =>
    exact ⟨x, out, by rw [serve.link, left], arrivals_serve serve⟩
  | crash label =>
    refine silent _ ?_ rfl
    cases l with
    | deliver src dst k => exact absurd rfl (label src dst k)
    | _ => rfl
  | relink => exact ⟨_, _, rfl, arrivals_emit _ _⟩
  | ignore => exact silent _ rfl rfl
  | detect => exact ⟨_, _, rfl, arrivals_emit _ _⟩

/-! ### Links and inboxes -/

lemma InTurn.inbox {k : Option ℕ} (h : ω.InTurn (.deliver src dst k)) :
    ∃ m rest, ω.inbox dst = (src, m) :: rest := by
  obtain ⟨⟨src', m⟩, hhead, hsrc⟩ := Option.map_eq_some_iff.mp h
  obtain ⟨rest, hrest⟩ := List.head?_eq_some_iff.mp hhead
  have hsrc : src' = src := hsrc
  exact ⟨m, rest, by rw [hrest, hsrc]⟩

/-- The message at the front of an inbox is the first on its link. -/
lemma Linked.head (h : ω.Linked) {m : Message} {rest : List (Address × Message)}
    (hinbox : ω.inbox dst = (src, m) :: rest) : ∃ l, ω.system.link src dst = m :: l := by
  rw [h src dst, hinbox, List.filter_cons_of_pos (by simp)]
  exact ⟨_, rfl⟩

lemma Linked.left (h : ω.Linked) (hturn : ω.InTurn l) (src dst : Address) :
    ω.system.left l src dst = ((ω.waiting l dst).filter (·.1 = src)).map Prod.snd := by
  cases l with
  | deliver src' dst' k =>
    obtain ⟨m, rest, hinbox⟩ := hturn.inbox
    by_cases hdst : dst = dst'
    · subst hdst
      rw [waiting, if_pos rfl, hinbox, List.tail_cons]
      have hlink := h src dst
      rw [hinbox] at hlink
      by_cases hsrc : src = src'
      · subst hsrc
        rw [List.filter_cons_of_pos (by simp)] at hlink
        rw [System.left, Links.recv_self, hlink, List.map_cons, List.tail_cons]
      · rw [List.filter_cons_of_neg (by simpa using Ne.symm hsrc)] at hlink
        rw [System.left, Links.recv_of_ne _ _ _ fun heq => hsrc heq.1, hlink]
    · rw [waiting, if_neg hdst, System.left, Links.recv_of_ne _ _ _ fun heq => hdst heq.2]
      exact h src dst
  | _ => exact h src dst

lemma Linked.step (h : ω.Linked) (hstep : ω.step l = some ω')
    (hcase : System.StepCase ω.system l ω'.system) : ω'.Linked := by
  obtain ⟨hturn, -, hinbox⟩ := step_eq hstep
  obtain ⟨a, out, hlink, harrivals⟩ := step_sends hcase
  intro src dst
  rw [hlink, hinbox, harrivals, List.filter_append, List.map_append, ← h.left hturn]
  by_cases hsrc : src = a
  · subst hsrc
    have hall : ((sentTo out dst).map fun m => (src, m)).filter (·.1 = src) =
        (sentTo out dst).map fun m => (src, m) := by
      rw [List.filter_eq_self]
      intro q hq
      obtain ⟨m, -, rfl⟩ := List.mem_map.mp hq
      exact decide_eq_true rfl
    rw [Links.send_self, hall, List.map_map]
    exact congrArg _ (List.map_id _).symm
  · have hnone : ((sentTo out dst).map fun m => (a, m)).filter (·.1 = src) = [] := by
      rw [List.filter_eq_nil_iff]
      intro q hq
      obtain ⟨m, -, rfl⟩ := List.mem_map.mp hq
      simpa using Ne.symm hsrc
    rw [Links.send_of_ne _ _ _ hsrc, hnone, List.map_nil, List.append_nil]

end Ordered

end ChainReplication
