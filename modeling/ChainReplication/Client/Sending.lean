import ChainReplication.Client.Retry

/-!
# The sendings of a run

`run` goes from turn to turn. A turn that has begun is followed through all that `receive` brings, and
gives the number of sendings and their targets.
-/

namespace ChainReplication

open RunningClient

namespace RunningClient

/-- A request with the address of the client. -/
def addressed (c : RunningClient) (req : Request) : Request := { req with clientAddr := c.addr }

/-- Where `run` stands after `es`. -/
structure Standing (c : RunningClient) (reqs : List Request) (es : List Receipt) (p : Progress) :
    Prop where
  waits : ∀ t done, p.turns = t :: done → ¬ t.Over →
    ∃ past, past ++ t.events = es ∧ t.Waits c past t.events
  requests : p.turns.reverse.map Turn.req ++ p.rest.map c.addressed = reqs.map c.addressed
  rest : (∀ t ∈ p.turns.head?, t.Over) → p.rest = []

variable {c d : RunningClient} {reqs rest : List Request} {es past during : List Receipt}
  {e : Receipt} {p : Progress} {t u : Turn} {done : List Turn} {i : ℕ} {req : Request}

lemma progress_append :
    c.progress reqs (es ++ [e]) = (c.progress reqs es).bind fun p => p.step e := by
  simp only [progress, List.foldlM_append, Option.bind_assoc]
  congr 1
  funext p
  simp [List.foldlM_cons]

/-- The next turn begins, if requests are left. -/
lemma exists_next (done : List Turn) (h : c.Follows es d) (hrest : ∀ r ∈ rest, c.KnownBank r) :
    (rest = [] ∧ Progress.next d done rest = some ⟨done, []⟩) ∨
      ∃ r rs t, rest = r :: rs ∧ Progress.next d done rest = some ⟨t :: done, rs⟩ ∧
        t.req = c.addressed r ∧ t.Waits c es [] := by
  cases rest with
  | nil => exact Or.inl ⟨rfl, rfl⟩
  | cons r rs =>
    obtain ⟨t, hstart, hreq, hwaits⟩ := Turn.exists_start h (hrest r (by simp))
    refine Or.inr ⟨r, rs, t.send, rfl, ?_, hreq, hwaits⟩
    rw [Progress.next, hstart, Option.map_some]

end RunningClient

/-- One result of `receive` in a turn that waits: the turn goes on, or it is over and the next one begins
if requests are left. -/
lemma Turn.Reads.step {c : RunningClient} {past during : List Receipt} {t u : Turn} {e : Receipt}
    {rest : List Request} (h : t.Reads c past during e u) (done : List Turn)
    (hwaits : t.Waits c past during) (hrest : ∀ r ∈ rest, c.KnownBank r) :
    (u.Waits c past (during ++ [e]) ∧
        Progress.step ⟨t :: done, rest⟩ e = some ⟨u :: done, rest⟩) ∨
      (u.Ended c past (during ++ [e]) ∧ rest = [] ∧
        Progress.step ⟨t :: done, rest⟩ e = some ⟨u :: done, []⟩) ∨
      (u.Ended c past (during ++ [e]) ∧ ∃ r rs v, rest = r :: rs ∧
        Progress.step ⟨t :: done, rest⟩ e = some ⟨v :: u :: done, rs⟩ ∧
        v.req = c.addressed r ∧ v.Waits c (past ++ during ++ [e]) []) := by
  simp only [Progress.step, hwaits.not_over, if_false, h.read, Option.bind_some]
  rcases h.turn with hu | hu
  · exact Or.inl ⟨hu, if_neg hu.not_over⟩
  · right
    rw [if_pos hu.isOver]
    rcases exists_next (u :: done) h.follows hrest with ⟨hnil, hnext⟩ | hnext
    · exact Or.inl ⟨hu, hnil, hnext⟩
    · exact Or.inr ⟨hu, hnext⟩

namespace RunningClient

variable {c d : RunningClient} {reqs rest : List Request} {es past during : List Receipt}
  {e : Receipt} {p : Progress} {t u : Turn} {done : List Turn} {i : ℕ} {req : Request}

lemma KnownBank.of_addressed (h : ∀ r ∈ reqs, c.KnownBank r)
    (hreqs : req ∈ reqs.map c.addressed) : c.KnownBank req := by
  obtain ⟨r, hr, rfl⟩ := List.mem_map.mp hreqs
  exact h r hr

/-- The requests that are left, and that of the current turn, are known. -/
lemma Standing.known (h : c.Standing reqs es p) (hreqs : ∀ r ∈ reqs, c.KnownBank r) :
    (∀ r ∈ p.rest, c.KnownBank r) ∧ ∀ t ∈ p.turns, c.KnownBank t.req := by
  constructor
  · intro r hr
    have hmem : c.addressed r ∈ reqs.map c.addressed := by
      rw [← h.requests]
      exact List.mem_append_right _ (List.mem_map_of_mem hr)
    have hknown := KnownBank.of_addressed hreqs hmem
    exact hknown
  · intro t ht
    refine KnownBank.of_addressed hreqs ?_
    rw [← h.requests]
    exact List.mem_append_left _ (List.mem_map_of_mem (List.mem_reverse.mpr ht))

/-- The start of the first turn. -/
lemma exists_standing_next (hreqs : ∀ r ∈ reqs, c.KnownBank r) :
    ∃ p, Progress.next c [] reqs = some p ∧ c.Standing reqs [] p := by
  rcases exists_next [] (Follows.refl c) hreqs with
    ⟨rfl, hnext⟩ | ⟨r, rs, t, rfl, hnext, hreq, hwaits⟩
  · exact ⟨_, hnext, by simp, rfl, fun _ => rfl⟩
  · refine ⟨_, hnext, ?_, ?_, ?_⟩
    · rintro u done hturns -
      obtain ⟨rfl, rfl⟩ := List.cons.inj hturns
      exact ⟨[], by simp [hwaits.events], by rwa [hwaits.events]⟩
    · simp [hreq]
    · intro hover
      exact absurd (hover t rfl) hwaits.not_over

/-- One result of `receive`. -/
lemma Standing.step (h : c.Standing reqs es p) (hreqs : ∀ r ∈ reqs, c.KnownBank r)
    (hknown : e.Known c.toClient) :
    ∃ p', p.step e = some p' ∧ c.Standing reqs (es ++ [e]) p' := by
  obtain ⟨turns, rest⟩ := p
  by_cases hover : ∀ t ∈ turns.head?, t.Over
  · refine ⟨⟨turns, rest⟩, ?_, ?_, h.requests, h.rest⟩
    · cases turns with
      | nil => rfl
      | cons t done => exact if_pos (hover t rfl)
    · rintro t done rfl hnot
      exact absurd (hover t rfl) hnot
  · cases turns with
    | nil => simp at hover
    | cons t done =>
      have hnot : ¬ t.Over := by simpa using hover
      have hrest : ∀ r ∈ rest, c.KnownBank r := (h.known hreqs).1
      have hreq : c.KnownBank t.req := (h.known hreqs).2 t (by simp)
      obtain ⟨past, hes, hwaits⟩ := h.waits t done rfl hnot
      obtain ⟨u, hreads⟩ := hwaits.reads hreq hknown
      have hrequests := h.requests
      simp only [List.reverse_cons, List.map_append, List.map_cons, List.map_nil,
        ← hreads.req] at hrequests
      rcases hreads.step done hwaits hrest with
        ⟨hu, hstep⟩ | ⟨hu, hnil, hstep⟩ | ⟨hu, r, rs, v, hcons, hstep, hv, hvwaits⟩
      · refine ⟨_, hstep, ?_, by simpa using hrequests, fun h => absurd (h u rfl) hu.not_over⟩
        rintro w done' hcons -
        obtain ⟨rfl, rfl⟩ := List.cons.inj hcons
        refine ⟨past, ?_, by rwa [hu.events]⟩
        rw [hu.events, ← hes, List.append_assoc]
      · refine ⟨_, hstep, ?_, by simpa [hnil] using hrequests, fun _ => rfl⟩
        rintro w done' hcons hw
        obtain ⟨rfl, rfl⟩ := List.cons.inj hcons
        exact absurd hu.isOver hw
      · refine ⟨_, hstep, ?_, ?_, fun h => absurd (h v rfl) hvwaits.not_over⟩
        · rintro w done' hcons' -
          obtain ⟨rfl, rfl⟩ := List.cons.inj hcons'
          refine ⟨es ++ [e], by simp [hvwaits.events], ?_⟩
          rwa [hvwaits.events, ← hes]
        · simpa [hcons, hv] using hrequests

/-- No assertion fails, and every state of the run is as it should be. -/
lemma exists_standing (hreqs : ∀ r ∈ reqs, c.KnownBank r)
    (hknown : ∀ e ∈ es, e.Known c.toClient) :
    ∃ p, c.progress reqs es = some p ∧ c.Standing reqs es p := by
  induction es using List.reverseRecOn with
  | nil =>
    obtain ⟨p, hnext, hp⟩ := exists_standing_next hreqs
    refine ⟨p, ?_, hp⟩
    rw [progress, hnext]
    rfl
  | append_singleton es e ih =>
    obtain ⟨p, hprogress, hp⟩ := ih fun a ha => hknown a (by simp [ha])
    obtain ⟨p', hstep, hp'⟩ := hp.step hreqs (hknown e (by simp))
    exact ⟨p', by rw [progress_append, hprogress, Option.bind_some, hstep], hp'⟩

lemma standing (hreqs : ∀ r ∈ reqs, c.KnownBank r) (hknown : ∀ e ∈ es, e.Known c.toClient)
    (h : c.progress reqs es = some p) : c.Standing reqs es p := by
  obtain ⟨q, hq, hstanding⟩ := exists_standing hreqs hknown
  obtain rfl := Option.some.inj (hq.symm.trans h)
  exact hstanding

/-! ### A turn from its beginning on -/

lemma inTurn_iff : c.InTurn reqs es i t ↔
    ∃ done rest, c.progress reqs es = some ⟨t :: done, rest⟩ ∧ done.length = i ∧ ¬ t.Over := by
  rw [InTurn, run_eq_progress]
  constructor
  · rintro ⟨ts, hrun, hlen, hover⟩
    obtain ⟨⟨turns, rest⟩, hp, hturns⟩ := Option.map_eq_some_iff.mp hrun
    have hturns' : turns = t :: ts.reverse := by
      rw [← List.reverse_reverse turns, hturns]
      simp
    subst hturns'
    exact ⟨ts.reverse, rest, hp, by simpa using hlen, hover⟩
  · rintro ⟨done, rest, hp, hlen, hover⟩
    refine ⟨done.reverse, ?_, by simpa using hlen, hover⟩
    rw [hp]
    simp

lemma begins_of_progress {rs : List Request}
    (h : c.progress reqs es = some ⟨t :: done, rs⟩) (hlen : done.length = i)
    (hwaits : t.Waits c es []) : c.Begins reqs es i :=
  ⟨t, inTurn_iff.mpr ⟨done, rs, h, hlen, hwaits.not_over⟩, hwaits.events⟩

lemma sent_eq {ds : List Turn} (h : c.progress reqs es = some p) (hturns : p.turns = ds ++ t :: done)
    (hlen : done.length = i) : c.sent reqs es i = t.targets := by
  have hget : p.turns.reverse[i]? = some t := by
    rw [hturns, List.reverse_append, List.reverse_cons, List.append_assoc,
      List.getElem?_append_right (by simp [hlen])]
    simp [hlen]
  rw [sent, run_eq_progress, h, Option.map_some, Option.getD_some, hget]
  rfl

lemma sent_head (h : c.progress reqs es = some ⟨t :: done, rest⟩) (hlen : done.length = i) :
    c.sent reqs es i = t.targets := by
  have hturns : (⟨t :: done, rest⟩ : Progress).turns = [] ++ t :: done := rfl
  exact sent_eq h hturns hlen

/-- A turn stays where it is among the turns when it is over. -/
lemma step_turns {p' : Progress} {ds : List Turn} (h : p.step e = some p')
    (hturns : p.turns = ds ++ t :: done) (hover : t.Over) :
    ∃ ds', p'.turns = ds' ++ t :: done := by
  rw [Progress.step, hturns] at h
  cases ds with
  | nil =>
    simp only [List.nil_append, hover, if_true, Option.some.injEq] at h
    exact ⟨[], by rw [← h, hturns, List.nil_append]⟩
  | cons d ds =>
    simp only [List.cons_append] at h
    split_ifs at h with hd
    · obtain rfl := Option.some.inj h
      exact ⟨d :: ds, hturns⟩
    · obtain ⟨u, -, hu⟩ := Option.bind_eq_some_iff.mp h
      split_ifs at hu
      · cases hrest : p.rest with
        | nil =>
          rw [hrest, Progress.next, Option.some.injEq] at hu
          exact ⟨u :: ds, by rw [← hu]; rfl⟩
        | cons r rs =>
          rw [hrest, Progress.next] at hu
          obtain ⟨v, -, rfl⟩ := Option.map_eq_some_iff.mp hu
          exact ⟨v.send :: u :: ds, rfl⟩
      · obtain rfl := Option.some.inj hu
        exact ⟨u :: ds, rfl⟩

/-- A turn that has begun after `past`, when `during` has come since. -/
lemma exists_stage {t₀ : Turn} (hreqs : ∀ r ∈ reqs, c.KnownBank r)
    (hknown : ∀ e ∈ past ++ during, e.Known c.toClient)
    (hbegin : c.progress reqs past = some ⟨t₀ :: done, rest⟩) (hwaits : t₀.Waits c past []) :
    ∃ p, c.progress reqs (past ++ during) = some p ∧
      ((∃ t, p = ⟨t :: done, rest⟩ ∧ t.req = t₀.req ∧ t.Waits c past during) ∨
        ∃ t ds, p.turns = ds ++ t :: done ∧ t.req = t₀.req ∧ t.Ended c past during) := by
  induction during using List.reverseRecOn with
  | nil => exact ⟨_, by rwa [List.append_nil], Or.inl ⟨t₀, rfl, rfl, hwaits⟩⟩
  | append_singleton during e ih =>
    rw [← List.append_assoc] at hknown ⊢
    have hpast : ∀ a ∈ past ++ during, a.Known c.toClient := fun a ha =>
      hknown a (List.mem_append_left _ ha)
    obtain ⟨p, hp, hstage⟩ := ih hpast
    have hstanding := standing hreqs hpast hp
    obtain ⟨hrest, hturns⟩ := hstanding.known hreqs
    obtain ⟨p', hstep, -⟩ := hstanding.step hreqs (hknown e (by simp))
    refine ⟨p', by rw [progress_append, hp, Option.bind_some, hstep], ?_⟩
    rcases hstage with ⟨t, rfl, hreq, ht⟩ | ⟨t, ds, hds, hreq, ht⟩
    · obtain ⟨u, hreads⟩ := ht.reads (hturns t (by simp)) (hknown e (by simp))
      rcases hreads.step done ht hrest with
        ⟨hu, hstep'⟩ | ⟨hu, -, hstep'⟩ | ⟨hu, r, rs, v, -, hstep', -, -⟩
      · obtain rfl := Option.some.inj (hstep'.symm.trans hstep)
        exact Or.inl ⟨u, rfl, hreads.req.trans hreq, hu⟩
      · obtain rfl := Option.some.inj (hstep'.symm.trans hstep)
        exact Or.inr ⟨u, [], rfl, hreads.req.trans hreq, hu⟩
      · obtain rfl := Option.some.inj (hstep'.symm.trans hstep)
        exact Or.inr ⟨u, [v], rfl, hreads.req.trans hreq, hu⟩
    · obtain ⟨ds', hds'⟩ := step_turns hstep hds ht.isOver
      exact Or.inr ⟨t, ds', hds', hreq, ht.append⟩

section

variable (hreqs : ∀ r ∈ reqs, c.KnownBank r)

include hreqs

lemma Begins.exists_waits (hknown : ∀ e ∈ past, e.Known c.toClient) (h : c.Begins reqs past i) :
    ∃ t done rest, c.progress reqs past = some ⟨t :: done, rest⟩ ∧ done.length = i ∧
      t.Waits c past [] := by
  obtain ⟨t, ht, hevents⟩ := h
  obtain ⟨done, rest, hp, hlen, hover⟩ := inTurn_iff.mp ht
  obtain ⟨past', hpast, hwaits⟩ := (standing hreqs hknown hp).waits t done rfl hover
  rw [hevents, List.append_nil] at hpast
  rw [hevents, hpast] at hwaits
  exact ⟨t, done, rest, hp, hlen, hwaits⟩

/-- The turn number `i` is that of request number `i`. -/
lemma turn_req {ds : List Turn} (hknown : ∀ e ∈ es, e.Known c.toClient)
    (h : c.progress reqs es = some p) (hturns : p.turns = ds ++ t :: done) (hlen : done.length = i)
    (hreq : reqs[i]? = some req) : t.req = c.addressed req := by
  have hrequests := (standing hreqs hknown h).requests
  have hget := congrArg (fun l => l[i]?) hrequests
  simp only [List.getElem?_map, hreq, Option.map_some, hturns, List.reverse_append,
    List.reverse_cons, List.append_assoc, List.map_append] at hget
  rw [List.getElem?_append_right (by simp [hlen])] at hget
  simpa [hlen] using hget

lemma head_req (hknown : ∀ e ∈ es, e.Known c.toClient)
    (h : c.progress reqs es = some ⟨t :: done, rest⟩) (hlen : done.length = i)
    (hreq : reqs[i]? = some req) : t.req = c.addressed req := by
  have hturns : (⟨t :: done, rest⟩ : Progress).turns = [] ++ t :: done := rfl
  exact turn_req hreqs hknown h hturns hlen hreq

/-- A request is sent once and then once more for each timeout before the reply that counts, as long as
retries are left. -/
lemma length_sent (hknown : ∀ e ∈ past ++ during, e.Known c.toClient)
    (hbegin : c.Begins reqs past i) (hreq : reqs[i]? = some req) :
    (c.sent reqs (past ++ during) i).length =
      1 + min (c.timeouts req.reqId past during) c.resendNum := by
  obtain ⟨t₀, done, rest, hp₀, hlen, hwaits⟩ :=
    hbegin.exists_waits hreqs fun e he => hknown e (List.mem_append_left _ he)
  obtain ⟨p, hp, ⟨t, rfl, -, ht⟩ | ⟨t, ds, hds, -, ht⟩⟩ := exists_stage hreqs hknown hp₀ hwaits
  · have hid := head_req hreqs hknown hp hlen hreq
    have hretry := ht.retry_le
    have hunanswered := ht.unanswered
    rw [hid] at hunanswered
    rw [sent_head hp hlen, ht.targets, timeouts]
    simp only [addressed] at hunanswered
    rw [hunanswered, ← ht.retry]
    omega
  · have hid := turn_req hreqs hknown hp hds hlen hreq
    rw [sent_eq hp hds hlen, ht.targets, hid]
    rfl

/-- The turn goes on exactly as long as no reply counts and no more timeouts than retries have come. -/
lemma exists_inTurn_iff (hknown : ∀ e ∈ past ++ during, e.Known c.toClient)
    (hbegin : c.Begins reqs past i) (hreq : reqs[i]? = some req) :
    (∃ t, c.InTurn reqs (past ++ during) i t) ↔
      c.beforeReply req.reqId past during = during ∧ during.count .timeout ≤ c.resendNum := by
  obtain ⟨t₀, done, rest, hp₀, hlen, hwaits⟩ :=
    hbegin.exists_waits hreqs fun e he => hknown e (List.mem_append_left _ he)
  obtain ⟨p, hp, ⟨t, rfl, -, ht⟩ | ⟨t, ds, hds, -, ht⟩⟩ := exists_stage hreqs hknown hp₀ hwaits
  · have hid := head_req hreqs hknown hp hlen hreq
    have hunanswered := ht.unanswered
    rw [hid] at hunanswered
    have hcount := ht.retry ▸ ht.retry_le
    simp only [hcount, and_true]
    exact ⟨fun _ => hunanswered, fun _ => ⟨t, inTurn_iff.mpr ⟨done, rest, hp, hlen, ht.not_over⟩⟩⟩
  · have hid := turn_req hreqs hknown hp hds hlen hreq
    have hanswered := ht.answered
    rw [hid] at hanswered
    constructor
    · rintro ⟨u, hu⟩
      obtain ⟨done', rest', hp', hlen', hover⟩ := inTurn_iff.mp hu
      obtain rfl := Option.some.inj (hp.symm.trans hp')
      cases ds with
      | nil =>
        obtain ⟨rfl, -⟩ := List.cons.inj hds
        exact absurd ht.isOver hover
      | cons d ds =>
        have hlengths := congrArg List.length hds
        simp only [List.length_cons, List.length_append] at hlengths
        omega
    · rintro ⟨hunanswered, hcount⟩
      rcases hanswered with hanswered | hcount'
      · exact absurd hunanswered hanswered
      · omega

/-- One result of `receive` in the turn of request number `i`. -/
lemma InTurn.exists_step (hknown : ∀ a ∈ es ++ [e], a.Known c.toClient)
    (h : c.InTurn reqs es i t) :
    ∃ past u done, past ++ t.events = es ∧ done.length = i ∧ t.Waits c past t.events ∧
      t.Reads c past t.events e u ∧ (∃ rest, c.progress reqs es = some ⟨t :: done, rest⟩) ∧
      ((u.Waits c past (t.events ++ [e]) ∧
          ∃ rest, c.progress reqs (es ++ [e]) = some ⟨u :: done, rest⟩) ∨
        (u.Ended c past (t.events ++ [e]) ∧
          c.progress reqs (es ++ [e]) = some ⟨u :: done, []⟩) ∨
        (u.Ended c past (t.events ++ [e]) ∧
          ∃ rs v, c.progress reqs (es ++ [e]) = some ⟨v :: u :: done, rs⟩ ∧
            v.Waits c (es ++ [e]) [])) := by
  have hes : ∀ a ∈ es, a.Known c.toClient := fun a ha => hknown a (List.mem_append_left _ ha)
  obtain ⟨done, rest, hp, hlen, hover⟩ := inTurn_iff.mp h
  have hstanding := standing hreqs hes hp
  have hrest : ∀ r ∈ rest, c.KnownBank r := (hstanding.known hreqs).1
  have hreq : c.KnownBank t.req := (hstanding.known hreqs).2 t (by simp)
  obtain ⟨past, hpast, hwaits⟩ := hstanding.waits t done rfl hover
  obtain ⟨u, hreads⟩ := hwaits.reads hreq (hknown e (by simp))
  refine ⟨past, u, done, hpast, hlen, hwaits, hreads, ⟨rest, hp⟩, ?_⟩
  simp only [progress_append, hp, Option.bind_some]
  rcases hreads.step done hwaits hrest with
    ⟨hu, hstep⟩ | ⟨hu, -, hstep⟩ | ⟨hu, r, rs, v, -, hstep, -, hv⟩
  · exact Or.inl ⟨hu, rest, hstep⟩
  · exact Or.inr (Or.inl ⟨hu, hstep⟩)
  · refine Or.inr (Or.inr ⟨hu, rs, v, hstep, ?_⟩)
    rwa [hpast] at hv

/-- When a turn is over, that of the next request begins at once. -/
lemma begins_succ (hknown : ∀ a ∈ es ++ [e], a.Known c.toClient) (h : c.InTurn reqs es i t)
    (hover : ¬ ∃ u, c.InTurn reqs (es ++ [e]) i u) (hlt : i + 1 < reqs.length) :
    c.Begins reqs (es ++ [e]) (i + 1) := by
  obtain ⟨past, u, done, -, hlen, -, -, -, hcases⟩ := h.exists_step hreqs hknown
  rcases hcases with ⟨hu, rest, hp⟩ | ⟨-, hp⟩ | ⟨-, rs, v, hp, hv⟩
  · exact absurd ⟨u, inTurn_iff.mpr ⟨done, rest, hp, hlen, hu.not_over⟩⟩ hover
  · have hlengths := congrArg List.length (standing hreqs hknown hp).requests
    simp only [List.map_nil, List.append_nil, List.length_map, List.length_reverse,
      List.length_cons] at hlengths
    omega
  · exact begins_of_progress hp (by simp [hlen]) hv

/-- Only a timeout or the reply that counts makes a turn do anything. -/
lemma idle (hknown : ∀ a ∈ es ++ [e], a.Known c.toClient) (h : c.InTurn reqs es i t)
    (hreq : reqs[i]? = some req) (htimeout : e ≠ .timeout) (hacc : ¬ c.Accepts req.reqId es e) :
    ∃ u, c.InTurn reqs (es ++ [e]) i u ∧ u.retry = t.retry ∧
      ∀ j, c.sent reqs (es ++ [e]) j = c.sent reqs es j := by
  obtain ⟨past, u, done, hpast, hlen, hwaits, hreads, ⟨rest₀, hp₀⟩, hcases⟩ :=
    h.exists_step hreqs hknown
  obtain ⟨hretry, htargets⟩ := hreads.idle htimeout
  have hid : t.req = c.addressed req :=
    head_req hreqs (fun a ha => hknown a (List.mem_append_left _ ha)) hp₀ hlen hreq
  have hnot : ¬ u.Ended c past (t.events ++ [e]) := by
    intro hu
    have hunanswered := hwaits.unanswered
    rw [hid] at hunanswered
    have hbefore : c.beforeReply req.reqId past (t.events ++ [e]) = t.events ++ [e] := by
      rw [beforeReply_append, if_pos ⟨hunanswered, by rwa [hpast]⟩]
    have hanswered := hu.answered
    rw [hreads.req, hid] at hanswered
    rcases hanswered with hanswered | hcount
    · exact hanswered hbefore
    · have hsingle : [e].count .timeout = 0 := by simp [htimeout]
      rw [List.count_append, hsingle, ← hwaits.retry] at hcount
      have hle := hwaits.retry_le
      omega
  rcases hcases with ⟨hu, rest, hp⟩ | ⟨hu, -⟩ | ⟨hu, -⟩
  · refine ⟨u, inTurn_iff.mpr ⟨done, rest, hp, hlen, hu.not_over⟩, hretry, fun j => ?_⟩
    simp only [sent, run_eq_progress, hp, hp₀, Option.map_some, Option.getD_some,
      ← List.getElem?_map, List.reverse_cons, List.map_append, List.map_cons, List.map_nil,
      htargets]
  · exact absurd hu hnot
  · exact absurd hu hnot

/-- A retransmission goes to the server that the latest notification names. -/
lemma retarget (hknown : ∀ a ∈ es ++ [.timeout], a.Known c.toClient) (hnew : c.resendNewhead = true)
    (h : c.InTurn reqs es i t) (hreq : reqs[i]? = some req)
    (hgoes : ∃ u, c.InTurn reqs (es ++ [.timeout]) i u) :
    ∃ a, c.latest req es = some a ∧
      c.sent reqs (es ++ [.timeout]) i = c.sent reqs es i ++ [a] := by
  obtain ⟨past, u, done, hpast, hlen, hwaits, hreads, ⟨rest₀, hp₀⟩, hcases⟩ :=
    h.exists_step hreqs hknown
  have hid : t.req = c.addressed req :=
    head_req hreqs (fun a ha => hknown a (List.mem_append_left _ ha)) hp₀ hlen hreq
  obtain ⟨u', hu'⟩ := hgoes
  obtain ⟨done', rest', hp', hlen', hover'⟩ := inTurn_iff.mp hu'
  rcases hcases with ⟨hu, rest, hp⟩ | ⟨hu, hp⟩ | ⟨hu, rs, v, hp, -⟩
  · have hle := hu.retry_le
    obtain ⟨a, hlatest, htargets⟩ := hreads.retarget rfl hu.acceptFlag hle hnew
    rw [hpast, hid] at hlatest
    refine ⟨a, hlatest, ?_⟩
    rw [sent_head hp hlen, sent_head hp₀ hlen, htargets]
  · obtain ⟨hturns, -⟩ := Progress.mk.inj (Option.some.inj (hp.symm.trans hp'))
    obtain ⟨rfl, -⟩ := List.cons.inj hturns
    exact absurd hu.isOver hover'
  · obtain ⟨hturns, -⟩ := Progress.mk.inj (Option.some.inj (hp.symm.trans hp'))
    have hlengths := congrArg List.length hturns
    simp only [List.length_cons] at hlengths
    omega

/-- The first turn begins before anything has come. -/
lemma begins_zero (hpos : 0 < reqs.length) : c.Begins reqs [] 0 := by
  rcases exists_next [] (Follows.refl c) hreqs with ⟨rfl, -⟩ | ⟨r, rs, t, -, hnext, -, ht⟩
  · simp at hpos
  · exact begins_of_progress (by rw [progress, hnext]; rfl) rfl ht

/-- Before its turn has begun, a request is not among the turns. -/
lemma length_turns_le (hknown : ∀ e ∈ es, e.Known c.toClient)
    (hbegin : ∀ es', es' <+: es → ¬ c.Begins reqs es' i) (hp : c.progress reqs es = some p) :
    p.turns.length ≤ i := by
  induction es using List.reverseRecOn generalizing p with
  | nil =>
    obtain ⟨turns, rest⟩ := p
    rcases exists_next [] (Follows.refl c) hreqs with
      ⟨rfl, hnext⟩ | ⟨r', rs', t, rfl, hnext, -, -⟩
    · obtain ⟨rfl, -⟩ := Progress.mk.inj (Option.some.inj hp)
      exact Nat.zero_le _
    · have hp' : c.progress (r' :: rs') [] = some ⟨[t], rs'⟩ := by
        rw [progress, hnext]
        rfl
      obtain ⟨rfl, -⟩ := Progress.mk.inj (Option.some.inj (hp'.symm.trans hp))
      have hzero : i ≠ 0 := by
        rintro rfl
        exact hbegin [] List.prefix_rfl (begins_zero hreqs (by simp))
      simpa using Nat.one_le_iff_ne_zero.mpr hzero
  | append_singleton es e ih =>
    have hes : ∀ a ∈ es, a.Known c.toClient := fun a ha => hknown a (List.mem_append_left _ ha)
    obtain ⟨q, hq, hstanding⟩ := exists_standing hreqs hes
    have hle := ih hes (fun es' h => hbegin es' (h.trans (List.prefix_append _ _))) hq
    obtain ⟨turns, rest⟩ := q
    by_cases hover : ∀ t ∈ turns.head?, t.Over
    · -- the run has ended
      have hstep : Progress.step ⟨turns, rest⟩ e = some ⟨turns, rest⟩ := by
        cases turns with
        | nil => rfl
        | cons t done => exact if_pos (hover t rfl)
      rw [progress_append, hq, Option.bind_some, hstep] at hp
      rwa [← Option.some.inj hp]
    · cases turns with
      | nil => simp at hover
      | cons t done =>
        have hnot : ¬ t.Over := by simpa using hover
        have hturn := inTurn_iff.mpr ⟨done, rest, hq, rfl, hnot⟩
        obtain ⟨past, u, done', -, hlen, -, -, ⟨rest', hq'⟩, hcases⟩ :=
          InTurn.exists_step hreqs hknown hturn
        rcases hcases with ⟨-, rest'', hp'⟩ | ⟨-, hp'⟩ | ⟨-, rs, v, hp', hv⟩
        · obtain rfl := Option.some.inj (hp'.symm.trans hp)
          simpa [hlen] using hle
        · obtain rfl := Option.some.inj (hp'.symm.trans hp)
          simpa [hlen] using hle
        · obtain rfl := Option.some.inj (hp'.symm.trans hp)
          have hne : i ≠ done.length + 1 := by
            rintro rfl
            exact hbegin _ List.prefix_rfl (begins_of_progress hp' (by simp [hlen]) hv)
          simp only [List.length_cons, hlen] at hle ⊢
          omega

/-- Before its turn has begun, a request is not sent. -/
lemma sent_eq_nil (hknown : ∀ e ∈ es, e.Known c.toClient)
    (hbegin : ∀ es', es' <+: es → ¬ c.Begins reqs es' i) : c.sent reqs es i = [] := by
  obtain ⟨p, hp, -⟩ := exists_standing hreqs hknown
  have hle := length_turns_le hreqs hknown hbegin hp
  rw [sent, run_eq_progress, hp, Option.map_some, Option.getD_some,
    List.getElem?_eq_none (by rwa [List.length_reverse])]
  rfl

end

end RunningClient

end ChainReplication
