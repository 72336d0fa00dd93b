import ChainReplication.DistAlgo.Extension

/-!
# `ABORT_EXTENDING`

The handler of `ABORT_EXTENDING` against `process_new_tail_come`, statement by statement: whatever the order,
the server ends as a tail with nothing in its sent list and no update lost.
-/

namespace ChainReplication.DistAlgo

variable {P : Type*}

/-- The background thread has given up the role of the tail. -/
def ThreadPc.late : ThreadPc P → Bool
  | .setExtending | .checkAbort | .resetTail | .finished => true
  | _ => false

/-- The background thread is in the last block under `snapshot_lock`. -/
def ThreadPc.closing : ThreadPc P → Bool
  | .clear | .setTail | .setExtending | .checkAbort | .resetTail => true
  | _ => false

/-- The handler has found that the server is no tail and moves the sent list. -/
def AbortPc.moving : AbortPc P → Bool
  | .checkSent | .lastSent | .loop _ | .pop _ | .insert _ _ | .sendAck _ => true
  | _ => false

/-- The statements of the handler after the test of `is_tail`. -/
def AbortPc.ending : AbortPc P → Bool
  | .clear | .setTail | .setExtending => true
  | _ => false

/-- The handler has moved the whole sent list. -/
def AbortPc.moved : AbortPc P → Bool
  | .sendAck _ => true
  | _ => false

/-- The request that the handler has in its hands. -/
def AbortPc.popped : AbortPc P → List (Request P)
  | .insert _ req => [req]
  | _ => []

namespace Extending

/-- One `NEW_TAIL_COME`, which reaches a tail; `ABORT_EXTENDING` comes after it and `TO_BE_TAIL` before. -/
def OneExtension (s : Extending P) : ExtendLabel P → Prop
  | .newTailCome _ => s.server.isTail = true
  | .toBeTail => s.fresh = true
  | .abort => s.fresh = false
  | _ => True

instance (s : Extending P) (l : ExtendLabel P) : Decidable (s.OneExtension l) :=
  match l with
  | .newTailCome _ => inferInstanceAs (Decidable (s.server.isTail = true))
  | .toBeTail => inferInstanceAs (Decidable (s.fresh = true))
  | .abort => inferInstanceAs (Decidable (s.fresh = false))
  | .request _ _ | .ack _ | .toBeHead | .main | .thread | .iterate _ => instDecidableTrue

/-- The requests that are to be moved to `processed`. -/
def waiting (s : Extending P) : List (Request P) := s.main.popped ++ s.server.sent

/-- The server is a tail, or a thread is about to make it one. -/
def settled (s : Extending P) : Bool := s.server.isTail || s.thread.closing || s.main.ending

/-- The handler has cleared the sent list. -/
def cleared (s : Extending P) : Bool :=
  match s.main with
  | .setTail | .setExtending => true
  | .idle => s.aborted
  | _ => false

/-- The handler has made the server the tail. -/
def retailed (s : Extending P) : Bool :=
  match s.main with
  | .setExtending => true
  | .idle => s.aborted
  | _ => false

/-- What holds while the two threads take turns. -/
structure AbortInv (s : Extending P) : Prop where
  sound : s.server.Sound s.waiting
  kept : s.server.AppliedKept s.waiting
  stored : s.settled = true → s.server.AppliedKept []
  tail : s.thread.early = true → s.server.isTail = true
  moving : s.main.moving = true → s.thread.late = true
  busy : s.idle = false ∨ s.aborted = true → s.server.abortExtending = true
  fresh : s.fresh = true → s.idle = true ∧ s.aborted = false
  cleared : s.cleared = true → s.server.sent = []
  retailed : s.retailed = true → s.thread = .finished → s.server.isTail = true
  quiet : s.idle = true → s.aborted = true → s.server.extendingChain = false
  moved : s.main.moved = true → s.server.sent = []

variable {s t : Extending P}

lemma AbortInv.isTail_of_aborted (h : s.AbortInv) (hidle : s.idle = true) (haborted : s.aborted = true)
    (hlock : s.thread.locked = false) : s.server.isTail = true := by
  have hretailed : s.retailed = true := by
    rw [Extending.retailed, main_of_idle hidle]
    exact haborted
  cases hthread : s.thread with
  | notStarted =>
    have hfresh : s.fresh = true := by rw [Extending.fresh, hthread]
    rw [(h.fresh hfresh).2] at haborted
    cases haborted
  | finished => exact h.retailed hretailed hthread
  | copyBank _ | copySn _ _ | clear | setTail | setExtending | checkAbort | resetTail =>
    rw [hthread] at hlock
    cases hlock
  | _ =>
    apply h.tail
    rw [hthread]
    rfl

/-- A message that the main thread handles between two others. -/
lemma AbortInv.serve (h : s.AbortInv) (hidle : s.idle = true) {server : Server P}
    (hsound : server.Sound server.sent) (hkept : server.AppliedKept server.sent)
    (hstored : s.settled = true → server.AppliedKept []) (htail : server.isTail = s.server.isTail)
    (hext : server.extendingChain = s.server.extendingChain)
    (habort : server.abortExtending = s.server.abortExtending) (hsent : s.cleared = true → server.sent = []) :
    AbortInv { s with server := server } where
  sound := by
    rw [waiting, main_of_idle hidle]
    exact hsound
  kept := by
    rw [waiting, main_of_idle hidle]
    exact hkept
  stored hsettled := hstored (by rwa [settled, htail] at hsettled)
  tail hearly := htail.trans (h.tail hearly)
  moving := h.moving
  busy hbusy := habort.trans (h.busy hbusy)
  fresh := h.fresh
  cleared := hsent
  retailed hretailed hfinished := htail.trans (h.retailed hretailed hfinished)
  quiet hidle' haborted := hext.trans (h.quiet hidle' haborted)
  moved hmoved := absurd (main_of_idle hidle ▸ hmoved) nofun

lemma AbortInv.waiting_of_idle (hidle : s.idle = true) : s.waiting = s.server.sent := by
  rw [waiting, main_of_idle hidle]
  rfl

lemma isTail_of_settled (hidle : s.idle = true) (hlock : s.thread.locked = false) (hsettled : s.settled = true) :
    s.server.isTail = true := by
  rw [settled, main_of_idle hidle] at hsettled
  cases hthread : s.thread <;> rw [hthread] at hlock hsettled <;> simp_all [ThreadPc.locked, ThreadPc.closing,
    AbortPc.ending]

lemma AbortInv.request {req : Request P} {c : P} {server : Server P} {out : List (P × Msg P)} (h : s.AbortInv)
    (hidle : s.idle = true) (hlock : s.thread.locked = false) (hreq : s.server.processReq req c = some (server, out)) :
    AbortInv { s with server := server } := by
  have hsound : s.server.Sound s.server.sent := AbortInv.waiting_of_idle hidle ▸ h.sound
  have hkept : s.server.AppliedKept s.server.sent := AbortInv.waiting_of_idle hidle ▸ h.kept
  have hcase := hsound.processReq_cases hreq
  obtain ⟨-, htail, hext, habort⟩ := hcase.frame
  have hstored (ht : s.server.isTail = true) : server.AppliedKept [] :=
    hcase.appliedStored hsound ht (h.stored (by simp [settled, ht]))
  refine h.serve hidle (hcase.sound hsound) ?_ ?_ htail hext habort ?_
  · cases ht : s.server.isTail with
    | true => exact (hstored ht).of_stored
    | false => exact hcase.appliedKept hsound ht hkept
  · exact fun hsettled => hstored (isTail_of_settled hidle hlock hsettled)
  · intro hcleared
    have haborted : s.aborted = true := by
      rw [Extending.cleared, main_of_idle hidle] at hcleared
      exact hcleared
    have ht := h.isTail_of_aborted hidle haborted hlock
    exact (hcase.sent_of_tail ht (h.quiet hidle haborted)).trans (h.cleared hcleared)

lemma AbortInv.ack {n : ℤ} {server : Server P} {out : List (P × Msg P)} (h : s.AbortInv)
    (hidle : s.idle = true) (hack : s.server.ack n = some (server, out)) : AbortInv { s with server := server } := by
  have hsound : s.server.Sound s.server.sent := AbortInv.waiting_of_idle hidle ▸ h.sound
  have hkept : s.server.AppliedKept s.server.sent := AbortInv.waiting_of_idle hidle ▸ h.kept
  rw [Server.ack_state hack]
  have hsound' := Server.moveAcked_sound n s.server.sent none hsound
  have hkept' := Server.moveAcked_appliedKept n s.server.sent none hkept
  obtain ⟨processed, sent, heq, hsent⟩ := Server.moveAcked_frame n s.server.sent s.server none
  refine h.serve hidle hsound' hkept' ?_ ?_ ?_ ?_ ?_
  · exact fun hsettled => Server.moveAcked_stored n s.server.sent none (h.stored hsettled)
  · rw [heq]
  · rw [heq]
  · rw [heq]
  · intro hcleared
    rw [heq]
    exact hsent (h.cleared hcleared)

lemma AbortInv.toBeTail {server : Server P} {out : List (P × Msg P)} (h : s.AbortInv) (hidle : s.idle = true)
    (hfresh : s.fresh = true) (htail : s.server.toBeTail = some (server, out)) :
    AbortInv { s with server := server } := by
  have hsound : s.server.Sound s.server.sent := AbortInv.waiting_of_idle hidle ▸ h.sound
  have hkept : s.server.AppliedKept s.server.sent := AbortInv.waiting_of_idle hidle ▸ h.kept
  have hsound' := Server.foldl_insertProcessedList_rule (s := { s.server with isTail := true })
    (Q := Server.Sound) (fun _ _ _ h => h.insertProcessedList) s.server.sent
    (hsound.congr rfl rfl)
  have hkept' := Server.foldl_insertProcessedList_rule (s := { s.server with isTail := true })
    (Q := Server.AppliedKept) (fun _ _ _ h => h.insertProcessedList) s.server.sent hkept
  obtain ⟨processed, heq⟩ :=
    Server.foldl_insertProcessedList_frame s.server.sent { s.server with isTail := true }
  have hnew := Server.toBeTail_state htail
  rw [heq] at hsound' hkept' hnew
  have hthread := thread_of_fresh hfresh
  have hmain := main_of_idle hidle
  have haborted := (h.fresh hfresh).2
  rw [hnew]
  have hwaiting : waiting { s with server := { s.server with
      isTail := true, processed := processed, sent := [] } } = [] := by
    rw [waiting, hmain]
    rfl
  refine ⟨?_, ?_, fun _ => hkept', fun _ => rfl, h.moving, ?_, h.fresh, fun _ => rfl, fun _ _ => rfl, ?_,
    fun _ => rfl⟩
  · rw [hwaiting]
    exact hsound'.congr rfl rfl
  · rw [hwaiting]
    exact hkept'
  · exact fun hbusy => h.busy hbusy
  · exact fun _ ha => absurd ha (by simp [haborted])

lemma AbortInv.newTailCome {newTail : P} {server : Server P} (h : s.AbortInv) (hidle : s.idle = true)
    (hfresh : s.fresh = true) (htail : s.server.isTail = true) (hcome : s.server.newTailCome newTail = some server) :
    AbortInv { s with server := server, thread := .copyProcessed } := by
  have hmain := main_of_idle hidle
  have haborted := (h.fresh hfresh).2
  have hstored := h.stored (by simp [settled, htail])
  have hsound : s.server.Sound s.server.sent := AbortInv.waiting_of_idle hidle ▸ h.sound
  unfold Server.newTailCome at hcome
  split_ifs at hcome with hsent
  obtain rfl := Option.some.inj hcome
  have hwaiting : waiting { s with
      server := { s.server with extendingChain := true, abortExtending := false, succ := some newTail }
      thread := .copyProcessed } = s.server.sent := by
    rw [waiting, hmain]
    rfl
  refine ⟨?_, ?_, fun _ => hstored, fun _ => htail, ?_, ?_, nofun, fun _ => hsent, fun _ _ => htail, ?_,
    fun _ => hsent⟩
  · rw [hwaiting]
    exact hsound.congr rfl rfl
  · rw [hwaiting]
    exact hstored.of_stored
  · rw [hmain]
    nofun
  · rintro (hbusy | hbusy)
    · exact absurd hbusy (by simp [idle, hmain])
    · exact absurd hbusy (by simp [haborted])
  · exact fun _ ha => absurd ha (by simp [haborted])

/-- The handler of `ABORT_EXTENDING` starts. -/
lemma AbortInv.abort (h : s.AbortInv) (hidle : s.idle = true) (hfresh : s.fresh = false) :
    AbortInv { s with server := { s.server with abortExtending := true }, main := .checkTail } := by
  have hmain := main_of_idle hidle
  have hsound := h.sound
  have hkept := h.kept
  rw [waiting, hmain] at hsound hkept
  refine ⟨hsound.congr rfl rfl, hkept, ?_, h.tail,
    nofun, fun _ => rfl, ?_, nofun, nofun, nofun, nofun⟩
  · intro hsettled
    apply h.stored
    rw [settled, hmain]
    exact hsettled
  · intro hfresh'
    exact absurd (hfresh.symm.trans hfresh') Bool.false_ne_true

/-- A server that is no tail after the thread has started has given the role up. -/
lemma AbortInv.late (h : s.AbortInv) (hidle : s.idle = false) (htail : s.server.isTail = false) :
    s.thread.late = true := by
  cases hthread : s.thread with
  | setExtending | checkAbort | resetTail | finished => rfl
  | notStarted =>
    have hfresh := (h.fresh (by rw [Extending.fresh, hthread])).1
    rw [hidle] at hfresh
    cases hfresh
  | _ =>
    have hearly := h.tail (by rw [hthread]; rfl)
    rw [htail] at hearly
    cases hearly

/-- The handler goes on to a statement before the last ones and changes nothing else. -/
lemma AbortInv.proceed (h : s.AbortInv) {main : AbortPc P} (hbusy : s.idle = false)
    (hpopped : main.popped = s.main.popped) (hcleared : Extending.cleared { s with main := main } = false)
    (hstored : main.ending = true → s.server.AppliedKept [])
    (hmoving : main.moving = true → s.thread.late = true)
    (hmoved : main.moved = true → s.server.sent = []) : AbortInv { s with main := main } where
  sound := by
    rw [waiting, hpopped]
    exact h.sound
  kept := by
    rw [waiting, hpopped]
    exact h.kept
  stored hsettled := by
    by_cases hending : main.ending = true
    · exact hstored hending
    · apply h.stored
      simp only [settled, Bool.or_eq_true, hending, Bool.false_eq_true, or_false] at hsettled ⊢
      exact Or.inl hsettled
  tail := h.tail
  moving := hmoving
  busy _ := h.busy (Or.inl hbusy)
  fresh hfresh := by
    have hidle := (h.fresh hfresh).1
    rw [hbusy] at hidle
    cases hidle
  cleared hcleared' := by
    rw [hcleared] at hcleared'
    cases hcleared'
  retailed hretailed := by
    -- what is made the tail has been cleared before
    cases main <;> simp_all [Extending.cleared, Extending.retailed]
  quiet hidle haborted := by
    rw [Extending.cleared, main_of_idle hidle, haborted] at hcleared
    cases hcleared
  moved := hmoved

lemma AbortInv.mainStep (h : s.AbortInv) (hstep : s.mainStep = some t) : t.AbortInv := by
  obtain ⟨server, main, thread, link, aborted⟩ := s
  have hsound := h.sound
  have hkept := h.kept
  cases main with
  | idle => cases hstep
  | checkTail =>
    obtain rfl := Option.some.inj hstep
    by_cases htail : server.isTail = true
    · rw [if_pos htail]
      have hstored := h.stored (by simp [settled, htail])
      exact h.proceed rfl rfl rfl (fun _ => hstored) nofun nofun
    · rw [if_neg htail]
      have hlate := h.late rfl (by simpa using htail)
      exact h.proceed rfl rfl rfl nofun (fun _ => hlate) nofun
  | checkSent =>
    obtain rfl := Option.some.inj hstep
    have hlate := h.moving rfl
    by_cases hsent : server.sent.isEmpty = true
    · rw [if_pos hsent]
      exact h.proceed rfl rfl rfl nofun (fun _ => hlate) nofun
    · rw [if_neg hsent]
      exact h.proceed rfl rfl rfl nofun (fun _ => hlate) nofun
  | lastSent =>
    obtain ⟨req, -, rfl⟩ := Option.map_eq_some_iff.mp hstep
    exact h.proceed rfl rfl rfl nofun (fun _ => h.moving rfl) nofun
  | loop ackReq =>
    obtain rfl := Option.some.inj hstep
    have hlate := h.moving rfl
    by_cases hsent : server.sent.isEmpty = true
    · rw [if_pos hsent]
      exact h.proceed rfl rfl rfl nofun (fun _ => hlate) (fun _ => List.isEmpty_iff.mp hsent)
    · rw [if_neg hsent]
      exact h.proceed rfl rfl rfl nofun (fun _ => hlate) nofun
  | pop ackReq =>
    cases hsent : server.sent with
    | nil =>
      rw [Extending.mainStep] at hstep
      simp only [hsent] at hstep
      cases hstep
    | cons req rest =>
      rw [Extending.mainStep] at hstep
      simp only [hsent] at hstep
      obtain rfl := Option.some.inj hstep
      rw [waiting, hsent] at hsound hkept
      exact ⟨hsound.congr rfl rfl, hkept, h.stored,
        h.tail, fun _ => h.moving rfl, fun _ => h.busy (Or.inl rfl), h.fresh, nofun, nofun, nofun, nofun⟩
  | insert ackReq req =>
    obtain rfl := Option.some.inj hstep
    exact ⟨Server.Sound.insertProcessedList hsound, Server.AppliedKept.insertProcessedList hkept,
      fun hsettled => (h.stored hsettled).stored_insert req, h.tail, fun _ => h.moving rfl,
      fun _ => h.busy (Or.inl rfl), h.fresh, nofun, nofun, nofun, nofun⟩
  | sendAck ackReq =>
    obtain ⟨out, -, rfl⟩ := Option.map_eq_some_iff.mp hstep
    have hsent : server.sent = [] := h.moved rfl
    have hstored : server.AppliedKept [] := by
      rw [waiting, hsent] at hkept
      exact hkept
    exact h.proceed rfl rfl rfl (fun _ => hstored) nofun nofun
  | clear =>
    obtain rfl := Option.some.inj hstep
    have hstored : server.AppliedKept [] := h.stored (by simp [settled, AbortPc.ending])
    have hempty : server.Sound [] := hsound.mono (List.nil_subset _)
    exact ⟨hempty.congr rfl rfl, hstored,
      fun _ => hstored, h.tail, nofun, fun _ => h.busy (Or.inl rfl), h.fresh, fun _ => rfl, nofun, nofun, nofun⟩
  | setTail =>
    obtain rfl := Option.some.inj hstep
    have hstored : server.AppliedKept [] := h.stored (by simp [settled, AbortPc.ending])
    exact ⟨hsound.congr rfl rfl, hkept,
      fun _ => hstored, fun _ => rfl, nofun, fun _ => h.busy (Or.inl rfl), h.fresh, fun _ => h.cleared rfl,
      fun _ _ => rfl, nofun, nofun⟩
  | setExtending =>
    obtain rfl := Option.some.inj hstep
    have hstored : server.AppliedKept [] := h.stored (by simp [settled, AbortPc.ending])
    refine ⟨hsound.congr rfl rfl, hkept,
      fun _ => hstored, h.tail, nofun, fun _ => h.busy (Or.inl rfl), ?_, fun _ => h.cleared rfl,
      fun _ => h.retailed rfl, fun _ _ => rfl, nofun⟩
    exact fun hfresh => absurd (h.fresh hfresh).1 nofun

lemma busy_of_retailed (h : s.retailed = true) : s.idle = false ∨ s.aborted = true := by
  unfold retailed at h
  split at h
  · rename_i hmain
    exact Or.inl (by rw [idle, hmain])
  · exact Or.inr h
  · cases h

/-- The background thread goes on and changes nothing else. -/
lemma AbortInv.goto (h : s.AbortInv) {thread : ThreadPc P} {link : List (Msg P)} (hearly : s.thread.early = true)
    (hearly' : thread.early = true) : AbortInv { s with thread := thread, link := link } := by
  have hstored := h.stored (by simp [settled, h.tail hearly])
  have hunfinished (hfinished : thread = .finished) : s.server.isTail = true := by
    rw [hfinished] at hearly'
    cases hearly'
  have hstarted (hfresh : thread = .notStarted) : s.idle = true ∧ s.aborted = false := by
    rw [hfresh] at hearly'
    cases hearly'
  have hnotLate : s.thread.late = false := by
    cases hthread : s.thread with
    | setExtending | checkAbort | resetTail | finished =>
      rw [hthread] at hearly
      cases hearly
    | _ => rfl
  refine ⟨h.sound, h.kept, fun _ => hstored, fun _ => h.tail hearly, fun hmoving => ?_, h.busy,
    fun hfresh => hstarted (thread_of_fresh hfresh), h.cleared, fun _ => hunfinished, h.quiet, h.moved⟩
  rw [h.moving hmoving] at hnotLate
  cases hnotLate

lemma AbortInv.threadStep (h : s.AbortInv) (hstep : s.threadStep = some t) : t.AbortInv := by
  obtain ⟨server, main, thread, link, aborted⟩ := s
  have hsound := h.sound
  have hkept := h.kept
  cases thread with
  | notStarted | iterate _ | finished => cases hstep
  | copyProcessed | copyBank _ | copySn _ _ | beginHistory _ | send _ _ _ | sendSent _ =>
    obtain rfl := Option.some.inj hstep
    exact h.goto rfl rfl
  | loop snap items =>
    cases items with
    | nil =>
      obtain rfl := Option.some.inj hstep
      exact h.goto rfl rfl
    | cons item items =>
      obtain rfl := Option.some.inj hstep
      have htail : server.isTail = true := h.tail rfl
      have hstored := h.stored (by simp [settled, htail])
      by_cases habort : server.abortExtending = true
      · rw [if_pos habort]
        exact ⟨hsound, hkept, fun _ => hstored, fun _ => htail, fun _ => rfl, h.busy, h.fresh, h.cleared,
          fun _ _ => htail, h.quiet, h.moved⟩
      · rw [if_neg habort]
        exact h.goto rfl rfl
  | clear =>
    obtain rfl := Option.some.inj hstep
    have hstored : server.AppliedKept [] := h.stored (by simp [settled, ThreadPc.closing])
    have hsub : main.popped ++ [] ⊆ main.popped ++ server.sent :=
      List.append_subset.mpr ⟨List.subset_append_left _ _, List.nil_subset _⟩
    have hsound' := hsound.mono hsub
    exact ⟨hsound'.congr rfl rfl,
      hstored.of_stored, fun _ => hstored, h.tail, h.moving, h.busy, h.fresh, fun _ => rfl,
      fun _ hfinished => (nomatch hfinished), h.quiet, fun _ => rfl⟩
  | setTail =>
    obtain rfl := Option.some.inj hstep
    have hstored : server.AppliedKept [] := h.stored (by simp [settled, ThreadPc.closing])
    exact ⟨hsound.congr rfl rfl, hkept,
      fun _ => hstored, nofun, fun _ => rfl, h.busy, h.fresh, h.cleared, fun _ hfinished => (nomatch hfinished),
      h.quiet, h.moved⟩
  | setExtending =>
    obtain rfl := Option.some.inj hstep
    have hstored : server.AppliedKept [] := h.stored (by simp [settled, ThreadPc.closing])
    exact ⟨hsound.congr rfl rfl, hkept,
      fun _ => hstored, nofun, fun _ => rfl, h.busy, h.fresh, h.cleared, fun _ hfinished => (nomatch hfinished),
      fun _ _ => rfl, h.moved⟩
  | checkAbort =>
    obtain rfl := Option.some.inj hstep
    have hstored : server.AppliedKept [] := h.stored (by simp [settled, ThreadPc.closing])
    by_cases habort : server.abortExtending = true
    · rw [if_pos habort]
      exact ⟨hsound, hkept, fun _ => hstored, nofun, fun _ => rfl, h.busy, h.fresh, h.cleared,
        fun _ hfinished => (nomatch hfinished), h.quiet, h.moved⟩
    · rw [if_neg habort]
      -- the handler has set `abort_extending` before it made the server the tail
      exact ⟨hsound, hkept, fun _ => hstored, nofun, fun _ => rfl, h.busy, h.fresh, h.cleared,
        fun hretailed _ => absurd (h.busy (busy_of_retailed hretailed)) habort, h.quiet, h.moved⟩
  | resetTail =>
    obtain rfl := Option.some.inj hstep
    have hstored : server.AppliedKept [] := h.stored (by simp [settled, ThreadPc.closing])
    exact ⟨hsound.congr rfl rfl, hkept,
      fun _ => hstored, fun _ => rfl, fun _ => rfl, h.busy, h.fresh, h.cleared, fun _ _ => rfl, h.quiet, h.moved⟩

lemma AbortInv.step {l : ExtendLabel P} (h : s.AbortInv) (hl : s.OneExtension l)
    (hs : s.step l = some t) : t.AbortInv := by
  cases l with
  | request req c =>
    simp only [Extending.step] at hs
    split_ifs at hs with hfree
    obtain ⟨hidle, hlock⟩ := Bool.and_eq_true_iff.mp hfree
    obtain ⟨r, hr, rfl⟩ := Option.map_eq_some_iff.mp hs
    exact h.request hidle (by simpa using hlock) hr
  | ack n =>
    simp only [Extending.step] at hs
    split_ifs at hs with hfree
    obtain ⟨r, hr, rfl⟩ := Option.map_eq_some_iff.mp hs
    exact h.ack (Bool.and_eq_true_iff.mp hfree).1 hr
  | toBeHead =>
    simp only [Extending.step] at hs
    split_ifs at hs with hidle
    obtain rfl := Option.some.inj hs
    have hwaiting := AbortInv.waiting_of_idle hidle
    have hsound := hwaiting ▸ h.sound
    exact h.serve hidle (hsound.congr rfl rfl)
      (hwaiting ▸ h.kept) h.stored rfl rfl rfl h.cleared
  | toBeTail =>
    simp only [Extending.step] at hs
    split_ifs at hs with hidle
    obtain ⟨r, hr, rfl⟩ := Option.map_eq_some_iff.mp hs
    exact h.toBeTail hidle hl hr
  | newTailCome newTail =>
    simp only [Extending.step] at hs
    split_ifs at hs with hfree
    obtain ⟨hidle, hfresh⟩ := Bool.and_eq_true_iff.mp hfree
    obtain ⟨server, hserver, rfl⟩ := Option.map_eq_some_iff.mp hs
    exact h.newTailCome hidle hfresh hl hserver
  | abort =>
    simp only [Extending.step] at hs
    split_ifs at hs with hidle
    obtain rfl := Option.some.inj hs
    exact h.abort hidle hl
  | main => exact h.mainStep hs
  | thread => exact h.threadStep hs
  | iterate accountIds =>
    obtain ⟨server, main, thread, link, aborted⟩ := s
    cases thread with
    | iterate snap =>
      simp only [Extending.step] at hs
      split_ifs at hs
      obtain rfl := Option.some.inj hs
      exact h.goto rfl rfl
    | _ => cases hs

/-! ### Runs -/

/-- A server whose applied updates are all in `processed` or in its sent list may extend its chain. -/
lemma AbortInv.start {server : Server P} (hsound : server.Sound server.sent)
    (hkept : server.AppliedKept server.sent) (htail : server.isTail = true → server.AppliedKept []) :
    AbortInv { server := server } where
  sound := hsound
  kept := hkept
  stored hsettled := htail (by simpa [settled, ThreadPc.closing, AbortPc.ending] using hsettled)
  tail := nofun
  moving := nofun
  busy := by
    rintro (h | h) <;> cases h
  fresh _ := ⟨rfl, rfl⟩
  cleared := nofun
  retailed := nofun
  quiet _ := nofun
  moved := nofun

/-- However the statements of the two threads fall, a server that has handled `ABORT_EXTENDING` and whose
background thread has ended is a tail that does not extend its chain, has nothing in its sent list and every
update that it ever applied in `processed`. -/
theorem abort_safe {serverId : ℕ} {bankId : String} {prev succ : Option P} {master : P}
    {startDelay : Bool} (hrun : Machine.Reach step OneExtension
      { server := .setup serverId bankId prev succ master startDelay } s)
    (hidle : s.idle = true) (haborted : s.aborted = true) (hfinished : s.finished = true) :
    s.server.isTail = true ∧ s.server.extendingChain = false ∧ s.server.sent = [] ∧
    ∀ r ∈ s.server.applied, s.server.stored r.accountId r.reqId = some r := by
  have h : s.AbortInv := by
    refine hrun.invariant (I := AbortInv) ?_ fun s l t h hl hs => h.step hl hs
    have hempty (waiting : List (Request P)) :
        (Server.setup serverId bankId prev succ master startDelay).AppliedKept waiting := by
      rintro r ⟨⟩
    exact .start (Server.setup_sound serverId bankId prev succ master startDelay) (hempty _) fun _ => hempty _
  have hthread : s.thread = .finished := by
    unfold finished at hfinished
    split at hfinished
    · assumption
    · cases hfinished
  have htail := h.isTail_of_aborted hidle haborted (by rw [hthread]; rfl)
  have hcleared : s.cleared = true := by
    rw [Extending.cleared, main_of_idle hidle]
    exact haborted
  refine ⟨htail, h.quiet hidle haborted, h.cleared hcleared, fun r hr => ?_⟩
  have hstored := h.stored (by simp [settled, htail]) r hr
  rwa [Server.kept_nil] at hstored

/-- A deposit that server 1 forwards. -/
def sampleDeposit (reqId : String) (bankUpdateSeq : ℤ) : Request ℕ where
  reqId := reqId
  type := .deposit
  bankId := "BOA"
  accountId := "a"
  amount := 5
  bankUpdateSeq := bankUpdateSeq
  client := some 50

/-- The tail hands over and acts as an internal server before it handles `ABORT_EXTENDING`. -/
def sampleAbort : List (ExtendLabel ℕ) :=
  [.newTailCome 3, .thread, .thread, .thread, .thread, .iterate [], .request (sampleDeposit "1" 1) 1] ++
    List.replicate 6 .thread ++ [.request (sampleDeposit "2" 2) 1, .abort] ++ List.replicate 11 .main

theorem abort_safe_sample :
    let s := Machine.after step OneExtension { server := .setup 2 "BOA" (some 1) none 100 false } sampleAbort
    s.server.isTail = true ∧ s.server.extendingChain = false ∧ s.server.sent = [] ∧
    ∀ r ∈ s.server.applied, s.server.stored r.accountId r.reqId = some r :=
  abort_safe (Machine.reach_after (by decide +kernel)) (by decide +kernel) (by decide +kernel) (by decide +kernel)

end Extending

end ChainReplication.DistAlgo
