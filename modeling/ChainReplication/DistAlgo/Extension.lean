import ChainReplication.DistAlgo.Books
import ChainReplication.Library.Machine

/-!
# The two threads of a tail that extends its chain

The main thread handles one message after the other; `process_new_tail_come` runs beside it. Requests and
acknowledgements take `snapshot_lock` for all they do, the handler of `ABORT_EXTENDING` does not take it, so
its statements are steps of their own, and so are those of the background thread.
-/

namespace ChainReplication.DistAlgo

/-- What `process_new_tail_come` has copied. -/
structure Snapshot (P : Type*) where
  processed : AList (fun _ : String => History P)
  accounts : AList (fun _ : String => Account)
  bankUpdateSeq : ℤ

/-- The items of `processed_snapshot` in an order of its keys. -/
def Snapshot.items {P : Type*} (snap : Snapshot P) (accountIds : List String) : List (String × History P) :=
  accountIds.map fun accountId => (accountId, (snap.processed.lookup accountId).getD ∅)

/-- Where the main thread is in the handler of `ABORT_EXTENDING`, with its local variables. -/
inductive AbortPc (P : Type*) where
  | idle
  | checkTail
  | checkSent
  | lastSent
  | loop (ackReq : Option (Request P))
  | pop (ackReq : Option (Request P))
  | insert (ackReq : Option (Request P)) (req : Request P)
  | sendAck (ackReq : Option (Request P))
  | clear
  | setTail
  | setExtending

/-- Where the background thread is in `process_new_tail_come`, with its local variables. -/
inductive ThreadPc (P : Type*) where
  | notStarted
  | copyProcessed
  | copyBank (processed : AList (fun _ : String => History P))
  | copySn (processed : AList (fun _ : String => History P)) (accounts : AList (fun _ : String => Account))
  | beginHistory (snap : Snapshot P)
  | iterate (snap : Snapshot P)
  | loop (snap : Snapshot P) (items : List (String × History P))
  | send (snap : Snapshot P) (item : String × History P) (items : List (String × History P))
  | sendSent (snap : Snapshot P)
  | clear
  | setTail
  | setExtending
  | checkAbort
  | resetTail
  | finished

/-- The background thread has not yet given up the role of the tail. -/
def ThreadPc.early {P : Type*} : ThreadPc P → Bool
  | .notStarted | .setExtending | .checkAbort | .resetTail | .finished => false
  | _ => true

/-- The background thread holds `snapshot_lock`. -/
def ThreadPc.locked {P : Type*} : ThreadPc P → Bool
  | .copyBank _ | .copySn _ _ | .clear | .setTail | .setExtending | .checkAbort | .resetTail => true
  | _ => false

/-- A server with its two threads. `link` holds what the background thread has sent to the new tail and
`aborted` says that an `ABORT_EXTENDING` has been handled. -/
structure Extending (P : Type*) where
  server : Server P
  main : AbortPc P := .idle
  thread : ThreadPc P := .notStarted
  link : List (Msg P) := []
  aborted : Bool := false

/-- A message for the main thread, which `abort` starts to handle, or the next statement of a thread. -/
inductive ExtendLabel (P : Type*) where
  | request (req : Request P) (c : P)
  | ack (bankUpdateSeq : ℤ)
  | toBeHead
  | toBeTail
  | newTailCome (newTail : P)
  | abort
  | main
  | thread
  | iterate (accountIds : List String)

namespace Extending

variable {P : Type*}

/-- The next statement of the handler of `ABORT_EXTENDING`. -/
def mainStep (s : Extending P) : Option (Extending P) :=
  match s.main with
  | .idle => none
  | .checkTail => some { s with main := if s.server.isTail then .clear else .checkSent }
  | .checkSent => some { s with main := if s.server.sent.isEmpty then .loop none else .lastSent }
  | .lastSent => s.server.sent.getLast?.map fun req => { s with main := .loop (some req) }
  | .loop ackReq => some { s with main := if s.server.sent.isEmpty then .sendAck ackReq else .pop ackReq }
  | .pop ackReq =>
    match s.server.sent with
    | [] => none
    | req :: rest => some { s with server := { s.server with sent := rest }, main := .insert ackReq req }
  | .insert ackReq req => some { s with server := s.server.insertProcessedList req, main := .loop ackReq }
  | .sendAck ackReq => (s.server.passAck ackReq).map fun _ => { s with main := .clear }
  | .clear => some { s with server := { s.server with sent := [] }, main := .setTail }
  | .setTail => some { s with server := { s.server with isTail := true }, main := .setExtending }
  | .setExtending =>
    some { s with server := { s.server with extendingChain := false }, main := .idle, aborted := true }

/-- The next statement of `process_new_tail_come`; `iterate` is a step of its own. -/
def threadStep (s : Extending P) : Option (Extending P) :=
  match s.thread with
  | .notStarted | .iterate _ | .finished => none
  | .copyProcessed => some { s with thread := .copyBank s.server.processed }
  | .copyBank processed => some { s with thread := .copySn processed s.server.accounts }
  | .copySn processed accounts =>
    some { s with thread := .beginHistory ⟨processed, accounts, s.server.bankUpdateSeq⟩ }
  | .beginHistory snap =>
    some { s with
      link := s.link ++ [.beginOldTailHistory s.server.serverId snap.bankUpdateSeq]
      thread := .iterate snap }
  | .loop snap [] => some { s with thread := .sendSent snap }
  | .loop snap (item :: items) =>
    some { s with thread := if s.server.abortExtending then .finished else .send snap item items }
  | .send snap item items =>
    some { s with
      link := s.link ++ [.oldTailHistory (snap.accounts.lookup item.1) item.2]
      thread := .loop snap items }
  | .sendSent _ => some { s with link := s.link ++ [.oldTailSentList s.server.sent], thread := .clear }
  | .clear => some { s with server := { s.server with sent := [] }, thread := .setTail }
  | .setTail => some { s with server := { s.server with isTail := false }, thread := .setExtending }
  | .setExtending => some { s with server := { s.server with extendingChain := false }, thread := .checkAbort }
  | .checkAbort => some { s with thread := if s.server.abortExtending then .resetTail else .finished }
  | .resetTail => some { s with server := { s.server with isTail := true }, thread := .finished }

/-- The main thread is free to handle a message. -/
def idle (s : Extending P) : Bool :=
  match s.main with
  | .idle => true
  | _ => false

/-- No background thread has been started. -/
def fresh (s : Extending P) : Bool :=
  match s.thread with
  | .notStarted => true
  | _ => false

/-- The background thread has ended. -/
def finished (s : Extending P) : Bool :=
  match s.thread with
  | .finished => true
  | _ => false

def step (s : Extending P) : ExtendLabel P → Option (Extending P)
  | .request req c =>
    if s.idle && !s.thread.locked then
      (s.server.processReq req c).map fun r => { s with server := r.1 }
    else none
  | .ack bankUpdateSeq =>
    if s.idle && !s.thread.locked then (s.server.ack bankUpdateSeq).map fun r => { s with server := r.1 }
    else none
  | .toBeHead => if s.idle then some { s with server := s.server.toBeHead } else none
  | .toBeTail => if s.idle then s.server.toBeTail.map fun r => { s with server := r.1 } else none
  | .newTailCome newTail =>
    if s.idle && s.fresh then
      (s.server.newTailCome newTail).map fun server => { s with server := server, thread := .copyProcessed }
    else none
  | .abort =>
    if s.idle then some { s with server := { s.server with abortExtending := true }, main := .checkTail }
    else none
  | .main => s.mainStep
  | .thread => s.threadStep
  | .iterate accountIds =>
    match s.thread with
    | .iterate snap =>
      -- a dictionary lists its items in any order
      if accountIds.Perm snap.processed.keys then
        some { s with thread := .loop snap (snap.items accountIds) }
      else none
    | _ => none

variable {s : Extending P}

lemma main_of_idle (h : s.idle = true) : s.main = .idle := by
  unfold idle at h
  split at h
  · assumption
  · cases h

lemma thread_of_fresh (h : s.fresh = true) : s.thread = .notStarted := by
  unfold fresh at h
  split at h
  · assumption
  · cases h

end Extending

end ChainReplication.DistAlgo
