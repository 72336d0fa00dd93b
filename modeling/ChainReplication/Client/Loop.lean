import ChainReplication.Client.Sending
import Mathlib.Data.Seq.Basic
import Mathlib.Data.ENat.Lattice
import Mathlib.Order.CompletePartialOrder

/-!
# The retry loop

The sendings of a client for a finite or infinite sequence of results of `receive`.
-/

namespace Stream'.Seq

variable {α : Type*} {s : Seq α} {a : α} {n p : ℕ}

lemma take_take (h : p ≤ n) : (s.take n).take p = s.take p := by
  ext1 k
  rw [List.getElem?_take]
  simp only [getElem?_take]
  split_ifs <;> first | rfl | omega

lemma take_append_drop_take (h : p ≤ n) : s.take p ++ (s.take n).drop p = s.take n := by
  rw [← take_take h, List.take_append_drop]

lemma take_succ_of_get? (h : s.get? n = some a) : s.take (n + 1) = s.take n ++ [a] := by
  induction n generalizing s with
  | zero =>
    cases s using recOn with
    | nil => simp at h
    | cons b s =>
      simp only [get?_cons_zero, Option.some.injEq] at h
      simp [h]
  | succ n ih =>
    cases s using recOn with
    | nil => simp at h
    | cons b s =>
      simp only [get?_cons_succ] at h
      rw [take_succ_cons, ih h, take_succ_cons, List.cons_append]

lemma take_succ_of_get?_eq_none (h : s.get? n = none) : s.take (n + 1) = s.take n := by
  ext1 k
  simp only [getElem?_take]
  split_ifs with hlt hlt'
  · rfl
  · obtain rfl : k = n := by omega
    exact h
  · omega
  · rfl

/-- What is taken first from a sequence is taken first from what is taken of it. -/
lemma take_eq_of_prefix {l : List α} (h : l <+: s.take n) : l = s.take l.length := by
  have hle : l.length ≤ n := h.length_le.trans length_take_le
  rw [← take_take hle]
  exact List.prefix_iff_eq_take.mp h

end Stream'.Seq

namespace ChainReplication

open RunningClient Stream'

/-- What the client does with the requests `reqs` when `receive` brings the sequence `s`, of which it has
read `n` results. -/
structure RetryLoop (c : RunningClient) (reqs : List Request) (s : Seq Receipt) : Prop where
  /-- No assertion fails. -/
  runs : ∀ n, (c.run reqs (s.take n)).isSome
  first : 0 < reqs.length → c.Begins reqs (s.take 0) 0
  /-- Nothing is sent before the turn. -/
  unsent : ∀ n i, (∀ p ≤ n, ¬ c.Begins reqs (s.take p) i) → c.sent reqs (s.take n) i = []
  /-- In every turn the request is sent once and once more for each timeout before the reply that counts,
  as long as retries are left. -/
  sends : ∀ p n i req, c.Begins reqs (s.take p) i → reqs[i]? = some req → p ≤ n →
    (c.sent reqs (s.take n) i).length =
      1 + min (c.timeouts req.reqId (s.take p) ((s.take n).drop p)) c.resendNum
  /-- The same for the whole sequence. -/
  sends_all : ∀ p i req, c.Begins reqs (s.take p) i → reqs[i]? = some req →
    ⨆ n, ((c.sent reqs (s.take (p + n)) i).length : ℕ∞) =
      1 + min (⨆ n, (c.timeouts req.reqId (s.take p) ((s.take (p + n)).drop p) : ℕ∞)) c.resendNum
  /-- The turn goes on as long as no reply counts and there are no more timeouts than retries. -/
  inTurn : ∀ p n i req, c.Begins reqs (s.take p) i → reqs[i]? = some req → p ≤ n →
    ((∃ t, c.InTurn reqs (s.take n) i t) ↔
      c.beforeReply req.reqId (s.take p) ((s.take n).drop p) = (s.take n).drop p ∧
        ((s.take n).drop p).count .timeout ≤ c.resendNum)
  /-- Then the next turn begins. -/
  next : ∀ n i t, c.InTurn reqs (s.take n) i t → (¬ ∃ u, c.InTurn reqs (s.take (n + 1)) i u) →
    i + 1 < reqs.length → c.Begins reqs (s.take (n + 1)) (i + 1)
  /-- Dropped replies, replies to other requests and notifications cost no retry and cause no sending. -/
  idle : ∀ n i t e req, c.InTurn reqs (s.take n) i t → s.get? n = some e → reqs[i]? = some req →
    e ≠ .timeout → ¬ c.Accepts req.reqId (s.take n) e →
      ∃ u, c.InTurn reqs (s.take (n + 1)) i u ∧ u.retry = t.retry ∧
        ∀ j, c.sent reqs (s.take (n + 1)) j = c.sent reqs (s.take n) j
  /-- With `resend_newhead` a retransmission goes to the server that the latest notification names. -/
  retarget : c.resendNewhead = true → ∀ n i t req, c.InTurn reqs (s.take n) i t →
    s.get? n = some .timeout → reqs[i]? = some req → (∃ u, c.InTurn reqs (s.take (n + 1)) i u) →
      ∃ a, c.latest req (s.take n) = some a ∧
        c.sent reqs (s.take (n + 1)) i = c.sent reqs (s.take n) i ++ [a]

/-- `run` keeps to the retry loop, for every list of requests and every sequence of results. -/
theorem run_retryLoop (c : RunningClient) (reqs : List Request) (s : Seq Receipt)
    (hreqs : ∀ req ∈ reqs, c.KnownBank req) (hs : ∀ e ∈ s, e.Known c.toClient) :
    RetryLoop c reqs s := by
  have hknown : ∀ n, ∀ e ∈ s.take n, e.Known c.toClient := fun n e he => Seq.take_all hs he
  have hsucc : ∀ {n e}, s.get? n = some e → ∀ a ∈ s.take n ++ [e], a.Known c.toClient := by
    intro n e he a ha
    rw [← Seq.take_succ_of_get? he] at ha
    exact hknown _ a ha
  have hsends : ∀ p n i req, c.Begins reqs (s.take p) i → reqs[i]? = some req → p ≤ n →
      (c.sent reqs (s.take n) i).length =
        1 + min (c.timeouts req.reqId (s.take p) ((s.take n).drop p)) c.resendNum := by
    intro p n i req hbegin hreq hle
    have hsplit := Seq.take_append_drop_take (s := s) hle
    have hall := hknown n
    rw [← hsplit] at hall
    have hsent := length_sent hreqs hall hbegin hreq
    rwa [hsplit] at hsent
  refine ⟨?_, ?_, ?_, hsends, ?_, ?_, ?_, ?_, ?_⟩
  · intro n
    obtain ⟨p, hp, -⟩ := exists_standing hreqs (hknown n)
    rw [run_eq_progress, hp]
    rfl
  · intro hpos
    rw [Seq.take_zero]
    exact begins_zero hreqs hpos
  · intro n i hbegin
    refine sent_eq_nil hreqs (hknown n) fun es' hes' => ?_
    rw [Seq.take_eq_of_prefix hes']
    exact hbegin _ (hes'.length_le.trans Seq.length_take_le)
  · intro p i req hbegin hreq
    have hcast : ∀ m k : ℕ, ((min m k : ℕ) : ℕ∞) = (m : ℕ∞) ⊓ k := fun m k =>
      Nat.mono_cast.map_min
    simp only [hsends p _ i req hbegin hreq (Nat.le_add_right p _), Nat.cast_add, Nat.cast_one,
      hcast]
    rw [← ENat.add_iSup, ← iSup_inf_eq]
  · intro p n i req hbegin hreq hle
    have hsplit := Seq.take_append_drop_take (s := s) hle
    have hall := hknown n
    rw [← hsplit] at hall
    have hiff := exists_inTurn_iff hreqs hall hbegin hreq
    rwa [hsplit] at hiff
  · intro n i t ht hover hlt
    cases he : s.get? n with
    | none =>
      rw [Seq.take_succ_of_get?_eq_none he] at hover
      exact absurd ⟨t, ht⟩ hover
    | some e =>
      rw [Seq.take_succ_of_get? he] at hover ⊢
      exact begins_succ hreqs (hsucc he) ht hover hlt
  · intro n i t e req ht he hreq htimeout hacc
    rw [Seq.take_succ_of_get? he]
    exact idle hreqs (hsucc he) ht hreq htimeout hacc
  · intro hnew n i t req ht he hreq hgoes
    rw [Seq.take_succ_of_get? he] at hgoes ⊢
    exact retarget hreqs (hsucc he) hnew ht hreq hgoes

/-- A client of one bank, and a head that takes over from the first one. -/
def patientClient : RunningClient where
  bankHeadList := AList.singleton "BOA" ⟨"127.0.0.1", 50001⟩
  bankTailList := AList.singleton "BOA" ⟨"127.0.0.1", 50003⟩
  addr := ⟨"127.0.0.1", 60001⟩
  resendNum := 2
  resendNewhead := true
  dropInterval := 2

/-- A deposit and a query. -/
def patientRequests : List Request :=
  [{ reqId := "BOA.c.1", type := .deposit, clientAddr := .empty, accountId := "a", bankId := "BOA",
     amount := 5 },
   { reqId := "BOA.c.2", type := .query, clientAddr := .empty, accountId := "a", bankId := "BOA" }]

/-- The head changes, a timeout follows, and then the reply comes. -/
def patientReceipts : Seq Receipt :=
  .cons (.message (.newHead ⟨"BOA", ⟨"127.0.0.1", 50002⟩⟩))
    (.cons .timeout (.cons (.message (.reply { reqId := "BOA.c.1" })) .nil))

theorem run_retryLoop_sample : RetryLoop patientClient patientRequests patientReceipts :=
  run_retryLoop patientClient patientRequests patientReceipts
    (by simp [patientRequests, KnownBank, patientClient, AList.mem_keys])
    (by simp [patientReceipts, Receipt.Known, patientClient, AList.mem_keys])

end ChainReplication
