import ChainReplication.Server.Steps

/-!
# The log of one server

The history is numbered without gaps and the counter is its length. Away from the tail,
`sent_list_` is the end of the history that has not been acknowledged.
-/

namespace ChainReplication

open scoped List

namespace ChainServer

variable {s : ChainServer} {msg : Message} {e : Effect}

/-- The history as the clients' requests under their numbers, without what the server computed. -/
def bodies (s : ChainServer) : List Request := s.hist.map Request.body

@[simp] lemma length_bodies (s : ChainServer) : s.bodies.length = s.hist.length := by
  simp [bodies]

/-- How many updates of the history have left `sent_list_`, for a server that is not the tail. -/
def base (s : ChainServer) : ℕ := s.hist.length - s.sentList.length

/-- The numbering of the history, and `sent_list_` as a part of it. -/
structure LogWf (s : ChainServer) : Prop where
  seqs : s.hist.map (·.bankUpdateSeq) = List.range' 1 s.hist.length
  counter : s.bankUpdateSeq = s.hist.length
  update : ∀ q ∈ s.hist, q.type ≠ .query
  sent : s.sentList <+ s.hist
  suffix : s.istail = false → s.sentList <:+ s.hist

lemma LogWf.mem_hist (h : LogWf s) {q : Request} (hq : q ∈ s.sentList) : q ∈ s.hist :=
  h.sent.subset hq

lemma LogWf.base_add (h : LogWf s) : s.base + s.sentList.length = s.hist.length :=
  Nat.sub_add_cancel h.sent.length_le

/-- The requests of the history are numbered from 1. -/
lemma LogWf.seq_eq (h : LogWf s) {i : ℕ} {q : Request} (hq : s.hist[i]? = some q) :
    q.bankUpdateSeq = i + 1 := by
  have hi := (List.getElem?_eq_some_iff.mp hq).1
  have hmap := congrArg (·[i]?) h.seqs
  simp only [List.getElem?_map, hq, Option.map_some, List.getElem?_range' hi, Option.some.injEq] at hmap
  omega

lemma LogWf.bodies_seq (h : LogWf s) {i : ℕ} {q : Request} (hq : s.bodies[i]? = some q) :
    q.bankUpdateSeq = i + 1 ∧ q.type ≠ .query := by
  rw [bodies, List.getElem?_map] at hq
  obtain ⟨q', hget, rfl⟩ := Option.map_eq_some_iff.mp hq
  have hseq := h.seq_eq hget
  exact ⟨hseq, h.update q' (List.mem_of_getElem? hget)⟩

/-- A request of the history stands at the place that its number names. -/
lemma LogWf.getElem? (h : LogWf s) {q : Request} (hq : q ∈ s.hist) :
    s.hist[q.bankUpdateSeq - 1]? = some q ∧ 0 < q.bankUpdateSeq ∧
      q.bankUpdateSeq ≤ s.hist.length := by
  obtain ⟨i, hi, rfl⟩ := List.mem_iff_getElem.mp hq
  have hseq : (s.hist[i]).bankUpdateSeq = i + 1 := h.seq_eq (List.getElem?_eq_getElem hi)
  rw [hseq]
  exact ⟨by simp, by omega, by omega⟩

lemma LogWf.nodup (h : LogWf s) : s.hist.Nodup := by
  apply List.Nodup.of_map (·.bankUpdateSeq)
  rw [h.seqs]
  exact List.nodup_range'

/-- A request of the history is known by its body. -/
lemma LogWf.eq_of_body (h : LogWf s) {p q : Request} (hp : p ∈ s.hist) (hq : q ∈ s.hist)
    (hbody : p.body = q.body) : p = q := by
  have hseq := (Request.fields_of_body hbody).2.2.1
  have hget := (h.getElem? hp).1
  rw [hseq, (h.getElem? hq).1] at hget
  exact (Option.some.inj hget).symm

/-- The numbers in `sent_list_` follow each other up to the server's own counter. -/
lemma LogWf.sent_seqs (h : LogWf s) (htail : s.istail = false) :
    s.sentList.map (·.bankUpdateSeq) = List.range' (s.base + 1) s.sentList.length := by
  obtain ⟨l, hl⟩ := h.suffix htail
  have hlen : l.length = s.base := by
    have := congrArg List.length hl
    simp only [List.length_append] at this
    unfold base
    omega
  have hseqs := h.seqs
  rw [← hl, List.map_append, List.length_append, ← List.range'_append_1] at hseqs
  have hsplit := (List.append_inj hseqs (by simp)).2
  rwa [hlen, Nat.add_comm] at hsplit

/-- The numbers that `NEW_SUCC_SERVER` makes a server send again. -/
lemma LogWf.resend_seqs (h : LogWf s) (htail : s.istail = false) (n : ℕ) :
    (s.sentList.filter (·.bankUpdateSeq > n)).map (·.bankUpdateSeq) =
      (List.range' (s.base + 1) s.sentList.length).filter (n < ·) := by
  rw [← h.sent_seqs htail, List.filter_map]
  rfl

/-- Nothing in `sent_list_` is acknowledged. -/
lemma LogWf.base_lt (h : LogWf s) (htail : s.istail = false) {q : Request}
    (hq : q ∈ s.sentList) : s.base < q.bankUpdateSeq := by
  have hmem : q.bankUpdateSeq ∈ s.sentList.map (·.bankUpdateSeq) := List.mem_map_of_mem hq
  rw [h.sent_seqs htail, List.mem_range'_1] at hmem
  exact hmem.1

/-- What lies above the acknowledged part is still in `sent_list_`. -/
lemma LogWf.mem_sent_of_lt (h : LogWf s) (htail : s.istail = false) {q : Request}
    (hq : q ∈ s.hist) (hlt : s.base < q.bankUpdateSeq) : q ∈ s.sentList := by
  obtain ⟨l, hl⟩ := h.suffix htail
  rw [← hl, List.mem_append] at hq
  rcases hq with hq | hq
  · exfalso
    have hmem : q ∈ s.hist := by rw [← hl]; exact List.mem_append_left _ hq
    obtain ⟨i, hi, rfl⟩ := List.mem_iff_getElem.mp hq
    have hseqs := congrArg (·[i]?) h.seqs
    have hi' : i < s.hist.length := by rw [← hl, List.length_append]; omega
    have hget : s.hist[i]? = some l[i] := by
      rw [← hl, List.getElem?_append_left hi, List.getElem?_eq_getElem hi]
    simp only [List.getElem?_map, hget, Option.map_some, List.getElem?_range' hi',
      Option.some.injEq] at hseqs
    have hlen := congrArg List.length hl
    simp only [List.length_append] at hlen
    unfold base at hlt
    omega
  · exact hq

lemma length_dropWhile_range' (a k n : ℕ) :
    ((List.range' k n).dropWhile (· ≤ a)).length = n - (a + 1 - k) := by
  induction n generalizing k with
  | zero => simp
  | succ n ih =>
    rw [List.range'_succ, List.dropWhile_cons]
    split_ifs with hk
    · rw [ih (k + 1)]
      simp only [decide_eq_true_eq] at hk
      omega
    · simp only [decide_eq_true_eq] at hk
      simp only [List.length_cons, List.length_range']
      omega

/-- Acknowledging the numbers up to `a` drops those and no others. -/
lemma LogWf.base_dropWhile (h : LogWf s) (htail : s.istail = false) (a : ℕ) :
    s.hist.length - (s.sentList.dropWhile (·.bankUpdateSeq ≤ a)).length =
      max s.base (min a s.hist.length) := by
  have hlen := length_dropWhile_range' a (s.base + 1) s.sentList.length
  rw [← h.sent_seqs htail, List.dropWhile_map, List.length_map] at hlen
  have hbase := h.base_add
  change (s.sentList.dropWhile (·.bankUpdateSeq ≤ a)).length = _ at hlen
  omega

lemma LogStep.ack_base {a : Acknowledge} (hstep : LogStep s (.acknowledge a) e) (h : LogWf s)
    (htail : s.istail = false) :
    e.server.base = max s.base (min a.bankUpdateSeq s.hist.length) := by
  cases hstep with
  | keep hist seq sent out ignored other => exact absurd rfl (other.2.1 a)
  | ack hist seq sent =>
    unfold base
    rw [hist, sent, h.base_dropWhile htail]
    rfl

/-- Appending the next update to a numbered history. -/
lemma LogWf.seqs_append (h : LogWf s) (req : Request) :
    (s.hist ++ [s.answered req]).map (·.bankUpdateSeq) =
      List.range' 1 (s.hist ++ [s.answered req]).length := by
  rw [List.map_append, h.seqs, List.length_append, List.length_singleton, List.range'_concat]
  simp [h.counter, Nat.add_comm]

lemma mem_append_answered {q req : Request} {P : Request → Prop} (hold : ∀ q ∈ s.hist, P q)
    (hnew : P (s.answered req)) (hq : q ∈ s.hist ++ [s.answered req]) : P q := by
  rcases List.mem_append.mp hq with hq | hq
  · exact hold q hq
  · rw [List.mem_singleton.mp hq]
    exact hnew

/-- No handler takes an update back. -/
lemma LogStep.prefix_hist (h : LogStep s msg e) : s.hist <+: e.server.hist := by
  cases h with
  | relay type tail next hist => rw [hist]; exact List.prefix_append _ _
  | answer type tail next hist => rw [hist]; exact List.prefix_append _ _
  | keep hist => exact hist ▸ List.prefix_rfl
  | ack hist => exact hist ▸ List.prefix_rfl
  | toBeTail hist => exact hist ▸ List.prefix_rfl
  | reply hist => exact hist ▸ List.prefix_rfl
  | resend hist => exact hist ▸ List.prefix_rfl

/-- Every handler keeps the log well formed. Replies only reach tails. -/
theorem LogWf.step (h : LogWf s) (hstep : LogStep s msg e)
    (htail : e.server.istail = true ↔ s.istail = true ∨ msg = .toBeTail)
    (hreply : ∀ rep, msg = .reply rep → s.istail = true) : LogWf e.server := by
  have hnot (hfalse : e.server.istail = false) : s.istail = false ∧ msg ≠ .toBeTail := by
    constructor
    · by_contra hs
      rw [htail.mpr (Or.inl (by simpa using hs))] at hfalse
      simp at hfalse
    · intro hmsg
      rw [htail.mpr (Or.inr hmsg)] at hfalse
      simp at hfalse
  cases hstep with
  | keep hist seq sent out ignored other =>
    refine ⟨by rw [hist, h.seqs], by rw [seq, hist, h.counter], by rw [hist]; exact h.update,
      by rw [sent, hist]; exact h.sent, ?_⟩
    intro hf
    rw [sent, hist]
    exact h.suffix (hnot hf).1
  | relay type tail next hist seq sent out =>
    refine ⟨by rw [hist]; exact h.seqs_append _, by rw [seq, hist, h.counter]; simp, ?_, ?_, ?_⟩
    · intro q hq
      rw [hist] at hq
      exact mem_append_answered h.update (by simpa using type) hq
    · rw [sent, hist]
      exact h.sent.append (List.Sublist.refl _)
    · intro _
      rw [sent, hist]
      obtain ⟨l, hl⟩ := h.suffix tail
      exact ⟨l, by rw [← hl, List.append_assoc]⟩
  | answer type tail next hist seq sent out =>
    refine ⟨by rw [hist]; exact h.seqs_append _, by rw [seq, hist, h.counter]; simp, ?_, ?_, ?_⟩
    · intro q hq
      rw [hist] at hq
      exact mem_append_answered h.update (by simpa using type) hq
    · rw [sent, hist]
      unfold Request.toForward
      split_ifs
      · exact h.sent.append (List.Sublist.refl _)
      · rw [List.append_nil]
        exact h.sent.trans (List.sublist_append_left _ _)
    · intro hf
      rw [(hnot hf).1] at tail
      simp at tail
  | ack hist seq sent out =>
    refine ⟨by rw [hist, h.seqs], by rw [seq, hist, h.counter], by rw [hist]; exact h.update, ?_, ?_⟩
    · rw [sent, hist]
      exact (List.dropWhile_sublist _).trans h.sent
    · intro hf
      rw [sent, hist]
      exact (List.dropWhile_suffix _).trans (h.suffix (hnot hf).1)
  | toBeTail hist seq sent out =>
    refine ⟨by rw [hist, h.seqs], by rw [seq, hist, h.counter], by rw [hist]; exact h.update, ?_, ?_⟩
    · rw [sent, hist]
      exact List.filter_sublist.trans h.sent
    · intro hf
      exact absurd rfl (hnot hf).2
  | reply hist seq sent out =>
    refine ⟨by rw [hist, h.seqs], by rw [seq, hist, h.counter], by rw [hist]; exact h.update, ?_, ?_⟩
    · rw [sent, hist]
      exact List.filter_sublist.trans h.sent
    · intro hf
      have := hreply _ rfl
      rw [(hnot hf).1] at this
      simp at this
  | resend hist seq sent succ out =>
    refine ⟨by rw [hist, h.seqs], by rw [seq, hist, h.counter], by rw [hist]; exact h.update,
      by rw [sent, hist]; exact h.sent, ?_⟩
    intro hf
    rw [sent, hist]
    exact h.suffix (hnot hf).1

end ChainServer

end ChainReplication
