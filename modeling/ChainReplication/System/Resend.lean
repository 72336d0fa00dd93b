import ChainReplication.System.Replication

/-!
# Re-sending while requests arrive

The TCP thread of a head runs `receive_new_succserver` without the lock that the UDP thread takes in
`receive_request`. Here the former is taken apart into its steps, and requests come between them.
-/

namespace ChainReplication

open SeqStream

/-- How far the thread has come in `receive_new_succserver`. -/
inductive ResendThread where
  /-- Before the assignment of `succ_server_addr_`. -/
  | start
  /-- After it, before the loop. -/
  | assigned
  /-- In the loop, with the elements of `sent_list_` still to be looked at. -/
  | loop (rest : List Request)
deriving DecidableEq

/-- A head while it handles `NEW_SUCC_SERVER`, and the packets that both threads have sent since then. -/
structure Resending where
  server : ChainServer
  thread : ResendThread := .start
  out : List Packet := []

/-- A step of one of the threads. -/
inductive ResendLabel where
  | tcp
  | udp (req : Request)
deriving DecidableEq

namespace Resending

/-- The TCP thread takes its next step, or the UDP thread runs `receive_request`. -/
def step (r : Reqseq) (c : Resending) : ResendLabel → Option Resending
  | .tcp =>
    match c.thread with
    | .start =>
      some { c with server := { c.server with succServerAddr := r.succAddr }, thread := .assigned }
    | .assigned => some { c with thread := .loop c.server.sentList }
    | .loop [] => none
    | .loop (q :: rest) => some { c with
        thread := .loop rest
        out := c.out ++ if q.bankUpdateSeq > r.bankUpdateSeq then [c.server.forwardRequest q] else [] }
  | .udp req =>
    let e := c.server.receiveRequest req
    if e.ok then some { c with server := e.server, out := c.out ++ e.out } else none

/-- The numbers of the requests sent to the new successor. -/
def stream (r : Reqseq) (c : Resending) : List ℕ := seqs (sentTo c.out r.succAddr)

/-- A request that will go to the new successor finds everything above the reported number sent there. -/
def CaughtUp (r : Reqseq) (c : Resending) : ResendLabel → Prop
  | .tcp => True
  | .udp _ => c.server.succServerAddr = r.succAddr →
      ∀ q ∈ c.server.sentList, r.bankUpdateSeq < q.bankUpdateSeq → q.bankUpdateSeq ∈ c.stream r

instance (r : Reqseq) (c : Resending) (l : ResendLabel) : Decidable (CaughtUp r c l) :=
  match l with
  | .tcp => instDecidableTrue
  | .udp _ => inferInstanceAs (Decidable (_ → ∀ q ∈ c.server.sentList, _ → _))

end Resending

/-- A head before a tail whose `sent_list_` ends with its last update and goes back to number `n + 1` or
further. -/
structure ChainServer.Repairs (s : ChainServer) (n : ℕ) : Prop where
  head : s.ishead = true
  tail : s.istail = false
  sent : ∃ b ≤ n, s.sentList.map (·.bankUpdateSeq) = List.range' (b + 1) s.sentList.length ∧
    s.bankUpdateSeq = b + s.sentList.length

namespace Resending

variable {r : Reqseq} {c c' : Resending} {l : ResendLabel} {s : ChainServer} {req : Request}

/-! ### The thread on its own -/

lemma reach_loop (l : List Request) (c : Resending) (hc : c.thread = .loop l) :
    Machine.Reach (step r) (fun _ l => l = .tcp) c { c with
      thread := .loop []
      out := c.out ++ (l.filter (·.bankUpdateSeq > r.bankUpdateSeq)).map c.server.forwardRequest } := by
  induction l generalizing c with
  | nil =>
    obtain ⟨s, t, out⟩ := c
    obtain rfl : t = .loop [] := hc
    simpa using Machine.Reach.refl
  | cons q l ih =>
    obtain ⟨s, t, out⟩ := c
    obtain rfl : t = .loop (q :: l) := hc
    have hout : (out ++ if q.bankUpdateSeq > r.bankUpdateSeq then [s.forwardRequest q] else []) ++
        (l.filter (·.bankUpdateSeq > r.bankUpdateSeq)).map s.forwardRequest =
        out ++ ((q :: l).filter (·.bankUpdateSeq > r.bankUpdateSeq)).map s.forwardRequest := by
      by_cases hq : q.bankUpdateSeq > r.bankUpdateSeq <;> simp [hq]
    have hrest := ih { server := s, thread := .loop l, out := out ++
      if q.bankUpdateSeq > r.bankUpdateSeq then [s.forwardRequest q] else [] } rfl
    simp only [hout] at hrest
    exact Relation.ReflTransGen.head ⟨.tcp, rfl, rfl⟩ hrest

/-- Without requests in between, the steps of the thread are those of the handler. -/
theorem reach_alone (r : Reqseq) (s : ChainServer) :
    Machine.Reach (step r) (fun _ l => l = .tcp) { server := s }
      { server := (s.receiveNewSuccserver r).server, thread := .loop []
        out := (s.receiveNewSuccserver r).out } := by
  have hassign : Machine.Step (step r) (fun _ l => l = .tcp) { server := s }
      { server := { s with succServerAddr := r.succAddr }, thread := .assigned } := ⟨.tcp, rfl, rfl⟩
  have henter : Machine.Step (step r) (fun _ l => l = .tcp)
      { server := { s with succServerAddr := r.succAddr }, thread := .assigned }
      { server := { s with succServerAddr := r.succAddr }, thread := .loop s.sentList } := ⟨.tcp, rfl, rfl⟩
  exact .head hassign (.head henter (reach_loop s.sentList _ rfl))

/-! ### The stream -/

lemma stream_append (out : List Packet) : seqs (sentTo (c.out ++ out) r.succAddr) =
    c.stream r ++ seqs (sentTo out r.succAddr) := by
  simp [stream, sentTo]

lemma seqs_sentTo_request (a y : Address) (q : Request) : seqs (sentTo [.tcp a (.request q)] y) =
    if y = a then [q.bankUpdateSeq] else [] :=
  seqs_sentTo_updates a y [q]

/-- A request at a head is numbered, kept and forwarded. -/
lemma step_udp (h : c.server.ishead = true) (htail : c.server.istail = false)
    (hs : c.step r (.udp req) = some c') : c' = { c with
      server := (c.server.accept.relayUpdate (c.server.number req)).server
      out := c.out ++ [.tcp c.server.succServerAddr (.request (c.server.answered req))] } := by
  have hcase := ChainServer.receiveRequest_cases c.server req
  simp only [step] at hs
  generalize c.server.receiveRequest req = e at hcase hs
  cases hcase with
  | query type tail => simp [htail] at tail
  | refused why => cases hs
  | duplicate head seen => simp [h] at head
  | relayed type tail next =>
    have hok : (c.server.accept.relayUpdate (c.server.number req)).ok = true := rfl
    rw [if_pos hok, Option.some.injEq, ChainServer.relayUpdate_out] at hs
    exact hs.symm
  | single type tail => simp [htail] at tail
  | tail type tail => simp [htail] at tail

end Resending

namespace ChainServer

variable {s : ChainServer} {req : Request} {n : ℕ}

lemma Repairs.relay (h : s.Repairs n) : (s.accept.relayUpdate (s.number req)).server.Repairs n := by
  obtain ⟨b, hb, hsent, hcounter⟩ := h.sent
  rw [relayUpdate_server]
  refine ⟨h.head, h.tail, b, hb, ?_, ?_⟩
  · simp only [List.map_append, hsent, List.length_append, List.length_singleton, List.map_cons,
      List.map_nil, answered_bankUpdateSeq, List.range'_concat, hcounter]
    congr 2
    omega
  · simp only [accept, List.length_append, List.length_singleton]
    omega

/-- The numbers in `sent_list_` do not go beyond the counter. -/
lemma Repairs.le_counter (h : s.Repairs n) {q : Request} (hq : q ∈ s.sentList) :
    q.bankUpdateSeq ≤ s.bankUpdateSeq := by
  obtain ⟨b, hb, hsent, hcounter⟩ := h.sent
  have hmem : q.bankUpdateSeq ∈ s.sentList.map (·.bankUpdateSeq) := List.mem_map_of_mem hq
  rw [hsent, List.mem_range'_1] at hmem
  omega

/-- What has been applied above `n` ends the list. -/
lemma Repairs.exists_last (h : s.Repairs n) (hlt : n < s.bankUpdateSeq) :
    ∃ q ∈ s.sentList, q.bankUpdateSeq = s.bankUpdateSeq := by
  obtain ⟨b, hb, hsent, hcounter⟩ := h.sent
  have hmem : s.bankUpdateSeq ∈ s.sentList.map (·.bankUpdateSeq) := by
    rw [hsent, List.mem_range'_1]
    omega
  exact List.mem_map.mp hmem

end ChainServer

namespace Resending

variable {r : Reqseq} {c c' : Resending} {l : ResendLabel} {s : ChainServer} {req : Request}

/-- What the interleavings keep as long as every request meets a thread that has caught up. -/
structure Streaming (r : Reqseq) (c : Resending) : Prop where
  repairs : c.server.Repairs r.bankUpdateSeq
  gapFree : GapFree r.bankUpdateSeq (c.stream r)
  bounded : ∀ k ∈ c.stream r, k ≤ c.server.bankUpdateSeq
  linked : c.thread ≠ .start → c.server.succServerAddr = r.succAddr
  rest : ∀ l, c.thread = .loop l → (∀ q ∈ l, q.bankUpdateSeq ≤ c.server.bankUpdateSeq) ∧
    ∃ k ≤ reach r.bankUpdateSeq (c.stream r) + 1, l.map (·.bankUpdateSeq) = List.range' k l.length

lemma Streaming.start (h : s.Repairs r.bankUpdateSeq) : Streaming r { server := s } where
  repairs := h
  gapFree := gapFree_nil _
  bounded k hk := by cases hk
  linked h := absurd rfl h
  rest l hl := by cases hl

/-- The steps of the thread leave no gap, wherever the requests have come. -/
lemma Streaming.tcp (h : Streaming r c) (hs : c.step r .tcp = some c') : Streaming r c' := by
  obtain ⟨s, t, out⟩ := c
  cases t with
  | start =>
    obtain rfl := Option.some.inj hs
    refine ⟨⟨h.repairs.head, h.repairs.tail, h.repairs.sent⟩, h.gapFree, h.bounded, fun _ => rfl, ?_⟩
    rintro l ⟨⟩
  | assigned =>
    obtain rfl := Option.some.inj hs
    refine ⟨h.repairs, h.gapFree, h.bounded, fun _ => h.linked (by simp), ?_⟩
    rintro l ⟨⟩
    obtain ⟨b, hb, hsent, -⟩ := h.repairs.sent
    refine ⟨fun q hq => h.repairs.le_counter hq, b + 1, ?_, hsent⟩
    exact Nat.succ_le_succ (hb.trans le_reach)
  | loop l =>
    cases l with
    | nil => cases hs
    | cons q l =>
      obtain rfl := Option.some.inj hs
      obtain ⟨hle, k, hk, hrange⟩ := h.rest _ rfl
      have hlinked : s.succServerAddr = r.succAddr := h.linked (by simp)
      rw [List.map_cons, List.length_cons, List.range'_succ, List.cons.injEq] at hrange
      obtain ⟨hq, hrange⟩ := hrange
      -- the element is the next one that the new successor expects, or one that it has got
      have hstream : stream r { server := s, thread := .loop l, out := out ++
          if q.bankUpdateSeq > r.bankUpdateSeq then [s.forwardRequest q] else [] } =
          stream r { server := s, thread := .loop (q :: l), out := out } ++
            if q.bankUpdateSeq > r.bankUpdateSeq then [q.bankUpdateSeq] else [] := by
        refine (@stream_append r { server := s, thread := .loop (q :: l), out := out } _).trans ?_
        congr 1
        split_ifs
        · exact (seqs_sentTo_request _ _ _).trans (if_pos hlinked.symm)
        · rfl
      refine ⟨h.repairs, ?_, ?_, fun _ => hlinked, ?_⟩
      · rw [hstream, gapFree_append]
        refine ⟨h.gapFree, ?_⟩
        split_ifs
        · exact ⟨by omega, gapFree_nil _⟩
        · exact gapFree_nil _
      · rw [hstream]
        intro j hj
        rcases List.mem_append.mp hj with hj | hj
        · exact h.bounded j hj
        · split_ifs at hj
          · exact List.mem_singleton.mp hj ▸ hle q List.mem_cons_self
          · cases hj
      · rintro _ ⟨⟩
        refine ⟨fun p hp => hle p (List.mem_cons_of_mem _ hp), k + 1, ?_, hrange⟩
        rw [hstream, reach_append]
        split_ifs with hgt
        · rw [reach_cons, reach_nil]
          omega
        · rw [reach_nil]
          have hreach := @le_reach r.bankUpdateSeq
            (stream r { server := s, thread := .loop (q :: l), out := out })
          omega

/-- The new successor has been sent everything that the head keeps for it if and only if it gets as far as
the head's counter. -/
lemma Streaming.caughtUp_iff (h : Streaming r c) :
    (∀ q ∈ c.server.sentList, r.bankUpdateSeq < q.bankUpdateSeq → q.bankUpdateSeq ∈ c.stream r) ↔
      c.server.bankUpdateSeq ≤ reach r.bankUpdateSeq (c.stream r) := by
  constructor
  · intro hall
    by_cases hlt : r.bankUpdateSeq < c.server.bankUpdateSeq
    · obtain ⟨q, hq, hlast⟩ := h.repairs.exists_last hlt
      have hmem := hall q hq (hlast ▸ hlt)
      rw [hlast] at hmem
      exact le_reach_of_mem hmem
    · exact (not_lt.mp hlt).trans le_reach
  · intro hle q hq hlt
    exact h.gapFree.mem_of_le_reach hlt ((h.repairs.le_counter hq).trans hle)

/-- A request leaves no gap exactly when the thread has caught up. -/
lemma Streaming.udp_iff (h : Streaming r c) (hs : c.step r (.udp req) = some c') :
    GapFree r.bankUpdateSeq (c'.stream r) ↔ CaughtUp r c (.udp req) := by
  rw [step_udp h.repairs.head h.repairs.tail hs, CaughtUp, h.caughtUp_iff, stream, stream_append,
    gapFree_append, and_iff_right h.gapFree, seqs_sentTo_request]
  by_cases hsucc : c.server.succServerAddr = r.succAddr
  · rw [if_pos hsucc.symm]
    simp [hsucc]
  · rw [if_neg (Ne.symm hsucc)]
    simp [hsucc]

lemma Streaming.udp (h : Streaming r c) (hguard : CaughtUp r c (.udp req))
    (hs : c.step r (.udp req) = some c') : Streaming r c' := by
  have hgap := (h.udp_iff hs).mpr hguard
  have hstep := step_udp h.repairs.head h.repairs.tail hs
  have hserver : c'.server = (c.server.accept.relayUpdate (c.server.number req)).server := by rw [hstep]
  have hcounter : c'.server.bankUpdateSeq = c.server.bankUpdateSeq + 1 := by
    rw [hserver, ChainServer.relayUpdate_server]
    rfl
  have hthread : c'.thread = c.thread := by rw [hstep]
  have hstream : c'.stream r = c.stream r ++ if r.succAddr = c.server.succServerAddr then
      [c.server.bankUpdateSeq + 1] else [] := by
    rw [hstep, stream, stream_append, seqs_sentTo_request, ChainServer.answered_bankUpdateSeq]
  refine ⟨?_, hgap, ?_, ?_, ?_⟩
  · rw [hserver]
    exact h.repairs.relay
  · intro k hk
    rw [hstream] at hk
    rw [hcounter]
    rcases List.mem_append.mp hk with hk | hk
    · exact (h.bounded k hk).trans (Nat.le_succ _)
    · split_ifs at hk
      · exact (List.mem_singleton.mp hk).le
      · cases hk
  · intro hne
    rw [hserver, ChainServer.relayUpdate_server]
    exact h.linked (hthread ▸ hne)
  · intro l hl
    obtain ⟨hle, k, hk, hrange⟩ := h.rest l (hthread ▸ hl)
    refine ⟨fun q hq => (hle q hq).trans (by omega), k, hk.trans ?_, hrange⟩
    rw [hstream, reach_append]
    exact Nat.succ_le_succ le_reach

/-- However requests come between the steps of the thread, the new successor receives no number that skips
one, as long as every request finds the thread caught up; and a request that does not makes the gap. -/
theorem resend_gapFree_iff (h : s.Repairs r.bankUpdateSeq)
    (hrun : Machine.Reach (step r) (CaughtUp r) { server := s } c) :
    GapFree r.bankUpdateSeq (c.stream r) ∧ ∀ l c', c.step r l = some c' →
      (GapFree r.bankUpdateSeq (c'.stream r) ↔ CaughtUp r c l) := by
  have hinv : Streaming r c := by
    apply hrun.invariant (Streaming.start h)
    intro c l c' hc hl hs
    cases l with
    | tcp => exact hc.tcp hs
    | udp req => exact hc.udp hl hs
  refine ⟨hinv.gapFree, fun l c' hs => ?_⟩
  cases l with
  | tcp => exact iff_of_true (hinv.tcp hs).gapFree trivial
  | udp req => exact hinv.udp_iff hs

/-! ### In a chain -/

/-- In a chain without joins a live head can repair the link to any live server of its chain. -/
theorem repairs_of_reach {cfg : Config} {ok : System → Label → Prop} {σ : System} {b : BankConfig}
    {x z : Address} (hok : ∀ σ l, ok σ l → System.NoJoin σ l)
    (hrun : Machine.Reach System.step ok cfg.init σ) (hb : b ∈ cfg.banks) (hx : x ∈ b.servers)
    (hz : z ∈ b.servers) (hxlive : σ.crashed x = false) (hzlive : σ.crashed z = false)
    (hhead : (σ.server x).ishead = true) (htail : (σ.server x).istail = false) :
    (σ.server x).Repairs (σ.server z).bankUpdateSeq := by
  have htop := Topology.reach hok hrun
  have hlog := htop.log x
  have hwindow := (Replicated.reach hok hrun).window b hb x hx z hz hxlive htail hzlive
  refine ⟨hhead, htail, (σ.server x).base, ?_, hlog.sent_seqs htail, ?_⟩
  · rw [(htop.log z).counter]
    exact hwindow
  · rw [hlog.counter, hlog.base_add]

open Config

/-- Server 1 has forwarded two deposits to server 2, which has crashed. `NEW_SUCC_SERVER` is on its way
to server 1. -/
def sampleChain : System :=
  twoBanks.after System.NoJoin ([request 1 (sampleDeposit "1" 10), request 1 (sampleDeposit "2" 10)] ++ lose 2 ++
    [hop 0 3, hop 3 0])

/-- Server 3 has no update yet. -/
def sampleReqseq : Reqseq :=
  { bankUpdateSeq := 0, bankId := "BOA", preAddr := localAddress 1, succAddr := localAddress 3 }

lemma sampleChain_reach : Machine.Reach System.step System.NoJoin twoBanks.init sampleChain :=
  reach_after (by decide +kernel)

/-- The thread has sent both deposits again, and a third request arrives. -/
theorem resend_gapFree_iff_sample :
    GapFree 0 ((Machine.after (step sampleReqseq) (CaughtUp sampleReqseq)
      { server := sampleChain.server (localAddress 1) } [.tcp, .tcp, .tcp, .tcp]).stream sampleReqseq) ∧
    ∀ l c', (Machine.after (step sampleReqseq) (CaughtUp sampleReqseq)
      { server := sampleChain.server (localAddress 1) } [.tcp, .tcp, .tcp, .tcp]).step sampleReqseq l =
        some c' → (GapFree 0 (c'.stream sampleReqseq) ↔
      CaughtUp sampleReqseq (Machine.after (step sampleReqseq) (CaughtUp sampleReqseq)
        { server := sampleChain.server (localAddress 1) } [.tcp, .tcp, .tcp, .tcp]) l) := by
  have hrepairs : (sampleChain.server (localAddress 1)).Repairs sampleReqseq.bankUpdateSeq :=
    @repairs_of_reach twoBanks System.NoJoin sampleChain
      { bankId := "BOA", servers := [localAddress 1, localAddress 2, localAddress 3] }
      (localAddress 1) (localAddress 3) (fun _ _ h => h) sampleChain_reach (by decide) (by decide)
      (by decide) (by decide +kernel) (by decide +kernel) (by decide +kernel) (by decide +kernel)
  exact resend_gapFree_iff hrepairs (Machine.reach_after (by decide +kernel))

/-- A third deposit arrives between the assignment and the loop: server 3 receives number 3 first. -/
theorem resend_overtaken : ¬ ∀ (σ : System) (r : Reqseq) (c : Resending),
    Machine.Reach System.step System.NoJoin twoBanks.init σ →
    .newSuccServer r ∈ σ.link (localAddress 0) (localAddress 1) →
    r.bankUpdateSeq = (σ.server r.succAddr).bankUpdateSeq →
    Machine.Reach (step r) (fun _ _ => True) { server := σ.server (localAddress 1) } c →
      GapFree r.bankUpdateSeq (c.stream r) := by
  intro h
  have hgap := h sampleChain sampleReqseq (Machine.after (step sampleReqseq) (fun _ _ => True)
    { server := sampleChain.server (localAddress 1) } [.tcp, .udp (sampleDeposit "3" 10)])
    sampleChain_reach (by decide +kernel) (by decide +kernel) (Machine.reach_after (by decide +kernel))
  have hstream : (Machine.after (step sampleReqseq) (fun _ _ => True)
      { server := sampleChain.server (localAddress 1) }
      [.tcp, .udp (sampleDeposit "3" 10)]).stream sampleReqseq = [3] := by decide +kernel
  rw [hstream] at hgap
  exact absurd hgap.1 (by decide)

end Resending

end ChainReplication
