import ChainReplication.Wraparound.Chain
import ChainReplication.Server.Log

/-!
# A chain whose counter does not wrap

While the head's counter fits, numbers are places in the history: what a server has applied and its
successor has not is in flight between them, and what an acknowledgement covers has been applied.
-/

namespace ChainReplication

namespace Chain

open BankServerChain ChainServer

variable {cfg : Config} {b : BankConfig} {γ γ' : Chain} {l : ChainLabel} {master x y u v : Address}
  {msg : Message} {q : Request}

/-- A `TRANSFER_TO` from within the chain comes from its tail. -/
def Returns (b : BankConfig) (q : Request) : Prop :=
  q.type = .transferTo → q.clientAddr ∈ b.servers → b.servers.getLast? = some q.clientAddr

/-- What is in flight from `x` to `y`: updates for the successor, acknowledgements of what the sender has
applied, and the tail's `TRANSFER_TO`s and replies for its own bank. -/
def Mail (b : BankConfig) (γ : Chain) (x y : Address) : Message → Prop
  | .request q => Returns b q ∧ (nextOf x b.servers = some y ∨ q.bankUpdateSeq = 0)
  | .acknowledge a => nextOf y b.servers = some x ∧ a.bankUpdateSeq ≤ (γ.server x).hist.length
  | .reply _ => b.servers.getLast? = some y
  | _ => False

/-- The server `x` in its place of the chain. -/
structure Seat (b : BankConfig) (x : Address) (s : ChainServer) : Prop where
  head : s.ishead = true ↔ b.servers.head? = some x
  tail : s.istail = true ↔ b.servers.getLast? = some x
  addr : s.localAddr = x
  succ : s.succServerAddr = (nextOf x b.servers).getD .empty
  pre : s.preServerAddr = (prevOf x b.servers).getD .empty
  extending : s.extendingChain = false
  log : s.LogWf
  returns : ∀ q ∈ s.hist, Returns b q

/-- The invariant of a chain whose counter does not wrap. -/
structure Counting (b : BankConfig) (γ : Chain) : Prop where
  seat : ∀ x ∈ b.servers, Seat b x (γ.server x)
  mail : ∀ x ∈ b.servers, ∀ y ∈ b.servers, ∀ m ∈ γ.link x y, Mail b γ x y m
  applied : ∀ x y, nextOf x b.servers = some y →
    (γ.server x).bodies = (γ.server y).bodies ++ γ.inFlight x y
  base : ∀ x y, nextOf x b.servers = some y → (γ.server x).base ≤ (γ.server y).hist.length
  acked : ∀ x y, nextOf x b.servers = some y → ∀ n ∈ γ.acked x, n ≤ (γ.server x).base

/-- A server of the chain takes up a message. -/
structure Takes (b : BankConfig) (γ γ₁ : Chain) (x : Address) (msg : Message) : Prop where
  mem : x ∈ b.servers
  server : γ₁.server = γ.server
  acked : γ₁.acked = γ.acked
  kind : (∃ q, msg = .request q) ∨ (∃ a, msg = .acknowledge a) ∨ (∃ r, msg = .reply r) ∨
    ∃ n, msg = .newHead n
  returns : ∀ q, msg = .request q → Returns b q
  ack : ∀ a, msg = .acknowledge a → ∃ y, nextOf x b.servers = some y ∧
    a.bankUpdateSeq ≤ (γ.server y).hist.length
  reply : ∀ r, msg = .reply r → b.servers.getLast? = some x
  /-- The message is the oldest one from the predecessor, or leaves the updates from there alone. -/
  source : (∃ p, nextOf p b.servers = some x ∧ γ.link p x = msg :: γ₁.link p x) ∨
    (∀ q, msg = .request q → q.bankUpdateSeq = 0) ∧
      ∀ p, nextOf p b.servers = some x → γ₁.link p x = γ.link p x
  others : ∀ p y, nextOf p b.servers = some y → y ≠ x → γ₁.link p y = γ.link p y
  link : ∀ u v m, m ∈ γ₁.link u v → m ∈ γ.link u v

namespace Counting

/-- What the steps of the chain take up. -/
lemma takes (h : Counting b γ) (htaken : γ.taken b l = some (x, msg)) :
    Takes b γ (γ.receive l) x msg := by
  cases l with
  | outside y m =>
    simp only [taken] at htaken
    split_ifs at htaken with hcond
    obtain ⟨rfl, rfl⟩ := Prod.mk.inj (Option.some.inj htaken)
    obtain ⟨hx, hfrom⟩ := hcond
    have hsource : (∀ q, m = .request q → q.bankUpdateSeq = 0) ∧
        ∀ p, nextOf p b.servers = some y → γ.link p y = γ.link p y := by
      refine ⟨?_, fun _ _ => rfl⟩
      rintro q rfl
      exact hfrom.1
    cases m with
    | request q =>
      refine ⟨hx, rfl, rfl, Or.inl ⟨q, rfl⟩, ?_, by simp, by simp, Or.inr hsource, fun _ _ _ _ => rfl,
        fun _ _ _ hm => hm⟩
      rintro _ ⟨⟩ htype hmem
      exact absurd hmem (hfrom.2 htype)
    | reply r =>
      refine ⟨hx, rfl, rfl, Or.inr (Or.inr (Or.inl ⟨r, rfl⟩)), by simp, by simp, ?_, Or.inr hsource,
        fun _ _ _ _ => rfl, fun _ _ _ hm => hm⟩
      exact fun _ _ => hfrom
    | newHead n =>
      exact ⟨hx, rfl, rfl, Or.inr (Or.inr (Or.inr ⟨n, rfl⟩)), by simp, by simp, by simp, Or.inr hsource,
        fun _ _ _ _ => rfl, fun _ _ _ hm => hm⟩
    | _ => cases hfrom
  | deliver u w =>
    simp only [taken] at htaken
    split_ifs at htaken with hcond
    obtain ⟨hu, hw⟩ := hcond
    obtain ⟨m, hhead, hpair⟩ := Option.map_eq_some_iff.mp htaken
    obtain ⟨rfl, rfl⟩ := Prod.mk.inj hpair
    obtain ⟨rest, hlink⟩ := List.head?_eq_some_iff.mp hhead
    have hmem : m ∈ γ.link u w := by
      rw [hlink]
      exact List.mem_cons_self
    have hmail := h.mail u hu w hw m hmem
    have hself : γ.link u w = m :: (γ.receive (.deliver u w)).link u w := by
      show γ.link u w = m :: γ.link.recv u w u w
      rw [Links.recv_self, hlink, List.tail_cons]
    have hrecv {p y : Address} (hne : ¬ (p = u ∧ y = w)) :
        (γ.receive (.deliver u w)).link p y = γ.link p y := γ.link.recv_of_ne u w hne
    have hothers (p y : Address) (_ : nextOf p b.servers = some y) (hy : y ≠ w) :
        (γ.receive (.deliver u w)).link p y = γ.link p y := hrecv fun hpy => hy hpy.2
    have hlink' (p y : Address) (m' : Message) (hm' : m' ∈ (γ.receive (.deliver u w)).link p y) :
        m' ∈ γ.link p y := γ.link.mem_of_mem_recv u w hm'
    have hsource : (∃ p, nextOf p b.servers = some w ∧
          γ.link p w = m :: (γ.receive (.deliver u w)).link p w) ∨
        (∀ q, m = .request q → q.bankUpdateSeq = 0) ∧
          ∀ p, nextOf p b.servers = some w → (γ.receive (.deliver u w)).link p w = γ.link p w := by
      by_cases hnext : nextOf u b.servers = some w
      · exact Or.inl ⟨u, hnext, hself⟩
      · refine Or.inr ⟨?_, fun p hp => hrecv ?_⟩
        · rintro q rfl
          exact hmail.2.resolve_left hnext
        · rintro ⟨rfl, -⟩
          exact hnext hp
    cases m with
    | request q =>
      refine ⟨hw, rfl, rfl, Or.inl ⟨q, rfl⟩, ?_, by simp, by simp, hsource, hothers, hlink'⟩
      rintro _ ⟨⟩
      exact hmail.1
    | acknowledge a =>
      refine ⟨hw, rfl, rfl, Or.inr (Or.inl ⟨a, rfl⟩), by simp, ?_, by simp, hsource, hothers, hlink'⟩
      rintro _ ⟨⟩
      exact ⟨u, hmail⟩
    | reply r =>
      exact ⟨hw, rfl, rfl, Or.inr (Or.inr (Or.inl ⟨r, rfl⟩)), by simp, by simp, fun _ _ => hmail, hsource,
        hothers, hlink'⟩
    | _ => cases hmail

/-! ### One step -/

section Step

variable {γ₁ : Chain} {e : Effect}

variable (h : Counting b γ) (hnodup : b.servers.Nodup) (hempty : .empty ∉ b.servers)
  (ht : Takes b γ γ₁ x msg) (he : (γ.server x).handleMsg master msg = e) (hok : e.ok = true)

include ht

omit h hnodup hempty he hok in
lemma isExtend : msg.isExtend = false := by
  rcases ht.kind with ⟨q, rfl⟩ | ⟨a, rfl⟩ | ⟨r, rfl⟩ | ⟨n, rfl⟩ <;> rfl

omit ht in
lemma server_self : (γ₁.handle x msg e).server x = e.server := Function.update_self ..

lemma server_of_ne (hy : y ≠ x) : (γ₁.handle x msg e).server y = γ.server y := by
  rw [← ht.server]
  exact Function.update_of_ne hy ..

include h he

lemma roleStep : RoleStep (γ.server x) msg e.server := by
  rw [← he]
  exact handleMsg_roleStep ((h.seat x ht.mem).extending) (isExtend ht)

lemma logStep : LogStep (γ.server x) msg e := by
  rw [← he]
  exact handleMsg_logStep ((h.seat x ht.mem).extending) (isExtend ht)

lemma packets {t : Address} {m : Message} (hm : (t, m) ∈ e.out.filterMap Packet.tcp?) :
    PacketSpec master (γ.server x) msg e.server t m := by
  obtain ⟨p, hp, hpm⟩ := List.mem_filterMap.mp hm
  subst he
  exact handleMsg_packets ((h.seat x ht.mem).extending) (isExtend ht) hp hpm

/-- The role stays. -/
lemma role : (e.server.ishead = true ↔ (γ.server x).ishead = true) ∧
    (e.server.istail = true ↔ (γ.server x).istail = true) := by
  have hrole := roleStep h ht he
  have hnot : msg ≠ .toBeHead ∧ msg ≠ .toBeTail := by
    rcases ht.kind with ⟨q, rfl⟩ | ⟨a, rfl⟩ | ⟨r, rfl⟩ | ⟨n, rfl⟩ <;> simp
  exact ⟨by rw [hrole.head, or_iff_left hnot.1], by rw [hrole.tail, or_iff_left hnot.2]⟩

lemma logWf : e.server.LogWf := by
  refine ((h.seat x ht.mem).log).step (logStep h ht he) (roleStep h ht he).tail ?_
  exact fun r hr => ((h.seat x ht.mem).tail).mpr (ht.reply r hr)

omit h he in
/-- The first update on its way to `x`, if `msg` is one, is the one that `x` expects. -/
lemma next_of_source {p : Address} (h : Counting b γ) (hp : nextOf p b.servers = some x)
    (hlink : γ.link p x = .request q :: γ₁.link p x) :
    q.type ≠ .query ∧ q.bankUpdateSeq = (γ.server x).bankUpdateSeq + 1 ∧
      (γ.server p).bodies = (γ.server x).bodies ++ q.body :: γ₁.inFlight p x := by
  have happlied := h.applied p x hp
  have hflight : γ.inFlight p x = q.body :: γ₁.inFlight p x := by
    simp [inFlight, hlink, Message.request?]
  rw [hflight] at happlied
  have hget : (γ.server p).bodies[(γ.server x).hist.length]? = some q.body := by
    rw [happlied, List.getElem?_append_right (by simp)]
    simp
  obtain ⟨hseq, htype⟩ := (h.seat p (mem_of_nextOf hp).1).log.bodies_seq hget
  refine ⟨htype, ?_, happlied⟩
  rw [(h.seat x ht.mem).log.counter]
  exact hseq

/-- The history stays or grows by the request that the server takes up. -/
lemma hist_cases : e.server.hist = (γ.server x).hist ∨ ∃ q, msg = .request q ∧
    ((γ.server x).ishead = true ∨ q.bankUpdateSeq = (γ.server x).bankUpdateSeq + 1) ∧
    e.server.hist = (γ.server x).hist ++ [(γ.server x).answered q] := by
  cases logStep h ht he with
  | relay type tail next hist => exact Or.inr ⟨_, rfl, next, hist⟩
  | answer type tail next hist => exact Or.inr ⟨_, rfl, next, hist⟩
  | keep hist | ack hist | toBeTail hist | reply hist | resend hist => exact Or.inl hist

lemma returns_step {q : Request} (hq : q ∈ e.server.hist) : Returns b q := by
  rcases hist_cases h ht he with hist | ⟨r, hmsg, -, hist⟩
  · exact (h.seat x ht.mem).returns q (hist ▸ hq)
  · rw [hist] at hq
    refine mem_append_answered ((h.seat x ht.mem).returns) ?_ hq
    intro htype hmem
    rw [answered_type] at htype
    rw [answered_clientAddr] at hmem ⊢
    exact ht.returns r hmsg htype hmem

/-- Away from the tail, a handler that relays nothing sends no request. -/
lemma no_request (htail : (γ.server x).istail = false) (hquiet : Quiet e.out) {t : Address} :
    (t, .request q) ∉ e.out.filterMap Packet.tcp? := by
  intro hmem
  have hlog := logWf h ht he
  have htail' : e.server.istail = false := by
    rw [Bool.eq_false_iff, ne_eq, (role h ht he).2, htail]
    simp
  rcases packets h ht he hmem with ⟨hacting, -⟩ | ⟨-, hsent, -⟩
  · rw [htail'] at hacting
    cases hacting
  · obtain ⟨p, hp, hpm⟩ := List.mem_filterMap.mp hmem
    have hzero := hquiet p hp t q hpm
    have hpos := (hlog.getElem? (hlog.mem_hist hsent)).2.1
    omega

/-- Away from the tail, an update goes to the successor as it enters the history. -/
lemma relay_cases (htail : (γ.server x).istail = false) :
    e.server.hist = (γ.server x).hist ∧ Quiet e.out ∨
    ∃ q, e.server.hist = (γ.server x).hist ++ [(γ.server x).answered q] ∧
      e.out = [.tcp (γ.server x).succServerAddr (.request ((γ.server x).answered q))] := by
  cases logStep h ht he with
  | keep hist seq sent out => exact Or.inl ⟨hist, out⟩
  | relay type tail next hist seq sent out => exact Or.inr ⟨_, hist, out⟩
  | answer type tail =>
    rw [htail] at tail
    cases tail
  | ack hist seq sent out => exact Or.inl ⟨hist, out⟩
  | toBeTail hist seq sent out => exact Or.inl ⟨hist, out⟩
  | reply hist seq sent out => exact Or.inl ⟨hist, out⟩
  | resend =>
    have hkind := ht.kind
    simp at hkind

/-- Away from the tail, only acknowledgements shorten `sent_list_`. -/
lemma base_cases (htail : (γ.server x).istail = false) :
    e.server.base = (γ.server x).base ∧ (∀ a, msg ≠ .acknowledge a) ∨
    ∃ a, msg = .acknowledge a ∧
      e.server.base = max (γ.server x).base (min a.bankUpdateSeq (γ.server x).hist.length) := by
  have hstep := logStep h ht he
  by_cases hack : ∃ a, msg = .acknowledge a
  · obtain ⟨a, rfl⟩ := hack
    exact Or.inr ⟨a, rfl, hstep.ack_base ((h.seat x ht.mem).log) htail⟩
  · refine Or.inl ⟨?_, fun a ha => hack ⟨a, ha⟩⟩
    cases hstep with
    | keep hist seq sent => rw [ChainServer.base, ChainServer.base, hist, sent]
    | relay type tail next hist seq sent =>
      rw [ChainServer.base, ChainServer.base, hist, sent, List.length_append, List.length_append]
      simp
    | answer type tail =>
      rw [htail] at tail
      cases tail
    | ack => exact absurd ⟨_, rfl⟩ hack
    | reply =>
      have hreply := ((h.seat x ht.mem).tail).mpr (ht.reply _ rfl)
      rw [htail] at hreply
      cases hreply
    | toBeTail | resend =>
      have hkind := ht.kind
      simp at hkind

include hok

/-- A server takes up the update that it expects. -/
lemma accepts (hmsg : msg = .request q) (htype : q.type ≠ .query)
    (hseq : q.bankUpdateSeq = (γ.server x).bankUpdateSeq + 1) :
    e.server.bodies = (γ.server x).bodies ++ [q.body] := by
  have hanswered : ((γ.server x).answered q).body = q.body := by
    rw [answered_body, number, ← hseq]
  have hgrown (hist : e.server.hist = (γ.server x).hist ++ [(γ.server x).answered q]) :
      e.server.bodies = (γ.server x).bodies ++ [q.body] := by
    rw [bodies, hist, List.map_append, List.map_singleton, hanswered, ← bodies]
  subst hmsg
  cases logStep h ht he with
  | keep hist seq sent out ignored =>
    rcases ignored q rfl hok with hquery | hle
    · exact absurd hquery htype
    · omega
  | relay type tail next hist => exact hgrown hist
  | answer type tail next hist => exact hgrown hist

omit hok in
lemma prefix_hist (y : Address) : (γ.server y).hist <+: ((γ₁.handle x msg e).server y).hist := by
  by_cases hy : y = x
  · subst hy
    rw [server_self]
    exact (logStep h ht he).prefix_hist
  · rw [server_of_ne ht hy]

omit ht he hok in
include hnodup in
/-- A server that has a successor is not the tail. -/
lemma tail_false {y : Address} (hxy : nextOf x b.servers = some y) : (γ.server x).istail = false := by
  rw [Bool.eq_false_iff, ne_eq, (h.seat x (mem_of_nextOf hxy).1).tail]
  exact getLast?_ne_of_nextOf hnodup hxy

/-- What the predecessor has sent and the server takes up, it applies. -/
lemma applied_self (hnodup : b.servers.Nodup) {p : Address} (hp : nextOf p b.servers = some x) :
    (γ.server p).bodies = e.server.bodies ++ γ₁.inFlight p x := by
  have happlied := h.applied p x hp
  have hstays (hist : e.server.hist = (γ.server x).hist) : e.server.bodies = (γ.server x).bodies := by
    rw [bodies, hist, ← bodies]
  rcases ht.source with ⟨p', hp', hlink⟩ | ⟨hzero, hsame⟩
  · obtain rfl : p' = p := by
      have hprev := prevOf_of_nextOf hnodup hp
      rw [prevOf_of_nextOf hnodup hp'] at hprev
      exact Option.some.inj hprev
    by_cases hreq : ∃ q, msg = .request q
    · obtain ⟨q, rfl⟩ := hreq
      obtain ⟨htype, hseq, hnext⟩ := next_of_source ht h hp hlink
      rw [hnext, accepts h ht he hok rfl htype hseq, List.append_assoc, List.singleton_append]
    · have hnone : msg.request? = none := by
        cases msg with
        | request q => exact absurd ⟨q, rfl⟩ hreq
        | _ => rfl
      have hflight : γ.inFlight p' x = γ₁.inFlight p' x := by
        rw [inFlight, hlink, List.filterMap_cons_none hnone, ← inFlight]
      rcases hist_cases h ht he with hist | ⟨q, hmsg, -⟩
      · rw [happlied, hstays hist, hflight]
      · exact absurd ⟨q, hmsg⟩ hreq
  · rcases hist_cases h ht he with hist | ⟨q, hmsg, hhead | hseq, -⟩
    · rw [happlied, hstays hist, inFlight, inFlight, hsame p hp]
    · have hfirst := ((h.seat x ht.mem).head).mp hhead
      exact absurd hfirst (head?_ne_of_nextOf hnodup hp)
    · rw [hzero q hmsg] at hseq
      omega

/-- Nothing is lost between neighbours. -/
lemma applied_step (hnodup : b.servers.Nodup) {p y : Address} (hpy : nextOf p b.servers = some y) :
    ((γ₁.handle x msg e).server p).bodies =
      ((γ₁.handle x msg e).server y).bodies ++ (γ₁.handle x msg e).inFlight p y := by
  have happlied := h.applied p y hpy
  have hne := ne_of_nextOf hnodup hpy
  by_cases hpx : p = x
  · subst hpx
    have hlink : γ₁.link p y = γ.link p y := ht.others p y hpy hne.symm
    have hsend : (γ₁.handle p msg e).link p y = γ.link p y ++
        (e.out.filterMap Packet.tcp?).filterMap fun r => if r.1 = y then some r.2 else none := by
      rw [← hlink]
      exact Links.send_self ..
    rw [server_self, server_of_ne ht hne.symm, inFlight, hsend, List.filterMap_append, List.map_append,
      ← inFlight, ← List.append_assoc, ← happlied]
    rcases relay_cases h ht he (tail_false h hnodup hpy) with ⟨hist, hquiet⟩ | ⟨q, hist, hout⟩
    · have hnone : ((e.out.filterMap Packet.tcp?).filterMap fun r =>
          if r.1 = y then some r.2 else none).filterMap Message.request? = [] := by
        rw [List.filterMap_eq_nil_iff]
        intro m hm
        obtain ⟨r, hr, hrm⟩ := List.mem_filterMap.mp hm
        cases m with
        | request q =>
          obtain ⟨-, hr2⟩ := by simpa using hrm
          have hmem : (r.1, Message.request q) ∈ e.out.filterMap Packet.tcp? := hr2 ▸ hr
          exact absurd hmem (no_request h ht he (tail_false h hnodup hpy) hquiet)
        | _ => rfl
      rw [hnone, List.map_nil, List.append_nil, bodies, hist, ← bodies]
    · have hsucc : (γ.server p).succServerAddr = y := by
        rw [(h.seat p ht.mem).succ, hpy, Option.getD_some]
      rw [bodies, hist, List.map_append, ← bodies, hout]
      simp [hsucc, Message.request?]
  · have hlink : (γ₁.handle x msg e).link p y = γ₁.link p y := Links.send_of_ne _ _ _ hpx y
    rw [server_of_ne ht hpx, inFlight, hlink]
    by_cases hyx : y = x
    · subst hyx
      rw [server_self]
      exact applied_self h ht he hok hnodup hpy
    · rw [server_of_ne ht hyx, ht.others p y hpy hyx, ← inFlight, happlied]

omit hok

/-- What leaves `sent_list_` has been applied by the successor. -/
lemma base_step (hnodup : b.servers.Nodup) {p y : Address} (hpy : nextOf p b.servers = some y) :
    ((γ₁.handle x msg e).server p).base ≤ ((γ₁.handle x msg e).server y).hist.length ∧
      ∀ n ∈ (γ₁.handle x msg e).acked p, n ≤ ((γ₁.handle x msg e).server p).base := by
  have hbase := h.base p y hpy
  have hacked := h.acked p y hpy
  have hgrow := (prefix_hist h ht he y).length_le
  by_cases hpx : p = x
  · subst hpx
    rw [server_self]
    rcases base_cases h ht he (tail_false h hnodup hpy) with ⟨hkept, hnot⟩ | ⟨a, rfl, hmoved⟩
    · have hsame : (γ₁.handle p msg e).acked = γ.acked := by
        rw [← ht.acked]
        cases msg with
        | acknowledge a => exact absurd rfl (hnot a)
        | _ => rfl
      rw [hkept, hsame]
      exact ⟨hbase.trans hgrow, hacked⟩
    · obtain ⟨y', hy', hle⟩ := ht.ack a rfl
      obtain rfl : y' = y := Option.some.inj (hy'.symm.trans hpy)
      have hlength := congrArg List.length (h.applied p y' hpy)
      rw [List.length_append, length_bodies, length_bodies] at hlength
      have hsame : (γ₁.handle p (.acknowledge a) e).acked p = γ.acked p ++ [a.bankUpdateSeq] := by
        rw [← ht.acked]
        exact Function.update_self ..
      rw [hmoved, hsame]
      refine ⟨by omega, fun n hn => ?_⟩
      rcases List.mem_append.mp hn with hn | hn
      · have := hacked n hn
        omega
      · obtain rfl := List.mem_singleton.mp hn
        omega
  · have hsame : (γ₁.handle x msg e).acked p = γ.acked p := by
      rw [← ht.acked]
      cases msg with
      | acknowledge a => exact Function.update_of_ne hpx ..
      | _ => rfl
    rw [server_of_ne ht hpx, hsame]
    exact ⟨hbase.trans hgrow, hacked⟩

/-- What is in flight stays accounted for. -/
lemma mail_step (hnodup : b.servers.Nodup) (hempty : .empty ∉ b.servers) {m : Message}
    (hu : u ∈ b.servers) (hv : v ∈ b.servers) (hm : m ∈ (γ₁.handle x msg e).link u v) :
    Mail b (γ₁.handle x msg e) u v m := by
  have hgrow := (prefix_hist h ht he u).length_le
  have hneighbour {o : Option Address} (ho : v = o.getD .empty) : o = some v := by
    cases o with
    | none =>
      rw [ho] at hv
      exact absurd hv hempty
    | some w => exact congrArg some ho.symm
  rcases (Links.mem_send γ₁.link x _).mp hm with hold | ⟨rfl, hnew⟩
  · have hmail := h.mail u hu v hv m (ht.link u v m hold)
    cases m with
    | acknowledge a => exact ⟨hmail.1, hmail.2.trans hgrow⟩
    | request q => exact hmail
    | reply r => exact hmail
    | _ => cases hmail
  · have hspec := packets h ht he hnew
    have hrole := roleStep h ht he
    have hlog := logWf h ht he
    have hkind := ht.kind
    cases m with
    | request q =>
      rcases hspec with ⟨hacting, t, -, rfl⟩ | ⟨htarget, hsent, -⟩
      · have hlast := ((h.seat u hu).tail).mp ((role h ht he).2.mp hacting)
        refine ⟨fun _ _ => ?_, Or.inr rfl⟩
        have haddr : (e.server.transferToReq t).clientAddr = u := hrole.localAddr.trans ((h.seat u hu).addr)
        rw [haddr, hlast]
      · have hsucc : e.server.succServerAddr = (nextOf u b.servers).getD .empty := by
          rcases hrole.succ with hsucc | ⟨r, rfl, -⟩
          · rw [hsucc, (h.seat u hu).succ]
          · simp at hkind
        exact ⟨returns_step h ht he (hlog.mem_hist hsent), Or.inl (hneighbour (htarget.trans hsucc))⟩
    | acknowledge a =>
      have hpre : e.server.preServerAddr = (prevOf u b.servers).getD .empty := by
        rcases hrole.pre with hpre | rfl
        · rw [hpre, (h.seat u hu).pre]
        · simp at hkind
      have hprev := hneighbour (hspec.1.trans hpre)
      have hnext := nextOf_of_prevOf hnodup hprev
      refine ⟨hnext, ?_⟩
      rw [server_self]
      rcases hspec.2 with rfl | ⟨-, -, hseq⟩
      · obtain ⟨y, hy, hle⟩ := ht.ack a rfl
        have hlength := congrArg List.length (h.applied u y hy)
        rw [List.length_append, length_bodies, length_bodies] at hlength
        rw [server_self] at hgrow
        omega
      · rw [hseq, hlog.counter]
    | reply r =>
      obtain ⟨q, htype, rfl, hq⟩ := hspec
      rcases hq with hq | hq
      · exact returns_step h ht he hq htype hv
      · exact (h.seat u hu).returns q ((h.seat u hu).log.mem_hist hq) htype hv
    | reqSeq r =>
      obtain ⟨-, rfl, -⟩ := hspec
      simp at hkind
    | _ => cases hspec

/-- The server keeps its place. -/
lemma seat_step : Seat b x e.server := by
  have hseat := h.seat x ht.mem
  have hkind := ht.kind
  have hrole := roleStep h ht he
  constructor
  case head => exact (role h ht he).1.trans hseat.head
  case tail => exact (role h ht he).2.trans hseat.tail
  case addr => exact hrole.localAddr.trans hseat.addr
  case succ =>
    rcases hrole.succ with hsucc | ⟨r, rfl, -⟩
    · rw [hsucc, hseat.succ]
    · simp at hkind
  case pre =>
    rcases hrole.pre with hpre | rfl
    · rw [hpre, hseat.pre]
    · simp at hkind
  case extending => exact hrole.extendingChain.trans hseat.extending
  case log => exact logWf h ht he
  case returns => exact fun q hq => returns_step h ht he hq

/-- Every step keeps the invariant. -/
theorem handle (hok : e.ok = true) (hnodup : b.servers.Nodup) (hempty : .empty ∉ b.servers) :
    Counting b (γ₁.handle x msg e) := by
  constructor
  case seat =>
    intro y hy
    by_cases hyx : y = x
    · subst hyx
      rw [server_self]
      exact seat_step h ht he
    · rw [server_of_ne ht hyx]
      exact h.seat y hy
  case mail => exact fun u hu v hv m hm => mail_step h ht he hnodup hempty hu hv hm
  case applied => exact fun p y hpy => applied_step h ht he hok hnodup hpy
  case base => exact fun p y hpy => (base_step h ht he hnodup hpy).1
  case acked => exact fun p y hpy => (base_step h ht he hnodup hpy).2

end Step

theorem init (hb : b ∈ cfg.banks) : Counting b cfg.initChain := by
  have hserver {x : Address} (hx : x ∈ b.servers) : cfg.initChain.server x = _ :=
    Config.initServer_of_mem hb hx
  have hnil {x : Address} (hx : x ∈ b.servers) : (cfg.initChain.server x).hist = [] := by
    rw [hserver hx]
  constructor
  case seat =>
    intro x hx
    rw [hserver hx]
    constructor
    case log => exact ⟨rfl, rfl, by simp, List.Sublist.refl _, fun _ => List.suffix_refl _⟩
    all_goals simp
  case mail => exact fun x _ y _ m hm => absurd hm List.not_mem_nil
  case applied =>
    intro x y hxy
    obtain ⟨hx, hy⟩ := mem_of_nextOf hxy
    rw [bodies, bodies, hnil hx, hnil hy]
    rfl
  case base =>
    intro x y hxy
    rw [ChainServer.base, hnil (mem_of_nextOf hxy).1]
    simp
  case acked => exact fun x y _ n hn => absurd hn List.not_mem_nil

/-- In a chain of at least two servers, a step whose head does not wrap keeps the invariant. -/
theorem step (h : Counting b γ) (hb : b ∈ cfg.banks) (hlen : 2 ≤ b.servers.length)
    (hfits : γ.Fits b l) (hstep : γ.step b master l = some γ') : Counting b γ' := by
  have hnodup := Config.servers_nodup hb
  obtain ⟨⟨x, msg⟩, htaken, hrest⟩ := Option.bind_eq_some_iff.mp hstep
  have ht := h.takes htaken
  have heq : (γ.server x).handleMsg32 master msg = (γ.server x).handleMsg master msg := by
    cases msg with
    | request q =>
      refine receiveRequest32_eq fun htype hhead => ?_
      refine hfits (x, .request q) htaken q rfl htype hhead ?_
      rw [Bool.eq_false_iff, ne_eq, (h.seat x ht.mem).tail]
      exact getLast?_ne_of_head? hnodup hlen ((h.seat x ht.mem).head.mp hhead)
    | _ => rfl
  simp only [heq, Option.ite_none_right_eq_some, Option.some.injEq] at hrest
  obtain ⟨hok, rfl⟩ := hrest
  exact h.handle ht rfl hok hnodup fun hempty => Config.ne_empty hb hempty rfl

end Counting

lemma Counting.nothingVanishes (h : Counting b γ) (hnodup : b.servers.Nodup) : γ.NothingVanishes b := by
  constructor
  case applied => exact h.applied
  case new =>
    intro x y hxy q hq
    obtain ⟨hx, hy⟩ := mem_of_nextOf hxy
    obtain ⟨i, hi⟩ := List.mem_iff_getElem?.mp hq
    have hget : (γ.server x).bodies[(γ.server y).hist.length + i]? = some q := by
      rw [h.applied x y hxy, List.getElem?_append_right (by simp), length_bodies, Nat.add_sub_cancel_left,
        hi]
    have hseq := ((h.seat x hx).log.bodies_seq hget).1
    rw [(h.seat y hy).log.counter, hseq]
    omega
  case removed =>
    intro x y hxy
    have hlog := (h.seat x (mem_of_nextOf hxy).1).log
    have hsuffix := hlog.suffix (Counting.tail_false h hnodup hxy)
    exact ⟨(γ.server x).base, h.base x y hxy, List.suffix_iff_eq_drop.mp hsuffix⟩
  case released =>
    intro x y hxy n hn q hq
    have hlog := (h.seat x (mem_of_nextOf hxy).1).log
    have hlt := hlog.base_lt (Counting.tail_false h hnodup hxy) hq
    exact (h.acked x y hxy n hn).trans_lt hlt

end Chain

end ChainReplication
