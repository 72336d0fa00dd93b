import ChainReplication.System.AckOrder
import ChainReplication.System.Counters
import ChainReplication.System.Forwarding
import Mathlib.Data.List.TakeWhile

/-!
# Transfers that wait for the destination bank

A tail sends no acknowledgement while it keeps a transfer, so a forwarded transfer stays in every
`sent_list_` of its chain until the reply comes. What breaks this is an acknowledgement of a tail
that has died: it can reach a server that has become the tail since and has forwarded its transfers
again. The invariant below is about the runs in which this does not happen.
-/

namespace ChainReplication

variable {cfg : Config} {b : BankConfig} {σ σ' : System} {l : Label} {r d : String}

/-! ### Forwarded and confirmed transfers -/

/-- The `TRANSFER_TO`s that the servers of a bank have sent to other banks. Those that they pass on have another
client. -/
def System.forwarded (σ : System) (b : BankConfig) : List Request :=
  σ.trace.filterMap fun
    | .sent x (.tcp _ (.request q)) =>
      if x ∈ b.servers ∧ q.type = .transferTo ∧ q.clientAddr = x then some q else none
    | _ => none

/-- The `REPLY`s that the servers of a bank have handled. -/
def System.replied (σ : System) (b : BankConfig) : List Reply :=
  σ.trace.filterMap fun
    | .handled x (.reply rep) => if x ∈ b.servers then some rep else none
    | _ => none

/-- The bank has forwarded a transfer under the id `r` to the account `d`. -/
def Forwarded (b : BankConfig) (σ : System) (r d : String) : Prop :=
  ∃ q ∈ σ.forwarded b, q.reqId = r ∧ q.accountId = d

/-- The bank has handled a reply for the transfer. -/
def Confirmed (b : BankConfig) (σ : System) (r d : String) : Prop :=
  ∃ rep ∈ σ.replied b, rep.reqId = r ∧ rep.accountId = d

instance (b : BankConfig) (σ : System) (r d : String) : Decidable (Forwarded b σ r d) :=
  inferInstanceAs (Decidable (∃ q ∈ σ.forwarded b, _))

instance (b : BankConfig) (σ : System) (r d : String) : Decidable (Confirmed b σ r d) :=
  inferInstanceAs (Decidable (∃ rep ∈ σ.replied b, _))

lemma System.mem_forwarded {q : Request} : q ∈ σ.forwarded b ↔ ∃ x ∈ b.servers, ∃ a,
    Event.sent x (.tcp a (.request q)) ∈ σ.trace ∧ q.type = .transferTo ∧ q.clientAddr = x := by
  unfold forwarded
  rw [List.mem_filterMap]
  constructor
  · rintro ⟨ev, hev, heq⟩
    split at heq
    · simp only [Option.ite_none_right_eq_some, Option.some.injEq] at heq
      obtain ⟨⟨hx, htype, hclient⟩, rfl⟩ := heq
      exact ⟨_, hx, _, hev, htype, hclient⟩
    · simp at heq
  · rintro ⟨x, hx, a, hev, htype, hclient⟩
    exact ⟨_, hev, by simp [hx, htype, hclient]⟩

lemma System.mem_replied {rep : Reply} : rep ∈ σ.replied b ↔ ∃ x ∈ b.servers,
    Event.handled x (.reply rep) ∈ σ.trace := by
  unfold replied
  rw [List.mem_filterMap]
  constructor
  · rintro ⟨ev, hev, heq⟩
    split at heq
    · simp only [Option.ite_none_right_eq_some, Option.some.injEq] at heq
      obtain ⟨hx, rfl⟩ := heq
      exact ⟨_, hx, hev⟩
    · simp at heq
  · rintro ⟨x, hx, hev⟩
    exact ⟨_, hev, by simp [hx]⟩

lemma Forwarded.mono (h : Forwarded b σ r d) (htrace : σ.trace ⊆ σ'.trace) :
    Forwarded b σ' r d := by
  obtain ⟨q, hq, hids⟩ := h
  obtain ⟨x, hx, a, hev, hq⟩ := System.mem_forwarded.mp hq
  exact ⟨q, System.mem_forwarded.mpr ⟨x, hx, a, htrace hev, hq⟩, hids⟩

lemma Confirmed.mono (h : Confirmed b σ r d) (htrace : σ.trace ⊆ σ'.trace) :
    Confirmed b σ' r d := by
  obtain ⟨rep, hrep, hids⟩ := h
  obtain ⟨x, hx, hev⟩ := System.mem_replied.mp hrep
  exact ⟨rep, System.mem_replied.mpr ⟨x, hx, htrace hev⟩, hids⟩

/-- `sent_list_` holds the transfer under a number above `n`. -/
def ChainServer.HoldsAbove (s : ChainServer) (n : ℕ) (r d : String) : Prop :=
  ∃ t ∈ s.sentList, (t.type = .transfer ∧ t.reqId = r ∧ t.destAccountId = d) ∧
    n < t.bankUpdateSeq

/-- The acknowledgement that a message carries. -/
def Message.ack? : Message → Option Acknowledge
  | .acknowledge a => some a
  | _ => none

/-- The acknowledgements of the bank's servers on their way to `y`. -/
def System.acksTo (σ : System) (b : BankConfig) (y : Address) : List Acknowledge :=
  b.servers.flatMap fun u => (σ.link u y).filterMap Message.ack?

lemma System.mem_acksTo {u y : Address} {a : Acknowledge} (hu : u ∈ b.servers)
    (h : .acknowledge a ∈ σ.link u y) : a ∈ σ.acksTo b y :=
  List.mem_flatMap.mpr ⟨u, hu, List.mem_filterMap.mpr ⟨_, h, rfl⟩⟩

/-- A server of the bank that becomes the tail has no acknowledgement on the way that covers one of
its transfers, unless the transfer has been confirmed. -/
def NoStaleAck (b : BankConfig) (σ : System) (l : Label) : Prop :=
  ∀ e ∈ σ.delivery l, e.2 = .toBeTail → e.1 ∈ b.servers →
    ∀ a ∈ σ.acksTo b e.1, ∀ t ∈ (σ.server e.1).sentList, t.type = .transfer →
      ¬ Confirmed b σ t.reqId t.destAccountId → a.bankUpdateSeq < t.bankUpdateSeq

instance (b : BankConfig) (σ : System) (l : Label) : Decidable (NoStaleAck b σ l) :=
  inferInstanceAs (Decidable (∀ e ∈ σ.delivery l, _))

/-! ### The invariant -/

structure Pending (b : BankConfig) (σ : System) : Prop where
  held : ∀ r d, Forwarded b σ r d → ¬ Confirmed b σ r d → ∀ z ∈ b.servers,
    σ.crashed z = false → (σ.server z).HoldsAbove 0 r d
  acked : ∀ u y a, .acknowledge a ∈ σ.link u y → y ∈ b.servers → σ.crashed y = false →
    ∀ r d, Forwarded b σ r d → ¬ Confirmed b σ r d → ∀ z ∈ b.servers, σ.crashed z = false →
      z = y ∨ b.servers.Precedes z y → (σ.server z).HoldsAbove a.bankUpdateSeq r d
  kept : ∀ x ∈ b.servers, σ.crashed x = false → (σ.server x).istail = true →
    ∀ t ∈ (σ.server x).sentList, t.type = .transfer ∧ Forwarded b σ t.reqId t.destAccountId

namespace Pending

lemma init (hb : b ∈ cfg.banks) : Pending b cfg.init := by
  have hnone : ∀ r d, ¬ Forwarded b cfg.init r d := by
    rintro r d ⟨q, hq, -⟩
    simp [System.forwarded, Config.init] at hq
  refine ⟨fun r d h => absurd h (hnone r d), fun _ _ _ _ _ _ r d h => absurd h (hnone r d), ?_⟩
  intro x hx _ _ t ht
  simp [Config.init, Config.initServer_of_mem hb hx] at ht

/-- Steps of other banks and of the master, and crashes. -/
lemma frame (h : Pending b σ) (server : ∀ z ∈ b.servers, σ'.server z = σ.server z)
    (live : ∀ z, σ'.crashed z = false → σ.crashed z = false)
    (links : ∀ u y a, y ∈ b.servers → .acknowledge a ∈ σ'.link u y → .acknowledge a ∈ σ.link u y)
    (forwarded : ∀ r d, Forwarded b σ' r d → Forwarded b σ r d)
    (trace : σ.trace ⊆ σ'.trace) : Pending b σ' := by
  refine ⟨?_, ?_, ?_⟩
  · intro r d hf hc z hz hlive
    rw [server z hz]
    exact h.held r d (forwarded r d hf) (fun hc' => hc (hc'.mono trace)) z hz (live z hlive)
  · intro u y a hm hy hylive r d hf hc z hz hlive hzy
    rw [server z hz]
    exact h.acked u y a (links u y a hy hm) hy (live y hylive) r d (forwarded r d hf)
      (fun hc' => hc (hc'.mono trace)) z hz (live z hlive) hzy
  · intro x hx hlive htail t ht
    rw [server x hx] at htail ht
    obtain ⟨htype, hf⟩ := h.kept x hx (live x hlive) htail t ht
    exact ⟨htype, hf.mono trace⟩

/-! ### A server of the bank serves a message -/

section Serve

variable {x : Address} {msg : Message} {L : Links Address Message} {out : List Packet}
  (h : Pending b σ) (hb : b ∈ cfg.banks) (htop : Topology cfg σ) (hr : Replicated cfg σ)
  (hack : AckOrder cfg σ) (ht : System.Taken σ x msg L) (hs : System.Serve σ x msg L out σ')
  (hx : x ∈ b.servers)

include htop ht hs in
/-- An unconfirmed transfer leaves `sent_list_` only through an acknowledgement that covers it. -/
lemma serve_holds {n : ℕ} (hold : (σ.server x).HoldsAbove n r d)
    (hreply : ∀ rep, msg = .reply rep → ¬ (rep.reqId = r ∧ rep.accountId = d))
    (hacked : ∀ a, msg = .acknowledge a → (σ.server x).HoldsAbove a.bankUpdateSeq r d) :
    (σ'.server x).HoldsAbove n r d := by
  obtain ⟨t, hmem, hids, hn⟩ := hold
  unfold ChainServer.HoldsAbove
  rw [hs.server_self]
  cases ht.logStep htop.toPlain with
  | keep hist seq sent => exact ⟨t, by rwa [sent], hids, hn⟩
  | resend hist seq sent => exact ⟨t, by rwa [sent], hids, hn⟩
  | relay _ _ _ hist seq sent => exact ⟨t, by rw [sent]; exact List.mem_append_left _ hmem, hids, hn⟩
  | answer _ _ _ hist seq sent => exact ⟨t, by rw [sent]; exact List.mem_append_left _ hmem, hids, hn⟩
  | toBeTail hist seq sent =>
    exact ⟨t, by rw [sent]; exact List.mem_filter.mpr ⟨hmem, by simpa using hids.1⟩, hids, hn⟩
  | @reply rep _ hist seq sent =>
    refine ⟨t, ?_, hids, hn⟩
    rw [sent, List.mem_filter]
    refine ⟨hmem, ?_⟩
    have hne := hreply rep rfl
    rw [← hids.2.1, ← hids.2.2] at hne
    have hne : ¬ (t.reqId = rep.reqId ∧ t.destAccountId = rep.accountId) := fun heq =>
      hne ⟨heq.1.symm, heq.2.symm⟩
    simpa using not_and_or.mp hne
  | @ack a _ hist seq sent =>
    -- of two entries for the transfer, the one above both numbers stays
    have stays {t : Request} (hmem : t ∈ (σ.server x).sentList)
        (hlt : a.bankUpdateSeq < t.bankUpdateSeq) :
        t ∈ (σ.server x).sentList.dropWhile (·.bankUpdateSeq ≤ a.bankUpdateSeq) := by
      rw [← List.takeWhile_append_dropWhile
        (p := fun it : Request => decide (it.bankUpdateSeq ≤ a.bankUpdateSeq))
        (l := (σ.server x).sentList), List.mem_append] at hmem
      refine hmem.resolve_left fun htake => ?_
      have hle := List.mem_takeWhile_imp htake
      simp only [decide_eq_true_eq] at hle
      omega
    rw [sent]
    by_cases hlt : a.bankUpdateSeq < t.bankUpdateSeq
    · exact ⟨t, stays hmem hlt, hids, hn⟩
    · obtain ⟨t', hmem', hids', hlt'⟩ := hacked a rfl
      exact ⟨t', stays hmem' hlt', hids', by omega⟩

include hb htop hr ht hs in
/-- A transfer that the acting tail holds above what `z` has acknowledged is in `sent_list_` of
`z`, under the same number. -/
lemma serve_held_before {t : Request} (hmem : t ∈ (σ'.server x).hist) {z : Address}
    (hzx : b.servers.Precedes z x) (hzlive : σ'.crashed z = false)
    (hlt : (σ.server z).base < t.bankUpdateSeq) :
    ∃ t' ∈ (σ'.server z).sentList, t'.body = t.body := by
  have hne : z ≠ x := hzx.ne (Config.servers_nodup hb)
  have hzold := hs.live_of_live hzlive
  obtain ⟨hget, hpos, hle⟩ := ((htop.serve ht hs).log x).getElem? hmem
  have hbody : (σ'.server x).bodies[t.bankUpdateSeq - 1]? = some t.body := by
    rw [ChainServer.bodies, List.getElem?_map, hget]
    rfl
  have hbody := getElem?_of_prefix (Replicated.serve_sub hr htop ht hs hb hzx hzlive) hbody
  rw [hs.server_of_ne hne, ChainServer.bodies, List.getElem?_map, Option.map_eq_some_iff] at hbody
  obtain ⟨t', hget', hbody⟩ := hbody
  have hmem' := List.mem_of_getElem? hget'
  have hseq : t'.bankUpdateSeq = t.bankUpdateSeq := (Request.fields_of_body hbody).2.2.1
  have htail := htop.tail_false_of_precedes hb hzx hs.live
  refine ⟨t', ?_, hbody⟩
  rw [hs.server_of_ne hne]
  exact (htop.log z).mem_sent_of_lt htail hmem' (by rw [hseq]; exact hlt)

/-- A transfer forwarded for the first time is held, above every acknowledgement on its way, by all
live servers. -/
def HeldByAll (b : BankConfig) (σ σ' : System) (r d : String) : Prop :=
  ∀ z ∈ b.servers, σ'.crashed z = false → (σ'.server z).HoldsAbove 0 r d ∧
    ∀ u y a, .acknowledge a ∈ σ.link u y → y ∈ b.servers → σ'.crashed y = false →
      z = y ∨ b.servers.Precedes z y → ¬ Confirmed b σ r d →
        (σ'.server z).HoldsAbove a.bankUpdateSeq r d

include hb htop hr ht hs hx in
lemma heldByAll_of_number {t : Request} (htail : (σ'.server x).istail = true)
    (hmem : t ∈ (σ'.server x).sentList) (htype : t.type = .transfer)
    (hbase : ∀ z, b.servers.Precedes z x → σ.crashed z = false →
      (σ.server z).base < t.bankUpdateSeq)
    (hacks : ∀ u y a, .acknowledge a ∈ σ.link u y → y = x ∨ b.servers.Precedes y x →
      ¬ Confirmed b σ t.reqId t.destAccountId → a.bankUpdateSeq < t.bankUpdateSeq) :
    HeldByAll b σ σ' t.reqId t.destAccountId := by
  have htop' := htop.serve ht hs
  have before {y : Address} (hy : y ∈ b.servers) (hylive : σ'.crashed y = false) :
      y = x ∨ b.servers.Precedes y x := by
    by_cases hyx : y = x
    · exact Or.inl hyx
    · refine Or.inr ((List.precedes_total hy hx hyx).resolve_right fun hxy => ?_)
      rw [htop'.tail x htail b hb y hxy] at hylive
      simp at hylive
  intro z hz hzlive
  obtain ⟨t', hmem', hbody⟩ : ∃ t' ∈ (σ'.server z).sentList, t'.body = t.body := by
    rcases before hz hzlive with rfl | hzx
    · exact ⟨t, hmem, rfl⟩
    · exact serve_held_before hb htop hr ht hs ((htop'.log x).mem_hist hmem) hzx hzlive
        (hbase z hzx (hs.live_of_live hzlive))
  obtain ⟨hid, htype', hseq, -, -, -, hdest⟩ := Request.fields_of_body hbody
  have hids : t'.type = .transfer ∧ t'.reqId = t.reqId ∧ t'.destAccountId = t.destAccountId :=
    ⟨htype'.trans htype, hid, hdest⟩
  constructor
  · exact ⟨t', hmem', hids, ((htop'.log z).getElem? ((htop'.log z).mem_hist hmem')).2.1⟩
  · intro u y a hm hy hylive _ hc
    exact ⟨t', hmem', hids, by rw [hseq]; exact hacks u y a hm (before hy hylive) hc⟩

include h hb htop hr hack ht hs hx in
/-- A transfer that the acting tail forwards has been forwarded before, or all live servers hold
it. -/
lemma serve_kept_cases (hguard : msg = .toBeTail → ∀ a ∈ σ.acksTo b x,
      ∀ t ∈ (σ.server x).sentList, t.type = .transfer →
        ¬ Confirmed b σ t.reqId t.destAccountId → a.bankUpdateSeq < t.bankUpdateSeq)
    (htail : (σ'.server x).istail = true) {t : Request} (hmem : t ∈ (σ'.server x).sentList) :
    t.type = .transfer ∧ (Forwarded b σ t.reqId t.destAccountId ∨
      HeldByAll b σ σ' t.reqId t.destAccountId ∧ ∀ a, msg ≠ .acknowledge a) := by
  have hrole := hs.roleStep htop.toPlain ht
  have hlog := htop.log x
  have old (hne : msg ≠ .toBeTail) (hmem : t ∈ (σ.server x).sentList) :
      t.type = .transfer ∧ (Forwarded b σ t.reqId t.destAccountId ∨
        HeldByAll b σ σ' t.reqId t.destAccountId ∧ ∀ a, msg ≠ .acknowledge a) := by
    have hold := (hrole.tail.mp htail).resolve_right hne
    obtain ⟨htype, hf⟩ := h.kept x hx hs.live hold t hmem
    exact ⟨htype, Or.inl hf⟩
  have hmem' := hmem
  rw [hs.server_self] at hmem
  cases ht.logStep htop.toPlain with
  | keep hist seq sent out ignored other => exact old other.1 (sent ▸ hmem)
  | resend hist seq sent => exact old (by simp) (sent ▸ hmem)
  | ack hist seq sent => exact old (by simp) ((List.dropWhile_sublist _).subset (sent ▸ hmem))
  | reply hist seq sent => exact old (by simp) (List.mem_of_mem_filter (sent ▸ hmem))
  | relay type tail =>
    rw [(hrole.tail.mp htail).resolve_right (by simp)] at tail
    simp at tail
  | answer type tail next hist seq sent =>
    rw [sent, List.mem_append] at hmem
    rcases hmem with hmem | hmem
    · exact old (by simp) hmem
    obtain ⟨rfl, htype, -⟩ := Request.mem_toForward.mp hmem
    refine ⟨htype, Or.inr ⟨heldByAll_of_number hb htop hr ht hs hx htail hmem' htype ?_ ?_,
      by simp⟩⟩
    · intro z hzx hzlive
      have hztail := htop.tail_false_of_precedes hb hzx hs.live
      have hwindow := hr.window b hb z hzx.left_mem x hx hzlive hztail hs.live
      rw [ChainServer.answered_bankUpdateSeq, hlog.counter]
      omega
    · intro u y a hm hyx _
      have hy : y ∈ b.servers := by
        rcases hyx with rfl | hyx
        · exact hx
        · exact hyx.left_mem
      have hle := hr.sound u y _ hm b hb hy x hx hs.live
      rw [ChainServer.answered_bankUpdateSeq, hlog.counter]
      omega
  | toBeTail hist seq sent =>
    rw [sent, List.mem_filter, decide_eq_true_eq] at hmem
    obtain ⟨hmem, htype⟩ := hmem
    refine ⟨htype, ?_⟩
    by_cases hold : (σ.server x).istail = true
    · exact Or.inl (h.kept x hx hs.live hold t hmem).2
    have hold : (σ.server x).istail = false := by simpa using hold
    have hlt := hlog.base_lt hold hmem
    refine Or.inr ⟨heldByAll_of_number hb htop hr ht hs hx htail hmem' htype ?_ ?_, by simp⟩
    · intro z hzx hzlive
      have hztail := htop.tail_false_of_precedes hb hzx hs.live
      exact (hack.base b hb z x hzx hzlive hs.live hztail hold).trans_lt hlt
    · intro u y a hm hyx hc
      rcases hyx with rfl | hyx
      · exact hguard rfl a (System.mem_acksTo (hack.source u y a hm b hb hx) hm) t hmem htype hc
      · exact (hack.ack u y a hm b hb x hyx hs.live hold).trans_lt hlt

include h hb htop hr hack ht hs hx in
lemma serve_forwarded_cases
    (hguard : msg = .toBeTail → ∀ a ∈ σ.acksTo b x, ∀ t ∈ (σ.server x).sentList,
      t.type = .transfer → ¬ Confirmed b σ t.reqId t.destAccountId →
        a.bankUpdateSeq < t.bankUpdateSeq)
    (hf : Forwarded b σ' r d) : Forwarded b σ r d ∨ HeldByAll b σ σ' r d ∧
      (∀ a, msg ≠ .acknowledge a) ∧ (σ'.server x).sentList ≠ [] := by
  obtain ⟨q, hq, rfl, rfl⟩ := hf
  obtain ⟨y, hy, a, hev, htype, hclient⟩ := System.mem_forwarded.mp hq
  rw [hs.trace, List.mem_append, List.mem_cons] at hev
  rcases hev with hev | hev | hev
  · exact Or.inl ⟨q, System.mem_forwarded.mpr ⟨y, hy, a, hev, htype, hclient⟩, rfl, rfl⟩
  · simp at hev
  · obtain ⟨p, hp, heq⟩ := List.mem_map.mp hev
    obtain ⟨rfl, rfl⟩ := Event.sent.inj heq
    obtain ⟨htail, t, hmem, rfl⟩ := (htop.serve ht hs).sent_transferTo
      (hs.packets htop.toPlain ht hp rfl) htype hclient fun htail t hmem =>
        (serve_kept_cases h hb htop hr hack ht hs hx hguard htail hmem).1
    refine (serve_kept_cases h hb htop hr hack ht hs hx hguard htail hmem).2.imp id ?_
    exact fun hall => ⟨hall.1, hall.2, List.ne_nil_of_mem hmem⟩

include h hb htop hr hack ht hs hx in
theorem serve (hcase : System.StepCase σ l σ') (hguard : msg = .toBeTail → ∀ a ∈ σ.acksTo b x,
      ∀ t ∈ (σ.server x).sentList, t.type = .transfer →
        ¬ Confirmed b σ t.reqId t.destAccountId → a.bankUpdateSeq < t.bankUpdateSeq) :
    Pending b σ' := by
  have htop' := htop.serve ht hs
  have htrace := hcase.trace_subset
  have hcases {r d : String} (hf : Forwarded b σ' r d) :=
    serve_forwarded_cases h hb htop hr hack ht hs hx hguard hf
  have unconfirmed {r d : String} (hc : ¬ Confirmed b σ' r d) : ¬ Confirmed b σ r d :=
    fun hc' => hc (hc'.mono htrace)
  -- the serving server keeps what is forwarded and unconfirmed
  have keeps {r d : String} {n : ℕ} (hf : Forwarded b σ r d) (hc : ¬ Confirmed b σ' r d)
      (hold : (σ.server x).HoldsAbove n r d) : (σ'.server x).HoldsAbove n r d := by
    refine serve_holds htop ht hs hold ?_ ?_
    · rintro rep rfl hids
      refine hc ⟨rep, System.mem_replied.mpr ⟨x, hx, ?_⟩, hids⟩
      rw [hs.trace]
      simp
    · rintro a rfl
      rcases ht.origin with ⟨src, hm⟩ | ⟨_, hreq, -⟩
      · exact h.acked src x a hm hx hs.live r d hf (unconfirmed hc) x hx hs.live (Or.inl rfl)
      · simp at hreq
  have held : ∀ r d, Forwarded b σ' r d → ¬ Confirmed b σ' r d → ∀ z ∈ b.servers,
      σ'.crashed z = false ∨ z = x → (Forwarded b σ r d ∨ σ'.crashed z = false) →
        (σ'.server z).HoldsAbove 0 r d := by
    intro r d hf hc z hz hlive hor
    have old (hf : Forwarded b σ r d) : (σ'.server z).HoldsAbove 0 r d := by
      by_cases hzx : z = x
      · subst hzx
        exact keeps hf hc (h.held r d hf (unconfirmed hc) z hz hs.live)
      · rw [hs.server_of_ne hzx]
        exact h.held r d hf (unconfirmed hc) z hz (hs.live_of_live (hlive.resolve_right hzx))
    rcases hcases hf with hf | ⟨hall, -⟩
    · exact old hf
    · rcases hor with hf | hzlive
      · exact old hf
      · exact (hall z hz hzlive).1
  refine ⟨fun r d hf hc z hz hlive => held r d hf hc z hz (Or.inl hlive) (Or.inr hlive), ?_, ?_⟩
  · intro u y a hm hy hylive r d hf hc z hz hlive hzy
    have old {u y : Address} (hm : .acknowledge a ∈ σ.link u y) (hy : y ∈ b.servers)
        (hylive : σ.crashed y = false) (hf : Forwarded b σ r d)
        (hzy : z = y ∨ b.servers.Precedes z y) : (σ'.server z).HoldsAbove a.bankUpdateSeq r d := by
      have hheld := h.acked u y a hm hy hylive r d hf (unconfirmed hc) z hz
        (hs.live_of_live hlive) hzy
      by_cases hzx : z = x
      · subst hzx
        exact keeps hf hc hheld
      · rwa [hs.server_of_ne hzx]
    rcases hs.mem_link_spec htop.toPlain ht hm with hm | ⟨rfl, hm⟩
    · rcases hcases hf with hf | ⟨hall, -⟩
      · exact old hm hy (hs.live_of_live hylive) hf hzy
      · exact (hall z hz hlive).2 u y a hm hy hylive hzy (unconfirmed hc)
    obtain ⟨-, hyu, -, hm⟩ := AckOrder.ack_packet htop ht hs hb hy hm
    have hzu : b.servers.Precedes z u := by
      rcases hzy with rfl | hzy
      · exact hyu
      · exact hzy.trans (Config.servers_nodup hb) hyu
    rcases hm with rfl | ⟨htail, hempty⟩
    · rcases ht.origin with ⟨src, hm⟩ | ⟨_, hreq, -⟩
      · rcases hcases hf with hf | ⟨-, hne, -⟩
        · exact old hm hx hs.live hf (Or.inr hzu)
        · exact absurd rfl (hne a)
      · simp at hreq
    · -- a tail that acknowledges holds nothing, so nothing is forwarded and unconfirmed
      exfalso
      rcases hcases hf with hf' | ⟨-, -, hne⟩
      · obtain ⟨t, hmem, -⟩ := held r d hf hc u hx (Or.inr rfl) (Or.inl hf')
        rw [hempty] at hmem
        simp at hmem
      · exact hne hempty
  · intro y hy hlive hytail t hmem
    by_cases hyx : y = x
    · subst hyx
      refine ⟨(serve_kept_cases h hb htop hr hack ht hs hx hguard hytail hmem).1, ?_⟩
      obtain ⟨hout, hok⟩ := hs.complete hlive
      have hfwd := ChainServer.handleMsg_forwards (htop.extendingChain y) (ht.plain htop.toPlain) hok
        (by rwa [← hs.server_self]) (by rwa [← hs.server_self])
      rcases hfwd with ⟨a, hp⟩ | ⟨hold, hne⟩
      · refine ⟨(σ.server y).transferToReq t,
          System.mem_forwarded.mpr ⟨y, hy, a, ?_, rfl, htop.serve_localAddr hs⟩, rfl, rfl⟩
        rw [hs.trace, hout]
        exact List.mem_append_right _ (List.mem_cons_of_mem _ (List.mem_map_of_mem hp))
      · have htail := ((hs.roleStep htop.toPlain ht).tail.mp hytail).resolve_right hne
        exact (h.kept y hy hs.live htail t hold).2.mono htrace
    · rw [hs.server_of_ne hyx] at hytail hmem
      obtain ⟨htype, hf⟩ := h.kept y hy (hs.live_of_live hlive) hytail t hmem
      exact ⟨htype, hf.mono htrace⟩

end Serve

/-- What other processes do forwards nothing for the bank. -/
lemma forwarded_of_other {new : List Event} (htrace : σ'.trace = σ.trace ++ new)
    (hnew : ∀ x ∈ b.servers, ∀ p, Event.sent x p ∉ new) (hf : Forwarded b σ' r d) :
    Forwarded b σ r d := by
  obtain ⟨q, hq, hids⟩ := hf
  obtain ⟨x, hx, a, hev, hq⟩ := System.mem_forwarded.mp hq
  rw [htrace, List.mem_append] at hev
  have hev := hev.resolve_right (hnew x hx _)
  exact ⟨q, System.mem_forwarded.mpr ⟨x, hx, a, hev, hq⟩, hids⟩

lemma not_mem_sent {x y : Address} {out : List Packet} {p : Packet} (hne : x ≠ y) :
    Event.sent x p ∉ out.map (.sent y) := by
  intro hmem
  obtain ⟨p', -, heq⟩ := List.mem_map.mp hmem
  exact hne (Event.sent.inj heq).1.symm

theorem step (h : Pending b σ) (hb : b ∈ cfg.banks) (htop : Topology cfg σ)
    (hr : Replicated cfg σ) (hack : AckOrder cfg σ) (hguard : NoStaleAck b σ l)
    (hcase : System.StepCase σ l σ') : Pending b σ' := by
  have live : ∀ z, σ'.crashed z = false → σ.crashed z = false := fun _ => (htop.appends hcase).live
  have htrace := hcase.trace_subset
  have hmaster {x : Address} (hx : x ∈ b.servers) : x ≠ σ.master.addr := by
    rw [htop.master]
    exact Config.ne_master hb hx
  have hcase' := hcase
  cases hcase with
  | @serve _ x msg L out _ taken serve hdelivery =>
    by_cases hx : x ∈ b.servers
    · refine h.serve hb htop hr hack taken serve hx hcase' ?_
      rintro rfl
      exact hguard _ hdelivery rfl hx
    · have hne {z : Address} (hz : z ∈ b.servers) : z ≠ x := ne_of_mem_of_not_mem hz hx
      refine h.frame (fun z hz => serve.server_of_ne (hne hz)) live ?_ ?_ htrace
      · intro u y a hy hm
        rcases serve.mem_link_spec htop.toPlain taken hm with hm | ⟨rfl, hm⟩
        · exact hm
        · exact absurd (AckOrder.ack_packet htop taken serve hb hy hm).1 hx
      · intro r d
        refine forwarded_of_other serve.trace fun z hz p hmem => ?_
        rcases List.mem_cons.mp hmem with hmem | hmem
        · simp at hmem
        · exact not_mem_sent (hne hz) hmem
  | crash => exact h.frame (fun _ _ => rfl) live (fun _ _ _ _ hm => hm) (fun _ _ hf => hf) htrace
  | relink live' head =>
    refine h.frame (fun _ _ => rfl) live ?_ ?_ htrace
    · intro u y a _ hm
      simp only [System.emit, Links.mem_send] at hm
      rcases hm with hm | ⟨-, hm⟩
      · exact Links.mem_of_mem_recv _ _ _ hm
      · simp at hm
    · exact fun r d => forwarded_of_other rfl fun x hx p => not_mem_sent (hmaster hx)
  | ignore live' =>
    exact h.frame (fun _ _ => rfl) live (fun _ _ _ _ hm => Links.mem_of_mem_recv _ _ _ hm)
      (fun _ _ hf => hf) htrace
  | detect live' dead lookup mem case =>
    refine h.frame (fun _ _ => rfl) live ?_ ?_ htrace
    · intro u y a _ hm
      simp only [System.emit, Links.mem_send] at hm
      rcases hm with hm | ⟨-, hm⟩
      · exact hm
      · obtain ⟨p, hp, htcp⟩ := List.mem_filterMap.mp hm
        cases case.notice hp htcp
    · exact fun r d => forwarded_of_other rfl fun x hx p => not_mem_sent (hmaster hx)

theorem reach (hb : b ∈ cfg.banks) (hrun : Machine.Reach System.step
    (fun σ l => System.NoJoin σ l ∧ NoStaleAck b σ l) cfg.init σ) : Pending b σ := by
  refine hrun.invariant_of (J := fun σ => Topology cfg σ ∧ Replicated cfg σ ∧ AckOrder cfg σ) ?_
    (Pending.init hb) ?_
  · exact fun _ hu => ⟨Topology.reach (fun _ _ h => h.1) hu, Replicated.reach (fun _ _ h => h.1) hu,
      AckOrder.reach (fun _ _ h => h.1) hu⟩
  · rintro σ l σ' h ⟨htop, hr, hack⟩ - hl hs
    exact h.step hb htop hr hack hl.2 (System.step_cases htop.toPlain hl.1 hs)

end Pending

/-- In a run where no acknowledgement of a dead tail can reach a new tail and cover one of its
unconfirmed transfers, and no head numbers an update with its counter at its last value, every forwarded
transfer that has not been confirmed is in `sent_list_` of every live server of its chain. -/
theorem forwarded_transfer_held (hb : b ∈ cfg.banks) (hrun : Machine.Reach System.step32
    (fun σ l => System.NoJoin σ l ∧ NoStaleAck b σ l ∧ σ.CounterFits l) cfg.init σ) :
    ∀ r d, Forwarded b σ r d → ¬ Confirmed b σ r d → ∀ z ∈ b.servers, σ.crashed z = false →
      ∃ t ∈ (σ.server z).sentList, t.type = .transfer ∧ t.reqId = r ∧ t.destAccountId = d := by
  intro r d hf hc z hz hlive
  have hrun := (System.reach_of_fits hrun fun _ _ h => h.2.2).mono fun _ _ h => And.intro h.1 h.2.1
  obtain ⟨t, hmem, hids, -⟩ := (Pending.reach hb hrun).held r d hf hc z hz hlive
  exact ⟨t, hmem, hids⟩

open Config in
/-- The tail forwards a transfer and dies, and the next tail holds it and forwards it again. -/
theorem forwarded_transfer_held_takeover :
    let chain : BankConfig := { bankId := "BOA", servers := [1, 2, 3].map localAddress }
    let σ := Machine.after System.step32
      (fun σ l => System.NoJoin σ l ∧ NoStaleAck chain σ l ∧ σ.CounterFits l) twoBanks.init
      ([request 1 (sampleDeposit "1" 10), hop 1 2, hop 2 3, hop 3 2,
        request 1 (sampleTransfer "2" 4), hop 1 2, hop 2 3] ++ lose 3 ++ [hop 0 2])
    ∀ r d, Forwarded chain σ r d → ¬ Confirmed chain σ r d →
      ∀ z ∈ chain.servers, σ.crashed z = false →
        ∃ t ∈ (σ.server z).sentList, t.type = .transfer ∧ t.reqId = r ∧ t.destAccountId = d :=
  forwarded_transfer_held (by decide) (Machine.reach_after (by decide +kernel))

open Config in
/-- The second transfer is debited by the head, refused by a tail that has debited the first one
twice, and acknowledged by it. When the head takes over it forwards the transfer, and the
acknowledgement of the dead tail removes it. -/
theorem forwarded_transfer_dropped :
    ¬ ∀ σ, Machine.Reach System.step32 System.NoJoin twoBanks.init σ → ∀ b ∈ twoBanks.banks,
      ∀ r d, Forwarded b σ r d → ¬ Confirmed b σ r d → ∀ z ∈ b.servers, σ.crashed z = false →
        ∃ t ∈ (σ.server z).sentList, t.type = .transfer ∧ t.reqId = r ∧ t.destAccountId = d := by
  intro h
  let σ := Machine.after System.step32 System.NoJoin twoBanks.init
    ([request 1 (sampleDeposit "1" 10), hop 1 2, hop 2 3, hop 3 2, hop 2 1,
      request 1 (sampleTransfer "2" 5), hop 1 2, hop 2 3] ++ lose 3 ++
      [hop 0 2, hop 2 11, hop 11 2, hop 2 1,
        request 1 (sampleTransfer "2" 5), hop 1 2, hop 2 11, hop 11 2, hop 2 1,
        request 1 (sampleTransfer "3" 5), hop 1 2] ++ lose 2 ++ [hop 0 1, hop 2 1])
  have hrun : Machine.Reach System.step32 System.NoJoin twoBanks.init σ :=
    Machine.reach_after (by decide +kernel)
  let chain : BankConfig := { bankId := "BOA", servers := [1, 2, 3].map localAddress }
  have hforwarded : Forwarded chain σ "3" "z" := by decide +kernel
  have hconfirmed : ¬ Confirmed chain σ "3" "z" := by decide +kernel
  obtain ⟨t, hmem, -⟩ := h σ hrun chain (by decide) "3" "z" hforwarded hconfirmed (localAddress 1)
    (by decide) (by decide +kernel)
  have hempty : (σ.server (localAddress 1)).sentList = [] := by decide +kernel
  rw [hempty] at hmem
  cases hmem

end ChainReplication
