import ChainReplication.System.Topology
import ChainReplication.Library.SeqStream

/-!
# Update propagation

The histories along a chain are prefixes of each other, `sent_list_` covers what a live successor
may lack, and no link skips a number. The invariant survives crashes at any point because each part
is stated for the live servers before or behind a server, not for its neighbours.
-/

namespace ChainReplication

open scoped List
open SeqStream

/-! ### Histories and streams -/

lemma getElem?_of_prefix {α : Type*} {l k : List α} (h : l <+: k) {i : ℕ} {a : α}
    (ha : l[i]? = some a) : k[i]? = some a := by
  obtain ⟨hi, rfl⟩ := List.getElem?_eq_some_iff.mp ha
  exact List.prefix_iff_getElem?.mp h i hi

/-- A prefix grows by the element that comes next in the longer list. -/
lemma append_prefix {α : Type*} {l k : List α} (h : l <+: k) {a : α} (ha : k[l.length]? = some a) :
    l ++ [a] <+: k := by
  obtain ⟨hi, rfl⟩ := List.getElem?_eq_some_iff.mp ha
  exact List.concat_get_prefix h hi

/-- The number of a request. -/
def Message.seq? : Message → Option ℕ
  | .request q => some q.bankUpdateSeq
  | _ => none

/-- The numbers of the requests in a queue. -/
def seqs (l : List Message) : List ℕ := l.filterMap Message.seq?

/-- What a list of packets puts on the link to `y`. -/
def sentTo (out : List Packet) (y : Address) : List Message :=
  (out.filterMap Packet.tcp?).filterMap fun p => if p.1 = y then some p.2 else none

@[simp] lemma seqs_append (l l' : List Message) : seqs (l ++ l') = seqs l ++ seqs l' :=
  List.filterMap_append

lemma seqs_cons (m : Message) (l : List Message) :
    seqs (m :: l) = m.seq?.toList ++ seqs l := by
  unfold seqs
  rw [List.filterMap_cons]
  cases m.seq? <;> rfl

lemma mem_seqs_sentTo {out : List Packet} {y : Address} {n : ℕ} (h : n ∈ seqs (sentTo out y)) :
    ∃ p ∈ out, ∃ q, p.tcp? = some (y, .request q) ∧ q.bankUpdateSeq = n := by
  obtain ⟨m, hm, hseq⟩ := List.mem_filterMap.mp h
  obtain ⟨⟨t, m'⟩, hp, heq⟩ := List.mem_filterMap.mp hm
  obtain ⟨p, hout, htcp⟩ := List.mem_filterMap.mp hp
  simp only [Option.ite_none_right_eq_some, Option.some.injEq] at heq
  obtain ⟨rfl, rfl⟩ := heq
  cases m' with
  | request q => exact ⟨p, hout, q, htcp, Option.some.inj hseq⟩
  | _ => simp [Message.seq?] at hseq

/-- Packets that are no updates put only zeros on a link. -/
lemma gapFree_quiet {out out' : List Packet} (h : ChainServer.Quiet out) (hout : out' <+: out)
    {y : Address} {m : ℕ} : GapFree m (seqs (sentTo out' y)) := by
  refine gapFree_of_zero fun n hn => ?_
  obtain ⟨p, hp, q, htcp, rfl⟩ := mem_seqs_sentTo hn
  exact h p (hout.subset hp) y q htcp

/-- Updates sent down one link. -/
lemma seqs_sentTo_updates (a y : Address) (l : List Request) :
    seqs (sentTo (l.map fun q => .tcp a (.request q)) y) =
      if y = a then l.map (·.bankUpdateSeq) else [] := by
  induction l with
  | nil => simp [seqs, sentTo]
  | cons q l ih =>
    by_cases hy : y = a
    · subst hy
      simp only [if_true] at ih ⊢
      rw [List.map_cons, List.map_cons, ← ih]
      simp [seqs, sentTo, Message.seq?]
    · simp only [if_neg hy] at ih ⊢
      rw [← ih]
      simp [seqs, sentTo, Ne.symm hy]

/-- The updates that a dying server has sent are the first of those it meant to send. -/
lemma prefix_seqs_sentTo {out : List Packet} {a : Address} {l : List Request}
    (h : out <+: l.map fun q => .tcp a (.request q)) (y : Address) :
    seqs (sentTo out y) <+: if y = a then l.map (·.bankUpdateSeq) else [] := by
  rw [← seqs_sentTo_updates]
  obtain ⟨k, hk⟩ := h
  rw [← hk]
  simp [sentTo]

/-! ### The invariant -/

/-- A message in flight to `dst` agrees with the histories of the live servers. -/
def Sound (cfg : Config) (σ : System) (dst : Address) : Message → Prop
  | .request q => 0 < q.bankUpdateSeq → σ.crashed dst = false →
      ∀ b ∈ cfg.banks, ∀ i, b.servers.Precedes i dst → σ.crashed i = false →
        (σ.server i).bodies[q.bankUpdateSeq - 1]? = some q.body
  | .acknowledge a => ∀ b ∈ cfg.banks, dst ∈ b.servers → ∀ z ∈ b.servers, σ.crashed z = false →
      a.bankUpdateSeq ≤ (σ.server z).hist.length
  | .reqSeq r => r.bankUpdateSeq ≤ (σ.server r.succAddr).hist.length
  | .newSuccServer r => r.bankUpdateSeq ≤ (σ.server r.succAddr).hist.length
  | _ => True

structure Replicated (cfg : Config) (σ : System) : Prop where
  sub : ∀ b ∈ cfg.banks, ∀ x z, b.servers.Precedes x z → σ.crashed x = false →
    (σ.server z).bodies <+: (σ.server x).bodies
  window : ∀ b ∈ cfg.banks, ∀ x ∈ b.servers, ∀ z ∈ b.servers, σ.crashed x = false →
    (σ.server x).istail = false → σ.crashed z = false →
    (σ.server x).base ≤ (σ.server z).hist.length
  sound : ∀ u y, ∀ m ∈ σ.link u y, Sound cfg σ y m
  gapFree : ∀ u y, σ.crashed y = false → y ≠ cfg.master →
    GapFree (σ.server y).hist.length (seqs (σ.link u y))
  covered : ∀ x, σ.crashed x = false → (σ.server x).istail = false →
    σ.crashed (σ.server x).succServerAddr = false →
    (σ.server x).hist.length ≤ reach (σ.server (σ.server x).succServerAddr).hist.length
      (seqs (σ.link x (σ.server x).succServerAddr))

variable {cfg : Config} {σ σ' : System} {x y z : Address} {msg m : Message}
  {L : Links Address Message} {out : List Packet}

/-- Histories only grow and crashed servers stay crashed. -/
structure Appends (σ σ' : System) : Prop where
  hist : ∀ x, (σ.server x).hist <+: (σ'.server x).hist
  crashed : ∀ x, σ.crashed x = true → σ'.crashed x = true

namespace Appends

lemma refl (σ : System) : Appends σ σ := ⟨fun _ => List.prefix_rfl, fun _ h => h⟩

lemma trans {σ'' : System} (h : Appends σ σ') (h' : Appends σ' σ'') : Appends σ σ'' :=
  ⟨fun x => (h.hist x).trans (h'.hist x), fun x hx => h'.crashed x (h.crashed x hx)⟩

lemma bodies (h : Appends σ σ') (x : Address) : (σ.server x).bodies <+: (σ'.server x).bodies :=
  (h.hist x).map _

lemma length (h : Appends σ σ') (x : Address) :
    (σ.server x).hist.length ≤ (σ'.server x).hist.length := (h.hist x).length_le

lemma live (h : Appends σ σ') (hx : σ'.crashed x = false) : σ.crashed x = false := by
  by_contra hdead
  rw [h.crashed x (by simpa using hdead)] at hx
  simp at hx

end Appends

lemma Sound.appends (h : Sound cfg σ x m) (ha : Appends σ σ') : Sound cfg σ' x m := by
  cases m with
  | request q =>
    intro hpos hlive b hb i hi hilive
    have hold := h hpos (ha.live hlive) b hb i hi (ha.live hilive)
    exact getElem?_of_prefix (ha.bodies i) hold
  | acknowledge a =>
    intro b hb hx z hz hlive
    exact (h b hb hx z hz (ha.live hlive)).trans (ha.length z)
  | reqSeq r => exact Nat.le_trans h (ha.length _)
  | newSuccServer r => exact Nat.le_trans h (ha.length _)
  | _ => trivial

namespace Replicated

theorem init (cfg : Config) : Replicated cfg cfg.init := by
  have hhist (x : Address) : (cfg.init.server x).hist = [] :=
    Config.initServer_cases (P := fun s => s.hist = []) x rfl fun _ _ _ => rfl
  refine ⟨?_, ?_, ?_, ?_, ?_⟩
  · intro b hb x z _ _
    simp [ChainServer.bodies, hhist]
  · intro b hb x _ z _ _ _ _
    simp [ChainServer.base, hhist]
  · intro u y m hm
    simp [Config.init] at hm
  · intro u y _ _
    exact gapFree_nil _
  · intro x _ _ _
    simp [hhist]

/-! ### Crashes and steps of the master -/

lemma frame (h : Replicated cfg σ) (server : σ'.server = σ.server)
    (crashed : ∀ x, σ.crashed x = true → σ'.crashed x = true)
    (links : ∀ u y, ∀ m ∈ σ'.link u y, m ∈ σ.link u y ∨ Sound cfg σ y m)
    (streams : ∀ u y, σ.crashed y = false → y ≠ cfg.master →
      seqs (σ'.link u y) = seqs (σ.link u y))
    (hne : ∀ x, (σ.server x).succServerAddr ≠ cfg.master) : Replicated cfg σ' := by
  have ha : Appends σ σ' := ⟨fun _ => by rw [server], crashed⟩
  refine ⟨?_, ?_, ?_, ?_, ?_⟩
  · intro b hb x z hxz hlive
    rw [server]
    exact h.sub b hb x z hxz (ha.live hlive)
  · intro b hb x hx z hz hlive htail hzlive
    rw [server] at htail ⊢
    exact h.window b hb x hx z hz (ha.live hlive) htail (ha.live hzlive)
  · intro u y m hm
    rcases links u y m hm with hm | hm
    · exact (h.sound u y m hm).appends ha
    · exact hm.appends ha
  · intro u y hlive hy
    rw [server, streams u y (ha.live hlive) hy]
    exact h.gapFree u y (ha.live hlive) hy
  · intro x hlive htail hsucc
    rw [server] at htail hsucc ⊢
    rw [streams _ _ (ha.live hsucc) (hne x)]
    exact h.covered x (ha.live hlive) htail (ha.live hsucc)

end Replicated

namespace Topology

/-- No server takes the master for its successor. -/
lemma succ_ne_master (h : Topology cfg σ) (x : Address) :
    (σ.server x).succServerAddr ≠ cfg.master := by
  rcases h.succ x with hempty | ⟨b, hb, hxy, -⟩
  · rw [hempty]
    exact fun heq => cfg.empty_notMem (heq ▸ List.mem_cons_self)
  · exact Config.ne_master hb hxy.right_mem

/-- A server that has a live server behind it is not the tail. -/
lemma tail_false_of_precedes (h : Topology cfg σ) {b : BankConfig} (hb : b ∈ cfg.banks)
    (hxy : b.servers.Precedes x y) (hylive : σ.crashed y = false) :
    (σ.server x).istail = false := by
  by_contra htail
  rw [h.tail x (by simpa using htail) b hb y hxy] at hylive
  simp at hylive

lemma tail_false (h : Topology cfg σ) (hl : Linked cfg σ x y) (hylive : σ.crashed y = false) :
    (σ.server x).istail = false := by
  obtain ⟨b, hb, hxy, -⟩ := hl
  exact h.tail_false_of_precedes hb hxy hylive

end Topology

namespace Replicated

lemma seqs_eq_of_quiet {out : List Packet} {y : Address}
    (h : ∀ p ∈ out, ∀ q, p.tcp? ≠ some (y, .request q)) : seqs (sentTo out y) = [] := by
  refine List.eq_nil_iff_forall_not_mem.mpr fun n hn => ?_
  obtain ⟨p, hp, q, htcp, -⟩ := mem_seqs_sentTo hn
  exact h p hp q htcp

/-- What the master takes in and sends out concerns no stream of updates. -/
lemma streams_master {u y master : Address} (hy : y ≠ master)
    (hout : ∀ p ∈ out, ∀ t q, p.tcp? ≠ some (t, .request q)) {L : Links Address Message}
    (hL : ∀ u y, y ≠ master → L u y = σ.link u y) :
    seqs (L.send master (out.filterMap Packet.tcp?) u y) = seqs (σ.link u y) := by
  by_cases hu : u = master
  · subst hu
    rw [Links.send_self, hL u y hy, seqs_append]
    have hnil := seqs_eq_of_quiet (y := y) fun p hp q => hout p hp y q
    unfold sentTo at hnil
    rw [hnil, List.append_nil]
  · rw [Links.send_of_ne _ _ _ hu, hL u y hy]

lemma recv_master (σ : System) {u y : Address} (hy : y ≠ σ.master.addr) (src : Address) :
    σ.link.recv src σ.master.addr u y = σ.link u y :=
  Links.recv_of_ne _ _ _ fun heq => hy heq.2

lemma kill (h : Replicated cfg σ) (ht : Topology cfg σ) (x : Address) :
    Replicated cfg (σ.kill x) := by
  refine h.frame rfl ?_ (fun _ _ _ hm => Or.inl hm) (fun _ _ _ _ => rfl) ht.succ_ne_master
  intro y hy
  by_cases hyx : y = x
  · simp [System.kill, hyx]
  · simpa [System.kill, hyx] using hy

lemma ignore (h : Replicated cfg σ) (ht : Topology cfg σ) (src : Address) :
    Replicated cfg { σ with link := σ.link.recv src σ.master.addr } := by
  refine h.frame rfl (fun _ hx => hx) ?_ ?_ ht.succ_ne_master
  · exact fun _ _ _ hm => Or.inl (Links.mem_of_mem_recv _ _ _ hm)
  · intro u y _ hy
    change seqs (σ.link.recv src σ.master.addr u y) = _
    rw [recv_master σ (by rwa [ht.master])]

lemma relink (h : Replicated cfg σ) (ht : Topology cfg σ) {src : Address} {r : Reqseq}
    {rest : List Message} (head : σ.link src σ.master.addr = .reqSeq r :: rest) :
    Replicated cfg ({ σ with link := σ.link.recv src σ.master.addr }.emit σ.master.addr
      [.tcp r.preAddr (.newSuccServer r)]) := by
  refine h.frame rfl (fun _ hx => hx) ?_ ?_ ht.succ_ne_master
  · intro u y m hm
    simp only [System.emit, Links.mem_send] at hm
    rcases hm with hm | ⟨rfl, hm⟩
    · exact Or.inl (Links.mem_of_mem_recv _ _ _ hm)
    · obtain ⟨rfl, rfl⟩ := by simpa using hm
      have hr := h.sound src σ.master.addr (.reqSeq r) (by rw [head]; exact List.mem_cons_self)
      exact Or.inr hr
  · intro u y _ hy
    refine streams_master (by rwa [ht.master]) ?_ fun u y hy => recv_master σ hy src
    simp

lemma detect (h : Replicated cfg σ) (ht : Topology cfg σ) {id : String} {node : Address}
    {bsc : BankServerChain} {m : Master} {out : List Packet}
    (hcase : Master.CrashCase σ.master id node bsc m out) :
    Replicated cfg ({ σ with master := m }.emit σ.master.addr out) := by
  refine h.frame rfl (fun _ hx => hx) ?_ ?_ ht.succ_ne_master
  · intro u y m hm
    simp only [System.emit, Links.mem_send] at hm
    rcases hm with hm | ⟨rfl, hm⟩
    · exact Or.inl hm
    · obtain ⟨p, hp, hm⟩ := List.mem_filterMap.mp hm
      right
      cases hcase.notice hp hm <;> trivial
  · intro u y _ hy
    refine streams_master (by rwa [ht.master]) ?_ fun _ _ _ => rfl
    intro p hp t q htcp
    cases hcase.notice hp htcp

/-! ### A server serves a message -/

section Serve

variable (h : Replicated cfg σ) (htop : Topology cfg σ) (ht : System.Taken σ x msg L)
  (hs : System.Serve σ x msg L out σ')

include htop ht hs in
lemma serve_appends : Appends σ σ' := by
  refine ⟨fun y => ?_, fun y => hs.crashed_mono⟩
  by_cases hyx : y = x
  · rw [hyx, hs.server_self]
    exact (ht.logStep htop.toPlain).prefix_hist
  · rw [hs.server_of_ne hyx]

include h htop ht in
/-- What the server is about to apply stands at the same place in every live history before it. -/
lemma next_agrees {req : Request} (hmsg : msg = .request req)
    (hnext : (σ.server x).ishead = true ∨ req.bankUpdateSeq = (σ.server x).bankUpdateSeq + 1)
    (hlive : σ.crashed x = false) {b : BankConfig} (hb : b ∈ cfg.banks) {i : Address}
    (hi : b.servers.Precedes i x) (hilive : σ.crashed i = false) :
    (σ.server i).bodies[(σ.server x).hist.length]? =
      some ((σ.server x).answered req).body := by
  subst hmsg
  -- a live server stands before `x`, so `x` is not the head
  have hseq : req.bankUpdateSeq = (σ.server x).bankUpdateSeq + 1 := by
    rcases hnext with hhead | hseq
    · rw [htop.head x hhead b hb i hi] at hilive
      simp at hilive
    · exact hseq
  have hcounter := (htop.log x).counter
  rcases ht.origin with ⟨src, hm⟩ | ⟨req', hreq, hzero, -⟩
  · have hsound := h.sound src x _ hm (by omega) hlive b hb i hi hilive
    rw [ChainServer.answered_body, ChainServer.number, ← hseq]
    rwa [show req.bankUpdateSeq - 1 = (σ.server x).hist.length by omega] at hsound
  · obtain rfl := by simpa using hreq
    omega

include h htop ht hs

lemma serve_sub {b : BankConfig} (hb : b ∈ cfg.banks) {i z : Address}
    (hiz : b.servers.Precedes i z) (hlive : σ'.crashed i = false) :
    (σ'.server z).bodies <+: (σ'.server i).bodies := by
  have ha := serve_appends htop ht hs
  have hne : i ≠ z := hiz.ne (Config.servers_nodup hb)
  have hold := h.sub b hb i z hiz (ha.live hlive)
  by_cases hzx : z = x
  · subst hzx
    rw [hs.server_of_ne hne]
    have grown {req : Request} (hmsg : msg = .request req)
        (hnext : (σ.server z).ishead = true ∨
          req.bankUpdateSeq = (σ.server z).bankUpdateSeq + 1)
        (hist : ((σ.server z).handleMsg σ.master.addr msg).server.hist =
          (σ.server z).hist ++ [(σ.server z).answered req]) :
        (σ'.server z).bodies <+: (σ.server i).bodies := by
      rw [hs.server_self, ChainServer.bodies, hist, List.map_append, List.map_singleton]
      refine append_prefix hold ?_
      rw [ChainServer.length_bodies]
      exact next_agrees h htop ht hmsg hnext hs.live hb hiz (ha.live hlive)
    have kept (hist : ((σ.server z).handleMsg σ.master.addr msg).server.hist =
        (σ.server z).hist) : (σ'.server z).bodies <+: (σ.server i).bodies := by
      rwa [hs.server_self, ChainServer.bodies, hist]
    cases ht.logStep htop.toPlain with
    | relay type tail next hist => exact grown rfl next hist
    | answer type tail next hist => exact grown rfl next hist
    | keep hist => exact kept hist
    | ack hist => exact kept hist
    | toBeTail hist => exact kept hist
    | reply hist => exact kept hist
    | resend hist => exact kept hist
  · rw [hs.server_of_ne hzx]
    exact hold.trans (ha.bodies i)

omit h in
/-- Only acknowledgements let a server forget. -/
lemma serve_base (htail : (σ'.server x).istail = false) :
    (σ.server x).istail = false ∧
      ((σ'.server x).base ≤ (σ.server x).base ∨ ∃ a, msg = .acknowledge a ∧
        (σ'.server x).base ≤ max (σ.server x).base a.bankUpdateSeq) := by
  have hrole := hs.roleStep htop.toPlain ht
  have hold : (σ.server x).istail = false := by
    by_contra hold
    rw [hrole.tail.mpr (Or.inl (by simpa using hold))] at htail
    simp at htail
  refine ⟨hold, ?_⟩
  rw [hs.server_self] at htail ⊢
  cases ht.logStep htop.toPlain with
  | keep hist seq sent => exact Or.inl (by rw [ChainServer.base, hist, sent]; exact le_rfl)
  | resend hist seq sent => exact Or.inl (by rw [ChainServer.base, hist, sent]; exact le_rfl)
  | relay type tail next hist seq sent =>
    left
    rw [ChainServer.base, hist, sent, ChainServer.base, List.length_append, List.length_append]
    simp
  | answer type tail =>
    rw [hold] at tail
    simp at tail
  | ack hist seq sent =>
    refine Or.inr ⟨_, rfl, ?_⟩
    rw [(ht.logStep htop.toPlain).ack_base (htop.log x) hold]
    exact max_le_max le_rfl (min_le_left _ _)
  | toBeTail =>
    rw [← hs.server_self, hrole.tail.mpr (Or.inr rfl)] at htail
    simp at htail
  | reply =>
    rw [htop.taken_reply ht] at hold
    simp at hold

lemma serve_window {b : BankConfig} (hb : b ∈ cfg.banks) {i z : Address} (hi : i ∈ b.servers)
    (hz : z ∈ b.servers) (hlive : σ'.crashed i = false) (htail : (σ'.server i).istail = false)
    (hzlive : σ'.crashed z = false) : (σ'.server i).base ≤ (σ'.server z).hist.length := by
  have ha := serve_appends htop ht hs
  refine le_trans ?_ (ha.length z)
  by_cases hix : i = x
  · subst hix
    obtain ⟨hold, hbase⟩ := serve_base htop ht hs htail
    have hwindow := h.window b hb i hi z hz (ha.live hlive) hold (ha.live hzlive)
    rcases hbase with hbase | ⟨a, rfl, hbase⟩
    · exact hbase.trans hwindow
    · refine hbase.trans (max_le hwindow ?_)
      rcases ht.origin with ⟨src, hm⟩ | ⟨_, hreq, -⟩
      · exact h.sound src i _ hm b hb hi z hz (ha.live hzlive)
      · simp at hreq
  · rw [hs.server_of_ne hix] at htail ⊢
    exact h.window b hb i hi z hz (ha.live hlive) htail (ha.live hzlive)

/-- An update goes to the successor, from a history that is a prefix of all before it. -/
lemma serve_sound_request {q : Request} (hq : q ∈ (σ'.server x).hist)
    (hlinked : (σ'.server x).succServerAddr = y) : Sound cfg σ' y (.request q) := by
  have htop' := htop.serve ht hs
  intro _ hylive b hb i hi hilive
  have hlinked : Linked cfg σ' x y := by
    rcases htop'.succ x with hempty | hl
    · rw [hlinked] at hempty
      rw [hempty, htop'.empty] at hylive
      simp at hylive
    · rwa [hlinked] at hl
  obtain ⟨b', hb', hxy, hbetween⟩ := hlinked
  obtain rfl := Config.bank_unique_servers hb hb' hi.right_mem hxy.right_mem
  have hown : (σ'.server x).bodies[q.bankUpdateSeq - 1]? = some q.body := by
    rw [ChainServer.bodies, List.getElem?_map, ((htop'.log x).getElem? hq).1]
    rfl
  by_cases hix : i = x
  · rwa [hix]
  · rcases List.precedes_total hi.left_mem hxy.left_mem hix with hix | hxi
    · exact getElem?_of_prefix (serve_sub h htop ht hs hb hix hilive) hown
    · rw [hbetween i hxi hi] at hilive
      simp at hilive

/-- An acting tail has the shortest history. -/
lemma serve_tail_shortest {b : BankConfig} (hb : b ∈ cfg.banks) (hx : x ∈ b.servers)
    (htail : (σ'.server x).istail = true) {z : Address} (hz : z ∈ b.servers)
    (hzlive : σ'.crashed z = false) : (σ'.server x).bodies <+: (σ'.server z).bodies := by
  have htop' := htop.serve ht hs
  by_cases hzx : z = x
  · rw [hzx]
  · rcases List.precedes_total hz hx hzx with hzx | hxz
    · exact serve_sub h htop ht hs hb hzx hzlive
    · rw [htop'.tail x htail b hb z hxz] at hzlive
      simp at hzlive

lemma serve_sound
    (hm : ChainServer.PacketSpec σ.master.addr (σ.server x) msg (σ'.server x) y m) :
    Sound cfg σ' y m := by
  have ha := serve_appends htop ht hs
  have hrole := hs.roleStep htop.toPlain ht
  have htop' := htop.serve ht hs
  cases m with
  | request q =>
    rcases hm with ⟨-, q, -, rfl⟩ | ⟨hsucc, hsent, -⟩
    · intro hpos
      exact absurd hpos (lt_irrefl 0)
    · exact serve_sound_request h htop ht hs ((htop'.log x).mem_hist hsent) hsucc.symm
  | acknowledge a =>
    obtain ⟨hpre, hm⟩ := hm
    intro b hb hy z hz hzlive
    -- the acknowledgement goes to the predecessor, in the same chain
    have hx : x ∈ b.servers := by
      rcases htop'.pre x with hempty | ⟨b', hb', hyx, -⟩
      · rw [← hpre] at hempty
        exact absurd hempty (Config.ne_empty hb hy)
      · rw [← hpre] at hyx
        obtain rfl := Config.bank_unique_servers hb hb' hy hyx.left_mem
        exact hyx.right_mem
    rcases hm with rfl | ⟨htail, -, hseq⟩
    · rcases ht.origin with ⟨src, hm⟩ | ⟨_, hreq, -⟩
      · exact (h.sound src x _ hm b hb hx z hz (ha.live hzlive)).trans (ha.length z)
      · simp at hreq
    · have htail : (σ'.server x).istail = true := by
        rcases htail with htail | ⟨rep, rfl⟩
        · exact htail
        · exact hrole.tail.mpr (Or.inl (htop.taken_reply ht))
      have hlen := (serve_tail_shortest h htop ht hs hb hx htail hz hzlive).length_le
      rw [ChainServer.length_bodies, ChainServer.length_bodies] at hlen
      rw [hseq, (htop'.log x).counter]
      exact hlen
  | reqSeq r =>
    obtain ⟨-, -, hsucc, hseq⟩ := hm
    change r.bankUpdateSeq ≤ (σ'.server r.succAddr).hist.length
    rw [hseq, hsucc, htop.serve_localAddr hs, (htop.log x).counter]
    exact ha.length x
  | reply rep => trivial
  | _ => exact hm.elim

/-! The streams: first what the receiver takes off its link, then what it sends. -/

/-- Taking a message off a link leaves no gap and takes no update back. -/
lemma taken_stream (hylive : σ'.crashed y = false) (hy : y ≠ cfg.master) (u : Address) :
    GapFree (σ'.server y).hist.length (seqs (L u y)) ∧
      reach (σ.server y).hist.length (seqs (σ.link u y)) ≤
        reach (σ'.server y).hist.length (seqs (L u y)) := by
  have ha := serve_appends htop ht hs
  have hgap := h.gapFree u y (ha.live hylive) hy
  have hlen := ha.length y
  cases ht with
  | client seq type => exact ⟨hgap.mono hlen, reach_mono hlen⟩
  | @link src _ rest head =>
    by_cases hlink : u = src ∧ y = x
    · obtain ⟨rfl, rfl⟩ := hlink
      have ht := System.Taken.link head
      rw [head, seqs_cons] at hgap ⊢
      rw [Links.recv_self, head, List.tail_cons]
      -- the served request, if any, is now in the history
      have hseen : ∀ n ∈ msg.seq?, n ≤ (σ'.server y).hist.length := by
        intro n hn
        cases msg with
        | request req =>
          obtain rfl : req.bankUpdateSeq = n := by simpa [Message.seq?] using hn
          have hnext : req.bankUpdateSeq ≤ (σ.server y).hist.length + 1 := hgap.1
          have hok := (hs.complete hylive).2
          have hcounter := (htop.log y).counter
          rw [hs.server_self]
          cases ht.logStep htop.toPlain with
          | keep hist seq sent out ignored =>
            rw [hist]
            rcases ignored req rfl hok with hquery | hle
            · have hm : .request req ∈ σ.link u y := by rw [head]; exact List.mem_cons_self
              exact absurd hquery (htop.fits u y _ hm).1
            · omega
          | relay type tail next hist | answer type tail next hist =>
            rw [hist, List.length_append]
            exact hnext
        | _ => simp [Message.seq?] at hn
      cases hseq : msg.seq? with
      | none =>
        rw [hseq] at hgap
        exact ⟨GapFree.mono hgap hlen, reach_mono hlen⟩
      | some n =>
        rw [hseq] at hgap
        have hmax : max (σ.server y).hist.length n ≤ (σ'.server y).hist.length :=
          max_le hlen (hseen n (by simp [hseq]))
        exact ⟨GapFree.mono hgap.2 hmax, reach_mono hmax⟩
    · rw [Links.recv_of_ne _ _ _ hlink]
      exact ⟨hgap.mono hlen, reach_mono hlen⟩

omit h htop ht in
lemma serve_link (u y : Address) :
    σ'.link u y = if u = x then L u y ++ sentTo out y else L u y := by
  rw [hs.link]
  split_ifs with hux
  · rw [hux, Links.send_self]
    rfl
  · rw [Links.send_of_ne _ _ _ hux]

/-- A `NEW_SUCC_SERVER` names a server behind the receiver, up to which it needs no update. -/
lemma taken_newSuccServer {r : Reqseq} (hmsg : msg = .newSuccServer r) :
    Linked cfg σ x r.succAddr ∧
      r.bankUpdateSeq ≤ (σ.server r.succAddr).hist.length := by
  subst hmsg
  rcases ht.origin with ⟨src, hm⟩ | ⟨_, hreq, -⟩
  · exact ⟨htop.fits src x _ hm, h.sound src x _ hm⟩
  · simp at hreq

omit ht in
/-- Before a live server, nothing that it lacks has left `sent_list_`. -/
lemma base_le_of_linked (hl : Linked cfg σ x y) (hylive : σ.crashed y = false) :
    (σ.server x).base ≤ (σ.server y).hist.length := by
  obtain ⟨b, hb, hxy, hbetween⟩ := hl
  exact h.window b hb x hxy.left_mem y hxy.right_mem hs.live
    (htop.tail_false ⟨b, hb, hxy, hbetween⟩ hylive) hylive

lemma serve_gapFree (hylive : σ'.crashed y = false) (hy : y ≠ cfg.master) (u : Address) :
    GapFree (σ'.server y).hist.length (seqs (σ'.link u y)) := by
  have ha := serve_appends htop ht hs
  obtain ⟨hgap, hreach⟩ := taken_stream h htop ht hs hylive hy u
  rw [serve_link hs]
  split_ifs with hux
  swap
  · exact hgap
  subst hux
  rw [seqs_append, gapFree_append]
  refine ⟨hgap, ?_⟩
  have hprefix := hs.out_prefix
  cases ht.logStep htop.toPlain with
  | relay type tail next hist seq sent hout =>
    rw [hout] at hprefix
    refine GapFree.of_prefix ?_ (prefix_seqs_sentTo (l := [_]) hprefix y)
    split_ifs with hsucc
    · subst hsucc
      have hcovered := h.covered u hs.live tail (ha.live hylive)
      refine ⟨?_, trivial⟩
      simp only [ChainServer.answered_bankUpdateSeq, (htop.log u).counter]
      omega
    · trivial
  | @resend r _ hist seq sent hlink hout =>
    rw [hout] at hprefix
    refine GapFree.of_prefix ?_ (prefix_seqs_sentTo hprefix y)
    split_ifs with hsucc
    · subst hsucc
      obtain ⟨hlinked, hseq⟩ := taken_newSuccServer h htop ht hs rfl
      have hlive := ha.live hylive
      have hbase := base_le_of_linked h htop hs hlinked hlive
      have hle : (σ.server r.succAddr).hist.length ≤
          reach (σ'.server r.succAddr).hist.length (seqs (L u r.succAddr)) :=
        le_reach.trans hreach
      rw [(htop.log u).resend_seqs (htop.tail_false hlinked hlive)]
      exact (gapFree_range' (by omega)).filter (hseq.trans hle)
    · trivial
  | keep _ _ _ hout => exact gapFree_quiet hout hprefix
  | answer _ _ _ _ _ _ hout => exact gapFree_quiet hout hprefix
  | ack _ _ _ hout => exact gapFree_quiet hout hprefix
  | toBeTail _ _ _ hout => exact gapFree_quiet hout hprefix
  | reply _ _ _ hout => exact gapFree_quiet hout hprefix

/-- What the serving server holds stays on its way to its successor. -/
lemma serve_covered_self (hlive : σ'.crashed x = false) (htail : (σ'.server x).istail = false)
    (hy : (σ'.server x).succServerAddr = y) (hylive : σ'.crashed y = false) :
    (σ'.server x).hist.length ≤
      reach (σ'.server y).hist.length (seqs (L x y ++ sentTo out y)) := by
  have ha := serve_appends htop ht hs
  have hrole := hs.roleStep htop.toPlain ht
  have hold := (serve_base htop ht hs htail).1
  have hymaster : y ≠ cfg.master := hy ▸ (htop.serve ht hs).succ_ne_master x
  obtain ⟨-, hreach⟩ := taken_stream h htop ht hs hylive hymaster x
  obtain ⟨hout, -⟩ := hs.complete hlive
  have hsent : reach (σ'.server y).hist.length (seqs (L x y)) ≤
      reach (σ'.server y).hist.length (seqs (L x y ++ sentTo out y)) := by
    rw [seqs_append, reach_append]
    exact le_reach
  -- with the old successor, what was on its way still is
  have kept (hsame : (σ.server x).succServerAddr = y) : (σ.server x).hist.length ≤
      reach (σ'.server y).hist.length (seqs (L x y ++ sentTo out y)) := by
    have hcovered := h.covered x hs.live hold (by rw [hsame]; exact ha.live hylive)
    rw [hsame] at hcovered
    exact (hcovered.trans hreach).trans hsent
  have same (hmsg : ∀ r, msg ≠ .newSuccServer r) : (σ.server x).succServerAddr = y := by
    rcases hrole.succ with hsame | ⟨r, hr, -⟩
    · rw [← hsame, hy]
    · exact absurd hr (hmsg r)
  cases hlog : ht.logStep htop.toPlain with
  | keep hist seq sent _ ignored other =>
    rw [hs.server_self, hist]
    exact kept (same other.2.2)
  | @relay req _ type tail next hist seq sent hrelay =>
    rw [hs.server_self, hist, List.length_append, List.length_singleton, seqs_append, reach_append]
    refine le_reach_of_mem ?_
    have hsucc := same (by simp)
    rw [hout, hrelay, hsucc]
    have hseqs := seqs_sentTo_updates y y [(σ.server x).answered req]
    rw [List.map_singleton] at hseqs
    rw [hseqs]
    simp [(htop.log x).counter]
  | answer type tail =>
    rw [hold] at tail
    simp at tail
  | ack hist =>
    rw [hs.server_self, hist]
    exact kept (same (by simp))
  | toBeTail hist =>
    rw [hs.server_self, hist]
    exact kept (same (by simp))
  | reply hist =>
    rw [hs.server_self, hist]
    exact kept (same (by simp))
  | @resend r _ hist seq sent hlink hresend =>
    have hsucc : r.succAddr = y := by rw [← hlink, ← hs.server_self, hy]
    obtain ⟨hlinked, hseq⟩ := taken_newSuccServer h htop ht hs rfl
    rw [hsucc] at hlinked hseq
    have hbase := base_le_of_linked h htop hs hlinked (ha.live hylive)
    have hlen := ha.length y
    rw [hs.server_self, hist, seqs_append, reach_append]
    by_cases hseen : (σ.server x).hist.length ≤ max (σ.server x).base r.bankUpdateSeq
    · have hle : max (σ.server x).base r.bankUpdateSeq ≤ (σ'.server y).hist.length := by omega
      exact (hseen.trans hle).trans (le_reach.trans le_reach)
    · -- the newest update is among those sent again
      refine le_reach_of_mem ?_
      rw [hout, hresend, hsucc, seqs_sentTo_updates, if_pos rfl, (htop.log x).resend_seqs hold]
      have hadd := (htop.log x).base_add
      rw [List.mem_filter, List.mem_range'_1, decide_eq_true_eq]
      omega

lemma serve_covered {i : Address} (hlive : σ'.crashed i = false)
    (htail : (σ'.server i).istail = false)
    (hsucc : σ'.crashed (σ'.server i).succServerAddr = false) :
    (σ'.server i).hist.length ≤ reach (σ'.server (σ'.server i).succServerAddr).hist.length
      (seqs (σ'.link i (σ'.server i).succServerAddr)) := by
  have ha := serve_appends htop ht hs
  rw [serve_link hs]
  split_ifs with hix
  · subst hix
    exact serve_covered_self h htop ht hs hlive htail rfl hsucc
  · have hmaster := (htop.serve ht hs).succ_ne_master i
    rw [hs.server_of_ne hix] at htail hsucc hmaster ⊢
    obtain ⟨-, hreach⟩ := taken_stream h htop ht hs hsucc hmaster i
    exact (h.covered i (ha.live hlive) htail (ha.live hsucc)).trans hreach

theorem serve : Replicated cfg σ' := by
  refine ⟨?_, ?_, ?_, ?_, ?_⟩
  · exact fun b hb i z hiz hlive => serve_sub h htop ht hs hb hiz hlive
  · exact fun b hb i hi z hz hlive htail hzlive =>
      serve_window h htop ht hs hb hi hz hlive htail hzlive
  · intro u y m hm
    rcases hs.mem_link_spec htop.toPlain ht hm with hm | ⟨rfl, hm⟩
    · exact (h.sound u y m hm).appends (serve_appends htop ht hs)
    · exact serve_sound h htop ht hs hm
  · exact fun u y hylive hy => serve_gapFree h htop ht hs hylive hy u
  · exact fun i hlive htail hsucc => serve_covered h htop ht hs hlive htail hsucc

end Serve

/-! ### Runs -/

theorem step (h : Replicated cfg σ) (ht : Topology cfg σ) {l : Label}
    (hcase : System.StepCase σ l σ') : Replicated cfg σ' := by
  cases hcase with
  | serve taken serve => exact h.serve ht taken serve
  | crash => exact h.kill ht _
  | relink live head => exact h.relink ht head
  | ignore live => exact h.ignore ht _
  | detect live dead lookup mem case => exact h.detect ht case

theorem reach {ok : System → Label → Prop} (hok : ∀ σ l, ok σ l → System.NoJoin σ l)
    (h : Machine.Reach System.step ok cfg.init σ) : Replicated cfg σ :=
  h.invariant_of (fun _ hu => Topology.reach hok hu) (Replicated.init cfg)
    fun _ l _ h ht _ hl hs => h.step ht (System.step_cases ht.toPlain (hok _ l hl) hs)

end Replicated

/-! ### What every step keeps -/

namespace Topology

variable {σ₁ σ₂ : System} {l : Label}

/-- Every step only appends to histories and revives nobody. -/
lemma appends (h : Topology cfg σ) (hcase : System.StepCase σ l σ') : Appends σ σ' := by
  cases hcase with
  | serve taken serve => exact Replicated.serve_appends h taken serve
  | @crash _ x =>
    refine ⟨fun _ => List.prefix_rfl, fun y hy => ?_⟩
    by_cases hyx : y = x
    · simp [System.kill, hyx]
    · simpa [System.kill, hyx] using hy
  | relink => exact ⟨fun _ => List.prefix_rfl, fun _ hy => hy⟩
  | ignore => exact ⟨fun _ => List.prefix_rfl, fun _ hy => hy⟩
  | detect => exact ⟨fun _ => List.prefix_rfl, fun _ hy => hy⟩

lemma appends_of_reach {ok : System → Label → Prop}
    (hok : ∀ σ l, ok σ l → System.NoJoin σ l) (h : Topology cfg σ₁)
    (hrun : Machine.Reach System.step ok σ₁ σ₂) : Appends σ₁ σ₂ := by
  have hboth : Topology cfg σ₂ ∧ Appends σ₁ σ₂ := by
    refine hrun.invariant (I := fun σ => Topology cfg σ ∧ Appends σ₁ σ) ⟨h, Appends.refl σ₁⟩ ?_
    rintro σ l σ' ⟨ht, ha⟩ hl hs
    have hcase := System.step_cases ht.toPlain (hok σ l hl) hs
    exact ⟨ht.step hcase, ha.trans (ht.appends hcase)⟩
  exact hboth.2

/-- No step changes an address. -/
lemma localAddr_step (h : Topology cfg σ) (hcase : System.StepCase σ l σ') (x : Address) :
    (σ'.server x).localAddr = (σ.server x).localAddr := by
  cases hcase with
  | @serve _ y msg L out _ taken serve =>
    by_cases hxy : x = y
    · subst hxy
      exact (serve.roleStep h.toPlain taken).localAddr
    · rw [serve.server_of_ne hxy]
  | crash => rfl
  | relink => rfl
  | ignore => rfl
  | detect => rfl

end Topology

end ChainReplication
