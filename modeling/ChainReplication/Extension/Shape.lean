import ChainReplication.Extension.Notices

/-!
# Runs in which servers join

Every step keeps the shape of the chains: the master's notices, `JOIN`, and the handlers of the
servers.
-/

namespace ChainReplication

open scoped List

variable {cfg : Config} {b : BankConfig} {σ σ' : System} {l : Label} {x y z src dst : Address}
  {msg m : Message}

namespace Extending

/-! ### Crashes -/

lemma joinNotice_fits (hb : b ∈ cfg.banks) {bsc bsc' : BankServerChain} {c : List Address}
    (hrec : Recorded b σ bsc' c) (hm : JoinNotice b σ bsc c dst m) :
    m.isJoin = false ∧ (∀ y, m = .extendServer y → σ.Joining y) ∧
      JoinFits cfg σ cfg.master dst m := by
  have mem (hlast : c.getLast? = some dst) : dst ∈ b.servers :=
    hrec.sub.subset (List.mem_of_getLast? hlast)
  cases hm with
  | toBeHead => exact ⟨rfl, by simp, trivial⟩
  | newHead => exact ⟨rfl, by simp, trivial⟩
  | toBeTail last =>
    exact ⟨rfl, by simp, rfl, b, hb, mem last, hrec.rear hb last⟩
  | extendServer last joiner =>
    refine ⟨rfl, ?_, rfl, b, hb, mem last, hrec.rear hb last, joiner⟩
    rintro y heq
    obtain rfl := Message.extendServer.inj heq
    exact joiner.2
  | newPreServer ahead => exact ⟨rfl, by simp, b, hb, ahead⟩
  | extendFail last joiner dead =>
    exact ⟨rfl, by simp, b, hb, mem last, hrec.rear hb last, _, joiner, dead⟩

lemma detect (h : Extending cfg σ) {id : String} {node : Address} {bsc : BankServerChain}
    {m : Master} {out : List Packet} (hdead : σ.crashed node = true)
    (hlookup : σ.master.bankServerChain.lookup id = some bsc) (hmem : node ∈ bsc.serverChain)
    (hcase : Master.NotifyCase σ.master id node bsc m out) :
    Extending cfg ({ σ with master := m }.emit m.addr out) := by
  obtain ⟨b, hb, rfl⟩ := h.bank id bsc hlookup
  obtain ⟨bsc', c, hlookup', hrec⟩ := h.record b hb
  rw [hlookup] at hlookup'
  obtain rfl := Option.some.inj hlookup'
  obtain ⟨bsc', rfl, hrec', hnotice⟩ := hrec.notified hb hdead hmem hcase
  have hset := h.setChain hb hrec'
  apply hset.emit
  · intro p hp t msg heq
    subst heq
    have hfits := joinNotice_fits hb hrec' (hnotice _ hp t msg rfl)
    exact ⟨hfits.1, hfits.2.1⟩
  · intro p hp t msg htcp
    have hfits := joinNotice_fits hb hrec' (hnotice p hp t msg htcp)
    refine ⟨hfits.1, ?_⟩
    have haddr : σ.master.addr = cfg.master := h.master
    rw [← haddr] at hfits
    exact hfits.2.2

/-! ### Joins -/

/-- The bank of a server that asks to join has not been extended. -/
lemma idle_of_fresh (h : Extending cfg σ) (hb : b ∈ cfg.banks) {bsc : BankServerChain}
    {c : List Address} (hrec : Recorded b σ bsc c) (hy : y ∈ b.extendServers) (hasked : σ.Asked y)
    (hfresh : ¬ σ.Joining y) :
    bsc.serverChain = c ∧ c.getLast? = some bsc.tail ∧ bsc.extending = .empty ∧
      ∀ z, ¬ Joiner b σ z := by
  have absurd' {z : Address} (hz : Joiner b σ z) : False := by
    obtain rfl := h.unique b hb y hy z hz.1 hasked (h.asked z hz.2)
    exact hfresh hz.2
  cases hrec.phase with
  | idle nobody chain last extending => exact ⟨chain, last, extending, nobody⟩
  | extending joiner => exact (absurd' joiner).elim
  | joined joiner => exact (absurd' joiner).elim
  | gone joiner => exact (absurd' joiner).elim

/-- The record after a `JOIN`, and the server that is told. -/
lemma handleJoin_eq (h : Extending cfg σ) (hb : b ∈ cfg.banks) {bsc : BankServerChain}
    {c : List Address} (hlookup : σ.master.bankServerChain.lookup b.bankId = some bsc)
    (hrec : Recorded b σ bsc c) (hy : y ∈ b.extendServers) (hasked : σ.Asked y)
    (hfresh : ¬ σ.Joining y) {m : Master} {out : List Packet}
    (hm : σ.master.handleJoin { bankId := b.bankId, serverAddr := y } = some (m, out)) :
    m = σ.master.setChain b.bankId { bsc with serverChain := c ++ [y], extending := y } ∧
      out = [.tcp bsc.tail (.extendServer y)] := by
  obtain ⟨hchain, hlast, -, -⟩ := h.idle_of_fresh hb hrec hy hasked hfresh
  have hnot : y ∉ c := fun hmem => Recorded.joiner_notMem hb hy (hrec.sub.subset hmem)
  have hnodup : (c ++ [y]).Nodup := by
    rw [List.nodup_append]
    refine ⟨hrec.nodup hb, List.nodup_singleton y, fun a ha z hz heq => ?_⟩
    rw [heq, List.mem_singleton.mp hz] at ha
    exact hnot ha
  simp only [Master.handleJoin, hlookup, Option.bind_eq_bind, Option.bind_some,
    Option.bind_eq_some_iff] at hm
  obtain ⟨pre, hpre, hm⟩ := hm
  obtain ⟨rfl, rfl⟩ := Prod.mk.inj (Option.some.inj hm)
  have hpre : pre = bsc.tail := by
    rw [BankServerChain.preServerAddr] at hpre
    split_ifs at hpre
    simp only [BankServerChain.appendNode, hchain] at hpre
    obtain ⟨l, rfl⟩ := BankServerChain.prevOf_append hnodup hpre
    rw [List.getLast?_concat] at hlast
    exact Option.some.inj hlast
  rw [hpre, BankServerChain.appendNode, hchain]
  exact ⟨rfl, rfl⟩

lemma joining_append {e : Event} (trace : σ'.trace = σ.trace ++ [e]) (hy : σ'.Joining y) :
    σ.Joining y ∨ e.announces y = true := by
  obtain ⟨e', he, hy⟩ := hy
  rw [trace, List.mem_append, List.mem_singleton] at he
  rcases he with he | rfl
  · exact Or.inl ⟨e', he, hy⟩
  · exact Or.inr hy

lemma asked_append {e : Event} (trace : σ'.trace = σ.trace ++ [e]) (hy : σ'.Asked y) :
    σ.Asked y ∨ e.asksFor y = true := by
  obtain ⟨e', he, hy⟩ := hy
  rw [trace, List.mem_append, List.mem_singleton] at he
  rcases he with he | rfl
  · exact Or.inl ⟨e', he, hy⟩
  · exact Or.inr hy

end Extending

/-- The master has let the server `src` join the bank `b`: it has put it behind the servers `c` of its record
`bsc` and told their last one. -/
structure Admitted (cfg : Config) (b : BankConfig) (σ : System) (src : Address) (bsc : BankServerChain)
    (c : List Address) (σ' : System) : Prop where
  bank : b ∈ cfg.banks
  extend : src ∈ b.extendServers
  asked : σ.Asked src
  fresh : ¬ σ.Joining src
  lookup : σ.master.bankServerChain.lookup b.bankId = some bsc
  recorded : Recorded b σ bsc c
  server : σ'.server = σ.server
  crashed : σ'.crashed = σ.crashed
  thread : σ'.thread = σ.thread
  master : σ'.master =
    σ.master.setChain b.bankId { bsc with serverChain := c ++ [src], extending := src }
  trace : σ'.trace = σ.trace ++ [.sent σ.master.addr (.tcp bsc.tail (.extendServer src))]
  link : σ'.link =
    (σ.link.recv src σ.master.addr).send σ.master.addr [(bsc.tail, .extendServer src)]

/-- What a handled `JOIN` does. -/
lemma Extending.admitted (h : Extending cfg σ) {j : Join} {rest : List Message}
    (head : σ.link src σ.master.addr = .join j :: rest) {m : Master} {out : List Packet}
    (hm : σ.master.handleJoin j = some (m, out)) :
    ∃ b bsc c, Admitted cfg b σ src bsc c
      ({ σ with link := σ.link.recv src σ.master.addr, master := m }.emit m.addr out) := by
  have hin : .join j ∈ σ.link src σ.master.addr := by
    rw [head]
    exact List.mem_cons_self
  obtain ⟨-, hasked, b, hb, hsrc, rfl⟩ := h.fits src _ _ hin
  have hfresh := h.fresh src _ _ hin
  obtain ⟨bsc, c, hlookup, hrec⟩ := h.record b hb
  obtain ⟨rfl, rfl⟩ := h.handleJoin_eq hb hlookup hrec hsrc hasked hfresh hm
  exact ⟨b, bsc, c, hb, hsrc, hasked, hfresh, hlookup, hrec, rfl, rfl, rfl, rfl, rfl, rfl⟩

namespace Admitted

variable {bsc : BankServerChain} {c : List Address} (ha : Admitted cfg b σ src bsc c σ')
include ha

lemma lasts : Lasts σ σ' :=
  Extending.lasts_of_trace ha.trace (by rw [ha.crashed]; exact fun _ hx => hx)

lemma joining (hy : σ'.Joining y) : σ.Joining y ∨ y = src :=
  (Extending.joining_append ha.trace hy).imp id fun hy => (of_decide_eq_true hy).symm

lemma joiner : Joiner b σ' src := by
  refine ⟨ha.extend, .sent σ.master.addr (.tcp bsc.tail (.extendServer src)), ?_, decide_eq_true rfl⟩
  rw [ha.trace]
  exact List.mem_append_right _ (List.mem_singleton_self _)

lemma asked_before (hy : σ'.Asked y) : σ.Asked y :=
  (Extending.asked_append ha.trace hy).resolve_right (by simp [Event.asksFor])

/-- Another bank has the joining servers that it had before. -/
lemma joiner_other {b' : BankConfig} (hb' : b' ∈ cfg.banks) (hne : b'.bankId ≠ b.bankId)
    (hy : Joiner b' σ' y) : Joiner b' σ y := by
  refine ⟨hy.1, (ha.joining hy.2).resolve_right ?_⟩
  rintro rfl
  obtain rfl := Config.bank_unique hb' ha.bank (List.mem_append_right _ hy.1)
    (List.mem_append_right _ ha.extend)
  exact hne rfl

lemma mem_link {u v : Address} {n : Message} (hn : n ∈ σ'.link u v) :
    n ∈ σ.link.recv src σ.master.addr u v ∨
      u = σ.master.addr ∧ v = bsc.tail ∧ n = .extendServer src := by
  rw [ha.link, Links.mem_send] at hn
  exact hn.imp id fun hn => ⟨hn.1, by simpa using hn.2⟩

/-- Nothing but the order to the tail is new. -/
lemma mem_link_old {u v : Address} {n : Message} (hno : ∀ y, n ≠ .extendServer y) (hn : n ∈ σ'.link u v) :
    n ∈ σ.link u v := by
  rcases ha.mem_link hn with hn | ⟨-, -, heq⟩
  · exact Links.mem_of_mem_recv _ _ _ hn
  · exact absurd heq (hno src)

end Admitted

namespace Extending

variable {bsc : BankServerChain} {c : List Address}

/-- The only `JOIN` of the server has just been handled. -/
lemma fresh_admitted (h : Extending cfg σ) (ha : Admitted cfg b σ src bsc c σ') {j : Join}
    {rest : List Message} (head : σ.link src σ.master.addr = .join j :: rest) {u v : Address} {j' : Join}
    (hj : .join j' ∈ σ'.link u v) : ¬ σ'.Joining u := by
  intro hu
  rcases ha.mem_link hj with hj | ⟨-, -, heq⟩
  · have hold := Links.mem_of_mem_recv _ _ _ hj
    rcases ha.joining hu with hu | rfl
    · exact h.fresh u v j' hold hu
    · have hv : v = σ.master.addr := (h.fits u v _ hold).1.trans h.master.symm
      have honce := h.once u σ.master.addr
      rw [hv, Links.recv_self, head, List.tail_cons] at hj
      rw [head, List.countP_cons_of_pos rfl] at honce
      have hzero : rest.countP Message.isJoin = 0 := by omega
      exact absurd rfl (List.countP_eq_zero.mp hzero _ hj)
  · cases heq

/-- The record of the bank ends with the server that joins, and those of the other banks have not changed. -/
lemma record_admitted (h : Extending cfg σ) (ha : Admitted cfg b σ src bsc c σ') {b' : BankConfig}
    (hb' : b' ∈ cfg.banks) : ∃ bsc' c', σ'.master.bankServerChain.lookup b'.bankId = some bsc' ∧
      Recorded b' σ' bsc' c' := by
  rw [ha.master]
  by_cases hid : b'.bankId = b.bankId
  · obtain rfl : b' = b := List.inj_on_of_nodup_map cfg.bankIds_nodup hb' ha.bank hid
    obtain ⟨hchain, hlast, -, -⟩ := h.idle_of_fresh hb' ha.recorded ha.extend ha.asked ha.fresh
    refine ⟨_, c, AList.lookup_insert _, ha.recorded.sub, ?_, ?_, .extending ha.joiner rfl hlast⟩
    · rw [ha.crashed]
      exact ha.recorded.dead
    · have hhead := ha.recorded.head
      rw [hchain] at hhead
      have hnil : c ≠ [] := List.ne_nil_of_mem (List.mem_of_getLast? hlast)
      exact (List.head?_append_of_ne_nil _ hnil).trans hhead
  · obtain ⟨bsc', c', hlookup', hrec'⟩ := h.record b' hb'
    refine ⟨bsc', c', (AList.lookup_insert_ne hid).trans hlookup', hrec'.lasts ha.lasts ?_⟩
    exact fun y hy hyj => (ha.joiner_other hb' hid ⟨hy, hyj⟩).2

/-- The master lets a server in. -/
lemma of_admitted (h : Extending cfg σ) (ha : Admitted cfg b σ src bsc c σ') {j : Join} {rest : List Message}
    (head : σ.link src σ.master.addr = .join j :: rest) : Extending cfg σ' := by
  have hl := ha.lasts
  obtain ⟨-, hlast, -, -⟩ := h.idle_of_fresh ha.bank ha.recorded ha.extend ha.asked ha.fresh
  refine ⟨?_, ?_, ?_, ?_, ?_, ?_, ?_, ?_, ?_, ?_, ?_, ?_⟩
  · rw [ha.master]
    exact h.master
  · rw [ha.server]
    exact h.place
  · intro u v n hn
    rcases ha.mem_link hn with hn | ⟨rfl, rfl, rfl⟩
    · exact (h.fits u v n (Links.mem_of_mem_recv _ _ _ hn)).lasts hl
    · exact ⟨h.master, b, ha.bank, ha.recorded.sub.subset (List.mem_of_getLast? hlast),
        (ha.recorded.rear ha.bank hlast).lasts hl, ha.joiner⟩
  · intro y hy
    rcases ha.joining hy with hy | rfl
    · exact hl.asked y (h.asked y hy)
    · exact hl.asked y ha.asked
  · intro b' hb' y hy y' hy' hasked hasked'
    exact h.unique b' hb' y hy y' hy' (ha.asked_before hasked) (ha.asked_before hasked')
  · exact fun u v j' hj => h.fresh_admitted ha head hj
  · intro u v
    apply le_trans ?_ (h.once u v)
    rw [ha.link]
    apply joins_send (recv_sublist _ _ _ u v)
    intro p hp
    obtain rfl := by simpa using hp
    rfl
  · rw [ha.server]
    intro x hx
    obtain ⟨b', hb', hcase⟩ := h.tail x hx
    exact ⟨b', hb', hcase.imp (fun hx => ⟨hx.1, hx.2.lasts hl⟩) fun hx => hx.lasts hl⟩
  · rw [ha.server, ha.thread, ha.crashed]
    intro x hx t ht
    obtain ⟨b', hb', hmem, hrear, y, hy, hsucc⟩ := h.thread x hx t ht
    exact ⟨b', hb', hmem, hrear.lasts hl, y, hy.lasts hl, hsucc⟩
  · rw [ha.thread]
    exact h.noFin
  · exact fun b' hb' => h.record_admitted ha hb'
  · intro id bsc' hlookup'
    rw [ha.master] at hlookup'
    by_cases hid : id = b.bankId
    · exact ⟨b, ha.bank, hid.symm⟩
    · exact h.bank id bsc' ((AList.lookup_insert_ne hid).symm.trans hlookup')

/-- A server asks to join. -/
lemma join (h : Extending cfg σ) {s : Address} (hl : System.OneJoin cfg σ (.join s)) :
    Extending cfg (σ.emit s [.tcp σ.master.addr (.join
      { bankId := (σ.server s).bankId, serverAddr := (σ.server s).localAddr })]) := by
  obtain ⟨b, hb, hs, hnobody⟩ := hl
  obtain ⟨haddr, hid⟩ := h.place b hb s (List.mem_append_right _ hs)
  rw [haddr, hid]
  generalize hσ' : σ.emit s [.tcp σ.master.addr (.join { bankId := b.bankId, serverAddr := s })] = σ'
  have hserver : σ'.server = σ.server := by rw [← hσ']; rfl
  have hcrashed : σ'.crashed = σ.crashed := by rw [← hσ']; rfl
  have hthread : σ'.thread = σ.thread := by rw [← hσ']; rfl
  have hmaster : σ'.master = σ.master := by rw [← hσ']; rfl
  have htrace : σ'.trace = σ.trace ++
      [.sent s (.tcp σ.master.addr (.join { bankId := b.bankId, serverAddr := s }))] := by
    rw [← hσ']; rfl
  have hl : Lasts σ σ' := lasts_of_trace htrace (by rw [hcrashed]; exact fun _ hx => hx)
  have hjoining {y : Address} (hy : σ'.Joining y) : σ.Joining y :=
    (joining_append htrace hy).resolve_right (by simp [Event.announces])
  have hasked {y : Address} (hy : σ'.Asked y) : σ.Asked y ∨ y = s :=
    (asked_append htrace hy).imp id fun hy => (of_decide_eq_true hy).symm
  have hnew : σ'.Asked s := by
    refine ⟨.sent s (.tcp σ.master.addr (.join { bankId := b.bankId, serverAddr := s })), ?_,
      decide_eq_true rfl⟩
    rw [htrace]
    exact List.mem_append_right _ (List.mem_singleton_self _)
  have hlink {u v : Address} {n : Message} (hn : n ∈ σ'.link u v) : n ∈ σ.link u v ∨
      u = s ∧ v = σ.master.addr ∧ n = .join { bankId := b.bankId, serverAddr := s } := by
    rw [← hσ'] at hn
    simp only [System.emit, Links.mem_send] at hn
    exact hn.imp id fun hn => ⟨hn.1, by simpa using hn.2⟩
  have hfree : ∀ v, (σ.link s v).countP Message.isJoin = 0 := by
    intro v
    rw [List.countP_eq_zero]
    intro n hn hjoin
    cases n with
    | join j => exact hnobody s hs (h.fits s v _ hn).2.1
    | _ => cases hjoin
  refine ⟨?_, ?_, ?_, ?_, ?_, ?_, ?_, ?_, ?_, ?_, ?_, ?_⟩
  · rw [hmaster]
    exact h.master
  · rw [hserver]
    exact h.place
  · intro u v n hn
    rcases hlink hn with hn | ⟨rfl, rfl, rfl⟩
    · exact (h.fits u v n hn).lasts hl
    · exact ⟨h.master, hnew, b, hb, hs, rfl⟩
  · exact fun y hy => hl.asked y (h.asked y (hjoining hy))
  · intro b' hb' y hy y' hy' hya hya'
    have other {z : Address} (hz : z ∈ b'.extendServers) (hs' : s ∈ b'.extendServers)
        (hza : σ'.Asked z) : z = s := by
      obtain rfl := Config.bank_unique hb' hb (List.mem_append_right _ hs')
        (List.mem_append_right _ hs)
      exact (hasked hza).resolve_left (hnobody z hz)
    rcases hasked hya with hold | rfl
    · rcases hasked hya' with hold' | rfl
      · exact h.unique b' hb' y hy y' hy' hold hold'
      · exact other hy hy' hya
    · exact (other hy' hy hya').symm
  · intro u v j hj hu
    rcases hlink hj with hj | ⟨rfl, -, -⟩
    · exact h.fresh u v j hj (hjoining hu)
    · exact hnobody u hs (h.asked u (hjoining hu))
  · intro u v
    rw [← hσ']
    by_cases hu : u = s
    · subst hu
      simp only [System.emit, Links.send_self, List.countP_append, hfree, Nat.zero_add]
      exact List.countP_le_length.trans ((List.length_filterMap_le _ _).trans le_rfl)
    · simp only [System.emit, Links.send_of_ne _ _ _ hu]
      exact h.once u v
  · rw [hserver]
    intro x hx
    obtain ⟨b', hb', hcase⟩ := h.tail x hx
    exact ⟨b', hb', hcase.imp (fun hx => ⟨hx.1, hx.2.lasts hl⟩) fun hx => hx.lasts hl⟩
  · rw [hserver, hthread, hcrashed]
    intro x hx t ht
    obtain ⟨b', hb', hmem, hrear, y, hy, hsucc⟩ := h.thread x hx t ht
    exact ⟨b', hb', hmem, hrear.lasts hl, y, hy.lasts hl, hsucc⟩
  · rw [hthread]
    exact h.noFin
  · exact h.record_same hl (fun y => hjoining) (by rw [hmaster])
  · rw [hmaster]
    exact h.bank

/-! ### A server serves a message -/

section Serve

variable {L : Links Address Message} {out : List Packet} {τ : System} (h : Extending cfg σ)
  (taken : System.Taken σ x msg L) (hs : System.Serve σ x msg L out τ)
include h

include taken in
lemma taken_fits : (∃ src, msg ∈ σ.link src x ∧ JoinFits cfg σ src x msg) ∨
    ∃ req, msg = .request req := by
  rcases taken.origin with ⟨src, hm⟩ | ⟨req, rfl, -⟩
  · exact Or.inl ⟨src, hm, h.fits src x msg hm⟩
  · exact Or.inr ⟨req, rfl⟩

include taken in
/-- What a handler sends fits. -/
lemma sends_fits {t : Address} (hm : ChainServer.Sends σ.master.addr (σ.server x) msg t m) :
    m.isJoin = false ∧ (∀ y, m ≠ .extendServer y) ∧ JoinFits cfg σ x t m := by
  cases hm with
  | request => exact ⟨rfl, by simp, trivial⟩
  | acknowledge => exact ⟨rfl, by simp, trivial⟩
  | reply => exact ⟨rfl, by simp, trivial⟩
  | reqSeq asked succ =>
    subst asked
    refine ⟨rfl, by simp, ?_⟩
    rcases h.taken_fits taken with ⟨src, -, b, hb, hahead⟩ | ⟨req, hreq⟩
    · have hmem : x ∈ b.servers ++ b.extendServers := by
        rcases hahead with hahead | ⟨-, hjoiner⟩
        · exact List.mem_append_left _ hahead.right_mem
        · exact List.mem_append_right _ hjoiner.1
      rw [(h.place b hb x hmem).1] at succ
      rw [← succ] at hahead
      exact ⟨b, hb, hahead⟩
    · cases hreq
  | extendFinish asked =>
    subst asked
    refine ⟨rfl, by simp, ?_⟩
    rcases h.taken_fits taken with ⟨src, -, b, hb, -, hjoiner⟩ | ⟨req, hreq⟩
    · obtain ⟨haddr, hid⟩ := h.place b hb x (List.mem_append_right _ hjoiner.1)
      rw [haddr, hid]
      exact ⟨b, hb, rfl, hjoiner⟩
    · cases hreq

include hs in
omit h in
lemma serve_sends {p : Packet} (hp : p ∈ out) {t : Address} {m : Message}
    (hm : p.tcp? = some (t, m)) : ChainServer.Sends σ.master.addr (σ.server x) msg t m :=
  ChainServer.handleMsg_sends (hs.out_prefix.subset hp) hm

include taken hs in
lemma serve_settles : Settles σ (Event.handled x msg :: out.map (.sent x)) := by
  intro e he y
  rcases List.mem_cons.mp he with rfl | he
  · exact ⟨rfl, fun hy => by cases hy⟩
  · refine settles_sent (fun p hp t m heq => ?_) e he y
    subst heq
    obtain ⟨hjoin, hno, -⟩ := h.sends_fits taken (serve_sends hs hp rfl)
    exact ⟨hjoin, fun y hy => absurd hy (hno y)⟩

include taken hs in
lemma serve_link {u v : Address} (hm : m ∈ τ.link u v) :
    m ∈ σ.link u v ∨ u = x ∧ m.isJoin = false ∧ (∀ y, m ≠ .extendServer y) ∧
      JoinFits cfg σ x v m := by
  rcases hs.mem_link taken hm with hm | ⟨rfl, p, hp, htcp⟩
  · exact Or.inl hm
  · exact Or.inr ⟨rfl, h.sends_fits taken (serve_sends hs hp htcp)⟩

omit h in
include hs in
lemma serve_role : ChainServer.RoleChange (σ.server x) msg (τ.server x) := by
  rw [hs.server_self]
  exact ChainServer.handleMsg_roleChange _ _ _

/-- A server that becomes a tail has its place at the end of a chain. -/
lemma serve_tail (taken : System.Taken σ x msg L) (hs : System.Serve σ x msg L out τ)
    (htail : (τ.server y).istail = true) : ∃ b ∈ cfg.banks,
      y ∈ b.servers ∧ Rear cfg σ y ∨ Joiner b σ y := by
  by_cases hyx : y = x
  · subst hyx
    rcases (serve_role hs).tail.mp htail with htail | hgrants
    · exact h.tail y htail
    · rcases h.taken_fits taken with ⟨src, -, hfits⟩ | ⟨req, rfl⟩
      · cases msg with
        | toBeTail =>
          obtain ⟨-, b, hb, hmem, hrear⟩ := hfits
          exact ⟨b, hb, Or.inl ⟨hmem, hrear⟩⟩
        | extendFail =>
          obtain ⟨b, hb, hmem, hrear, -⟩ := hfits
          exact ⟨b, hb, Or.inl ⟨hmem, hrear⟩⟩
        | extendMsg e =>
          cases e with
          | fin =>
            obtain ⟨b, hb, -, hjoiner⟩ := hfits
            exact ⟨b, hb, Or.inr hjoiner⟩
          | _ => cases hgrants
        | _ => cases hgrants
      · cases hgrants
  · rw [hs.server_of_ne hyx] at htail
    exact h.tail y htail

/-- A server with an extension thread sends to the joining server, or to a crashed one. -/
lemma serve_thread (taken : System.Taken σ x msg L) (hs : System.Serve σ x msg L out τ)
    (hlive : τ.crashed y = false) {t : ExtendThread} (ht : t ∈ (τ.spawn x msg).thread y) :
    ∃ b ∈ cfg.banks, y ∈ b.servers ∧ Rear cfg σ y ∧ ∃ a, Joiner b σ a ∧
      ((τ.server y).succServerAddr = a ∨ σ.crashed (τ.server y).succServerAddr = true) := by
  rcases System.mem_spawn_thread τ x msg ht with ht | ⟨rfl, -, a, rfl⟩
  · rw [hs.thread] at ht
    obtain ⟨b, hb, hmem, hrear, a, ha, hsucc⟩ := h.thread y (hs.live_of_live hlive) t ht
    refine ⟨b, hb, hmem, hrear, ?_⟩
    by_cases hyx : y = x
    · subst hyx
      rcases (serve_role hs).succ with hsame | ⟨r, rfl, hr⟩ | hext
      · rw [hsame]
        exact ⟨a, ha, hsucc⟩
      · rcases h.taken_fits taken with ⟨src, -, b', hb', hahead⟩ | ⟨req, hreq⟩
        · rw [hr]
          rcases hahead with hahead | ⟨hmem', hjoiner⟩
          · exact ⟨a, ha, Or.inr (hrear b' hb' _ hahead)⟩
          · obtain rfl := Config.bank_unique_servers hb hb' hmem hmem'
            exact ⟨_, hjoiner, Or.inl rfl⟩
        · cases hreq
      · rcases h.taken_fits taken with ⟨src, -, hfits⟩ | ⟨req, hreq⟩
        · rw [hext] at hfits
          obtain ⟨-, b', hb', hmem', -, hjoiner⟩ := hfits
          obtain rfl := Config.bank_unique_servers hb hb' hmem hmem'
          exact ⟨_, hjoiner, Or.inl rfl⟩
        · rw [hext] at hreq
          cases hreq
    · rw [hs.server_of_ne hyx]
      exact ⟨a, ha, hsucc⟩
  · rcases h.taken_fits taken with ⟨src, -, -, b, hb, hmem, hrear, hjoiner⟩ | ⟨req, hreq⟩
    · obtain ⟨-, hok⟩ := hs.complete hlive
      refine ⟨b, hb, hmem, hrear, a, hjoiner, Or.inl ?_⟩
      rw [hs.server_self]
      simp only [ChainServer.handleMsg, ChainServer.receiveExtendServer] at hok ⊢
      split_ifs at hok ⊢
      · rfl
      · cases hok
    · cases hreq

include taken hs in
theorem serve : Extending cfg (τ.spawn x msg) := by
  have htrace : (τ.spawn x msg).trace = σ.trace ++ Event.handled x msg :: out.map (.sent x) := by
    rw [System.spawn_trace, hs.trace]
  have hsettles := h.serve_settles taken hs
  have hcrashed : ∀ y, σ.crashed y = true → (τ.spawn x msg).crashed y = true := by
    rw [System.spawn_crashed]
    exact fun y => hs.crashed_mono
  have hl := lasts_of_trace htrace hcrashed
  refine ⟨?_, ?_, ?_, ?_, ?_, ?_, ?_, ?_, ?_, ?_, ?_, ?_⟩
  · rw [System.spawn_master, hs.master]
    exact h.master
  · rw [System.spawn_server]
    intro b hb y hy
    by_cases hyx : y = x
    · subst hyx
      rw [(serve_role hs).localAddr, (serve_role hs).bankId]
      exact h.place b hb y hy
    · rw [hs.server_of_ne hyx]
      exact h.place b hb y hy
  · rw [System.spawn_link]
    intro u v m hm
    rcases h.serve_link taken hs hm with hm | ⟨rfl, -, -, hfits⟩
    · exact (h.fits u v m hm).lasts hl
    · exact hfits.lasts hl
  · exact fun y hy => hl.asked y (h.asked y (hsettles.joining htrace hy))
  · intro b hb y hy y' hy' hasked hasked'
    exact h.unique b hb y hy y' hy' (hsettles.asked htrace hasked) (hsettles.asked htrace hasked')
  · rw [System.spawn_link]
    intro u v j hj hu
    rcases h.serve_link taken hs hj with hj | ⟨-, hno, -⟩
    · exact h.fresh u v j hj (hsettles.joining htrace hu)
    · cases hno
  · rw [System.spawn_link]
    intro u v
    apply le_trans ?_ (h.once u v)
    rw [hs.link]
    apply joins_send
    · cases taken with
      | client => exact .refl _
      | link => exact recv_sublist _ _ _ _ _
    · intro p hp
      obtain ⟨q, hq, htcp⟩ := List.mem_filterMap.mp hp
      exact (h.sends_fits taken (serve_sends hs hq htcp)).1
  · rw [System.spawn_server]
    intro y hy
    obtain ⟨b, hb, hcase⟩ := h.serve_tail taken hs hy
    exact ⟨b, hb, hcase.imp (fun hy => ⟨hy.1, hy.2.lasts hl⟩) fun hy => hy.lasts hl⟩
  · rw [System.spawn_server, System.spawn_crashed]
    intro y hy t ht
    obtain ⟨b, hb, hmem, hrear, a, ha, hsucc⟩ := h.serve_thread taken hs hy ht
    exact ⟨b, hb, hmem, hrear.lasts hl, a, ha.lasts hl,
      hsucc.imp id fun hdead => hs.crashed_mono hdead⟩
  · intro y ms hms
    rcases System.mem_spawn_thread τ x msg hms with hms | ⟨-, heq, -⟩
    · rw [hs.thread] at hms
      exact h.noFin y ms hms
    · cases heq
  · apply h.record_same hl (fun y => hsettles.joining htrace)
    rw [System.spawn_master, hs.master]
  · rw [System.spawn_master, hs.master]
    exact h.bank

end Serve

/-! ### Runs -/

theorem step (h : Extending cfg σ) (hl : System.OneJoin cfg σ l) (hs : σ.step l = some σ') :
    Extending cfg σ' := by
  cases System.join_cases hs with
  | serve taken serve => exact h.serve taken serve
  | crash => exact h.kill _
  | @master src msg rest k m out live head handled =>
    cases msg with
    | reqSeq r =>
      obtain ⟨rfl, rfl⟩ := Prod.mk.inj (Option.some.inj handled)
      exact h.relink head
    | join j =>
      obtain ⟨b, bsc, c, ha⟩ := h.admitted head handled
      exact h.of_admitted ha head
    | extendFinish f => exact h.extendFinish head handled
    | _ =>
      obtain ⟨rfl, rfl⟩ := Prod.mk.inj (Option.some.inj handled)
      exact (h.drop src σ.master.addr).emit σ.master.addr (by simp) (by simp)
  | refuse => exact (h.drop _ _).kill _
  | detect live dead lookup mem case => exact h.detect dead lookup mem case
  | join => exact h.join hl
  | @snapshot s i accounts processed live spawned =>
    apply h.threads
    intro t ht
    rcases List.mem_or_eq_of_mem_set ht with ht | rfl
    · exact Or.inl ht
    · refine Or.inr ⟨⟨_, List.mem_of_getElem? spawned⟩, fun ms heq => ?_⟩
      obtain rfl := ExtendThread.sending.inj heq
      exact fin_notMem_snapshotMsgs _ _ _
  | giveUp => exact h.threads _ fun t ht => Or.inl (List.mem_of_mem_eraseIdx ht)
  | extendSend live sending => exact h.extendSend sending
  | @finish s i k out _ live sending block complete =>
    have hfinish : Extending cfg (σ.finish s i out) :=
      h.finish live (List.mem_of_getElem? sending) block
    rcases complete with rfl | rfl
    · exact hfinish
    · exact hfinish.kill _

theorem reach {ok : System → Label → Prop} (hok : ∀ σ l, ok σ l → System.OneJoin cfg σ l)
    (hrun : Machine.Reach System.step ok cfg.init σ) : Extending cfg σ :=
  hrun.invariant (Extending.init cfg) fun σ l _ h hl hs => h.step (hok σ l hl) hs

end Extending

end ChainReplication
