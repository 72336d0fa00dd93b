import ChainReplication.System.Joins
import ChainReplication.System.Topology

/-!
# The chains while servers join

The shape of the chains in runs in which every bank is joined by one server: who may be told to act
as the tail, where extension threads send, and which part of the master's record is the old chain.
-/

namespace ChainReplication

open scoped List

/-- A `JOIN`. -/
def Message.isJoin : Message → Bool
  | .join _ => true
  | _ => false

/-- The server `y` joins the bank `b`. -/
def Joiner (b : BankConfig) (σ : System) (y : Address) : Prop := y ∈ b.extendServers ∧ σ.Joining y

/-- `x` stands before `y` in the chain of `b`, whose last server is the one that joins. -/
def Ahead (b : BankConfig) (σ : System) (x y : Address) : Prop :=
  b.servers.Precedes x y ∨ x ∈ b.servers ∧ Joiner b σ y

/-- A message in flight from `src` to `dst` says what is true of the chains. -/
def JoinFits (cfg : Config) (σ : System) (src dst : Address) : Message → Prop
  | .toBeTail => src = cfg.master ∧ ∃ b ∈ cfg.banks, dst ∈ b.servers ∧ Rear cfg σ dst
  | .extendFail => ∃ b ∈ cfg.banks, dst ∈ b.servers ∧ Rear cfg σ dst ∧
      ∃ y, Joiner b σ y ∧ σ.crashed y = true
  | .extendServer a => src = cfg.master ∧
      ∃ b ∈ cfg.banks, dst ∈ b.servers ∧ Rear cfg σ dst ∧ Joiner b σ a
  | .extendMsg .fin => ∃ b ∈ cfg.banks, src ∈ b.servers ∧ Joiner b σ dst
  | .newPreServer pre => ∃ b ∈ cfg.banks, Ahead b σ pre dst
  | .newSuccServer r => ∃ b ∈ cfg.banks, Ahead b σ dst r.succAddr
  | .reqSeq r => ∃ b ∈ cfg.banks, Ahead b σ r.preAddr r.succAddr
  | .join j => dst = cfg.master ∧ σ.Asked src ∧
      ∃ b ∈ cfg.banks, src ∈ b.extendServers ∧ j = { bankId := b.bankId, serverAddr := src }
  | .extendFinish f => ∃ b ∈ cfg.banks, f.bankId = b.bankId ∧ Joiner b σ f.serverAddr
  | _ => True

/-- How far the extension of the chain has come in the master's record. `c` is what is left of the
old chain. -/
inductive Phase (b : BankConfig) (σ : System) (bsc : BankServerChain) (c : List Address) : Prop where
  | idle (nobody : ∀ y, ¬ Joiner b σ y) (chain : bsc.serverChain = c)
      (last : c.getLast? = some bsc.tail) (extending : bsc.extending = .empty)
  | extending (joiner : Joiner b σ bsc.extending) (chain : bsc.serverChain = c ++ [bsc.extending])
      (last : c.getLast? = some bsc.tail)
  | joined (joiner : Joiner b σ bsc.tail) (chain : bsc.serverChain = c ++ [bsc.tail])
      (extending : bsc.extending = .empty)
  | gone {y} (joiner : Joiner b σ y) (dead : σ.crashed y = true) (chain : bsc.serverChain = c)
      (last : c.getLast? = some bsc.tail ∨ bsc.tail = y) (extending : bsc.extending = .empty)

/-- The master's record of the bank `b`. -/
structure Recorded (b : BankConfig) (σ : System) (bsc : BankServerChain) (c : List Address) :
    Prop where
  sub : c <+ b.servers
  dead : ∀ z ∈ b.servers, z ∉ c → σ.crashed z = true
  head : bsc.serverChain.head? = some bsc.head
  phase : Phase b σ bsc c

/-- The invariant of the systems in which every bank is joined by one server. -/
structure Extending (cfg : Config) (σ : System) : Prop where
  master : σ.master.addr = cfg.master
  place : ∀ b ∈ cfg.banks, ∀ x ∈ b.servers ++ b.extendServers,
    (σ.server x).localAddr = x ∧ (σ.server x).bankId = b.bankId
  fits : ∀ x y, ∀ m ∈ σ.link x y, JoinFits cfg σ x y m
  asked : ∀ y, σ.Joining y → σ.Asked y
  unique : ∀ b ∈ cfg.banks, ∀ y ∈ b.extendServers, ∀ y' ∈ b.extendServers,
    σ.Asked y → σ.Asked y' → y = y'
  fresh : ∀ x y j, .join j ∈ σ.link x y → ¬ σ.Joining x
  once : ∀ x y, (σ.link x y).countP Message.isJoin ≤ 1
  tail : ∀ x, (σ.server x).istail = true → ∃ b ∈ cfg.banks,
    x ∈ b.servers ∧ Rear cfg σ x ∨ Joiner b σ x
  thread : ∀ x, σ.crashed x = false → ∀ t ∈ σ.thread x, ∃ b ∈ cfg.banks,
    x ∈ b.servers ∧ Rear cfg σ x ∧ ∃ y, Joiner b σ y ∧
      ((σ.server x).succServerAddr = y ∨ σ.crashed (σ.server x).succServerAddr = true)
  noFin : ∀ x ms, .sending ms ∈ σ.thread x → .fin ∉ ms
  record : ∀ b ∈ cfg.banks, ∃ bsc c, σ.master.bankServerChain.lookup b.bankId = some bsc ∧
    Recorded b σ bsc c
  bank : ∀ id bsc, σ.master.bankServerChain.lookup id = some bsc → ∃ b ∈ cfg.banks, b.bankId = id

variable {cfg : Config} {b : BankConfig} {σ σ' : System} {l : Label} {x y z src dst : Address}
  {msg m : Message}

/-! ### What lasts -/

/-- Crashed servers stay crashed, and nobody who has asked or been let in is forgotten. -/
structure Lasts (σ σ' : System) : Prop where
  crashed : ∀ x, σ.crashed x = true → σ'.crashed x = true
  asked : ∀ y, σ.Asked y → σ'.Asked y
  joining : ∀ y, σ.Joining y → σ'.Joining y

lemma Rear.lasts (h : Rear cfg σ x) (hl : Lasts σ σ') : Rear cfg σ' x :=
  fun b hb z hz => hl.crashed z (h b hb z hz)

lemma Joiner.lasts (h : Joiner b σ y) (hl : Lasts σ σ') : Joiner b σ' y := ⟨h.1, hl.joining y h.2⟩

lemma Ahead.lasts (h : Ahead b σ x y) (hl : Lasts σ σ') : Ahead b σ' x y :=
  h.imp id fun h => ⟨h.1, h.2.lasts hl⟩

lemma JoinFits.lasts (h : JoinFits cfg σ src dst m) (hl : Lasts σ σ') :
    JoinFits cfg σ' src dst m := by
  cases m with
  | toBeTail =>
    obtain ⟨hsrc, b, hb, hdst, hrear⟩ := h
    exact ⟨hsrc, b, hb, hdst, hrear.lasts hl⟩
  | extendFail =>
    obtain ⟨b, hb, hdst, hrear, y, hy, hdead⟩ := h
    exact ⟨b, hb, hdst, hrear.lasts hl, y, hy.lasts hl, hl.crashed y hdead⟩
  | extendServer a =>
    obtain ⟨hsrc, b, hb, hdst, hrear, ha⟩ := h
    exact ⟨hsrc, b, hb, hdst, hrear.lasts hl, ha.lasts hl⟩
  | extendMsg e =>
    cases e with
    | fin =>
      obtain ⟨b, hb, hsrc, hdst⟩ := h
      exact ⟨b, hb, hsrc, hdst.lasts hl⟩
    | _ => trivial
  | newPreServer p =>
    obtain ⟨b, hb, hahead⟩ := h
    exact ⟨b, hb, hahead.lasts hl⟩
  | newSuccServer r =>
    obtain ⟨b, hb, hahead⟩ := h
    exact ⟨b, hb, hahead.lasts hl⟩
  | reqSeq r =>
    obtain ⟨b, hb, hahead⟩ := h
    exact ⟨b, hb, hahead.lasts hl⟩
  | join j => exact ⟨h.1, hl.asked _ h.2.1, h.2.2⟩
  | extendFinish f =>
    obtain ⟨b, hb, hid, hf⟩ := h
    exact ⟨b, hb, hid, hf.lasts hl⟩
  | _ => trivial

/-- The record stays right when nobody new joins. -/
lemma Recorded.lasts {bsc : BankServerChain} {c : List Address} (h : Recorded b σ bsc c)
    (hl : Lasts σ σ') (hjoining : ∀ y ∈ b.extendServers, σ'.Joining y → σ.Joining y) :
    Recorded b σ' bsc c := by
  refine ⟨h.sub, fun z hz hnot => hl.crashed z (h.dead z hz hnot), h.head, ?_⟩
  cases h.phase with
  | idle nobody chain last extending =>
    exact .idle (fun y hy => nobody y ⟨hy.1, hjoining y hy.1 hy.2⟩) chain last extending
  | extending joiner chain last => exact .extending (joiner.lasts hl) chain last
  | joined joiner chain extending => exact .joined (joiner.lasts hl) chain extending
  | gone joiner dead chain last extending =>
    exact .gone (joiner.lasts hl) (hl.crashed _ dead) chain last extending

/-- The last server of what is left of the old chain has only crashed servers behind it. -/
lemma Recorded.rear {bsc : BankServerChain} {c : List Address} (h : Recorded b σ bsc c)
    (hb : b ∈ cfg.banks) (hlast : c.getLast? = some x) : Rear cfg σ x := by
  intro b' hb' z hz
  have hx := h.sub.subset (List.mem_of_getLast? hlast)
  obtain rfl := Config.bank_unique_servers hb hb' hx hz.left_mem
  by_contra hlive
  have hmem : z ∈ c := by
    by_contra hnot
    exact hlive (h.dead z hz.right_mem hnot)
  have hnodup := Config.servers_nodup hb
  have hxz := hz.restrict hnodup h.sub (List.mem_of_getLast? hlast) hmem
  exact List.not_precedes_getLast (hnodup.sublist h.sub) hlast hxz

namespace Extending

/-! ### The initial state -/

theorem init (cfg : Config) : Extending cfg cfg.init where
  master := rfl
  place b hb x hx := by
    have hserver : cfg.init.server x = cfg.initServer x := rfl
    rw [hserver, Config.initServer]
    cases hbank : cfg.bankOf x with
    | none =>
      have hnone := List.find?_eq_none.mp hbank b hb
      rw [decide_eq_true_eq] at hnone
      exact absurd hx hnone
    | some b' =>
      obtain ⟨hb', hx'⟩ := Config.of_bankOf hbank
      obtain rfl := Config.bank_unique hb hb' hx hx'
      exact ⟨rfl, rfl⟩
  fits x y m hm := by simp [Config.init] at hm
  asked y hy := by
    obtain ⟨e, he, -⟩ := hy
    simp [Config.init] at he
  unique b hb y hy y' hy' hasked := by
    obtain ⟨e, he, -⟩ := hasked
    simp [Config.init] at he
  fresh x y j hj := by simp [Config.init] at hj
  once x y := Nat.zero_le 1
  tail x := Config.initServer_cases (P := fun s => s.istail = true → ∃ b ∈ cfg.banks,
    x ∈ b.servers ∧ Rear cfg cfg.init x ∨ Joiner b cfg.init x) x (by simp) fun b hb ha htail => by
      have htail : b.servers.getLast? = some x := by simpa using htail
      refine ⟨b, hb, Or.inl ⟨List.mem_of_getLast? htail, fun b' hb' z hz => ?_⟩⟩
      obtain rfl := Config.bank_unique_servers hb hb' (List.mem_of_getLast? htail) hz.left_mem
      exact absurd hz (List.not_precedes_getLast (Config.servers_nodup hb) htail)
  thread x _ t ht := by simp [Config.init] at ht
  noFin x ms hms := by simp [Config.init] at hms
  record b hb := by
    have hwf := Config.init_record_wf hb
    refine ⟨_, b.servers, Config.initMaster_lookup hb, .refl _, fun z hz hnot => absurd hz hnot,
      hwf.head, .idle ?_ rfl hwf.tail rfl⟩
    rintro y ⟨-, e, he, -⟩
    simp [Config.init] at he
  bank id bsc hlookup := by
    obtain ⟨b, hb, hid, -⟩ := Config.of_initMaster_lookup hlookup
    exact ⟨b, hb, hid⟩

/-! ### Steps in which nobody joins -/

/-- What a packet list may do to the bookkeeping of joins: no `JOIN`, and no new joining server. -/
def Settles (σ : System) (evs : List Event) : Prop :=
  ∀ e ∈ evs, ∀ y, e.asksFor y = false ∧ (e.announces y = true → σ.Joining y)

lemma lasts_of_trace {evs : List Event} (trace : σ'.trace = σ.trace ++ evs)
    (crashed : ∀ x, σ.crashed x = true → σ'.crashed x = true) : Lasts σ σ' := by
  refine ⟨crashed, fun y hy => ?_, fun y hy => ?_⟩
  · obtain ⟨e, he, hy⟩ := hy
    exact ⟨e, by rw [trace]; exact List.mem_append_left _ he, hy⟩
  · obtain ⟨e, he, hy⟩ := hy
    exact ⟨e, by rw [trace]; exact List.mem_append_left _ he, hy⟩

lemma Settles.asked {evs : List Event} (h : Settles σ evs) (trace : σ'.trace = σ.trace ++ evs)
    (hy : σ'.Asked y) : σ.Asked y := by
  obtain ⟨e, he, hy⟩ := hy
  rw [trace, List.mem_append] at he
  rcases he with he | he
  · exact ⟨e, he, hy⟩
  · rw [(h e he y).1] at hy
    cases hy

lemma Settles.joining {evs : List Event} (h : Settles σ evs) (trace : σ'.trace = σ.trace ++ evs)
    (hy : σ'.Joining y) : σ.Joining y := by
  obtain ⟨e, he, hy⟩ := hy
  rw [trace, List.mem_append] at he
  rcases he with he | he
  · exact ⟨e, he, hy⟩
  · exact (h e he y).2 hy

lemma settles_nil : Settles σ [] := by simp [Settles]

lemma settles_sent {a : Address} {out : List Packet}
    (h : ∀ p ∈ out, ∀ t m, p = .tcp t m → m.isJoin = false ∧
      ∀ y, m = .extendServer y → σ.Joining y) : Settles σ (out.map (.sent a)) := by
  intro e he y
  obtain ⟨p, hp, rfl⟩ := List.mem_map.mp he
  cases p with
  | tcp t m =>
    obtain ⟨hjoin, hjoining⟩ := h _ hp t m rfl
    cases m with
    | join j => cases hjoin
    | extendServer a =>
      refine ⟨rfl, fun ha => hjoining y ?_⟩
      rw [of_decide_eq_true ha]
    | _ => exact ⟨rfl, fun ha => by cases ha⟩
  | _ => exact ⟨rfl, fun ha => by cases ha⟩

lemma joins_append {l l' : List Message} (h : ∀ m ∈ l', m.isJoin = false) :
    (l ++ l').countP Message.isJoin = l.countP Message.isJoin := by
  have hzero : l'.countP Message.isJoin = 0 :=
    List.countP_eq_zero.mpr fun m hm => by simp [h m hm]
  rw [List.countP_append, hzero, Nat.add_zero]

/-- The packets of one process on one link. -/
lemma joins_send {L : Links Address Message} {a : Address} {ps : List (Address × Message)}
    (hL : L x y <+ σ.link x y) (h : ∀ p ∈ ps, p.2.isJoin = false) :
    (L.send a ps x y).countP Message.isJoin ≤ (σ.link x y).countP Message.isJoin := by
  refine le_trans (le_of_eq ?_) hL.countP_le
  by_cases hx : x = a
  · subst hx
    rw [Links.send_self]
    apply joins_append
    intro m hm
    obtain ⟨p, hp, heq⟩ := List.mem_filterMap.mp hm
    simp only [Option.ite_none_right_eq_some, Option.some.injEq] at heq
    rw [← heq.2]
    exact h p hp
  · rw [Links.send_of_ne _ _ _ hx]

lemma recv_sublist (L : Links Address Message) (src dst x y : Address) :
    L.recv src dst x y <+ L x y := by
  unfold Links.recv
  split_ifs
  · exact List.tail_sublist _
  · exact .refl _

/-- A server keeps its place and its successor, and does not become a tail. -/
structure Keeps (s s' : ChainServer) : Prop where
  tail : s'.istail = true → s.istail = true
  localAddr : s'.localAddr = s.localAddr
  bankId : s'.bankId = s.bankId
  succ : s'.succServerAddr = s.succServerAddr

lemma keeps_refl (s : ChainServer) : Keeps s s := ⟨id, rfl, rfl, rfl⟩

/-- Steps that start no thread and let nobody in. -/
lemma frame (h : Extending cfg σ) {evs : List Event} (server : ∀ x, Keeps (σ.server x) (σ'.server x))
    (crashed : ∀ x, σ.crashed x = true → σ'.crashed x = true)
    (trace : σ'.trace = σ.trace ++ evs) (settles : Settles σ evs)
    (thread : ∀ x, ∀ t ∈ σ'.thread x, t ∈ σ.thread x ∨
      (∃ t', t' ∈ σ.thread x) ∧ ∀ ms, t = .sending ms → .fin ∉ ms)
    (link : ∀ x y, ∀ m ∈ σ'.link x y, m ∈ σ.link x y ∨ m.isJoin = false ∧ JoinFits cfg σ' x y m)
    (once : ∀ x y, (σ'.link x y).countP Message.isJoin ≤ (σ.link x y).countP Message.isJoin)
    (master : σ'.master.addr = σ.master.addr)
    (record : ∀ b ∈ cfg.banks, ∃ bsc c, σ'.master.bankServerChain.lookup b.bankId = some bsc ∧
      Recorded b σ' bsc c)
    (bank : ∀ id bsc, σ'.master.bankServerChain.lookup id = some bsc →
      ∃ b ∈ cfg.banks, b.bankId = id) : Extending cfg σ' := by
  have hl := lasts_of_trace trace crashed
  have live (x : Address) (hx : σ'.crashed x = false) : σ.crashed x = false := by
    by_contra hdead
    rw [crashed x (by simpa using hdead)] at hx
    cases hx
  refine ⟨master.trans h.master, ?_, ?_, ?_, ?_, ?_, ?_, ?_, ?_, ?_, record, bank⟩
  · intro b hb x hx
    rw [(server x).localAddr, (server x).bankId]
    exact h.place b hb x hx
  · intro x y m hm
    rcases link x y m hm with hm | ⟨-, hfits⟩
    · exact (h.fits x y m hm).lasts hl
    · exact hfits
  · exact fun y hy => hl.asked y (h.asked y (settles.joining trace hy))
  · intro b hb y hy y' hy' hasked hasked'
    exact h.unique b hb y hy y' hy' (settles.asked trace hasked) (settles.asked trace hasked')
  · intro x y j hj hjoining
    rcases link x y _ hj with hj | ⟨hno, -⟩
    · exact h.fresh x y j hj (settles.joining trace hjoining)
    · cases hno
  · exact fun x y => (once x y).trans (h.once x y)
  · intro x hx
    obtain ⟨b, hb, hcase⟩ := h.tail x ((server x).tail hx)
    exact ⟨b, hb, hcase.imp (fun hx => ⟨hx.1, hx.2.lasts hl⟩) fun hx => hx.lasts hl⟩
  · intro x hx t ht
    obtain ⟨t', ht'⟩ : ∃ t', t' ∈ σ.thread x := by
      rcases thread x t ht with ht | ⟨ht, -⟩
      · exact ⟨t, ht⟩
      · exact ht
    obtain ⟨b, hb, hmem, hrear, y, hy, hsucc⟩ := h.thread x (live x hx) t' ht'
    refine ⟨b, hb, hmem, hrear.lasts hl, y, hy.lasts hl, ?_⟩
    rw [(server x).succ]
    exact hsucc.imp id (hl.crashed _)
  · intro x ms hms
    rcases thread x _ hms with hms | ⟨-, hno⟩
    · exact h.noFin x ms hms
    · exact hno ms rfl

/-- The records when the master has not changed them. -/
lemma record_same (h : Extending cfg σ) (hl : Lasts σ σ')
    (joining : ∀ y, σ'.Joining y → σ.Joining y)
    (master : σ'.master.bankServerChain = σ.master.bankServerChain) :
    ∀ b ∈ cfg.banks, ∃ bsc c, σ'.master.bankServerChain.lookup b.bankId = some bsc ∧
      Recorded b σ' bsc c := by
  intro b hb
  obtain ⟨bsc, c, hlookup, hrec⟩ := h.record b hb
  rw [master]
  exact ⟨bsc, c, hlookup, hrec.lasts hl fun y _ => joining y⟩

lemma kill (h : Extending cfg σ) (x : Address) : Extending cfg (σ.kill x) := by
  have htrace : (σ.kill x).trace = σ.trace ++ [] := (List.append_nil _).symm
  have hcrashed : ∀ y, σ.crashed y = true → (σ.kill x).crashed y = true := by
    intro y hy
    by_cases hyx : y = x
    · simp [System.kill, hyx]
    · simpa [System.kill, hyx] using hy
  have hl := lasts_of_trace htrace hcrashed
  exact h.frame (fun y => keeps_refl _) hcrashed htrace settles_nil (fun _ _ ht => Or.inl ht)
    (fun _ _ _ hm => Or.inl hm) (fun _ _ => le_rfl) rfl
    (h.record_same hl (fun y hy => hy) rfl) h.bank

/-- A message leaves its link, and nothing else happens. -/
lemma drop (h : Extending cfg σ) (src dst : Address) :
    Extending cfg { σ with link := σ.link.recv src dst } := by
  have htrace : ({ σ with link := σ.link.recv src dst } : System).trace = σ.trace ++ [] :=
    (List.append_nil _).symm
  have hl := lasts_of_trace htrace fun _ hx => hx
  exact h.frame (fun y => keeps_refl _) (fun _ hx => hx) htrace settles_nil
    (fun _ _ ht => Or.inl ht) (fun _ _ _ hm => Or.inl (Links.mem_of_mem_recv _ _ _ hm))
    (fun x y => (recv_sublist _ _ _ x y).countP_le) rfl
    (h.record_same hl (fun y hy => hy) rfl) h.bank

/-- Threads end, or go on with what they have left to send. -/
lemma threads (h : Extending cfg σ) (s : Address) {ts : List ExtendThread}
    (hts : ∀ t ∈ ts, t ∈ σ.thread s ∨
      (∃ t', t' ∈ σ.thread s) ∧ ∀ ms, t = .sending ms → .fin ∉ ms) :
    Extending cfg (σ.setThreads s ts) := by
  have htrace : (σ.setThreads s ts).trace = σ.trace ++ [] := (List.append_nil _).symm
  have hl := @lasts_of_trace σ (σ.setThreads s ts) _ htrace fun _ hx => hx
  refine h.frame (fun y => keeps_refl _) (fun _ hx => hx) htrace settles_nil ?_
    (fun _ _ _ hm => Or.inl hm) (fun _ _ => le_rfl) rfl
    (h.record_same hl (fun y hy => hy) rfl) h.bank
  intro x t ht
  simp only [System.setThreads] at ht
  by_cases hxs : x = s
  · subst hxs
    rw [Function.update_self] at ht
    exact hts t ht
  · rw [Function.update_of_ne hxs] at ht
    exact Or.inl ht

lemma fin_notMem_snapshotMsgs (s : ChainServer) (accounts : List (String × ℚ))
    (processed : List Request) : .fin ∉ s.snapshotMsgs accounts processed := by
  simp [ChainServer.snapshotMsgs]

/-- A process sends packets that fit. -/
lemma emit (h : Extending cfg σ) (a : Address) {out : List Packet}
    (hout : ∀ p ∈ out, ∀ t m, p = .tcp t m → m.isJoin = false ∧
      ∀ y, m = .extendServer y → σ.Joining y)
    (hfits : ∀ p ∈ out, ∀ t m, p.tcp? = some (t, m) → m.isJoin = false ∧ JoinFits cfg σ a t m) :
    Extending cfg (σ.emit a out) := by
  have htrace : (σ.emit a out).trace = σ.trace ++ out.map (.sent a) := rfl
  have hsettles : Settles σ (out.map (.sent a)) := settles_sent hout
  have hl := @lasts_of_trace σ (σ.emit a out) _ htrace fun _ hx => hx
  refine h.frame (fun y => keeps_refl _) (fun _ hx => hx) htrace hsettles
    (fun _ _ ht => Or.inl ht) ?_ ?_ rfl
    (h.record_same hl (fun y hy => hsettles.joining htrace hy) rfl) h.bank
  · intro x y m hm
    simp only [System.emit, Links.mem_send] at hm
    rcases hm with hm | ⟨rfl, hm⟩
    · exact Or.inl hm
    · obtain ⟨p, hp, htcp⟩ := List.mem_filterMap.mp hm
      obtain ⟨hno, hm⟩ := hfits p hp y m htcp
      exact Or.inr ⟨hno, hm.lasts hl⟩
  · intro x y
    refine joins_send (.refl _) fun p hp => ?_
    obtain ⟨q, hq, htcp⟩ := List.mem_filterMap.mp hp
    exact (hfits q hq p.1 p.2 htcp).1

/-- A server changes without a new role or a new successor. -/
lemma setServer (h : Extending cfg σ) (s : Address) {S : ChainServer} (hS : Keeps (σ.server s) S) :
    Extending cfg { σ with server := Function.update σ.server s S } := by
  have htrace : ({ σ with server := Function.update σ.server s S } : System).trace =
      σ.trace ++ [] := (List.append_nil _).symm
  have hl := lasts_of_trace htrace fun _ hx => hx
  refine h.frame (fun y => ?_) (fun _ hx => hx) htrace settles_nil (fun _ _ ht => Or.inl ht)
    (fun _ _ _ hm => Or.inl hm) (fun _ _ => le_rfl) rfl
    (h.record_same hl (fun y hy => hy) rfl) h.bank
  by_cases hys : y = s
  · subst hys
    simp only [Function.update_self]
    exact hS
  · simp only [Function.update_of_ne hys]
    exact keeps_refl _

/-- The master changes the record of one bank. -/
lemma setChain (h : Extending cfg σ) (hb : b ∈ cfg.banks) {bsc : BankServerChain} {c : List Address}
    (hrec : Recorded b σ bsc c) :
    Extending cfg { σ with master := σ.master.setChain b.bankId bsc } := by
  have htrace : ({ σ with master := σ.master.setChain b.bankId bsc } : System).trace =
      σ.trace ++ [] := (List.append_nil _).symm
  have hl := lasts_of_trace htrace fun _ hx => hx
  refine h.frame (fun y => keeps_refl _) (fun _ hx => hx) htrace settles_nil
    (fun _ _ ht => Or.inl ht) (fun _ _ _ hm => Or.inl hm) (fun _ _ => le_rfl) rfl ?_ ?_
  · intro b' hb'
    by_cases hid : b'.bankId = b.bankId
    · obtain rfl : b' = b := List.inj_on_of_nodup_map cfg.bankIds_nodup hb' hb hid
      exact ⟨bsc, c, AList.lookup_insert _, hrec.lasts hl fun y _ hy => hy⟩
    · obtain ⟨bsc', c', hlookup, hrec'⟩ := h.record b' hb'
      exact ⟨bsc', c', (AList.lookup_insert_ne hid).trans hlookup, hrec'.lasts hl fun y _ hy => hy⟩
  · intro id bsc' hlookup
    by_cases hid : id = b.bankId
    · exact ⟨b, hb, hid.symm⟩
    · exact h.bank id bsc' ((AList.lookup_insert_ne hid).symm.trans hlookup)

lemma joiner_unique (h : Extending cfg σ) (hb : b ∈ cfg.banks) (hy : Joiner b σ y)
    (hz : Joiner b σ z) : y = z :=
  h.unique b hb y hy.1 z hz.1 (h.asked y hy.2) (h.asked z hz.2)

/-! ### Extension threads -/

lemma extendSend (h : Extending cfg σ) {s : Address} {i : ℕ} {e : ExtendMsg} {ms : List ExtendMsg}
    (hsending : (σ.thread s)[i]? = some (.sending (e :: ms))) :
    Extending cfg ((σ.emit s [.tcp (σ.server s).succServerAddr (.extendMsg e)]).setThreads s
      ((σ.thread s).set i (.sending ms))) := by
  have hmem := List.mem_of_getElem? hsending
  have hno := h.noFin s _ hmem
  have hemit : Extending cfg (σ.emit s [.tcp (σ.server s).succServerAddr (.extendMsg e)]) := by
    apply h.emit
    · intro p hp t m heq
      obtain rfl := List.mem_singleton.mp hp
      obtain ⟨-, rfl⟩ := Packet.tcp.inj heq
      exact ⟨rfl, by simp⟩
    · intro p hp t m htcp
      obtain rfl := List.mem_singleton.mp hp
      simp only [Packet.tcp?_tcp, Option.some.injEq, Prod.mk.injEq] at htcp
      obtain ⟨-, rfl⟩ := htcp
      refine ⟨rfl, ?_⟩
      cases e with
      | fin => exact absurd List.mem_cons_self hno
      | _ => trivial
  apply hemit.threads
  intro t ht
  rcases List.mem_or_eq_of_mem_set ht with ht | rfl
  · exact Or.inl ht
  · refine Or.inr ⟨⟨_, hmem⟩, fun ms' heq => ?_⟩
    obtain rfl := ExtendThread.sending.inj heq
    exact fun hin => hno (List.mem_cons_of_mem _ hin)

/-- What the last block of a thread sends goes to the joining server. -/
lemma mem_extendBlock (h : Extending cfg σ) {s : Address} (hlive : σ.crashed s = false)
    {t : ExtendThread} (ht : t ∈ σ.thread s) {p : Packet} (hp : p ∈ (σ.extendBlock s).out) :
    ∃ b ∈ cfg.banks, s ∈ b.servers ∧ Joiner b σ (σ.server s).succServerAddr ∧
      ∃ e, p = .tcp (σ.server s).succServerAddr (.extendMsg e) := by
  obtain ⟨b, hb, hmem, -, y, hy, hsucc⟩ := h.thread s hlive t ht
  simp only [System.extendBlock] at hp
  split_ifs at hp with hdead
  · cases hp
  · obtain ⟨e, -, rfl⟩ := List.mem_map.mp hp
    obtain rfl := hsucc.resolve_right hdead
    exact ⟨b, hb, hmem, hy, e, rfl⟩

lemma extendBlock_keeps (σ : System) (s : Address) : Keeps (σ.server s) (σ.extendBlock s).server := by
  simp only [System.extendBlock]
  split_ifs
  · exact ⟨id, rfl, rfl, rfl⟩
  · exact ⟨fun htail => (Bool.false_ne_true htail).elim, rfl, rfl, rfl⟩

lemma finish (h : Extending cfg σ) {s : Address} {i : ℕ} {out : List Packet}
    (hlive : σ.crashed s = false) {t : ExtendThread} (ht : t ∈ σ.thread s)
    (hout : out <+: (σ.extendBlock s).out) : Extending cfg (σ.finish s i out) := by
  have hset := h.setServer s (extendBlock_keeps σ s)
  have hemit := @hset.emit _ _ s out ?_ ?_
  · exact hemit.threads s fun t ht => Or.inl (List.mem_of_mem_eraseIdx ht)
  · intro p hp t' m heq
    obtain ⟨b, hb, -, -, e, rfl⟩ := h.mem_extendBlock hlive ht (hout.subset hp)
    obtain ⟨-, rfl⟩ := Packet.tcp.inj heq
    exact ⟨rfl, by simp⟩
  · intro p hp t' m htcp
    obtain ⟨b, hb, hmem, hjoiner, e, rfl⟩ := h.mem_extendBlock hlive ht (hout.subset hp)
    simp only [Packet.tcp?_tcp, Option.some.injEq, Prod.mk.injEq] at htcp
    obtain ⟨rfl, rfl⟩ := htcp
    refine ⟨rfl, ?_⟩
    cases e with
    | fin => exact ⟨b, hb, hmem, hjoiner⟩
    | _ => trivial

/-! ### The master's messages -/

lemma relink (h : Extending cfg σ) {r : Reqseq} {rest : List Message}
    (head : σ.link src σ.master.addr = .reqSeq r :: rest) :
    Extending cfg ({ σ with link := σ.link.recv src σ.master.addr }.emit σ.master.addr
      [.tcp r.preAddr (.newSuccServer r)]) := by
  have hfits := h.fits src _ (.reqSeq r) (by rw [head]; exact List.mem_cons_self)
  apply (h.drop src σ.master.addr).emit
  · intro p hp t m heq
    obtain rfl := List.mem_singleton.mp hp
    obtain ⟨-, rfl⟩ := Packet.tcp.inj heq
    exact ⟨rfl, by simp⟩
  · intro p hp t m htcp
    obtain rfl := List.mem_singleton.mp hp
    simp only [Packet.tcp?_tcp, Option.some.injEq, Prod.mk.injEq] at htcp
    obtain ⟨rfl, rfl⟩ := htcp
    exact ⟨rfl, hfits⟩

/-- The record after `EXTEND_FINISH`. -/
lemma record_finish (h : Extending cfg σ) (hb : b ∈ cfg.banks) {bsc : BankServerChain}
    {c : List Address} (hrec : Recorded b σ bsc c) (hy : Joiner b σ y) :
    Recorded b σ { bsc with tail := y, extending := .empty } c := by
  refine ⟨hrec.sub, hrec.dead, hrec.head, ?_⟩
  cases hrec.phase with
  | idle nobody => exact absurd hy (nobody y)
  | extending joiner chain =>
    obtain rfl := h.joiner_unique hb hy joiner
    exact .joined joiner chain rfl
  | joined joiner chain =>
    obtain rfl := h.joiner_unique hb hy joiner
    exact .joined joiner chain rfl
  | gone joiner dead chain =>
    obtain rfl := h.joiner_unique hb hy joiner
    exact .gone joiner dead chain (Or.inr rfl) rfl

lemma extendFinish (h : Extending cfg σ) {f : ExtendFinish} {rest : List Message}
    (head : σ.link src σ.master.addr = .extendFinish f :: rest) {m : Master} {out : List Packet}
    (hm : σ.master.handleExtendFinish f = some (m, out)) :
    Extending cfg ({ σ with link := σ.link.recv src σ.master.addr, master := m }.emit m.addr out) := by
  obtain ⟨b, hb, hid, hy⟩ := h.fits src _ (.extendFinish f) (by rw [head]; exact List.mem_cons_self)
  obtain ⟨id, a⟩ := f
  obtain rfl : id = b.bankId := hid
  obtain ⟨bsc, c, hlookup, hrec⟩ := h.record b hb
  simp only [Master.handleExtendFinish, hlookup, Option.bind_eq_bind, Option.bind_some] at hm
  obtain ⟨rfl, rfl⟩ := Prod.mk.inj (Option.some.inj hm)
  have hset := (h.setChain hb (h.record_finish hb hrec hy)).drop src σ.master.addr
  apply hset.emit
  · intro p hp t m heq
    obtain ⟨a, -, rfl⟩ := List.mem_map.mp hp
    cases heq
  · intro p hp t m htcp
    obtain ⟨a, -, rfl⟩ := List.mem_map.mp hp
    cases htcp

end Extending

end ChainReplication
