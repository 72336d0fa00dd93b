import ChainReplication.System.Origins
import ChainReplication.Server.Heads

/-!
# What the servers know about the heads of the banks

The master sends `NEW_HEAD` to every server of its record but the joining ones, and the extension copies
no table. The tables stay up to date as long as no server joins after a change of a head and no head
changes while a server joins.
-/

namespace ChainReplication

/-- The server that a message asks to let in. -/
def Message.joiner? : Message → Option Address
  | .join j => some j.serverAddr
  | _ => none

/-- The addresses of the master and of every server that the configuration file names. -/
def Config.processes (cfg : Config) : List Address :=
  cfg.master :: cfg.banks.flatMap fun b => b.servers ++ b.extendServers

lemma Config.mem_processes {cfg : Config} {b : BankConfig} {x : Address} (hb : b ∈ cfg.banks)
    (hx : x ∈ b.servers) : x ∈ cfg.processes :=
  List.mem_cons_of_mem _ (List.mem_flatMap.mpr ⟨b, hb, List.mem_append_left _ hx⟩)

namespace System

/-- The master has `y` in a chain. -/
def InRecord (σ : System) (y : Address) : Prop :=
  ∃ e ∈ σ.master.bankServerChain.entries, y ∈ e.2.serverChain

/-- The master sends `NEW_HEAD` to `y`. -/
def Told (σ : System) (y : Address) : Prop :=
  ∃ e ∈ σ.master.bankServerChain.entries, y ∈ e.2.serverChain ∧ y ≠ e.2.extending

/-- The head of the bank `id` as `y` knows it, read together with the `NEW_HEAD` on their way. -/
def headOf (σ : System) (y : Address) (id : String) : Option Address :=
  finalHead id (σ.link σ.master.addr y) ((σ.server y).bankHeadList.lookup id)

/-- Every live server of the record knows `head_` of every bank, or is about to be told. -/
def HeadsCurrent (σ : System) : Prop :=
  ∀ id bsc, σ.master.bankServerChain.lookup id = some bsc →
    ∀ y, σ.InRecord y → σ.crashed y = false → σ.headOf y id = some bsc.head

/-- No message is on its way to a live process, and every crash has been handled. -/
def Drained (cfg : Config) (σ : System) : Prop :=
  (∀ x ∈ cfg.processes, ∀ y ∈ cfg.processes, σ.crashed y = false → σ.link x y = []) ∧
    ∀ e ∈ σ.master.bankServerChain.entries, ∀ y ∈ e.2.serverChain, σ.crashed y = false

/-- Every bank's `head_` is still the one in the configuration file. -/
def HeadsConfigured (cfg : Config) (σ : System) : Prop :=
  ∀ e ∈ σ.master.bankServerChain.entries, cfg.bankHeadList.lookup e.1 = some e.2.head

/-- The master takes a live server in only while every head is the configured one, and `head_` changes
only while no live server of the record is skipped as the joining one. -/
def HeadsKnown (cfg : Config) (σ : System) : Label → Prop
  | .deliver src dst _ => dst = σ.master.addr → ∀ m ∈ (σ.link src dst).head?, ∀ y ∈ m.joiner?,
      σ.crashed y = false → ¬ σ.InRecord y → σ.HeadsConfigured cfg
  | .detect id node => ∀ bsc ∈ σ.master.bankServerChain.lookup id, node = bsc.head →
      -- a server that is in the chain twice would stay its head
      BankServerChain.nextOf node bsc.serverChain ≠ some node →
        ∀ e ∈ σ.master.bankServerChain.entries, ∀ y ∈ e.2.serverChain, σ.crashed y = false → σ.Told y
  | _ => True

instance (σ : System) (y : Address) : Decidable (σ.InRecord y) :=
  inferInstanceAs (Decidable (∃ e ∈ σ.master.bankServerChain.entries, y ∈ e.2.serverChain))

instance (σ : System) (y : Address) : Decidable (σ.Told y) :=
  inferInstanceAs (Decidable (∃ e ∈ σ.master.bankServerChain.entries,
    y ∈ e.2.serverChain ∧ y ≠ e.2.extending))

instance (cfg : Config) (σ : System) : Decidable (Drained cfg σ) :=
  inferInstanceAs (Decidable (_ ∧ _))

instance (cfg : Config) (σ : System) : Decidable (HeadsConfigured cfg σ) :=
  inferInstanceAs (Decidable (∀ e ∈ σ.master.bankServerChain.entries, _))

instance (cfg : Config) (σ : System) (l : Label) : Decidable (HeadsKnown cfg σ l) :=
  match l with
  | .deliver src dst _ => inferInstanceAs (Decidable (dst = σ.master.addr →
      ∀ m ∈ (σ.link src dst).head?, ∀ y ∈ m.joiner?,
        σ.crashed y = false → ¬ σ.InRecord y → σ.HeadsConfigured cfg))
  | .detect id node => inferInstanceAs (Decidable (∀ bsc ∈ σ.master.bankServerChain.lookup id,
      node = bsc.head → BankServerChain.nextOf node bsc.serverChain ≠ some node →
        ∀ e ∈ σ.master.bankServerChain.entries, ∀ y ∈ e.2.serverChain, σ.crashed y = false → σ.Told y))
  | .client .. | .crash _ | .join _ | .snapshot .. | .extendSend .. | .extendFin .. =>
    inferInstanceAs (Decidable True)

end System

/-- The crashed server leaves the record, which keeps its head unless that is the one. -/
lemma Master.NotifyCase.record {m m' : Master} {id : String} {node : Address} {bsc : BankServerChain}
    {out : List Packet} (h : m.NotifyCase id node bsc m' out) :
    ∃ bsc', m' = m.setChain id bsc' ∧ bsc'.serverChain = bsc.serverChain.erase node ∧
      (node ≠ bsc.head → bsc'.head = bsc.head) := by
  cases h with
  | head head _ _ set => exact ⟨_, set, rfl, fun hne => absurd head hne⟩
  | tail _ _ _ set => exact ⟨_, set, rfl, fun _ => rfl⟩
  | internal => exact ⟨_, rfl, rfl, fun _ => rfl⟩
  | extending => exact ⟨_, rfl, rfl, fun _ => rfl⟩

variable {cfg : Config} {σ σ' : System} {l : Label} {x y : Address} {id : String}

/-! ### The record and the tables -/

namespace System

lemma inRecord_iff : σ.InRecord y ↔
    ∃ id bsc, σ.master.bankServerChain.lookup id = some bsc ∧ y ∈ bsc.serverChain := by
  constructor
  · rintro ⟨e, he, hy⟩
    exact ⟨e.1, e.2, AList.mem_lookup_iff.mpr he, hy⟩
  · rintro ⟨id, bsc, hlookup, hy⟩
    exact ⟨⟨id, bsc⟩, AList.mem_lookup_iff.mp hlookup, hy⟩

lemma inRecord_of_mem {bsc : BankServerChain}
    (hlookup : σ.master.bankServerChain.lookup id = some bsc) (hy : y ∈ bsc.serverChain) :
    σ.InRecord y := inRecord_iff.mpr ⟨id, bsc, hlookup, hy⟩

lemma told_iff : σ.Told y ↔ ∃ id bsc, σ.master.bankServerChain.lookup id = some bsc ∧
    y ∈ bsc.serverChain ∧ y ≠ bsc.extending := by
  constructor
  · rintro ⟨e, he, hy⟩
    exact ⟨e.1, e.2, AList.mem_lookup_iff.mpr he, hy⟩
  · rintro ⟨id, bsc, hlookup, hy⟩
    exact ⟨⟨id, bsc⟩, AList.mem_lookup_iff.mp hlookup, hy⟩

section Replace

variable {bsc bsc' : BankServerChain} (hlookup : σ.master.bankServerChain.lookup id = some bsc)
  (hmaster : σ'.master = σ.master.setChain id bsc')

include hmaster in
lemma lookup_replace (id' : String) : σ'.master.bankServerChain.lookup id' =
    if id' = id then some bsc' else σ.master.bankServerChain.lookup id' := by
  rw [hmaster, Master.setChain]
  split_ifs with hid
  · rw [hid, AList.lookup_insert]
  · rw [AList.lookup_insert_ne hid]

include hmaster in
/-- The servers of one chain change. -/
lemma inRecord_replace (hy : σ'.InRecord y) : σ.InRecord y ∨ y ∈ bsc'.serverChain := by
  obtain ⟨id', bsc'', hlookup', hmem⟩ := inRecord_iff.mp hy
  rw [lookup_replace hmaster] at hlookup'
  split_ifs at hlookup' with hid
  · obtain rfl := Option.some.inj hlookup'
    exact Or.inr hmem
  · exact Or.inl (inRecord_iff.mpr ⟨id', bsc'', hlookup', hmem⟩)

include hlookup hmaster

lemma inRecord_kept (hsub : y ∈ bsc.serverChain → y ∈ bsc'.serverChain) (hy : σ.InRecord y) :
    σ'.InRecord y := by
  obtain ⟨id', bsc'', hlookup', hmem⟩ := inRecord_iff.mp hy
  rw [inRecord_iff]
  by_cases hid : id' = id
  · subst hid
    obtain rfl := Option.some.inj (hlookup.symm.trans hlookup')
    exact ⟨id', bsc', by rw [lookup_replace hmaster, if_pos rfl], hsub hmem⟩
  · exact ⟨id', bsc'', by rw [lookup_replace hmaster, if_neg hid, hlookup'], hmem⟩

/-- Whom the master tells does not depend on the order of the update and the broadcast. -/
lemma told_replace (hmem : y ∈ bsc'.serverChain ↔ y ∈ bsc.serverChain)
    (hext : bsc'.extending = bsc.extending) : σ'.Told y ↔ σ.Told y := by
  rw [told_iff, told_iff]
  constructor
  · rintro ⟨id', bsc'', hlookup', hy, hne⟩
    rw [lookup_replace hmaster] at hlookup'
    split_ifs at hlookup' with hid
    · obtain rfl := Option.some.inj hlookup'
      exact ⟨id, bsc, hlookup, hmem.mp hy, hext ▸ hne⟩
    · exact ⟨id', bsc'', hlookup', hy, hne⟩
  · rintro ⟨id', bsc'', hlookup', hy, hne⟩
    by_cases hid : id' = id
    · subst hid
      obtain rfl := Option.some.inj (hlookup.symm.trans hlookup')
      exact ⟨id', bsc', by rw [lookup_replace hmaster, if_pos rfl], hmem.mpr hy, hext ▸ hne⟩
    · exact ⟨id', bsc'', by rw [lookup_replace hmaster, if_neg hid, hlookup'], hy, hne⟩

end Replace

/-- The master hands over messages of which none announces the head of `id`. -/
lemma headOf_emit {L : Links Address Message} {m : Master} {out : List Packet}
    (haddr : m.addr = σ.master.addr) (hL : L σ.master.addr y = σ.link σ.master.addr y)
    (hout : ∀ p ∈ out, ∀ msg, p.tcp? = some (y, msg) → msg.head? id = none) :
    ({ σ with link := L, master := m }.emit m.addr out).headOf y id = σ.headOf y id := by
  simp only [headOf, emit, haddr, Links.send_self, hL]
  apply finalHead_append_of_none
  intro msg hmsg
  simp only [List.mem_filterMap, Option.ite_none_right_eq_some, Option.some.injEq] at hmsg
  obtain ⟨⟨t, msg'⟩, ⟨p, hp, htcp⟩, rfl, rfl⟩ := hmsg
  exact hout p hp _ htcp

/-- A step after which every live server reads the same heads from its table and its mail. -/
structure Quiet (σ σ' : System) : Prop where
  addr : σ'.master.addr = σ.master.addr
  live : ∀ y, σ'.crashed y = false → σ.crashed y = false
  known : ∀ y, y ≠ σ.master.addr → σ'.crashed y = false → ∀ id, σ'.headOf y id = σ.headOf y id

namespace Quiet

/-- A server takes up one message. -/
lemma serve (h : Origins σ) {msg : Message} {L : Links Address Message} {out : List Packet}
    (taken : Taken σ x msg L) (hs : Serve σ x msg L out σ') : Quiet σ σ' := by
  refine ⟨by rw [hs.master], fun y => hs.live_of_live, fun y hne hlive id => ?_⟩
  have hlink : σ'.link σ.master.addr y = L σ.master.addr y := by
    rw [hs.link, Links.send_of_ne _ _ _ (Ne.symm hs.ne_master)]
  rw [headOf, hs.master, hlink, headOf]
  by_cases hy : y = x
  · subst hy
    rw [hs.server_self, ChainServer.handleMsg_heads (hs.complete hlive).2]
    cases taken with
    | client => rfl
    | @link src _ rest head =>
      by_cases hsrc : src = σ.master.addr
      · subst hsrc
        rw [Links.recv_self, head, List.tail_cons, finalHead_cons]
      · have hsame : msg.head? id = none := by
          cases msg with
          | newHead n => exact absurd (h.newHead src y n (by simp [head])) hsrc
          | _ => rfl
        rw [Links.recv_of_ne _ _ _ fun heq => hsrc heq.1.symm, hsame, Option.none_or]
  · rw [hs.server_of_ne hy]
    congr 1
    cases taken with
    | client => rfl
    | link => exact Links.recv_of_ne _ _ _ fun heq => hy heq.2

lemma kill (σ : System) (x : Address) : Quiet σ (σ.kill x) := by
  refine ⟨rfl, fun y hlive => ?_, fun _ _ _ _ => rfl⟩
  simp only [System.kill] at hlive
  by_cases hy : y = x
  · subst hy
    rw [Function.update_self] at hlive
    cases hlive
  · rwa [Function.update_of_ne hy] at hlive

lemma trans {σ₁ σ₂ σ₃ : System} (h : Quiet σ₁ σ₂) (h' : Quiet σ₂ σ₃) : Quiet σ₁ σ₃ where
  addr := h'.addr.trans h.addr
  live y hlive := h.live y (h'.live y hlive)
  known y hne hlive id := (h'.known y (h.addr ▸ hne) hlive id).trans (h.known y hne (h'.live y hlive) id)

/-- The master hands over messages of which none announces a head. -/
lemma master_emit {L : Links Address Message} {m : Master} {out : List Packet}
    (haddr : m.addr = σ.master.addr)
    (hL : ∀ y, y ≠ σ.master.addr → L σ.master.addr y = σ.link σ.master.addr y)
    (hout : ∀ p ∈ out, ∀ t msg, p.tcp? = some (t, msg) → msg.isNews = false) :
    Quiet σ ({ σ with link := L, master := m }.emit m.addr out) := by
  refine ⟨haddr, fun y hlive => hlive, fun y hne hlive id => ?_⟩
  apply headOf_emit haddr (hL y hne)
  intro p hp msg htcp
  have hnews := hout p hp y msg htcp
  cases msg with
  | newHead n => cases hnews
  | _ => rfl

/-- A server other than the master hands over messages. -/
lemma server_emit (hne : x ≠ σ.master.addr) {S : Address → ChainServer}
    (hS : ∀ y, (S y).bankHeadList = (σ.server y).bankHeadList) (out : List Packet)
    (ts : List ExtendThread) :
    Quiet σ ((({ σ with server := S } : System).emit x out).setThreads y ts) := by
  refine ⟨rfl, fun y hlive => hlive, fun y _ _ id => ?_⟩
  simp only [headOf, setThreads, emit, Links.send_of_ne _ _ _ (Ne.symm hne), hS]

lemma spawn (h : Quiet σ σ') (x : Address) (msg : Message) : Quiet σ (σ'.spawn x msg) := by
  refine ⟨?_, ?_, ?_⟩
  · rw [spawn_master]
    exact h.addr
  · rw [spawn_crashed]
    exact h.live
  · simp only [headOf, spawn_crashed, spawn_link, spawn_server, spawn_master]
    exact h.known

/-- The last block of an extension thread. -/
lemma finish (hne : x ≠ σ.master.addr) (i : ℕ) (out : List Packet) : Quiet σ (σ.finish x i out) := by
  apply server_emit hne
  intro y
  by_cases hy : y = x
  · subst hy
    rw [Function.update_self, extendBlock]
    split_ifs <;> rfl
  · rw [Function.update_of_ne hy]

end Quiet

end System

/-- What holds of the record and the tables whether or not the tables are up to date. -/
structure HeadTables (cfg : Config) (σ : System) : Prop where
  recorded : ∀ y, σ.InRecord y → y ≠ σ.master.addr
  fresh : ∀ y, y ≠ σ.master.addr → σ.crashed y = false → ¬ σ.InRecord y →
    ∀ id, σ.headOf y id = cfg.bankHeadList.lookup id
  head_mem : ∀ id bsc, σ.master.bankServerChain.lookup id = some bsc → bsc.head ∈ bsc.serverChain

namespace HeadTables

/-- A quiet step after which the record holds the same live servers and the same heads. -/
lemma of_quiet (h : HeadTables cfg σ) (hq : System.Quiet σ σ')
    (leave : ∀ y, σ'.InRecord y → σ.InRecord y)
    (stay : ∀ y, σ'.crashed y = false → σ.InRecord y → σ'.InRecord y)
    (head : ∀ id bsc', σ'.master.bankServerChain.lookup id = some bsc' →
      ∃ bsc, σ.master.bankServerChain.lookup id = some bsc ∧ bsc'.head = bsc.head ∧
        (bsc.head ∈ bsc.serverChain → bsc'.head ∈ bsc'.serverChain)) :
    HeadTables cfg σ' ∧ (σ.HeadsCurrent → σ'.HeadsCurrent) := by
  refine ⟨⟨?_, ?_, ?_⟩, ?_⟩
  · intro y hy
    rw [hq.addr]
    exact h.recorded y (leave y hy)
  · intro y hne hlive hout id
    rw [hq.addr] at hne
    rw [hq.known y hne hlive]
    exact h.fresh y hne (hq.live y hlive) (fun hin => hout (stay y hlive hin)) id
  · intro id bsc' hlookup
    obtain ⟨bsc, hlookup', -, hmem⟩ := head id bsc' hlookup
    exact hmem (h.head_mem id bsc hlookup')
  · intro hcur id bsc' hlookup y hy hlive
    obtain ⟨bsc, hlookup', hsame, -⟩ := head id bsc' hlookup
    rw [hq.known y (h.recorded y (leave y hy)) hlive, hsame]
    exact hcur id bsc hlookup' y (leave y hy) (hq.live y hlive)

/-- A quiet step that leaves the record alone. -/
lemma of_same (h : HeadTables cfg σ) (hq : System.Quiet σ σ')
    (record : σ'.master.bankServerChain = σ.master.bankServerChain) :
    HeadTables cfg σ' ∧ (σ.HeadsCurrent → σ'.HeadsCurrent) := by
  have hin (y : Address) : σ'.InRecord y ↔ σ.InRecord y := by rw [System.InRecord, System.InRecord, record]
  refine h.of_quiet hq (fun y => (hin y).mp) (fun y _ => (hin y).mpr) fun id bsc hlookup => ?_
  exact ⟨bsc, record ▸ hlookup, rfl, fun hmem => hmem⟩

/-! ### Steps of the master -/

section Master

variable {src node : Address} {msg : Message} {rest : List Message} {m : Master} {out : List Packet}
  {bsc : BankServerChain}

lemma recv_link {y : Address} (hy : y ≠ σ.master.addr) :
    σ.link.recv src σ.master.addr σ.master.addr y = σ.link σ.master.addr y :=
  Links.recv_of_ne _ _ _ fun heq => hy heq.2

/-- The master handles a message other than `JOIN`. -/
lemma handled (h : HeadTables cfg σ) (hmsg : ∀ j, msg ≠ .join j)
    (hm : σ.master.handleMsg msg = some (m, out)) (hσ' : σ' =
      ({ σ with link := σ.link.recv src σ.master.addr, master := m } : System).emit m.addr out) :
    HeadTables cfg σ' ∧ (σ.HeadsCurrent → σ'.HeadsCurrent) := by
  have hquiet : System.Quiet σ σ' := by
    rw [hσ']
    exact .master_emit (System.handleMsg_addr hm) (fun _ => recv_link)
      fun p hp t msg' htcp => Master.handleMsg_not_news hm hp htcp
  have hmaster : σ'.master = m := by
    rw [hσ']
    rfl
  cases msg with
  | join j => exact absurd rfl (hmsg j)
  | extendFinish f =>
    simp only [Master.handleMsg, Master.handleExtendFinish, Option.bind_eq_bind,
      Option.bind_eq_some_iff] at hm
    obtain ⟨bsc, hlookup, hm⟩ := hm
    obtain ⟨rfl, -⟩ := Prod.mk.inj (Option.some.inj hm)
    apply h.of_quiet hquiet
    · intro y hy
      rcases System.inRecord_replace hmaster hy with hy | hy
      · exact hy
      · exact System.inRecord_of_mem hlookup hy
    · exact fun y _ hy => System.inRecord_kept hlookup hmaster (fun hz => hz) hy
    · intro id bsc' hlookup'
      rw [System.lookup_replace hmaster] at hlookup'
      split_ifs at hlookup' with hid
      · obtain rfl := Option.some.inj hlookup'
        exact ⟨bsc, hid ▸ hlookup, rfl, fun hmem => hmem⟩
      · exact ⟨bsc', hlookup', rfl, fun hmem => hmem⟩
  | _ =>
    obtain ⟨rfl, -⟩ := Prod.mk.inj (Option.some.inj hm)
    exact h.of_same hquiet (by rw [hmaster])

/-- The master lets a server in: its table is the configured one. -/
lemma joined (h : HeadTables cfg σ) {j : Join} (hne : j.serverAddr ≠ σ.master.addr)
    (hm : σ.master.handleJoin j = some (m, out)) (hσ' : σ' =
      ({ σ with link := σ.link.recv src σ.master.addr, master := m } : System).emit m.addr out) :
    HeadTables cfg σ' ∧ (σ.HeadsCurrent → (σ'.HeadsCurrent ↔ (σ.crashed j.serverAddr = false →
      ¬ σ.InRecord j.serverAddr → σ.HeadsConfigured cfg))) := by
  have hm' : σ.master.handleMsg (.join j) = some (m, out) := hm
  have hquiet : System.Quiet σ σ' := by
    rw [hσ']
    exact .master_emit (System.handleMsg_addr hm') (fun _ => recv_link)
      fun p hp t msg' htcp => Master.handleMsg_not_news hm' hp htcp
  have hmaster : σ'.master = m := by
    rw [hσ']
    rfl
  have hcrashed : σ'.crashed = σ.crashed := by
    rw [hσ']
    rfl
  simp only [Master.handleJoin, Option.bind_eq_bind, Option.bind_eq_some_iff] at hm
  obtain ⟨bsc, hlookup, pre, -, hm⟩ := hm
  obtain ⟨rfl, -⟩ := Prod.mk.inj (Option.some.inj hm)
  have hset := System.lookup_replace hmaster j.bankId
  rw [if_pos rfl] at hset
  have hin (y : Address) : σ'.InRecord y ↔ σ.InRecord y ∨ y = j.serverAddr := by
    constructor
    · intro hy
      rcases System.inRecord_replace hmaster hy with hy | hy
      · exact Or.inl hy
      · rcases List.mem_append.mp hy with hy | hy
        · exact Or.inl (System.inRecord_of_mem hlookup hy)
        · exact Or.inr (List.mem_singleton.mp hy)
    · rintro (hy | rfl)
      · exact System.inRecord_kept hlookup hmaster (fun hz => List.mem_append_left _ hz) hy
      · exact System.inRecord_of_mem hset (List.mem_append_right _ (List.mem_singleton_self _))
  have hheads (id : String) (bsc' : BankServerChain)
      (hlookup' : σ'.master.bankServerChain.lookup id = some bsc') :
      ∃ bsc, σ.master.bankServerChain.lookup id = some bsc ∧ bsc'.head = bsc.head ∧
        (bsc.head ∈ bsc.serverChain → bsc'.head ∈ bsc'.serverChain) := by
    rw [System.lookup_replace hmaster] at hlookup'
    split_ifs at hlookup' with hid
    · obtain rfl := Option.some.inj hlookup'
      exact ⟨bsc, hid ▸ hlookup, rfl, fun hmem => List.mem_append_left _ hmem⟩
    · exact ⟨bsc', hlookup', rfl, fun hmem => hmem⟩
  refine ⟨⟨?_, ?_, ?_⟩, fun hcur => ⟨?_, ?_⟩⟩
  · intro y hy
    rw [hquiet.addr]
    rcases (hin y).mp hy with hy | rfl
    · exact h.recorded y hy
    · exact hne
  · intro y hy hlive hout id
    rw [hquiet.addr] at hy
    rw [hquiet.known y hy hlive]
    exact h.fresh y hy (hquiet.live y hlive) (fun hy => hout ((hin y).mpr (Or.inl hy))) id
  · intro id bsc' hlookup'
    obtain ⟨bsc, hlookup, -, hmem⟩ := hheads id bsc' hlookup'
    exact hmem (h.head_mem id bsc hlookup)
  · intro hcur' hlive hout e he
    have hlookup' : σ.master.bankServerChain.lookup e.1 = some e.2 := AList.mem_lookup_iff.mpr he
    have hkept : ∃ bsc', σ'.master.bankServerChain.lookup e.1 = some bsc' ∧ bsc'.head = e.2.head := by
      rw [System.lookup_replace hmaster]
      split_ifs with hid
      · rw [hid] at hlookup'
        obtain rfl := Option.some.inj (hlookup.symm.trans hlookup')
        exact ⟨_, rfl, rfl⟩
      · exact ⟨e.2, hlookup', rfl⟩
    obtain ⟨bsc', hlookup'', hhead⟩ := hkept
    have hlive' : σ'.crashed j.serverAddr = false := by rwa [hcrashed]
    have hknown := hcur' e.1 bsc' hlookup'' j.serverAddr ((hin _).mpr (Or.inr rfl)) hlive'
    rwa [hquiet.known _ hne hlive', h.fresh _ hne hlive hout, hhead] at hknown
  · intro hguard id bsc' hlookup' y hy hlive
    obtain ⟨bsc, hlookup, hsame, -⟩ := hheads id bsc' hlookup'
    rw [hcrashed] at hlive
    by_cases hin' : σ.InRecord y
    · rw [hquiet.known y (h.recorded y hin') (by rwa [hcrashed]), hsame]
      exact hcur id bsc hlookup y hin' hlive
    · obtain rfl := ((hin y).mp hy).resolve_left hin'
      rw [hquiet.known _ hne (by rwa [hcrashed]), hsame, h.fresh _ hne hlive hin']
      exact hguard hlive hin' ⟨id, bsc⟩ (AList.mem_lookup_iff.mp hlookup)

/-- A live server stays in the record. -/
lemma stay {bsc' : BankServerChain} (hdead : σ.crashed node = true)
    (hlookup : σ.master.bankServerChain.lookup id = some bsc)
    (hmaster : σ'.master = σ.master.setChain id bsc')
    (hchain : bsc'.serverChain = bsc.serverChain.erase node) (hlive : σ.crashed y = false)
    (hy : σ.InRecord y) : σ'.InRecord y := by
  have hne : y ≠ node := by
    rintro rfl
    rw [hlive] at hdead
    cases hdead
  refine System.inRecord_kept hlookup hmaster (fun hmem => ?_) hy
  rw [hchain]
  exact (List.mem_erase_of_ne hne).mpr hmem

/-- A server other than a head is found crashed. -/
lemma detected_other (h : HeadTables cfg σ) (hdead : σ.crashed node = true)
    (hlookup : σ.master.bankServerChain.lookup id = some bsc)
    (hcase : σ.master.NotifyCase id node bsc m out) (hnode : node ≠ bsc.head)
    (hσ' : σ' = ({ σ with master := m } : System).emit m.addr out) :
    HeadTables cfg σ' ∧ (σ.HeadsCurrent → σ'.HeadsCurrent) := by
  have hquiet : System.Quiet σ σ' := by
    rw [hσ']
    refine .master_emit hcase.addr (fun _ _ => rfl) fun p hp t msg htcp => ?_
    exact (hcase.not_news hp htcp).resolve_right fun hhead => hnode hhead.1
  have hmaster' : σ'.master = m := by
    rw [hσ']
    rfl
  obtain ⟨bsc', hset, hchain, hhead⟩ := hcase.record
  have hmaster := hmaster'.trans hset
  apply h.of_quiet hquiet
  · intro y hy
    rcases System.inRecord_replace hmaster hy with hy | hy
    · exact hy
    · exact System.inRecord_of_mem hlookup (List.mem_of_mem_erase (hchain ▸ hy))
  · exact fun y hlive hy => stay hdead hlookup hmaster hchain (hquiet.live y hlive) hy
  · intro id' bsc'' hlookup'
    rw [System.lookup_replace hmaster] at hlookup'
    split_ifs at hlookup' with hid
    · obtain rfl := Option.some.inj hlookup'
      refine ⟨bsc, hid ▸ hlookup, hhead hnode, fun hmem => ?_⟩
      rw [hchain, hhead hnode]
      exact (List.mem_erase_of_ne (Ne.symm hnode)).mpr hmem
    · exact ⟨bsc'', hlookup', rfl, fun hmem => hmem⟩

/-- What a server reads after the broadcast of a new head. -/
lemma headOf_newHead {newHead : Address} (haddr : m.addr = σ.master.addr) (hout : out =
      .tcp newHead .toBeHead :: (m.notifyClients (.newHead { bankId := id, serverAddr := newHead }) ++
        m.notifyServers (.newHead { bankId := id, serverAddr := newHead })))
    (hσ' : σ' = ({ σ with master := m } : System).emit m.addr out) (id' : String) :
    (σ'.Told y → id' = id → σ'.headOf y id' = some newHead) ∧
      (¬ (σ'.Told y ∧ id' = id) → σ'.headOf y id' = σ.headOf y id') := by
  have hmaster : σ'.master = m := by
    rw [hσ']
    rfl
  -- whatever reaches `y` and names a head names the new head of `id` and is part of the broadcast
  have announced {p : Packet} (hp : p ∈ out) {msg : Message} (htcp : p.tcp? = some (y, msg))
      {a : Address} (ha : msg.head? id' = some a) : a = newHead ∧ id' = id ∧ σ'.Told y := by
    rw [hout] at hp
    rcases List.mem_cons.mp hp with rfl | hp
    · obtain ⟨-, rfl⟩ := Prod.mk.inj (Option.some.inj htcp)
      cases ha
    rcases List.mem_append.mp hp with hp | hp
    · obtain ⟨c, -, rfl⟩ := List.mem_map.mp hp
      cases htcp
    · obtain ⟨e, he, hp⟩ := List.mem_flatMap.mp hp
      obtain ⟨c, hc, rfl⟩ := List.mem_map.mp hp
      obtain ⟨rfl, rfl⟩ := Prod.mk.inj (Option.some.inj htcp)
      simp only [Message.head?, Option.ite_none_right_eq_some, Option.some.injEq] at ha
      obtain ⟨hc, hne⟩ := List.mem_filter.mp hc
      exact ⟨ha.2.symm, ha.1.symm, e, hmaster ▸ he, hc, by simpa using hne⟩
  constructor
  · rintro ⟨e, he, hy, hne⟩ rfl
    have hp : .tcp y (.newHead { bankId := id', serverAddr := newHead }) ∈ out := by
      rw [hout]
      apply List.mem_cons_of_mem
      apply List.mem_append_right
      rw [hmaster] at he
      refine List.mem_flatMap.mpr ⟨e, he, List.mem_map.mpr ⟨y, ?_, rfl⟩⟩
      exact List.mem_filter.mpr ⟨hy, by simpa using hne⟩
    simp only [hσ', System.headOf, System.emit, haddr, Links.send_self]
    apply finalHead_append_of_some (m := .newHead { bankId := id', serverAddr := newHead })
    · rw [List.mem_filterMap]
      exact ⟨_, List.mem_filterMap.mpr ⟨_, hp, rfl⟩, if_pos rfl⟩
    · exact if_pos rfl
    · intro msg hmsg a ha
      simp only [List.mem_filterMap, Option.ite_none_right_eq_some, Option.some.injEq] at hmsg
      obtain ⟨⟨t, msg'⟩, ⟨q, hq, htcp⟩, rfl, rfl⟩ := hmsg
      exact (announced hq htcp ha).1
  · intro hnot
    rw [hσ']
    apply System.headOf_emit haddr rfl
    intro p hp msg htcp
    cases ha : msg.head? id' with
    | none => rfl
    | some a =>
      obtain ⟨-, hid, htold⟩ := announced hp htcp ha
      exact absurd ⟨htold, hid⟩ hnot

/-- The server after a removed one is still there. -/
lemma mem_erase_of_next {l : List Address} {a : Address} (h : BankServerChain.nextOf node l = some a) :
    a ∈ l.erase node := by
  obtain ⟨l₁, l₂, rfl⟩ := BankServerChain.nextOf_eq_some h
  by_cases ha : a = node
  · subst ha
    have hcount : 0 < ((l₁ ++ a :: a :: l₂).erase a).count a := by
      rw [List.count_erase_self, List.count_append, List.count_cons_self, List.count_cons_self]
      omega
    exact List.count_pos_iff.mp hcount
  · exact (List.mem_erase_of_ne ha).mpr (by simp)

/-- A head is found crashed: whoever is not told keeps the old head. -/
lemma detected_head (h : HeadTables cfg σ) (hdead : σ.crashed node = true)
    (hlookup : σ.master.bankServerChain.lookup id = some bsc)
    (hcase : σ.master.NotifyCase id node bsc m out) (hnode : node = bsc.head)
    (hσ' : σ' = ({ σ with master := m } : System).emit m.addr out) :
    HeadTables cfg σ' ∧ (σ.HeadsCurrent → (σ'.HeadsCurrent ↔
      (BankServerChain.nextOf node bsc.serverChain ≠ some node →
        ∀ e ∈ σ.master.bankServerChain.entries, ∀ y ∈ e.2.serverChain,
          σ.crashed y = false → σ.Told y))) := by
  have hmaster' : σ'.master = m := by
    rw [hσ']
    rfl
  have hcrashed : σ'.crashed = σ.crashed := by
    rw [hσ']
    rfl
  have haddr := hcase.addr
  cases hcase with
  | tail head => exact absurd hnode head
  | internal head => exact absurd hnode head
  | extending head => exact absurd hnode head
  | @head newHead _ head tail next set =>
    have hmaster := hmaster'.trans set
    have hreads (y : Address) (id' : String) := @headOf_newHead σ σ' y id m _ newHead haddr rfl hσ' id'
    have hset := System.lookup_replace hmaster id
    rw [if_pos rfl] at hset
    have leave {y : Address} (hy : σ'.InRecord y) : σ.InRecord y := by
      rcases System.inRecord_replace hmaster hy with hy | hy
      · exact hy
      · exact System.inRecord_of_mem hlookup (List.mem_of_mem_erase hy)
    have told {y : Address} (hlive : σ.crashed y = false) : σ'.Told y ↔ σ.Told y := by
      refine System.told_replace hlookup hmaster (List.mem_erase_of_ne ?_) rfl
      rintro rfl
      rw [hlive] at hdead
      cases hdead
    refine ⟨⟨?_, ?_, ?_⟩, fun hcur => ⟨?_, ?_⟩⟩
    · intro y hy
      rw [hmaster', haddr]
      exact h.recorded y (leave hy)
    · intro y hne hlive hout id'
      rw [hmaster', haddr] at hne
      rw [hcrashed] at hlive
      rw [(hreads y id').2, h.fresh y hne hlive fun hin => hout
        (stay hdead hlookup hmaster rfl hlive hin)]
      rintro ⟨⟨e, he, hy, -⟩, -⟩
      exact hout ⟨e, he, hy⟩
    · intro id' bsc'' hlookup'
      rw [System.lookup_replace hmaster] at hlookup'
      split_ifs at hlookup' with hid
      · obtain rfl := Option.some.inj hlookup'
        exact mem_erase_of_next next
      · exact h.head_mem id' bsc'' hlookup'
    · intro hcur' hne e he y hy hlive
      have hin : σ.InRecord y := ⟨e, he, hy⟩
      have hin' := stay hdead hlookup hmaster rfl hlive hin
      by_contra hnot
      have hnew := hcur' id _ hset y hin' (by rwa [hcrashed])
      rw [(hreads y id).2 fun htold => hnot ((told hlive).mp htold.1),
        hcur id bsc hlookup y hin hlive, ← hnode] at hnew
      exact hne (by rw [next, hnew])
    · intro hguard id' bsc'' hlookup' y hy hlive
      rw [hcrashed] at hlive
      rw [System.lookup_replace hmaster] at hlookup'
      have hold : ¬ (σ'.Told y ∧ id' = id) → σ'.headOf y id' = σ.headOf y id' := (hreads y id').2
      split_ifs at hlookup' with hid
      · obtain rfl := Option.some.inj hlookup'
        by_cases htold : σ'.Told y
        · exact (hreads y id').1 htold hid
        · subst hid
          obtain ⟨e, he, hmem⟩ := leave hy
          have hsame : newHead = node := by
            by_contra hne
            have hnext : BankServerChain.nextOf node bsc.serverChain ≠ some node := by
              rw [next]
              exact fun heq => hne (Option.some.inj heq)
            exact htold ((told hlive).mpr (hguard hnext e he y hmem hlive))
          rw [hold fun hboth => htold hboth.1, hcur id' bsc hlookup y (leave hy) hlive]
          exact congrArg some (hnode.symm.trans hsame.symm)
      · rw [hold fun hboth => hid hboth.2]
        exact hcur id' bsc'' hlookup' y (leave hy) hlive

end Master

/-! ### Runs -/

lemma init : HeadTables cfg cfg.init ∧ cfg.init.HeadsCurrent := by
  have hrecord {id : String} {bsc : BankServerChain}
      (hlookup : cfg.init.master.bankServerChain.lookup id = some bsc) :
      ∃ b ∈ cfg.banks, b.bankId = id ∧ bsc =
        { head := b.servers.headD .empty, tail := b.servers.getLastD .empty,
          serverChain := b.servers } := Config.of_initMaster_lookup hlookup
  have hhead {b : BankConfig} (hb : b ∈ cfg.banks) :
      cfg.bankHeadList.lookup b.bankId = some (b.servers.headD .empty) :=
    AList.lookup_foldl_insert cfg.bankIds_nodup hb ∅
  have hconf {y : Address} (hne : y ≠ cfg.master) (hlive : cfg.init.crashed y = false) :
      (cfg.init.server y).bankHeadList = cfg.bankHeadList := by
    have hsome : cfg.bankOf y ≠ none := by
      intro hnone
      simp [Config.init, hnone, hne] at hlive
    obtain ⟨b, hb⟩ := Option.ne_none_iff_exists'.mp hsome
    change (cfg.initServer y).bankHeadList = _
    rw [Config.initServer, hb]
  have hmaster {y : Address} (hy : cfg.init.InRecord y) : y ≠ cfg.master := by
    obtain ⟨id, bsc, hlookup, hmem⟩ := System.inRecord_iff.mp hy
    obtain ⟨b, hb, -, rfl⟩ := hrecord hlookup
    exact Config.ne_master hb hmem
  refine ⟨⟨fun y => hmaster, ?_, ?_⟩, ?_⟩
  · intro y hne hlive hout id
    change finalHead id [] _ = _
    rw [finalHead_nil, hconf hne hlive]
  · intro id bsc hlookup
    obtain ⟨b, hb, -, rfl⟩ := hrecord hlookup
    have hnil := cfg.servers_ne_nil b hb
    cases hservers : b.servers with
    | nil => exact absurd hservers hnil
    | cons a l => exact List.mem_cons_self
  · intro id bsc hlookup y hy hlive
    obtain ⟨b, hb, rfl, rfl⟩ := hrecord hlookup
    change finalHead b.bankId [] _ = _
    rw [finalHead_nil, hconf (hmaster hy) hlive]
    exact hhead hb

end HeadTables

namespace System

/-- What a step does to the record and the tables. -/
inductive TableCase (σ : System) (l : Label) (σ' : System) : Prop where
  | quiet (quiet : Quiet σ σ') (record : σ'.master = σ.master)
      (known : σ'.crashed σ.master.addr = false → ∀ cfg, HeadsKnown cfg σ l) : TableCase σ l σ'
  | master {src msg rest k m out} (label : l = .deliver src σ.master.addr k)
      (head : σ.link src σ.master.addr = msg :: rest) (handled : σ.master.handleMsg msg = some (m, out))
      (next : σ' =
        ({ σ with link := σ.link.recv src σ.master.addr, master := m } : System).emit m.addr out) :
      TableCase σ l σ'
  | detect {id node bsc m out} (label : l = .detect id node) (dead : σ.crashed node = true)
      (lookup : σ.master.bankServerChain.lookup id = some bsc)
      (case : Master.NotifyCase σ.master id node bsc m out)
      (next : σ' = ({ σ with master := m } : System).emit m.addr out) : TableCase σ l σ'

/-- Whatever is neither handled nor detected by the master is quiet. -/
lemma quiet_of_step (ho : Origins σ) (hs : σ.step l = some σ')
    (hdeliver : ∀ src dst k, l ≠ .deliver src dst k) (hdetect : ∀ id node, l ≠ .detect id node) :
    Quiet σ σ' ∧ σ'.master = σ.master := by
  cases join_cases hs with
  | serve taken serve =>
    refine ⟨(Quiet.serve ho taken serve).spawn _ _, ?_⟩
    rw [spawn_master, serve.master]
  | crash => exact ⟨.kill _ _, rfl⟩
  | master | refuse => exact absurd rfl (hdeliver _ _ _)
  | detect => exact absurd rfl (hdetect _ _)
  | join ne_master live =>
    refine ⟨⟨rfl, fun y hlive => hlive, fun y _ _ id => ?_⟩, rfl⟩
    simp only [headOf, emit, Links.send_of_ne _ _ _ (Ne.symm ne_master)]
  | snapshot => exact ⟨⟨rfl, fun y hlive => hlive, fun _ _ _ _ => rfl⟩, rfl⟩
  | giveUp => exact ⟨⟨rfl, fun y hlive => hlive, fun _ _ _ _ => rfl⟩, rfl⟩
  | extendSend live sending =>
    exact ⟨.server_emit (ho.ne_master sending) (fun _ => rfl) _ _, rfl⟩
  | finish live sending block complete =>
    have hfinish := Quiet.finish (ho.ne_master sending)
    rcases complete with rfl | rfl
    · exact ⟨hfinish _ _, rfl⟩
    · exact ⟨(hfinish _ _).trans (.kill _ _), rfl⟩

theorem table_cases (ho : Origins σ) (hs : σ.step l = some σ') : TableCase σ l σ' := by
  have other (hdeliver : ∀ src dst k, l ≠ .deliver src dst k)
      (hdetect : ∀ id node, l ≠ .detect id node) (known : ∀ cfg, HeadsKnown cfg σ l) :
      TableCase σ l σ' := by
    obtain ⟨hquiet, hmaster⟩ := quiet_of_step ho hs hdeliver hdetect
    exact .quiet hquiet hmaster fun _ => known
  cases l with
  | deliver src dst k =>
    simp only [step] at hs
    cases hlink : σ.link src dst with
    | nil => simp [hlink] at hs
    | cons msg rest =>
      rw [hlink] at hs
      simp only at hs
      split_ifs at hs with hcrashed hmaster
      · obtain rfl := Option.some.inj hs
        subst hmaster
        cases hr : σ.master.handleMsg msg with
        | none =>
          have hquiet : Quiet σ { σ with link := σ.link.recv src σ.master.addr } := by
            refine ⟨rfl, fun y hlive => hlive, fun y hne _ id => ?_⟩
            simp only [headOf, HeadTables.recv_link hne]
          refine .quiet (hquiet.trans (.kill _ _)) rfl fun hlive => ?_
          simp [handleMaster, kill] at hlive
        | some r => exact .master rfl hlink hr rfl
      · obtain rfl := Option.some.inj hs
        obtain ⟨out, h⟩ := handle_serve (L := σ.link.recv src dst) (k := k) rfl
          (by simpa using hcrashed) hmaster
        refine .quiet ((Quiet.serve ho (.link hlink) h).spawn _ _) ?_ fun _ cfg => ?_
        · rw [spawn_master, h.master]
        · exact fun hdst => absurd hdst hmaster
  | detect id node =>
    simp only [step] at hs
    split_ifs at hs with hguard
    obtain ⟨hlive, hdead, hmem⟩ := hguard
    obtain rfl := Option.some.inj hs
    cases hlookup : σ.master.bankServerChain.lookup id with
    | none => simp [hlookup] at hmem
    | some bsc =>
      cases hr : σ.master.notifyCrash id node with
      | none =>
        refine .quiet (.kill _ _) rfl fun hlive => ?_
        simp [handleMaster, kill] at hlive
      | some r => exact .detect rfl hdead hlookup (Master.notifyCrash_notifyCase hlookup hr) rfl
  | client | crash | join | snapshot | extendSend | extendFin =>
    exact other (by simp) (by simp) fun _ => trivial

/-- Nobody comes back to life. -/
lemma TableCase.live_of_live (h : TableCase σ l σ') (hy : σ'.crashed y = false) :
    σ.crashed y = false := by
  cases h with
  | quiet quiet => exact quiet.live y hy
  | master _ _ _ next =>
    rw [next] at hy
    exact hy
  | detect _ _ _ _ next =>
    rw [next] at hy
    exact hy

end System

namespace HeadTables

/-- One step keeps what holds of the record; the tables stay up to date exactly when it respects the
guard, unless the master dies. -/
theorem step (h : HeadTables cfg σ) (ho : Origins σ) (hs : σ.step l = some σ') :
    HeadTables cfg σ' ∧ (σ.HeadsCurrent → (System.HeadsKnown cfg σ l → σ'.HeadsCurrent) ∧
      (σ'.crashed σ.master.addr = false → σ'.HeadsCurrent → System.HeadsKnown cfg σ l)) := by
  cases System.table_cases ho hs with
  | quiet quiet record known =>
    obtain ⟨htables, hcur⟩ := h.of_same quiet (by rw [record])
    exact ⟨htables, fun hold => ⟨fun _ => hcur hold, fun hlive _ => known hlive cfg⟩⟩
  | @master src msg rest k m out label head handled' next =>
    subst label
    by_cases hjoin : ∃ j, msg = .join j
    · obtain ⟨j, rfl⟩ := hjoin
      have hne := ho.join _ _ j (by rw [head]; exact List.mem_cons_self)
      obtain ⟨htables, hiff⟩ := h.joined hne handled' next
      have hknown : System.HeadsKnown cfg σ (.deliver src σ.master.addr k) ↔
          (σ.crashed j.serverAddr = false → ¬ σ.InRecord j.serverAddr → σ.HeadsConfigured cfg) := by
        simp [System.HeadsKnown, head, Message.joiner?]
      refine ⟨htables, fun hold => ?_⟩
      rw [hknown, hiff hold]
      exact ⟨fun h => h, fun _ h => h⟩
    · obtain ⟨htables, hcur⟩ := h.handled (fun j hj => hjoin ⟨j, hj⟩) handled' next
      refine ⟨htables, fun hold => ⟨fun _ => hcur hold, fun _ _ _ m' hm' y hy => ?_⟩⟩
      rw [head] at hm'
      obtain rfl := Option.some.inj hm'
      cases msg with
      | join j => exact absurd ⟨j, rfl⟩ hjoin
      | _ => cases hy
  | @detect id node bsc m out label dead lookup case next =>
    subst label
    by_cases hnode : node = bsc.head
    · obtain ⟨htables, hiff⟩ := h.detected_head dead lookup case hnode next
      have hknown : System.HeadsKnown cfg σ (.detect id node) ↔
          (BankServerChain.nextOf node bsc.serverChain ≠ some node →
            ∀ e ∈ σ.master.bankServerChain.entries, ∀ y ∈ e.2.serverChain,
              σ.crashed y = false → σ.Told y) := by
        simp [System.HeadsKnown, lookup, hnode]
      refine ⟨htables, fun hold => ?_⟩
      rw [hknown, hiff hold]
      exact ⟨fun h => h, fun _ h => h⟩
    · obtain ⟨htables, hcur⟩ := h.detected_other dead lookup case hnode next
      refine ⟨htables, fun hold => ⟨fun _ => hcur hold, fun _ _ bsc' hbsc' heq => ?_⟩⟩
      obtain rfl := Option.some.inj (lookup.symm.trans hbsc')
      exact absurd heq hnode

/-- Only the configured processes run. -/
lemma mem_processes {ok : System → Label → Prop} (hrun : Machine.Reach System.step ok cfg.init σ)
    (ho : ∀ τ, Machine.Reach System.step ok cfg.init τ → Origins τ) (hlive : σ.crashed y = false) :
    y ∈ cfg.processes := by
  have hstart : cfg.init.crashed y = false := by
    refine hrun.invariant_of (I := fun τ => τ.crashed y = false → cfg.init.crashed y = false) ho
      (fun h => h) (fun τ l τ' h hτ _ _ hs hy => h ((System.table_cases hτ hs).live_of_live hy)) hlive
  by_contra hy
  have hne : y ≠ cfg.master := fun heq => hy (heq ▸ List.mem_cons_self)
  have hnone : cfg.bankOf y = none := by
    cases hb : cfg.bankOf y with
    | none => rfl
    | some b =>
      obtain ⟨hb, hmem⟩ := Config.of_bankOf hb
      exact absurd (List.mem_cons_of_mem _ (List.mem_flatMap.mpr ⟨b, hb, hmem⟩)) hy
  simp [Config.init, hne, hnone] at hstart

/-- Once nothing is on its way, a table that is up to date holds the heads themselves. -/
lemma drained (h : HeadTables cfg σ) (haddr : σ.master.addr = cfg.master)
    (hconf : ∀ y, σ.crashed y = false → y ∈ cfg.processes) (hcur : σ.HeadsCurrent)
    (hdrained : σ.Drained cfg) {bsc : BankServerChain}
    (hlookup : σ.master.bankServerChain.lookup id = some bsc) :
    (σ.InRecord bsc.head ∧ σ.crashed bsc.head = false) ∧
      ∀ y, σ.InRecord y → (σ.server y).bankHeadList.lookup id = some bsc.head := by
  have live {y : Address} (hy : σ.InRecord y) : σ.crashed y = false := by
    obtain ⟨e, he, hy⟩ := hy
    exact hdrained.2 e he y hy
  have hhead := System.inRecord_of_mem hlookup (h.head_mem id bsc hlookup)
  refine ⟨⟨hhead, live hhead⟩, fun y hy => ?_⟩
  have hknown := hcur id bsc hlookup y hy (live hy)
  have hempty : σ.link σ.master.addr y = [] := by
    rw [haddr]
    exact hdrained.1 cfg.master List.mem_cons_self y (hconf y (live hy)) (live hy)
  rwa [System.headOf, hempty, finalHead_nil] at hknown

/-- As long as servers join only before any head changes and heads change only while nobody joins, every
server of the record knows every head, or is about to be told; and the first step that breaks the guard
leaves a table out of date. -/
theorem current_iff (hrun : Machine.Reach System.step (System.HeadsKnown cfg) cfg.init σ) :
    (σ.Drained cfg → ∀ id bsc, σ.master.bankServerChain.lookup id = some bsc →
      (σ.InRecord bsc.head ∧ σ.crashed bsc.head = false) ∧
        ∀ y, σ.InRecord y → (σ.server y).bankHeadList.lookup id = some bsc.head) ∧
      σ.HeadsCurrent ∧ ∀ l σ', σ.step l = some σ' → σ'.crashed σ.master.addr = false →
        (σ'.HeadsCurrent ↔ σ.HeadsKnown cfg l) := by
  have origins (τ : System) (hτ : Machine.Reach System.step (System.HeadsKnown cfg) cfg.init τ) :
      Origins τ := hτ.invariant Origins.init fun _ _ _ h _ hs => h.step hs
  have hinv : HeadTables cfg σ ∧ σ.HeadsCurrent ∧ σ.master.addr = cfg.master := by
    refine hrun.invariant_of (I := fun τ => HeadTables cfg τ ∧ τ.HeadsCurrent ∧
      τ.master.addr = cfg.master) origins ⟨init.1, init.2, rfl⟩ fun τ l τ' h ho _ hl hs => ?_
    obtain ⟨htables, hcur, haddr⟩ := h
    obtain ⟨htables', hstep⟩ := htables.step ho hs
    refine ⟨htables', (hstep hcur).1 hl, ?_⟩
    rw [← haddr]
    cases System.table_cases ho hs with
    | quiet quiet => exact quiet.addr
    | master _ _ handled next =>
      rw [next]
      exact System.handleMsg_addr handled
    | detect _ _ _ case next =>
      rw [next]
      exact case.addr
  obtain ⟨htables, hcur, haddr⟩ := hinv
  refine ⟨fun hdrained id bsc hlookup => ?_, hcur, fun l σ' hs hlive => ?_⟩
  · exact htables.drained haddr (fun y => mem_processes hrun origins) hcur hdrained hlookup
  · obtain ⟨hkeep, hbreak⟩ := (htables.step (origins σ hrun) hs).2 hcur
    exact ⟨hbreak hlive, hkeep⟩

open Config

/-- Server 3 takes up what it has been sent. -/
def takeOver : List Label := [hop 2 3, hop 2 3, hop 3 0]

/-- Server 3 joins, and then server 1 dies: the next server is the new head. -/
def joinFirst : System :=
  growingBank.after (System.HeadsKnown growingBank) (extend 3 2 ++ takeOver ++ lose 1 ++ [hop 0 2, hop 0 2, hop 0 3])

lemma joinFirst_reach :
    Machine.Reach System.step (System.HeadsKnown growingBank) growingBank.init joinFirst :=
  reach_after (by decide +kernel)

theorem current_iff_sample :
    (joinFirst.Drained growingBank → ∀ id bsc, joinFirst.master.bankServerChain.lookup id = some bsc →
      (joinFirst.InRecord bsc.head ∧ joinFirst.crashed bsc.head = false) ∧
        ∀ y, joinFirst.InRecord y → (joinFirst.server y).bankHeadList.lookup id = some bsc.head) ∧
      joinFirst.HeadsCurrent ∧ ∀ l σ', joinFirst.step l = some σ' →
        σ'.crashed joinFirst.master.addr = false →
          (σ'.HeadsCurrent ↔ joinFirst.HeadsKnown growingBank l) :=
  current_iff joinFirst_reach

/-- Server 1 dies and then server 3 joins: it still takes server 1 for the head. -/
theorem joiner_keeps_old_head : ¬ ∀ σ, Machine.Reach System.step (System.OneJoin growingBank)
    growingBank.init σ → σ.Drained growingBank → ∀ id bsc,
      σ.master.bankServerChain.lookup id = some bsc → ∀ y, σ.InRecord y →
        (σ.server y).bankHeadList.lookup id = some bsc.head := by
  intro h
  have hhead := h (growingBank.after (System.OneJoin growingBank)
      (lose 1 ++ [hop 0 2, hop 0 2] ++ extend 3 2 ++ takeOver)) (reach_after (by decide +kernel))
    (by decide +kernel) "BOA"
    { head := localAddress 2, tail := localAddress 3, serverChain := [localAddress 2, localAddress 3] }
    (by decide +kernel) (localAddress 3) (by decide +kernel)
  exact absurd hhead (by decide +kernel)

end HeadTables

end ChainReplication
