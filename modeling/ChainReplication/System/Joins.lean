import ChainReplication.System.Steps
import ChainReplication.System.Config
import ChainReplication.Server.Roles
import ChainReplication.Master.Extending

/-!
# The steps of a system with joins

`JoinCase` lists what a step can do when servers may join. Every bank is joined by at most one
server (`OneJoin`), and the trace tells which one has asked and been let in.
-/

namespace ChainReplication

/-- `y` sends `JOIN`. -/
def Event.asksFor (y : Address) : Event → Bool
  | .sent x (.tcp _ (.join _)) => x = y
  | _ => false

/-- A tail is told that `y` joins. -/
def Event.announces (y : Address) : Event → Bool
  | .sent _ (.tcp _ (.extendServer a)) => a = y
  | _ => false

namespace System

/-- `y` has sent `JOIN`. -/
def Asked (σ : System) (y : Address) : Prop := ∃ e ∈ σ.trace, e.asksFor y = true

/-- The master has handled the `JOIN` of `y`. -/
def Joining (σ : System) (y : Address) : Prop := ∃ e ∈ σ.trace, e.announces y = true

instance (σ : System) (y : Address) : Decidable (σ.Asked y) :=
  inferInstanceAs (Decidable (∃ e ∈ σ.trace, e.asksFor y = true))

/-- Only the configured servers join, and only one for each bank. -/
def OneJoin (cfg : Config) (σ : System) : Label → Prop
  | .join s => ∃ b ∈ cfg.banks, s ∈ b.extendServers ∧ ∀ y ∈ b.extendServers, ¬ σ.Asked y
  | _ => True

instance (cfg : Config) (σ : System) (l : Label) : Decidable (OneJoin cfg σ l) :=
  match l with
  | .join s => inferInstanceAs (Decidable
      (∃ b ∈ cfg.banks, s ∈ b.extendServers ∧ ∀ y ∈ b.extendServers, ¬ σ.Asked y))
  | .client .. | .deliver .. | .crash _ | .detect .. | .snapshot .. | .extendSend .. | .extendFin .. =>
    inferInstanceAs (Decidable True)

/-- The state after the last block of an extension thread of `s`. -/
def finish (σ : System) (s : Address) (i : ℕ) (out : List Packet) : System :=
  (({ σ with server := Function.update σ.server s (σ.extendBlock s).server } : System).emit s
    out).setThreads s ((σ.thread s).eraseIdx i)

/-- The steps of a system. -/
inductive JoinCase (σ : System) : Label → System → Prop where
  | serve {l x msg L out τ} (taken : Taken σ x msg L) (serve : Serve σ x msg L out τ) :
      JoinCase σ l (τ.spawn x msg)
  | crash {l x} : JoinCase σ l (σ.kill x)
  | master {src msg rest k m out} (live : σ.crashed σ.master.addr = false)
      (head : σ.link src σ.master.addr = msg :: rest)
      (handled : σ.master.handleMsg msg = some (m, out)) :
      JoinCase σ (.deliver src σ.master.addr k)
        ({ σ with link := σ.link.recv src σ.master.addr, master := m }.emit m.addr out)
  /-- An assertion of the master fails. -/
  | refuse {src msg rest k} (live : σ.crashed σ.master.addr = false)
      (head : σ.link src σ.master.addr = msg :: rest) :
      JoinCase σ (.deliver src σ.master.addr k)
        ({ σ with link := σ.link.recv src σ.master.addr }.kill σ.master.addr)
  | detect {id node bsc m out} (live : σ.crashed σ.master.addr = false)
      (dead : σ.crashed node = true) (lookup : σ.master.bankServerChain.lookup id = some bsc)
      (mem : node ∈ bsc.serverChain) (case : Master.NotifyCase σ.master id node bsc m out) :
      JoinCase σ (.detect id node) ({ σ with master := m }.emit m.addr out)
  | join {s} (ne_master : s ≠ σ.master.addr) (live : σ.crashed s = false) : JoinCase σ (.join s)
      (σ.emit s [.tcp σ.master.addr (.join
        { bankId := (σ.server s).bankId, serverAddr := (σ.server s).localAddr })])
  | snapshot {s i accounts processed} (live : σ.crashed s = false)
      (spawned : (σ.thread s)[i]? = some .spawned) :
      JoinCase σ (.snapshot s i accounts processed) (σ.setThreads s
        ((σ.thread s).set i (.sending ((σ.server s).snapshotMsgs accounts processed))))
  /-- The joining server has crashed: the thread ends. -/
  | giveUp {s i} (live : σ.crashed s = false) :
      JoinCase σ (.extendSend s i) (σ.setThreads s ((σ.thread s).eraseIdx i))
  | extendSend {s i m ms} (live : σ.crashed s = false)
      (sending : (σ.thread s)[i]? = some (.sending (m :: ms))) :
      JoinCase σ (.extendSend s i) ((σ.emit s
        [.tcp (σ.server s).succServerAddr (.extendMsg m)]).setThreads s
          ((σ.thread s).set i (.sending ms)))
  | finish {s i k out σ'} (live : σ.crashed s = false)
      (sending : (σ.thread s)[i]? = some (.sending [])) (block : out <+: (σ.extendBlock s).out)
      (complete : σ' = σ.finish s i out ∨ σ' = (σ.finish s i out).kill s) :
      JoinCase σ (.extendFin s i k) σ'

/-- What a step does to the servers. -/
inductive ServersCase (σ : System) (l : Label) (σ' : System) : Prop where
  | serve {x msg} (delivery : σ.delivery l = some (x, msg)) (live : σ.crashed x = false)
      (ne_master : x ≠ σ.master.addr) (server : σ'.server =
        Function.update σ.server x ((σ.server x).handleMsg σ.master.addr msg).server) :
      ServersCase σ l σ'
  | finish {s i k} (label : l = .extendFin s i k)
      (server : σ'.server = Function.update σ.server s (σ.extendBlock s).server) : ServersCase σ l σ'
  | keep (idle : ∀ d ∈ σ.delivery l, d.1 = σ.master.addr) (server : σ'.server = σ.server) :
      ServersCase σ l σ'

variable {cfg : Config} {σ σ' : System} {l : Label} {x y s : Address} {msg m : Message}

/-! ### Inversion -/

section Spawn

variable (σ : System) (x : Address) (msg : Message)

@[simp] lemma spawn_server : (σ.spawn x msg).server = σ.server := by cases msg <;> rfl
@[simp] lemma spawn_crashed : (σ.spawn x msg).crashed = σ.crashed := by cases msg <;> rfl
@[simp] lemma spawn_link : (σ.spawn x msg).link = σ.link := by cases msg <;> rfl
@[simp] lemma spawn_master : (σ.spawn x msg).master = σ.master := by cases msg <;> rfl
@[simp] lemma spawn_trace : (σ.spawn x msg).trace = σ.trace := by cases msg <;> rfl

lemma mem_spawn_thread {t : ExtendThread} (h : t ∈ (σ.spawn x msg).thread y) :
    t ∈ σ.thread y ∨ y = x ∧ t = .spawned ∧ ∃ a, msg = .extendServer a := by
  cases msg with
  | extendServer a =>
    simp only [spawn, setThreads] at h
    by_cases hyx : y = x
    · subst hyx
      rw [Function.update_self, List.mem_append, List.mem_singleton] at h
      exact h.imp id fun h => ⟨rfl, h, a, rfl⟩
    · rw [Function.update_of_ne hyx] at h
      exact Or.inl h
  | _ => exact Or.inl h

end Spawn

/-- No handler of the master changes its address. -/
lemma handleMsg_addr {m m' : Master} {out : List Packet} (h : m.handleMsg msg = some (m', out)) :
    m'.addr = m.addr := by
  cases msg with
  | join j =>
    simp only [Master.handleMsg, Master.handleJoin, Option.bind_eq_bind,
      Option.bind_eq_some_iff] at h
    obtain ⟨_, -, _, -, h⟩ := h
    obtain ⟨rfl, -⟩ := Prod.mk.inj (Option.some.inj h)
    rfl
  | extendFinish f =>
    simp only [Master.handleMsg, Master.handleExtendFinish, Option.bind_eq_bind,
      Option.bind_eq_some_iff] at h
    obtain ⟨_, -, h⟩ := h
    obtain ⟨rfl, -⟩ := Prod.mk.inj (Option.some.inj h)
    rfl
  | _ =>
    obtain ⟨rfl, -⟩ := Prod.mk.inj (Option.some.inj h)
    rfl

theorem join_cases (hs : σ.step l = some σ') : JoinCase σ l σ' := by
  cases l with
  | client s req k =>
    simp only [step] at hs
    split_ifs at hs with hguard
    obtain ⟨hne, hlive, hseq, htype⟩ := hguard
    obtain rfl := Option.some.inj hs
    obtain ⟨out, h⟩ := handle_serve (L := σ.link) (k := k) rfl (by simpa using hlive) hne
    exact .serve (.client hseq htype) h
  | deliver src dst k =>
    simp only [step] at hs
    cases hlink : σ.link src dst with
    | nil => simp [hlink] at hs
    | cons msg rest =>
      rw [hlink] at hs
      simp only at hs
      split_ifs at hs with hcrashed hmaster
      · obtain rfl := Option.some.inj hs
        subst hmaster
        have hlive : σ.crashed σ.master.addr = false := by simpa using hcrashed
        cases hr : σ.master.handleMsg msg with
        | none => exact .refuse hlive hlink
        | some r => exact .master hlive hlink hr
      · obtain rfl := Option.some.inj hs
        obtain ⟨out, h⟩ := handle_serve (L := σ.link.recv src dst) (k := k) rfl
          (by simpa using hcrashed) hmaster
        exact .serve (.link hlink) h
  | crash s =>
    simp only [step] at hs
    split_ifs at hs
    obtain rfl := Option.some.inj hs
    exact .crash
  | detect id node =>
    simp only [step] at hs
    split_ifs at hs with hguard
    obtain ⟨hlive, hdead, hmem⟩ := hguard
    obtain rfl := Option.some.inj hs
    cases hlookup : σ.master.bankServerChain.lookup id with
    | none => simp [hlookup] at hmem
    | some bsc =>
      have hmem : node ∈ bsc.serverChain := by simpa [hlookup] using hmem
      cases hr : σ.master.notifyCrash id node with
      | none => exact .crash
      | some r =>
        have hcase := Master.notifyCrash_notifyCase hlookup hr
        exact .detect (by simpa using hlive) hdead hlookup hmem hcase
  | join s =>
    simp only [step] at hs
    split_ifs at hs with hguard
    obtain rfl := Option.some.inj hs
    exact .join hguard.1 (by simpa using hguard.2)
  | snapshot s i accounts processed =>
    simp only [step] at hs
    split_ifs at hs with hguard
    obtain rfl := Option.some.inj hs
    exact .snapshot (by simpa using hguard.1) hguard.2.1
  | extendSend s i =>
    simp only [step] at hs
    split at hs
    · next m ms hlive hsending =>
      split_ifs at hs
      · obtain rfl := Option.some.inj hs
        exact .giveUp hlive
      · obtain rfl := Option.some.inj hs
        exact .extendSend hlive hsending
    · cases hs
  | extendFin s i k =>
    simp only [step] at hs
    split at hs
    · next hlive hsending =>
      obtain rfl := Option.some.inj hs
      cases k with
      | none => exact .finish hlive hsending List.prefix_rfl (Or.inl (if_pos rfl))
      | some n => exact .finish hlive hsending (List.take_prefix _ _) (Or.inr (if_neg (by simp)))
    · cases hs

lemma handleMaster_server (r : Option (Master × List Packet)) :
    (σ.handleMaster r).server = σ.server := by
  cases r <;> rfl

theorem servers_cases (hs : σ.step l = some σ') : ServersCase σ l σ' := by
  cases l with
  | client s req k =>
    simp only [step] at hs
    split_ifs at hs with hguard
    obtain rfl := Option.some.inj hs
    obtain ⟨out, h⟩ :=
      @handle_serve σ (.request req) σ.link _ k s rfl (by simpa using hguard.2.1) hguard.1
    exact .serve rfl h.live h.ne_master h.server
  | deliver src dst k =>
    simp only [step] at hs
    cases hlink : σ.link src dst with
    | nil => simp [hlink] at hs
    | cons msg rest =>
      have hdelivery : σ.delivery (.deliver src dst k) = some (dst, msg) := by rw [delivery, hlink]; rfl
      rw [hlink] at hs
      simp only at hs
      split_ifs at hs with hcrashed hmaster
      · obtain rfl := Option.some.inj hs
        refine .keep ?_ (handleMaster_server _)
        rw [hdelivery]
        rintro d ⟨⟩
        exact hmaster
      · obtain rfl := Option.some.inj hs
        obtain ⟨out, h⟩ :=
          @handle_serve σ msg (σ.link.recv src dst) _ k dst rfl (by simpa using hcrashed) hmaster
        refine .serve hdelivery h.live h.ne_master ?_
        rw [spawn_server]
        exact h.server
  | crash s =>
    simp only [step] at hs
    split_ifs at hs
    obtain rfl := Option.some.inj hs
    exact .keep (by rintro d ⟨⟩) rfl
  | detect id node =>
    simp only [step] at hs
    split_ifs at hs
    obtain rfl := Option.some.inj hs
    exact .keep (by rintro d ⟨⟩) (handleMaster_server _)
  | join s =>
    simp only [step] at hs
    split_ifs at hs
    obtain rfl := Option.some.inj hs
    exact .keep (by rintro d ⟨⟩) rfl
  | snapshot s i accounts processed =>
    simp only [step] at hs
    split_ifs at hs
    obtain rfl := Option.some.inj hs
    exact .keep (by rintro d ⟨⟩) rfl
  | extendSend s i =>
    simp only [step] at hs
    split at hs
    · split_ifs at hs
      · obtain rfl := Option.some.inj hs
        exact .keep (by rintro d ⟨⟩) rfl
      · obtain rfl := Option.some.inj hs
        exact .keep (by rintro d ⟨⟩) rfl
    · cases hs
  | extendFin s i k =>
    simp only [step] at hs
    split at hs
    · obtain rfl := Option.some.inj hs
      refine .finish rfl ?_
      cases k <;> rfl
    · cases hs

end System

end ChainReplication
