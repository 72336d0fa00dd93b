import ChainReplication.Library.Heartbeats
import ChainReplication.Master.Detector
import ChainReplication.System.Relinking
import Mathlib.Algebra.Order.Ring.Nat

/-!
# The system with a clock

The heartbeats of the servers and `check_alive`. A detection is no longer a step that the environment
chooses: the master takes a server for crashed when its last report is too long ago. As long as heartbeats
are in time it finds nothing but crashed servers, and what holds without the clock holds with it.
-/

namespace ChainReplication

/-- A heartbeat on its way to the master. -/
structure Beat where
  hb : Heartbeat
  sent : ℕ
deriving DecidableEq

/-- The system with the time, the nodes of the master and the heartbeats on their way. `beatAt` and
`checkedAt` tell when the heartbeat thread of a server and `check_alive` have last done their work. -/
structure Timed where
  system : System
  now : ℕ := 0
  node : String → List Node
  beats : List Beat := []
  beatAt : Address → Option ℕ := fun _ => none
  checkedAt : String → ℕ := fun _ => 0

inductive TimedLabel where
  | tick
  /-- A step of the system other than a detection. -/
  | act (l : Label)
  /-- A server sends a heartbeat. One that gets lost counts as not sent. -/
  | beat (server : Address)
  /-- The master handles a heartbeat. -/
  | report (b : Beat)
  /-- `check_alive` comes to a bank. -/
  | check (bankId : String)
deriving DecidableEq

def Label.isDetect : Label → Bool
  | .detect .. => true
  | _ => false

def Message.join? : Message → Option Join
  | .join j => some j
  | _ => none

/-- The `JOIN` that the master handles in a step. -/
def System.admitted (σ : System) : Label → Option Join
  | .deliver src dst _ =>
    if dst = σ.master.addr then (σ.link src dst).head?.bind Message.join? else none
  | _ => none

namespace Timed

/-- Every process starts at the time 0. -/
def init (cfg : Config) : Timed :=
  { system := cfg.init, node := fun id => (cfg.init.chain id).map fun a => { addr := a } }

/-- `append_node` in `handle_join`. -/
def nodesAfter (τ : Timed) (l : Label) : String → List Node :=
  match τ.system.admitted l with
  | some j => Function.update τ.node j.bankId (τ.node j.bankId ++ [{ addr := j.serverAddr }])
  | none => τ.node

/-- One step of the system with a clock. -/
def step (crashTimeout : ℕ) (τ : Timed) : TimedLabel → Option Timed
  | .tick => some { τ with now := τ.now + 1 }
  | .act l =>
    if l.isDetect then none
    else (τ.system.step l).map fun σ => { τ with system := σ, node := τ.nodesAfter l }
  | .beat s =>
    if s ≠ τ.system.master.addr ∧ ¬ τ.system.crashed s then
      let hb : Heartbeat :=
        { bankId := (τ.system.server s).bankId, serverAddr := (τ.system.server s).localAddr }
      some { τ with
        beats := τ.beats ++ [{ hb := hb, sent := τ.now }]
        beatAt := Function.update τ.beatAt s (some τ.now) }
    else none
  | .report b =>
    if ¬ τ.system.crashed τ.system.master.addr ∧ b ∈ τ.beats then
      let τ := { τ with beats := τ.beats.erase b }
      match τ.system.master.bankServerChain.lookup b.hb.bankId with
      | none => some { τ with system := τ.system.kill τ.system.master.addr }
      | some _ => some { τ with
          node := Function.update τ.node b.hb.bankId
            (Node.handleHeartbeat b.hb.serverAddr τ.now (τ.node b.hb.bankId)) }
    else none
  | .check bankId =>
    if ¬ τ.system.crashed τ.system.master.addr ∧
        (τ.system.master.bankServerChain.lookup bankId).isSome then
      let τ := { τ with checkedAt := Function.update τ.checkedAt bankId τ.now }
      match Node.checkAlive τ.now crashTimeout (τ.node bankId) with
      | none => some τ
      | some (n, l) => some { τ with
          system := τ.system.handleMaster (τ.system.master.notifyCrash bankId n.addr)
          node := Function.update τ.node bankId (Node.removeNode n.addr l) }
    else none

/-- The steps in which no heartbeat is late: the servers send one at least every `period` once they have
begun, and each one is handled after at most `delay`. What else happens is restricted by `ok`. -/
def InTime (cfg : Config) (period delay : ℕ) (ok : System → Label → Prop) (τ : Timed) :
    TimedLabel → Prop
  | .tick =>
    (∀ s ∈ cfg.processes, τ.system.crashed s = false → ∀ e ∈ τ.beatAt s, τ.now < e + period) ∧
      (τ.system.crashed τ.system.master.addr = false → ∀ b ∈ τ.beats, τ.now < b.sent + delay)
  | .act l => ok τ.system l
  | _ => True

instance (cfg : Config) (period delay : ℕ) (ok : System → Label → Prop) [∀ σ l, Decidable (ok σ l)]
    (τ : Timed) (tl : TimedLabel) : Decidable (InTime cfg period delay ok τ tl) :=
  match tl with
  | .tick => inferInstanceAs (Decidable
      ((∀ s ∈ cfg.processes, τ.system.crashed s = false → ∀ e ∈ τ.beatAt s, τ.now < e + period) ∧
        (τ.system.crashed τ.system.master.addr = false → ∀ b ∈ τ.beats, τ.now < b.sent + delay)))
  | .act l => inferInstanceAs (Decidable (ok τ.system l))
  | .beat _ | .report _ | .check _ => inferInstanceAs (Decidable True)

/-- When the heartbeats of `s` that are on their way have been sent. -/
def flight (τ : Timed) (s : Address) : Set ℕ := {t | ∃ b ∈ τ.beats, b.hb.serverAddr = s ∧ b.sent = t}

end Timed

/-! ### Steps of the system -/

variable {cfg : Config} {σ σ' : System} {l : Label} {x y z : Address} {id : String}

namespace System

/-- What no step changes. -/
structure Persists (σ σ' : System) : Prop where
  addr : σ'.master.addr = σ.master.addr
  live : ∀ y, σ'.crashed y = false → σ.crashed y = false
  bankId : ∀ y, (σ'.server y).bankId = (σ.server y).bankId
  trace : σ.trace ⊆ σ'.trace

lemma persists_kill (σ : System) (x : Address) : Persists σ (σ.kill x) := by
  refine ⟨rfl, fun y hlive => ?_, fun _ => rfl, List.Subset.refl _⟩
  by_cases hy : y = x
  · simp [System.kill, hy] at hlive
  · simpa [System.kill, hy] using hlive

lemma Persists.trans {ρ : System} (h : Persists σ σ') (h' : Persists σ' ρ) : Persists σ ρ where
  addr := h'.addr.trans h.addr
  live y hlive := h.live y (h'.live y hlive)
  bankId y := (h'.bankId y).trans (h.bankId y)
  trace := List.Subset.trans h.trace h'.trace

theorem persists (hs : σ.step l = some σ') : Persists σ σ' := by
  cases join_cases hs with
  | @serve _ x msg L out τ taken serve =>
    refine ⟨by rw [spawn_master, serve.master], fun y hlive => ?_, fun y => ?_, ?_⟩
    · rw [spawn_crashed] at hlive
      exact serve.live_of_live hlive
    · rw [spawn_server]
      by_cases hy : y = x
      · subst hy
        rw [serve.server_self]
        exact (ChainServer.handleMsg_roleChange _ _ _).bankId
      · rw [serve.server_of_ne hy]
    · rw [spawn_trace, serve.trace]
      exact List.subset_append_left _ _
  | crash => exact persists_kill σ _
  | master live head handled =>
    exact ⟨handleMsg_addr handled, fun _ h => h, fun _ => rfl, List.subset_append_left _ _⟩
  | @refuse src =>
    have h : Persists σ { σ with link := σ.link.recv src σ.master.addr } :=
      ⟨rfl, fun _ h => h, fun _ => rfl, List.Subset.refl _⟩
    exact h.trans (persists_kill _ _)
  | detect live dead lookup mem case =>
    exact ⟨case.addr, fun _ h => h, fun _ => rfl, List.subset_append_left _ _⟩
  | join => exact ⟨rfl, fun _ h => h, fun _ => rfl, List.subset_append_left _ _⟩
  | snapshot => exact ⟨rfl, fun _ h => h, fun _ => rfl, List.Subset.refl _⟩
  | giveUp => exact ⟨rfl, fun _ h => h, fun _ => rfl, List.Subset.refl _⟩
  | extendSend => exact ⟨rfl, fun _ h => h, fun _ => rfl, List.subset_append_left _ _⟩
  | @finish s i k out _ live sending block complete =>
    have h : Persists σ (σ.finish s i out) := by
      refine ⟨rfl, fun _ h => h, fun y => ?_, List.subset_append_left _ _⟩
      change (Function.update σ.server s (σ.extendBlock s).server y).bankId = _
      by_cases hy : y = s
      · subst hy
        rw [Function.update_self, extendBlock]
        split_ifs <;> rfl
      · rw [Function.update_of_ne hy]
    rcases complete with rfl | rfl
    · exact h
    · exact h.trans (persists_kill _ s)

/-- The chain of a bank after a possible `JOIN`. -/
def chainAfter (σ : System) (id : String) : Option Join → List Address
  | some j => if id = j.bankId then σ.chain id ++ [j.serverAddr] else σ.chain id
  | none => σ.chain id

lemma lookup_setChain (m : Master) (id id' : String) (bsc : BankServerChain) :
    (m.setChain id' bsc).bankServerChain.lookup id =
      if id = id' then some bsc else m.bankServerChain.lookup id := by
  rw [Master.setChain]
  split_ifs with hid
  · rw [hid, AList.lookup_insert]
  · rw [AList.lookup_insert_ne hid]

/-- What handling a message does to the record. -/
inductive RecordCase (m : Master) (msg : Message) : Master → Prop where
  | same (other : msg.join? = none) : RecordCase m msg m
  | join {j bsc bsc'} (message : msg.join? = some j)
      (lookup : m.bankServerChain.lookup j.bankId = some bsc)
      (chain : bsc'.serverChain = bsc.serverChain ++ [j.serverAddr]) :
      RecordCase m msg (m.setChain j.bankId bsc')
  | extendFinish {id bsc bsc'} (other : msg.join? = none)
      (lookup : m.bankServerChain.lookup id = some bsc) (chain : bsc'.serverChain = bsc.serverChain) :
      RecordCase m msg (m.setChain id bsc')

lemma recordCase_of_handleMsg {m m' : Master} {msg : Message} {out : List Packet}
    (h : m.handleMsg msg = some (m', out)) : RecordCase m msg m' := by
  cases msg with
  | join j =>
    simp only [Master.handleMsg, Master.handleJoin, Option.bind_eq_bind, Option.bind_eq_some_iff] at h
    obtain ⟨bsc, hlookup, pre, -, h⟩ := h
    obtain ⟨rfl, -⟩ := Prod.mk.inj (Option.some.inj h)
    exact .join rfl hlookup rfl
  | extendFinish f =>
    simp only [Master.handleMsg, Master.handleExtendFinish, Option.bind_eq_bind,
      Option.bind_eq_some_iff] at h
    obtain ⟨bsc, hlookup, h⟩ := h
    obtain ⟨rfl, -⟩ := Prod.mk.inj (Option.some.inj h)
    exact .extendFinish rfl hlookup rfl
  | _ =>
    obtain ⟨rfl, -⟩ := Prod.mk.inj (Option.some.inj h)
    exact .same rfl

/-- Handling a message changes no chain, except that a server joins. -/
lemma RecordCase.chain {m : Master} {msg : Message} (h : RecordCase σ.master msg m)
    (hσ' : σ'.master = m) (id : String) : σ'.chain id = σ.chainAfter id msg.join? := by
  cases h with
  | same other => rw [other, chainAfter, System.chain, hσ', System.chain]
  | join message lookup chain =>
    rw [message, chainAfter, System.chain, hσ', lookup_setChain]
    split_ifs with hid
    · rw [hid, System.chain, lookup]
      exact chain
    · rfl
  | extendFinish other lookup chain =>
    rw [other, chainAfter, System.chain, hσ', lookup_setChain]
    split_ifs with hid
    · rw [hid, System.chain, lookup]
      exact chain
    · rfl

/-- The record of a bank changes only with a `JOIN`, apart from detections. -/
lemma chain_act (hs : σ.step l = some σ') (hl : l.isDetect = false)
    (hlive : σ'.crashed σ'.master.addr = false) (id : String) :
    σ'.chain id = σ.chainAfter id (σ.admitted l) := by
  have same (h : σ'.master = σ.master) : σ'.chain id = σ.chain id := by
    rw [System.chain, h, System.chain]
  cases l with
  | detect => cases hl
  | deliver src dst k =>
    simp only [step] at hs
    cases hlink : σ.link src dst with
    | nil => simp [hlink] at hs
    | cons msg rest =>
      rw [hlink] at hs
      simp only at hs
      split_ifs at hs with hcrashed hmaster
      · obtain rfl := Option.some.inj hs
        cases hr : σ.master.handleMsg msg with
        | none =>
          rw [hr] at hlive
          simp [handleMaster, kill] at hlive
        | some r =>
          rw [admitted, if_pos hmaster, hlink]
          exact (recordCase_of_handleMsg hr).chain rfl id
      · obtain rfl := Option.some.inj hs
        obtain ⟨out, h⟩ := handle_serve (L := σ.link.recv src dst) (k := k) rfl
          (by simpa using hcrashed) hmaster
        rw [admitted, if_neg hmaster]
        apply same
        rw [spawn_master, h.master]
  | extendFin s i k =>
    apply same
    cases join_cases hs with
    | serve taken serve => rw [spawn_master, serve.master]
    | crash => rfl
    | finish live sending block complete => rcases complete with rfl | rfl <;> rfl
  | _ =>
    apply same
    cases join_cases hs with
    | serve taken serve => rw [spawn_master, serve.master]
    | _ => rfl

/-- No bank gets into the record or out of it. -/
lemma isSome_lookup_step (hs : σ.step l = some σ') (id : String) :
    (σ'.master.bankServerChain.lookup id).isSome = (σ.master.bankServerChain.lookup id).isSome := by
  have set {id' : String} {bsc bsc' : BankServerChain}
      (hlookup : σ.master.bankServerChain.lookup id' = some bsc)
      (hset : σ'.master = σ.master.setChain id' bsc') :
      (σ'.master.bankServerChain.lookup id).isSome =
        (σ.master.bankServerChain.lookup id).isSome := by
    rw [hset, lookup_setChain]
    split_ifs with hid
    · rw [hid, hlookup]
      rfl
    · rfl
  cases join_cases hs with
  | serve taken serve => rw [spawn_master, serve.master]
  | master live head handled =>
    cases recordCase_of_handleMsg handled with
    | same other => rfl
    | join message lookup chain => exact set lookup rfl
    | extendFinish other lookup chain => exact set lookup rfl
  | detect live dead lookup mem case =>
    obtain ⟨bsc', hset, -⟩ := case.record
    exact set lookup hset
  | finish live sending block complete => rcases complete with rfl | rfl <;> rfl
  | _ => rfl

end System

namespace Timed

variable {τ τ' : Timed} {ok : System → Label → Prop} {P D crashTimeout : ℕ} {s : Address}
  {b : Beat} {tl : TimedLabel} {n : Node}

/-! ### The record and the nodes -/

/-- The nodes are those of the record as long as the master is up. -/
structure Mirrors (τ : Timed) : Prop where
  chain : τ.system.crashed τ.system.master.addr = false →
    ∀ id, (τ.node id).map (·.addr) = τ.system.chain id
  watched : ∀ id, Node.Watched (τ.node id)

lemma Mirrors.init : Mirrors (init cfg) := by
  refine ⟨fun _ id => ?_, fun id => ⟨fun n hn => ?_, ?_⟩⟩
  · change ((cfg.init.chain id).map fun a => ({ addr := a } : Node)).map (·.addr) = cfg.init.chain id
    rw [List.map_map]
    exact List.map_id _
  · obtain ⟨a, -, rfl⟩ := List.mem_map.mp hn
    rfl
  · refine List.pairwise_map.mpr (List.pairwise_of_forall ?_)
    exact fun _ _ _ => rfl

/-- A server that joins is appended to the nodes and to the chain. -/
lemma nodesAfter_cases (τ : Timed) (l : Label) (id : String) :
    τ.nodesAfter l id = τ.node id ∧
      τ.system.chainAfter id (τ.system.admitted l) = τ.system.chain id ∨
    ∃ j, τ.system.admitted l = some j ∧ τ.nodesAfter l id = τ.node id ++ [{ addr := j.serverAddr }] ∧
      τ.system.chainAfter id (τ.system.admitted l) = τ.system.chain id ++ [j.serverAddr] := by
  rw [nodesAfter]
  cases τ.system.admitted l with
  | none => exact Or.inl ⟨rfl, rfl⟩
  | some j =>
    dsimp only [System.chainAfter]
    by_cases hid : id = j.bankId
    · rw [if_pos hid, hid, Function.update_self]
      exact Or.inr ⟨j, rfl, rfl, rfl⟩
    · rw [if_neg hid, Function.update_of_ne hid]
      exact Or.inl ⟨rfl, rfl⟩

namespace Mirrors

lemma act (h : Mirrors τ) (hl : l.isDetect = false) (hs : τ.system.step l = some σ) :
    Mirrors { τ with system := σ, node := τ.nodesAfter l } := by
  constructor
  · intro hlive id
    have hp := System.persists hs
    have hchain := h.chain (hp.live _ (hp.addr ▸ hlive)) id
    change (τ.nodesAfter l id).map (·.addr) = σ.chain id
    rw [System.chain_act hs hl hlive]
    rcases τ.nodesAfter_cases l id with ⟨hnode, hafter⟩ | ⟨j, -, hnode, hafter⟩
    · rw [hnode, hafter, hchain]
    · rw [hnode, hafter, List.map_append, hchain]
      rfl
  · intro id
    change Node.Watched (τ.nodesAfter l id)
    rcases τ.nodesAfter_cases l id with ⟨hnode, -⟩ | ⟨j, -, hnode, -⟩
    · rw [hnode]
      exact h.watched id
    · rw [hnode]
      exact (h.watched id).concat

lemma report (h : Mirrors τ) (b : Beat) : Mirrors { τ with
    beats := τ.beats.erase b
    node := Function.update τ.node b.hb.bankId
      (Node.handleHeartbeat b.hb.serverAddr τ.now (τ.node b.hb.bankId)) } := by
  constructor
  · intro hlive id
    dsimp only
    by_cases hid : id = b.hb.bankId
    · rw [hid, Function.update_self, Node.handleHeartbeat_addr]
      exact h.chain hlive _
    · rw [Function.update_of_ne hid]
      exact h.chain hlive id
  · intro id
    dsimp only
    by_cases hid : id = b.hb.bankId
    · rw [hid, Function.update_self]
      exact (h.watched _).handleHeartbeat
    · rw [Function.update_of_ne hid]
      exact h.watched id

/-- The master has found a crashed node and removed it from its record. -/
lemma check (h : Mirrors τ) {l : List Node}
    (hfound : Node.checkAlive τ.now crashTimeout (τ.node id) = some (n, l))
    (hlive : τ.system.crashed τ.system.master.addr = false) (c : String → ℕ) : Mirrors { τ with
      checkedAt := c
      system := τ.system.handleMaster (τ.system.master.notifyCrash id n.addr)
      node := Function.update τ.node id (Node.removeNode n.addr l) } := by
  obtain ⟨-, hremove⟩ := Node.checkAlive_some (h.watched id) hfound
  rw [hremove]
  constructor
  · intro hlive' id'
    dsimp only at hlive' ⊢
    cases hlookup : τ.system.master.bankServerChain.lookup id with
    | none =>
      rw [Master.notifyCrash, hlookup] at hlive'
      simp [System.handleMaster, System.kill] at hlive'
    | some bsc =>
      cases hr : τ.system.master.notifyCrash id n.addr with
      | none =>
        rw [hr] at hlive'
        simp [System.handleMaster, System.kill] at hlive'
      | some r =>
        obtain ⟨m, out⟩ := r
        obtain ⟨bsc', rfl, herase, -⟩ := (Master.notifyCrash_notifyCase hlookup hr).record
        have hchain : ∀ id', System.chain (τ.system.handleMaster
            (some (τ.system.master.setChain id bsc', out))) id' =
              if id' = id then bsc'.serverChain else τ.system.chain id' := by
          intro id'
          change (((τ.system.master.setChain id bsc').bankServerChain.lookup id').map
            (·.serverChain)).getD [] = _
          rw [System.lookup_setChain]
          split_ifs <;> rfl
        rw [hchain]
        split_ifs with hid
        · rw [hid, Function.update_self, Node.removeNode_addr, h.chain hlive, herase, System.chain,
            hlookup]
          rfl
        · rw [Function.update_of_ne hid]
          exact h.chain hlive id'
  · intro id'
    dsimp only
    by_cases hid : id' = id
    · rw [hid, Function.update_self]
      exact (h.watched id).removeNode _
    · rw [Function.update_of_ne hid]
      exact h.watched id'

end Mirrors

/-! ### Inversion -/

/-- What a step of the system with a clock does. -/
inductive TimedCase (crashTimeout : ℕ) (τ : Timed) : TimedLabel → Timed → Prop where
  | tick : TimedCase crashTimeout τ .tick { τ with now := τ.now + 1 }
  | act {l : Label} {σ : System} (plain : l.isDetect = false) (step : τ.system.step l = some σ) :
      TimedCase crashTimeout τ (.act l) { τ with system := σ, node := τ.nodesAfter l }
  | beat {s : Address} (ne_master : s ≠ τ.system.master.addr) (live : τ.system.crashed s = false) :
      TimedCase crashTimeout τ (.beat s) { τ with
        beats := τ.beats ++ [{ hb := { bankId := (τ.system.server s).bankId,
                                       serverAddr := (τ.system.server s).localAddr }, sent := τ.now }]
        beatAt := Function.update τ.beatAt s (some τ.now) }
  | report {b : Beat} (live : τ.system.crashed τ.system.master.addr = false) (mem : b ∈ τ.beats) :
      TimedCase crashTimeout τ (.report b) { τ with
        beats := τ.beats.erase b
        node := Function.update τ.node b.hb.bankId
          (Node.handleHeartbeat b.hb.serverAddr τ.now (τ.node b.hb.bankId)) }
  /-- A heartbeat of an unknown bank ends the master. -/
  | refuse {b : Beat} (mem : b ∈ τ.beats)
      (unknown : τ.system.master.bankServerChain.lookup b.hb.bankId = none) :
      TimedCase crashTimeout τ (.report b) { τ with
        beats := τ.beats.erase b
        system := τ.system.kill τ.system.master.addr }
  | idle {id : String} (nobody : Node.checkAlive τ.now crashTimeout (τ.node id) = none) :
      TimedCase crashTimeout τ (.check id) { τ with
        checkedAt := Function.update τ.checkedAt id τ.now }
  | found {id : String} {n : Node} {l : List Node}
      (live : τ.system.crashed τ.system.master.addr = false)
      (crashed : Node.checkAlive τ.now crashTimeout (τ.node id) = some (n, l)) :
      TimedCase crashTimeout τ (.check id) { τ with
        checkedAt := Function.update τ.checkedAt id τ.now
        system := τ.system.handleMaster (τ.system.master.notifyCrash id n.addr)
        node := Function.update τ.node id (Node.removeNode n.addr l) }

theorem timed_cases (hs : τ.step crashTimeout tl = some τ') : TimedCase crashTimeout τ tl τ' := by
  cases tl with
  | tick =>
    obtain rfl := Option.some.inj hs
    exact .tick
  | act l =>
    simp only [step] at hs
    split_ifs at hs with hdetect
    obtain ⟨σ, hstep, rfl⟩ := Option.map_eq_some_iff.mp hs
    exact .act (by simpa using hdetect) hstep
  | beat s =>
    simp only [step] at hs
    split_ifs at hs with hguard
    obtain rfl := Option.some.inj hs
    exact .beat hguard.1 (by simpa using hguard.2)
  | report b =>
    simp only [step] at hs
    split_ifs at hs with hguard
    cases hlookup : τ.system.master.bankServerChain.lookup b.hb.bankId with
    | none =>
      rw [hlookup] at hs
      obtain rfl := Option.some.inj hs
      exact .refuse hguard.2 hlookup
    | some bsc =>
      rw [hlookup] at hs
      obtain rfl := Option.some.inj hs
      exact .report (by simpa using hguard.1) hguard.2
  | check id =>
    simp only [step] at hs
    split_ifs at hs with hguard
    cases hcheck : Node.checkAlive τ.now crashTimeout (τ.node id) with
    | none =>
      rw [hcheck] at hs
      obtain rfl := Option.some.inj hs
      exact .idle hcheck
    | some r =>
      rw [hcheck] at hs
      obtain rfl := Option.some.inj hs
      exact .found (by simpa using hguard.1) hcheck

/-- The record and the nodes agree whatever the times are. -/
lemma Mirrors.step (h : Mirrors τ) (hs : τ.step crashTimeout tl = some τ') : Mirrors τ' := by
  cases timed_cases hs with
  | tick => exact ⟨h.chain, h.watched⟩
  | act plain step => exact h.act plain step
  | beat => exact ⟨h.chain, h.watched⟩
  | report => exact h.report _
  | refuse =>
    refine ⟨fun hlive => ?_, h.watched⟩
    simp [System.kill] at hlive
  | idle => exact ⟨h.chain, h.watched⟩
  | found live crashed => exact h.check crashed live _

/-! ### What the master hears -/

/-- The banks have a record each, and every live server belongs to one of them. -/
structure Banked (cfg : Config) (σ : System) : Prop where
  record : ∀ id, (σ.master.bankServerChain.lookup id).isSome = true ↔
    ∃ b ∈ cfg.banks, b.bankId = id
  server : ∀ y, y ≠ σ.master.addr → σ.crashed y = false →
    ∃ b ∈ cfg.banks, b.bankId = (σ.server y).bankId

lemma Banked.reach (hrun : Machine.Reach System.step ok cfg.init σ) : Banked cfg σ := by
  refine hrun.invariant ⟨fun id => ⟨fun h => ?_, ?_⟩, fun y hy hlive => ?_⟩ fun τ l τ' h _ hs => ?_
  · obtain ⟨bsc, hlookup⟩ := Option.isSome_iff_exists.mp h
    obtain ⟨b, hb, hid, -⟩ := Config.of_initMaster_lookup hlookup
    exact ⟨b, hb, hid⟩
  · rintro ⟨b, hb, rfl⟩
    exact Option.isSome_iff_exists.mpr ⟨_, Config.initMaster_lookup hb⟩
  · have hconf : cfg.bankOf y ≠ none := by
      intro hnone
      have hne : y ≠ cfg.master := hy
      simp [Config.init, hnone, hne] at hlive
    obtain ⟨b, hb⟩ := Option.ne_none_iff_exists'.mp hconf
    refine ⟨b, (Config.of_bankOf hb).1, ?_⟩
    change _ = (cfg.initServer y).bankId
    rw [Config.initServer, hb]
  · have hp := System.persists hs
    refine ⟨fun id => by rw [System.isSome_lookup_step hs, h.record], fun y hy hlive => ?_⟩
    rw [hp.bankId]
    exact h.server y (hp.addr ▸ hy) (hp.live y hlive)

/-- What the heartbeats on their way, the turns of the heartbeat threads and the times of the last reports
have to do with each other. -/
structure Monitored (cfg : Config) (P D : ℕ) (τ : Timed) : Prop where
  beat : ∀ b ∈ τ.beats, (∃ e ∈ τ.beatAt b.hb.serverAddr, b.sent ≤ e) ∧
    b.hb.bankId = (τ.system.server b.hb.serverAddr).bankId ∧ ∃ c ∈ cfg.banks, c.bankId = b.hb.bankId
  past : ∀ s, ∀ e ∈ τ.beatAt s, e ≤ τ.now
  period : ∀ s, τ.system.crashed s = false → ∀ e ∈ τ.beatAt s, τ.now ≤ e + P
  delay : τ.system.crashed τ.system.master.addr = false → ∀ b ∈ τ.beats, τ.now ≤ b.sent + D
  heard : ∀ id, ∀ n ∈ τ.node id, n.reported = true → id = (τ.system.server n.addr).bankId ∧
    ∃ e ∈ τ.beatAt n.addr, n.lastReportTime ≤ e + D ∧ (τ.system.crashed n.addr = false →
      Heartbeats.Heard P (τ.flight n.addr) e n.lastReportTime)

namespace Monitored

lemma init : Monitored cfg P D (Timed.init cfg) := by
  refine ⟨fun b hb => ?_, fun s e he => ?_, fun s _ e he => ?_, fun _ b hb => ?_, ?_⟩
  · cases hb
  · cases he
  · cases he
  · cases hb
  · intro id n hn hreported
    obtain ⟨a, -, rfl⟩ := List.mem_map.mp hn
    cases hreported

lemma tick (h : Monitored cfg P D τ) (hprocesses : ∀ s, τ.system.crashed s = false → s ∈ cfg.processes)
    (hguard : InTime cfg P D ok τ .tick) : Monitored cfg P D { τ with now := τ.now + 1 } where
  beat := h.beat
  past s e he := (h.past s e he).trans (Nat.le_succ _)
  period s hlive e he := hguard.1 s (hprocesses s hlive) hlive e he
  delay hlive b hb := hguard.2 hlive b hb
  heard := h.heard

/-- A step that leaves the heartbeats alone and brings no nodes that have reported. -/
lemma of_persists (h : Monitored cfg P D τ) (hp : System.Persists τ.system τ'.system)
    (now : τ'.now = τ.now) (beats : τ'.beats = τ.beats) (beatAt : τ'.beatAt = τ.beatAt)
    (node : ∀ id, ∀ n ∈ τ'.node id, n.reported = true → n ∈ τ.node id) : Monitored cfg P D τ' := by
  have hflight (s : Address) : τ'.flight s = τ.flight s := by rw [flight, beats, flight]
  constructor
  · rw [beats, beatAt]
    intro b hb
    rw [hp.bankId]
    exact h.beat b hb
  · rw [beatAt, now]
    exact h.past
  · rw [beatAt, now]
    exact fun s hlive => h.period s (hp.live s hlive)
  · rw [beats, now, hp.addr]
    exact fun hlive => h.delay (hp.live _ hlive)
  · intro id n hn hreported
    obtain ⟨hid, e, he, hle, hheard⟩ := h.heard id n (node id n hn hreported) hreported
    rw [hp.bankId, beatAt, hflight]
    exact ⟨hid, e, he, hle, fun hlive => hheard (hp.live _ hlive)⟩

lemma beat_step (h : Monitored cfg P D τ) (haddr : (τ.system.server s).localAddr = s)
    (hbank : ∃ c ∈ cfg.banks, c.bankId = (τ.system.server s).bankId) : Monitored cfg P D { τ with
      beats := τ.beats ++ [{ hb := { bankId := (τ.system.server s).bankId,
                                     serverAddr := (τ.system.server s).localAddr }, sent := τ.now }]
      beatAt := Function.update τ.beatAt s (some τ.now) } := by
  rw [haddr]
  have hmem {t : ℕ} {y : Address} (ht : t ∈ τ.flight y) :
      ∃ b ∈ τ.beats ++ [{ hb := { bankId := (τ.system.server s).bankId, serverAddr := s },
                          sent := τ.now }], b.hb.serverAddr = y ∧ b.sent = t := by
    obtain ⟨b, hb, hy, ht⟩ := ht
    exact ⟨b, List.mem_append_left _ hb, hy, ht⟩
  constructor
  · intro b hb
    rcases List.mem_append.mp hb with hb | hb
    · obtain ⟨⟨e, he, hle⟩, hrest⟩ := h.beat b hb
      refine ⟨?_, hrest⟩
      by_cases hs : b.hb.serverAddr = s
      · exact ⟨τ.now, by simp [hs], hle.trans (h.past _ e he)⟩
      · exact ⟨e, by simpa [hs] using he, hle⟩
    · obtain rfl := List.mem_singleton.mp hb
      exact ⟨⟨τ.now, by simp, le_rfl⟩, rfl, hbank⟩
  · intro y e he
    by_cases hy : y = s
    · obtain rfl : τ.now = e := by simpa [hy] using he
      exact le_rfl
    · exact h.past y e (by simpa [hy] using he)
  · intro y hlive' e he
    by_cases hy : y = s
    · obtain rfl : τ.now = e := by simpa [hy] using he
      exact Nat.le_add_right _ _
    · exact h.period y hlive' e (by simpa [hy] using he)
  · intro hmaster b hb
    rcases List.mem_append.mp hb with hb | hb
    · exact h.delay hmaster b hb
    · obtain rfl := List.mem_singleton.mp hb
      exact Nat.le_add_right _ _
  · intro id n hn hreported
    obtain ⟨hid, e, he, hle, hheard⟩ := h.heard id n hn hreported
    refine ⟨hid, ?_⟩
    by_cases hy : n.addr = s
    · refine ⟨τ.now, by simp [hy], hle.trans (Nat.add_le_add_right (h.past _ e he) D), fun hlive' => ?_⟩
      refine (hheard hlive').send (h.period _ hlive' e he) ?_ fun t ht => hmem ht
      exact ⟨_, List.mem_append_right _ (List.mem_singleton_self _), hy.symm, rfl⟩
    · refine ⟨e, by simpa [hy] using he, hle, fun hlive' => ?_⟩
      exact (hheard hlive').mono fun t ht => hmem ht

/-- The master hears of a server. -/
lemma report (h : Monitored cfg P D τ) (hm : Mirrors τ)
    (hlive : τ.system.crashed τ.system.master.addr = false) (hb : b ∈ τ.beats) :
    Monitored cfg P D { τ with
      beats := τ.beats.erase b
      node := Function.update τ.node b.hb.bankId
        (Node.handleHeartbeat b.hb.serverAddr τ.now (τ.node b.hb.bankId)) } := by
  have hmem {b' : Beat} (hb' : b' ∈ τ.beats.erase b) : b' ∈ τ.beats := List.mem_of_mem_erase hb'
  refine ⟨fun b' hb' => h.beat b' (hmem hb'), h.past, h.period,
    fun hmaster b' hb' => h.delay hmaster b' (hmem hb'), fun id n hn hreported => ?_⟩
  obtain ⟨⟨e, he, hsent⟩, hbank, -⟩ := h.beat b hb
  -- a heartbeat of another server stays on its way
  have other (hn : n ∈ τ.node id) (hne : n.addr ≠ b.hb.serverAddr) :
      id = (τ.system.server n.addr).bankId ∧ ∃ e ∈ τ.beatAt n.addr, n.lastReportTime ≤ e + D ∧
        (τ.system.crashed n.addr = false → Heartbeats.Heard P
          {t | ∃ b' ∈ τ.beats.erase b, b'.hb.serverAddr = n.addr ∧ b'.sent = t} e n.lastReportTime) := by
    obtain ⟨hid, e, he, hle, hheard⟩ := h.heard id n hn hreported
    refine ⟨hid, e, he, hle, fun hlive' => (hheard hlive').mono ?_⟩
    rintro t ⟨b', hb', haddr, rfl⟩
    refine ⟨b', (List.mem_erase_of_ne ?_).mpr hb', haddr, rfl⟩
    rintro rfl
    exact hne haddr.symm
  dsimp only at hn
  by_cases hid : id = b.hb.bankId
  · rw [hid, Function.update_self] at hn
    rcases Node.mem_handleHeartbeat (hm.watched _) hn hreported with ⟨haddr, hlast⟩ | ⟨hne, hn⟩
    · rw [haddr, hlast]
      refine ⟨hid.trans hbank, e, he, ?_, fun _ => .receive (h.past _ e he)⟩
      exact (h.delay hlive b hb).trans (Nat.add_le_add_right hsent D)
    · exact other (hid ▸ hn) hne
  · rw [Function.update_of_ne hid] at hn
    refine other hn fun heq => hid ?_
    rw [(h.heard id n hn hreported).1, heq, hbank]

/-- A server that is overdue has crashed. -/
lemma crashed_of_overdue (h : Monitored cfg P D τ) (hlag : P + D ≤ crashTimeout)
    (hlive : τ.system.crashed τ.system.master.addr = false) (hn : n ∈ τ.node id)
    (hlate : n.Overdue τ.now crashTimeout) : τ.system.crashed n.addr = true := by
  by_contra hup
  have hup : τ.system.crashed n.addr = false := by simpa using hup
  obtain ⟨-, e, he, -, hheard⟩ := h.heard id n hn hlate.1
  have hsilence : τ.now ≤ n.lastReportTime + (P + D) := by
    refine (hheard hup).now_le (h.period _ hup e he) ?_ (Nat.zero_le D)
    rintro t ⟨b, hb, -, rfl⟩
    exact h.delay hlive b hb
  have hlate := hlate.2
  omega

end Monitored

/-- What `check_alive` finds is a step of the system without the clock. -/
lemma detect_step (h : Monitored cfg P D τ) (hm : Mirrors τ) (hlag : P + D ≤ crashTimeout)
    (hlive : τ.system.crashed τ.system.master.addr = false) {l : List Node}
    (hfound : Node.checkAlive τ.now crashTimeout (τ.node id) = some (n, l)) :
    τ.system.step (.detect id n.addr) =
      some (τ.system.handleMaster (τ.system.master.notifyCrash id n.addr)) := by
  obtain ⟨⟨m, hmem, haddr, hlate⟩, -⟩ := Node.checkAlive_some (hm.watched id) hfound
  have hcrashed := h.crashed_of_overdue hlag hlive hmem hlate
  have hchain : n.addr ∈ τ.system.chain id := by
    rw [← hm.chain hlive, ← haddr]
    exact List.mem_map_of_mem hmem
  rw [System.step, if_pos]
  refine ⟨by simp [hlive], haddr ▸ hcrashed, ?_⟩
  rw [System.chain] at hchain
  cases hlookup : τ.system.master.bankServerChain.lookup id with
  | none => simp [hlookup] at hchain
  | some bsc => simpa [hlookup] using hchain

/-! ### Runs -/

/-- The system without the clock has made the same run. -/
structure Follows (cfg : Config) (P D : ℕ) (ok : System → Label → Prop) (τ : Timed) : Prop where
  run : Machine.Reach System.step ok cfg.init τ.system
  mirrors : Mirrors τ
  monitored : Monitored cfg P D τ

lemma Follows.step (hdetect : ∀ σ id node, ok σ (.detect id node)) (hlag : P + D ≤ crashTimeout)
    (h : Follows cfg P D ok τ) (hguard : InTime cfg P D ok τ tl)
    (hs : τ.step crashTimeout tl = some τ') : Follows cfg P D ok τ' := by
  obtain ⟨hrun, hm, hmon⟩ := h
  have hm' : Mirrors τ' := hm.step hs
  have horigins : Origins τ.system := hrun.invariant Origins.init fun _ _ _ h _ hs => h.step hs
  have hbanked : Banked cfg τ.system := Banked.reach hrun
  cases timed_cases hs with
  | tick =>
    exact ⟨hrun, hm', hmon.tick (fun _ => System.mem_processes hrun) hguard⟩
  | @act l σ plain step =>
    refine ⟨hrun.tail ⟨l, hguard, step⟩, hm', ?_⟩
    refine hmon.of_persists (System.persists step) rfl rfl rfl fun id n hn hreported => ?_
    dsimp only at hn
    rcases τ.nodesAfter_cases l id with ⟨hnode, -⟩ | ⟨j, -, hnode, -⟩
    · rwa [← hnode]
    · rw [hnode, List.mem_append] at hn
      rcases hn with hn | hn
      · exact hn
      · obtain rfl := List.mem_singleton.mp hn
        cases hreported
  | beat ne_master live =>
    refine ⟨hrun, hm', hmon.beat_step (horigins.localAddr _ ne_master live) ?_⟩
    exact hbanked.server _ ne_master live
  | report live mem => exact ⟨hrun, hm', hmon.report hm live mem⟩
  | refuse mem unknown =>
    obtain ⟨-, -, hbank⟩ := hmon.beat _ mem
    have hrecord := (hbanked.record _).mpr hbank
    rw [unknown] at hrecord
    cases hrecord
  | idle nobody =>
    refine ⟨hrun, hm', ?_⟩
    exact hmon.of_persists ⟨rfl, fun _ h => h, fun _ => rfl, List.Subset.refl _⟩ rfl rfl rfl
      fun _ _ hn _ => hn
  | @found id n l live crashed =>
    have hstep := detect_step hmon hm hlag live crashed
    refine ⟨hrun.tail ⟨_, hdetect _ _ _, hstep⟩, hm', ?_⟩
    refine hmon.of_persists (System.persists hstep) rfl rfl rfl fun id' n' hn _ => ?_
    dsimp only at hn
    by_cases hid : id' = id
    · rw [hid, Function.update_self, (Node.checkAlive_some (hm.watched id) crashed).2] at hn
      rw [hid]
      exact List.mem_of_mem_eraseP hn
    · rwa [Function.update_of_ne hid] at hn

lemma Follows.reach (hdetect : ∀ σ id node, ok σ (.detect id node)) (hlag : P + D ≤ crashTimeout)
    (hrun : Machine.Reach (Timed.step crashTimeout) (InTime cfg P D ok) (Timed.init cfg) τ) :
    Follows cfg P D ok τ :=
  hrun.invariant ⟨.refl, .init, .init⟩ fun _ _ _ h hguard hs => h.step hdetect hlag hguard hs

end Timed

/-- If the heartbeats are sent and arrive in time, `check_alive` removes none but crashed servers, and every
run with the clock is a run in which the environment chooses the detections. -/
theorem timed_refines {τ : Timed} {ok : System → Label → Prop} {P D crashTimeout : ℕ}
    (hdetect : ∀ σ id node, ok σ (.detect id node)) (hlag : P + D ≤ crashTimeout)
    (hrun : Machine.Reach (Timed.step crashTimeout) (Timed.InTime cfg P D ok) (Timed.init cfg) τ) :
    Machine.Reach System.step ok cfg.init τ.system ∧
      (τ.system.crashed cfg.master = false → ∀ id, (τ.node id).map (·.addr) = τ.system.chain id ∧
        ∀ n ∈ τ.node id, n.Overdue τ.now crashTimeout → τ.system.crashed n.addr = true) := by
  obtain ⟨hsystem, hm, hmon⟩ := Timed.Follows.reach hdetect hlag hrun
  have haddr : τ.system.master.addr = cfg.master :=
    hsystem.invariant (I := fun σ => σ.master.addr = cfg.master) rfl
      fun _ _ _ h _ hs => (System.persists hs).addr.trans h
  rw [← haddr]
  exact ⟨hsystem, fun hlive id => ⟨hm.chain hlive id,
    fun n hn hlate => hmon.crashed_of_overdue hlag hlive hn hlate⟩⟩

/-- The server `n` of the first bank sends a heartbeat at the time `t`, and the master handles it at once. -/
def Timed.pulse (n t : ℕ) : List TimedLabel :=
  [.beat (Config.localAddress n),
    .report { hb := { bankId := "BOA", serverAddr := Config.localAddress n }, sent := t }]

open Config Timed in
/-- The tail dies while a server joins, and is found four ticks after its last heartbeat. -/
theorem timed_refines_tail :
    let cfg := growingBank
    let τ := Machine.after (Timed.step 3) (InTime cfg 2 1 (System.OneJoin cfg)) (Timed.init cfg)
      (pulse 1 0 ++ pulse 2 0 ++ [.act (.join (localAddress 3)), .act (hop 3 0)] ++ pulse 3 0 ++
        [.act (.crash (localAddress 2)), .tick] ++ pulse 1 1 ++ [.tick] ++ pulse 1 2 ++ pulse 3 2 ++
        [.check "BOA", .tick] ++ pulse 1 3 ++ pulse 3 3 ++ [.tick, .check "BOA"])
    Machine.Reach System.step (System.OneJoin cfg) cfg.init τ.system ∧
      (τ.system.crashed cfg.master = false → ∀ id, (τ.node id).map (·.addr) = τ.system.chain id ∧
        ∀ n ∈ τ.node id, n.Overdue τ.now 3 → τ.system.crashed n.addr = true) :=
  timed_refines (fun _ _ _ => trivial) (by decide) (Machine.reach_after (by decide +kernel))

end ChainReplication
