import ChainReplication.Library.Descent
import ChainReplication.Server.Levels
import ChainReplication.System.Config
import ChainReplication.System.Once
import ChainReplication.System.Pending
import ChainReplication.System.Relinking
import Mathlib.Algebra.Order.BigOperators.Group.List
import Mathlib.Algebra.Order.Ring.Nat
import Mathlib.Data.Prod.Lex

/-!
# The system comes to rest

Each message in flight leads to messages of lower rank only, and each detected crash takes a server out of
the record. So without new requests only finitely many deliveries and detections are possible, in whatever
order they come, and where none is left the system is drained.
-/

namespace ChainReplication

variable {cfg : Config} {b : BankConfig} {σ σ' : System} {l : Label} {x y z : Address}
  {msg m : Message} {L : Links Address Message} {out : List Packet}

/-- The steps that need no client, no crash and no joining server. A handler may still die. -/
def Label.settles : Label → Bool
  | .deliver .. | .detect .. => true
  | _ => false

lemma Label.noJoin_of_settles (h : l.settles = true) : System.NoJoin σ l := by
  cases l <;> simp_all [settles, System.NoJoin, isJoin]

/-! ### Ranks -/

namespace Config

/-- The place of a server in its chain, from the head. -/
def place (cfg : Config) (y : Address) : ℕ := (cfg.bankOf y).elim 0 fun b => b.servers.idxOf y

/-- The place of a server in its chain, from the tail. -/
def placeFromTail (cfg : Config) (y : Address) : ℕ :=
  (cfg.bankOf y).elim 0 fun b => b.servers.length - b.servers.idxOf y

/-- The rank of a message for `y`: updates go down a chain, acknowledgements go up. -/
def rank (cfg : Config) (y : Address) (m : Message) : ℕ ×ₗ ℕ :=
  toLex (m.level, if m.ack?.isSome then cfg.place y else cfg.placeFromTail y)

lemma place_lt (hb : b ∈ cfg.banks) (h : b.servers.Precedes x y) : cfg.place x < cfg.place y := by
  rw [place, place, bankOf_of_mem hb h.left_mem, bankOf_of_mem hb h.right_mem]
  exact h.idxOf_lt (servers_nodup hb)

lemma placeFromTail_lt (hb : b ∈ cfg.banks) (h : b.servers.Precedes x y) :
    cfg.placeFromTail y < cfg.placeFromTail x := by
  rw [placeFromTail, placeFromTail, bankOf_of_mem hb h.left_mem, bankOf_of_mem hb h.right_mem]
  have hlt := h.idxOf_lt (servers_nodup hb)
  have hle := List.idxOf_lt_length_of_mem h.right_mem
  simp only [Option.elim_some]
  omega

end Config

/-- Everything that a server sends to another process has a lower rank than what it has taken up. -/
lemma System.Serve.rank_lt (ht : Topology cfg σ) (hkeeps : (σ.server x).KeepsTransfers)
    (taken : System.Taken σ x msg L) (hs : System.Serve σ x msg L out σ') {p : Address × Message}
    (hp : p ∈ out.filterMap Packet.tcp?) (hnode : p.1 ∈ cfg.processes) :
    cfg.rank p.1 p.2 < cfg.rank x msg := by
  obtain ⟨packet, hpacket, htcp⟩ := List.mem_filterMap.mp hp
  have ht' := ht.serve taken hs
  have hreply : ∀ rep, msg = .reply rep → ∀ q ∈ (σ.server x).sentList, q.type = .transfer := by
    rintro rep rfl
    exact hkeeps (ht.taken_reply taken)
  have hlower := ChainServer.handleMsg_lower (taken.plain ht.toPlain) hreply
    (hs.out_prefix.subset hpacket) htcp
  rw [← hs.server_self] at hlower
  rw [Config.rank, Config.rank, Prod.Lex.toLex_lt_toLex]
  cases hlower with
  | level lt => exact Or.inl lt
  | update hmsg hm hlevel hsucc =>
    refine Or.inr ⟨hlevel, ?_⟩
    rw [hmsg, hm]
    rcases ht'.succ x with hempty | ⟨b, hb, hxy, -⟩
    · rw [hsucc, hempty] at hnode
      exact absurd hnode cfg.empty_notMem
    · rw [hsucc]
      exact Config.placeFromTail_lt hb hxy
  | ack hmsg hm hpre =>
    refine Or.inr ⟨by rw [hmsg, hm]; rfl, ?_⟩
    rw [hmsg, hm]
    rcases ht'.pre x with hempty | ⟨b, hb, hxy, -⟩
    · rw [hpre, hempty] at hnode
      exact absurd hnode cfg.empty_notMem
    · rw [hpre]
      exact Config.place_lt hb hxy

namespace System

/-- The crashes that the master can still detect. -/
def recorded (cfg : Config) (σ : System) : ℕ :=
  if σ.crashed σ.master.addr then 0
  else 1 + (cfg.banks.map fun b => (σ.chain b.bankId).length).sum

/-- What every delivery and every detection makes smaller. -/
def unsettled (cfg : Config) (σ : System) : ℕ × Multiset (ℕ ×ₗ ℕ) :=
  (σ.recorded cfg, σ.link.ranks cfg.rank cfg.processes.toFinset)

/-- The order of `unsettled`. -/
def Settles : ℕ × Multiset (ℕ ×ₗ ℕ) → ℕ × Multiset (ℕ ×ₗ ℕ) → Prop :=
  Prod.Lex (· < ·) Multiset.IsDershowitzMannaLT

lemma settles_wf : WellFounded Settles :=
  WellFounded.prod_lex wellFounded_lt Multiset.wellFounded_isDershowitzMannaLT

/-! ### Deliveries -/

lemma recorded_of_same (master : σ'.master = σ.master)
    (crashed : σ'.crashed σ.master.addr = σ.crashed σ.master.addr) :
    σ'.recorded cfg = σ.recorded cfg := by
  simp only [recorded, System.chain, master, crashed]

/-- Whoever takes up a message, the messages in flight have descended. -/
lemma settles_of_ranks (master : σ'.master = σ.master)
    (crashed : σ'.crashed σ.master.addr = σ.crashed σ.master.addr)
    (ranks : Multiset.IsDershowitzMannaLT (σ'.link.ranks cfg.rank cfg.processes.toFinset)
      (σ.link.ranks cfg.rank cfg.processes.toFinset)) :
    Settles (σ'.unsettled cfg) (σ.unsettled cfg) := by
  rw [unsettled, unsettled, recorded_of_same master crashed]
  exact Prod.Lex.right _ ranks

section Step

variable (hrun : Machine.Reach System.step NoJoin cfg.init σ)
include hrun

lemma link_processes {src dst : Address} (hm : m ∈ σ.link src dst) (hlive : σ.crashed dst = false) :
    src ∈ cfg.processes.toFinset ∧ dst ∈ cfg.processes.toFinset := by
  rw [List.mem_toFinset, List.mem_toFinset]
  refine ⟨?_, mem_processes hrun hlive⟩
  by_contra hsrc
  rw [sentByProcesses_of_reach (fun _ _ h => h) hrun src dst hsrc] at hm
  cases hm

lemma settles_deliver {src dst : Address} {k : Option ℕ}
    (hs : σ.step (.deliver src dst k) = some σ') : Settles (σ'.unsettled cfg) (σ.unsettled cfg) := by
  have ht := Topology.reach (fun _ _ h => h) hrun
  have hcase := step_cases ht.toPlain (Label.noJoin_of_settles rfl) hs
  generalize hlabel : Label.deliver src dst k = l at hcase
  cases hcase with
  | @serve _ x msg L out _ taken serve delivery left =>
    subst hlabel
    obtain ⟨msg', hhead, heq⟩ := Option.map_eq_some_iff.mp delivery
    obtain ⟨rfl, rfl⟩ := Prod.mk.inj heq
    obtain ⟨rest, hlink⟩ := List.head?_eq_some_iff.mp hhead
    obtain ⟨hsrc, hdst⟩ := link_processes hrun (hlink ▸ List.mem_cons_self) serve.live
    refine settles_of_ranks serve.master ?_ ?_
    · rcases serve.crashed with ⟨hsame, -⟩ | hkill
      · rw [hsame]
      · rw [hkill, Function.update_of_ne (Ne.symm serve.ne_master)]
    · rw [serve.link, left]
      refine Links.ranks_lt hsrc hdst hlink fun p hp hnode => ?_
      have hkeeps := (carriesOnce_of_reach hrun "" "" dst).1
      exact serve.rank_lt ht hkeeps taken hp (List.mem_toFinset.mp hnode)
  | crash label => exact absurd hlabel.symm (label _ _ _)
  | @relink src r rest k live head =>
    obtain ⟨hsrc, hdst⟩ := link_processes hrun (head ▸ List.mem_cons_self) live
    refine settles_of_ranks rfl rfl (Links.ranks_lt hsrc hdst head ?_)
    intro p hp _
    obtain rfl := List.mem_singleton.mp hp
    rw [Config.rank, Config.rank, Prod.Lex.toLex_lt_toLex]
    exact Or.inl (by simp [Message.level])
  | @ignore src msg rest k live head other =>
    obtain ⟨hsrc, hdst⟩ := link_processes hrun (head ▸ List.mem_cons_self) live
    refine settles_of_ranks rfl rfl ?_
    rw [← Links.send_nil (σ.link.recv src σ.master.addr) src]
    exact Links.ranks_lt hsrc hdst head (by simp)
  | detect => cases hlabel

/-! ### Detected crashes -/

lemma settles_detect {id : String} {node : Address} (hs : σ.step (.detect id node) = some σ') :
    Settles (σ'.unsettled cfg) (σ.unsettled cfg) := by
  have ht := Topology.reach (fun _ _ h => h) hrun
  refine Prod.Lex.left _ _ ?_
  simp only [System.step] at hs
  split_ifs at hs with hguard
  obtain ⟨hlive, hdead, hmem⟩ := hguard
  obtain rfl := Option.some.inj hs
  rw [recorded, recorded, if_neg hlive]
  cases hlookup : σ.master.bankServerChain.lookup id with
  | none => simp [hlookup] at hmem
  | some bsc =>
    have hnode : node ∈ bsc.serverChain := by simpa [hlookup] using hmem
    obtain ⟨b, hb, rfl, hok⟩ := ht.record_ok hlookup
    cases hr : σ.master.notifyCrash b.bankId node with
    | none =>
      rw [if_pos (by simp [handleMaster, System.kill])]
      omega
    | some r =>
      obtain ⟨m, out⟩ := r
      have hcase := Master.notifyCrash_cases hok.wf hlookup
        (ne_of_mem_of_not_mem hnode hok.wf.notEmpty) hr
      have haddr : m.addr = σ.master.addr := Announced.detect_addr hcase
      have hother (c : BankConfig) (hne : b.bankId ≠ c.bankId) :
          (handleMaster σ (some (m, out))).chain c.bankId = σ.chain c.bankId := by
        rw [handleMaster, haddr]
        exact Announced.detect_chain ht hlookup hcase hne
      have hself : ((handleMaster σ (some (m, out))).chain b.bankId).length <
          (σ.chain b.bankId).length := by
        obtain ⟨bsc', rfl, -, herase⟩ := hcase.record hok.wf
        rw [handleMaster, haddr, Announced.chain_setChain, herase, List.length_erase_of_mem hnode,
          System.chain, hlookup]
        exact Nat.sub_lt (List.length_pos_of_mem hnode) one_pos
      have hsum : (cfg.banks.map fun c =>
          ((handleMaster σ (some (m, out))).chain c.bankId).length).sum <
            (cfg.banks.map fun c => (σ.chain c.bankId).length).sum := by
        refine List.sum_lt_sum _ _ (fun c hc => ?_) ⟨b, hb, hself⟩
        by_cases heq : b.bankId = c.bankId
        · rw [← heq]
          exact hself.le
        · rw [hother c heq]
      split_ifs <;> omega

lemma settles_step (hl : l.settles = true) (hs : σ.step l = some σ') :
    Settles (σ'.unsettled cfg) (σ.unsettled cfg) := by
  cases l with
  | deliver src dst k => exact settles_deliver hrun hs
  | detect id node => exact settles_detect hrun hs
  | _ => cases hl

/-! ### Where the steps end -/

/-- The master only dies of the loss of a whole bank. -/
lemma bank_lost (hdead : σ.crashed σ.master.addr = true) :
    ∃ b ∈ cfg.banks, ∀ x ∈ b.servers, σ.crashed x = true := by
  have ht := Topology.reach (fun _ _ h => h) hrun
  obtain ⟨e, he, y, hchain, hy⟩ := MasterServes.reach (fun _ _ h => h) hrun hdead
  obtain ⟨b, hb, -, hok⟩ := ht.record_ok (AList.mem_lookup_iff.mpr he)
  refine ⟨b, hb, fun x hx => ?_⟩
  by_cases hxy : x = y
  · rwa [hxy]
  · exact hok.dead x hx (by simpa [hchain] using hxy)

omit hrun in
/-- Where no delivery and no detection is possible, nothing is left to deliver or to detect. -/
lemma drained_of_stuck (hstuck : ∀ l, l.settles = true → σ.step l = none)
    (hlive : σ.crashed σ.master.addr = false) : σ.Drained cfg := by
  constructor
  · intro x _ y _ hy
    by_contra hne
    obtain ⟨msg, rest, hlink⟩ := List.exists_cons_of_ne_nil hne
    have hnone := hstuck (.deliver x y none) rfl
    simp only [System.step, hlink, hy, Bool.false_eq_true, if_false] at hnone
    split_ifs at hnone
  · intro e he y hy
    by_contra hdead
    have hlookup : σ.master.bankServerChain.lookup e.1 = some e.2 := AList.mem_lookup_iff.mpr he
    have hguard : ¬ σ.crashed σ.master.addr ∧ σ.crashed y ∧
        (σ.master.bankServerChain.lookup e.1).any (y ∈ ·.serverChain) := by
      simpa [hlive, hlookup, hy] using hdead
    have hnone := hstuck (.detect e.1 y) rfl
    rw [System.step, if_pos hguard] at hnone
    cases hnone

end Step

end System

/-- However a run without joins has gone, deliveries and detections alone come to an end in every order,
whatever handlers die on the way. Then the system is drained, unless all servers of a bank are lost. -/
theorem comes_to_rest (hrun : Machine.Reach System.step System.NoJoin cfg.init σ) :
    Machine.Rests System.step (fun _ l => l.settles = true) σ ∧
      ∀ τ, Machine.Reach System.step (fun _ l => l.settles = true) σ τ →
        (∀ l, l.settles = true → τ.step l = none) →
          τ.Drained cfg ∨ ∃ b ∈ cfg.banks, ∀ x ∈ b.servers, τ.crashed x = true := by
  constructor
  · refine Machine.Rests.of_measure System.settles_wf (System.unsettled cfg)
      (fun τ => Machine.Reach System.step System.NoJoin cfg.init τ) ?_ ?_ hrun
    · exact fun u l v hu hl hs => hu.tail ⟨l, Label.noJoin_of_settles hl, hs⟩
    · exact fun u l v hu hl hs => System.settles_step hu hl hs
  · intro τ hτ hstuck
    have hτ : Machine.Reach System.step System.NoJoin cfg.init τ :=
      hrun.trans (hτ.mono fun _ _ h => Label.noJoin_of_settles h)
    cases hlive : τ.crashed τ.master.addr with
    | true => exact Or.inr (System.bank_lost hτ hlive)
    | false => exact Or.inl (System.drained_of_stuck hstuck hlive)

open Config in
/-- Server 2 dies between two updates, and its neighbours have not been linked up yet. -/
theorem comes_to_rest_relinking :
    let σ := twoBanks.after System.NoJoin
      ([request 1 (sampleDeposit "1" 10), hop 1 2, request 1 (sampleTransfer "2" 4)] ++ lose 2)
    Machine.Rests System.step (fun _ l => l.settles = true) σ ∧
      ∀ τ, Machine.Reach System.step (fun _ l => l.settles = true) σ τ →
        (∀ l, l.settles = true → τ.step l = none) →
          τ.Drained twoBanks ∨ ∃ b ∈ twoBanks.banks, ∀ x ∈ b.servers, τ.crashed x = true :=
  comes_to_rest (reach_after (by decide +kernel))

end ChainReplication
