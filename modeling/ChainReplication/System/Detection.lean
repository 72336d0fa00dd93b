import ChainReplication.Extension.Shape
import ChainReplication.System.Timed

/-!
# The time until a crash is detected

`check_alive` removes at most one server of a bank in each round, the first one of the chain that is overdue.
A server that the master has heard of is gone after a number of rounds that its place in the chain gives; one
that the master has never heard of stays in the record for good.
-/

namespace ChainReplication

variable {cfg : Config} {b : BankConfig} {σ : System} {a : Address} {id : String} {ok : System → Label → Prop}
  {P D C T t p : ℕ} {τ τ' : Timed} {tl : TimedLabel} {n : Node} {j : Join}

lemma System.mem_of_admitted {l : Label} (hj : σ.admitted l = some j) :
    ∃ src dst, .join j ∈ σ.link src dst := by
  cases l with
  | deliver src dst k =>
    rw [System.admitted, Option.ite_none_right_eq_some] at hj
    obtain ⟨-, hj⟩ := hj
    obtain ⟨m, hm, hj⟩ := Option.bind_eq_some_iff.mp hj
    obtain rfl : m = .join j := by
      cases m with
      | join => exact congrArg Message.join (Option.some.inj hj)
      | _ => cases hj
    exact ⟨src, dst, List.mem_of_head? hm⟩
  | _ => cases hj

/-! ### The record of a bank that one server joins -/

namespace Extending

lemma mem_chain (h : Extending cfg σ) (ha : a ∈ σ.chain id) :
    ∃ b ∈ cfg.banks, b.bankId = id ∧ (a ∈ b.servers ∨ Joiner b σ a) := by
  cases hlookup : σ.master.bankServerChain.lookup id with
  | none => simp [System.chain, hlookup] at ha
  | some bsc =>
    rw [System.chain, hlookup] at ha
    obtain ⟨b, hb, rfl⟩ := h.bank id bsc hlookup
    obtain ⟨bsc', c, hlookup', hrec⟩ := h.record b hb
    obtain rfl := Option.some.inj (hlookup.symm.trans hlookup')
    refine ⟨b, hb, rfl, ?_⟩
    have old (hc : a ∈ c) : a ∈ b.servers ∨ Joiner b σ a := Or.inl (hrec.sub.subset hc)
    change a ∈ bsc.serverChain at ha
    cases hrec.phase with
    | idle nobody chain => exact old (chain ▸ ha)
    | extending joiner chain =>
      rw [chain, List.mem_append, List.mem_singleton] at ha
      exact ha.elim old fun heq => Or.inr (heq ▸ joiner)
    | joined joiner chain =>
      rw [chain, List.mem_append, List.mem_singleton] at ha
      exact ha.elim old fun heq => Or.inr (heq ▸ joiner)
    | gone joiner dead chain => exact old (chain ▸ ha)

lemma chain_nodup (h : Extending cfg σ) (id : String) : (σ.chain id).Nodup := by
  cases hlookup : σ.master.bankServerChain.lookup id with
  | none =>
    rw [System.chain, hlookup]
    exact List.nodup_nil
  | some bsc =>
    rw [System.chain, hlookup]
    obtain ⟨b, hb, rfl⟩ := h.bank id bsc hlookup
    obtain ⟨bsc', c, hlookup', hrec⟩ := h.record b hb
    obtain rfl := Option.some.inj (hlookup.symm.trans hlookup')
    change bsc.serverChain.Nodup
    cases hrec.phase with
    | idle nobody chain => exact chain ▸ hrec.nodup hb
    | extending joiner chain => exact chain ▸ hrec.nodup_joiner hb joiner
    | joined joiner chain => exact chain ▸ hrec.nodup_joiner hb joiner
    | gone joiner dead chain => exact chain ▸ hrec.nodup hb

/-- Nobody who is in the chain or has been in it is let in again. -/
lemma admitted_ne (h : Extending cfg σ) {l : Label} (hj : σ.admitted l = some j) (hb : b ∈ cfg.banks)
    (ha : a ∈ b.servers ∨ Joiner b σ a) : a ≠ j.serverAddr := by
  obtain ⟨src, dst, hmem⟩ := System.mem_of_admitted hj
  obtain ⟨-, -, b', hb', hsrc, rfl⟩ := h.fits _ _ _ hmem
  rintro rfl
  rcases ha with hservers | ⟨-, hjoining⟩
  · obtain rfl := Config.bank_unique hb hb' (List.mem_append_left _ hservers)
      (List.mem_append_right _ hsrc)
    exact Recorded.joiner_notMem hb hsrc hservers
  · exact h.fresh _ _ _ hmem hjoining

end Extending

namespace Timed

lemma notifyCase {m m' : Master} {out : List Packet} (h : m.notifyCrash id a = some (m', out)) :
    ∃ bsc, m.NotifyCase id a bsc m' out := by
  cases hlookup : m.bankServerChain.lookup id with
  | none => simp [Master.notifyCrash, hlookup] at h
  | some bsc => exact ⟨bsc, Master.notifyCrash_notifyCase hlookup h⟩

/-- No step, not even of the clock, brings a process back. -/
lemma persists_step (hs : τ.step T tl = some τ') : System.Persists τ.system τ'.system := by
  cases timed_cases hs with
  | act plain step => exact System.persists step
  | refuse => exact System.persists_kill _ _
  | @found id n l live crashed =>
    dsimp only
    cases hr : τ.system.master.notifyCrash id n.addr with
    | none => exact System.persists_kill _ _
    | some r =>
      obtain ⟨bsc, hcase⟩ := notifyCase hr
      exact ⟨hcase.addr, fun _ h => h, fun _ => rfl, List.subset_append_left _ _⟩
  | _ => exact ⟨rfl, fun _ h => h, fun _ => rfl, List.Subset.refl _⟩

lemma persists_reach {ok : Timed → TimedLabel → Prop} (h : Machine.Reach (Timed.step T) ok τ τ') :
    System.Persists τ.system τ'.system :=
  h.rel (R := fun τ τ' => System.Persists τ.system τ'.system)
    (fun _ => ⟨rfl, fun _ h => h, fun _ => rfl, List.Subset.refl _⟩)
    (fun _ _ _ => System.Persists.trans) fun _ _ _ _ hs => persists_step hs

/-- The steps in which `check_alive` is not late: it comes to each bank at least every `cycle`. -/
def Swept (cfg : Config) (cycle : ℕ) (τ : Timed) : TimedLabel → Prop
  | .tick => τ.system.crashed τ.system.master.addr = false →
      ∀ b ∈ cfg.banks, τ.now < τ.checkedAt b.bankId + cycle
  | _ => True

instance (cfg : Config) (cycle : ℕ) (τ : Timed) (tl : TimedLabel) : Decidable (Swept cfg cycle τ tl) :=
  match tl with
  | .tick => inferInstanceAs (Decidable (τ.system.crashed τ.system.master.addr = false →
      ∀ b ∈ cfg.banks, τ.now < τ.checkedAt b.bankId + cycle))
  | .act _ | .beat _ | .report _ | .check _ => inferInstanceAs (Decidable True)

/-- The steps of a system whose heartbeats and checks are in time. -/
def Punctual (cfg : Config) (period delay cycle : ℕ) (ok : System → Label → Prop) (τ : Timed)
    (tl : TimedLabel) : Prop :=
  InTime cfg period delay ok τ tl ∧ Swept cfg cycle τ tl

instance (cfg : Config) (period delay cycle : ℕ) (ok : System → Label → Prop)
    [∀ σ l, Decidable (ok σ l)] (τ : Timed) (tl : TimedLabel) :
    Decidable (Punctual cfg period delay cycle ok τ tl) :=
  inferInstanceAs (Decidable (InTime cfg period delay ok τ tl ∧ Swept cfg cycle τ tl))

/-- The times of the last checks. -/
structure Sweeps (cfg : Config) (C : ℕ) (τ : Timed) : Prop where
  past : ∀ id, τ.checkedAt id ≤ τ.now
  cycle : τ.system.crashed τ.system.master.addr = false →
    ∀ b ∈ cfg.banks, τ.now ≤ τ.checkedAt b.bankId + C

namespace Sweeps

lemma init : Sweeps cfg C (Timed.init cfg) := ⟨fun _ => le_rfl, fun _ _ _ => Nat.zero_le _⟩

lemma of_same (h : Sweeps cfg C τ) (hp : System.Persists τ.system τ'.system) (now : τ'.now = τ.now)
    (checkedAt : τ'.checkedAt = τ.checkedAt) : Sweeps cfg C τ' := by
  constructor
  · rw [now, checkedAt]
    exact h.past
  · rw [now, checkedAt, hp.addr]
    exact fun hlive => h.cycle (hp.live _ hlive)

/-- `check_alive` comes to a bank. -/
lemma sweep (h : Sweeps cfg C τ) (hp : System.Persists τ.system τ'.system) (now : τ'.now = τ.now)
    (checkedAt : τ'.checkedAt = Function.update τ.checkedAt id τ.now) : Sweeps cfg C τ' := by
  constructor
  · intro id'
    rw [now, checkedAt]
    by_cases hid : id' = id
    · rw [hid, Function.update_self]
    · rw [Function.update_of_ne hid]
      exact h.past id'
  · rw [hp.addr]
    intro hlive b hb
    rw [now, checkedAt]
    by_cases hid : b.bankId = id
    · rw [hid, Function.update_self]
      exact Nat.le_add_right _ _
    · rw [Function.update_of_ne hid]
      exact h.cycle (hp.live _ hlive) b hb

lemma step (h : Sweeps cfg C τ) (hguard : Swept cfg C τ tl) (hs : τ.step T tl = some τ') :
    Sweeps cfg C τ' := by
  have hp := persists_step hs
  cases timed_cases hs with
  | tick => exact ⟨fun id => (h.past id).trans (Nat.le_succ _), hguard⟩
  | act => exact h.of_same hp rfl rfl
  | beat => exact h.of_same hp rfl rfl
  | report => exact h.of_same hp rfl rfl
  | refuse => exact h.of_same hp rfl rfl
  | idle => exact h.sweep hp rfl rfl
  | found => exact h.sweep hp rfl rfl

end Sweeps

/-- What is true in every state of a run in time. -/
structure Regular (cfg : Config) (P D C : ℕ) (ok : System → Label → Prop) (τ : Timed) : Prop where
  follows : Follows cfg P D ok τ
  extending : Extending cfg τ.system
  sweeps : Sweeps cfg C τ

lemma Regular.reach (hok : ∀ σ l, ok σ l → System.OneJoin cfg σ l)
    (hdetect : ∀ σ id node, ok σ (.detect id node)) (hlag : P + D ≤ T)
    (hrun : Machine.Reach (Timed.step T) (Punctual cfg P D C ok) (Timed.init cfg) τ) :
    Regular cfg P D C ok τ := by
  have hf : Follows cfg P D ok τ := .reach hdetect hlag (hrun.mono fun _ _ hguard => hguard.1)
  refine ⟨hf, .reach hok hf.run, ?_⟩
  exact hrun.invariant .init fun _ _ _ hsweeps hguard hs => hsweeps.step hguard.2 hs

/-! ### Servers that have crashed -/

/-- What is known, after the time `t`, of a server of the bank `id` that had crashed by then and whose place
in the chain was `p`. -/
structure Doomed (cfg : Config) (D C T t p : ℕ) (id : String) (a : Address) (τ : Timed) : Prop where
  dead : τ.system.crashed a = true
  silent : ∀ e ∈ τ.beatAt a, e ≤ t
  bank : ∃ b ∈ cfg.banks, b.bankId = id ∧ (a ∈ b.servers ∨ Joiner b τ.system a)
  queued : τ.system.crashed τ.system.master.addr = false → a ∈ (τ.node id).map (·.addr) →
    (∃ n ∈ τ.node id, n.addr = a ∧ n.reported = true) ∧
      Heartbeats.Queued (t + D + T) C p (((τ.node id).map (·.addr)).idxOf a) (τ.checkedAt id)

namespace Doomed

/-- What a step leaves as it is. -/
lemma of_persists (h : Doomed cfg D C T t p id a τ) (hp : System.Persists τ.system τ'.system)
    (beatAt : τ'.beatAt a = τ.beatAt a)
    (queued : τ'.system.crashed τ'.system.master.addr = false → a ∈ (τ'.node id).map (·.addr) →
      (∃ n ∈ τ'.node id, n.addr = a ∧ n.reported = true) ∧
        Heartbeats.Queued (t + D + T) C p (((τ'.node id).map (·.addr)).idxOf a) (τ'.checkedAt id)) :
    Doomed cfg D C T t p id a τ' where
  dead := by
    by_contra hlive
    have hlive := hp.live a (by simpa using hlive)
    rw [h.dead] at hlive
    cases hlive
  silent := by
    rw [beatAt]
    exact h.silent
  bank := by
    obtain ⟨b, hb, hid, ha⟩ := h.bank
    exact ⟨b, hb, hid, ha.imp_right fun ⟨hy, e, he, hjoins⟩ => ⟨hy, e, hp.trace he, hjoins⟩⟩
  queued := queued

/-- A server that is overdue when `check_alive` comes. -/
lemma late (h : Doomed cfg D C T t p id a τ) (hmon : Monitored cfg P D τ) (hn : n ∈ τ.node id)
    (haddr : n.addr = a) (hreported : n.reported = true) (hlate : ¬ n.Overdue τ.now T) :
    τ.now ≤ t + D + T := by
  obtain ⟨-, e, he, hlast, -⟩ := hmon.heard id n hn hreported
  have hsilent := h.silent e (haddr ▸ he)
  have hlate : ¬ T < τ.now - n.lastReportTime := fun hlt => hlate ⟨hreported, hlt⟩
  omega

/-- The master has removed another server of the bank. -/
lemma overtake (h : Doomed cfg D C T t p id a τ) (hr : Regular cfg P D C ok τ)
    (hlive : τ.system.crashed τ.system.master.addr = false) {l : List Node}
    (hfound : Node.checkAlive τ.now T (τ.node id) = some (n, l))
    (hmem : a ∈ (Node.removeNode n.addr l).map (·.addr)) :
    (∃ n' ∈ Node.removeNode n.addr l, n'.addr = a ∧ n'.reported = true) ∧
      Heartbeats.Queued (t + D + T) C p (((Node.removeNode n.addr l).map (·.addr)).idxOf a) τ.now := by
  obtain ⟨⟨-, hm, hmon⟩, hext, hsweeps⟩ := hr
  have hnodup := hext.chain_nodup id
  rw [← hm.chain hlive] at hnodup
  rw [(Node.checkAlive_some (hm.watched id) hfound).2] at hmem ⊢
  rw [Node.removeNode_addr] at hmem ⊢
  have hne : a ≠ n.addr := fun heq => hnodup.not_mem_erase (heq ▸ hmem)
  have hmem := List.mem_of_mem_erase hmem
  obtain ⟨⟨n', hn', haddr, hreported⟩, hqueued⟩ := h.queued hlive hmem
  refine ⟨⟨n', ?_, haddr, hreported⟩, ?_⟩
  · rw [Node.removeNode, List.mem_eraseP_of_neg (by simpa [haddr] using hne)]
    exact hn'
  -- either the server is not overdue yet, or it stands behind the one that is removed
  by_cases hlate : n'.Overdue τ.now T
  · have hfirst := Node.checkAlive_first (hm.watched id) hfound hn' hlate
    rw [haddr] at hfirst
    have hlt : ((τ.node id).map (·.addr)).idxOf n.addr < ((τ.node id).map (·.addr)).idxOf a := by
      refine lt_of_le_of_ne hfirst fun heq => hne ?_
      exact (List.idxOf_inj hmem).mp heq.symm
    rw [← List.idxOf_erase_succ hlt] at hqueued
    obtain ⟨b, hb, rfl, -⟩ := h.bank
    exact hqueued.advance (hsweeps.cycle hlive b hb)
  · have hle := List.idxOf_erase_le hne (l := (τ.node id).map (·.addr))
    exact .early (hle.trans hqueued.1) (h.late hmon hn' haddr hreported hlate) (Nat.zero_le C)

lemma step (h : Doomed cfg D C T t p id a τ) (hr : Regular cfg P D C ok τ)
    (hs : τ.step T tl = some τ') : Doomed cfg D C T t p id a τ' := by
  have hp := persists_step hs
  cases timed_cases hs with
  | tick => exact h.of_persists hp rfl h.queued
  | @act l σ plain step =>
    refine h.of_persists hp rfl fun hlive hmem => ?_
    have hlive := hp.live _ (hp.addr ▸ hlive)
    dsimp only at hmem ⊢
    rcases τ.nodesAfter_cases l id with ⟨hnode, -⟩ | ⟨j, hj, hnode, -⟩
    · rw [hnode] at hmem ⊢
      exact h.queued hlive hmem
    · obtain ⟨b, hb, -, hplace⟩ := h.bank
      have hne := hr.extending.admitted_ne hj hb hplace
      rw [hnode, List.map_append] at hmem ⊢
      have hmem : a ∈ (τ.node id).map (·.addr) := by
        rcases List.mem_append.mp hmem with hmem | hmem
        · exact hmem
        · exact absurd (List.mem_singleton.mp hmem) hne
      obtain ⟨⟨n, hn, hrest⟩, hqueued⟩ := h.queued hlive hmem
      rw [List.idxOf_append_of_mem hmem]
      exact ⟨⟨n, List.mem_append_left _ hn, hrest⟩, hqueued⟩
  | @beat s ne_master live =>
    have hne : a ≠ s := by
      rintro rfl
      rw [h.dead] at live
      cases live
    exact h.of_persists hp (Function.update_of_ne hne _ _) h.queued
  | @report b live mem =>
    refine h.of_persists hp rfl fun hlive hmem => ?_
    dsimp only at hmem ⊢
    by_cases hid : id = b.hb.bankId
    · rw [hid, Function.update_self, Node.handleHeartbeat_addr, ← hid] at hmem ⊢
      obtain ⟨hreported, hqueued⟩ := h.queued live hmem
      exact ⟨Node.exists_reported_handleHeartbeat hreported, hqueued⟩
    · rw [Function.update_of_ne hid] at hmem ⊢
      exact h.queued live hmem
  | refuse =>
    refine h.of_persists hp rfl fun hlive _ => ?_
    simp [System.kill] at hlive
  | @idle id' nobody =>
    refine h.of_persists hp rfl fun hlive hmem => ?_
    obtain ⟨hreported, hqueued⟩ := h.queued hlive hmem
    refine ⟨hreported, ?_⟩
    dsimp only
    by_cases hid : id = id'
    · rw [← hid] at nobody ⊢
      rw [Function.update_self]
      obtain ⟨n, hn, haddr, hreported⟩ := hreported
      refine .early hqueued.1 (h.late hr.follows.monitored hn haddr hreported ?_) (Nat.zero_le C)
      exact Node.checkAlive_none (hr.follows.mirrors.watched id) nobody hn
    · rw [Function.update_of_ne hid]
      exact hqueued
  | @found id' n l live crashed =>
    refine h.of_persists hp rfl fun hlive hmem => ?_
    dsimp only at hmem ⊢
    by_cases hid : id = id'
    · rw [← hid] at crashed hmem ⊢
      rw [Function.update_self] at hmem ⊢
      rw [Function.update_self]
      exact h.overtake hr live crashed hmem
    · rw [Function.update_of_ne hid] at hmem ⊢
      rw [Function.update_of_ne hid]
      exact h.queued live hmem

/-- The master has just heard of a server that has crashed. -/
lemma start (hr : Regular cfg P D C ok τ) (hlive : τ.system.crashed τ.system.master.addr = false)
    (hn : n ∈ τ.node id) (hreported : n.reported = true) (hdead : τ.system.crashed n.addr = true) :
    Doomed cfg D C T τ.now ((τ.system.chain id).idxOf n.addr) id n.addr τ := by
  obtain ⟨hf, hext, hsweeps⟩ := hr
  have hplace : n.addr ∈ τ.system.chain id := by
    rw [← hf.mirrors.chain hlive]
    exact List.mem_map_of_mem hn
  refine ⟨hdead, hf.monitored.past _, hext.mem_chain hplace, fun _ _ => ⟨⟨n, hn, rfl, hreported⟩, ?_⟩⟩
  rw [hf.mirrors.chain hlive]
  exact .early le_rfl ((hsweeps.past id).trans (by omega)) (Nat.zero_le C)

lemma reach (h : Doomed cfg D C T t p id a τ) (hok : ∀ σ l, ok σ l → System.OneJoin cfg σ l)
    (hdetect : ∀ σ id node, ok σ (.detect id node)) (hlag : P + D ≤ T)
    (hrun : Machine.Reach (Timed.step T) (Punctual cfg P D C ok) (Timed.init cfg) τ)
    (hlater : Machine.Reach (Timed.step T) (Punctual cfg P D C ok) τ τ') :
    Doomed cfg D C T t p id a τ' :=
  hlater.invariant_of (fun _ h => Regular.reach hok hdetect hlag (hrun.trans h)) h
    fun _ _ _ h hr _ _ hs => h.step hr hs

/-- The rounds that are left. -/
lemma now_le (h : Doomed cfg D C T t p id a τ) (hr : Regular cfg P D C ok τ)
    (hlive : τ.system.crashed τ.system.master.addr = false) (hmem : a ∈ τ.system.chain id) :
    τ.now ≤ t + D + T + (p + 1) * C := by
  rw [← hr.follows.mirrors.chain hlive] at hmem
  obtain ⟨-, hqueued⟩ := h.queued hlive hmem
  obtain ⟨b, hb, rfl, -⟩ := h.bank
  simpa using hqueued.now_le (hr.sweeps.cycle hlive b hb) (Nat.zero_le C)

end Doomed

end Timed

open Timed in
/-- A server that the master has heard of is removed from the record soon after it has crashed, one round of
`check_alive` later for each server that stands before it in the chain. -/
theorem crash_detected {ok : System → Label → Prop} (hok : ∀ σ l, ok σ l → System.OneJoin cfg σ l)
    (hdetect : ∀ σ id node, ok σ (.detect id node)) (hlag : P + D ≤ T)
    (hrun : Machine.Reach (Timed.step T) (Punctual cfg P D C ok) (Timed.init cfg) τ)
    (hlater : Machine.Reach (Timed.step T) (Punctual cfg P D C ok) τ τ')
    (hn : n ∈ τ.node id) (hreported : n.reported = true) (hdead : τ.system.crashed n.addr = true)
    (hmaster : τ'.system.crashed cfg.master = false) (hmem : n.addr ∈ τ'.system.chain id) :
    τ'.now ≤ τ.now + D + T + ((τ.system.chain id).idxOf n.addr + 1) * C := by
  have hr : Regular cfg P D C ok τ := .reach hok hdetect hlag hrun
  have hr' : Regular cfg P D C ok τ' := .reach hok hdetect hlag (hrun.trans hlater)
  have hlive' : τ'.system.crashed τ'.system.master.addr = false := by rwa [hr'.extending.master]
  have hp := persists_reach hlater
  have hstart : Doomed cfg D C T τ.now ((τ.system.chain id).idxOf n.addr) id n.addr τ :=
    .start hr (hp.live _ (hp.addr ▸ hlive')) hn hreported hdead
  exact (hstart.reach hok hdetect hlag hrun hlater).now_le hr' hlive' hmem

open Config Timed in
/-- Both servers of a bank die; the second one is still there after the first one has been found. -/
theorem crash_detected_second :
    let cfg := growingBank
    let τ := Machine.after (Timed.step 3) (Punctual cfg 2 1 2 (System.OneJoin cfg)) (Timed.init cfg)
      (pulse 1 0 ++ pulse 2 0 ++ [.act (.crash (localAddress 1)), .act (.crash (localAddress 2))])
    let τ' := Machine.after (Timed.step 3) (Punctual cfg 2 1 2 (System.OneJoin cfg)) τ
      [.tick, .tick, .check "BOA", .tick, .tick, .check "BOA"]
    τ'.system.chain "BOA" = [localAddress 2] ∧
      τ'.now ≤ τ.now + 1 + 3 + ((τ.system.chain "BOA").idxOf (localAddress 2) + 1) * 2 :=
  ⟨by decide +kernel, crash_detected (fun _ _ h => h) (fun _ _ _ => trivial) (by decide)
    (Machine.reach_after (by decide +kernel)) (Machine.reach_after (by decide +kernel))
    (show { addr := localAddress 2, reported := true } ∈ _ by decide +kernel) rfl (by decide +kernel)
    (by decide +kernel) (by decide +kernel)⟩

/-! ### Servers that nobody has heard of -/

namespace Timed

/-- The processes keep their names whatever the times are. -/
lemma origins_step (h : Origins τ.system) (hs : τ.step T tl = some τ') : Origins τ'.system := by
  cases timed_cases hs with
  | act plain step => exact h.step step
  | refuse => exact h.kill _
  | @found id n l live crashed =>
    dsimp only
    cases hr : τ.system.master.notifyCrash id n.addr with
    | none => exact h.kill _
    | some r =>
      obtain ⟨bsc, hcase⟩ := notifyCase hr
      refine h.master_emit (fun _ _ _ hm => hm) hcase.addr fun p hp t msg htcp => ?_
      exact (hcase.not_news hp htcp).imp_right fun h => h.2
  | _ => exact h

/-- The server `a` of the bank `id` has crashed before the master has heard of it. -/
structure Unheard (id : String) (a : Address) (τ : Timed) : Prop where
  dead : τ.system.crashed a = true
  silent : ∀ b ∈ τ.beats, b.hb.serverAddr ≠ a
  listed : a ∈ (τ.node id).map (·.addr)
  reported : ∀ n ∈ τ.node id, n.addr = a → n.reported = false

lemma Unheard.step (h : Unheard id a τ) (hm : Mirrors τ) (ho : Origins τ.system)
    (hs : τ.step T tl = some τ') : Unheard id a τ' := by
  have dead : τ'.system.crashed a = true := by
    by_contra hlive
    have hlive := (persists_step hs).live a (by simpa using hlive)
    rw [h.dead] at hlive
    cases hlive
  cases timed_cases hs with
  | tick => exact ⟨dead, h.silent, h.listed, h.reported⟩
  | @act l σ plain step =>
    suffices hnode : a ∈ (τ.nodesAfter l id).map (·.addr) ∧
        ∀ n ∈ τ.nodesAfter l id, n.addr = a → n.reported = false from
      ⟨dead, h.silent, hnode.1, hnode.2⟩
    rcases τ.nodesAfter_cases l id with ⟨hnode, -⟩ | ⟨j, -, hnode, -⟩
    · rw [hnode]
      exact ⟨h.listed, h.reported⟩
    · rw [hnode, List.map_append]
      refine ⟨List.mem_append_left _ h.listed, fun n hn haddr => ?_⟩
      rcases List.mem_append.mp hn with hn | hn
      · exact h.reported n hn haddr
      · obtain rfl := List.mem_singleton.mp hn
        rfl
  | @beat s ne_master live =>
    refine ⟨dead, fun b hb => ?_, h.listed, h.reported⟩
    rcases List.mem_append.mp hb with hb | hb
    · exact h.silent b hb
    · obtain rfl := List.mem_singleton.mp hb
      rw [ho.localAddr s ne_master live]
      rintro rfl
      rw [h.dead] at live
      cases live
  | @report b live mem =>
    refine ⟨dead, fun b' hb' => h.silent b' (List.mem_of_mem_erase hb'), ?_, ?_⟩
    · dsimp only
      by_cases hid : id = b.hb.bankId
      · rw [hid, Function.update_self, Node.handleHeartbeat_addr, ← hid]
        exact h.listed
      · rw [Function.update_of_ne hid]
        exact h.listed
    · intro n hn haddr
      dsimp only at hn
      by_cases hid : id = b.hb.bankId
      · rw [hid, Function.update_self, Node.mem_handleHeartbeat_of_ne, ← hid] at hn
        · exact h.reported n hn haddr
        · exact haddr ▸ (h.silent b mem).symm
      · rw [Function.update_of_ne hid] at hn
        exact h.reported n hn haddr
  | @refuse b mem unknown =>
    exact ⟨dead, fun b' hb' => h.silent b' (List.mem_of_mem_erase hb'), h.listed, h.reported⟩
  | idle nobody => exact ⟨dead, h.silent, h.listed, h.reported⟩
  | @found id' n l live crashed =>
    by_cases hid : id = id'
    · obtain ⟨⟨m, hmem, haddr, hlate⟩, hremove⟩ := Node.checkAlive_some (hm.watched id') crashed
      rw [← hid] at hmem
      have hne : a ≠ n.addr := by
        rintro rfl
        have hreported := h.reported m hmem haddr
        rw [hlate.1] at hreported
        cases hreported
      refine ⟨dead, h.silent, ?_, fun n' hn' => h.reported n' ?_⟩
      · dsimp only
        rw [hid, Function.update_self, hremove, Node.removeNode_addr, ← hid]
        exact (List.mem_erase_of_ne hne).mpr h.listed
      · dsimp only at hn'
        rw [hid, Function.update_self, hremove, ← hid] at hn'
        exact List.mem_of_mem_eraseP hn'
    · refine ⟨dead, h.silent, ?_, fun n' hn' => h.reported n' ?_⟩
      · dsimp only
        rw [Function.update_of_ne hid]
        exact h.listed
      · dsimp only at hn'
        rwa [Function.update_of_ne hid] at hn'

/-- What holds in every state whatever the times are. -/
lemma untimed_reach {ok : Timed → TimedLabel → Prop}
    (hrun : Machine.Reach (Timed.step T) ok (Timed.init cfg) τ) : Mirrors τ ∧ Origins τ.system :=
  ⟨hrun.invariant .init fun _ _ _ h _ hs => h.step hs,
    hrun.invariant (I := fun τ => Origins τ.system) .init fun _ _ _ h _ hs => origins_step h hs⟩

lemma Unheard.reach {ok : Timed → TimedLabel → Prop} (h : Unheard id a τ)
    (hrun : Machine.Reach (Timed.step T) ok (Timed.init cfg) τ)
    (hlater : Machine.Reach (Timed.step T) ok τ τ') : Unheard id a τ' :=
  hlater.invariant_of (fun _ h => untimed_reach (hrun.trans h)) h
    fun _ _ _ h hknown _ _ hs => h.step hknown.1 hknown.2 hs

end Timed

/-- A server that crashes before the master has heard of it stays in the record whatever the times are. -/
theorem never_reported {ok : Timed → TimedLabel → Prop}
    (hrun : Machine.Reach (Timed.step T) ok (Timed.init cfg) τ)
    (hlater : Machine.Reach (Timed.step T) ok τ τ') (hdead : τ.system.crashed a = true)
    (hmem : a ∈ τ.system.chain id) (hunheard : ∀ n ∈ τ.node id, n.addr = a → n.reported = false)
    (hsilent : ∀ b ∈ τ.beats, b.hb.serverAddr ≠ a) (hmaster : τ'.system.crashed cfg.master = false) :
    a ∈ τ'.system.chain id := by
  obtain ⟨hm, -⟩ := Timed.untimed_reach hrun
  obtain ⟨hm', -⟩ := Timed.untimed_reach (hrun.trans hlater)
  have hp := Timed.persists_reach hlater
  have haddr : τ.system.master.addr = cfg.master := (Timed.persists_reach hrun).addr
  have hlive : τ.system.crashed τ.system.master.addr = false := hp.live _ (haddr ▸ hmaster)
  have hstart : Timed.Unheard id a τ := ⟨hdead, hsilent, by rwa [hm.chain hlive], hunheard⟩
  rw [← hm'.chain (by rwa [hp.addr, haddr])]
  exact (hstart.reach hrun hlater).listed

open Config Timed in
/-- The tail dies before its first heartbeat. -/
theorem never_reported_tail :
    let cfg := growingBank
    let τ := Machine.after (Timed.step 3) (Punctual cfg 2 1 4 (System.OneJoin cfg)) (Timed.init cfg)
      (pulse 1 0 ++ [.act (.crash (localAddress 2))])
    let τ' := Machine.after (Timed.step 3) (Punctual cfg 2 1 4 (System.OneJoin cfg)) τ
      ([.tick, .tick] ++ pulse 1 2 ++ [.tick, .tick, .check "BOA"])
    τ'.now = 4 ∧ localAddress 2 ∈ τ'.system.chain "BOA" :=
  ⟨by decide +kernel, never_reported (Machine.reach_after (by decide +kernel))
    (Machine.reach_after (by decide +kernel)) (by decide +kernel) (by decide +kernel) (by decide +kernel)
    (by decide +kernel) (by decide +kernel)⟩

end ChainReplication
