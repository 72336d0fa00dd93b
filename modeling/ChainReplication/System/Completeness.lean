import ChainReplication.System.Detection
import Mathlib.Algebra.Order.BigOperators.Group.List

/-!
# The clock alone

Heartbeats and `check_alive` go on when nothing else happens. They can always be in time, and what they do rids
the record of all the crashed servers that the master has heard of.
-/

namespace ChainReplication

variable {cfg : Config} {a : Address} {id : String} {ok : System → Label → Prop} {P D C T : ℕ}
  {τ τ' υ : Timed} {tl : TimedLabel}

def TimedLabel.isAct : TimedLabel → Bool
  | .act _ => true
  | _ => false

namespace Timed

/-- The steps in time of the clock, the heartbeats and `check_alive`. -/
def Alone (cfg : Config) (period delay cycle : ℕ) (ok : System → Label → Prop) (τ : Timed)
    (tl : TimedLabel) : Prop :=
  Punctual cfg period delay cycle ok τ tl ∧ tl.isAct = false

/-- What the clock alone does to the processes and to the record. -/
structure Settles (τ τ' : Timed) : Prop where
  crashed : ∀ x, τ'.system.crashed x = true → τ.system.crashed x = true ∨ x = τ.system.master.addr
  node : ∀ id, (τ'.node id).map (·.addr) ⊆ (τ.node id).map (·.addr)

lemma Settles.trans (hp : System.Persists τ.system τ'.system) (h : Settles τ τ') (h' : Settles τ' υ) :
    Settles τ υ := by
  refine ⟨fun x hx => ?_, fun id => List.Subset.trans (h'.node id) (h.node id)⟩
  rcases h'.crashed x hx with hx | rfl
  · exact h.crashed x hx
  · exact Or.inr hp.addr

lemma Settles.step (hm : Mirrors τ) (hl : tl.isAct = false) (hs : τ.step T tl = some τ') :
    Settles τ τ' := by
  have kill (x : Address) (hx : (τ.system.kill τ.system.master.addr).crashed x = true) :
      τ.system.crashed x = true ∨ x = τ.system.master.addr := by
    by_cases hmaster : x = τ.system.master.addr
    · exact Or.inr hmaster
    · exact Or.inl (by simpa [System.kill, hmaster] using hx)
  cases timed_cases hs with
  | act => cases hl
  | @report b live mem =>
    refine ⟨fun _ h => Or.inl h, fun id => ?_⟩
    dsimp only
    by_cases hid : id = b.hb.bankId
    · rw [hid, Function.update_self, Node.handleHeartbeat_addr]
      exact List.Subset.refl _
    · rw [Function.update_of_ne hid]
      exact List.Subset.refl _
  | refuse => exact ⟨kill, fun _ => List.Subset.refl _⟩
  | @found id n l live crashed =>
    constructor
    · dsimp only
      cases τ.system.master.notifyCrash id n.addr with
      | none => exact kill
      | some r => exact fun _ h => Or.inl h
    · intro id'
      dsimp only
      by_cases hid : id' = id
      · rw [hid, Function.update_self, (Node.checkAlive_some (hm.watched id) crashed).2,
          Node.removeNode_addr]
        exact List.erase_subset
      · rw [Function.update_of_ne hid]
        exact List.Subset.refl _
  | _ => exact ⟨fun _ h => Or.inl h, fun _ => List.Subset.refl _⟩

lemma Settles.reach {ok : Timed → TimedLabel → Prop}
    (hrun : Machine.Reach (Timed.step T) ok (Timed.init cfg) τ)
    (hlater : Machine.Reach (Timed.step T) (Alone cfg P D C ok') τ τ')
    (hok : ∀ τ tl, Alone cfg P D C ok' τ tl → ok τ tl) : Settles τ τ' := by
  refine hlater.invariant_of (J := fun υ => Mirrors υ ∧ System.Persists τ.system υ.system) (fun υ h => ?_)
    ⟨fun _ h => Or.inl h, fun _ => List.Subset.refl _⟩ fun _ _ _ h hknown _ hguard hs => ?_
  · exact ⟨(untimed_reach (hrun.trans (h.mono hok))).1, persists_reach h⟩
  · exact h.trans hknown.2 (.step hknown.1 hguard.2 hs)

/-! ### Keeping time -/

/-- Steps that take no time and wait for nothing. -/
def Prompt (_ : Timed) : TimedLabel → Prop
  | .tick | .act _ => False
  | _ => True

lemma alone_of_prompt (h : Prompt τ tl) : Alone cfg P D C ok τ tl := by
  cases tl with
  | tick | act => exact h.elim
  | _ => exact ⟨⟨trivial, trivial⟩, rfl⟩

lemma now_of_prompt (h : Machine.Reach (Timed.step T) Prompt τ τ') : τ'.now = τ.now := by
  refine h.invariant (I := fun υ => υ.now = τ.now) rfl fun _ _ _ h hguard hs => ?_
  cases timed_cases hs with
  | tick => exact hguard.elim
  | _ => exact h

/-- The master has no heartbeat thread. -/
lemma beatAt_master {ok : Timed → TimedLabel → Prop}
    (hrun : Machine.Reach (Timed.step T) ok (Timed.init cfg) τ) :
    τ.beatAt τ.system.master.addr = none := by
  refine hrun.invariant (I := fun τ => τ.beatAt τ.system.master.addr = none) rfl
    fun τ tl τ' h _ hs => ?_
  rw [(persists_step hs).addr]
  cases timed_cases hs with
  | beat ne_master => exact (Function.update_of_ne ne_master.symm _ _).trans h
  | _ => exact h

/-- The servers send their heartbeats. -/
lemma exists_beats (T : ℕ) (hmaster : τ.beatAt τ.system.master.addr = none) (l : List Address) :
    ∃ τ', Machine.Reach (Timed.step T) Prompt τ τ' ∧ τ'.system = τ.system ∧
      τ'.beatAt τ'.system.master.addr = none ∧
      ∀ s ∈ l, τ'.system.crashed s = false → ∀ e ∈ τ'.beatAt s, e = τ'.now := by
  induction l with
  | nil => exact ⟨τ, .refl, rfl, hmaster, fun s hs => by cases hs⟩
  | cons s l ih =>
    obtain ⟨τ', hpause, hsystem, hmaster, hbeat⟩ := ih
    by_cases hguard : s ≠ τ'.system.master.addr ∧ ¬ τ'.system.crashed s
    · have hstep : Machine.Reach (Timed.step T) Prompt τ' _ := .single ⟨.beat s, trivial, if_pos hguard⟩
      refine ⟨_, hpause.trans hstep, hsystem,
        (Function.update_of_ne hguard.1.symm _ _).trans hmaster, fun x hx hlive e he => ?_⟩
      by_cases hxs : x = s
      · obtain rfl : τ'.now = e := by simpa [hxs] using he
        rfl
      · refine hbeat x ((List.mem_cons.mp hx).resolve_left hxs) hlive e ?_
        simpa [hxs] using he
    · refine ⟨τ', hpause, hsystem, hmaster, fun x hx hlive e he => ?_⟩
      rcases List.mem_cons.mp hx with rfl | hx
      · obtain rfl : x = τ'.system.master.addr := by
          by_contra hne
          exact hguard ⟨hne, by simp [hlive]⟩
        rw [hmaster] at he
        cases he
      · exact hbeat x hx hlive e he

/-- The master handles the heartbeats that are on their way. -/
lemma exists_reports (T : ℕ) (τ : Timed) : ∃ τ', Machine.Reach (Timed.step T) Prompt τ τ' ∧
    τ'.beatAt = τ.beatAt ∧ (τ'.system.crashed τ'.system.master.addr = false → τ'.beats = []) := by
  induction hbeats : τ.beats generalizing τ with
  | nil => exact ⟨τ, .refl, rfl, fun _ => hbeats⟩
  | cons b rest ih =>
    cases hmaster : τ.system.crashed τ.system.master.addr with
    | true =>
      refine ⟨τ, .refl, rfl, fun hlive => ?_⟩
      rw [hmaster] at hlive
      cases hlive
    | false =>
      obtain ⟨τ₁, hs⟩ : ∃ τ₁, τ.step T (.report b) = some τ₁ := by
        rw [step, if_pos (by simp [hmaster, hbeats])]
        dsimp only
        cases τ.system.master.bankServerChain.lookup b.hb.bankId <;> exact ⟨_, rfl⟩
      have hfirst : Machine.Reach (Timed.step T) Prompt τ τ₁ := .single ⟨.report b, trivial, hs⟩
      cases timed_cases hs with
      | refuse => exact ⟨_, hfirst, rfl, fun hlive => by simp [System.kill] at hlive⟩
      | report live mem =>
        obtain ⟨τ', hpause, hbeat, hempty⟩ := ih { τ with
          beats := τ.beats.erase b
          node := Function.update τ.node b.hb.bankId
            (Node.handleHeartbeat b.hb.serverAddr τ.now (τ.node b.hb.bankId)) }
          (by simp [hbeats])
        exact ⟨τ', hfirst.trans hpause, hbeat, hempty⟩

/-- `check_alive` comes to every bank. -/
lemma exists_checks (l : List String)
    (hknown : ∀ υ, Machine.Reach (Timed.step T) Prompt τ υ →
      ∀ id ∈ l, (υ.system.master.bankServerChain.lookup id).isSome = true) :
    ∃ τ', Machine.Reach (Timed.step T) Prompt τ τ' ∧ τ'.beatAt = τ.beatAt ∧ τ'.beats = τ.beats ∧
      (τ'.system.crashed τ'.system.master.addr = false → ∀ id ∈ l, τ'.checkedAt id = τ'.now) := by
  induction l with
  | nil => exact ⟨τ, .refl, rfl, rfl, fun _ id hid => by cases hid⟩
  | cons id l ih =>
    obtain ⟨τ', hpause, hbeat, hbeats, hchecked⟩ :=
      ih fun υ hυ id' hid' => hknown υ hυ id' (List.mem_cons_of_mem _ hid')
    cases hmaster : τ'.system.crashed τ'.system.master.addr with
    | true =>
      refine ⟨τ', hpause, hbeat, hbeats, fun hlive => ?_⟩
      rw [hmaster] at hlive
      cases hlive
    | false =>
      obtain ⟨υ, hs⟩ : ∃ υ, τ'.step T (.check id) = some υ := by
        rw [step, if_pos ⟨by simp [hmaster], hknown τ' hpause id List.mem_cons_self⟩]
        dsimp only
        cases Node.checkAlive τ'.now T (τ'.node id) <;> exact ⟨_, rfl⟩
      have hsame : υ.beatAt = τ'.beatAt ∧ υ.beats = τ'.beats ∧
          υ.checkedAt = Function.update τ'.checkedAt id τ'.now := by
        cases timed_cases hs <;> exact ⟨rfl, rfl, rfl⟩
      have hlast : Machine.Reach (Timed.step T) Prompt τ' υ := .single ⟨.check id, trivial, hs⟩
      refine ⟨υ, hpause.trans hlast, hsame.1.trans hbeat, hsame.2.1.trans hbeats, fun hlive id' hid' => ?_⟩
      rw [hsame.2.2, now_of_prompt hlast]
      by_cases hid : id' = id
      · rw [hid, Function.update_self]
      · rw [Function.update_of_ne hid]
        exact hchecked hmaster id' ((List.mem_cons.mp hid').resolve_left hid)

section Progress

variable (hok : ∀ σ l, ok σ l → System.OneJoin cfg σ l) (hdetect : ∀ σ id node, ok σ (.detect id node))
  (hlag : P + D ≤ T) (hrun : Machine.Reach (Timed.step T) (Punctual cfg P D C ok) (Timed.init cfg) τ)
include hok hdetect hlag hrun

lemma alone_reach (hlater : Machine.Reach (Timed.step T) (Alone cfg P D C ok) τ τ') :
    Regular cfg P D C ok τ' :=
  .reach hok hdetect hlag (hrun.trans (hlater.mono fun _ _ h => h.1))

/-- The clock never has to stand still. -/
lemma exists_tick (hP : 0 < P) (hC : 0 < C) :
    ∃ τ', Machine.Reach (Timed.step T) (Alone cfg P D C ok) τ τ' ∧ τ'.now = τ.now + 1 := by
  obtain ⟨τ₁, h₁, -, -, hbeat⟩ := exists_beats T (beatAt_master hrun) cfg.processes
  obtain ⟨τ₂, h₂, hbeatAt₂, hbeats⟩ := exists_reports T τ₁
  have alone {υ : Timed} (h : Machine.Reach (Timed.step T) Prompt τ υ) :
      Machine.Reach (Timed.step T) (Alone cfg P D C ok) τ υ := h.mono fun _ _ => alone_of_prompt
  obtain ⟨τ₃, h₃, hbeatAt₃, hbeats₃, hchecked⟩ :=
      exists_checks (τ := τ₂) (T := T) (cfg.banks.map (·.bankId)) fun υ hυ id hid => by
    have hr := alone_reach hok hdetect hlag hrun (alone ((h₁.trans h₂).trans hυ))
    obtain ⟨b, hb, rfl⟩ := List.mem_map.mp hid
    exact ((Banked.reach hr.follows.run).record _).mpr ⟨b, hb, rfl⟩
  have hnow := now_of_prompt ((h₁.trans h₂).trans h₃)
  have hp := persists_reach (h₂.trans h₃)
  refine ⟨_, (alone ((h₁.trans h₂).trans h₃)).tail ⟨.tick, ⟨⟨⟨?_, ?_⟩, ?_⟩, rfl⟩, rfl⟩, congrArg (· + 1) hnow⟩
  · intro s hs hlive e he
    rw [hbeatAt₃, hbeatAt₂] at he
    have he := hbeat s hs (hp.live s hlive) e he
    rw [now_of_prompt (h₂.trans h₃), he]
    exact Nat.lt_add_of_pos_right hP
  · intro hlive b hb
    have hp := persists_reach h₃
    rw [hbeats₃, hbeats (hp.live _ (hp.addr ▸ hlive))] at hb
    cases hb
  · intro hlive b hb
    rw [hchecked hlive b.bankId (List.mem_map_of_mem hb)]
    exact Nat.lt_add_of_pos_right hC

/-- Any time comes. -/
lemma exists_now (hP : 0 < P) (hC : 0 < C) (k : ℕ) :
    ∃ τ', Machine.Reach (Timed.step T) (Alone cfg P D C ok) τ τ' ∧ τ'.now = τ.now + k := by
  induction k with
  | zero => exact ⟨τ, .refl, rfl⟩
  | succ k ih =>
    obtain ⟨τ₁, h₁, hnow₁⟩ := ih
    obtain ⟨τ₂, h₂, hnow₂⟩ := exists_tick hok hdetect hlag (hrun.trans (h₁.mono fun _ _ h => h.1)) hP hC
    exact ⟨τ₂, h₁.trans h₂, by rw [hnow₂, hnow₁, Nat.add_assoc]⟩

end Progress

end Timed

open Timed in
/-- From every state that a run in time has reached, the clock alone gets all the crashed servers that the
master has heard of out of the record. -/
theorem crashes_found {ok : System → Label → Prop} (hok : ∀ σ l, ok σ l → System.OneJoin cfg σ l)
    (hdetect : ∀ σ id node, ok σ (.detect id node)) (hlag : P + D ≤ T) (hP : 0 < P) (hC : 0 < C)
    (hrun : Machine.Reach (Timed.step T) (Punctual cfg P D C ok) (Timed.init cfg) τ) :
    ∃ τ', Machine.Reach (Timed.step T) (Alone cfg P D C ok) τ τ' ∧
      (τ'.system.crashed cfg.master = false →
        ∀ id, ∀ n ∈ τ'.node id, n.reported = true → τ'.system.crashed n.addr = false) := by
  -- what is on its way counts as heard of
  obtain ⟨τ₁, hprompt, -, hbeats⟩ := exists_reports T τ
  have h₁ : Machine.Reach (Timed.step T) (Punctual cfg P D C ok) τ τ₁ :=
    hprompt.mono fun _ _ h => (alone_of_prompt h).1
  set N := (cfg.banks.map fun b => (τ₁.system.chain b.bankId).length).sum with hN
  obtain ⟨τ₂, halone, hnow⟩ :=
    exists_now hok hdetect hlag (hrun.trans h₁) hP hC (D + T + (N + 1) * C + 1)
  have h₂ : Machine.Reach (Timed.step T) (Punctual cfg P D C ok) τ₁ τ₂ := halone.mono fun _ _ h => h.1
  refine ⟨τ₂, (hprompt.mono fun _ _ => alone_of_prompt).trans halone, fun hmaster id n hn hreported => ?_⟩
  have hr₁ : Regular cfg P D C ok τ₁ := .reach hok hdetect hlag (hrun.trans h₁)
  have hr₂ : Regular cfg P D C ok τ₂ := .reach hok hdetect hlag ((hrun.trans h₁).trans h₂)
  have hp := persists_reach h₂
  have hlive₂ : τ₂.system.crashed τ₂.system.master.addr = false := by rwa [hr₂.extending.master]
  have hlive₁ : τ₁.system.crashed τ₁.system.master.addr = false := hp.live _ (hp.addr ▸ hlive₂)
  have hsettles : Settles τ₁ τ₂ := .reach (hrun.trans h₁) halone fun _ _ h => h.1
  by_contra hdead
  have hdead : τ₂.system.crashed n.addr = true := by simpa using hdead
  have hdead₁ : τ₁.system.crashed n.addr = true := by
    refine (hsettles.crashed _ hdead).resolve_right fun heq => ?_
    rw [heq, ← hp.addr, hlive₂] at hdead
    cases hdead
  have hplace : n.addr ∈ (τ₁.node id).map (·.addr) := hsettles.node id (List.mem_map_of_mem hn)
  by_cases hheard : ∃ m ∈ τ₁.node id, m.addr = n.addr ∧ m.reported = true
  · obtain ⟨m, hm, haddr, hreported⟩ := hheard
    have hstart := Doomed.start (T := T) hr₁ hlive₁ hm hreported (haddr ▸ hdead₁)
    have hend := hstart.reach hok hdetect hlag (hrun.trans h₁) h₂
    have hmem : m.addr ∈ τ₂.system.chain id := by
      rw [haddr, ← hr₂.follows.mirrors.chain hlive₂]
      exact List.mem_map_of_mem hn
    have hle := hend.now_le hr₂ hlive₂ hmem
    obtain ⟨b, hb, rfl, -⟩ := hend.bank
    have hidx : (τ₁.system.chain b.bankId).idxOf m.addr ≤ N :=
      List.idxOf_le_length.trans (List.single_le_sum (by simp) _ (List.mem_map_of_mem hb))
    have hrounds := Nat.mul_le_mul_right C (Nat.succ_le_succ hidx)
    rw [Nat.succ_eq_add_one, Nat.succ_eq_add_one] at hrounds
    omega
  · have hstart : Unheard id n.addr τ₁ := by
      refine ⟨hdead₁, fun b hb => ?_, hplace, fun m hm haddr => ?_⟩
      · rw [hbeats hlive₁] at hb
        cases hb
      · by_contra hreported
        exact hheard ⟨m, hm, haddr, by simpa using hreported⟩
    have hsilent := (hstart.reach (hrun.trans h₁) h₂).reported n hn rfl
    rw [hreported] at hsilent
    cases hsilent

open Config Timed in
/-- Both servers of a bank die, the first one before its first heartbeat. -/
theorem crashes_found_second :
    let cfg := growingBank
    let τ := Machine.after (Timed.step 3) (Punctual cfg 2 1 2 (System.OneJoin cfg)) (Timed.init cfg)
      ([.act (.crash (localAddress 1))] ++ pulse 2 0 ++ [.act (.crash (localAddress 2))])
    ∃ τ', Machine.Reach (Timed.step 3) (Alone cfg 2 1 2 (System.OneJoin cfg)) τ τ' ∧
      (τ'.system.crashed cfg.master = false →
        ∀ id, ∀ n ∈ τ'.node id, n.reported = true → τ'.system.crashed n.addr = false) :=
  crashes_found (fun _ _ h => h) (fun _ _ _ => trivial) (by decide) (by decide) (by decide)
    (Machine.reach_after (by decide +kernel))

end ChainReplication
