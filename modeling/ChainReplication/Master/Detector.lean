import ChainReplication.Library.ListOrder
import ChainReplication.Master.Basic

/-!
# The failure detector

The nodes of one bank's `server_chain_` with the times of their last reports, and the inner loop of
`check_alive` over them. Times and `crash_timeout` are counted in ticks of one clock.
-/

namespace ChainReplication

/-- `Heartbeat`. -/
structure Heartbeat where
  bankId : String
  serverAddr : Address
deriving DecidableEq

/-- `Node`. -/
structure Node where
  addr : Address
  lastReportTime : ℕ := 0
  reported : Bool := false
  crashed : Bool := false
deriving DecidableEq

namespace Node

variable {n m : Node} {l l' : List Node} {a : Address} {now crashTimeout : ℕ}

/-- `set_report_time`. -/
def setReportTime (n : Node) (now : ℕ) : Node := { n with lastReportTime := now, reported := true }

/-- `become_crashed` on a node that is not crashed; the result is in `crashed`. -/
def becomeCrashed (n : Node) (now crashTimeout : ℕ) : Node :=
  if ¬ n.reported then n
  else if crashTimeout < now - n.lastReportTime then { n with crashed := true }
  else n

/-- `handle_heartbeat` on the nodes of the bank. -/
def handleHeartbeat (addr : Address) (now : ℕ) : List Node → List Node
  | [] => []
  | n :: l =>
    if n.addr = addr then (if ¬ n.crashed then n.setReportTime now else n) :: l
    else n :: handleHeartbeat addr now l

/-- `check_alive` on the nodes of one bank: the node that has become crashed. -/
def checkAlive (now crashTimeout : ℕ) : List Node → Option (Node × List Node)
  | [] => none
  | n :: l =>
    if ¬ n.crashed ∧ (n.becomeCrashed now crashTimeout).crashed then
      some (n.becomeCrashed now crashTimeout, n.becomeCrashed now crashTimeout :: l)
    else (checkAlive now crashTimeout l).map fun r => (r.1, n :: r.2)

/-- `remove_node` of a node that is in the chain. -/
def removeNode (addr : Address) (l : List Node) : List Node := l.eraseP (·.addr = addr)

/-- The nodes between two steps of the master: a node that has become crashed is removed at once, and of
several nodes with one address only the first one hears its heartbeats. -/
structure Watched (l : List Node) : Prop where
  alive : ∀ n ∈ l, n.crashed = false
  first : l.Pairwise fun n m => n.addr = m.addr → m.reported = false

/-- The last report of the node is too long ago. -/
def Overdue (n : Node) (now crashTimeout : ℕ) : Prop :=
  n.reported = true ∧ crashTimeout < now - n.lastReportTime

lemma becomeCrashed_iff (h : n.crashed = false) :
    (n.becomeCrashed now crashTimeout).crashed = true ↔ n.Overdue now crashTimeout := by
  unfold becomeCrashed Overdue
  split_ifs with hreported hlate
  · simp_all
  · simp_all
  · simp_all

@[simp] lemma becomeCrashed_addr : (n.becomeCrashed now crashTimeout).addr = n.addr := by
  unfold becomeCrashed
  split_ifs <;> rfl

namespace Watched

lemma of_cons (h : Watched (n :: l)) : Watched l :=
  ⟨fun m hm => h.alive m (List.mem_cons_of_mem _ hm), (List.pairwise_cons.mp h.first).2⟩

lemma sublist (h : Watched l) (hl : l'.Sublist l) : Watched l' :=
  ⟨fun m hm => h.alive m (hl.subset hm), h.first.sublist hl⟩

/-- A server that has just joined. -/
lemma concat (h : Watched l) : Watched (l ++ [{ addr := a }]) := by
  constructor
  · intro n hn
    rcases List.mem_append.mp hn with hn | hn
    · exact h.alive n hn
    · obtain rfl := List.mem_singleton.mp hn
      rfl
  · refine List.pairwise_append.mpr ⟨h.first, List.pairwise_singleton _ _, fun n _ m hm _ => ?_⟩
    obtain rfl := List.mem_singleton.mp hm
    rfl

end Watched

/-! ### `handle_heartbeat` -/

lemma handleHeartbeat_addr (a : Address) (now : ℕ) (l : List Node) :
    (handleHeartbeat a now l).map (·.addr) = l.map (·.addr) := by
  induction l with
  | nil => rfl
  | cons n l ih =>
    unfold handleHeartbeat
    split_ifs
    · rfl
    · rfl
    · rw [List.map_cons, ih, List.map_cons]

/-- Which nodes have reported after a heartbeat. -/
lemma mem_handleHeartbeat (h : Watched l) (hm : m ∈ handleHeartbeat a now l)
    (hreported : m.reported = true) : m.addr = a ∧ m.lastReportTime = now ∨ m.addr ≠ a ∧ m ∈ l := by
  induction l with
  | nil => cases hm
  | cons n l ih =>
    have hn := h.alive n List.mem_cons_self
    simp only [handleHeartbeat, hn, Bool.false_eq_true, not_false_eq_true, if_true] at hm
    split_ifs at hm with ha
    · rcases List.mem_cons.mp hm with rfl | hm
      · exact Or.inl ⟨ha, rfl⟩
      · refine Or.inr ⟨fun heq => ?_, List.mem_cons_of_mem _ hm⟩
        rw [(List.pairwise_cons.mp h.first).1 m hm (ha.trans heq.symm)] at hreported
        cases hreported
    · rcases List.mem_cons.mp hm with rfl | hm
      · exact Or.inr ⟨ha, List.mem_cons_self⟩
      · exact (ih h.of_cons hm).imp id fun ⟨hne, hm⟩ => ⟨hne, List.mem_cons_of_mem _ hm⟩

/-- Heartbeats of other servers change nothing. -/
lemma mem_handleHeartbeat_of_ne (hne : m.addr ≠ a) : m ∈ handleHeartbeat a now l ↔ m ∈ l := by
  induction l with
  | nil => rfl
  | cons n l ih =>
    have other (n' : Node) (hn' : n'.addr = a) : m ≠ n' := fun heq => hne (heq ▸ hn')
    unfold handleHeartbeat
    split_ifs with ha
    · rfl
    · simp [other n ha, other (n.setReportTime now) ha]
    · rw [List.mem_cons, List.mem_cons, ih]

lemma Watched.handleHeartbeat (h : Watched l) : Watched (handleHeartbeat a now l) := by
  induction l with
  | nil => exact h
  | cons n l ih =>
    have hn := h.alive n List.mem_cons_self
    obtain ⟨hfirst, hrest⟩ := List.pairwise_cons.mp h.first
    simp only [Node.handleHeartbeat, hn, Bool.false_eq_true, not_false_eq_true, if_true]
    split_ifs with ha
    · refine ⟨fun m hm => ?_, List.pairwise_cons.mpr ⟨fun m hm heq => hfirst m hm heq, hrest⟩⟩
      rcases List.mem_cons.mp hm with rfl | hm
      · exact hn
      · exact h.alive m (List.mem_cons_of_mem _ hm)
    · have hrest' := ih h.of_cons
      refine ⟨fun m hm => ?_, List.pairwise_cons.mpr ⟨fun m hm heq => ?_, hrest'.first⟩⟩
      · rcases List.mem_cons.mp hm with rfl | hm
        · exact hn
        · exact hrest'.alive m hm
      · rw [mem_handleHeartbeat_of_ne (heq ▸ ha)] at hm
        exact hfirst m hm heq

/-- No heartbeat makes a report forgotten. -/
lemma exists_reported_handleHeartbeat {x : Address} (h : ∃ n ∈ l, n.addr = x ∧ n.reported = true) :
    ∃ n ∈ handleHeartbeat a now l, n.addr = x ∧ n.reported = true := by
  induction l with
  | nil => exact h
  | cons k l ih =>
    obtain ⟨n, hn, haddr, hreported⟩ := h
    unfold handleHeartbeat
    split_ifs
    · exact ⟨n, hn, haddr, hreported⟩
    · rcases List.mem_cons.mp hn with rfl | hn
      · exact ⟨_, List.mem_cons_self, haddr, rfl⟩
      · exact ⟨n, List.mem_cons_of_mem _ hn, haddr, hreported⟩
    · rcases List.mem_cons.mp hn with rfl | hn
      · exact ⟨n, List.mem_cons_self, haddr, hreported⟩
      · obtain ⟨n', hn', hrest⟩ := ih ⟨n, hn, haddr, hreported⟩
        exact ⟨n', List.mem_cons_of_mem _ hn', hrest⟩

/-! ### `check_alive` -/

/-- The node that is found is the first one of its address, and it is overdue. -/
lemma checkAlive_some (h : Watched l) (hc : checkAlive now crashTimeout l = some (m, l')) :
    (∃ n ∈ l, n.addr = m.addr ∧ n.Overdue now crashTimeout) ∧
      removeNode m.addr l' = removeNode m.addr l := by
  induction l generalizing l' with
  | nil => cases hc
  | cons n l ih =>
    have hn := h.alive n List.mem_cons_self
    unfold checkAlive at hc
    split_ifs at hc with hcrashed
    · obtain ⟨rfl, rfl⟩ := Prod.mk.inj (Option.some.inj hc)
      refine ⟨⟨n, List.mem_cons_self, by simp, (becomeCrashed_iff hn).mp hcrashed.2⟩, ?_⟩
      simp [removeNode]
    · obtain ⟨⟨m', l''⟩, hrest, heq⟩ := Option.map_eq_some_iff.mp hc
      obtain ⟨rfl, rfl⟩ := Prod.mk.inj heq
      obtain ⟨⟨n', hn', haddr, hlate⟩, hremove⟩ := ih h.of_cons hrest
      have hne : n.addr ≠ m'.addr := by
        intro heq
        have hfalse := (List.pairwise_cons.mp h.first).1 n' hn' (heq.trans haddr.symm)
        rw [hlate.1] at hfalse
        cases hfalse
      refine ⟨⟨n', List.mem_cons_of_mem _ hn', haddr, hlate⟩, ?_⟩
      rw [removeNode, removeNode, List.eraseP_cons_of_neg (by simpa using hne),
        List.eraseP_cons_of_neg (by simpa using hne)]
      exact congrArg _ hremove

/-- The node that is found stands before every other one that is overdue. -/
lemma checkAlive_first (h : Watched l) (hc : checkAlive now crashTimeout l = some (m, l'))
    (hn : n ∈ l) (hlate : n.Overdue now crashTimeout) :
    (l.map (·.addr)).idxOf m.addr ≤ (l.map (·.addr)).idxOf n.addr := by
  induction l generalizing l' with
  | nil => cases hc
  | cons k l ih =>
    have hk := h.alive k List.mem_cons_self
    unfold checkAlive at hc
    split_ifs at hc with hcrashed
    · obtain ⟨rfl, -⟩ := Prod.mk.inj (Option.some.inj hc)
      simp
    · obtain ⟨⟨m', l''⟩, hrest, heq⟩ := Option.map_eq_some_iff.mp hc
      obtain ⟨rfl, -⟩ := Prod.mk.inj heq
      rcases List.mem_cons.mp hn with rfl | hn
      · exact absurd ⟨by simp [hk], (becomeCrashed_iff hk).mpr hlate⟩ hcrashed
      · have hne : k.addr ≠ n.addr := by
          intro heq
          have hfalse := (List.pairwise_cons.mp h.first).1 n hn heq
          rw [hlate.1] at hfalse
          cases hfalse
        rw [List.map_cons, List.idxOf_cons_ne _ hne]
        by_cases hkm : k.addr = m'.addr
        · rw [hkm, List.idxOf_cons_self]
          exact Nat.zero_le _
        · rw [List.idxOf_cons_ne _ hkm]
          exact Nat.succ_le_succ (ih h.of_cons hrest hn)

/-- Nobody is found as long as nobody is overdue. -/
lemma checkAlive_none (h : Watched l) (hc : checkAlive now crashTimeout l = none) (hn : n ∈ l) :
    ¬ n.Overdue now crashTimeout := by
  induction l with
  | nil => cases hn
  | cons k l ih =>
    have hk := h.alive k List.mem_cons_self
    unfold checkAlive at hc
    split_ifs at hc with hcrashed
    rcases List.mem_cons.mp hn with rfl | hn
    · exact fun hlate => hcrashed ⟨by simp [hk], (becomeCrashed_iff hk).mpr hlate⟩
    · exact ih h.of_cons (Option.map_eq_none_iff.mp hc) hn

/-! ### `remove_node` -/

lemma removeNode_addr (a : Address) (l : List Node) :
    (removeNode a l).map (·.addr) = (l.map (·.addr)).erase a := by
  rw [List.erase_eq_eraseP, List.eraseP_map, removeNode]
  congr 2
  funext n
  rw [Function.comp_apply, Bool.eq_iff_iff, decide_eq_true_eq, beq_iff_eq, eq_comm]

lemma Watched.removeNode (h : Watched l) (a : Address) : Watched (removeNode a l) :=
  h.sublist List.eraseP_sublist

end Node

end ChainReplication
