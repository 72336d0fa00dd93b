import ChainReplication.Master.Chain
import ChainReplication.Master.Extending

/-!
# Several servers that want to join

The master has one `extending_` for each chain and takes any `JOIN`. The events of one bank are followed
together with the servers that have sent their `JOIN` and not yet their `EXTEND_FINISH`.
-/

namespace ChainReplication

namespace Master

variable {bankId : String} {bsc bsc' : BankServerChain} {l : List Address} {ev : ChainEvent}
  {m' : Master} {out : List Packet}

/-- The master and the servers of one bank whose joining has not ended. -/
structure Admission where
  master : Master
  outstanding : List Address := []

namespace Admission

/-- The servers of a bank that are joining after an event of the bank. -/
def outstandingAfter (outstanding : List Address) : ChainEvent → List Address
  | .join msg => outstanding ++ [msg.serverAddr]
  | .extendFinish msg => outstanding.erase msg.serverAddr
  | .crash _ node => outstanding.erase node

def step (bankId : String) (s : Admission) (ev : ChainEvent) : Option Admission :=
  (s.master.handleEvent ev).map fun r =>
    { master := r.1
      outstanding := if ev.bank = bankId then outstandingAfter s.outstanding ev else s.outstanding }

/-- What can happen in the bank: a server that is not listed joins, one that is joining reports that it
is done, or a listed server crashes that is not the last one of those that have joined. -/
def Possible (outstanding : List Address) (bsc : BankServerChain) : ChainEvent → Prop
  | .join msg => msg.serverAddr ∉ bsc.serverChain ∧ msg.serverAddr ≠ .empty
  | .extendFinish msg => msg.serverAddr ∈ outstanding
  | .crash _ node => node ∈ bsc.serverChain ∧ ∃ a ∈ bsc.serverChain, a ≠ node ∧ a ∉ outstanding

instance (outstanding : List Address) (bsc : BankServerChain) (ev : ChainEvent) :
    Decidable (Possible outstanding bsc ev) :=
  match ev with
  | .join _ => inferInstanceAs (Decidable (_ ∧ _))
  | .extendFinish _ => inferInstanceAs (Decidable (_ ∈ _))
  | .crash _ _ => inferInstanceAs (Decidable (_ ∧ _))

def Genuine (bankId : String) (s : Admission) (ev : ChainEvent) : Prop :=
  ev.bank = bankId → ∀ bsc ∈ s.master.bankServerChain.lookup bankId, Possible s.outstanding bsc ev

instance (bankId : String) (s : Admission) (ev : ChainEvent) : Decidable (Genuine bankId s ev) :=
  inferInstanceAs (Decidable (_ → _))

/-- A server of the bank joins only while none is joining. -/
def OneAtATime (bankId : String) (s : Admission) : ChainEvent → Prop
  | .join msg => msg.bankId = bankId → s.outstanding = []
  | _ => True

instance (bankId : String) (s : Admission) (ev : ChainEvent) : Decidable (OneAtATime bankId s ev) :=
  match ev with
  | .join _ => inferInstanceAs (Decidable (_ → _))
  | .extendFinish _ | .crash _ _ => instDecidableTrue

/-- The handler of an event of the bank returns, and every `EXTEND_SERVER` that it sends goes to the tail
that the record then names. -/
def TellsTail (bankId : String) (s : Admission) (ev : ChainEvent) : Prop :=
  ∃ m' out bsc', s.master.handleEvent ev = some (m', out) ∧
    m'.bankServerChain.lookup bankId = some bsc' ∧
    ∀ t x, .tcp t (.extendServer x) ∈ out → t = bsc'.tail

/-- The chain ends with the tail when no server is joining, and `extending_` is set while one is. -/
def Tracks (bankId : String) (s : Admission) : Prop :=
  ∃ bsc, s.master.bankServerChain.lookup bankId = some bsc ∧
    (s.outstanding = [] → bsc.serverChain.getLast? = some bsc.tail) ∧
    (bsc.extending = .empty → s.outstanding = [])

/-! ### The record -/

/-- What is known as long as no `JOIN` has met another joining server. -/
def Shaped (bankId : String) (s : Admission) : Prop :=
  ∃ bsc l, s.master.bankServerChain.lookup bankId = some bsc ∧ bsc.Shape l ∧ s.outstanding = bsc.joiner

/-- A server that is listed without being the one that joins. -/
lemma mem_filter_of_notMem_joiner {a : Address} (h : bsc.Shape l) (ha : a ∈ bsc.serverChain)
    (hjoin : a ∉ bsc.joiner) : a ∈ bsc.serverChain.filter (· ≠ bsc.extending) := by
  rw [h.filter]
  rw [h.chain] at ha
  exact (List.mem_append.mp ha).resolve_right hjoin

/-- One server at a time is what the master is to expect. -/
lemma expectedBy_of_possible {s : Admission} (h : bsc.Shape l) (hout : s.outstanding = bsc.joiner)
    (hbank : ev.bank = bankId) (hev : Possible s.outstanding bsc ev) (hone : OneAtATime bankId s ev) :
    ev.ExpectedBy bsc := by
  rw [hout] at hev
  cases ev with
  | join msg =>
    have hnone : bsc.joiner = [] := hout.symm.trans (hone hbank)
    unfold BankServerChain.joiner at hnone
    split_ifs at hnone with hext
    exact ⟨hev.1, hev.2, hext⟩
  | extendFinish msg =>
    have hmem : msg.serverAddr ∈ bsc.joiner := hev
    unfold BankServerChain.joiner at hmem
    split_ifs at hmem with hext
    · cases hmem
    · exact ⟨List.mem_singleton.mp hmem, hext⟩
  | crash bank node =>
    obtain ⟨hnode, a, ha, hne, hjoin⟩ := hev
    refine ⟨hnode, fun honly => ?_⟩
    have hmem := mem_filter_of_notMem_joiner h ha hjoin
    rw [honly, List.mem_singleton] at hmem
    exact hne hmem

/-- What becomes of `extending_`. -/
lemma joiner_handleEvent {m : Master} (h : bsc.Shape l)
    (hlookup : m.bankServerChain.lookup ev.bank = some bsc) (hev : ev.ExpectedBy bsc)
    (hhandle : m.handleEvent ev = some (m', out))
    (hlookup' : m'.bankServerChain.lookup ev.bank = some bsc') :
    bsc'.joiner = outstandingAfter bsc.joiner ev := by
  have record {c : BankServerChain} (hset : m' = m.setChain ev.bank c) : bsc' = c := by
    rw [hset, lookup_setChain] at hlookup'
    exact (Option.some.inj hlookup').symm
  cases ev with
  | join msg =>
    obtain ⟨hnew, hempty, hext⟩ := hev
    have hlast : bsc.serverChain.getLast? = some bsc.tail := by
      rw [h.chain, BankServerChain.joiner, if_pos hext, List.append_nil, h.tail]
    rw [handleEvent, handleJoin_of_last hlookup h.head_mem hnew hlast] at hhandle
    obtain ⟨rfl, -⟩ := Prod.mk.inj (Option.some.inj hhandle)
    rw [record rfl, BankServerChain.joiner, if_neg hempty, BankServerChain.joiner, if_pos hext]
    rfl
  | extendFinish msg =>
    obtain ⟨heq, hext⟩ := hev
    rw [handleEvent, handleExtendFinish, show m.bankServerChain.lookup msg.bankId = some bsc from hlookup]
      at hhandle
    obtain ⟨rfl, -⟩ := Prod.mk.inj (Option.some.inj hhandle)
    rw [record rfl, BankServerChain.joiner, if_pos rfl, BankServerChain.joiner, if_neg hext,
      outstandingAfter, heq, List.erase_cons_head]
  | crash bank node =>
    have hkeep (hne : node ≠ bsc.extending) : outstandingAfter bsc.joiner (.crash bank node) = bsc.joiner := by
      rw [outstandingAfter, List.erase_of_not_mem]
      unfold BankServerChain.joiner
      split_ifs <;> simp [hne]
    cases notifyCrash_notifyCase hlookup hhandle with
    | head head tail next set =>
      have hne := h.ne_extending (List.mem_of_head? (head ▸ h.head))
      rw [record set, hkeep hne]
      rfl
    | tail head tail prev set =>
      have hne := h.ne_extending (List.mem_of_getLast? (tail ▸ h.tail))
      rw [record set, hkeep hne]
      rfl
    | internal head tail extending next prev =>
      rw [record rfl, hkeep extending]
      rfl
    | extending head tail extending prev =>
      have hext : bsc.extending ≠ .empty := by
        intro hext
        exact h.notEmpty (hext ▸ extending ▸ hev.1)
      rw [record rfl, BankServerChain.joiner, if_pos rfl, outstandingAfter, BankServerChain.joiner,
        if_neg hext, extending, List.erase_cons_head]

lemma Shaped.step {s t : Admission} (h : s.Shaped bankId) (hev : Genuine bankId s ev)
    (hone : OneAtATime bankId s ev) (hstep : step bankId s ev = some t) : t.Shaped bankId := by
  obtain ⟨bsc, l, hlookup, hshape, hout⟩ := h
  obtain ⟨⟨m', out⟩, hhandle, rfl⟩ := Option.map_eq_some_iff.mp hstep
  by_cases hbank : ev.bank = bankId
  · have hexp := expectedBy_of_possible hshape hout hbank (hev hbank bsc hlookup) hone
    subst hbank
    obtain ⟨bsc', l', ⟨m'', out', hreturns, hlookup', -⟩, hshape'⟩ := returns_of_expected hshape hlookup hexp
    obtain ⟨rfl, -⟩ := Prod.mk.inj (Option.some.inj (hreturns.symm.trans hhandle))
    refine ⟨bsc', l', hlookup', hshape', ?_⟩
    rw [if_pos rfl, hout]
    exact (joiner_handleEvent hshape hlookup hexp hhandle hlookup').symm
  · obtain ⟨bsc', hset⟩ := handleEvent_setChain hhandle
    refine ⟨bsc, l, ?_, hshape, ?_⟩
    · simp only [hset, setChain]
      rw [AList.lookup_insert_ne (Ne.symm hbank)]
      exact hlookup
    · rw [if_neg hbank]
      exact hout

lemma Shaped.tracks {s : Admission} (h : s.Shaped bankId) : s.Tracks bankId := by
  obtain ⟨bsc, l, hlookup, hshape, hout⟩ := h
  refine ⟨bsc, hlookup, fun hnone => ?_, fun hext => ?_⟩
  · rw [hshape.chain, ← hout, hnone, List.append_nil, hshape.tail]
  · rw [hout, BankServerChain.joiner, if_pos hext]

/-! ### The notifications -/

/-- A `JOIN` that meets another joining server is passed on to that server, which is not the tail. -/
lemma Shaped.oneAtATime {s : Admission} (h : s.Shaped bankId) (hev : Genuine bankId s ev)
    (hbank : ev.bank = bankId) (htells : TellsTail bankId s ev) : OneAtATime bankId s ev := by
  obtain ⟨bsc, l, hlookup, hshape, hout⟩ := h
  cases ev with
  | extendFinish msg => trivial
  | crash bank node => trivial
  | join msg =>
    intro _
    by_contra hbusy
    rw [hout] at hbusy
    have hext : bsc.extending ≠ .empty := by
      intro hext
      rw [BankServerChain.joiner, if_pos hext] at hbusy
      exact hbusy rfl
    have hnew := (hev hbank bsc hlookup).1
    have hlast : bsc.serverChain.getLast? = some bsc.extending := by
      rw [hshape.chain, BankServerChain.joiner, if_neg hext, List.getLast?_append_cons]
      rfl
    subst hbank
    obtain ⟨m', out, bsc', hhandle, hlookup', htail⟩ := htells
    rw [handleEvent, handleJoin_of_last hlookup hshape.head_mem hnew hlast] at hhandle
    obtain ⟨rfl, rfl⟩ := Prod.mk.inj (Option.some.inj hhandle)
    have hrecord : some bsc' = some { bsc.appendNode msg.serverAddr with extending := msg.serverAddr } :=
      hlookup'.symm.trans lookup_setChain
    have heq := htail bsc.extending msg.serverAddr (by simp)
    rw [Option.some.inj hrecord] at heq
    exact hshape.ne_extending (List.mem_of_getLast? hshape.tail) heq.symm

/-- Otherwise every `EXTEND_SERVER` goes to the tail. -/
lemma Shaped.tellsTail {s : Admission} (h : s.Shaped bankId) (hev : Genuine bankId s ev)
    (hbank : ev.bank = bankId) (hone : OneAtATime bankId s ev) : TellsTail bankId s ev := by
  obtain ⟨bsc, l, hlookup, hshape, hout⟩ := h
  have hexp := expectedBy_of_possible hshape hout hbank (hev hbank bsc hlookup) hone
  subst hbank
  obtain ⟨bsc', l', ⟨m', out, hhandle, hlookup', -⟩, -⟩ := returns_of_expected hshape hlookup hexp
  refine ⟨m', out, bsc', hhandle, hlookup', fun t x hmem => ?_⟩
  have record {c : BankServerChain} (hset : m' = s.master.setChain ev.bank c) : bsc' = c := by
    rw [hset, lookup_setChain] at hlookup'
    exact (Option.some.inj hlookup').symm
  have silent {m : Master} {msg : Message} (hclients : Packet.tcp t (.extendServer x) ∈ m.notifyClients msg) :
      False := by
    obtain ⟨a, -, heq⟩ := List.mem_map.mp hclients
    cases heq
  cases ev with
  | join msg =>
    obtain ⟨hnew, hempty, hext⟩ := hexp
    have hlast : bsc.serverChain.getLast? = some bsc.tail := by
      rw [hshape.chain, BankServerChain.joiner, if_pos hext, List.append_nil, hshape.tail]
    rw [handleEvent, handleJoin_of_last hlookup hshape.head_mem hnew hlast] at hhandle
    obtain ⟨rfl, rfl⟩ := Prod.mk.inj (Option.some.inj hhandle)
    rw [record rfl]
    simp only [List.mem_singleton, Packet.tcp.injEq] at hmem
    exact hmem.1
  | extendFinish msg =>
    rw [handleEvent, handleExtendFinish,
      show s.master.bankServerChain.lookup msg.bankId = some bsc from hlookup] at hhandle
    obtain ⟨-, rfl⟩ := Prod.mk.inj (Option.some.inj hhandle)
    exact (silent hmem).elim
  | crash bank node =>
    cases notifyCrash_notifyCase hlookup hhandle with
    | head head tail next set =>
      rw [List.mem_cons, List.mem_append] at hmem
      rcases hmem with hmem | hmem | hmem
      · cases hmem
      · exact (silent hmem).elim
      · obtain ⟨e, -, he⟩ := List.mem_flatMap.mp hmem
        obtain ⟨a, -, heq⟩ := List.mem_map.mp he
        cases heq
    | tail head tail prev set =>
      rw [List.mem_cons, List.mem_append] at hmem
      rcases hmem with hmem | hmem | hmem
      · cases hmem
      · exact (silent hmem).elim
      · split_ifs at hmem with hext
        · cases hmem
        · simp only [List.mem_singleton, Packet.tcp.injEq] at hmem
          rw [record set]
          exact hmem.1
    | internal head tail extending next prev => simp at hmem
    | extending head tail extending prev => simp at hmem

/-! ### Runs -/

lemma shaped_of_reach {m₀ : Master} {servers : List (Address × ℕ)} {s : Admission}
    (horder : servers.map Prod.snd = List.range' 1 servers.length) (hne : servers ≠ [])
    (hnodup : (servers.map Prod.fst).Nodup) (hempty : .empty ∉ servers.map Prod.fst)
    (hlookup : m₀.bankServerChain.lookup bankId = some (BankServerChain.readConfig servers))
    (hrun : Machine.Reach (step bankId) (fun s ev => Genuine bankId s ev ∧ OneAtATime bankId s ev)
      { master := m₀ } s) : s.Shaped bankId := by
  apply hrun.invariant
  · refine ⟨_, _, hlookup, BankServerChain.readConfig_shape horder hne hnodup hempty, ?_⟩
    rw [BankServerChain.readConfig_eq horder, BankServerChain.joiner, if_pos rfl]
  · exact fun s ev t h hev hstep => h.step hev.1 hev.2 hstep

/-- As long as every `JOIN` has come while no server was joining, the record tracks the tail and the
joining server; and the next event of the bank keeps to the tail if and only if it is no `JOIN` that meets
a joining server. -/
theorem joins_told_to_tail_iff {m₀ : Master} {servers : List (Address × ℕ)} {s : Admission}
    (horder : servers.map Prod.snd = List.range' 1 servers.length) (hne : servers ≠ [])
    (hnodup : (servers.map Prod.fst).Nodup) (hempty : .empty ∉ servers.map Prod.fst)
    (hlookup : m₀.bankServerChain.lookup bankId = some (BankServerChain.readConfig servers))
    (hrun : Machine.Reach (step bankId) (fun s ev => Genuine bankId s ev ∧ OneAtATime bankId s ev)
      { master := m₀ } s) :
    s.Tracks bankId ∧ ∀ ev : ChainEvent, ev.bank = bankId → Genuine bankId s ev →
      (TellsTail bankId s ev ↔ OneAtATime bankId s ev) := by
  have h := shaped_of_reach horder hne hnodup hempty hlookup hrun
  exact ⟨h.tracks, fun ev hbank hev => ⟨h.oneAtATime hev hbank, h.tellsTail hev hbank⟩⟩

theorem joins_told_to_tail_iff_sample :
    ∃ s, Machine.run (step "BOA") (fun s ev => Genuine "BOA" s ev ∧ OneAtATime "BOA" s ev)
        { master := sampleMaster } sampleEvents = some s ∧
      s.Tracks "BOA" ∧ ∀ ev : ChainEvent, ev.bank = "BOA" → Genuine "BOA" s ev →
        (TellsTail "BOA" s ev ↔ OneAtATime "BOA" s ev) := by
  obtain ⟨s, hs⟩ := Option.isSome_iff_exists.mp (by decide +kernel :
    (Machine.run (step "BOA") (fun s ev => Genuine "BOA" s ev ∧ OneAtATime "BOA" s ev)
      { master := sampleMaster } sampleEvents).isSome = true)
  exact ⟨s, hs, @joins_told_to_tail_iff "BOA" sampleMaster sampleServers s (by decide) (by decide)
    (by decide) (by decide) (by decide +kernel) (Machine.reach_of_run hs)⟩

/-- Server 5 joins while server 4 is joining: server 4 is told to extend the chain, the tail is server 3. -/
theorem overlapping_join_told_to_joiner :
    ¬ ∀ s, Machine.Reach (step "BOA") (Genuine "BOA") { master := sampleMaster } s →
      s.Tracks "BOA" ∧ ∀ ev : ChainEvent, ev.bank = "BOA" → Genuine "BOA" s ev → TellsTail "BOA" s ev := by
  intro h
  have hrun : Machine.Reach (step "BOA") (Genuine "BOA") { master := sampleMaster }
      (Machine.after (step "BOA") (Genuine "BOA") { master := sampleMaster }
        [.join { bankId := "BOA", serverAddr := sampleServer 4 }]) :=
    Machine.reach_after (by decide +kernel)
  obtain ⟨m', out, bsc', hhandle, hlookup, htail⟩ := (h _ hrun).2
    (.join { bankId := "BOA", serverAddr := sampleServer 5 }) rfl (by decide +kernel)
  have hout := congrArg (Option.map Prod.snd) hhandle
  have hbsc : (some (m', out)).bind (fun r => r.1.bankServerChain.lookup "BOA") = some bsc' := hlookup
  rw [← hhandle] at hbsc
  have hsent : some [Packet.tcp (sampleServer 4) (.extendServer (sampleServer 5))] = some out :=
    Eq.trans (by decide +kernel) hout
  have hrecord : some (sampleServer 3) = some bsc'.tail :=
    Eq.trans (by decide +kernel) (congrArg (Option.map BankServerChain.tail) hbsc)
  have heq := htail (sampleServer 4) (sampleServer 5) (Option.some.inj hsent ▸ List.mem_singleton_self _)
  rw [← Option.some.inj hrecord] at heq
  exact absurd heq (by decide)

end Admission

end Master

end ChainReplication
