import ChainReplication.System.Config
import ChainReplication.System.Convergence
import ChainReplication.System.HeadTables

/-!
# Links that are repaired out of order

`REQ_SEQ`s of several servers may reach the master in any order. The last link that it announces to a
server is the right one as long as it does not pass on the `REQ_SEQ` of a server that has been overtaken:
one that stands no longer behind its predecessor while the request of the next server has gone through.
-/

namespace ChainReplication

variable {cfg : Config} {b : BankConfig} {σ σ' : System} {l : Label} {x y z u : Address}

/-- The link that a message asks the master for. -/
def Message.reqseq? : Message → Option Reqseq
  | .reqSeq r => some r
  | _ => none

namespace System

/-- The successor of `x` once all that the master has announced to it has arrived. -/
def finalSucc (σ : System) (x : Address) : Address :=
  ((σ.link σ.master.addr x).filterMap Message.succ?).getLastD (σ.server x).succServerAddr

/-- `y` has asked the master for the link from `x`. -/
def Requested (σ : System) (x y : Address) : Prop :=
  ∃ m ∈ σ.link y σ.master.addr, ∃ r ∈ m.reqseq?, r.preAddr = x

/-- The master has passed on what the next live server behind `x` has asked for, or is about to tell it
so. -/
def Overtaken (σ : System) (b : BankConfig) (r : Reqseq) (y : Address) : Prop :=
  (σ.chain b.bankId).Adjacent r.preAddr y ∧ σ.crashed y = false ∧ y ≠ r.succAddr ∧
    .newPreServer r.preAddr ∉ σ.link σ.master.addr y ∧ ¬ σ.Requested r.preAddr y

/-- The master passes on no `REQ_SEQ` after that of the server that now has the place. -/
def NoStaleLink (cfg : Config) (σ : System) : Label → Prop
  | .deliver src dst _ => dst = σ.master.addr → ∀ m ∈ (σ.link src dst).head?, ∀ r ∈ m.reqseq?,
      ∀ b ∈ cfg.banks, ∀ y ∈ b.servers, ¬ σ.Overtaken b r y
  | _ => True

instance (σ : System) (x y : Address) : Decidable (σ.Requested x y) :=
  inferInstanceAs (Decidable (∃ m ∈ σ.link y σ.master.addr, ∃ r ∈ m.reqseq?, _))

instance {α : Type*} [DecidableEq α] (c : List α) (x y : α) : Decidable (c.Adjacent x y) :=
  inferInstanceAs (Decidable ([x, y] <:+: c))

instance (σ : System) (b : BankConfig) (r : Reqseq) (y : Address) : Decidable (σ.Overtaken b r y) :=
  inferInstanceAs (Decidable (_ ∧ _))

instance (cfg : Config) (σ : System) (l : Label) : Decidable (NoStaleLink cfg σ l) :=
  match l with
  | .deliver src dst _ => inferInstanceAs (Decidable (dst = σ.master.addr →
      ∀ m ∈ (σ.link src dst).head?, ∀ r ∈ m.reqseq?, ∀ b ∈ cfg.banks, ∀ y ∈ b.servers,
        ¬ σ.Overtaken b r y))
  | .client .. | .crash _ | .detect .. | .join _ | .snapshot .. | .extendSend .. | .extendFin .. =>
    inferInstanceAs (Decidable True)

end System

lemma Message.mem_reqseq? {m : Message} {r : Reqseq} : r ∈ m.reqseq? ↔ m = .reqSeq r := by
  cases m <;> simp [Message.reqseq?, eq_comm]

/-- Every link of the recorded chain is in place, announced or asked for, unless the later server has
crashed or has not yet been told. -/
structure Relinked (b : BankConfig) (σ : System) : Prop where
  own : ∀ u r, .reqSeq r ∈ σ.link u σ.master.addr → r.succAddr = u
  link : ∀ x y, (σ.chain b.bankId).Adjacent x y → σ.crashed y = false →
    .newPreServer x ∉ σ.link σ.master.addr y → σ.Requested x y ∨ σ.finalSucc x = y

namespace Relinked

lemma init (hb : b ∈ cfg.banks) : Relinked b cfg.init := by
  refine ⟨fun u r hm => ?_, fun x y hxy hlive hpre => Or.inr ?_⟩
  · cases hm
  · exact Repairing.init hb x y hxy hlive hpre

/-! ### A server serves a message -/

section Serve

variable {msg : Message} {L : Links Address Message} {out : List Packet} (h : Relinked b σ)
  (ht : Topology cfg σ) (taken : System.Taken σ z msg L) (hs : System.Serve σ z msg L out σ')
include h ht taken hs

lemma serve_own {r : Reqseq} (hm : .reqSeq r ∈ σ'.link u σ.master.addr) : r.succAddr = u := by
  rcases hs.mem_link_spec ht.toPlain taken hm with hm | ⟨rfl, -, -, hsucc, -⟩
  · exact h.own u r hm
  · exact hsucc.trans (ht.serve_localAddr hs)

omit h ht in
/-- What is on its way to the master stays so. -/
lemma serve_asked (hasked : σ.Requested x y) : σ'.Requested x y := by
  obtain ⟨m, hm, r, hr, hpre⟩ := hasked
  refine ⟨m, ?_, r, hr, hpre⟩
  rw [hs.master, hs.link, Links.mem_send]
  left
  cases taken with
  | client => exact hm
  | link => rwa [Links.recv_of_ne _ _ _ fun heq => hs.ne_master heq.2.symm]

lemma serve (hb : b ∈ cfg.banks) (ha : Announced b σ) : Relinked b σ' := by
  have hchain : σ'.chain b.bankId = σ.chain b.bankId := by rw [System.chain, hs.master, System.chain]
  refine ⟨fun u r hm => h.serve_own ht taken hs (hs.master ▸ hm), ?_⟩
  rw [hchain, hs.master]
  intro x y hxy hlive hpre
  by_cases hask : msg = .newPreServer x
  · -- the server that has been told asks for its link
    obtain rfl := Repairing.serve_asks hb ht taken hs hask hxy (hs.live_of_live hlive)
    subst hask
    obtain ⟨hout, -⟩ := hs.complete hlive
    left
    let r : Reqseq :=
      { bankUpdateSeq := (σ.server z).bankUpdateSeq, bankId := (σ.server z).bankId, preAddr := x,
        succAddr := (σ.server z).localAddr }
    refine ⟨.reqSeq r, ?_, r, rfl, rfl⟩
    rw [hs.master, hs.link, Links.mem_send]
    refine Or.inr ⟨rfl, List.mem_filterMap.mpr ⟨.tcp σ.master.addr (.reqSeq r), ?_, rfl⟩⟩
    rw [hout]
    exact List.mem_singleton_self _
  · rcases h.link x y hxy (hs.live_of_live hlive) (Repairing.serve_announced ha taken hs hask hpre) with
      hasked | hfinal
    · exact Or.inl (serve_asked taken hs hasked)
    · right
      have hsame := Repairing.serve_succ (x := x) ha ht taken hs []
      rw [List.append_nil, List.append_nil] at hsame
      rw [System.finalSucc, hs.master, hsame]
      exact hfinal

end Serve

/-! ### Steps of the master -/

/-- A message from elsewhere on its way to the master stays so when it takes one up. -/
lemma asked_recv {src : Address} {m : Message} {rest : List Message} {L : Links Address Message}
    (head : σ.link src σ.master.addr = m :: rest) (hm : ∀ r ∈ m.reqseq?, r.preAddr = x → src ≠ y)
    (hL : ∀ m ∈ σ.link.recv src σ.master.addr y σ.master.addr, m ∈ L y σ.master.addr)
    (hasked : σ.Requested x y) : ({ σ with link := L } : System).Requested x y := by
  obtain ⟨m', hm', r, hr, hpre⟩ := hasked
  refine ⟨m', hL m' ?_, r, hr, hpre⟩
  by_cases hsrc : src = y
  · subst hsrc
    rw [head, List.mem_cons] at hm'
    rw [Links.recv_self, head, List.tail_cons]
    refine hm'.resolve_left ?_
    rintro rfl
    exact hm r hr hpre rfl
  · rwa [Links.recv_of_ne _ _ _ fun heq => hsrc heq.1.symm]

lemma relink (h : Relinked b σ) (hb : b ∈ cfg.banks) (ht : Topology cfg σ) {src : Address} {r : Reqseq}
    {rest : List Message} (head : σ.link src σ.master.addr = .reqSeq r :: rest)
    (hguard : ∀ y ∈ b.servers, ¬ σ.Overtaken b r y) :
    Relinked b ({ σ with link := σ.link.recv src σ.master.addr }.emit σ.master.addr
      [.tcp r.preAddr (.newSuccServer r)]) := by
  set L := ((σ.link.recv src σ.master.addr).send σ.master.addr [(r.preAddr, .newSuccServer r)]) with hLdef
  change Relinked b { σ with link := L, trace := _ }
  have hsub {u v : Address} : ∀ m ∈ σ.link.recv src σ.master.addr u v, m ∈ L u v := fun m hm =>
    (Links.mem_send _ _ _).mpr (Or.inl hm)
  have hsrc := h.own src r (by rw [head]; exact List.mem_cons_self)
  have hlink {v : Address} (hv : v ∈ b.servers) : L σ.master.addr v = σ.link σ.master.addr v ++
      if v = r.preAddr then [.newSuccServer r] else [] := by
    rw [hLdef, Links.send_self, Announced.recv_master_link ht hb hv]
    by_cases hvr : v = r.preAddr
    · simp [hvr]
    · simp [hvr, Ne.symm hvr]
  refine ⟨fun u r' hm => ?_, fun x y hxy hlive hpre => ?_⟩
  · rcases (Links.mem_send _ _ _).mp hm with hm | ⟨-, hm⟩
    · exact h.own u r' (Links.mem_of_mem_recv _ _ _ hm)
    · simp at hm
  · have hmem := hxy.precedes.of_sublist (ht.chain hb).1
    have hpre : .newPreServer x ∉ σ.link σ.master.addr y := by
      intro hin
      refine hpre ?_
      change _ ∈ L σ.master.addr y
      rw [hlink hmem.right_mem]
      exact List.mem_append_left _ hin
    by_cases hx : r.preAddr = x
    · by_cases hy : r.succAddr = y
      · right
        change ((L σ.master.addr x).filterMap Message.succ?).getLastD (σ.server x).succServerAddr = y
        rw [hlink hmem.left_mem, if_pos hx.symm, List.filterMap_append]
        exact List.getLastD_concat.trans hy
      · left
        have hasked : σ.Requested x y := by
          by_contra hasked
          subst hx
          exact hguard y hmem.right_mem ⟨hxy, hlive, Ne.symm hy, hpre, hasked⟩
        exact asked_recv head (fun _ _ _ heq => hy (hsrc.trans heq)) hsub hasked
    · rcases h.link x y hxy hlive hpre with hasked | hfinal
      · refine Or.inl (asked_recv head (fun r' hr' hpre' => ?_) hsub hasked)
        obtain rfl := Option.some.inj hr'
        exact absurd hpre' hx
      · right
        change ((L σ.master.addr x).filterMap Message.succ?).getLastD (σ.server x).succServerAddr = y
        rw [hlink hmem.left_mem, if_neg (Ne.symm hx), List.append_nil]
        exact hfinal

lemma ignore (h : Relinked b σ) (hb : b ∈ cfg.banks) (ht : Topology cfg σ) {src : Address} {m : Message}
    {rest : List Message} (head : σ.link src σ.master.addr = m :: rest) (hm : ∀ r, m ≠ .reqSeq r) :
    Relinked b { σ with link := σ.link.recv src σ.master.addr } := by
  refine ⟨fun u r hr => h.own u r (Links.mem_of_mem_recv _ _ _ hr), fun x y hxy hlive hpre => ?_⟩
  have hmem := hxy.precedes.of_sublist (ht.chain hb).1
  have hlink {v : Address} (hv : v ∈ b.servers) :
      σ.link.recv src σ.master.addr σ.master.addr v = σ.link σ.master.addr v :=
    Announced.recv_master_link ht hb hv src σ.master.addr
  have hpre : .newPreServer x ∉ σ.link σ.master.addr y := by rwa [← hlink hmem.right_mem]
  rcases h.link x y hxy hlive hpre with hasked | hfinal
  · refine Or.inl (asked_recv head (fun r hr _ => ?_) (fun _ hm => hm) hasked)
    exact absurd (Message.mem_reqseq?.mp hr) (hm r)
  · right
    change ((σ.link.recv src σ.master.addr σ.master.addr x).filterMap Message.succ?).getLastD
      (σ.server x).succServerAddr = y
    rw [hlink hmem.left_mem]
    exact hfinal

lemma detect (h : Relinked b σ) (ht : Topology cfg σ) {id : String} {node : Address}
    {bsc : BankServerChain} {m : Master} {out : List Packet}
    (hlookup : σ.master.bankServerChain.lookup id = some bsc)
    (hcase : Master.CrashCase σ.master id node bsc m out) :
    Relinked b ({ σ with master := m }.emit σ.master.addr out) := by
  have haddr : m.addr = σ.master.addr := Announced.detect_addr hcase
  have hsub {m' : Message} {u v : Address} (hm : m' ∈ σ.link u v) :
      m' ∈ ({ σ with master := m }.emit σ.master.addr out).link u v := (Links.mem_send _ _ _).mpr (Or.inl hm)
  refine ⟨fun u r hr => ?_, fun x y hxy hlive hpre => ?_⟩
  · change _ ∈ ({ σ with master := m }.emit σ.master.addr out).link u m.addr at hr
    rw [haddr] at hr
    rcases (Links.mem_send _ _ _).mp hr with hr | ⟨-, hr⟩
    · exact h.own u r hr
    · obtain ⟨p, hp, htcp⟩ := List.mem_filterMap.mp hr
      cases hcase.notice hp htcp
  · change .newPreServer x ∉ ({ σ with master := m }.emit σ.master.addr out).link m.addr y at hpre
    rw [haddr, Announced.emit_link] at hpre
    have hold : (σ.chain b.bankId).Adjacent x y := by
      by_cases hid : id = b.bankId
      · subst hid
        have hchain : σ.chain b.bankId = bsc.serverChain := by
          simp only [System.chain, hlookup, Option.map_some, Option.getD_some]
        exact (Repairing.detect_adjacent hcase hchain hxy).resolve_right fun hsent =>
          hpre (List.mem_append_right _ hsent)
      · rwa [Announced.detect_chain ht hlookup hcase hid] at hxy
    rcases h.link x y hold hlive fun hin => hpre (List.mem_append_left _ hin) with hasked | hfinal
    · left
      obtain ⟨m', hm', hr⟩ := hasked
      refine ⟨m', ?_, hr⟩
      change _ ∈ ({ σ with master := m }.emit σ.master.addr out).link y m.addr
      rw [haddr]
      exact hsub hm'
    · right
      change ((({ σ with master := m }.emit σ.master.addr out).link m.addr x).filterMap
        Message.succ?).getLastD (σ.server x).succServerAddr = y
      have hnone : (sentTo out x).filterMap Message.succ? = [] :=
        List.filterMap_eq_nil_iff.mpr fun m' hm' => (Repairing.notice_succ hcase hm').1
      rw [haddr, Announced.emit_link, List.filterMap_append, hnone, List.append_nil]
      exact hfinal

/-! ### Runs -/

lemma step (h : Relinked b σ) (hb : b ∈ cfg.banks) (ha : Announced b σ) (ht : Topology cfg σ)
    (hguard : System.NoStaleLink cfg σ l) (hcase : System.StepCase σ l σ') : Relinked b σ' := by
  cases hcase with
  | serve taken serve => exact h.serve ht taken serve hb ha
  | @crash _ z =>
    refine ⟨h.own, fun x y hxy hlive hpre => h.link x y hxy ?_ hpre⟩
    by_cases hyz : y = z
    · simp [System.kill, hyz] at hlive
    · simpa [System.kill, hyz] using hlive
  | relink live head =>
    refine h.relink hb ht head fun y hy => ?_
    exact hguard rfl _ (by rw [head]; rfl) _ rfl b hb y hy
  | ignore live head other => exact h.ignore hb ht head other
  | detect live dead lookup mem case => exact h.detect ht lookup case

theorem reach {ok : System → Label → Prop} (hok : ∀ σ l, ok σ l → System.NoJoin σ l)
    (hlinks : ∀ σ l, ok σ l → System.NoStaleLink cfg σ l) (hb : b ∈ cfg.banks)
    (hrun : Machine.Reach System.step ok cfg.init σ) : Relinked b σ :=
  hrun.invariant_of (J := fun σ => Topology cfg σ ∧ Announced b σ)
    (fun _ hu => ⟨Topology.reach hok hu, Announced.reach hok hb hu⟩) (Relinked.init hb)
    fun _ _ _ h hJ _ hl hs => h.step hb hJ.2 hJ.1 (hlinks _ _ hl)
      (System.step_cases hJ.1.toPlain (hok _ _ hl) hs)

end Relinked

/-! ### Drained systems -/

/-- Without joins no message makes an assertion of the master fail or changes its record. -/
lemma Master.handleMsg_plain (m : Master) {msg : Message} (hmsg : msg.isExtend = false) :
    ∃ out, m.handleMsg msg = some (m, out) := by
  cases msg with
  | join _ | extendServer _ | extendMsg _ | extendFinish _ | extendFail => simp [Message.isExtend] at hmsg
  | _ => exact ⟨_, rfl⟩

/-- The only crash that the master cannot handle is that of the last server of a chain. -/
lemma Master.notifyCrash_eq_none {m : Master} {id : String} {node : Address} {bsc : BankServerChain}
    (hwf : bsc.Wf) (hlookup : m.bankServerChain.lookup id = some bsc) (hmem : node ∈ bsc.serverChain)
    (h : m.notifyCrash id node = none) : bsc.serverChain = [node] := by
  obtain ⟨l₁, l₂, hl⟩ := List.append_of_mem hmem
  have hnodup := hwf.nodup
  rw [hl] at hnodup
  obtain ⟨hnot₁, hnot₂⟩ := BankServerChain.notMem_of_split hnodup
  have hhead : node = bsc.head ↔ l₁ = [] := by
    have hfirst := hwf.head
    rw [hl] at hfirst
    cases l₁ with
    | nil => simpa using hfirst
    | cons a l₁ =>
      obtain rfl : a = bsc.head := by simpa using hfirst
      simp only [reduceCtorEq, iff_false]
      exact fun heq => hnot₁ (heq ▸ List.mem_cons_self)
  have htail : node = bsc.tail ↔ l₂ = [] := by
    have hlast := hwf.tail
    rw [hl] at hlast
    cases l₂ with
    | nil => simpa using hlast
    | cons a l₂ =>
      have hmem₂ : bsc.tail ∈ a :: l₂ := by
        refine List.mem_of_getLast? ?_
        rwa [List.getLast?_append_of_ne_nil _ (by simp), List.getLast?_cons_cons] at hlast
      simp only [reduceCtorEq, iff_false]
      exact fun heq => hnot₂ (heq ▸ hmem₂)
  have hsucc {a : Address} {l : List Address} (heq : l₂ = a :: l) :
      BankServerChain.nextOf node bsc.serverChain = some a := by
    rw [hl, heq]
    exact BankServerChain.nextOf_of_split hnot₁
  have hpre {a : Address} {l : List Address} (heq : l₁ = l ++ [a]) :
      BankServerChain.prevOf node bsc.serverChain = some a := by
    rw [hl, heq, List.append_assoc]
    exact BankServerChain.prevOf_of_split (heq ▸ hnot₁)
  simp only [notifyCrash, hlookup, Option.bind_eq_bind, Option.bind_some, hhead, htail] at h
  rcases List.eq_nil_or_concat' l₁ with hnil₁ | ⟨k₁, p, hl₁⟩ <;>
    rcases hl₂ : l₂ with _ | ⟨s, k₂⟩
  · rw [hl, hnil₁, hl₂, List.nil_append]
  · simp [BankServerChain.succServerAddr, BankServerChain.removeNode, htail, hnil₁, hl₂, hsucc hl₂,
      hmem] at h
  · simp [BankServerChain.preServerAddr, BankServerChain.removeNode, hhead, hl₁, hl₂, hpre hl₁,
      hmem] at h
  · have hempty : node ≠ bsc.extending := by
      rw [hwf.extending]
      exact ne_of_mem_of_not_mem hmem hwf.notEmpty
    simp [BankServerChain.succServerAddr, BankServerChain.preServerAddr, BankServerChain.removeNode,
      hhead, htail, hl₁, hl₂, hpre hl₁, hsucc hl₂, hmem, hempty] at h

namespace System

/-- The master is up, unless it has met a crash that it cannot handle. -/
def MasterServes (σ : System) : Prop :=
  σ.crashed σ.master.addr = true →
    ∃ e ∈ σ.master.bankServerChain.entries, ∃ y, e.2.serverChain = [y] ∧ σ.crashed y = true

namespace MasterServes

/-- A step that neither ends the master nor changes its record. -/
lemma of_same (h : σ.MasterServes) (master : σ'.master = σ.master)
    (mono : ∀ y, σ.crashed y = true → σ'.crashed y = true)
    (same : σ'.crashed σ.master.addr = σ.crashed σ.master.addr) : σ'.MasterServes := by
  intro hdead
  rw [master, same] at hdead
  obtain ⟨e, he, y, hy, hydead⟩ := h hdead
  rw [master]
  exact ⟨e, he, y, hy, mono y hydead⟩

lemma serve {msg : Message} {L : Links Address Message} {out : List Packet} (h : σ.MasterServes)
    (hs : Serve σ z msg L out σ') : σ'.MasterServes := by
  refine h.of_same hs.master (fun y => hs.crashed_mono) ?_
  rcases hs.crashed with ⟨hsame, -⟩ | hkill
  · rw [hsame]
  · rw [hkill, Function.update_of_ne (Ne.symm hs.ne_master)]

lemma kill (h : σ.MasterServes) (hz : z ≠ σ.master.addr) : (σ.kill z).MasterServes := by
  refine h.of_same rfl (fun y hy => ?_) (Function.update_of_ne (Ne.symm hz) ..)
  by_cases hyz : y = z
  · simp [System.kill, hyz]
  · simpa [System.kill, hyz] using hy

lemma step (h : σ.MasterServes) (hp : Plain σ) (hl : NoJoin σ l) (hs : σ.step l = some σ') :
    σ'.MasterServes := by
  cases l with
  | client s req k =>
    simp only [System.step] at hs
    split_ifs at hs with hguard
    obtain rfl := Option.some.inj hs
    obtain ⟨out, hserve⟩ := handle_serve (L := σ.link) (k := k)
      (show _ = (σ.server s).handleMsg σ.master.addr (.request req) from rfl)
      (by simpa using hguard.2.1) hguard.1
    exact h.serve hserve
  | deliver src dst k =>
    simp only [System.step] at hs
    cases hlink : σ.link src dst with
    | nil => simp [hlink] at hs
    | cons msg rest =>
      rw [hlink] at hs
      have hmsg : msg.isExtend = false := hp.link src dst msg (by rw [hlink]; exact List.mem_cons_self)
      simp only at hs
      split_ifs at hs with hcrashed hmaster
      · obtain rfl := Option.some.inj hs
        obtain ⟨out, hout⟩ := σ.master.handleMsg_plain hmsg
        rw [hout]
        exact h
      · rw [spawn_plain hmsg] at hs
        obtain rfl := Option.some.inj hs
        obtain ⟨out, hserve⟩ := handle_serve (L := σ.link.recv src dst) (k := k)
          (show _ = (σ.server dst).handleMsg σ.master.addr msg from rfl) (by simpa using hcrashed) hmaster
        exact h.serve hserve
  | crash s =>
    simp only [System.step] at hs
    split_ifs at hs with hne
    obtain rfl := Option.some.inj hs
    exact h.kill hne
  | detect id node =>
    simp only [System.step] at hs
    split_ifs at hs with hguard
    obtain ⟨hlive, hdead, hmem⟩ := hguard
    obtain rfl := Option.some.inj hs
    cases hlookup : σ.master.bankServerChain.lookup id with
    | none => simp [hlookup] at hmem
    | some bsc =>
      have hmem : node ∈ bsc.serverChain := by simpa [hlookup] using hmem
      cases hr : σ.master.notifyCrash id node with
      | none =>
        -- the crashed server stays in the record
        have hchain := Master.notifyCrash_eq_none (hp.record id bsc hlookup) hlookup hmem hr
        refine fun _ => ⟨⟨id, bsc⟩, AList.mem_lookup_iff.mp hlookup, node, hchain, ?_⟩
        by_cases hnode : node = σ.master.addr
        · simp [handleMaster, System.kill, hnode]
        · simpa [handleMaster, System.kill, hnode] using hdead
      | some r =>
        intro hdead'
        change σ.crashed r.1.addr = true at hdead'
        rw [(Master.notifyCrash_notifyCase hlookup hr).addr] at hdead'
        exact absurd hdead' hlive
  | join s => cases hl
  | snapshot s i accounts processed => simp [System.step, hp.thread] at hs
  | extendSend s i => simp [System.step, hp.thread] at hs
  | extendFin s i k => simp [System.step, hp.thread] at hs

end MasterServes

/-- Only the configured processes send. -/
def SentByProcesses (cfg : Config) (σ : System) : Prop := ∀ u y, u ∉ cfg.processes → σ.link u y = []

lemma SentByProcesses.step (h : σ.SentByProcesses cfg) (ht : Topology cfg σ)
    (hlive : ∀ y, σ.crashed y = false → y ∈ cfg.processes) (hcase : StepCase σ l σ') :
    σ'.SentByProcesses cfg := by
  intro u y hu
  have hmaster : u ≠ σ.master.addr := by
    rw [ht.master]
    exact fun heq => hu (heq ▸ List.mem_cons_self)
  have recv (src dst : Address) : σ.link.recv src dst u y = [] := by
    rw [List.eq_nil_iff_forall_not_mem]
    intro m hm
    have hm := Links.mem_of_mem_recv _ _ _ hm
    rw [h u y hu] at hm
    cases hm
  cases hcase with
  | @serve _ x msg L out _ taken serve =>
    have hux : u ≠ x := fun heq => hu (heq ▸ hlive x serve.live)
    rw [serve.link, Links.send_of_ne _ _ _ hux]
    cases taken with
    | client => exact h u y hu
    | link => exact recv _ _
  | crash => exact h u y hu
  | relink => exact (Links.send_of_ne _ _ _ hmaster y).trans (recv _ _)
  | ignore => exact recv _ _
  | detect => exact (Links.send_of_ne _ _ _ hmaster y).trans (h u y hu)

end System

section Drained

variable {ok : System → Label → Prop} (hok : ∀ σ l, ok σ l → System.NoJoin σ l)

/-- Without joins every server of the record is told about new heads. -/
lemma Topology.headsKnown (h : Topology cfg σ) (hl : System.NoJoin σ l) : σ.HeadsKnown cfg l := by
  cases l with
  | deliver src dst k =>
    intro hdst m hm y hy
    have hplain := h.plain src dst m (List.mem_of_head? hm)
    cases m with
    | join j => cases hplain
    | _ => cases hy
  | detect id node =>
    intro bsc _ _ _ e he y hy _
    obtain ⟨b, hb, -, hrecord⟩ := h.record_ok (AList.mem_lookup_iff.mpr he)
    refine ⟨e, he, hy, ?_⟩
    rw [hrecord.wf.extending]
    exact ne_of_mem_of_not_mem hy hrecord.wf.notEmpty
  | join s => cases hl
  | _ => trivial

include hok

lemma HeadTables.of_reach (hrun : Machine.Reach System.step ok cfg.init σ) :
    HeadTables cfg σ ∧ σ.HeadsCurrent := by
  refine hrun.invariant_of (I := fun τ => HeadTables cfg τ ∧ τ.HeadsCurrent)
    (J := fun τ => Topology cfg τ ∧ Origins τ) ?_ HeadTables.init ?_
  · intro τ hτ
    exact ⟨Topology.reach hok hτ, hτ.invariant Origins.init fun _ _ _ h _ hs => h.step hs⟩
  · rintro τ l τ' ⟨htables, hcurrent⟩ ⟨ht, ho⟩ - hl hs
    obtain ⟨htables', hstep⟩ := htables.step ho hs
    exact ⟨htables', (hstep hcurrent).1 (ht.headsKnown (hok _ _ hl))⟩

omit hok in
lemma System.mem_processes (hrun : Machine.Reach System.step ok cfg.init σ)
    (hlive : σ.crashed y = false) : y ∈ cfg.processes := by
  refine HeadTables.mem_processes hrun (fun τ hτ => ?_) hlive
  exact hτ.invariant Origins.init fun _ _ _ h _ hs => h.step hs

lemma System.sentByProcesses_of_reach (hrun : Machine.Reach System.step ok cfg.init σ) :
    σ.SentByProcesses cfg := by
  refine hrun.invariant_of (I := System.SentByProcesses cfg)
    (J := fun τ => Topology cfg τ ∧ ∀ y, τ.crashed y = false → y ∈ cfg.processes) ?_ ?_ ?_
  · intro τ hτ
    exact ⟨Topology.reach hok hτ, fun y => System.mem_processes hτ⟩
  · exact fun _ _ _ => rfl
  · rintro τ l τ' h ⟨ht, hlive⟩ - hl hs
    exact h.step ht hlive (System.step_cases ht.toPlain (hok _ _ hl) hs)

lemma System.MasterServes.reach (hrun : Machine.Reach System.step ok cfg.init σ) :
    σ.MasterServes := by
  refine hrun.invariant_of (I := System.MasterServes) (fun _ hu => Topology.reach hok hu) ?_ ?_
  · intro hdead
    simp [Config.init, Config.initMaster] at hdead
  · exact fun _ _ _ h ht _ hl hs => h.step ht.toPlain (hok _ _ hl) hs

/-- Once nothing is on its way, the master is up and no live server of a bank has mail. -/
lemma System.Drained.master_live (hrun : Machine.Reach System.step ok cfg.init σ)
    (hd : σ.Drained cfg) : σ.crashed cfg.master = false := by
  have hserves := System.MasterServes.reach hok hrun
  have ht := Topology.reach hok hrun
  by_contra hdead
  obtain ⟨e, he, y, hy, hydead⟩ := hserves (by rw [ht.master]; simpa using hdead)
  rw [hd.2 e he y (by rw [hy]; exact List.mem_singleton_self y)] at hydead
  cases hydead

lemma System.Drained.link (hrun : Machine.Reach System.step ok cfg.init σ) (hd : σ.Drained cfg)
    {y : Address} (hy : y ∈ cfg.processes) (hlive : σ.crashed y = false) (u : Address) :
    σ.link u y = [] := by
  by_cases hu : u ∈ cfg.processes
  · exact hd.1 u hu y hy hlive
  · exact System.sentByProcesses_of_reach hok hrun u y hu

lemma System.Drained.still (hb : b ∈ cfg.banks) (hrun : Machine.Reach System.step ok cfg.init σ)
    (hd : σ.Drained cfg) : Still b σ where
  link x hx hlive u := hd.link hok hrun (Config.mem_processes hb hx) hlive u
  handled x hx := by
    obtain ⟨bsc, hlookup, -⟩ := (Topology.reach hok hrun).record b hb
    rw [System.chain, hlookup] at hx
    exact hd.2 _ (AList.mem_lookup_iff.mp hlookup) x hx

/-- The servers of a drained system know the heads of all banks. -/
lemma System.Drained.head_known (hb : b ∈ cfg.banks) (hrun : Machine.Reach System.step ok cfg.init σ)
    (hd : σ.Drained cfg) : ∃ h ∈ σ.chain b.bankId, σ.crashed h = false ∧
      ∀ c ∈ cfg.banks, ∀ y ∈ c.servers, σ.crashed y = false →
        (σ.server y).bankHeadList.lookup b.bankId = some h := by
  have ht := Topology.reach hok hrun
  obtain ⟨bsc, hlookup, hrecord⟩ := ht.record b hb
  obtain ⟨htables, hcurrent⟩ := HeadTables.of_reach hok hrun
  obtain ⟨⟨-, hlive⟩, hknown⟩ :=
    htables.drained ht.master (fun _ => System.mem_processes hrun) hcurrent hd hlookup
  refine ⟨bsc.head, ?_, hlive, fun c hc y hy hylive => hknown y ?_⟩
  · rw [System.chain, hlookup]
    exact List.mem_of_head? hrecord.wf.head
  · obtain ⟨bsc', hlookup', hrecord'⟩ := ht.record c hc
    refine System.inRecord_of_mem hlookup' ?_
    by_contra hnot
    rw [hrecord'.dead y hy hnot] at hylive
    cases hylive

/-- The links between the servers of a drained system are the recorded ones. -/
lemma System.Drained.succ_eq (hlinks : ∀ σ l, ok σ l → System.NoStaleLink cfg σ l)
    (hb : b ∈ cfg.banks) (hrun : Machine.Reach System.step ok cfg.init σ) (hd : σ.Drained cfg)
    (hxy : (σ.chain b.bankId).Adjacent x y) : (σ.server x).succServerAddr = y := by
  have ht := Topology.reach hok hrun
  have hstill := hd.still hok hb hrun
  have hr := Relinked.reach hok hlinks hb hrun
  have empty {z : Address} (hz : z ∈ σ.chain b.bankId) (src : Address) : σ.link src z = [] :=
    hstill.empty hb ht hz src
  have hfinal := hr.link x y hxy (hstill.handled y hxy.precedes.right_mem) (by
    rw [empty hxy.precedes.right_mem]
    exact List.not_mem_nil)
  rcases hfinal with ⟨m, hm, -⟩ | hfinal
  · have hmaster := hd.link hok hrun List.mem_cons_self (hd.master_live hok hrun) y
    rw [ht.master, hmaster] at hm
    cases hm
  · rw [System.finalSucc, empty hxy.precedes.left_mem] at hfinal
    exact hfinal

end Drained

/-- Whatever crashes have happened and in whatever order their messages have come, as long as no stale
`REQ_SEQ` is passed on and no head numbers an update with its counter at its last value, a drained system is one
of the live servers, linked up and with equal histories. -/
theorem drained_converged (hb : b ∈ cfg.banks) (hrun : Machine.Reach System.step32
      (fun σ l => System.NoJoin σ l ∧ System.NoStaleLink cfg σ l ∧ σ.CounterFits l) cfg.init σ)
    (hd : σ.Drained cfg) : Converged b σ := by
  have hrun := System.reach_of_fits hrun fun _ _ h => h.2.2
  refine (hd.still (fun _ _ h => h.1) hb hrun).converged hb (Topology.reach (fun _ _ h => h.1) hrun)
    (Announced.reach (fun _ _ h => h.1) hb hrun) (Replicated.reach (fun _ _ h => h.1) hrun) ?_
  exact fun x y => hd.succ_eq (fun _ _ h => h.1) (fun _ _ h => h.2.1) hb hrun

open Config in
/-- Server 2 dies with an update that it has not passed on. -/
theorem drained_converged_relinked :
    let chain : BankConfig := { bankId := "BOA", servers := [1, 2, 3].map localAddress }
    let σ := Machine.after System.step32
      (fun σ l => System.NoJoin σ l ∧ System.NoStaleLink twoBanks σ l ∧ σ.CounterFits l) twoBanks.init
      ([request 1 (sampleDeposit "1" 10), request 1 (sampleDeposit "2" 5), hop 1 2] ++ lose 2 ++
        [hop 2 3, hop 0 3, hop 3 0, hop 0 1, hop 1 3, hop 3 1])
    Converged chain σ :=
  drained_converged (by decide) (Machine.reach_after (by decide +kernel)) (by decide +kernel)

/-- A bank with a chain of four servers. -/
def Config.longBank : Config where
  master := localAddress 0
  clients := [localAddress 100]
  banks := [{ bankId := "BOA", servers := [1, 2, 3, 4].map localAddress }]
  bankIds_nodup := by decide
  addrs_nodup := by decide
  empty_notMem := by decide
  servers_ne_nil := by decide

open Config in
-- Server 3 is overtaken: its `REQ_SEQ` comes last, and server 1 ends up with a dead successor.
example :
    let σ := longBank.after System.NoJoin
      (lose 2 ++ [hop 0 3] ++ lose 3 ++ [hop 0 4, hop 4 0, hop 3 0, hop 0 1, hop 0 1])
    σ.Drained longBank ∧ σ.chain "BOA" = [1, 4].map localAddress ∧
      (σ.server (localAddress 1)).succServerAddr = localAddress 3 := by
  decide +kernel

end ChainReplication
