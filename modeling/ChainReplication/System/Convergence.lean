import ChainReplication.System.Announcements
import ChainReplication.System.Ordered

/-!
# Convergence after crashes

When a server between two others is lost, `NEW_PRE_SERVER`, `REQ_SEQ` and `NEW_SUCC_SERVER` carry the new
link from the master over the later neighbour and back to the earlier one. Further crashes leave stale
messages behind, but the last of the links on their way to a server is the right one: no message
overtakes another at its receiver.
-/

namespace ChainReplication

open scoped List

variable {cfg : Config} {b : BankConfig} {ω ω' : Ordered} {σ σ' : System} {l : Label}
  {x y z p : Address}

/-- The successor that a message announces. -/
def Message.succ? : Message → Option Address
  | .newSuccServer r => some r.succAddr
  | _ => none

/-- The successors for `x` that the messages in the master's inbox ask for. -/
def requestedSuccs (x : Address) (l : List (Address × Message)) : List Address :=
  l.filterMap fun
    | (_, .reqSeq r) => if r.preAddr = x then some r.succAddr else none
    | _ => none

/-- The successors on their way to `x`, the next one first. -/
def Ordered.comingSuccs (ω : Ordered) (x : Address) : List Address :=
  (ω.system.link ω.system.master.addr x).filterMap Message.succ? ++
    requestedSuccs x (ω.inbox ω.system.master.addr)

/-- The successor of `x` once everything on its way has arrived. -/
def Ordered.finalSucc (ω : Ordered) (x : Address) : Address :=
  (ω.comingSuccs x).getLastD (ω.system.server x).succServerAddr

/-- Every link of the recorded chain is in place or on its way, unless the later server has crashed or has
not yet been told. -/
def Repairing (b : BankConfig) (ω : Ordered) : Prop :=
  ∀ x y, (ω.system.chain b.bankId).Adjacent x y → ω.system.crashed y = false →
    .newPreServer x ∉ ω.system.link ω.system.master.addr y → ω.finalSucc x = y

lemma requestedSuccs_append (x : Address) (l l' : List (Address × Message)) :
    requestedSuccs x (l ++ l') = requestedSuccs x l ++ requestedSuccs x l' :=
  List.filterMap_append

/-- Messages that ask for no successor of `x`. -/
lemma requestedSuccs_sent (src : Address) {l : List Message}
    (h : ∀ m ∈ l, ∀ r, m = .reqSeq r → r.preAddr ≠ x) :
    requestedSuccs x (l.map fun m => (src, m)) = [] := by
  rw [requestedSuccs, List.filterMap_eq_nil_iff]
  intro q hq
  obtain ⟨m, hm, rfl⟩ := List.mem_map.mp hq
  cases m with
  | reqSeq r => exact if_neg (h _ hm r rfl)
  | _ => rfl

namespace Repairing

lemma init (hb : b ∈ cfg.banks) : Repairing b (Ordered.init cfg) := by
  intro x y hxy _ _
  have hchain : (Ordered.init cfg).system.chain b.bankId = b.servers := Announced.chain_init hb
  have hserver : (Ordered.init cfg).system.server x = cfg.initServer x := rfl
  rw [hchain] at hxy
  have hnext : BankServerChain.nextOf x b.servers = some y := by
    have hnodup := Config.servers_nodup hb
    obtain ⟨l₁, l₂, hl⟩ := List.adjacent_iff.mp hxy
    rw [hl] at hnodup ⊢
    apply BankServerChain.nextOf_of_split
    exact fun hmem => (List.nodup_append.mp hnodup).2.2 x hmem x List.mem_cons_self rfl
  have hnone : (Ordered.init cfg).comingSuccs x = [] := rfl
  rw [Ordered.finalSucc, hnone, List.getLastD_nil, hserver,
    Config.initServer_of_mem hb hxy.precedes.left_mem]
  change (BankServerChain.nextOf x b.servers).getD .empty = y
  rw [hnext, Option.getD_some]

/-- Steps that leave the links of `x` and what is on their way alone. -/
lemma of_same (h : Repairing b ω) (hxy : (ω.system.chain b.bankId).Adjacent x y)
    (hlive : ω.system.crashed y = false)
    (hpre : .newPreServer x ∉ ω.system.link ω.system.master.addr y)
    (server : (ω'.system.server x).succServerAddr = (ω.system.server x).succServerAddr)
    (coming : ω'.comingSuccs x = ω.comingSuccs x) : ω'.finalSucc x = y := by
  rw [Ordered.finalSucc, server, coming]
  exact h x y hxy hlive hpre

/-! ### A server serves a message -/

section Serve

variable {msg : Message} {L : Links Address Message} {out : List Packet}

/-- Only a server that handles `NEW_PRE_SERVER` asks for a link to itself. -/
lemma serve_reqSeq (ht : Topology cfg σ) (taken : System.Taken σ z msg L)
    (hs : System.Serve σ z msg L out σ') {m : Message} {t : Address} (hm : m ∈ sentTo out t)
    {r : Reqseq} (hr : m = .reqSeq r) : msg = .newPreServer r.preAddr ∧ r.succAddr = z := by
  subst hr
  obtain ⟨q, hq, htcp⟩ := Announced.mem_sentTo.mp hm
  obtain ⟨-, hmsg, hsucc, -⟩ := hs.packets ht.toPlain taken hq htcp
  exact ⟨hmsg, hsucc.trans (ht.serve_localAddr hs)⟩

/-- Taking up an announced successor does not change the last one. -/
lemma serve_succ (ha : Announced b σ) (ht : Topology cfg σ) (taken : System.Taken σ z msg L)
    (hs : System.Serve σ z msg L out σ') (l : List Address) :
    ((σ'.link σ.master.addr x).filterMap Message.succ? ++ l).getLastD
        (σ'.server x).succServerAddr =
      ((σ.link σ.master.addr x).filterMap Message.succ? ++ l).getLastD
        (σ.server x).succServerAddr := by
  have hrole := hs.roleStep ht.toPlain taken
  rw [Announced.serve_link hs]
  by_cases hxz : x = z
  · subst hxz
    have kept (hmsg : ∀ r, msg ≠ .newSuccServer r) :
        (σ'.server x).succServerAddr = (σ.server x).succServerAddr := by
      rcases hrole.succ with hsame | ⟨r, hr, -⟩
      · exact hsame
      · exact absurd hr (hmsg r)
    rcases Announced.serve_mail ha taken hs with ⟨hcontrol, hsame⟩ | hlink
    · rw [hsame, kept]
      rintro r rfl
      cases hcontrol
    · rw [hlink, List.filterMap_cons]
      by_cases hsucc : ∃ r, msg = .newSuccServer r
      · obtain ⟨r, rfl⟩ := hsucc
        rw [hs.server_self]
        exact (List.getLastD_cons ..).symm
      · have hnone : msg.succ? = none := by
          cases msg with
          | newSuccServer r => exact absurd ⟨r, rfl⟩ hsucc
          | _ => rfl
        rw [hnone, kept fun r hr => hsucc ⟨r, hr⟩]
  · rw [hs.server_of_ne hxz, Announced.serve_other taken hs hxz]

/-- An announcement that is still on its way was so before. -/
lemma serve_announced (ha : Announced b σ) (taken : System.Taken σ z msg L)
    (hs : System.Serve σ z msg L out σ') (hask : msg ≠ .newPreServer x)
    (hpre : .newPreServer x ∉ σ'.link σ.master.addr y) :
    .newPreServer x ∉ σ.link σ.master.addr y := by
  rw [Announced.serve_link hs] at hpre
  by_cases hyz : y = z
  · subst hyz
    rcases Announced.serve_mail ha taken hs with ⟨-, hsame⟩ | hlink
    · rwa [hsame] at hpre
    · rw [hlink, List.mem_cons]
      rintro (heq | hmem)
      · exact hask heq.symm
      · exact hpre hmem
  · rwa [Announced.serve_other taken hs hyz] at hpre

/-- The neighbours of the record that a server may ask for are its own. -/
lemma serve_asks (hb : b ∈ cfg.banks) (ht : Topology cfg σ) (taken : System.Taken σ z msg L)
    (hs : System.Serve σ z msg L out σ') (hask : msg = .newPreServer x)
    (hxy : (σ.chain b.bankId).Adjacent x y) (hlive : σ.crashed y = false) : z = y := by
  subst hask
  have hchain := ht.chain hb
  have hxy' := hxy.precedes.of_sublist hchain.1
  obtain ⟨b', hb', hxz, hbetween⟩ : Linked cfg σ x z := by
    rcases ht.taken_fits taken with hfits | ⟨_, hreq, -⟩
    · exact hfits
    · cases hreq
  obtain rfl := Config.bank_unique_servers hb hb' hxy'.left_mem hxz.left_mem
  have hnodup := Config.servers_nodup hb
  have hzchain := hchain.2 z hxz.right_mem hs.live
  by_contra hne
  rcases List.precedes_total hxz.right_mem hxy'.right_mem hne with hzy | hyz
  · have hxz' := hxz.restrict hnodup hchain.1 hxy.precedes.left_mem hzchain
    have hzy' := hzy.restrict hnodup hchain.1 hzchain hxy.precedes.right_mem
    exact hxy.not_between (hnodup.sublist hchain.1) hxz' hzy'
  · rw [hbetween y hxy' hyz] at hlive
    cases hlive

lemma serve (h : Repairing b ω) (hb : b ∈ cfg.banks) (ha : Announced b ω.system)
    (ht : Topology cfg ω.system) (taken : System.Taken ω.system z msg L)
    (hs : System.Serve ω.system z msg L out ω'.system)
    (hinbox : ω'.inbox ω.system.master.addr = ω.inbox ω.system.master.addr ++
      (sentTo out ω.system.master.addr).map fun m => (z, m)) : Repairing b ω' := by
  intro x y hxy hlive hpre
  have hchain : ω'.system.chain b.bankId = ω.system.chain b.bankId := by
    rw [System.chain, hs.master, System.chain]
  rw [hchain] at hxy
  rw [hs.master] at hpre
  rw [Ordered.finalSucc, Ordered.comingSuccs, hs.master, hinbox, requestedSuccs_append]
  by_cases hask : msg = .newPreServer x
  · obtain rfl := serve_asks hb ht taken hs hask hxy (hs.live_of_live hlive)
    subst hask
    obtain ⟨hout, -⟩ := hs.complete hlive
    have hlast : requestedSuccs x ((sentTo out ω.system.master.addr).map fun m => (z, m)) = [z] := by
      rw [hout]
      simp [sentTo, requestedSuccs, ChainServer.handleMsg, ChainServer.receiveNewPreserver,
        ht.serve_localAddr hs]
    rw [hlast, ← List.append_assoc]
    exact List.getLastD_concat
  · have hnone : requestedSuccs x ((sentTo out ω.system.master.addr).map fun m => (z, m)) = [] := by
      apply requestedSuccs_sent
      intro m hm r hr hx
      obtain ⟨hmsg, -⟩ := serve_reqSeq ht taken hs hm hr
      exact hask (hx ▸ hmsg)
    rw [hnone, List.append_nil, serve_succ ha ht taken hs]
    exact h x y hxy (hs.live_of_live hlive) (serve_announced ha taken hs hask hpre)

end Serve

/-! ### Steps of the master -/

/-- The master relays the first request in its inbox: it moves from one queue to the end of the other. -/
lemma relink (h : Repairing b ω) (hb : b ∈ cfg.banks) (ht : Topology cfg ω.system) {src : Address}
    {r : Reqseq} {rest : List (Address × Message)}
    (hinbox : ω.inbox ω.system.master.addr = (src, .reqSeq r) :: rest)
    (hsystem : ω'.system = { ω.system with
        link := ω.system.link.recv src ω.system.master.addr }.emit ω.system.master.addr
          [.tcp r.preAddr (.newSuccServer r)])
    (hrest : ω'.inbox ω.system.master.addr = rest) : Repairing b ω' := by
  intro x y hxy hlive hpre
  have hlink {u : Address} (hu : u ∈ b.servers) : ω'.system.link ω.system.master.addr u =
      ω.system.link ω.system.master.addr u ++
        if u = r.preAddr then [.newSuccServer r] else [] := by
    rw [hsystem]
    simp only [System.emit, Links.send_self, Announced.recv_master_link ht hb hu]
    split_ifs with hur
    · simp [hur]
    · simp [Ne.symm hur]
  have hmaster : ω'.system.master = ω.system.master := by rw [hsystem]; rfl
  have hchain : ω'.system.chain b.bankId = ω.system.chain b.bankId := by
    rw [System.chain, hmaster, System.chain]
  rw [hchain] at hxy
  have hmem := hxy.precedes.of_sublist (ht.chain hb).1
  rw [hmaster, hlink hmem.right_mem] at hpre
  have hcoming : ω'.comingSuccs x = ω.comingSuccs x := by
    rw [Ordered.comingSuccs, hmaster, hlink hmem.left_mem, hrest, Ordered.comingSuccs, hinbox,
      List.filterMap_append, List.append_assoc]
    congr 1
    by_cases hx : x = r.preAddr
    · rw [if_pos hx]
      simp [requestedSuccs, Message.succ?, hx]
    · rw [if_neg hx]
      simp [requestedSuccs, Ne.symm hx]
  apply h.of_same hxy ?_ (fun hin => hpre (List.mem_append_left _ hin)) ?_ hcoming
  · rw [hsystem] at hlive
    exact hlive
  · rw [hsystem]
    rfl

/-- Steps that announce no successor. -/
lemma of_link (h : Repairing b ω) (hb : b ∈ cfg.banks) (ht : Topology cfg ω.system)
    (server : ω'.system.server = ω.system.server)
    (addr : ω'.system.master.addr = ω.system.master.addr)
    (link : ∀ u ∈ b.servers, ∃ l, ω'.system.link ω.system.master.addr u =
      ω.system.link ω.system.master.addr u ++ l ∧ ∀ m ∈ l, m.succ? = none)
    (asked : requestedSuccs x (ω'.inbox ω.system.master.addr) =
      requestedSuccs x (ω.inbox ω.system.master.addr))
    (hxy : (ω.system.chain b.bankId).Adjacent x y) (hlive : ω.system.crashed y = false)
    (hpre : .newPreServer x ∉ ω'.system.link ω'.system.master.addr y) : ω'.finalSucc x = y := by
  have hmem := hxy.precedes.of_sublist (ht.chain hb).1
  apply h.of_same hxy hlive
  · obtain ⟨l, hl, -⟩ := link y hmem.right_mem
    rw [addr, hl] at hpre
    exact fun hin => hpre (List.mem_append_left _ hin)
  · rw [server]
  · obtain ⟨l, hl, hnone⟩ := link x hmem.left_mem
    rw [Ordered.comingSuccs, addr, hl, asked, List.filterMap_append,
      List.filterMap_eq_nil_iff.mpr hnone, List.append_nil, Ordered.comingSuccs]

/-! ### The master announces a crash -/

section Detect

variable {id : String} {node : Address} {bsc : BankServerChain} {m : Master} {out : List Packet}

/-- No notice of a crash announces a successor. -/
lemma notice_succ (hcase : Master.CrashCase σ.master id node bsc m out) {msg : Message}
    (hmsg : msg ∈ sentTo out y) : msg.succ? = none ∧ ∀ r, msg ≠ .reqSeq r := by
  obtain ⟨q, hq, htcp⟩ := Announced.mem_sentTo.mp hmsg
  cases hcase.notice hq htcp with
  | _ => exact ⟨rfl, by simp⟩

/-- Neighbours in the new record were neighbours before, or the later one is told of the other. -/
lemma detect_adjacent (hcase : Master.CrashCase σ.master b.bankId node bsc m out)
    (hchain : σ.chain b.bankId = bsc.serverChain)
    (hxy : (System.chain ({ σ with master := m }.emit σ.master.addr out) b.bankId).Adjacent x y) :
    (σ.chain b.bankId).Adjacent x y ∨ .newPreServer x ∈ sentTo out y := by
  cases hcase with
  | head newHead l chain m' set =>
    subst set
    rw [Announced.chain_setChain] at hxy
    rw [hchain, chain, List.adjacent_cons]
    exact Or.inl (Or.inr hxy)
  | tail newTail l chain m' set =>
    subst set
    rw [Announced.chain_setChain] at hxy
    have hsplit : bsc.serverChain = (l ++ [newTail]) ++ [node] := by simp [chain]
    rw [hchain, hsplit, List.adjacent_append]
    exact Or.inl (Or.inl hxy)
  | internal pre succ l₁ l₂ chain =>
    rw [Announced.chain_setChain] at hxy
    have hsplit : bsc.serverChain = (l₁ ++ [pre]) ++ node :: succ :: l₂ := by simp [chain]
    have hnew : l₁ ++ pre :: succ :: l₂ = (l₁ ++ [pre]) ++ succ :: l₂ := by simp
    rw [hnew, List.adjacent_append] at hxy
    rw [hchain, hsplit, List.adjacent_append, List.adjacent_cons]
    rcases hxy with hxy | hxy | ⟨hlast, hfirst⟩
    · exact Or.inl (Or.inl hxy)
    · exact Or.inl (Or.inr (Or.inl (Or.inr hxy)))
    · right
      obtain rfl : pre = x := by simpa using hlast
      obtain rfl : succ = y := by simpa using hfirst
      exact Announced.mem_sentTo.mpr ⟨_, List.mem_cons_self, rfl⟩

lemma detect (h : Repairing b ω) (hb : b ∈ cfg.banks) (ht : Topology cfg ω.system)
    (hlookup : ω.system.master.bankServerChain.lookup id = some bsc)
    (hcase : Master.CrashCase ω.system.master id node bsc m out)
    (hsystem : ω'.system = { ω.system with master := m }.emit ω.system.master.addr out)
    (hinbox : ω'.inbox ω.system.master.addr = ω.inbox ω.system.master.addr ++
      (sentTo out ω.system.master.addr).map fun m => (ω.system.master.addr, m)) :
    Repairing b ω' := by
  intro x y hxy hlive hpre
  have haddr : ω'.system.master.addr = ω.system.master.addr := by
    rw [hsystem]
    exact Announced.detect_addr hcase
  have hlink (u : Address) : ω'.system.link ω.system.master.addr u =
      ω.system.link ω.system.master.addr u ++ sentTo out u := by
    rw [hsystem]
    exact Announced.emit_link u
  have hold : (ω.system.chain b.bankId).Adjacent x y := by
    rw [hsystem] at hxy
    by_cases hid : id = b.bankId
    · subst hid
      have hchain : ω.system.chain b.bankId = bsc.serverChain := by
        simp only [System.chain, hlookup, Option.map_some, Option.getD_some]
      rcases detect_adjacent hcase hchain hxy with hold | hsent
      · exact hold
      · rw [haddr, hlink] at hpre
        exact absurd (List.mem_append_right _ hsent) hpre
    · rwa [Announced.detect_chain ht hlookup hcase hid] at hxy
  rw [hsystem] at hlive
  refine h.of_link hb ht ?_ haddr ?_ ?_ hold hlive hpre
  · rw [hsystem]
    rfl
  · exact fun u _ => ⟨sentTo out u, hlink u, fun msg hmsg => (notice_succ hcase hmsg).1⟩
  · rw [hinbox, requestedSuccs_append, requestedSuccs_sent, List.append_nil]
    exact fun msg hmsg r hr => absurd hr ((notice_succ hcase hmsg).2 r)

end Detect

/-! ### Runs -/

/-- The message that a receiver takes in turn stands first in its inbox. -/
lemma inbox_of_head (hlinked : ω.Linked) {src dst : Address} {k : Option ℕ}
    (hturn : ω.InTurn (.deliver src dst k)) {m : Message} {l : List Message}
    (head : ω.system.link src dst = m :: l) : ∃ rest, ω.inbox dst = (src, m) :: rest := by
  obtain ⟨m', rest, hinbox⟩ := hturn.inbox
  obtain ⟨l', hl'⟩ := hlinked.head hinbox
  rw [head] at hl'
  obtain ⟨rfl, -⟩ := List.cons.inj hl'
  exact ⟨rest, hinbox⟩

lemma step (h : Repairing b ω) (hb : b ∈ cfg.banks) (ha : Announced b ω.system)
    (ht : Topology cfg ω.system) (hlinked : ω.Linked) (hl : System.NoJoin ω.system l)
    (hs : ω.step l = some ω') : Repairing b ω' := by
  obtain ⟨hturn, hstep, hinbox⟩ := Ordered.step_eq hs
  have hcase := System.step_cases ht.toPlain hl hstep
  have hinbox := hinbox ω.system.master.addr
  generalize hsystem : ω'.system = σ' at hcase
  cases hcase with
  | @serve _ z msg L out _ taken serve hdelivery left =>
    subst hsystem
    rw [Ordered.arrivals_serve serve] at hinbox
    apply h.serve hb ha ht taken serve
    rw [hinbox]
    congr 1
    cases l with
    | deliver src dst k =>
      obtain ⟨msg', -, heq⟩ := Option.map_eq_some_iff.mp hdelivery
      obtain rfl : dst = z := congrArg Prod.fst heq
      exact if_neg (Ne.symm serve.ne_master)
    | _ => rfl
  | @crash _ z label =>
    have hwaiting : ω.waiting l ω.system.master.addr = ω.inbox ω.system.master.addr := by
      cases l with
      | deliver src dst k => exact absurd rfl (label src dst k)
      | _ => rfl
    rw [Ordered.arrivals_silent (by rw [hsystem]; rfl), List.append_nil, hwaiting] at hinbox
    intro x y hxy hlive hpre
    rw [hsystem] at hxy hlive
    have hlive : ω.system.crashed y = false := by
      by_cases hyz : y = z
      · simp [System.kill, hyz] at hlive
      · simpa [System.kill, hyz] using hlive
    refine h.of_link hb ht ?_ ?_ (fun u _ => ⟨[], ?_, by simp⟩) (by rw [hinbox]) hxy hlive hpre
    · rw [hsystem]
      rfl
    · rw [hsystem]
      rfl
    · rw [hsystem, List.append_nil]
      rfl
  | @relink src r rest k live head =>
    obtain ⟨rest', hfirst⟩ := inbox_of_head hlinked hturn head
    apply h.relink hb ht hfirst hsystem
    have hwaiting : ω.waiting (.deliver src ω.system.master.addr k) ω.system.master.addr = rest' := by
      rw [Ordered.waiting, if_pos rfl, hfirst, List.tail_cons]
    have hnone : sentTo [.tcp r.preAddr (.newSuccServer r)] ω.system.master.addr = [] := by
      have hfits : Linked cfg ω.system r.preAddr r.succAddr :=
        ht.fits src _ (.reqSeq r) (by rw [head]; exact List.mem_cons_self)
      obtain ⟨b', hb', hpre, -⟩ := hfits
      have hne : r.preAddr ≠ ω.system.master.addr := by
        rw [ht.master]
        exact Config.ne_master hb' hpre.left_mem
      simp [sentTo, hne]
    rw [hinbox, hsystem, hwaiting]
    refine (congrArg _ (Ordered.arrivals_emit _ _ _)).trans ?_
    rw [hnone, List.map_nil, List.append_nil]
  | @ignore src msg rest k live head other =>
    obtain ⟨rest', hfirst⟩ := inbox_of_head hlinked hturn head
    rw [Ordered.arrivals_silent (by rw [hsystem]), List.append_nil, Ordered.waiting, if_pos rfl,
      hfirst, List.tail_cons] at hinbox
    intro x y hxy hlive hpre
    rw [hsystem] at hxy hlive
    refine h.of_link hb ht ?_ ?_ (fun u hu => ⟨[], ?_, by simp⟩) ?_ hxy hlive hpre
    · rw [hsystem]
    · rw [hsystem]
    · rw [hsystem, List.append_nil]
      exact Announced.recv_master_link ht hb hu src ω.system.master.addr
    · rw [hinbox, hfirst, requestedSuccs, requestedSuccs]
      refine (List.filterMap_cons_none ?_).symm
      cases msg with
      | reqSeq r => exact absurd rfl (other r)
      | _ => rfl
  | @detect id node bsc m out live dead lookup mem case =>
    apply h.detect hb ht lookup case hsystem
    rw [hinbox, hsystem]
    exact congrArg _ (Ordered.arrivals_emit _ _ _)

/-- What holds of every state in which the receivers have taken their messages in turn. -/
theorem reach (hb : b ∈ cfg.banks)
    (hrun : Machine.Reach Ordered.step (fun ω l => System.NoJoin ω.system l) (Ordered.init cfg) ω) :
    ω.Linked ∧ Repairing b ω := by
  refine hrun.invariant_of (I := fun ω => ω.Linked ∧ Repairing b ω)
    (J := fun ω => Topology cfg ω.system ∧ Announced b ω.system) ?_ ⟨fun _ _ => rfl, init hb⟩ ?_
  · intro ω hω
    have hrun := @Ordered.reach_system cfg ω System.NoJoin hω
    exact ⟨Topology.reach (fun _ _ h => h) hrun, Announced.reach (fun _ _ h => h) hb hrun⟩
  · rintro ω l ω' ⟨hlinked, h⟩ ⟨ht, ha⟩ - hl hs
    obtain ⟨-, hstep, -⟩ := Ordered.step_eq hs
    exact ⟨hlinked.step hs (System.step_cases ht.toPlain hl hstep), h.step hb ha ht hlinked hl hs⟩

end Repairing

/-! ### Settled systems -/

/-- Nothing waits for the master or a live server of the bank, and the master has taken every crashed
server out of the bank's chain. -/
structure Settled (b : BankConfig) (ω : Ordered) : Prop where
  master : ω.inbox ω.system.master.addr = []
  server : ∀ x ∈ b.servers, ω.system.crashed x = false → ω.inbox x = []
  handled : ∀ x ∈ ω.system.chain b.bankId, ω.system.crashed x = false

/-- The roles, links and histories of the bank's servers agree with the chain of the master. -/
structure Converged (b : BankConfig) (σ : System) : Prop where
  order : σ.chain b.bankId <+ b.servers
  live : ∀ x ∈ b.servers, x ∈ σ.chain b.bankId ↔ σ.crashed x = false
  head : ∀ x ∈ σ.chain b.bankId, (σ.server x).ishead = true ↔ (σ.chain b.bankId).head? = some x
  tail : ∀ x ∈ σ.chain b.bankId, (σ.server x).istail = true ↔ (σ.chain b.bankId).getLast? = some x
  links : ∀ x y, (σ.chain b.bankId).Adjacent x y →
    (σ.server x).succServerAddr = y ∧ (σ.server y).preServerAddr = x
  history : ∀ x ∈ σ.chain b.bankId, ∀ y ∈ σ.chain b.bankId, (σ.server x).bodies = (σ.server y).bodies

/-- No message is on its way to a live server of the bank, and the record lists live servers only. -/
structure Still (b : BankConfig) (σ : System) : Prop where
  link : ∀ x ∈ b.servers, σ.crashed x = false → ∀ src, σ.link src x = []
  handled : ∀ x ∈ σ.chain b.bankId, σ.crashed x = false

namespace Still

variable (hs : Still b σ) (hb : b ∈ cfg.banks) (ht : Topology cfg σ)
include hs hb ht

lemma empty (hx : x ∈ σ.chain b.bankId) (src : Address) : σ.link src x = [] :=
  hs.link x ((ht.chain hb).1.subset hx) (hs.handled x hx) src

variable (ha : Announced b σ)
include ha

lemma head (hx : x ∈ σ.chain b.bankId) :
    (σ.server x).ishead = true ↔ (σ.chain b.bankId).head? = some x := by
  constructor
  · intro hhead
    have hne : σ.chain b.bankId ≠ [] := List.ne_nil_of_mem hx
    obtain ⟨y, hy⟩ := Option.isSome_iff_exists.mp (List.isSome_head?.mpr hne)
    by_cases hyx : y = x
    · rw [← hyx, hy]
    · have hyx := (List.precedes_of_head? hy hx hyx).of_sublist (ht.chain hb).1
      have hdead := ht.head x hhead b hb y hyx
      rw [hs.handled y (List.mem_of_head? hy)] at hdead
      cases hdead
  · intro hfirst
    apply (ha.head x hfirst).resolve_right
    rw [hs.empty hb ht hx]
    exact List.not_mem_nil

lemma tail (hx : x ∈ σ.chain b.bankId) :
    (σ.server x).istail = true ↔ (σ.chain b.bankId).getLast? = some x := by
  constructor
  · intro htail
    have hne : σ.chain b.bankId ≠ [] := List.ne_nil_of_mem hx
    obtain ⟨y, hy⟩ : ∃ y, (σ.chain b.bankId).getLast? = some y :=
      ⟨_, List.getLast?_eq_some_getLast hne⟩
    by_cases hxy : x = y
    · rw [hxy, hy]
    · have hxy := (List.precedes_of_getLast? hy hx hxy).of_sublist (ht.chain hb).1
      have hdead := ht.tail x htail b hb y hxy
      rw [hs.handled y (List.mem_of_getLast? hy)] at hdead
      cases hdead
  · intro hlast
    apply (ha.tail x hlast).resolve_right
    rw [hs.empty hb ht hx]
    exact List.not_mem_nil

lemma pre (hxy : (σ.chain b.bankId).Adjacent x y) : (σ.server y).preServerAddr = x := by
  have hfinal := ha.pre x y hxy
  rw [hs.empty hb ht hxy.precedes.right_mem] at hfinal
  exact hfinal

omit ha in
/-- A server whose successor is the next one of the record has sent it everything. -/
lemma history (hrep : Replicated cfg σ) (hxy : (σ.chain b.bankId).Adjacent x y)
    (hsucc : (σ.server x).succServerAddr = y) : (σ.server x).bodies = (σ.server y).bodies := by
  have hxy' := hxy.precedes.of_sublist (ht.chain hb).1
  have hx := hs.handled x hxy.precedes.left_mem
  have hy := hs.handled y hxy.precedes.right_mem
  have hcovered := hrep.covered x hx (ht.tail_false_of_precedes hb hxy' hy)
  rw [hsucc, hs.empty hb ht hxy.precedes.right_mem] at hcovered
  have hle := hcovered hy
  rw [seqs, List.filterMap_nil, SeqStream.reach_nil] at hle
  refine ((hrep.sub b hb x y hxy' hx).eq_of_length_le ?_).symm
  rw [ChainServer.length_bodies, ChainServer.length_bodies]
  exact hle

/-- When every link of the record is in place, the chain is the chain of its live servers. -/
theorem converged (hrep : Replicated cfg σ)
    (hsucc : ∀ x y, (σ.chain b.bankId).Adjacent x y → (σ.server x).succServerAddr = y) :
    Converged b σ := by
  obtain ⟨horder, hrecorded⟩ := ht.chain hb
  refine ⟨horder, ?_, ?_, ?_, ?_, ?_⟩
  · exact fun x hx => ⟨hs.handled x, hrecorded x hx⟩
  · exact fun x hx => hs.head hb ht ha hx
  · exact fun x hx => hs.tail hb ht ha hx
  · exact fun x y hxy => ⟨hsucc x y hxy, hs.pre hb ht ha hxy⟩
  · intro x hx y hy
    exact List.eq_of_adjacent (f := fun z => (σ.server z).bodies)
      (fun u v huv => hs.history hb ht hrep huv (hsucc u v huv)) hx hy

end Still

section Settled

variable (hs : Settled b ω) (hlinked : ω.Linked)
include hs hlinked

lemma Settled.still : Still b ω.system where
  link x hx hlive src := by
    rw [hlinked, hs.server x hx hlive]
    rfl
  handled := hs.handled

lemma Settled.succ (hb : b ∈ cfg.banks) (ht : Topology cfg ω.system) (hr : Repairing b ω)
    (hxy : (ω.system.chain b.bankId).Adjacent x y) : (ω.system.server x).succServerAddr = y := by
  have empty {z : Address} (hz : z ∈ ω.system.chain b.bankId) (src : Address) :
      ω.system.link src z = [] := (hs.still hlinked).empty hb ht hz src
  have hfinal := hr x y hxy (hs.handled y hxy.precedes.right_mem) (by
    rw [empty hxy.precedes.right_mem]
    exact List.not_mem_nil)
  rw [Ordered.finalSucc, Ordered.comingSuccs, empty hxy.precedes.left_mem, hs.master] at hfinal
  exact hfinal

end Settled

/-- Whatever crashes have happened at whatever points, a chain whose crashes are handled and whose
messages have all arrived is the chain of its live servers, if no head has numbered an update with its
counter at its last value. -/
theorem settled_converged (hb : b ∈ cfg.banks) (hrun : Machine.Reach Ordered.step32
      (fun ω l => System.NoJoin ω.system l ∧ ω.system.CounterFits l) (Ordered.init cfg) ω)
    (hs : Settled b ω) : Converged b ω.system := by
  have hrun := (Ordered.reach_of_fits hrun fun _ _ h => h.2).mono fun _ _ h => h.1
  have hrun' := @Ordered.reach_system cfg ω System.NoJoin hrun
  have ht := Topology.reach (fun _ _ h => h) hrun'
  have ha := Announced.reach (fun _ _ h => h) hb hrun'
  have hrep := Replicated.reach (fun _ _ h => h) hrun'
  obtain ⟨hlinked, hr⟩ := Repairing.reach hb hrun
  exact (hs.still hlinked).converged hb ht ha hrep fun x y hxy => hs.succ hlinked hb ht hr hxy

open Config in
/-- The internal server dies with an update in its inbox; the first and the last server link up and
the update reaches both. -/
def linkedUp : Ordered :=
  Machine.after Ordered.step32 (fun ω l => System.NoJoin ω.system l ∧ ω.system.CounterFits l)
    (Ordered.init twoBanks)
    ([request 1 (sampleDeposit "1" 5)] ++ lose 2 ++ [hop 0 3, hop 3 0, hop 0 1, hop 1 3, hop 3 1])

open Config in
theorem settled_converged_linkedUp :
    Converged { bankId := "BOA", servers := [1, 2, 3].map localAddress } linkedUp.system :=
  @settled_converged twoBanks _ _ (by decide) (Machine.reach_after (by decide +kernel))
    ⟨by decide +kernel, by decide +kernel, by decide +kernel⟩

open Config in
/-- After 2³² - 1 rounds of deposits the head numbers one more with 0, and the tail ignores it. Everything has
been delivered, and the histories differ. -/
theorem settled_wrapped : ∃ ω,
    Machine.run Ordered.step32 (fun ω l => System.NoJoin ω.system l) (Ordered.init growingBank)
      (deposits (2 ^ 32 - 1) ++ [request 1 (sampleDeposit "1" 5), hop 1 2]) = some ω ∧
    Settled growingChain ω ∧ ¬ Converged growingChain ω.system := by
  have hb : growingChain ∈ growingBank.banks := List.mem_cons_self
  obtain ⟨ω, r, hrun, -, h⟩ := InRounds.overflow (sampleDeposit "1" 5) hb rfl
    (fun ω l => System.NoJoin ω.system l) ⟨fun _ => rfl, fun _ => rfl, fun _ => rfl⟩ rfl rfl
  have hchain : ω.system.chain growingChain.bankId = [localAddress 1, localAddress 2] := by
    rw [System.chain, h.master]
    rfl
  have hinbox (x : Address) : ω.inbox x = [] := by simp [h.inbox]
  refine ⟨ω, hrun, ⟨hinbox _, fun x _ _ => hinbox x, fun x hx => ?_⟩, fun hconverged => ?_⟩
  · rw [hchain] at hx
    exact (h.live hb hx).2
  · have hhistory := hconverged.history (localAddress 1) (by simp [hchain]) (localAddress 2)
      (by simp [hchain])
    have hlength := congrArg List.length hhistory
    rw [ChainServer.length_bodies, ChainServer.length_bodies, h.servers.numbered.2.1,
      h.servers.applied.2.1] at hlength
    omega

end ChainReplication
