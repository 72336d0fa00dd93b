import ChainReplication.System.Consistency
import ChainReplication.System.Links

/-!
# What the master has announced

Only the master sends the messages that change roles and links. Read together with what is still on
its way, the first and the last server of its record are head and tail, and every server of the
record names the server before it.
-/

namespace ChainReplication

variable {cfg : Config} {b : BankConfig} {σ σ' : System} {l : Label} {x y p : Address}

/-- The messages that change a role or a link of their receiver. -/
def Message.isControl : Message → Bool
  | .toBeHead | .toBeTail | .newPreServer _ | .newSuccServer _ => true
  | _ => false

/-- The predecessor that a message announces. -/
def Message.pre? : Message → Option Address
  | .newPreServer a => some a
  | _ => none

/-- The predecessor of a server that names `a` once it has taken up the messages `l`. -/
def finalPre (l : List Message) (a : Address) : Address := (l.filterMap Message.pre?).getLastD a

@[simp] lemma finalPre_nil (a : Address) : finalPre [] a = a := rfl

lemma finalPre_cons (m : Message) (l : List Message) (a : Address) :
    finalPre (m :: l) a = finalPre l (m.pre?.getD a) := by
  rw [finalPre, List.filterMap_cons, finalPre]
  cases m.pre? with
  | none => rfl
  | some a' => rw [List.getLastD_cons, Option.getD_some]

lemma finalPre_append_of_none {l l' : List Message} (h : ∀ m ∈ l', m.pre? = none) (a : Address) :
    finalPre (l ++ l') a = finalPre l a := by
  rw [finalPre, List.filterMap_append, List.filterMap_eq_nil_iff.mpr h, List.append_nil, finalPre]

lemma finalPre_concat (l : List Message) (a a' : Address) :
    finalPre (l ++ [.newPreServer a']) a = a' := by
  rw [finalPre, List.filterMap_append]
  exact List.getLastD_concat

/-- The record of the bank, read together with the announcements in flight. -/
structure Announced (b : BankConfig) (σ : System) : Prop where
  origin : ∀ x y, ∀ m ∈ σ.link x y, m.isControl = true → x = σ.master.addr
  head : ∀ x, (σ.chain b.bankId).head? = some x →
    (σ.server x).ishead = true ∨ .toBeHead ∈ σ.link σ.master.addr x
  tail : ∀ x, (σ.chain b.bankId).getLast? = some x →
    (σ.server x).istail = true ∨ .toBeTail ∈ σ.link σ.master.addr x
  pre : ∀ p y, (σ.chain b.bankId).Adjacent p y →
    finalPre (σ.link σ.master.addr y) (σ.server y).preServerAddr = p

namespace Announced

lemma chain_init (hb : b ∈ cfg.banks) : cfg.init.chain b.bankId = b.servers := by
  have hlookup := Config.initMaster_lookup hb
  simp only [System.chain, Config.init, hlookup, Option.map_some, Option.getD_some]

lemma init (hb : b ∈ cfg.banks) : Announced b cfg.init := by
  have hserver (x : Address) : cfg.init.server x = cfg.initServer x := rfl
  refine ⟨?_, ?_, ?_, ?_⟩
  · intro x y m hm
    simp [Config.init] at hm
  · intro x hx
    rw [chain_init hb] at hx
    rw [hserver, Config.initServer_of_mem hb (List.mem_of_head? hx)]
    exact Or.inl (decide_eq_true hx)
  · intro x hx
    rw [chain_init hb] at hx
    rw [hserver, Config.initServer_of_mem hb (List.mem_of_getLast? hx)]
    exact Or.inl (decide_eq_true hx)
  · intro p y hpy
    rw [chain_init hb] at hpy
    rw [hserver, Config.initServer_of_mem hb hpy.precedes.right_mem]
    obtain ⟨l₁, l₂, hl⟩ := List.adjacent_iff.mp hpy
    have hprev : BankServerChain.prevOf y b.servers = some p := by
      have hnodup := Config.servers_nodup hb
      rw [hl] at hnodup ⊢
      apply BankServerChain.prevOf_of_split
      have hsplit : l₁ ++ p :: y :: l₂ = (l₁ ++ [p]) ++ y :: l₂ := by simp
      rw [hsplit] at hnodup
      exact fun hmem => (List.nodup_append.mp hnodup).2.2 y hmem y List.mem_cons_self rfl
    change ((BankServerChain.prevOf y b.servers).getD .empty) = p
    rw [hprev, Option.getD_some]

/-! ### A server serves a message -/

section Serve

variable {msg : Message} {L : Links Address Message} {out : List Packet} (h : Announced b σ)
  (ht : Topology cfg σ) (taken : System.Taken σ x msg L) (hs : System.Serve σ x msg L out σ')
include h ht taken hs

omit ht in
/-- A server takes up an announcement, or a message that announces nothing. -/
lemma serve_mail : msg.isControl = false ∧ L σ.master.addr x = σ.link σ.master.addr x ∨
    σ.link σ.master.addr x = msg :: L σ.master.addr x := by
  cases taken with
  | client => exact Or.inl ⟨rfl, rfl⟩
  | @link src _ rest head =>
    by_cases hsrc : src = σ.master.addr
    · right
      rw [← hsrc, head, Links.recv_self, head, List.tail_cons]
    · left
      refine ⟨?_, Links.recv_of_ne _ _ _ fun heq => hsrc heq.1.symm⟩
      by_contra hcontrol
      exact hsrc (h.origin src x msg (by rw [head]; exact List.mem_cons_self) (by simpa using hcontrol))

omit h ht in
lemma serve_other (hy : y ≠ x) : L σ.master.addr y = σ.link σ.master.addr y := by
  cases taken with
  | client => rfl
  | link => exact Links.recv_of_ne _ _ _ fun heq => hy heq.2

omit h ht taken in
lemma serve_link : σ'.link σ.master.addr y = L σ.master.addr y := by
  rw [hs.link, Links.send_of_ne _ _ _ (Ne.symm hs.ne_master)]

lemma serve_origin {u : Address} {m : Message} (hm : m ∈ σ'.link u y) (hcontrol : m.isControl = true) :
    u = σ.master.addr := by
  rcases hs.mem_link_spec ht.toPlain taken hm with hm | ⟨rfl, hspec⟩
  · exact h.origin u y m hm hcontrol
  · cases m with
    | toBeHead | toBeTail | newPreServer | newSuccServer => exact hspec.elim
    | _ => cases hcontrol

lemma serve_head (hhead : (σ.server y).ishead = true ∨ .toBeHead ∈ σ.link σ.master.addr y) :
    (σ'.server y).ishead = true ∨ .toBeHead ∈ σ'.link σ.master.addr y := by
  have hrole := hs.roleStep ht.toPlain taken
  rw [serve_link hs]
  by_cases hyx : y = x
  · subst hyx
    rcases hhead with hhead | hmem
    · exact Or.inl (hrole.head.mpr (Or.inl hhead))
    · rcases serve_mail h taken hs with ⟨-, hsame⟩ | hlink
      · exact Or.inr (hsame ▸ hmem)
      · rw [hlink, List.mem_cons] at hmem
        rcases hmem with rfl | hmem
        · exact Or.inl (hrole.head.mpr (Or.inr rfl))
        · exact Or.inr hmem
  · rw [hs.server_of_ne hyx, serve_other taken hs hyx]
    exact hhead

lemma serve_tail (htail : (σ.server y).istail = true ∨ .toBeTail ∈ σ.link σ.master.addr y) :
    (σ'.server y).istail = true ∨ .toBeTail ∈ σ'.link σ.master.addr y := by
  have hrole := hs.roleStep ht.toPlain taken
  rw [serve_link hs]
  by_cases hyx : y = x
  · subst hyx
    rcases htail with htail | hmem
    · exact Or.inl (hrole.tail.mpr (Or.inl htail))
    · rcases serve_mail h taken hs with ⟨-, hsame⟩ | hlink
      · exact Or.inr (hsame ▸ hmem)
      · rw [hlink, List.mem_cons] at hmem
        rcases hmem with rfl | hmem
        · exact Or.inl (hrole.tail.mpr (Or.inr rfl))
        · exact Or.inr hmem
  · rw [hs.server_of_ne hyx, serve_other taken hs hyx]
    exact htail

lemma serve_pre : finalPre (σ'.link σ.master.addr y) (σ'.server y).preServerAddr =
    finalPre (σ.link σ.master.addr y) (σ.server y).preServerAddr := by
  have hrole := hs.roleStep ht.toPlain taken
  rw [serve_link hs]
  by_cases hyx : y = x
  · subst hyx
    have kept (hmsg : ∀ a, msg ≠ .newPreServer a) :
        (σ'.server y).preServerAddr = (σ.server y).preServerAddr :=
      hrole.pre.resolve_right (hmsg _)
    rcases serve_mail h taken hs with ⟨hcontrol, hsame⟩ | hlink
    · rw [hsame, kept]
      rintro a rfl
      cases hcontrol
    · rw [hlink, finalPre_cons]
      by_cases hpre : ∃ a, msg = .newPreServer a
      · obtain ⟨a, rfl⟩ := hpre
        rw [hs.server_self]
        rfl
      · have hnone : msg.pre? = none := by
          cases msg with
          | newPreServer a => exact absurd ⟨a, rfl⟩ hpre
          | _ => rfl
        rw [hnone, Option.getD_none, kept fun a ha => hpre ⟨a, ha⟩]
  · rw [hs.server_of_ne hyx, serve_other taken hs hyx]

lemma serve : Announced b σ' := by
  have hchain : σ'.chain b.bankId = σ.chain b.bankId := by rw [System.chain, hs.master, System.chain]
  constructor
  · rw [hs.master]
    exact fun u y m hm => serve_origin h ht taken hs hm
  · rw [hchain, hs.master]
    exact fun y hy => serve_head h ht taken hs (h.head y hy)
  · rw [hchain, hs.master]
    exact fun y hy => serve_tail h ht taken hs (h.tail y hy)
  · rw [hchain, hs.master]
    intro p y hpy
    rw [serve_pre h ht taken hs]
    exact h.pre p y hpy

end Serve

/-! ### Steps of the master -/

lemma mem_sentTo {out : List Packet} {m : Message} :
    m ∈ sentTo out y ↔ ∃ q ∈ out, q.tcp? = some (y, m) := by
  simp only [sentTo, List.mem_filterMap, Option.ite_none_right_eq_some, Option.some.injEq]
  constructor
  · rintro ⟨⟨t, m'⟩, ⟨q, hq, htcp⟩, rfl, rfl⟩
    exact ⟨q, hq, htcp⟩
  · rintro ⟨q, hq, htcp⟩
    exact ⟨(y, m), ⟨q, hq, htcp⟩, rfl, rfl⟩

lemma emit_link {out : List Packet} {m : Master} (y : Address) :
    ({ σ with master := m }.emit σ.master.addr out).link σ.master.addr y =
      σ.link σ.master.addr y ++ sentTo out y := Links.send_self ..

/-- A step that leaves the record alone and announces no predecessor. -/
lemma quiet (h : Announced b σ) (ht : Topology cfg σ) (hb : b ∈ cfg.banks)
    (server : σ'.server = σ.server) (addr : σ'.master.addr = σ.master.addr)
    (chain : σ'.chain b.bankId = σ.chain b.bankId)
    (origin : ∀ x y, ∀ m ∈ σ'.link x y, m.isControl = true → x = σ.master.addr)
    (link : ∀ y ∈ b.servers, ∃ l, σ'.link σ.master.addr y = σ.link σ.master.addr y ++ l ∧
      ∀ m ∈ l, m.pre? = none) : Announced b σ' := by
  have hmem {z : Address} (hz : z ∈ σ.chain b.bankId) : z ∈ b.servers := (ht.chain hb).1.subset hz
  constructor
  · rw [addr]
    exact origin
  · rw [chain, server, addr]
    intro y hy
    obtain ⟨l, hl, -⟩ := link y (hmem (List.mem_of_head? hy))
    rw [hl]
    exact (h.head y hy).imp id fun hin => List.mem_append_left _ hin
  · rw [chain, server, addr]
    intro y hy
    obtain ⟨l, hl, -⟩ := link y (hmem (List.mem_of_getLast? hy))
    rw [hl]
    exact (h.tail y hy).imp id fun hin => List.mem_append_left _ hin
  · rw [chain, server, addr]
    intro p y hpy
    obtain ⟨l, hl, hnone⟩ := link y (hmem hpy.precedes.right_mem)
    rw [hl, finalPre_append_of_none hnone]
    exact h.pre p y hpy

lemma recv_master_link (ht : Topology cfg σ) (hb : b ∈ cfg.banks) (hy : y ∈ b.servers) (src x : Address) :
    σ.link.recv src σ.master.addr x y = σ.link x y := by
  refine Links.recv_of_ne _ _ _ fun heq => ?_
  rw [ht.master] at heq
  exact Config.ne_master hb hy heq.2

section Detect

variable {id : String} {node : Address} {bsc : BankServerChain} {m : Master} {out : List Packet}
  (h : Announced b σ) (ht : Topology cfg σ) (hb : b ∈ cfg.banks)
  (hlookup : σ.master.bankServerChain.lookup id = some bsc)
  (hcase : Master.CrashCase σ.master id node bsc m out)

include h in
lemma detect_origin {u : Address} {msg : Message}
    (hm : msg ∈ ({ σ with master := m }.emit σ.master.addr out).link u y)
    (hcontrol : msg.isControl = true) : u = σ.master.addr := by
  simp only [System.emit, Links.mem_send] at hm
  rcases hm with hm | ⟨rfl, -⟩
  · exact h.origin u y msg hm hcontrol
  · rfl

include hcase in
lemma detect_addr : m.addr = σ.master.addr := by
  cases hcase with
  | head _ _ _ _ set => rw [set]; rfl
  | tail _ _ _ _ set => rw [set]; rfl
  | internal => rfl

include ht hlookup hcase in
lemma detect_chain (hid : id ≠ b.bankId) :
    System.chain ({ σ with master := m }.emit σ.master.addr out) b.bankId = σ.chain b.bankId := by
  obtain ⟨b', -, rfl, hok⟩ := ht.record_ok hlookup
  obtain ⟨bsc', rfl, -, -⟩ := hcase.record hok.wf
  simp only [System.chain, System.emit, Master.setChain]
  rw [AList.lookup_insert_ne (Ne.symm hid)]

include h ht hb hlookup hcase in
/-- Another bank's record changes. -/
lemma detect_other (hid : id ≠ b.bankId) :
    Announced b ({ σ with master := m }.emit σ.master.addr out) := by
  obtain ⟨b', hb', rfl, hok⟩ := ht.record_ok hlookup
  refine h.quiet ht hb rfl (detect_addr hcase) (detect_chain ht hlookup hcase hid)
    (fun u y msg => detect_origin h) fun y hy => ?_
  refine ⟨sentTo out y, emit_link y, fun msg hmsg => ?_⟩
  obtain ⟨q, hq, htcp⟩ := mem_sentTo.mp hmsg
  cases hcase.notice hq htcp with
  | newPreServer chain =>
    have hy' : y ∈ b'.servers := hok.sub.subset (by simp [chain])
    obtain rfl := Config.bank_unique_servers hb hb' hy hy'
    exact absurd rfl hid
  | _ => rfl

lemma chain_setChain (bsc' : BankServerChain) : System.chain ({ σ with
    master := σ.master.setChain b.bankId bsc' }.emit σ.master.addr out) b.bankId =
      bsc'.serverChain := by
  simp only [System.chain, System.emit, Master.setChain, AList.lookup_insert, Option.map_some,
    Option.getD_some]

/-- A head or a tail leaves the record: no predecessor is announced. -/
lemma pre_kept (h : Announced b σ) (hout : ∀ q ∈ out, ∀ a, q.tcp? ≠ some (y, .newPreServer a))
    (hpy : (σ.chain b.bankId).Adjacent p y) :
    finalPre (σ.link σ.master.addr y ++ sentTo out y) (σ.server y).preServerAddr = p := by
  rw [finalPre_append_of_none]
  · exact h.pre p y hpy
  · intro msg hmsg
    obtain ⟨q, hq, htcp⟩ := mem_sentTo.mp hmsg
    cases msg with
    | newPreServer a => exact absurd htcp (hout q hq a)
    | _ => rfl

include h in
/-- A new record is announced if its first and its last server are told, and every server that has another one
before it. -/
lemma detect_record {bsc' : BankServerChain}
    (hhead : ∀ x, bsc'.serverChain.head? = some x →
      (σ.server x).ishead = true ∨ .toBeHead ∈ σ.link σ.master.addr x ++ sentTo out x)
    (htail : ∀ x, bsc'.serverChain.getLast? = some x →
      (σ.server x).istail = true ∨ .toBeTail ∈ σ.link σ.master.addr x ++ sentTo out x)
    (hpre : ∀ p y, bsc'.serverChain.Adjacent p y →
      finalPre (σ.link σ.master.addr y ++ sentTo out y) (σ.server y).preServerAddr = p) :
    Announced b ({ σ with master := σ.master.setChain b.bankId bsc' }.emit σ.master.addr out) := by
  refine ⟨fun u y msg => detect_origin h, ?_, ?_, ?_⟩
  · rw [chain_setChain]
    intro x hx
    have hx := hhead x hx
    rw [← emit_link (m := σ.master.setChain b.bankId bsc')] at hx
    exact hx
  · rw [chain_setChain]
    intro x hx
    have hx := htail x hx
    rw [← emit_link (m := σ.master.setChain b.bankId bsc')] at hx
    exact hx
  · rw [chain_setChain]
    intro p y hpy
    have hpy := hpre p y hpy
    rw [← emit_link (m := σ.master.setChain b.bankId bsc')] at hpy
    exact hpy

section Self

variable (hchain : σ.chain b.bankId = bsc.serverChain)
include h hchain

lemma detect_head {newHead : Address} {l : List Address} (hsplit : bsc.serverChain = node :: newHead :: l)
    {bsc' : BankServerChain} (hchain' : bsc'.serverChain = newHead :: l) {m' : Master} :
    Announced b ({ σ with master := σ.master.setChain b.bankId bsc' }.emit σ.master.addr
      (.tcp newHead .toBeHead :: (m'.notifyClients (.newHead { bankId := b.bankId, serverAddr := newHead }) ++
        m'.notifyServers (.newHead { bankId := b.bankId, serverAddr := newHead })))) := by
  apply h.detect_record
  · rw [hchain']
    intro x hx
    obtain rfl : newHead = x := by simpa using hx
    exact Or.inr (List.mem_append_right _ (mem_sentTo.mpr ⟨_, List.mem_cons_self, rfl⟩))
  · rw [hchain']
    intro x hx
    have htail := h.tail x
    rw [hchain, hsplit, List.getLast?_cons_cons] at htail
    exact (htail hx).imp_right (List.mem_append_left _)
  · rw [hchain']
    intro p y hpy
    apply pre_kept h ?_ ?_
    · intro q hq a htcp
      cases hq with
      | head => cases htcp
      | tail _ hq =>
        rcases List.mem_append.mp hq with hq | hq
        · obtain ⟨c, -, rfl⟩ := List.mem_map.mp hq
          cases htcp
        · obtain ⟨e, -, he⟩ := List.mem_flatMap.mp hq
          obtain ⟨c, -, rfl⟩ := List.mem_map.mp he
          cases htcp
    · rw [hchain, hsplit, List.adjacent_cons]
      exact Or.inr hpy

lemma detect_tail {newTail : Address} {l : List Address} (hsplit : bsc.serverChain = l ++ [newTail, node])
    {bsc' : BankServerChain} (hchain' : bsc'.serverChain = l ++ [newTail]) {m' : Master} :
    Announced b ({ σ with master := σ.master.setChain b.bankId bsc' }.emit σ.master.addr
      (.tcp newTail .toBeTail ::
        m'.notifyClients (.newTail { bankId := b.bankId, serverAddr := newTail }))) := by
  have hsplit : bsc.serverChain = (l ++ [newTail]) ++ [node] := by simp [hsplit]
  apply h.detect_record
  · rw [hchain']
    intro x hx
    have hhead := h.head x
    rw [hchain, hsplit, List.head?_append_of_ne_nil _ (by simp)] at hhead
    exact (hhead hx).imp_right (List.mem_append_left _)
  · rw [hchain']
    intro x hx
    obtain rfl : newTail = x := by simpa using hx
    exact Or.inr (List.mem_append_right _ (mem_sentTo.mpr ⟨_, List.mem_cons_self, rfl⟩))
  · rw [hchain']
    intro p y hpy
    apply pre_kept h ?_ ?_
    · intro q hq a htcp
      cases hq with
      | head => cases htcp
      | tail _ hq =>
        obtain ⟨c, -, rfl⟩ := List.mem_map.mp hq
        cases htcp
    · rw [hchain, hsplit, List.adjacent_append]
      exact Or.inl hpy

/-- The server behind the crashed one is told the server before it. -/
lemma internal_pre {pre succ : Address} {l₁ l₂ : List Address} (hwf : bsc.Wf)
    (hsplit : bsc.serverChain = (l₁ ++ [pre]) ++ node :: succ :: l₂)
    (hpy : ((l₁ ++ [pre]) ++ succ :: l₂).Adjacent p y) :
    finalPre (σ.link σ.master.addr y ++ sentTo [.tcp succ (.newPreServer pre)] y)
      (σ.server y).preServerAddr = p := by
  by_cases hy : y = succ
  · subst hy
    have hpred : ((l₁ ++ [pre]) ++ y :: l₂).Adjacent pre y := by
      rw [List.adjacent_append]
      exact Or.inr (Or.inr ⟨by simp, rfl⟩)
    have hnodup : ((l₁ ++ [pre]) ++ y :: l₂).Nodup := by
      have hnodup := hwf.nodup
      rw [hsplit] at hnodup
      exact hnodup.sublist ((List.Sublist.refl _).append (List.sublist_cons_self _ _))
    have hsent : sentTo [.tcp y (.newPreServer pre)] y = [.newPreServer pre] := by simp [sentTo]
    rw [hpy.left_unique hnodup hpred, hsent]
    exact finalPre_concat _ _ _
  · apply pre_kept h
    · intro q hq a htcp
      obtain rfl := List.mem_singleton.mp hq
      simp only [Packet.tcp?_tcp, Option.some.injEq, Prod.mk.injEq] at htcp
      exact hy htcp.1.symm
    · rw [hchain, hsplit, List.adjacent_append, List.adjacent_cons]
      rcases List.adjacent_append.mp hpy with hpy | hpy | ⟨-, hhead⟩
      · exact Or.inl hpy
      · exact Or.inr (Or.inl (Or.inr hpy))
      · exact absurd (Option.some.inj hhead).symm hy

lemma detect_internal {pre succ : Address} {l₁ l₂ : List Address} (hwf : bsc.Wf)
    (hsplit : bsc.serverChain = l₁ ++ pre :: node :: succ :: l₂) {bsc' : BankServerChain}
    (hchain' : bsc'.serverChain = l₁ ++ pre :: succ :: l₂) :
    Announced b ({ σ with master := σ.master.setChain b.bankId bsc' }.emit σ.master.addr
      [.tcp succ (.newPreServer pre)]) := by
  have hsplit : bsc.serverChain = (l₁ ++ [pre]) ++ node :: succ :: l₂ := by simp [hsplit]
  have hnew : l₁ ++ pre :: succ :: l₂ = (l₁ ++ [pre]) ++ succ :: l₂ := by simp
  rw [hnew] at hchain'
  apply h.detect_record
  · rw [hchain', List.head?_append_of_ne_nil _ (by simp)]
    intro x hx
    have hhead := h.head x
    rw [hchain, hsplit, List.head?_append_of_ne_nil _ (by simp)] at hhead
    exact (hhead hx).imp_right (List.mem_append_left _)
  · rw [hchain', List.getLast?_append_of_ne_nil _ (by simp)]
    intro x hx
    have htail := h.tail x
    rw [hchain, hsplit, List.getLast?_append_of_ne_nil _ (by simp), List.getLast?_cons_cons] at htail
    exact (htail hx).imp_right (List.mem_append_left _)
  · rw [hchain']
    exact fun p y => h.internal_pre hchain hwf hsplit

end Self

include h in
/-- The bank's own record changes. -/
lemma detect_self (hwf : bsc.Wf) (hlookup : σ.master.bankServerChain.lookup b.bankId = some bsc)
    (hcase : Master.CrashCase σ.master b.bankId node bsc m out) :
    Announced b ({ σ with master := m }.emit σ.master.addr out) := by
  have hchain : σ.chain b.bankId = bsc.serverChain := by
    simp only [System.chain, hlookup, Option.map_some, Option.getD_some]
  cases hcase with
  | head newHead l chain m' set =>
    subst set
    exact h.detect_head hchain chain rfl
  | tail newTail l chain m' set =>
    subst set
    exact h.detect_tail hchain chain rfl
  | internal pre succ l₁ l₂ chain => exact h.detect_internal hchain hwf chain rfl

end Detect

/-! ### Runs -/

lemma step (h : Announced b σ) (ht : Topology cfg σ) (hb : b ∈ cfg.banks)
    (hcase : System.StepCase σ l σ') : Announced b σ' := by
  cases hcase with
  | serve taken hs => exact h.serve ht taken hs
  | crash => exact ⟨h.origin, h.head, h.tail, h.pre⟩
  | @relink src r rest _ live head =>
    refine h.quiet ht hb rfl rfl rfl ?_ ?_
    · intro u y msg hmsg hcontrol
      simp only [System.emit, Links.mem_send] at hmsg
      rcases hmsg with hmsg | ⟨rfl, -⟩
      · exact h.origin u y msg (Links.mem_of_mem_recv _ _ _ hmsg) hcontrol
      · rfl
    · intro y hy
      refine ⟨sentTo [.tcp r.preAddr (.newSuccServer r)] y, ?_, ?_⟩
      · simp only [System.emit, Links.send_self, recv_master_link ht hb hy]
        rfl
      · intro msg hmsg
        obtain ⟨q, hq, htcp⟩ := mem_sentTo.mp hmsg
        obtain rfl := List.mem_singleton.mp hq
        simp only [Packet.tcp?_tcp, Option.some.injEq, Prod.mk.injEq] at htcp
        rw [← htcp.2]
        rfl
  | ignore live head other =>
    refine h.quiet ht hb rfl rfl rfl ?_ ?_
    · intro u y msg hmsg hcontrol
      exact h.origin u y msg (Links.mem_of_mem_recv _ _ _ hmsg) hcontrol
    · intro y hy
      refine ⟨[], ?_, by simp⟩
      rw [List.append_nil]
      exact recv_master_link ht hb hy _ _
  | @detect id node bsc m out live dead lookup mem case =>
    obtain ⟨b', hb', hid, hok⟩ := ht.record_ok lookup
    by_cases hsame : id = b.bankId
    · subst hsame
      exact h.detect_self hok.wf lookup case
    · exact h.detect_other ht hb lookup case hsame

theorem reach {ok : System → Label → Prop} (hok : ∀ σ l, ok σ l → System.NoJoin σ l)
    (hb : b ∈ cfg.banks) (hrun : Machine.Reach System.step ok cfg.init σ) : Announced b σ :=
  hrun.invariant_of (fun _ hu => Topology.reach hok hu) (Announced.init hb)
    fun _ _ _ h ht _ hl hs => h.step ht hb (System.step_cases ht.toPlain (hok _ _ hl) hs)

end Announced

end ChainReplication
