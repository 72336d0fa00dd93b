import ChainReplication.DistAlgo.Steps

/-!
# The shape of the chains in the DistAlgo system

Who is the head or the tail of a bank, who is linked to whom and which servers the master lists, while
crashes are found and links repaired: between two servers that are linked only servers have crashed.
-/

namespace ChainReplication.DistAlgo

variable {P : Type*} [DecidableEq P]

/-! ### The chain of the master -/

namespace BankServerChain

variable {chain : BankServerChain P} {node : P} {l₁ l₂ : List P}

lemma findIdx?_split (hservers : chain.servers = l₁ ++ node :: l₂) (hnodup : chain.servers.Nodup) :
    chain.servers.findIdx? (· = node) = some l₁.length := by
  have hnot : node ∉ l₁ := by
    rw [hservers, List.nodup_append] at hnodup
    exact fun hmem => hnodup.2.2 _ hmem _ List.mem_cons_self rfl
  rw [hservers, List.findIdx?_append, List.findIdx?_eq_none_iff.mpr, List.findIdx?_cons]
  · simp
  · intro x hx
    simpa using ne_of_mem_of_not_mem hx hnot

lemma succServer_split (hservers : chain.servers = l₁ ++ node :: l₂) (hnodup : chain.servers.Nodup)
    (htail : node ≠ chain.tail) : chain.succServer node = l₂.head? := by
  rw [succServer, if_neg htail, findIdx?_split hservers hnodup, Option.bind_some, hservers,
    List.getElem?_append_right (Nat.le_succ _)]
  simp [List.head?_eq_getElem?]

lemma prevServer_split (hservers : chain.servers = l₁ ++ node :: l₂) (hnodup : chain.servers.Nodup)
    (hhead : chain.servers.head? = some chain.head) (hnode : node ≠ chain.head) :
    chain.prevServer node = l₁.getLast? := by
  have hne : l₁ ≠ [] := by
    rintro rfl
    rw [hservers] at hhead
    exact hnode (Option.some.inj hhead)
  have hlen : l₁.length ≠ 0 := fun h => hne (List.length_eq_zero_iff.mp h)
  rw [prevServer, if_neg hnode, findIdx?_split hservers hnodup, Option.bind_some, if_neg hlen, hservers,
    List.getElem?_append_left (by omega), List.getLast?_eq_getElem?]

end BankServerChain

variable {d : Deployment P} {b : BankSetup P} {σ τ : Network P} {l : NetworkLabel P} {p q x y : P}

/-- A process that has ended. -/
def Network.Dead (σ : Network P) (p : P) : Prop := σ.crashed p = true

instance (σ : Network P) (p : P) : Decidable (σ.Dead p) := inferInstanceAs (Decidable (_ = true))

/-- The chain that the master lists for a bank. -/
structure Recorded (dead : P → Prop) (b : BankSetup P) (chain : BankServerChain P) : Prop where
  remains : List.Remains dead b.servers chain.servers
  head : chain.servers.head? = some chain.head
  tail : chain.servers.getLast? = some chain.tail
  extendingNode : chain.extendingNode = none

namespace Recorded

variable {dead : P → Prop} {chain : BankServerChain P} {m m' : Master P} {node : P}
  {out : List (P × Notice P)} {sn : ℕ}

omit [DecidableEq P] in
lemma mono {dead' : P → Prop} (h : Recorded dead b chain) (hdead : ∀ z, dead z → dead' z) :
    Recorded dead' b chain := ⟨h.remains.mono hdead, h.head, h.tail, h.extendingNode⟩

/-- What the master does about a crash: it tells a new head, a new tail, or the server behind the gap. -/
inductive NotifyCase (dead : P → Prop) (b : BankSetup P) (m : Master P) (chain : BankServerChain P) (node : P)
    (chain' : BankServerChain P) : List (P × Notice P) → Prop
  | head (servers : chain.servers = node :: chain'.servers) (tail : chain'.tail = chain.tail)
      (mem : chain'.head ∈ b.servers) (front : b.servers.Front dead chain'.head) :
      NotifyCase dead b m chain node chain'
        ((chain'.head, .toBeHead) :: (m.toClients (.newHead chain'.head) ++ m.toTails (.newHead chain'.head)))
  | tail (servers : chain.servers = chain'.servers ++ [node]) (head : chain'.head = chain.head)
      (mem : chain'.tail ∈ b.servers) (rear : b.servers.Rear dead chain'.tail) :
      NotifyCase dead b m chain node chain' ((chain'.tail, .toBeTail) :: m.toClients (.newTail chain'.tail))
  | link {prev succ : P} {l₁ l₂ : List P} (servers : chain.servers = l₁ ++ node :: l₂)
      (servers' : chain'.servers = l₁ ++ l₂) (last : l₁.getLast? = some prev) (first : l₂.head? = some succ)
      (head : chain'.head = chain.head) (tail : chain'.tail = chain.tail)
      (linked : b.servers.Linked dead prev succ) :
      NotifyCase dead b m chain node chain' [(succ, .newPrevServer prev)]

lemma notifyCrash_cases (h : Recorded dead b chain) (hnodup : b.servers.Nodup) (hdead : dead node)
    (hlookup : m.bankChains.lookup b.bankId = some chain)
    (hnotify : m.notifyCrash b.bankId node = some (m', out)) :
    ∃ chain', Recorded dead b chain' ∧ m' = m.setChain b.bankId chain' ∧
      NotifyCase dead b m' chain node chain' out := by
  have hchain := hnodup.sublist h.remains.sub
  have hfirst := h.head
  have hlast := h.tail
  have removed {c' : BankServerChain P} (hc : chain.removeNode node = some c') : ∃ l₁ l₂,
      chain.servers = l₁ ++ node :: l₂ ∧ c' = { chain with servers := l₁ ++ l₂ } ∧
      List.Remains dead b.servers (l₁ ++ l₂) := by
    rw [BankServerChain.removeNode] at hc
    split_ifs at hc with hmem
    obtain ⟨l₁, l₂, hsplit⟩ := List.append_of_mem hmem
    have herase := List.erase_split (hsplit ▸ hchain)
    rw [← hsplit] at herase
    exact ⟨l₁, l₂, hsplit, herase ▸ (Option.some.inj hc).symm, herase ▸ h.remains.erase hdead⟩
  simp only [Master.notifyCrash, hlookup, Option.bind_eq_bind, Option.bind_some, h.extendingNode] at hnotify
  split_ifs at hnotify with hhead htail hnone hinner
  all_goals simp only [Option.bind_eq_some_iff, Option.some.injEq, Prod.mk.injEq] at hnotify
  · obtain ⟨newHead, hsucc, c, hc, rfl, rfl⟩ := hnotify
    obtain ⟨l₁, l₂, hsplit, rfl, hremains⟩ := removed hc
    rw [BankServerChain.succServer_split hsplit hchain hhead.2] at hsucc
    rw [hsplit] at hchain hfirst hlast
    obtain rfl := List.eq_nil_of_head? hchain (hhead.1 ▸ hfirst)
    refine ⟨{ chain with servers := l₂, head := newHead }, ⟨hremains, hsucc, ?_, h.extendingNode⟩, rfl,
      .head hsplit rfl ?_ (hremains.front hnodup hsucc)⟩
    · obtain ⟨l, rfl⟩ := List.head?_eq_some_iff.mp hsucc
      rwa [List.nil_append, List.getLast?_cons_cons] at hlast
    · exact hremains.sub.subset (List.mem_of_mem_head? hsucc)
  · obtain ⟨newTail, hprev, c, hc, rfl, rfl⟩ := hnotify
    obtain ⟨l₁, l₂, hsplit, rfl, hremains⟩ := removed hc
    rw [BankServerChain.prevServer_split hsplit hchain hfirst htail.1] at hprev
    rw [hsplit] at hchain hfirst hlast
    obtain rfl := List.eq_nil_of_getLast? hchain (htail.2 ▸ hlast)
    rw [List.append_nil] at hremains
    simp only [List.append_nil, h.extendingNode, Option.toList_none, List.map_nil]
    refine ⟨{ chain with servers := l₁, tail := newTail }, ⟨hremains, ?_, hprev, h.extendingNode⟩, ?_,
      .tail hsplit rfl ?_ (hremains.rear hnodup hprev)⟩
    · obtain ⟨l, rfl⟩ := List.getLast?_eq_some_iff.mp hprev
      simpa using hfirst
    · rw [h.extendingNode]
    · exact hremains.sub.subset (List.mem_of_getLast? hprev)
  · exact hnone.elim
  · obtain ⟨prev, hprev, succ, hsucc, c, hc, rfl, rfl⟩ := hnotify
    obtain ⟨l₁, l₂, hsplit, rfl, hremains⟩ := removed hc
    rw [BankServerChain.prevServer_split hsplit hchain hfirst hinner.1] at hprev
    rw [BankServerChain.succServer_split hsplit hchain hinner.2] at hsucc
    rw [hsplit] at hfirst hlast
    have hadj : (l₁ ++ l₂).Adjacent prev succ := List.adjacent_append.mpr (Or.inr (Or.inr ⟨hprev, hsucc⟩))
    refine ⟨{ chain with servers := l₁ ++ l₂ }, ⟨hremains, ?_, ?_, h.extendingNode⟩, rfl,
      .link hsplit rfl hprev hsucc rfl rfl (hremains.linked hnodup hadj)⟩
    · obtain ⟨l, rfl⟩ := List.getLast?_eq_some_iff.mp hprev
      simpa using hfirst
    · obtain ⟨l, rfl⟩ := List.head?_eq_some_iff.mp hsucc
      simpa using hlast

/-- The master tells the server before the one that has answered. -/
lemma ackNewPrevServer_eq (h : Recorded dead b chain) (hnodup : b.servers.Nodup)
    (hlookup : m.bankChains.lookup b.bankId = some chain)
    (hack : m.ackNewPrevServer b.bankId p sn = some out) :
    ∃ q, chain.servers.Adjacent q p ∧ out = [(q, .newSuccServer p sn)] := by
  have hchain := hnodup.sublist h.remains.sub
  simp only [Master.ackNewPrevServer, hlookup, Option.bind_eq_bind, Option.bind_some,
    Option.bind_eq_some_iff, Option.some.injEq] at hack
  obtain ⟨p, hnode, q, hprev, rfl⟩ := hack
  obtain ⟨hmem, rfl⟩ := BankServerChain.getNode_eq_some.mp hnode
  have hne : p ≠ chain.head := (BankServerChain.prevServer_isSome_iff.mp (Option.isSome_of_mem hprev)).2
  obtain ⟨l₁, l₂, hsplit⟩ := List.append_of_mem hmem
  rw [BankServerChain.prevServer_split hsplit hchain h.head hne] at hprev
  refine ⟨q, ?_, rfl⟩
  rw [hsplit]
  exact List.adjacent_append.mpr (Or.inr (Or.inr ⟨hprev, rfl⟩))

end Recorded

/-! ### Banks -/

namespace Deployment

variable {b' : BankSetup P}

omit [DecidableEq P] in
lemma servers_nodup (hb : b ∈ d.banks) : b.servers.Nodup :=
  (List.nodup_flatMap.mp (List.nodup_cons.mp d.processes_nodup).2).1 b hb

omit [DecidableEq P] in
/-- A server is of one bank. -/
lemma bank_unique (hb : b ∈ d.banks) (hb' : b' ∈ d.banks) (hp : p ∈ b.servers) (hp' : p ∈ b'.servers) :
    b = b' := by
  by_contra hne
  have hpairwise := (List.nodup_flatMap.mp (List.nodup_cons.mp d.processes_nodup).2).2
  have hsymm : Std.Symm (Function.onFun List.Disjoint fun b : BankSetup P => b.servers) :=
    ⟨fun _ _ h _ hx hy => h hy hx⟩
  exact hpairwise.forall hb hb' hne hp hp'

omit [DecidableEq P] in
lemma ne_master (hb : b ∈ d.banks) (hp : p ∈ b.servers) : p ≠ d.master := by
  rintro rfl
  exact (List.nodup_cons.mp d.processes_nodup).1 (List.mem_flatMap.mpr ⟨b, hb, hp⟩)

end Deployment

/-! ### Messages and servers -/

/-- Who a message from `x` to `y` is for. -/
def Addressed (d : Deployment P) (dead : P → Prop) (x y : P) : Mail P → Prop
  | .msg (.request req) =>
    req.type ≠ .query ∧ req.client.isSome = true ∧ ∃ b ∈ d.banks, b.servers.Linked dead x y
  | .msg (.ack _ _) => ∃ b ∈ d.banks, b.servers.Precedes y x
  | .notice .toBeHead => ∃ b ∈ d.banks, y ∈ b.servers ∧ b.servers.Front dead y
  | .notice .toBeTail => ∃ b ∈ d.banks, y ∈ b.servers ∧ b.servers.Rear dead y
  | .notice (.newPrevServer q) => ∃ b ∈ d.banks, b.servers.Linked dead q y
  | .notice (.newSuccServer s _) => ∃ b ∈ d.banks, b.servers.Linked dead y s
  | .ackNewPrevServer bankId _ => ∃ b ∈ d.banks, b.bankId = bankId ∧ x ∈ b.servers
  | .msg (.reply _) | .notice (.newHead _) | .notice (.newTail _) => True
  | _ => False

/-- Where a server stands and what it knows of the others. -/
structure Placed (d : Deployment P) (dead : P → Prop) (b : BankSetup P) (p : P) (s : Server P) : Prop where
  bankId : s.bankId = b.bankId
  master : s.master = d.master
  noExtension : s.extendingChain = false
  counted : 0 ≤ s.bankUpdateSeq
  head : s.isHead = true → b.servers.Front dead p
  tail : s.isTail = true → b.servers.Rear dead p ∧ s.sent = []
  hasPrev : s.isHead = false → s.prev.isSome = true
  hasSucc : s.isTail = false → s.succ.isSome = true
  prev : ∀ q ∈ s.prev, b.servers.Linked dead q p
  succ : ∀ q ∈ s.succ, b.servers.Linked dead p q
  sent : ∀ r ∈ s.sent, r.type ≠ .query ∧ r.client.isSome = true

variable {dead dead' : P → Prop} {m : Mail P} {s t : Server P} {src : P} {out : List (P × Mail P)}
  {r : Request P}

omit [DecidableEq P] in
lemma Addressed.mono (h : Addressed d dead x y m) (hdead : ∀ z, dead z → dead' z) :
    Addressed d dead' x y m := by
  unfold Addressed at h ⊢
  split at h
  · obtain ⟨htype, hclient, b, hb, hlink⟩ := h
    exact ⟨htype, hclient, b, hb, hlink.mono hdead⟩
  · exact h
  · obtain ⟨b, hb, hy, hfront⟩ := h
    exact ⟨b, hb, hy, hfront.mono hdead⟩
  · obtain ⟨b, hb, hy, hrear⟩ := h
    exact ⟨b, hb, hy, hrear.mono hdead⟩
  · obtain ⟨b, hb, hlink⟩ := h
    exact ⟨b, hb, hlink.mono hdead⟩
  · obtain ⟨b, hb, hlink⟩ := h
    exact ⟨b, hb, hlink.mono hdead⟩
  all_goals exact h

/-- What comes to a server: a request of a client, or a message that is for it. -/
def Incoming (d : Deployment P) (dead : P → Prop) (src dst : P) (m : Mail P) : Prop :=
  (∃ req, m = .msg (.request req) ∧ req.bankUpdateSeq = -1) ∨ Addressed d dead src dst m

namespace Placed

omit [DecidableEq P] in
lemma mono (h : Placed d dead b p s) (hdead : ∀ z, dead z → dead' z) : Placed d dead' b p s :=
  { h with
    head := fun hs => (h.head hs).mono hdead
    tail := fun hs => ⟨(h.tail hs).1.mono hdead, (h.tail hs).2⟩
    prev := fun q hq => (h.prev q hq).mono hdead
    succ := fun q hq => (h.succ q hq).mono hdead }

omit [DecidableEq P] in
/-- An acknowledgement goes to a server that stands before. -/
lemma acks (hb : b ∈ d.banks) (h : Placed d dead b p s) {reqs : List (Request P)} {a : P × Mail P}
    (ha : s.Acks reqs a) : Addressed d dead p a.1 a.2 := by
  obtain ⟨-, q, hq, r, -, rfl⟩ := ha
  exact ⟨b, hb, (h.prev q hq).1⟩

variable (hb : b ∈ d.banks) (hp : p ∈ b.servers) (h : Placed d dead b p s) (hin : Incoming d dead src p m)
include hb hp h hin

omit [DecidableEq P] hb hp in
/-- An update that is taken up has a client. -/
lemma taken (htaken : s.takenUp src m = some r) : r.type ≠ .query ∧ r.client.isSome = true := by
  obtain ⟨req, rfl, htype, ⟨-, rfl⟩ | ⟨-, hnext, rfl⟩⟩ := Server.takenUp_eq htaken
  · exact ⟨htype, rfl⟩
  · rcases hin with ⟨req', heq, hnumber⟩ | ⟨-, hclient, -⟩
    · obtain rfl : req = req' := by simpa using heq
      have hcounted := h.counted
      omega
    · exact ⟨htype, hclient⟩

omit [DecidableEq P] in
/-- The server stays in its place, and what it sends is for those that it is linked to. -/
lemma handle (hcase : s.HandleCase src m t out) :
    Placed d dead b p t ∧ ∀ a ∈ out, Addressed d dead p a.1 a.2 := by
  have hnotice (notice : Notice P) (hm : m = .notice notice) : Addressed d dead src p (.notice notice) := by
    subst hm
    exact hin.resolve_left (by simp)
  cases hcase with
  | idle none_taken queries =>
    refine ⟨{ h with }, fun a ha => ?_⟩
    obtain ⟨rep, hrep, -⟩ := queries a ha
    rw [hrep]
    trivial
  | @pass _ r y _ _ _ taken next relay succ =>
    have htaken := h.taken hin taken
    have hcounted := h.counted
    refine ⟨{ h with counted := ?_, tail := ?_, sent := ?_ }, ?_⟩
    · dsimp only
      omega
    · intro htail
      exact absurd (relay.symm.trans htail) (by decide)
    · exact List.forall_mem_append.mpr ⟨h.sent, List.forall_mem_singleton.mpr htaken⟩
    · refine List.forall_mem_singleton.mpr ⟨htaken.1, htaken.2, b, hb, h.succ y succ⟩
  | complete taken next tail out_eq =>
    have hcounted := h.counted
    refine ⟨{ h with counted := ?_ }, fun a ha => ?_⟩
    · dsimp only
      omega
    · rcases out_eq a ha with ha | ⟨c, rep, rfl, -⟩
      · exact h.acks hb ha
      · trivial
  | @acked n id moved sent _ _ split upTo out_eq =>
    refine ⟨{ h with tail := ?_, sent := ?_ }, fun a ha => h.acks hb (out_eq a ha)⟩
    · intro htail
      obtain ⟨hrear, hsent⟩ := h.tail htail
      rw [hsent] at split
      exact ⟨hrear, (List.append_eq_nil_iff.mp split.symm).2⟩
    · exact fun r hr => h.sent r (split ▸ List.mem_append_right _ hr)
  | head =>
    obtain ⟨b', hb', hp', hfront⟩ := hnotice .toBeHead rfl
    obtain rfl := Deployment.bank_unique hb hb' hp hp'
    exact ⟨{ h with head := fun _ => hfront, hasPrev := fun hhead => by cases hhead },
      List.forall_mem_nil _⟩
  | tail out_eq =>
    obtain ⟨b', hb', hp', hrear⟩ := hnotice .toBeTail rfl
    obtain rfl := Deployment.bank_unique hb hb' hp hp'
    refine ⟨{ h with tail := fun _ => ⟨hrear, rfl⟩, hasSucc := ?_, sent := List.forall_mem_nil _ },
      fun a ha => h.acks hb (out_eq a ha)⟩
    exact fun htail => by cases htail
  | @prev q =>
    obtain ⟨b', hb', hlink⟩ := hnotice (.newPrevServer q) rfl
    obtain rfl := Deployment.bank_unique hb hb' hp hlink.1.right_mem
    refine ⟨{ h with hasPrev := fun _ => rfl, prev := ?_ }, ?_⟩
    · exact fun q' hq' => Option.some.inj hq' ▸ hlink
    · exact List.forall_mem_singleton.mpr ⟨b, hb, h.bankId.symm, hp⟩
  | @succ y n =>
    obtain ⟨b', hb', hlink⟩ := hnotice (.newSuccServer y n) rfl
    obtain rfl := Deployment.bank_unique hb hb' hp hlink.1.left_mem
    refine ⟨{ h with hasSucc := fun _ => rfl, succ := ?_ }, fun a ha => ?_⟩
    · exact fun y' hy' => Option.some.inj hy' ▸ hlink
    · obtain ⟨r, hr, rfl⟩ := List.mem_map.mp ha
      obtain ⟨htype, hclient⟩ := h.sent r (List.mem_filter.mp hr).1
      exact ⟨htype, hclient, b, hb, hlink⟩

end Placed

/-! ### The system -/

/-- The shape of the system. -/
structure Topology (d : Deployment P) (σ : Network P) : Prop where
  masterProc : σ.masterProc = d.master
  members : ∀ p, ¬ σ.Dead p → p ≠ d.master → ∃ b ∈ d.banks, p ∈ b.servers
  record : ∀ id chain, σ.master.bankChains.lookup id = some chain →
    ∃ b ∈ d.banks, b.bankId = id ∧ Recorded σ.Dead b chain
  placed : ∀ b ∈ d.banks, ∀ p ∈ b.servers, Placed d σ.Dead b p (σ.server p)
  addressed : ∀ x y, ∀ m ∈ σ.link x y, Addressed d σ.Dead x y m

namespace Topology

lemma dead_kill (h : σ.Dead x) : (σ.kill p).Dead x := by
  show Function.update σ.crashed p true x = true
  by_cases hx : x = p
  · rw [hx, Function.update_self]
  · rwa [Function.update_of_ne hx]

/-- A crash. -/
lemma halt (h : Topology d σ) {link : Links P (Mail P)} (hsub : ∀ x y m, m ∈ link x y → m ∈ σ.link x y) :
    Topology d ({ σ with link := link }.kill p) where
  masterProc := h.masterProc
  members q hq hne := h.members q (fun hdead => hq (dead_kill hdead)) hne
  record id chain hlookup := by
    obtain ⟨b, hb, hid, hrec⟩ := h.record id chain hlookup
    exact ⟨b, hb, hid, hrec.mono fun z => dead_kill⟩
  placed b hb q hq := (h.placed b hb q hq).mono fun z => dead_kill
  addressed x y m hm := (h.addressed x y m (hsub x y m hm)).mono fun z => dead_kill

/-- What the master sends after it has replaced a chain. -/
lemma notify (h : Topology d σ) {link : Links P (Mail P)} {master : Master P} {out : List (P × Notice P)}
    (hsub : ∀ x y m, m ∈ link x y → m ∈ σ.link x y)
    (hrecord : ∀ id chain, master.bankChains.lookup id = some chain →
      ∃ b ∈ d.banks, b.bankId = id ∧ Recorded σ.Dead b chain)
    (hout : ∀ a ∈ out, Addressed d σ.Dead σ.masterProc a.1 (.notice a.2)) :
    Topology d { σ with
      master := master
      link := link.send σ.masterProc (out.map fun p => (p.1, .notice p.2)) } where
  masterProc := h.masterProc
  members := h.members
  record := hrecord
  placed := h.placed
  addressed x y m hm := by
    rcases (Links.mem_send _ _ _).mp hm with hm | ⟨rfl, hsent⟩
    · exact h.addressed x y m (hsub x y m hm)
    · obtain ⟨a, ha, heq⟩ := List.mem_map.mp hsent
      obtain ⟨rfl, rfl⟩ := Prod.mk.inj heq
      exact hout a ha

theorem step (h : Topology d σ) (hcase : Network.StepCase σ l τ) : Topology d τ := by
  cases hcase with
  | halt others sub => exact h.halt sub
  | @serve src dst m s out out' link crashed server alive origin handle sends ends =>
    obtain ⟨b, hb, hdst⟩ := h.members dst (by simp [Network.Dead, alive]) (h.masterProc ▸ server)
    have hsub (x y : P) (m : Mail P) (hm : m ∈ link x y) : m ∈ σ.link x y := by
      rcases origin with ⟨-, rfl⟩ | ⟨-, rfl⟩
      · exact hm
      · exact Links.mem_of_mem_recv _ _ _ hm
    have hin : Incoming d σ.Dead src dst m := by
      rcases origin with ⟨hclient, -⟩ | ⟨⟨rest, hfront⟩, -⟩
      · exact Or.inl hclient.request
      · exact Or.inr (h.addressed src dst m (hfront ▸ List.mem_cons_self))
    have hold := h.placed b hb dst hdst
    obtain ⟨hplaced, hout⟩ := hold.handle hb hdst hin (Server.handle_case hold.noExtension handle)
    have hdead (z : P) (hz : σ.Dead z) : crashed z = true := by
      rcases ends with ⟨rfl, -⟩ | rfl
      · exact hz
      · exact dead_kill hz
    refine ⟨h.masterProc, fun q hq hne => h.members q (fun hz => hq (hdead q hz)) hne, ?_, ?_, ?_⟩
    · intro id chain hlookup
      obtain ⟨b, hb, hid, hrec⟩ := h.record id chain hlookup
      exact ⟨b, hb, hid, hrec.mono hdead⟩
    · intro b' hb' q hq
      dsimp only
      by_cases hqd : q = dst
      · obtain rfl := hqd
        obtain rfl := Deployment.bank_unique hb hb' hdst hq
        rw [Function.update_self]
        exact hplaced.mono hdead
      · rw [Function.update_of_ne hqd]
        exact (h.placed b' hb' q hq).mono hdead
    · intro x y m' hm'
      rcases (Links.mem_send _ _ _).mp hm' with hm' | ⟨rfl, hsent⟩
      · exact (h.addressed x y m' (hsub x y m' hm')).mono hdead
      · exact (hout _ (sends.subset hsent)).mono hdead
  | @detect bankId node master out dead notify =>
    cases hlookup : σ.master.bankChains.lookup bankId with
    | none => simp [Master.notifyCrash, hlookup] at notify
    | some chain =>
      obtain ⟨b, hb, rfl, hrec⟩ := h.record bankId chain hlookup
      obtain ⟨chain', hrec', rfl, hcase⟩ := hrec.notifyCrash_cases (Deployment.servers_nodup hb) dead hlookup notify
      refine h.notify (fun _ _ _ hm => hm) ?_ ?_
      · intro id c hc
        rw [Master.lookup_setChain] at hc
        split_ifs at hc with hid
        · exact ⟨b, hb, hid.symm, Option.some.inj hc ▸ hrec'⟩
        · exact h.record id c hc
      · cases hcase with
        | head servers tail mem front =>
          refine List.forall_mem_cons.mpr ⟨⟨b, hb, mem, front⟩, List.forall_mem_append.mpr ⟨?_, ?_⟩⟩
          all_goals exact List.forall_mem_map.mpr fun _ _ => trivial
        | tail servers head mem rear =>
          refine List.forall_mem_cons.mpr ⟨⟨b, hb, mem, rear⟩, ?_⟩
          exact List.forall_mem_map.mpr fun _ _ => trivial
        | link servers servers' last first head tail linked => exact List.forall_mem_singleton.mpr ⟨b, hb, linked⟩
  | @order src m rest master out front handle =>
    have hidle (hmaster : some (σ.master, []) = some (master, out)) :
        Topology d { σ with
          master := master
          link := (σ.link.recv src σ.masterProc).send σ.masterProc (out.map fun p => (p.1, .notice p.2)) } := by
      obtain ⟨rfl, rfl⟩ := Prod.mk.inj (Option.some.inj hmaster)
      exact h.notify (fun _ _ _ => Links.mem_of_mem_recv _ _ _) h.record (List.forall_mem_nil _)
    cases m with
    | ackNewPrevServer bankId sn =>
      obtain ⟨out, hack, heq⟩ := Option.map_eq_some_iff.mp handle
      obtain ⟨rfl, rfl⟩ := Prod.mk.inj heq
      cases hlookup : σ.master.bankChains.lookup bankId with
      | none => simp [Master.ackNewPrevServer, hlookup] at hack
      | some chain =>
        obtain ⟨b, hb, rfl, hrec⟩ := h.record bankId chain hlookup
        have hnodup := Deployment.servers_nodup hb
        obtain ⟨q, hadj, rfl⟩ := hrec.ackNewPrevServer_eq hnodup hlookup hack
        exact h.notify (fun _ _ _ => Links.mem_of_mem_recv _ _ _) h.record
          (List.forall_mem_singleton.mpr ⟨b, hb, hrec.remains.linked hnodup hadj⟩)
    | msg msg => exact hidle handle
    | notice notice => exact hidle handle

end Topology

/-! ### The start -/

namespace Deployment

variable {l₁ l₂ : List P}

lemma bankOf_of_mem (hb : b ∈ d.banks) (hp : p ∈ b.servers) : d.bankOf p = some b := by
  cases h : d.bankOf p with
  | none =>
    have hnot := List.find?_eq_none.mp h b hb
    simp [hp] at hnot
  | some b' =>
    have hp' : p ∈ b'.servers := by simpa using List.find?_some h
    rw [bank_unique hb (List.mem_of_find?_eq_some h) hp hp']

/-- A server starts between its neighbours. -/
lemma initServer_split (hb : b ∈ d.banks) (hsplit : b.servers = l₁ ++ p :: l₂) :
    d.initServer p = .setup (l₁.length + 1) b.bankId l₁.getLast? l₂.head? d.master false := by
  have hp : p ∈ b.servers := hsplit ▸ List.mem_append_right _ List.mem_cons_self
  have hnodup := servers_nodup hb
  rw [hsplit, List.nodup_append] at hnodup
  have hidx : b.servers.idxOf p = l₁.length := by
    rw [hsplit, List.idxOf_append_of_notMem fun hmem => hnodup.2.2 p hmem p List.mem_cons_self rfl,
      List.idxOf_cons_self, Nat.add_zero]
  have hprev : (if l₁.length = 0 then none else b.servers[l₁.length - 1]?) = l₁.getLast? := by
    split_ifs with hlen
    · rw [List.length_eq_zero_iff.mp hlen, List.getLast?_nil]
    · rw [hsplit, List.getElem?_append_left (by omega), List.getLast?_eq_getElem?]
  have hsucc : b.servers[l₁.length + 1]? = l₂.head? := by
    rw [hsplit, List.getElem?_append_right (Nat.le_succ _)]
    simp [List.head?_eq_getElem?]
  rw [initServer, bankOf_of_mem hb hp]
  dsimp only
  rw [hidx, hprev, hsucc]

lemma init_placed (hb : b ∈ d.banks) (hp : p ∈ b.servers) (dead : P → Prop) :
    Placed d dead b p (d.initServer p) := by
  obtain ⟨l₁, l₂, hsplit⟩ := List.append_of_mem hp
  have hnodup := servers_nodup hb
  have hremains : List.Remains dead b.servers b.servers := List.Remains.refl
  rw [initServer_split hb hsplit]
  refine ⟨rfl, rfl, rfl, le_rfl, ?_, ?_, ?_, ?_, ?_, ?_, List.forall_mem_nil _⟩
  · intro hhead
    obtain rfl : l₁ = [] := by simpa [Server.setup] using hhead
    exact hremains.front hnodup (by rw [hsplit]; rfl)
  · intro htail
    obtain rfl : l₂ = [] := by simpa [Server.setup] using htail
    exact ⟨hremains.rear hnodup (by rw [hsplit, List.getLast?_append_cons, List.getLast?_singleton]), rfl⟩
  · intro hhead
    simpa [Server.setup, Option.isSome_iff_ne_none] using hhead
  · intro htail
    simpa [Server.setup, Option.isSome_iff_ne_none] using htail
  · intro q hq
    refine hremains.linked hnodup ?_
    rw [hsplit]
    exact List.adjacent_append.mpr (Or.inr (Or.inr ⟨hq, rfl⟩))
  · intro q hq
    refine hremains.linked hnodup ?_
    rw [hsplit]
    exact List.adjacent_append.mpr (Or.inr (Or.inl (List.adjacent_cons.mpr (Or.inl ⟨rfl, hq⟩))))

omit [DecidableEq P] in
lemma chain_recorded (dead : P → Prop) : Recorded dead b b.chain :=
  ⟨List.Remains.refl, List.head?_eq_some_head b.servers_ne_nil, List.getLast?_eq_some_getLast b.servers_ne_nil, rfl⟩

theorem init_topology (d : Deployment P) : Topology d d.init where
  masterProc := rfl
  members p hp hne := by
    cases hbank : d.bankOf p with
    | none => exact absurd (by simp [Network.Dead, init, hne, hbank]) hp
    | some b => exact ⟨b, List.mem_of_find?_eq_some hbank, by simpa using List.find?_some hbank⟩
  record id chain hlookup := by
    obtain ⟨b, hb, hid, rfl⟩ := AList.exists_of_lookup_foldl_insert d.bankIds_nodup hlookup
    exact ⟨b, hb, hid, chain_recorded _⟩
  placed b hb p hp := init_placed hb hp _
  addressed x y := List.forall_mem_nil _

end Deployment

namespace Network

variable {ok : Network P → NetworkLabel P → Prop}

/-- The shape of the system in every run. -/
theorem reach_topology (hrun : Machine.Reach step ok d.init σ) : Topology d σ :=
  hrun.invariant d.init_topology fun _ _ _ h _ hs => h.step (step_cases hs)

end Network

end ChainReplication.DistAlgo
