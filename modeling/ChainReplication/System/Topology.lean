import ChainReplication.System.Steps
import ChainReplication.System.Config
import ChainReplication.Server.Log
import ChainReplication.Library.ListOrder

/-!
# The shape of the chains

Heads have only crashed servers before them and tails only crashed servers behind them; links and
the messages that set links skip crashed servers only. The master's record of a chain misses only
crashed servers.
-/

namespace ChainReplication

open scoped List

/-! ### Positions -/

/-- Every server before `x` in its chain has crashed. -/
def Front (cfg : Config) (σ : System) (x : Address) : Prop :=
  ∀ b ∈ cfg.banks, ∀ z, b.servers.Precedes z x → σ.crashed z = true

/-- Every server behind `x` in its chain has crashed. -/
def Rear (cfg : Config) (σ : System) (x : Address) : Prop :=
  ∀ b ∈ cfg.banks, ∀ z, b.servers.Precedes x z → σ.crashed z = true

/-- `y` stands behind `x` in a chain, and every server between them has crashed. -/
def Linked (cfg : Config) (σ : System) (x y : Address) : Prop :=
  ∃ b ∈ cfg.banks, b.servers.Precedes x y ∧
    ∀ z, b.servers.Precedes x z → b.servers.Precedes z y → σ.crashed z = true

/-- The client of a `TRANSFER_TO` is a tail. -/
def FromTail (σ : System) (q : Request) : Prop :=
  q.type = .transferTo → (σ.server q.clientAddr).istail = true

/-- A message in flight to `dst` says what is true of the chains. -/
def Fits (cfg : Config) (σ : System) (dst : Address) : Message → Prop
  | .toBeHead => Front cfg σ dst
  | .toBeTail => Rear cfg σ dst
  | .newPreServer pre => Linked cfg σ pre dst
  | .newSuccServer r => Linked cfg σ dst r.succAddr
  | .reqSeq r => Linked cfg σ r.preAddr r.succAddr
  | .reply _ => (σ.server dst).istail = true
  | .request q => q.type ≠ .query ∧ FromTail σ q
  | _ => True

/-- Crashed servers stay crashed and tails stay tails. -/
structure Grows (σ σ' : System) : Prop where
  crashed : ∀ x, σ.crashed x = true → σ'.crashed x = true
  tail : ∀ x, (σ.server x).istail = true → (σ'.server x).istail = true

variable {cfg : Config} {σ σ' : System} {x y z : Address}

lemma Front.grows (h : Front cfg σ x) (hg : Grows σ σ') : Front cfg σ' x :=
  fun b hb z hz => hg.crashed z (h b hb z hz)

lemma Rear.grows (h : Rear cfg σ x) (hg : Grows σ σ') : Rear cfg σ' x :=
  fun b hb z hz => hg.crashed z (h b hb z hz)

lemma Linked.grows (h : Linked cfg σ x y) (hg : Grows σ σ') : Linked cfg σ' x y := by
  obtain ⟨b, hb, hxy, hbetween⟩ := h
  exact ⟨b, hb, hxy, fun z hxz hzy => hg.crashed z (hbetween z hxz hzy)⟩

lemma FromTail.grows {q : Request} (h : FromTail σ q) (hg : Grows σ σ') : FromTail σ' q :=
  fun htype => hg.tail _ (h htype)

lemma Fits.grows {m : Message} (h : Fits cfg σ x m) (hg : Grows σ σ') : Fits cfg σ' x m := by
  cases m with
  | toBeHead => exact Front.grows h hg
  | toBeTail => exact Rear.grows h hg
  | newPreServer pre => exact Linked.grows h hg
  | newSuccServer r => exact Linked.grows h hg
  | reqSeq r => exact Linked.grows h hg
  | reply rep => exact hg.tail _ h
  | request q => exact ⟨h.1, h.2.grows hg⟩
  | _ => trivial

/-- The master's record of the bank `b`. -/
structure RecordOk (σ : System) (b : BankConfig) (bsc : BankServerChain) : Prop where
  wf : bsc.Wf
  sub : bsc.serverChain <+ b.servers
  dead : ∀ z ∈ b.servers, z ∉ bsc.serverChain → σ.crashed z = true

/-- The invariant of the systems without joins. -/
structure Topology (cfg : Config) (σ : System) : Prop where
  thread : ∀ x, σ.thread x = []
  extendingChain : ∀ x, (σ.server x).extendingChain = false
  plain : ∀ x y, ∀ m ∈ σ.link x y, m.isExtend = false
  fits : ∀ x y, ∀ m ∈ σ.link x y, Fits cfg σ y m
  master : σ.master.addr = cfg.master
  record : ∀ b ∈ cfg.banks, ∃ bsc, σ.master.bankServerChain.lookup b.bankId = some bsc ∧
    RecordOk σ b bsc
  bank : ∀ id bsc, σ.master.bankServerChain.lookup id = some bsc → ∃ b ∈ cfg.banks, b.bankId = id
  empty : σ.crashed .empty = true
  localAddr : ∀ x, σ.crashed x = false → x ≠ cfg.master → (σ.server x).localAddr = x
  head : ∀ x, (σ.server x).ishead = true → Front cfg σ x
  tail : ∀ x, (σ.server x).istail = true → Rear cfg σ x
  succ : ∀ x, (σ.server x).succServerAddr = .empty ∨ Linked cfg σ x (σ.server x).succServerAddr
  pre : ∀ x, (σ.server x).preServerAddr = .empty ∨ Linked cfg σ (σ.server x).preServerAddr x
  log : ∀ x, (σ.server x).LogWf
  fromTail : ∀ x, ∀ q ∈ (σ.server x).hist, FromTail σ q

namespace Topology

lemma record_ok (h : Topology cfg σ) {id : String} {bsc : BankServerChain}
    (hlookup : σ.master.bankServerChain.lookup id = some bsc) :
    ∃ b ∈ cfg.banks, b.bankId = id ∧ RecordOk σ b bsc := by
  obtain ⟨b, hb, hid⟩ := h.bank id bsc hlookup
  obtain ⟨bsc', hlookup', hok⟩ := h.record b hb
  rw [hid, hlookup] at hlookup'
  obtain rfl := Option.some.inj hlookup'
  exact ⟨b, hb, hid, hok⟩

lemma toPlain (h : Topology cfg σ) : σ.Plain where
  thread := h.thread
  link := h.plain
  extendingChain := h.extendingChain
  record := by
    intro id bsc hlookup
    obtain ⟨b, -, -, hok⟩ := h.record_ok hlookup
    exact hok.wf

/-! ### The initial state -/

lemma linked_of_split {b : BankConfig} {l₁ l₂ : List Address} (hb : b ∈ cfg.banks)
    (h : b.servers = l₁ ++ x :: y :: l₂) : Linked cfg σ x y := by
  refine ⟨b, hb, ?_, ?_⟩
  · rw [h]
    exact List.precedes_of_adjacent
  · intro z hxz hzy
    exact absurd hzy (List.not_between_of_adjacent h (Config.servers_nodup hb) hxz)

theorem init (cfg : Config) : Topology cfg cfg.init where
  thread _ := rfl
  extendingChain x := Config.initServer_cases (P := fun s => s.extendingChain = false) x rfl
    fun _ _ _ => rfl
  plain _ _ _ hm := by simp [Config.init] at hm
  fits _ _ _ hm := by simp [Config.init] at hm
  master := rfl
  record b hb := by
    refine ⟨_, Config.initMaster_lookup hb, Config.init_record_wf hb, List.Sublist.refl _, ?_⟩
    intro z hz hnot
    exact absurd hz hnot
  bank id bsc hlookup := by
    obtain ⟨b, hb, hid, -⟩ := Config.of_initMaster_lookup hlookup
    exact ⟨b, hb, hid⟩
  empty := Config.init_empty_crashed
  localAddr x hlive hne := by
    have hbank : (cfg.bankOf x).isSome := by simpa [Config.init, hne, Option.isSome_iff_ne_none]
      using hlive
    obtain ⟨b, hb⟩ := Option.isSome_iff_exists.mp hbank
    simp [Config.init, Config.initServer, hb]
  head x := Config.initServer_cases (P := fun s => s.ishead = true → Front cfg cfg.init x) x
    (by simp) fun b hb ha hhead b' hb' z hz => by
      have hhead : b.servers.head? = some x := by simpa using hhead
      obtain rfl := Config.bank_unique_servers hb hb' (List.mem_of_head? hhead) hz.right_mem
      exact absurd hz (List.not_precedes_head (Config.servers_nodup hb) hhead)
  tail x := Config.initServer_cases (P := fun s => s.istail = true → Rear cfg cfg.init x) x
    (by simp) fun b hb ha htail b' hb' z hz => by
      have htail : b.servers.getLast? = some x := by simpa using htail
      obtain rfl := Config.bank_unique_servers hb hb' (List.mem_of_getLast? htail) hz.left_mem
      exact absurd hz (List.not_precedes_getLast (Config.servers_nodup hb) htail)
  succ x := Config.initServer_cases (P := fun s => s.succServerAddr = .empty ∨
    Linked cfg cfg.init x s.succServerAddr) x (Or.inl rfl) fun b hb ha => by
      cases hnext : BankServerChain.nextOf x b.servers with
      | none => exact Or.inl (by simp)
      | some y =>
        obtain ⟨l₁, l₂, hl⟩ := BankServerChain.nextOf_eq_some hnext
        exact Or.inr (linked_of_split hb (by simpa using hl))
  pre x := Config.initServer_cases (P := fun s => s.preServerAddr = .empty ∨
    Linked cfg cfg.init s.preServerAddr x) x (Or.inl rfl) fun b hb ha => by
      cases hprev : BankServerChain.prevOf x b.servers with
      | none => exact Or.inl (by simp)
      | some y =>
        obtain ⟨l₁, l₂, hl⟩ := BankServerChain.prevOf_eq_some hprev
        exact Or.inr (linked_of_split hb (by simpa using hl))
  log x := by
    have hfresh (s : ChainServer) (h : s.hist = []) (h' : s.bankUpdateSeq = 0)
        (h'' : s.sentList = []) : s.LogWf :=
      ⟨by simp [h], by simp [h, h'], by simp [h], by simp [h, h''], by simp [h, h'']⟩
    exact Config.initServer_cases (P := ChainServer.LogWf) x (hfresh _ rfl rfl rfl)
      fun _ _ _ => hfresh _ rfl rfl rfl
  fromTail x := by
    refine Config.initServer_cases (P := fun s => ∀ q ∈ s.hist, FromTail cfg.init q) x ?_ ?_
    · simp
    · simp

/-! ### Steps that leave the servers alone -/

/-- Crashes and steps of the master. -/
lemma frame (h : Topology cfg σ) (server : σ'.server = σ.server) (thread : σ'.thread = σ.thread)
    (crashed : ∀ x, σ.crashed x = true → σ'.crashed x = true)
    (link : ∀ x y, ∀ m ∈ σ'.link x y,
      m ∈ σ.link x y ∨ m.isExtend = false ∧ Fits cfg σ y m)
    (master : σ'.master.addr = σ.master.addr)
    (record : ∀ b ∈ cfg.banks, ∃ bsc, σ'.master.bankServerChain.lookup b.bankId = some bsc ∧
      RecordOk σ' b bsc)
    (bank : ∀ id bsc, σ'.master.bankServerChain.lookup id = some bsc →
      ∃ b ∈ cfg.banks, b.bankId = id) : Topology cfg σ' := by
  have hg : Grows σ σ' := ⟨crashed, by rw [server]; exact fun _ h => h⟩
  refine {
    thread := by rw [thread]; exact h.thread
    extendingChain := by rw [server]; exact h.extendingChain
    plain := ?_, fits := ?_
    master := by rw [master]; exact h.master
    record := record, bank := bank
    empty := crashed _ h.empty
    localAddr := ?_
    head := by rw [server]; exact fun x hx => (h.head x hx).grows hg
    tail := by rw [server]; exact fun x hx => (h.tail x hx).grows hg
    succ := by rw [server]; exact fun x => (h.succ x).imp id fun hx => hx.grows hg
    pre := by rw [server]; exact fun x => (h.pre x).imp id fun hx => hx.grows hg
    log := by rw [server]; exact h.log
    fromTail := by rw [server]; exact fun x q hq => (h.fromTail x q hq).grows hg }
  · intro x y m hm
    rcases link x y m hm with hm | ⟨hplain, -⟩
    · exact h.plain x y m hm
    · exact hplain
  · intro x y m hm
    rcases link x y m hm with hm | ⟨-, hfits⟩
    · exact (h.fits x y m hm).grows hg
    · exact hfits.grows hg
  · intro x hlive hne
    rw [server]
    refine h.localAddr x ?_ hne
    by_contra hdead
    rw [crashed x (by simpa using hdead)] at hlive
    simp at hlive

lemma record_mono (h : Topology cfg σ) (master : σ'.master = σ.master)
    (crashed : ∀ x, σ.crashed x = true → σ'.crashed x = true) :
    ∀ b ∈ cfg.banks, ∃ bsc, σ'.master.bankServerChain.lookup b.bankId = some bsc ∧
      RecordOk σ' b bsc := by
  intro b hb
  obtain ⟨bsc, hlookup, hok⟩ := h.record b hb
  rw [master]
  exact ⟨bsc, hlookup, hok.wf, hok.sub, fun z hz hnot => crashed z (hok.dead z hz hnot)⟩

lemma kill (h : Topology cfg σ) (x : Address) : Topology cfg (σ.kill x) := by
  have hcrashed : ∀ y, σ.crashed y = true → (σ.kill x).crashed y = true := by
    intro y hy
    by_cases hyx : y = x
    · simp [System.kill, hyx]
    · simpa [System.kill, hyx] using hy
  exact h.frame rfl rfl hcrashed (fun _ _ _ hm => Or.inl hm) rfl (h.record_mono rfl hcrashed) h.bank

lemma ignore (h : Topology cfg σ) (src dst : Address) :
    Topology cfg { σ with link := σ.link.recv src dst } :=
  h.frame rfl rfl (fun _ hx => hx) (fun _ _ _ hm => Or.inl (Links.mem_of_mem_recv _ _ _ hm)) rfl
    (h.record_mono rfl fun _ hx => hx) h.bank

lemma relink (h : Topology cfg σ) {src dst : Address} {r : Reqseq} {rest : List Message}
    (head : σ.link src dst = .reqSeq r :: rest) :
    Topology cfg ({ σ with link := σ.link.recv src dst }.emit dst
      [.tcp r.preAddr (.newSuccServer r)]) := by
  refine h.frame rfl rfl (fun _ hx => hx) ?_ rfl (h.record_mono rfl fun _ hx => hx) h.bank
  intro x y m hm
  simp only [System.emit, Links.mem_send] at hm
  rcases hm with hm | ⟨rfl, hm⟩
  · exact Or.inl (Links.mem_of_mem_recv _ _ _ hm)
  · obtain ⟨rfl, rfl⟩ := by simpa using hm
    exact Or.inr ⟨rfl, h.fits src x (.reqSeq r) (by rw [head]; exact List.mem_cons_self)⟩

/-- In a recorded chain, only the crashed server and crashed servers stand in the way. -/
lemma notice_fits {b : BankConfig} (hb : b ∈ cfg.banks)
    {bsc : BankServerChain} (hok : RecordOk σ b bsc) {node : Address}
    (hdead : σ.crashed node = true) {m : Message} (hm : Master.CrashNotice bsc node y m) :
    Fits cfg σ y m := by
  have hnodup := Config.servers_nodup hb
  have hin {z : Address} (hz : z ∈ bsc.serverChain) : z ∈ b.servers := hok.sub.subset hz
  -- a live server of the chain is in the record and is not the crashed one
  have recorded {z : Address} (hz : z ∈ b.servers) (hlive : ¬ σ.crashed z = true) :
      z ∈ bsc.serverChain ∧ z ≠ node := by
    constructor
    · by_contra hnot
      exact hlive (hok.dead z hz hnot)
    · rintro rfl
      exact hlive hdead
  cases hm with
  | toBeHead chain =>
    intro b' hb' z hz
    obtain rfl := Config.bank_unique_servers hb hb' (hin (by simp [chain])) hz.right_mem
    by_contra hlive
    obtain ⟨hmem, hne⟩ := recorded hz.left_mem hlive
    have hzy := hz.restrict hnodup hok.sub hmem (by simp [chain])
    have hnz := List.precedes_of_head? (x := node) (by simp [chain]) hmem hne.symm
    have hsplit : bsc.serverChain = [] ++ _ := chain
    exact List.not_between_of_adjacent hsplit hok.wf.nodup hnz hzy
  | @toBeTail l chain =>
    intro b' hb' z hz
    obtain rfl := Config.bank_unique_servers hb hb' (hin (by simp [chain])) hz.left_mem
    by_contra hlive
    obtain ⟨hmem, hne⟩ := recorded hz.right_mem hlive
    have hyz := hz.restrict hnodup hok.sub (by simp [chain]) hmem
    have hzn := List.precedes_of_getLast? (y := node) (by simp [chain]) hmem hne
    have hsplit : bsc.serverChain = l ++ y :: node :: [] := chain
    exact List.not_between_of_adjacent hsplit hok.wf.nodup hyz hzn
  | @newPreServer pre l₁ l₂ chain =>
    have hsplit : bsc.serverChain = (l₁ ++ [pre]) ++ node :: y :: l₂ := by simp [chain]
    have hpn : bsc.serverChain.Precedes pre node := by
      rw [chain]
      exact List.precedes_of_adjacent
    have hny : bsc.serverChain.Precedes node y := by
      rw [hsplit]
      exact List.precedes_of_adjacent
    refine ⟨b, hb, (hpn.trans hok.wf.nodup hny).of_sublist hok.sub, ?_⟩
    intro z hpz hzy
    by_contra hlive
    obtain ⟨hmem, hne⟩ := recorded hpz.right_mem hlive
    have hpz := hpz.restrict hnodup hok.sub hpn.left_mem hmem
    have hzy := hzy.restrict hnodup hok.sub hmem hny.right_mem
    rcases List.precedes_total hmem hpn.right_mem hne with hzn | hnz
    · exact List.not_between_of_adjacent chain hok.wf.nodup hpz hzn
    · exact List.not_between_of_adjacent hsplit hok.wf.nodup hnz hzy
  | newHead => trivial

lemma detect (h : Topology cfg σ) {id : String} {node : Address} {bsc : BankServerChain}
    {m : Master} {out : List Packet} (hdead : σ.crashed node = true)
    (hlookup : σ.master.bankServerChain.lookup id = some bsc)
    (hcase : Master.CrashCase σ.master id node bsc m out) :
    Topology cfg ({ σ with master := m }.emit σ.master.addr out) := by
  obtain ⟨b, hb, rfl, hok⟩ := h.record_ok hlookup
  obtain ⟨bsc', rfl, hwf, hchain⟩ := hcase.record hok.wf
  refine h.frame rfl rfl (fun _ hx => hx) ?_ rfl ?_ ?_
  · intro x y msg hm
    simp only [System.emit, Links.mem_send] at hm
    rcases hm with hm | ⟨rfl, hm⟩
    · exact Or.inl hm
    · obtain ⟨p, hp, hm⟩ := List.mem_filterMap.mp hm
      have hnotice := hcase.notice hp hm
      refine Or.inr ⟨?_, notice_fits hb hok hdead hnotice⟩
      cases hnotice <;> rfl
  · intro b' hb'
    by_cases hid : b'.bankId = b.bankId
    · obtain rfl : b' = b := List.inj_on_of_nodup_map cfg.bankIds_nodup hb' hb hid
      refine ⟨bsc', AList.lookup_insert _, hwf, ?_, ?_⟩
      · rw [hchain]
        exact List.erase_sublist.trans hok.sub
      · intro z hz hnot
        rw [hchain] at hnot
        by_cases hzn : z = node
        · rw [hzn]
          exact hdead
        · exact hok.dead z hz fun hmem => hnot ((List.mem_erase_of_ne hzn).mpr hmem)
    · obtain ⟨bsc'', hlookup'', hok''⟩ := h.record b' hb'
      refine ⟨bsc'', ?_, hok''.wf, hok''.sub, hok''.dead⟩
      exact (AList.lookup_insert_ne hid).trans hlookup''
  · intro id bsc'' hlookup''
    by_cases hid : id = b.bankId
    · exact ⟨b, hb, hid.symm⟩
    · exact h.bank id bsc'' ((AList.lookup_insert_ne hid).symm.trans hlookup'')

/-! ### A server serves a message -/

section Serve

variable {msg m : Message} {L : Links Address Message} {out : List Packet}

/-- A message that a server takes up fits, unless it comes from a client. -/
lemma taken_fits (h : Topology cfg σ) (ht : System.Taken σ x msg L) :
    Fits cfg σ x msg ∨
      ∃ req, msg = .request req ∧ req.bankUpdateSeq = 0 ∧ req.type ≠ .transferTo := by
  rcases ht.origin with ⟨src, hm⟩ | hclient
  · exact Or.inl (h.fits src x msg hm)
  · exact Or.inr hclient

lemma taken_reply (h : Topology cfg σ) {rep : Reply} (ht : System.Taken σ x (.reply rep) L) :
    (σ.server x).istail = true := by
  rcases h.taken_fits ht with hfits | ⟨_, hreq, -⟩
  · exact hfits
  · simp at hreq

lemma taken_fromTail (h : Topology cfg σ) {req : Request}
    (ht : System.Taken σ x (.request req) L) : FromTail σ req := by
  rcases h.taken_fits ht with hfits | ⟨_, hreq, -, htype⟩
  · exact hfits.2
  · obtain rfl := by simpa using hreq
    exact fun hto => absurd hto htype

variable (h : Topology cfg σ) (ht : System.Taken σ x msg L) (hs : System.Serve σ x msg L out σ')
include h ht hs

lemma serve_grows : Grows σ σ' := by
  refine ⟨fun y => hs.crashed_mono, fun y hy => ?_⟩
  by_cases hyx : y = x
  · subst hyx
    exact ((hs.roleStep h.toPlain ht).tail).mpr (Or.inl hy)
  · rwa [hs.server_of_ne hyx]

lemma serve_log : (σ'.server x).LogWf := by
  have hrole := hs.roleStep h.toPlain ht
  rw [hs.server_self] at hrole ⊢
  refine (h.log x).step (ht.logStep h.toPlain) hrole.tail ?_
  rintro rep rfl
  exact h.taken_reply ht

/-- What the history gains is the request that is being served. -/
lemma serve_hist {q : Request} (hq : q ∈ (σ'.server x).hist) :
    q ∈ (σ.server x).hist ∨ ∃ req, msg = .request req ∧ q = (σ.server x).answered req := by
  have hlog := ht.logStep h.toPlain
  rw [hs.server_self] at hq
  cases hlog with
  | keep hist => exact Or.inl (hist ▸ hq)
  | relay type tail next hist | answer type tail next hist =>
    rw [hist, List.mem_append, List.mem_singleton] at hq
    exact hq.imp id fun hq => ⟨_, rfl, hq⟩
  | ack hist => exact Or.inl (hist ▸ hq)
  | toBeTail hist => exact Or.inl (hist ▸ hq)
  | reply hist => exact Or.inl (hist ▸ hq)
  | resend hist => exact Or.inl (hist ▸ hq)

lemma serve_fromTail {q : Request} (hq : q ∈ (σ'.server x).hist) : FromTail σ' q := by
  have hg := h.serve_grows ht hs
  rcases h.serve_hist ht hs hq with hq | ⟨req, rfl, rfl⟩
  · exact (h.fromTail x q hq).grows hg
  · intro htype
    rw [ChainServer.answered_type] at htype
    rw [ChainServer.answered_clientAddr]
    exact hg.tail _ (h.taken_fromTail ht htype)

omit ht in
lemma serve_localAddr : (σ.server x).localAddr = x :=
  h.localAddr x hs.live fun hx => hs.ne_master (by rw [hx, h.master])

/-- The packets of a handler fit. -/
lemma serve_fits
    (hm : ChainServer.PacketSpec σ.master.addr (σ.server x) msg (σ'.server x) y m) :
    m.isExtend = false ∧ Fits cfg σ' y m := by
  have hg := h.serve_grows ht hs
  have hrole := hs.roleStep h.toPlain ht
  have hlog := h.serve_log ht hs
  cases m with
  | request q =>
    refine ⟨rfl, ?_⟩
    rcases hm with ⟨htail, q, -, rfl⟩ | ⟨-, hsent, -⟩
    · refine ⟨by simp [ChainServer.transferToReq], fun _ => ?_⟩
      change (σ'.server (σ'.server x).localAddr).istail = true
      rw [hrole.localAddr, h.serve_localAddr hs]
      exact htail
    · have hq := hlog.mem_hist hsent
      exact ⟨hlog.update q hq, h.serve_fromTail ht hs hq⟩
  | acknowledge a => exact ⟨rfl, trivial⟩
  | reply rep =>
    refine ⟨rfl, ?_⟩
    obtain ⟨q, htype, rfl, hq⟩ := hm
    rcases hq with hq | hq
    · exact h.serve_fromTail ht hs hq htype
    · exact hg.tail _ (h.fromTail x q ((h.log x).mem_hist hq) htype)
  | reqSeq r =>
    refine ⟨rfl, ?_⟩
    obtain ⟨-, rfl, hsucc, -⟩ := hm
    rcases h.taken_fits ht with hfits | ⟨_, hreq, -⟩
    · rw [h.serve_localAddr hs] at hsucc
      have hlinked : Linked cfg σ r.preAddr x := hfits
      rw [← hsucc] at hlinked
      exact hlinked.grows hg
    · simp at hreq
  | _ => exact hm.elim

theorem serve : Topology cfg σ' := by
  have hg := h.serve_grows ht hs
  have hrole := hs.roleStep h.toPlain ht
  have hlive : ∀ y, σ'.crashed y = false → σ.crashed y = false := fun y => hs.live_of_live
  refine {
    thread := by rw [hs.thread]; exact h.thread
    extendingChain := ?_, plain := ?_, fits := ?_
    master := by rw [hs.master]; exact h.master
    record := h.record_mono hs.master hg.crashed
    bank := by rw [hs.master]; exact h.bank
    empty := hg.crashed _ h.empty
    localAddr := ?_, head := ?_, tail := ?_, succ := ?_, pre := ?_, log := ?_, fromTail := ?_ }
  · intro y
    by_cases hyx : y = x
    · rw [hyx, hrole.extendingChain]
      exact h.extendingChain x
    · rw [hs.server_of_ne hyx]
      exact h.extendingChain y
  · intro y z m hm
    rcases hs.mem_link_spec h.toPlain ht hm with hm | ⟨rfl, hm⟩
    · exact h.plain y z m hm
    · exact (h.serve_fits ht hs hm).1
  · intro y z m hm
    rcases hs.mem_link_spec h.toPlain ht hm with hm | ⟨rfl, hm⟩
    · exact (h.fits y z m hm).grows hg
    · exact (h.serve_fits ht hs hm).2
  · intro y hy hne
    by_cases hyx : y = x
    · rw [hyx, hrole.localAddr]
      exact h.serve_localAddr hs
    · rw [hs.server_of_ne hyx]
      exact h.localAddr y (hlive y hy) hne
  · intro y hy
    by_cases hyx : y = x
    · subst hyx
      rcases hrole.head.mp hy with hy | rfl
      · exact (h.head y hy).grows hg
      · rcases h.taken_fits ht with hfits | ⟨_, hreq, -⟩
        · exact Front.grows hfits hg
        · simp at hreq
    · rw [hs.server_of_ne hyx] at hy
      exact (h.head y hy).grows hg
  · intro y hy
    by_cases hyx : y = x
    · subst hyx
      rcases hrole.tail.mp hy with hy | rfl
      · exact (h.tail y hy).grows hg
      · rcases h.taken_fits ht with hfits | ⟨_, hreq, -⟩
        · exact Rear.grows hfits hg
        · simp at hreq
    · rw [hs.server_of_ne hyx] at hy
      exact (h.tail y hy).grows hg
  · intro y
    by_cases hyx : y = x
    · subst hyx
      rcases hrole.succ with hsame | ⟨r, rfl, hr⟩
      · rw [hsame]
        exact (h.succ y).imp id fun hy => hy.grows hg
      · rcases h.taken_fits ht with hfits | ⟨_, hreq, -⟩
        · rw [hr]
          exact Or.inr (Linked.grows hfits hg)
        · simp at hreq
    · rw [hs.server_of_ne hyx]
      exact (h.succ y).imp id fun hy => hy.grows hg
  · intro y
    by_cases hyx : y = x
    · subst hyx
      rcases hrole.pre with hsame | hpre
      · rw [hsame]
        exact (h.pre y).imp id fun hy => hy.grows hg
      · rcases h.taken_fits ht with hfits | ⟨_, hreq, -⟩
        · rw [hpre] at hfits
          exact Or.inr (Linked.grows hfits hg)
        · rw [hpre] at hreq
          simp at hreq
    · rw [hs.server_of_ne hyx]
      exact (h.pre y).imp id fun hy => hy.grows hg
  · intro y
    by_cases hyx : y = x
    · rw [hyx]
      exact h.serve_log ht hs
    · rw [hs.server_of_ne hyx]
      exact h.log y
  · intro y q hq
    by_cases hyx : y = x
    · subst hyx
      exact h.serve_fromTail ht hs hq
    · rw [hs.server_of_ne hyx] at hq
      exact (h.fromTail y q hq).grows hg

end Serve

/-! ### Runs -/

theorem step (h : Topology cfg σ) {l : Label} (hcase : System.StepCase σ l σ') :
    Topology cfg σ' := by
  cases hcase with
  | serve ht hs => exact h.serve ht hs
  | crash => exact h.kill _
  | relink live head => exact h.relink head
  | ignore live => exact h.ignore _ _
  | detect live dead lookup mem case => exact h.detect dead lookup case

theorem reach {ok : System → Label → Prop} (hok : ∀ σ l, ok σ l → System.NoJoin σ l)
    (h : Machine.Reach System.step ok cfg.init σ) : Topology cfg σ :=
  h.invariant (Topology.init cfg) fun _ l _ h hl hs =>
    h.step (System.step_cases h.toPlain (hok _ l hl) hs)

/-- What holds of every server at the start and is kept by every handler holds of every server. -/
theorem servers {ok : System → Label → Prop} (hok : ∀ σ l, ok σ l → System.NoJoin σ l)
    (hrun : Machine.Reach System.step ok cfg.init σ) {I : ChainServer → Prop}
    (init : ∀ x, I (cfg.initServer x))
    (keep : ∀ σ l x msg e, ok σ l → (σ.server x).LogWf → σ.delivery l = some (x, msg) →
      ChainServer.LogStep (σ.server x) msg e → ChainServer.RoleStep (σ.server x) msg e.server →
      (∀ rep, msg = .reply rep → (σ.server x).istail = true) → I (σ.server x) → I e.server)
    (x : Address) : I (σ.server x) := by
  refine hrun.invariant_of (I := fun σ => ∀ x, I (σ.server x)) (fun _ hu => reach hok hu) init ?_ x
  intro σ l σ' h ht _ hl hs x
  cases System.step_cases ht.toPlain (hok _ _ hl) hs with
  | @serve _ y msg L out _ taken serve hdelivery =>
    by_cases hxy : x = y
    · subst hxy
      have hrole := serve.roleStep ht.toPlain taken
      rw [serve.server_self] at hrole ⊢
      apply keep σ l x msg _ hl (ht.log x) hdelivery (taken.logStep ht.toPlain) hrole ?_ (h x)
      rintro rep rfl
      exact ht.taken_reply taken
    · rw [serve.server_of_ne hxy]
      exact h x
  | crash => exact h x
  | relink => exact h x
  | ignore => exact h x
  | detect => exact h x

end Topology

end ChainReplication
