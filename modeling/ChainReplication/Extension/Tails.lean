import ChainReplication.Extension.Orders

/-!
# One acting tail

`FIN` hands the role of the tail over to the joining server. The master learns of it from
`EXTEND_FINISH`. If the old tail crashes and the master finds out in between, it tells the server before
the old tail to act as the tail as well, and nobody takes the role back from the joining server.
-/

namespace ChainReplication

open scoped List

/-- The joining server of the bank is alive, and it is the tail or `FIN` is on its way to it. -/
def Granted (b : BankConfig) (σ : System) : Prop :=
  ∃ y, Joiner b σ y ∧ σ.crashed y = false ∧
    ((σ.server y).istail = true ∨ ∃ x, .extendMsg .fin ∈ σ.link x y)

/-- Once the joining server has been granted the role, no live server of the old chain acts as the tail
or is told to. -/
def TailYields (cfg : Config) (b : BankConfig) (σ : System) : Prop :=
  Granted b σ → ∀ x ∈ b.servers, σ.crashed x = false →
    (σ.server x).istail = false ∧ .toBeTail ∉ σ.link cfg.master x

/-- At most one live server of the bank acts as the tail. -/
def SingleTail (b : BankConfig) (σ : System) : Prop :=
  ∀ x ∈ b.servers ++ b.extendServers, ∀ y ∈ b.servers ++ b.extendServers,
    σ.crashed x = false → σ.crashed y = false →
      (σ.server x).istail = true → (σ.server y).istail = true → x = y

namespace System

/-- When the master handles the crash of the recorded tail, the joining server, if it is alive, has not
been granted the role. -/
def HandoffDone (cfg : Config) (σ : System) : Label → Prop
  | .detect id node => ∀ b ∈ cfg.banks, b.bankId = id →
      ∀ bsc ∈ σ.master.bankServerChain.lookup id, node = bsc.tail →
        σ.crashed bsc.extending = false → (σ.server bsc.extending).istail = false ∧
          ∀ x ∈ b.servers, .extendMsg .fin ∉ σ.link x bsc.extending
  | _ => True

instance (cfg : Config) (σ : System) (l : Label) : Decidable (HandoffDone cfg σ l) :=
  match l with
  | .detect id node => inferInstanceAs (Decidable (∀ b ∈ cfg.banks, b.bankId = id →
      ∀ bsc ∈ σ.master.bankServerChain.lookup id, node = bsc.tail →
        σ.crashed bsc.extending = false → (σ.server bsc.extending).istail = false ∧
          ∀ x ∈ b.servers, .extendMsg .fin ∉ σ.link x bsc.extending))
  | .client .. | .deliver .. | .crash _ | .join _ | .snapshot .. | .extendSend .. | .extendFin .. =>
    inferInstanceAs (Decidable True)

end System

instance (b : BankConfig) (σ : System) : Decidable (SingleTail b σ) :=
  inferInstanceAs (Decidable (∀ x ∈ b.servers ++ b.extendServers, ∀ y ∈ b.servers ++ b.extendServers,
    σ.crashed x = false → σ.crashed y = false →
      (σ.server x).istail = true → (σ.server y).istail = true → x = y))

variable {cfg : Config} {b : BankConfig} {σ σ' τ : System} {l : Label} {x y z src : Address}
  {msg m : Message} {L : Links Address Message} {out : List Packet}

/-- Nobody is granted the role anew. -/
lemma Granted.back (h : Granted b σ') (joiner : ∀ y, Joiner b σ' y → Joiner b σ y)
    (live : ∀ x, σ'.crashed x = false → σ.crashed x = false)
    (tail : ∀ y, (σ'.server y).istail = true → (σ.server y).istail = true)
    (fin : ∀ x y, .extendMsg .fin ∈ σ'.link x y → .extendMsg .fin ∈ σ.link x y) : Granted b σ := by
  obtain ⟨y, hy, hlive, hrole⟩ := h
  exact ⟨y, joiner y hy, live y hlive, hrole.imp (tail y) (Exists.imp fun x => fin x y)⟩

/-- Two live servers of the old chain do not both have only crashed servers behind them. -/
lemma Rear.unique (hb : b ∈ cfg.banks) (hx : x ∈ b.servers) (hy : y ∈ b.servers)
    (hxlive : σ.crashed x = false) (hylive : σ.crashed y = false) (hxrear : Rear cfg σ x)
    (hyrear : Rear cfg σ y) : x = y := by
  by_contra hne
  rcases List.precedes_total hx hy hne with h | h
  · rw [hxrear b hb y h] at hylive
    cases hylive
  · rw [hyrear b hb x h] at hxlive
    cases hxlive

namespace Extending

variable (he : Extending cfg σ) (hb : b ∈ cfg.banks)
include he hb

/-- The joining server is a tail since `FIN`. -/
lemma tail_cases (hx : x ∈ b.servers ++ b.extendServers) (htail : (σ.server x).istail = true) :
    x ∈ b.servers ∧ Rear cfg σ x ∨ Joiner b σ x := by
  obtain ⟨b', hb', hcase⟩ := he.tail x htail
  have hx' : x ∈ b'.servers ++ b'.extendServers := by
    rcases hcase with hcase | hcase
    · exact List.mem_append_left _ hcase.1
    · exact List.mem_append_right _ hcase.1
  obtain rfl := Config.bank_unique hb hb' hx hx'
  exact hcase

lemma rear_of_tail (hx : x ∈ b.servers) (htail : (σ.server x).istail = true) : Rear cfg σ x := by
  rcases he.tail_cases hb (List.mem_append_left _ hx) htail with h | h
  · exact h.2
  · exact absurd hx (Recorded.joiner_notMem hb h.1)

omit hb in
lemma rear_of_toBeTail (hin : .toBeTail ∈ σ.link y x) : Rear cfg σ x := by
  obtain ⟨-, b', hb', hx', hrear⟩ := he.fits y x _ hin
  exact hrear

/-- `FIN` goes from the old chain to the joining server. -/
lemma fin_source (hy : y ∈ b.extendServers) (hin : .extendMsg .fin ∈ σ.link x y) :
    x ∈ b.servers ∧ Joiner b σ y := by
  obtain ⟨b', hb', hx, hjoiner⟩ := he.fits x y _ hin
  obtain rfl := Config.bank_unique hb hb' (List.mem_append_right _ hy)
    (List.mem_append_right _ hjoiner.1)
  exact ⟨hx, hjoiner⟩

end Extending

namespace TailYields

lemma init : TailYields cfg b cfg.init := by
  rintro ⟨y, ⟨-, e, he, -⟩, -⟩
  simp [Config.init] at he

/-- Steps that grant nobody the role. -/
lemma frame (h : TailYields cfg b σ) (granted : Granted b σ' → Granted b σ)
    (live : ∀ x, σ'.crashed x = false → σ.crashed x = false)
    (tail : ∀ x, (σ'.server x).istail = true → (σ.server x).istail = true)
    (order : ∀ x ∈ b.servers, .toBeTail ∈ σ'.link cfg.master x →
      .toBeTail ∈ σ.link cfg.master x) : TailYields cfg b σ' := by
  intro hgranted x hx hlive
  obtain ⟨htail, hno⟩ := h (granted hgranted) x hx (live x hlive)
  refine ⟨?_, fun hin => hno (order x hx hin)⟩
  by_contra hnew
  rw [tail x (by simpa using hnew)] at htail
  cases htail

lemma kill (h : TailYields cfg b σ) (x : Address) : TailYields cfg b (σ.kill x) := by
  have live (y : Address) (hy : (σ.kill x).crashed y = false) : σ.crashed y = false := by
    by_cases hyx : y = x
    · simp [System.kill, hyx] at hy
    · simpa [System.kill, hyx] using hy
  exact h.frame (fun hg => hg.back (fun _ => id) live (fun _ => id) fun _ _ => id) live
    (fun _ => id) fun _ _ => id

lemma drop (h : TailYields cfg b σ) (src dst : Address) :
    TailYields cfg b { σ with link := σ.link.recv src dst } := by
  have hold {m : Message} (x y : Address) (hm : m ∈ σ.link.recv src dst x y) : m ∈ σ.link x y :=
    Links.mem_of_mem_recv _ _ _ hm
  exact h.frame (fun hg => hg.back (fun _ => id) (fun _ => id) (fun _ => id) hold) (fun _ => id)
    (fun _ => id) fun x _ => hold cfg.master x

lemma setThreads (h : TailYields cfg b σ) (s : Address) (ts : List ExtendThread) :
    TailYields cfg b (σ.setThreads s ts) := h

/-- Packets that have nothing to do with the role of the tail. -/
lemma emit (h : TailYields cfg b σ) (a : Address) {S : Address → ChainServer} {M : Master}
    (hS : ∀ x, (S x).istail = true → (σ.server x).istail = true)
    (hout : ∀ p ∈ out, ∀ t m, p.tcp? = some (t, m) →
      m ≠ .toBeTail ∧ m ≠ .extendMsg .fin ∧ ∀ y, m ≠ .extendServer y) :
    TailYields cfg b ({ σ with server := S, master := M }.emit a out) := by
  have hsent {x y : Address} {m : Message}
      (hm : m ∈ ({ σ with server := S, master := M }.emit a out).link x y) :
      m ∈ σ.link x y ∨ ∃ p ∈ out, p.tcp? = some (y, m) := by
    simp only [System.emit, Links.mem_send] at hm
    exact hm.imp id fun hm => List.mem_filterMap.mp hm.2
  have joiner (y : Address) (hy : Joiner b ({ σ with server := S, master := M }.emit a out) y) :
      Joiner b σ y := by
    obtain ⟨hmem, e, he, hy⟩ := hy
    refine ⟨hmem, e, (List.mem_append.mp he).resolve_right fun he => ?_, hy⟩
    obtain ⟨p, hp, rfl⟩ := List.mem_map.mp he
    cases p with
    | tcp t n =>
      cases n with
      | extendServer z => exact (hout _ hp t _ (Packet.tcp?_tcp _ _)).2.2 z rfl
      | _ => cases hy
    | _ => cases hy
  refine h.frame (fun hg => hg.back joiner (fun _ => id) hS ?_) (fun _ => id) hS ?_
  · intro x y hm
    refine (hsent hm).resolve_right ?_
    rintro ⟨p, hp, htcp⟩
    exact (hout p hp y _ htcp).2.1 rfl
  · intro x _ hm
    refine (hsent hm).resolve_right ?_
    rintro ⟨p, hp, htcp⟩
    exact (hout p hp x _ htcp).1 rfl

/-! ### A server serves a message -/

section Serve

variable (he : Extending cfg σ) (hb : b ∈ cfg.banks) (taken : System.Taken σ z msg L)
  (hs : System.Serve σ z msg L out τ)
include he hb taken hs

omit he hb in
lemma serve_link (hin : m ∈ (τ.spawn z msg).link x y) (hm : ∀ s, ¬ ChainServer.Sends
    σ.master.addr s msg y m) : m ∈ σ.link x y := by
  rw [System.spawn_link] at hin
  rcases hs.mem_link taken hin with hin | ⟨rfl, p, hp, htcp⟩
  · exact hin
  · exact absurd (Extending.serve_sends hs hp htcp) (hm _)

/-- A joining server becomes a tail by the `FIN` that was on its way to it. -/
lemma serve_granted (hg : Granted b (τ.spawn z msg)) : Granted b σ := by
  obtain ⟨y, hy, hlive, hrole⟩ := hg
  have hjoiner : Joiner b σ y := Orders.serve_joiner he taken hs hy
  rw [System.spawn_crashed] at hlive
  rw [System.spawn_server] at hrole
  refine ⟨y, hjoiner, hs.live_of_live hlive, ?_⟩
  rcases hrole with htail | ⟨x, hx⟩
  · by_cases hyz : y = z
    · subst hyz
      rcases (Extending.serve_role hs).tail.mp htail with htail | hgrants
      · exact Or.inl htail
      · rcases he.taken_fits taken with ⟨src, hin, hfits⟩ | ⟨req, rfl⟩
        · have other {b' : BankConfig} (hb' : b' ∈ cfg.banks) (hmem : y ∈ b'.servers) : False := by
            obtain rfl := Config.bank_unique hb hb' (List.mem_append_right _ hjoiner.1)
              (List.mem_append_left _ hmem)
            exact Recorded.joiner_notMem hb hjoiner.1 hmem
          cases msg with
          | toBeTail =>
            obtain ⟨-, b', hb', hmem, -⟩ := hfits
            exact (other hb' hmem).elim
          | extendFail =>
            obtain ⟨b', hb', hmem, -⟩ := hfits
            exact (other hb' hmem).elim
          | extendMsg e =>
            cases e with
            | fin => exact Or.inr ⟨src, hin⟩
            | _ => cases hgrants
          | _ => cases hgrants
        · cases hgrants
    · rw [hs.server_of_ne hyz] at htail
      exact Or.inl htail
  · exact Or.inr ⟨x, serve_link taken hs hx fun s hsends => by cases hsends⟩

theorem serve (h : TailYields cfg b σ) : TailYields cfg b (τ.spawn z msg) := by
  intro hg x hx hlive
  have hold := serve_granted he hb taken hs hg
  rw [System.spawn_crashed] at hlive
  obtain ⟨htail, hno⟩ := h hold x hx (hs.live_of_live hlive)
  refine ⟨?_, fun hin => hno (serve_link taken hs hin fun s hsends => by cases hsends)⟩
  rw [System.spawn_server]
  by_cases hxz : x = z
  · subst hxz
    by_contra hnew
    rw [Bool.not_eq_false, (Extending.serve_role hs).tail, htail] at hnew
    have hgrants := hnew.resolve_left Bool.false_ne_true
    rcases he.taken_fits taken with ⟨src, hin, hfits⟩ | ⟨req, rfl⟩
    · cases msg with
      | toBeTail =>
        rw [hfits.1] at hin
        exact hno hin
      | extendFail =>
        -- the joining server would have crashed
        obtain ⟨b', hb', hmem, -, y, hy, hdead⟩ := hfits
        obtain rfl := Config.bank_unique_servers hb hb' hx hmem
        obtain ⟨y', hy', hylive, -⟩ := hold
        rw [he.joiner_unique hb hy hy', hylive] at hdead
        cases hdead
      | extendMsg e =>
        cases e with
        | fin =>
          obtain ⟨b', hb', -, hjoiner⟩ := hfits
          obtain rfl := Config.bank_unique hb hb' (List.mem_append_left _ hx)
            (List.mem_append_right _ hjoiner.1)
          exact Recorded.joiner_notMem hb hjoiner.1 hx
        | _ => cases hgrants
      | _ => cases hgrants
    · cases hgrants
  · rw [hs.server_of_ne hxz]
    exact htail

end Serve

/-! ### Steps of the master -/

section Master

variable (h : TailYields cfg b σ) (he : Extending cfg σ) (hb : b ∈ cfg.banks)
include h he hb

/-- The server that the master lets in has not been granted anything yet. -/
lemma of_admitted {b' : BankConfig} {bsc : BankServerChain} {c : List Address}
    (ha : Admitted cfg b' σ src bsc c σ') : TailYields cfg b σ' := by
  refine h.frame ?_ ?_ ?_ fun x _ hx => ha.mem_link_old (by simp) hx
  · rintro ⟨y, hy, hlive, hrole⟩
    rw [ha.crashed] at hlive
    rw [ha.server] at hrole
    have hrole : (σ.server y).istail = true ∨ ∃ x, .extendMsg .fin ∈ σ.link x y :=
      hrole.imp id (Exists.imp fun _ => ha.mem_link_old (by simp))
    refine ⟨y, ?_, hlive, hrole⟩
    rcases hrole with htail | ⟨x, hx⟩
    · rcases he.tail_cases hb (List.mem_append_right _ hy.1) htail with hold | hold
      · exact absurd hold.1 (Recorded.joiner_notMem hb hy.1)
      · exact hold
    · exact (he.fin_source hb hy.1 hx).2
  · rw [ha.crashed]
    exact fun _ => id
  · rw [ha.server]
    exact fun _ => id

/-- The master does not tell anybody to act as the tail when the joining server has been granted the
role. -/
lemma detect {id : String} {node : Address} {bsc : BankServerChain} {m : Master}
    {out : List Packet} (hl : System.HandoffDone cfg σ (.detect id node))
    (hdead : σ.crashed node = true) (hlookup : σ.master.bankServerChain.lookup id = some bsc)
    (hmem : node ∈ bsc.serverChain) (hcase : Master.NotifyCase σ.master id node bsc m out) :
    TailYields cfg b ({ σ with master := m }.emit m.addr out) := by
  obtain ⟨b', hb', rfl⟩ := he.bank id bsc hlookup
  obtain ⟨bsc', c, hlookup', hrec⟩ := he.record b' hb'
  rw [hlookup] at hlookup'
  obtain rfl := Option.some.inj hlookup'
  obtain ⟨bsc', hm, hrec', hnotice⟩ := hrec.notified hb' hdead hmem hcase
  have hjoiner (y : Address) (hy : Joiner b ({ σ with master := m }.emit m.addr out) y) :
      Joiner b σ y := Orders.notify_joiner hb' hrec hdead hmem hcase hy
  have hlink {u v : Address} {n : Message} (hn : n ∈ ({ σ with master := m }.emit m.addr out).link u v) :
      n ∈ σ.link u v ∨ ∃ p ∈ out, p.tcp? = some (v, n) := by
    simp only [System.emit, Links.mem_send] at hn
    exact hn.imp id fun hn => List.mem_filterMap.mp hn.2
  have hback : Granted b ({ σ with master := m }.emit m.addr out) → Granted b σ := by
    refine fun hg => hg.back hjoiner (fun _ => id) (fun _ => id) fun x y hx => ?_
    refine (hlink hx).resolve_right ?_
    rintro ⟨p, hp, htcp⟩
    cases hnotice p hp y _ htcp
  intro hg x hx hlive
  obtain ⟨htail, hno⟩ := h (hback hg) x hx hlive
  refine ⟨htail, fun hin => ?_⟩
  obtain ⟨p, hp, htcp⟩ := (hlink hin).resolve_left hno
  have hlast : (c.erase node).getLast? = some x := by
    cases hnotice p hp x _ htcp with
    | toBeTail last => exact last
  obtain rfl := Config.bank_unique_servers hb hb' hx
    (hrec'.sub.subset (List.mem_of_getLast? hlast))
  -- the order follows the crash of the recorded tail
  have hnode : node = bsc.tail := by
    by_contra hne
    have hisOrder := Orders.notify_order hcase (fun _ => hne) hp htcp
    cases hisOrder
  obtain ⟨y, hy, hylive, hrole⟩ := hback hg
  have gone {z : Address} (hz : Joiner b σ z) (hzdead : σ.crashed z = true) : False := by
    rw [he.joiner_unique hb hz hy, hylive] at hzdead
    cases hzdead
  cases hrec.phase with
  | idle nobody => exact nobody y hy
  | extending joiner =>
    obtain rfl := he.joiner_unique hb hy joiner
    obtain ⟨hnotail, hnofin⟩ := hl b hb rfl bsc hlookup hnode hylive
    rcases hrole with htail | ⟨u, hu⟩
    · rw [hnotail] at htail
      cases htail
    · exact hnofin u (he.fin_source hb joiner.1 hu).1 hu
  | joined joiner => exact gone joiner (hnode ▸ hdead)
  | gone joiner dead => exact gone joiner dead

end Master

/-! ### The end of an extension thread -/

/-- The server that sends `FIN` stops acting as the tail, and no other live server of the old chain does
or is told to. -/
lemma finish (h : TailYields cfg b σ) (he : Extending cfg σ) (ho : Orders cfg b σ)
    (hb : b ∈ cfg.banks) {s : Address} {i : ℕ} {t : ExtendThread} (hlive : σ.crashed s = false)
    (ht : t ∈ σ.thread s) (hout : out <+: (σ.extendBlock s).out) :
    TailYields cfg b (σ.finish s i out) := by
  have htail (x : Address) (hx : ((σ.finish s i out).server x).istail = true) :
      (σ.server x).istail = true := by
    change (Function.update σ.server s (σ.extendBlock s).server x).istail = true at hx
    by_cases hxs : x = s
    · subst hxs
      rw [Function.update_self] at hx
      exact (Extending.extendBlock_keeps σ x).tail hx
    · rwa [Function.update_of_ne hxs] at hx
  obtain ⟨b', hb', hs, hrear, y, hy, hsucc⟩ := he.thread s hlive t ht
  have hlink {u v : Address} {n : Message} (hn : n ∈ (σ.finish s i out).link u v) :
      n ∈ σ.link u v ∨ Joiner b' σ v ∧ σ.crashed (σ.server s).succServerAddr = false ∧
        ∃ e, n = .extendMsg e := by
    have hn : n ∈ σ.link.send s (out.filterMap Packet.tcp?) u v := hn
    rw [Links.mem_send] at hn
    refine hn.imp id fun hn => ?_
    obtain ⟨p, hp, htcp⟩ := List.mem_filterMap.mp hn.2
    have hblock := hout.subset hp
    obtain ⟨b'', hb'', hs'', hjoiner, e, rfl⟩ := he.mem_extendBlock hlive ht hblock
    obtain rfl := Config.bank_unique_servers hb' hb'' hs hs''
    rw [Packet.tcp?_tcp] at htcp
    obtain ⟨rfl, rfl⟩ := Prod.mk.inj (Option.some.inj htcp)
    refine ⟨hjoiner, ?_, e, rfl⟩
    by_contra hdead
    rw [System.extendBlock, if_pos (by simpa using hdead)] at hblock
    cases hblock
  have horder {x : Address} (hx : .toBeTail ∈ (σ.finish s i out).link cfg.master x) :
      .toBeTail ∈ σ.link cfg.master x := by
    refine (hlink hx).resolve_right ?_
    rintro ⟨-, -, e, heq⟩
    cases heq
  have hjoiner (y : Address) (hy : Joiner b (σ.finish s i out) y) : Joiner b σ y := by
    have hsettles : Extending.Settles σ (out.map (.sent s)) := by
      apply Extending.settles_sent
      intro p hp t' n heq
      obtain ⟨-, -, -, -, e, rfl⟩ := he.mem_extendBlock hlive ht (hout.subset hp)
      obtain ⟨-, rfl⟩ := Packet.tcp.inj heq
      exact ⟨rfl, by simp⟩
    have htrace : (σ.finish s i out).trace = σ.trace ++ out.map (.sent s) := rfl
    exact ⟨hy.1, hsettles.joining htrace hy.2⟩
  -- whatever happens, only a `FIN` grants the role
  have quiet (hquiet : ∀ u v, .extendMsg .fin ∈ (σ.finish s i out).link u v → Joiner b σ v →
      .extendMsg .fin ∈ σ.link u v) : TailYields cfg b (σ.finish s i out) := by
    refine h.frame ?_ (fun _ => id) htail fun x _ => horder
    rintro ⟨y, hy, hylive, hrole⟩
    refine ⟨y, hjoiner y hy, hylive, hrole.imp (htail y) ?_⟩
    exact Exists.imp fun x hx => hquiet x y hx (hjoiner y hy)
  by_cases hsb : s ∈ b.servers
  · obtain rfl := Config.bank_unique_servers hb hb' hsb hs
    by_cases hdead : σ.crashed (σ.server s).succServerAddr = true
    · refine quiet fun u v hin _ => (hlink hin).resolve_right ?_
      rintro ⟨-, hsucclive, -⟩
      rw [hdead] at hsucclive
      cases hsucclive
    · have hself : ((σ.finish s i out).server s).istail = false := by
        change (Function.update σ.server s (σ.extendBlock s).server s).istail = false
        rw [Function.update_self, System.extendBlock, if_neg hdead]
        rfl
      rintro ⟨y, hy, hylive, -⟩ x hx hxlive
      by_cases hxs : x = s
      · subst hxs
        refine ⟨hself, fun hin => ?_⟩
        exact ho.resting ⟨y, hjoiner y hy, hylive⟩ x hx hlive (List.ne_nil_of_mem ht) (horder hin)
      · have other (hxrear : Rear cfg σ x) : False :=
          hxs (Rear.unique hb hx hsb hxlive hlive hxrear hrear)
        refine ⟨?_, fun hin => other (he.rear_of_toBeTail (horder hin))⟩
        by_contra hnew
        exact other (he.rear_of_tail hb hx (htail x (by simpa using hnew)))
  · refine quiet fun u v hin hv => (hlink hin).resolve_right ?_
    rintro ⟨hv', -⟩
    obtain rfl := Config.bank_unique hb hb' (List.mem_append_right _ hv.1)
      (List.mem_append_right _ hv'.1)
    exact hsb hs

/-! ### Runs -/

theorem step (h : TailYields cfg b σ) (he : Extending cfg σ) (ho : Orders cfg b σ)
    (hb : b ∈ cfg.banks) (hl : System.HandoffDone cfg σ l) (hs : σ.step l = some σ') :
    TailYields cfg b σ' := by
  have one {t t' : Address} {m n : Message} (hm : m ≠ .toBeTail ∧ m ≠ .extendMsg .fin ∧
      ∀ y, m ≠ .extendServer y) (htcp : (Packet.tcp t m).tcp? = some (t', n)) :
      n ≠ .toBeTail ∧ n ≠ .extendMsg .fin ∧ ∀ y, n ≠ .extendServer y := by
    rw [Packet.tcp?_tcp] at htcp
    rwa [← (Prod.mk.inj (Option.some.inj htcp)).2]
  cases System.join_cases hs with
  | serve taken serve => exact TailYields.serve he hb taken serve h
  | crash => exact h.kill _
  | @master src msg rest k m out live head handled =>
    cases msg with
    | reqSeq r =>
      obtain ⟨rfl, rfl⟩ := Prod.mk.inj (Option.some.inj handled)
      refine (h.drop src σ.master.addr).emit _ (fun _ => id) fun p hp t n htcp => ?_
      obtain rfl := List.mem_singleton.mp hp
      exact one (by simp) htcp
    | join j =>
      obtain ⟨b', bsc, c, ha⟩ := he.admitted head handled
      exact h.of_admitted he hb ha
    | extendFinish f =>
      refine (h.drop src σ.master.addr).emit _ (fun _ => id) fun p hp t n htcp => ?_
      simp only [Master.handleMsg, Master.handleExtendFinish, Option.bind_eq_bind,
        Option.bind_eq_some_iff] at handled
      obtain ⟨_, -, heq⟩ := handled
      obtain ⟨-, rfl⟩ := Prod.mk.inj (Option.some.inj heq)
      obtain ⟨q, -, rfl⟩ := List.mem_map.mp hp
      cases htcp
    | _ =>
      obtain ⟨rfl, rfl⟩ := Prod.mk.inj (Option.some.inj handled)
      exact (h.drop src σ.master.addr).emit _ (fun _ => id) (by simp)
  | refuse => exact (h.drop _ _).kill _
  | detect live dead lookup mem case => exact h.detect he hb hl dead lookup mem case
  | join =>
    refine h.emit _ (fun _ => id) fun p hp t n htcp => ?_
    obtain rfl := List.mem_singleton.mp hp
    exact one (by simp) htcp
  | snapshot => exact h.setThreads _ _
  | giveUp => exact h.setThreads _ _
  | @extendSend s i e ms live sending =>
    have hno := he.noFin s _ (List.mem_of_getElem? sending)
    have hemit : TailYields cfg b (σ.emit s [.tcp (σ.server s).succServerAddr (.extendMsg e)]) := by
      refine h.emit _ (fun _ => id) fun p hp t n htcp => ?_
      obtain rfl := List.mem_singleton.mp hp
      refine one ⟨by simp, ?_, by simp⟩ htcp
      rintro heq
      obtain rfl := Message.extendMsg.inj heq
      exact hno List.mem_cons_self
    exact hemit.setThreads _ _
  | @finish s i k out _ live sending block complete =>
    have hfinish : TailYields cfg b (σ.finish s i out) :=
      h.finish he ho hb live (List.mem_of_getElem? sending) block
    rcases complete with rfl | rfl
    · exact hfinish
    · exact hfinish.kill _

theorem reach (hb : b ∈ cfg.banks) (hrun : Machine.Reach System.step
    (fun σ l => System.OneJoin cfg σ l ∧ System.HandoffDone cfg σ l) cfg.init σ) :
    TailYields cfg b σ := by
  have known (τ : System) (hτ : Machine.Reach System.step
      (fun σ l => System.OneJoin cfg σ l ∧ System.HandoffDone cfg σ l) cfg.init τ) :
      Extending cfg τ ∧ Orders cfg b τ :=
    ⟨Extending.reach (fun _ _ hl => hl.1) hτ, Orders.reach (fun _ _ hl => hl.1) hb hτ⟩
  exact hrun.invariant_of known init fun τ l _ h hτ _ hl hs => h.step hτ.1 hτ.2 hb hl.2 hs

end TailYields

/-- At most one live server of a bank acts as the tail, in every run in which the master does not handle
the crash of a recorded tail while the joining server has already been granted the role. -/
theorem single_tail (hb : b ∈ cfg.banks) (hrun : Machine.Reach System.step
    (fun σ l => System.OneJoin cfg σ l ∧ System.HandoffDone cfg σ l) cfg.init σ) :
    SingleTail b σ := by
  have he := Extending.reach (fun _ _ hl => hl.1) hrun
  have hyields := TailYields.reach hb hrun
  -- the joining server acts as the tail, so nobody else does
  have joiner {x y : Address} (hx : x ∈ b.servers) (hxlive : σ.crashed x = false)
      (hxtail : (σ.server x).istail = true) (hy : Joiner b σ y) (hylive : σ.crashed y = false)
      (hytail : (σ.server y).istail = true) : False := by
    have hno := (hyields ⟨y, hy, hylive, Or.inl hytail⟩ x hx hxlive).1
    rw [hxtail] at hno
    cases hno
  intro x hx y hy hxlive hylive hxtail hytail
  rcases he.tail_cases hb hx hxtail with ⟨hxb, hxrear⟩ | hxj
  · rcases he.tail_cases hb hy hytail with ⟨hyb, hyrear⟩ | hyj
    · exact Rear.unique hb hxb hyb hxlive hylive hxrear hyrear
    · exact (joiner hxb hxlive hxtail hyj hylive hytail).elim
  · rcases he.tail_cases hb hy hytail with ⟨hyb, -⟩ | hyj
    · exact (joiner hyb hylive hytail hxj hxlive hxtail).elim
    · exact he.joiner_unique hb hxj hyj

open Config in
/-- The tail crashes while it is extended, and the server before it extends the chain in its place. -/
theorem single_tail_extended :
    let chain : BankConfig :=
      { bankId := "BOA", servers := [1, 2].map localAddress, extendServers := [localAddress 3] }
    let σ := growingBank.after
      (fun σ l => System.OneJoin growingBank σ l ∧ System.HandoffDone growingBank σ l)
      ([.join (localAddress 3), hop 3 0, hop 0 2] ++ lose 2 ++
        [hop 0 1, hop 0 1, .snapshot (localAddress 1) 0 [] [], .extendSend (localAddress 1) 0,
          .extendFin (localAddress 1) 0 none, hop 1 3, hop 1 3, hop 3 0])
    (σ.server (localAddress 3)).istail = true ∧ SingleTail chain σ :=
  ⟨by decide +kernel, single_tail (by decide) (reach_after (by decide +kernel))⟩

open Config in
/-- The old tail crashes after `FIN`, and the master finds out before `EXTEND_FINISH`: the first server
and the one that has joined both act as the tail. -/
theorem two_tails : ¬ ∀ (cfg : Config) (b : BankConfig) (σ : System), b ∈ cfg.banks →
    Machine.Reach System.step (System.OneJoin cfg) cfg.init σ → (∃ x ∈ b.servers, σ.crashed x = false) →
      SingleTail b σ := by
  intro h
  let chain : BankConfig :=
    { bankId := "BOA", servers := [1, 2].map localAddress, extendServers := [localAddress 3] }
  have hsingle := h growingBank chain (growingBank.after (System.OneJoin growingBank)
    (extend 3 2 ++ [hop 2 3, hop 2 3] ++ lose 2 ++ [hop 0 1])) (by decide)
    (reach_after (by decide +kernel)) (by decide +kernel)
  exact absurd (hsingle (localAddress 1) (by decide) (localAddress 3) (by decide) (by decide +kernel)
    (by decide +kernel) (by decide +kernel) (by decide +kernel)) (by decide)

end ChainReplication
