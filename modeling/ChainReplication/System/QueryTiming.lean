import ChainReplication.System.Clients
import ChainReplication.System.Origins
import ChainReplication.Server.Updates

/-!
# Queries that reach the tail too early or too late

The master announces a tail to the clients by UDP, independently of the `TO_BE_TAIL` for the server itself,
and a tail that has sent `FIN` is announced as such until `EXTEND_FINISH`. These are the only ways for a
query to reach a server that is no tail, in any run with crashes, joins and handoffs.
-/

namespace ChainReplication

variable {cfg : Config} {σ σ' : System} {l : Label} {x y s a : Address} {msg : Message}
  {out : List Packet} {es : List Event} {p : Packet}

/-! ### The role of the tail on the trace -/

lemma Event.tailRole_sent_of_ne (h : a ≠ s) : (Event.sent a p).tailRole s = none := by
  cases p with
  | tcp t m =>
    cases m with
    | extendMsg e =>
      cases e with
      | fin => exact if_neg h
      | _ => rfl
    | _ => rfl
  | _ => rfl

lemma Event.tailRole_sent_of_other (h : ∀ t, p.tcp? ≠ some (t, .extendMsg .fin)) :
    (Event.sent a p).tailRole s = none := by
  cases p with
  | tcp t m =>
    cases m with
    | extendMsg e =>
      cases e with
      | fin => exact absurd rfl (h t)
      | _ => rfl
    | _ => rfl
  | _ => rfl

lemma Event.tailRole_handled_of_ne (h : x ≠ s) : (Event.handled x msg).tailRole s = none := by
  cases msg with
  | toBeTail | extendFail => exact if_neg h
  | extendMsg e =>
    cases e with
    | fin => exact if_neg h
    | _ => rfl
  | _ => rfl

/-- A server has been made a tail when it has handled one of three messages. -/
lemma Event.tailRole_handled (s : Address) (msg : Message) :
    (Event.handled s msg).tailRole s = some true ∧ msg.grantsTail ∨
    (Event.handled s msg).tailRole s = none ∧ ¬ msg.grantsTail := by
  cases msg with
  | toBeTail | extendFail => exact Or.inl ⟨if_pos rfl, trivial⟩
  | extendMsg e =>
    cases e with
    | fin => exact Or.inl ⟨if_pos rfl, trivial⟩
    | _ => exact Or.inr ⟨rfl, id⟩
  | _ => exact Or.inr ⟨rfl, id⟩

namespace System

/-- Either `s` is no process that handles queries, or it has been the tail, or it is about to be. -/
def Known (cfg : Config) (σ : System) (s : Address) : Prop :=
  s = σ.master.addr ∨ σ.crashed s = true ∨ (cfg.initServer s).istail = true ∨ σ.lastRole s ≠ none ∨
    .toBeTail ∈ σ.link σ.master.addr s

lemma lastRole_append (h : σ'.trace = σ.trace ++ es) :
    σ'.lastRole s = ((es.filterMap (Event.tailRole s)).getLast?).or (σ.lastRole s) := by
  rw [lastRole, h, List.filterMap_append, List.getLast?_append, lastRole]

lemma lastRole_of_none (h : σ'.trace = σ.trace ++ es) (hes : ∀ e ∈ es, e.tailRole s = none) :
    σ'.lastRole s = σ.lastRole s := by
  rw [lastRole_append h, List.filterMap_eq_nil_iff.mpr hes, List.getLast?_nil, Option.none_or]

/-- What has happened to the role stays known. -/
lemma lastRole_ne_none (h : σ'.trace = σ.trace ++ es) (hs : σ.lastRole s ≠ none) :
    σ'.lastRole s ≠ none := by
  rw [lastRole_append h]
  intro hnone
  exact hs (Option.or_eq_none_iff.mp hnone).2

lemma Known.keep (h : Known cfg σ s) (addr : σ'.master.addr = σ.master.addr)
    (crashed : σ'.crashed s = false → σ.crashed s = false) (trace : σ'.trace = σ.trace ++ es)
    (mail : s ≠ σ.master.addr → .toBeTail ∈ σ.link σ.master.addr s →
      .toBeTail ∈ σ'.link σ.master.addr s ∨ σ'.lastRole s ≠ none) : Known cfg σ' s := by
  rcases h with h | h | h | h | h
  · exact Or.inl (h.trans addr.symm)
  · refine Or.inr (Or.inl ?_)
    by_contra hlive
    rw [crashed (by simpa using hlive)] at h
    cases h
  · exact Or.inr (Or.inr (Or.inl h))
  · exact Or.inr (Or.inr (Or.inr (Or.inl (lastRole_ne_none trace h))))
  · by_cases hne : s = σ.master.addr
    · exact Or.inl (hne.trans addr.symm)
    · refine Or.inr (Or.inr (Or.inr ?_))
      rw [addr]
      exact (mail hne h).symm

/-- The process `a` sends `out`, and nothing is delivered to a server. -/
structure Emits (σ : System) (a : Address) (out : List Packet) (σ' : System) : Prop where
  addr : σ'.master.addr = σ.master.addr
  live : ∀ s, σ'.crashed s = false → σ.crashed s = false
  trace : σ'.trace = σ.trace ++ out.map (.sent a)
  link : ∀ u v m, m ∈ σ'.link u v → m ∈ σ.link u v ∨ ∃ p ∈ out, p.tcp? = some (v, m)
  mail : ∀ v, v ≠ σ.master.addr → ∀ m ∈ σ.link σ.master.addr v, m ∈ σ'.link σ.master.addr v

namespace Emits

lemma known (h : Emits σ a out σ') (hs : Known cfg σ s) : Known cfg σ' s :=
  hs.keep h.addr (h.live s) h.trace fun hne hin => Or.inl (h.mail s hne _ hin)

lemma kill (σ : System) (x a : Address) : Emits σ a [] (σ.kill x) := by
  refine ⟨rfl, fun s hlive => ?_, (List.append_nil _).symm, fun _ _ _ hm => Or.inl hm,
    fun _ _ _ hm => hm⟩
  simp only [System.kill] at hlive
  by_cases hs : s = x
  · subst hs
    rw [Function.update_self] at hlive
    cases hlive
  · rwa [Function.update_of_ne hs] at hlive

/-- A kill after the sends. -/
lemma kill_after (h : Emits σ a out σ') (x : Address) : Emits σ a out (σ'.kill x) :=
  ⟨h.addr, fun s hlive => h.live s ((kill σ' x a).live s hlive), h.trace, h.link, h.mail⟩

lemma of_send {L : Links Address Message} (hL : ∀ u v m, m ∈ L u v → m ∈ σ.link u v)
    (hmail : ∀ v, v ≠ σ.master.addr → L σ.master.addr v = σ.link σ.master.addr v)
    (addr : σ'.master.addr = σ.master.addr) (crashed : σ'.crashed = σ.crashed)
    (link : σ'.link = L.send a (out.filterMap Packet.tcp?))
    (trace : σ'.trace = σ.trace ++ out.map (.sent a)) : Emits σ a out σ' := by
  refine ⟨addr, fun s hlive => by rwa [crashed] at hlive, trace, fun u v m hm => ?_, fun v hv m hm => ?_⟩
  · rw [link, Links.mem_send] at hm
    rcases hm with hm | ⟨-, hm⟩
    · exact Or.inl (hL u v m hm)
    · exact Or.inr (List.mem_filterMap.mp hm)
  · rw [link, Links.mem_send, hmail v hv]
    exact Or.inl hm

end Emits

/-- A query finds a known server in its role, or in one of the two gaps. -/
lemma Known.istail_iff (h : Known cfg σ s) (hne : s ≠ σ.master.addr) (hlive : σ.crashed s = false)
    (hrole : (σ.server s).istail = true ↔ σ.lastRole s = some true ∨
      σ.lastRole s = none ∧ (cfg.initServer s).istail = true) :
    (σ.server s).istail = true ↔ ¬ σ.Awaits cfg s ∧ ¬ σ.HandedOver s := by
  rw [hrole]
  constructor
  · rintro (hlast | ⟨hlast, htail⟩)
    · refine ⟨fun hawaits => ?_, fun hover => ?_⟩
      · rw [hawaits.2.1] at hlast
        cases hlast
      · rw [HandedOver, hlast] at hover
        cases hover
    · refine ⟨fun hawaits => ?_, fun hover => ?_⟩
      · rw [hawaits.1] at htail
        cases htail
      · rw [HandedOver, hlast] at hover
        cases hover
  · rintro ⟨hawaits, hover⟩
    cases hlast : σ.lastRole s with
    | some r =>
      cases r with
      | true => exact Or.inl rfl
      | false => exact absurd hlast hover
    | none =>
      refine Or.inr ⟨rfl, ?_⟩
      by_contra htail
      rcases h with h | h | h | h | h
      · exact hne h
      · rw [hlive] at h
        cases h
      · exact htail h
      · exact h hlast
      · exact hawaits ⟨by simpa using htail, hlast, h⟩

end System

/-- What the trace and the messages in flight tell about the tails that clients may know. -/
structure TailsKnown (cfg : Config) (σ : System) : Prop where
  role : ∀ s, s ≠ σ.master.addr → σ.crashed s = false → ((σ.server s).istail = true ↔
    σ.lastRole s = some true ∨ σ.lastRole s = none ∧ (cfg.initServer s).istail = true)
  finish : ∀ u v f, .extendFinish f ∈ σ.link u v → σ.Known cfg f.serverAddr
  told : ∀ c n, .sent σ.master.addr (.udp c (.newTail n)) ∈ σ.trace → σ.Known cfg n.serverAddr
  noFin : ∀ s ms, .sending ms ∈ σ.thread s → .fin ∉ ms
  updates : ∀ s, (σ.server s).SendsUpdates
  requests : ∀ u v q, .request q ∈ σ.link u v → q.type ≠ .query

namespace TailsKnown

lemma init : TailsKnown cfg cfg.init := by
  refine ⟨?_, ?_, ?_, ?_, ?_, ?_⟩
  · intro s _ _
    change (cfg.initServer s).istail = true ↔ none = some true ∨ none = none ∧ _
    simp
  · intro u v f hf
    cases hf
  · intro c n hn
    cases hn
  · intro s ms hms
    cases hms
  · intro s
    change (cfg.initServer s).SendsUpdates
    refine Config.initServer_cases (P := ChainServer.SendsUpdates) s ?_ fun b _ _ => ?_
    · intro q hq
      cases hq
    · intro q hq
      cases hq
  · intro u v q hq
    cases hq

/-- A server whose role has not changed and that sends no `FIN`. -/
lemma role_same (h : TailsKnown cfg σ) (he : System.Emits σ a out σ')
    (hout : ∀ p ∈ out, ∀ t, p.tcp? ≠ some (t, .extendMsg .fin))
    (htail : ∀ s, (σ'.server s).istail = (σ.server s).istail) : ∀ s, s ≠ σ'.master.addr →
      σ'.crashed s = false → ((σ'.server s).istail = true ↔ σ'.lastRole s = some true ∨
        σ'.lastRole s = none ∧ (cfg.initServer s).istail = true) := by
  intro s hne hlive
  have hlast : σ'.lastRole s = σ.lastRole s := by
    refine System.lastRole_of_none he.trace fun e hmem => ?_
    obtain ⟨p, hp, rfl⟩ := List.mem_map.mp hmem
    exact Event.tailRole_sent_of_other (hout p hp)
  rw [hlast, htail]
  exact h.role s (he.addr ▸ hne) (he.live s hlive)

lemma emits (h : TailsKnown cfg σ) (he : System.Emits σ a out σ')
    (role : ∀ s, s ≠ σ'.master.addr → σ'.crashed s = false → ((σ'.server s).istail = true ↔
      σ'.lastRole s = some true ∨ σ'.lastRole s = none ∧ (cfg.initServer s).istail = true))
    (noFin : ∀ s ms, .sending ms ∈ σ'.thread s → .fin ∉ ms)
    (updates : ∀ s, (σ'.server s).SendsUpdates)
    (hout : ∀ p ∈ out, ∀ t m, p.tcp? = some (t, m) → (∀ f, m ≠ .extendFinish f) ∧ ∀ q, m ≠ .request q)
    (htold : ∀ c n, a = σ.master.addr → .udp c (.newTail n) ∈ out → σ'.Known cfg n.serverAddr) :
    TailsKnown cfg σ' := by
  refine ⟨role, ?_, ?_, noFin, updates, ?_⟩
  · intro u v f hf
    rcases he.link u v _ hf with hf | ⟨p, hp, htcp⟩
    · exact he.known (h.finish u v f hf)
    · exact absurd rfl ((hout p hp v _ htcp).1 f)
  · intro c n hn
    rw [he.addr, he.trace, List.mem_append] at hn
    rcases hn with hn | hn
    · exact he.known (h.told c n hn)
    · obtain ⟨p, hp, heq⟩ := List.mem_map.mp hn
      obtain ⟨rfl, rfl⟩ := Event.sent.inj heq
      exact htold c n rfl hp
  · intro u v q hq
    rcases he.link u v _ hq with hq | ⟨p, hp, htcp⟩
    · exact h.requests u v q hq
    · exact absurd rfl ((hout p hp v _ htcp).2 q)

/-! ### A server serves a message -/

section Serve

variable {τ : System} {L : Links Address Message} (h : TailsKnown cfg σ) (ho : Origins σ)
  (taken : System.Taken σ x msg L) (hs : System.Serve σ x msg L out τ)
include hs

lemma serve_lastRole : τ.lastRole s =
    if s = x ∧ (Event.handled x msg).tailRole x = some true then some true else σ.lastRole s := by
  have hsent : ∀ e ∈ out.map (Event.sent x), Event.tailRole s e = none := by
    intro e he
    obtain ⟨p, hp, rfl⟩ := List.mem_map.mp he
    refine Event.tailRole_sent_of_other fun t htcp => ?_
    cases ChainServer.handleMsg_sends (hs.out_prefix.subset hp) htcp
  rw [System.lastRole_append hs.trace, List.filterMap_cons, List.filterMap_eq_nil_iff.mpr hsent]
  by_cases hsx : s = x
  · subst hsx
    rcases Event.tailRole_handled s msg with ⟨hrole, -⟩ | ⟨hrole, -⟩
    · rw [hrole, if_pos ⟨rfl, rfl⟩]
      rfl
    · rw [hrole, if_neg (by simp)]
      rfl
  · rw [Event.tailRole_handled_of_ne (Ne.symm hsx), if_neg fun hboth => hsx hboth.1]
    rfl

include taken in
lemma serve_known (hk : σ.Known cfg s) : τ.Known cfg s := by
  refine hk.keep (by rw [hs.master]) hs.live_of_live hs.trace fun hne hin => ?_
  have hlink : τ.link σ.master.addr s = L σ.master.addr s := by
    rw [hs.link, Links.send_of_ne _ _ _ (Ne.symm hs.ne_master)]
  rw [hlink]
  cases taken with
  | client => exact Or.inl hin
  | @link src _ rest head =>
    by_cases hsrc : src = σ.master.addr ∧ x = s
    · obtain ⟨rfl, rfl⟩ := hsrc
      rw [head, List.mem_cons] at hin
      rcases hin with rfl | hin
      · right
        rw [serve_lastRole hs, if_pos ⟨rfl, if_pos rfl⟩]
        simp
      · left
        rwa [Links.recv_self, head]
    · left
      rwa [Links.recv_of_ne _ _ _ fun heq => hsrc ⟨heq.1.symm, heq.2.symm⟩]

include h ho taken in
lemma serve : TailsKnown cfg (τ.spawn x msg) := by
  have hspawn : (τ.spawn x msg).lastRole = τ.lastRole := by
    funext s
    rw [System.lastRole, System.spawn_trace, System.lastRole]
  have hknown (s : Address) : (τ.spawn x msg).Known cfg s ↔ τ.Known cfg s := by
    rw [System.Known, System.Known, hspawn, System.spawn_master, System.spawn_crashed, System.spawn_link]
  refine ⟨?_, ?_, ?_, ?_, ?_, ?_⟩
  · intro s hne hlive
    rw [System.spawn_master, hs.master] at hne
    rw [System.spawn_crashed] at hlive
    rw [hspawn, System.spawn_server, serve_lastRole hs]
    have hold := h.role s hne (hs.live_of_live hlive)
    by_cases hsx : s = x
    · subst hsx
      have hrole := (ChainServer.handleMsg_roleChange (σ.server s) σ.master.addr msg).tail
      rw [hs.server_self, hrole]
      rcases Event.tailRole_handled s msg with ⟨hgrant, hmsg⟩ | ⟨hnone, hmsg⟩
      · rw [if_pos ⟨rfl, hgrant⟩]
        simp [hmsg]
      · rw [if_neg (by rw [hnone]; simp), or_iff_left hmsg]
        exact hold
    · rw [if_neg fun hboth => hsx hboth.1, hs.server_of_ne hsx]
      exact hold
  · intro u v f hf
    rw [System.spawn_link] at hf
    rw [hknown]
    rcases hs.mem_link taken hf with hf | ⟨-, p, hp, htcp⟩
    · exact serve_known taken hs (h.finish u v f hf)
    · cases ChainServer.handleMsg_sends (hs.out_prefix.subset hp) htcp with
      | extendFinish asked =>
        subst asked
        change τ.Known cfg (σ.server x).localAddr
        rw [ho.localAddr x hs.ne_master hs.live]
        refine Or.inr (Or.inr (Or.inr (Or.inl ?_)))
        rw [serve_lastRole hs, if_pos ⟨rfl, if_pos rfl⟩]
        simp
  · intro c n hn
    rw [System.spawn_trace, System.spawn_master, hs.master, hs.trace, List.mem_append, List.mem_cons] at hn
    rw [hknown]
    rcases hn with hn | hn | hn
    · exact serve_known taken hs (h.told c n hn)
    · cases hn
    · obtain ⟨p, -, heq⟩ := List.mem_map.mp hn
      exact absurd (Event.sent.inj heq).1 hs.ne_master
  · intro s ms hms
    rcases System.mem_spawn_thread τ x msg hms with hms | ⟨-, hms, -⟩
    · rw [hs.thread] at hms
      exact h.noFin s ms hms
    · cases hms
  · intro s
    rw [System.spawn_server]
    by_cases hsx : s = x
    · subst hsx
      rw [hs.server_self]
      exact (ChainServer.handleMsg_updates (h.updates s)).1
    · rw [hs.server_of_ne hsx]
      exact h.updates s
  · intro u v q hq
    rw [System.spawn_link] at hq
    rcases hs.mem_link taken hq with hq | ⟨-, p, hp, htcp⟩
    · exact h.requests u v q hq
    · exact (ChainServer.handleMsg_updates (h.updates x)).2 p (hs.out_prefix.subset hp) v q htcp

end Serve

/-! ### The other steps -/

/-- The last block of an extension thread sends `FIN` last, and the server stops acting as the tail. -/
lemma block_role (σ : System) (s : Address) :
    (σ.extendBlock s).out = [] ∧ (σ.extendBlock s).server.istail = (σ.server s).istail ∨
      (∃ l t, (σ.extendBlock s).out = l ++ [.tcp t (.extendMsg .fin)]) ∧
        (σ.extendBlock s).server.istail = false := by
  rw [System.extendBlock]
  split_ifs
  · exact Or.inl ⟨rfl, rfl⟩
  · refine Or.inr ⟨⟨(σ.server s).sentList.map fun q => .tcp (σ.server s).succServerAddr
      (.extendMsg (.sent q)), (σ.server s).succServerAddr, ?_⟩, rfl⟩
    simp [ChainServer.sentMsgs]

lemma mem_block (hp : p ∈ (σ.extendBlock s).out) : ∃ t m, p = .tcp t (.extendMsg m) := by
  rw [System.extendBlock] at hp
  split_ifs at hp
  · cases hp
  · obtain ⟨m, -, rfl⟩ := List.mem_map.mp hp
    exact ⟨_, m, rfl⟩

/-- An extension thread runs its last block, perhaps not to its end. -/
lemma finish_emits {i : ℕ} (hsub : ∀ p ∈ out, p ∈ (σ.extendBlock s).out) (h : TailsKnown cfg σ)
    (hne : s ≠ σ.master.addr) (he : System.Emits σ s out σ')
    (hserver : σ'.server = Function.update σ.server s (σ.extendBlock s).server)
    (hthread : σ'.thread = Function.update σ.thread s ((σ.thread s).eraseIdx i))
    (hself : σ'.crashed s = false → out = (σ.extendBlock s).out) : TailsKnown cfg σ' := by
  refine h.emits he ?_ ?_ ?_ ?_ fun c n heq => absurd heq hne
  · intro z hz hlive
    have hold := h.role z (he.addr ▸ hz) (he.live z hlive)
    by_cases hzs : z = s
    · subst hzs
      rw [hserver, Function.update_self]
      rcases block_role σ z with ⟨hout, htail⟩ | ⟨⟨l, t, hout⟩, htail⟩
      · have hlast : σ'.lastRole z = σ.lastRole z := by
          apply System.lastRole_of_none he.trace
          rw [hself hlive, hout]
          simp
        rw [hlast, htail]
        exact hold
      · have hlast : σ'.lastRole z = some false := by
          rw [System.lastRole_append he.trace, hself hlive, hout, List.map_append, List.filterMap_append,
            List.getLast?_append]
          simp [Event.tailRole]
        rw [hlast, htail]
        simp
    · have hlast : σ'.lastRole z = σ.lastRole z := by
        refine System.lastRole_of_none he.trace fun e hmem => ?_
        obtain ⟨p, -, rfl⟩ := List.mem_map.mp hmem
        exact Event.tailRole_sent_of_ne (Ne.symm hzs)
      rw [hlast, hserver, Function.update_of_ne hzs]
      exact hold
  · intro z ms hms
    rw [hthread] at hms
    by_cases hzs : z = s
    · subst hzs
      rw [Function.update_self] at hms
      exact h.noFin z ms (List.mem_of_mem_eraseIdx hms)
    · rw [Function.update_of_ne hzs] at hms
      exact h.noFin z ms hms
  · intro z
    rw [hserver]
    by_cases hzs : z = s
    · subst hzs
      rw [Function.update_self, System.extendBlock]
      split_ifs
      · exact h.updates z
      · exact h.updates z
    · rw [Function.update_of_ne hzs]
      exact h.updates z
  · intro p hp t m htcp
    obtain ⟨t', m', rfl⟩ := mem_block (hsub p hp)
    obtain ⟨-, rfl⟩ := Prod.mk.inj (Option.some.inj htcp)
    exact ⟨by simp, by simp⟩

lemma lastBlock {i : ℕ} {k : Option ℕ} (h : TailsKnown cfg σ) (ho : Origins σ)
    (hs : σ.step (.extendFin s i k) = some σ') : TailsKnown cfg σ' := by
  simp only [System.step] at hs
  split at hs
  · next hlive hsending =>
    obtain rfl := Option.some.inj hs
    have hne := ho.ne_master hsending
    have hemits (out : List Packet) : System.Emits σ s out
        ((({ σ with server := Function.update σ.server s (σ.extendBlock s).server } : System).emit s
          out).setThreads s ((σ.thread s).eraseIdx i)) :=
      .of_send (L := σ.link) (fun _ _ _ hm => hm) (fun _ _ => rfl) rfl rfl rfl rfl
    cases k with
    | none => exact finish_emits (fun p hp => hp) h hne (hemits _) rfl rfl fun _ => rfl
    | some n =>
      refine finish_emits (fun p hp => List.mem_of_mem_take hp) h hne ((hemits _).kill_after s) rfl rfl
        fun hself => ?_
      simp [System.kill] at hself
  · cases hs

/-- The master hands over messages. -/
lemma master_emits {L : Links Address Message} {m : Master} (h : TailsKnown cfg σ)
    (hL : ∀ u v m, m ∈ L u v → m ∈ σ.link u v)
    (hmail : ∀ v, v ≠ σ.master.addr → L σ.master.addr v = σ.link σ.master.addr v)
    (haddr : m.addr = σ.master.addr)
    (hout : ∀ p ∈ out, ∀ t m, p.tcp? = some (t, m) → m ≠ .extendMsg .fin ∧
      (∀ f, m ≠ .extendFinish f) ∧ ∀ q, m ≠ .request q)
    (htold : ∀ c n, .udp c (.newTail n) ∈ out → σ.Known cfg n.serverAddr ∨
      .tcp n.serverAddr .toBeTail ∈ out) :
    TailsKnown cfg ({ σ with link := L, master := m }.emit m.addr out) := by
  have he : System.Emits σ m.addr out ({ σ with link := L, master := m }.emit m.addr out) :=
    .of_send hL hmail haddr rfl rfl rfl
  refine h.emits he ?_ h.noFin h.updates (fun p hp t n htcp => (hout p hp t n htcp).2) fun c n _ hn => ?_
  · exact h.role_same he (fun p hp t htcp => (hout p hp t _ htcp).1 rfl) fun _ => rfl
  · rcases htold c n hn with hknown | hmail
    · exact he.known hknown
    · refine Or.inr (Or.inr (Or.inr (Or.inr ?_)))
      simp only [System.emit, Links.mem_send]
      exact Or.inr ⟨trivial, List.mem_filterMap.mpr ⟨_, hmail, rfl⟩⟩

/-- A server hands over messages that have nothing to do with its role. -/
lemma server_emits (h : TailsKnown cfg σ) (hne : s ≠ σ.master.addr)
    (hout : ∀ p ∈ out, ∀ t m, p.tcp? = some (t, m) → m ≠ .extendMsg .fin ∧
      (∀ f, m ≠ .extendFinish f) ∧ ∀ q, m ≠ .request q) : TailsKnown cfg (σ.emit s out) := by
  have he : System.Emits σ s out (σ.emit s out) :=
    .of_send (fun _ _ _ hm => hm) (fun _ _ => rfl) rfl rfl rfl rfl
  refine h.emits he ?_ h.noFin h.updates (fun p hp t n htcp => (hout p hp t n htcp).2)
    fun c n heq => absurd heq hne
  exact h.role_same he (fun p hp t htcp => (hout p hp t _ htcp).1 rfl) fun _ => rfl

lemma kill (h : TailsKnown cfg σ) (x : Address) : TailsKnown cfg (σ.kill x) := by
  have he := System.Emits.kill σ x x
  refine h.emits he ?_ h.noFin h.updates (by simp) (by simp)
  exact h.role_same he (by simp) fun _ => rfl

/-- A message is lost. -/
lemma drop (h : TailsKnown cfg σ) (src : Address) :
    TailsKnown cfg { σ with link := σ.link.recv src σ.master.addr } := by
  have he : System.Emits σ src [] { σ with link := σ.link.recv src σ.master.addr } := by
    refine .of_send (fun _ _ _ => Links.mem_of_mem_recv _ _ _) (fun v hv => ?_) rfl rfl
      (Links.send_nil _ _).symm (List.append_nil _).symm
    exact Links.recv_of_ne _ _ _ fun heq => hv heq.2
  refine h.emits he ?_ h.noFin h.updates (by simp) (by simp)
  exact h.role_same he (by simp) fun _ => rfl

lemma setThreads (h : TailsKnown cfg σ) {s : Address} {ts : List ExtendThread}
    (hts : ∀ ms, .sending ms ∈ ts → .fin ∉ ms) : TailsKnown cfg (σ.setThreads s ts) := by
  refine ⟨h.role, h.finish, h.told, fun z ms hms => ?_, h.updates, h.requests⟩
  simp only [System.setThreads] at hms
  by_cases hzs : z = s
  · subst hzs
    rw [Function.update_self] at hms
    exact hts ms hms
  · rw [Function.update_of_ne hzs] at hms
    exact h.noFin z ms hms

theorem step (h : TailsKnown cfg σ) (ho : Origins σ) (hs : σ.step l = some σ') :
    TailsKnown cfg σ' := by
  have hrecv {src v : Address} (hv : v ≠ σ.master.addr) :
      σ.link.recv src σ.master.addr σ.master.addr v = σ.link σ.master.addr v :=
    Links.recv_of_ne _ _ _ fun heq => hv heq.2
  cases System.join_cases hs with
  | serve taken serve => exact h.serve ho taken serve
  | crash => exact h.kill _
  | @master src msg rest k m out live head handled =>
    refine h.master_emits (fun _ _ _ => Links.mem_of_mem_recv _ _ _) (fun v => hrecv)
      (System.handleMsg_addr handled) (fun p hp t n htcp => ?_) fun c n hn => ?_
    · cases Master.handleMsg_issues handled hp with
      | newTail => cases htcp
      | _ =>
        obtain ⟨-, rfl⟩ := Prod.mk.inj (Option.some.inj htcp)
        simp
    · cases Master.handleMsg_issues handled hn with
      | newTail asked =>
        subst asked
        exact Or.inl (h.finish _ _ _ (by rw [head]; exact List.mem_cons_self))
  | refuse live head => exact (h.drop _).kill _
  | detect live dead lookup mem case =>
    refine h.master_emits (fun _ _ _ hm => hm) (fun _ _ => rfl) case.addr (fun p hp t n htcp => ?_)
      fun c n hn => ?_
    · cases case.reports hp with
      | client | newTail => cases htcp
      | _ =>
        obtain ⟨-, rfl⟩ := Prod.mk.inj (Option.some.inj htcp)
        simp
    · cases case.reports hn with
      | newTail told => exact Or.inr told
  | join ne_master live =>
    refine h.server_emits ne_master fun p hp t n htcp => ?_
    obtain rfl := List.mem_singleton.mp hp
    obtain ⟨-, rfl⟩ := Prod.mk.inj (Option.some.inj htcp)
    simp
  | @snapshot s i accounts processed live spawned =>
    refine h.setThreads fun ms hms => ?_
    rcases List.mem_or_eq_of_mem_set hms with hms | heq
    · exact h.noFin s ms hms
    · obtain rfl := ExtendThread.sending.inj heq
      simp [ChainServer.snapshotMsgs]
  | @giveUp s i live => exact h.setThreads fun ms hms => h.noFin s ms (List.mem_of_mem_eraseIdx hms)
  | @extendSend s i e ms live sending =>
    have hno := h.noFin s _ (List.mem_of_getElem? sending)
    have hemit : TailsKnown cfg (σ.emit s [.tcp (σ.server s).succServerAddr (.extendMsg e)]) := by
      refine h.server_emits (ho.ne_master sending) fun p hp t n htcp => ?_
      obtain rfl := List.mem_singleton.mp hp
      obtain ⟨-, rfl⟩ := Prod.mk.inj (Option.some.inj htcp)
      refine ⟨fun heq => hno ?_, by simp⟩
      rw [← Message.extendMsg.inj heq]
      exact List.mem_cons_self
    refine hemit.setThreads fun ms' hms => ?_
    rcases List.mem_or_eq_of_mem_set hms with hms | heq
    · exact h.noFin s ms' hms
    · obtain rfl := ExtendThread.sending.inj heq
      exact fun hmem => hno (List.mem_cons_of_mem _ hmem)
  | finish => exact h.lastBlock ho hs

/-- A tail that clients may know stays one. -/
lemma known_step (hs : σ.step l = some σ') (hk : σ.Known cfg s) : σ'.Known cfg s := by
  have hold (u v : Address) (m : Message) (hm : m ∈ σ.link u v) : m ∈ σ.link u v := hm
  have hrecv (src v : Address) (hv : v ≠ σ.master.addr) :
      σ.link.recv src σ.master.addr σ.master.addr v = σ.link σ.master.addr v :=
    Links.recv_of_ne _ _ _ fun heq => hv heq.2
  have sends (a : Address) (out : List Packet) : (σ.emit a out).Known cfg s := by
    have he : System.Emits σ a out (σ.emit a out) := .of_send hold (fun _ _ => rfl) rfl rfl rfl rfl
    exact he.known hk
  cases System.join_cases hs with
  | @serve _ x msg L out τ taken serve =>
    have hknown := serve_known taken serve hk
    rw [System.Known] at hknown ⊢
    rwa [System.lastRole, System.spawn_trace, System.spawn_master, System.spawn_crashed, System.spawn_link]
  | @crash _ x => exact (System.Emits.kill σ x x).known hk
  | @master src msg rest k m out live head handled =>
    have he : System.Emits σ m.addr out
        ({ σ with link := σ.link.recv src σ.master.addr, master := m }.emit m.addr out) :=
      .of_send (fun _ _ _ => Links.mem_of_mem_recv _ _ _) (hrecv src) (System.handleMsg_addr handled)
        rfl rfl rfl
    exact he.known hk
  | @refuse src msg rest k live head =>
    have he : System.Emits σ src [] { σ with link := σ.link.recv src σ.master.addr } :=
      .of_send (fun _ _ _ => Links.mem_of_mem_recv _ _ _) (hrecv src) rfl rfl
        (Links.send_nil _ _).symm (List.append_nil _).symm
    exact (he.kill_after _).known hk
  | @detect id node bsc m out live dead lookup mem case =>
    have he : System.Emits σ m.addr out ({ σ with master := m }.emit m.addr out) :=
      .of_send hold (fun _ _ => rfl) case.addr rfl rfl rfl
    exact he.known hk
  | join => exact sends _ _
  | snapshot => exact hk
  | giveUp => exact hk
  | extendSend => exact sends _ _
  | @finish s' i k out _ live sending block complete =>
    have he : System.Emits σ s' out (σ.finish s' i out) :=
      .of_send hold (fun _ _ => rfl) rfl rfl rfl rfl
    rcases complete with rfl | rfl
    · exact he.known hk
    · exact (he.kill_after s').known hk

end TailsKnown

namespace Service

/-- Whatever clients know or have sent concerns servers that have been the tail or are about to be. -/
structure Informed (cfg : Config) (x : Service) : Prop where
  origins : Origins x.system
  tails : TailsKnown cfg x.system
  client : ∀ c id s, (x.client c).bankTailList.lookup id = some s → x.system.Known cfg s
  sent : ∀ s req, (s, req) ∈ x.sent → req.type = .query → x.system.Known cfg s

variable {v w : Service} {ℓ : ServiceLabel}

namespace Informed

lemma init : Informed cfg cfg.initService := by
  refine ⟨Origins.init, TailsKnown.init, ?_, ?_⟩
  · intro c id s hs
    obtain ⟨b, hb, -, rfl⟩ := AList.exists_of_lookup_foldl_insert cfg.bankIds_nodup hs
    have hne := cfg.servers_ne_nil b hb
    have hlast : b.servers.getLast? = some (b.servers.getLastD .empty) := by
      rw [List.getLastD_eq_getLast?, List.getLast?_eq_some_getLast hne]
      rfl
    refine Or.inr (Or.inr (Or.inl ?_))
    rw [Config.initServer_of_mem hb (List.mem_of_getLast? hlast)]
    exact decide_eq_true hlast
  · intro s req hs
    cases hs

/-- Servers and master move. -/
lemma run (h : Informed cfg v) (hs : v.run l = some w) : Informed cfg w := by
  obtain ⟨σ, hσ, rfl⟩ := Option.map_eq_some_iff.mp hs
  refine ⟨h.origins.step hσ, h.tails.step h.origins hσ, ?_, ?_⟩
  · exact fun c id s hs => TailsKnown.known_step hσ (h.client c id s hs)
  · exact fun s req hs htype => TailsKnown.known_step hσ (h.sent s req hs htype)

/-- A client follows the announcements of the master. -/
lemma notify (h : Informed cfg v) {c : Address} {msg : Message} (hs : v.step (.notify c msg) = some w) :
    Informed cfg w := by
  simp only [Service.step] at hs
  split_ifs at hs with hsent
  obtain ⟨C, hC, rfl⟩ := Option.map_eq_some_iff.mp hs
  refine ⟨h.origins, h.tails, fun c' id s hlookup => ?_, h.sent⟩
  by_cases hc : c' = c
  · subst hc
    simp only [Function.update_self] at hlookup
    cases msg with
    | newTail n =>
      simp only [Client.handleMsg, Client.handleNewTail] at hC
      split_ifs at hC
      obtain rfl := Option.some.inj hC
      by_cases hid : id = n.bankId
      · subst hid
        rw [AList.lookup_insert] at hlookup
        obtain rfl := Option.some.inj hlookup
        exact h.tails.told c' n hsent
      · rw [AList.lookup_insert_ne hid] at hlookup
        exact h.client c' id s hlookup
    | newHead n =>
      simp only [Client.handleMsg, Client.handleNewHead] at hC
      split_ifs at hC
      obtain rfl := Option.some.inj hC
      exact h.client c' id s hlookup
    | _ =>
      obtain rfl := Option.some.inj hC
      exact h.client c' id s hlookup
  · simp only [Function.update_of_ne hc] at hlookup
    exact h.client c' id s hlookup

/-- A client sends a query to the tail that it knows. -/
lemma ask (h : Informed cfg v) {c : Address} {req : Request} (hs : v.step (.ask c req) = some w) :
    Informed cfg w := by
  simp only [Service.step] at hs
  split_ifs at hs
  obtain ⟨t, ht, rfl⟩ := Option.map_eq_some_iff.mp hs
  refine ⟨h.origins, h.tails, h.client, fun s q hq htype => ?_⟩
  rcases List.mem_append.mp hq with hq | hq
  · exact h.sent s q hq htype
  · obtain ⟨rfl, rfl⟩ := Prod.mk.inj (List.mem_singleton.mp hq)
    rw [Client.target, if_pos htype] at ht
    exact h.client c req.bankId s ht

theorem step (h : Informed cfg v) (hs : v.step ℓ = some w) : Informed cfg w := by
  cases ℓ with
  | system l =>
    cases l with
    | client => cases hs
    | _ => exact h.run hs
  | notify c msg => exact h.notify hs
  | ask c req => exact h.ask hs
  | arrive s req k =>
    simp only [Service.step] at hs
    split_ifs at hs
    exact h.run hs

/-- No query travels between servers. -/
lemma refusals_nil (h : Informed cfg v) (hl : ∀ s req k, l ≠ .client s req k) :
    v.system.refusals l = [] := by
  rw [System.refusals]
  split
  · next s req hdelivery =>
    rw [if_neg]
    rintro ⟨htype, -⟩
    cases l with
    | client s' req' k => exact hl s' req' k rfl
    | deliver src dst k =>
      simp only [System.delivery, Option.map_eq_some_iff] at hdelivery
      obtain ⟨m, hm, heq⟩ := hdelivery
      obtain ⟨rfl, rfl⟩ := Prod.mk.inj heq
      exact h.tails.requests src dst req (List.mem_of_head? hm) htype
    | _ => cases hdelivery
  · rfl

/-- Whether a step refuses a query is decided by the two gaps. -/
lemma refused_iff (h : Informed cfg v) (hs : v.step ℓ = some w) (hrefused : v.refused = []) :
    w.refused = [] ↔ QueryTimely cfg v ℓ := by
  cases ℓ with
  | system l =>
    have quiet (hl : ∀ s req k, l ≠ .client s req k) (hs : v.run l = some w) : w.refused = [] := by
      obtain ⟨σ, -, rfl⟩ := Option.map_eq_some_iff.mp hs
      simp only [h.refusals_nil hl, hrefused, List.append_nil]
    cases l with
    | client => cases hs
    | _ => exact iff_of_true (quiet (by simp) hs) trivial
  | notify c msg =>
    simp only [Service.step] at hs
    split_ifs at hs
    obtain ⟨C, -, rfl⟩ := Option.map_eq_some_iff.mp hs
    exact iff_of_true hrefused trivial
  | ask c req =>
    simp only [Service.step] at hs
    split_ifs at hs
    obtain ⟨t, -, rfl⟩ := Option.map_eq_some_iff.mp hs
    exact iff_of_true hrefused trivial
  | arrive s req k =>
    simp only [Service.step] at hs
    split_ifs at hs with hsent
    obtain ⟨σ, hσ, rfl⟩ := Option.map_eq_some_iff.mp hs
    have hrefusals : v.system.refusals (.client s req k) =
        if req.type = .query ∧ (v.system.server s).istail = false then [(s, req)] else [] := rfl
    simp only [hrefused, List.nil_append, hrefusals, QueryTimely]
    by_cases htype : req.type = .query
    · simp only [System.step] at hσ
      split_ifs at hσ with hguard
      have hlive : v.system.crashed s = false := by simpa using hguard.2.1
      have hiff := (h.sent s req hsent htype).istail_iff hguard.1 hlive
        (h.tails.role s hguard.1 hlive)
      have hlist :
          (if req.type = .query ∧ (v.system.server s).istail = false then [(s, req)] else []) = [] ↔
            (v.system.server s).istail = true := by
        simp [htype]
      rw [hlist, hiff]
      exact ⟨fun h _ => h, fun h => h htype⟩
    · simp [htype]

end Informed

/-- In every run of servers, master and clients in which queries miss both gaps, no query is refused; and the
first query that falls into a gap is. -/
theorem no_query_refused_iff
    (hrun : Machine.Reach Service.step (QueryTimely cfg) cfg.initService v) :
    v.refused = [] ∧ ∀ ℓ w, v.step ℓ = some w → (w.refused = [] ↔ QueryTimely cfg v ℓ) := by
  have hinv : Informed cfg v ∧ v.refused = [] := by
    refine hrun.invariant (I := fun v => Informed cfg v ∧ v.refused = []) ⟨Informed.init, rfl⟩ ?_
    rintro v ℓ w ⟨h, hrefused⟩ hok hs
    exact ⟨h.step hs, (h.refused_iff hs hrefused).mpr hok⟩
  exact ⟨hinv.2, fun ℓ w hs => hinv.1.refused_iff hs hinv.2⟩

open Config

/-- A query for the account `a` of the first bank. -/
def sampleQuery : Request := { sampleDeposit "q" 0 with type := .query, clientAddr := localAddress 100 }

/-- Steps of the servers and the master of the sample configurations. -/
def steps (ls : List Label) : List ServiceLabel := ls.map .system

/-- The client learns that the server `n` is the tail of the first bank. -/
def learn (n : ℕ) : ServiceLabel :=
  .notify (localAddress 100) (.newTail { bankId := "BOA", serverAddr := localAddress n })

/-- Server 3 joins and the client learns of it, and a query reaches it. -/
def askJoined : Service :=
  Machine.after step (QueryTimely growingBank) growingBank.initService
    (steps (extend 3 2 ++ [hop 2 3, hop 2 3, hop 3 0]) ++
      [learn 3, .ask (localAddress 100) sampleQuery, .arrive (localAddress 3) sampleQuery none])

theorem no_query_refused_iff_sample :
    askJoined.refused = [] ∧ ∀ ℓ w, askJoined.step ℓ = some w →
      (w.refused = [] ↔ QueryTimely growingBank askJoined ℓ) :=
  no_query_refused_iff (Machine.reach_after (by decide +kernel))

/-- The tail dies. The client hears of the new tail before the server itself does, and its query ends the
only server that is left. -/
theorem query_before_toBeTail : ¬ ∀ v, Machine.Reach step (OneJoin growingBank)
    growingBank.initService v → v.refused = [] := by
  intro h
  have hrefused := h (Machine.after step (OneJoin growingBank) growingBank.initService
    (steps (lose 2) ++ [learn 1, .ask (localAddress 100) sampleQuery,
      .arrive (localAddress 1) sampleQuery none])) (Machine.reach_after (by decide +kernel))
  exact absurd hrefused (by decide +kernel)

/-- The tail has sent `FIN`, and the client still takes it for the tail. -/
example : (Machine.after step (OneJoin growingBank) growingBank.initService
    (steps (extend 3 2) ++ [.ask (localAddress 100) sampleQuery,
      .arrive (localAddress 2) sampleQuery none])).refused = [(localAddress 2, sampleQuery)] := by
  decide +kernel

end Service

end ChainReplication
