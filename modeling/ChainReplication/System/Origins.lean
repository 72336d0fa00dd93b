import ChainReplication.System.Joins

/-!
# Who announces heads and who joins

Only the master sends `NEW_HEAD`, and a `JOIN` names its sender.
-/

namespace ChainReplication

/-- The messages that change or report who is in a chain. -/
def Message.isNews : Message → Bool
  | .newHead _ | .join _ => true
  | _ => false

lemma ChainServer.Sends.not_news {master t : Address} {s : ChainServer} {msg m : Message}
    (h : ChainServer.Sends master s msg t m) : m.isNews = false := by
  cases h <;> rfl

namespace Master

/-- A packet that the master sends when it takes up `msg`. -/
inductive Issues (msg : Message) : Packet → Prop where
  | newSuccServer {r} (asked : msg = .reqSeq r) : Issues msg (.tcp r.preAddr (.newSuccServer r))
  | extendServer {t j} (asked : msg = .join j) : Issues msg (.tcp t (.extendServer j.serverAddr))
  | newTail {c f} (asked : msg = .extendFinish f) :
      Issues msg (.udp c (.newTail { bankId := f.bankId, serverAddr := f.serverAddr }))

/-- A packet that the master sends when it has found `node` crashed. -/
inductive Reports (bsc : BankServerChain) (node : Address) (out : List Packet) : Packet → Prop where
  | toBeHead {t} (head : node = bsc.head) : Reports bsc node out (.tcp t .toBeHead)
  | newHead {t n} (head : node = bsc.head) : Reports bsc node out (.tcp t (.newHead n))
  | client {c n} (head : node = bsc.head) : Reports bsc node out (.udp c (.newHead n))
  | toBeTail {t} : Reports bsc node out (.tcp t .toBeTail)
  | newTail {c n} (told : .tcp n.serverAddr .toBeTail ∈ out) : Reports bsc node out (.udp c (.newTail n))
  | extendServer {t y} : Reports bsc node out (.tcp t (.extendServer y))
  | newPreServer {t y} : Reports bsc node out (.tcp t (.newPreServer y))
  | extendFail {t} : Reports bsc node out (.tcp t .extendFail)

variable {m m' : Master} {msg : Message} {id : String} {node t : Address} {bsc : BankServerChain}
  {out : List Packet} {p : Packet}

theorem handleMsg_issues (h : m.handleMsg msg = some (m', out)) (hp : p ∈ out) : Issues msg p := by
  cases msg with
  | reqSeq r =>
    obtain ⟨-, rfl⟩ := Prod.mk.inj (Option.some.inj h)
    obtain rfl := List.mem_singleton.mp hp
    exact .newSuccServer rfl
  | join j =>
    simp only [handleMsg, handleJoin, Option.bind_eq_bind, Option.bind_eq_some_iff] at h
    obtain ⟨_, -, _, -, h⟩ := h
    obtain ⟨-, rfl⟩ := Prod.mk.inj (Option.some.inj h)
    obtain rfl := List.mem_singleton.mp hp
    exact .extendServer rfl
  | extendFinish f =>
    simp only [handleMsg, handleExtendFinish, Option.bind_eq_bind, Option.bind_eq_some_iff] at h
    obtain ⟨_, -, h⟩ := h
    obtain ⟨-, rfl⟩ := Prod.mk.inj (Option.some.inj h)
    obtain ⟨a, -, rfl⟩ := List.mem_map.mp hp
    exact .newTail rfl
  | _ =>
    obtain ⟨-, rfl⟩ := Prod.mk.inj (Option.some.inj h)
    cases hp

theorem NotifyCase.reports (h : m.NotifyCase id node bsc m' out) (hp : p ∈ out) :
    Reports bsc node out p := by
  cases h with
  | head head =>
    rcases List.mem_cons.mp hp with rfl | hp
    · exact .toBeHead head
    rcases List.mem_append.mp hp with hp | hp
    · obtain ⟨a, -, rfl⟩ := List.mem_map.mp hp
      exact .client head
    · obtain ⟨e, -, hp⟩ := List.mem_flatMap.mp hp
      obtain ⟨a, -, rfl⟩ := List.mem_map.mp hp
      exact .newHead head
  | tail =>
    rcases List.mem_cons.mp hp with rfl | hp
    · exact .toBeTail
    rcases List.mem_append.mp hp with hp | hp
    · obtain ⟨a, -, rfl⟩ := List.mem_map.mp hp
      exact .newTail List.mem_cons_self
    · split_ifs at hp
      · cases hp
      · obtain rfl := List.mem_singleton.mp hp
        exact .extendServer
  | internal =>
    obtain rfl := List.mem_singleton.mp hp
    exact .newPreServer
  | extending =>
    obtain rfl := List.mem_singleton.mp hp
    exact .extendFail

lemma handleMsg_not_news (h : m.handleMsg msg = some (m', out)) (hp : p ∈ out) {msg' : Message}
    (htcp : p.tcp? = some (t, msg')) : msg'.isNews = false := by
  cases handleMsg_issues h hp with
  | newTail => cases htcp
  | _ =>
    obtain ⟨-, rfl⟩ := Prod.mk.inj (Option.some.inj htcp)
    rfl

/-- The branches of `notify_crash` that leave `head_` alone announce no head, and none sends `JOIN`. -/
lemma NotifyCase.not_news (h : m.NotifyCase id node bsc m' out) (hp : p ∈ out)
    (htcp : p.tcp? = some (t, msg)) : msg.isNews = false ∨ node = bsc.head ∧ ∃ n, msg = .newHead n := by
  cases h.reports hp with
  | client | newTail => cases htcp
  | newHead head =>
    obtain ⟨-, rfl⟩ := Prod.mk.inj (Option.some.inj htcp)
    exact Or.inr ⟨head, _, rfl⟩
  | _ =>
    obtain ⟨-, rfl⟩ := Prod.mk.inj (Option.some.inj htcp)
    exact Or.inl rfl

lemma NotifyCase.addr (h : m.NotifyCase id node bsc m' out) : m'.addr = m.addr := by
  cases h with
  | head _ _ _ set => rw [set]; rfl
  | tail _ _ _ set => rw [set]; rfl
  | internal => rfl
  | extending => rfl

end Master

variable {cfg : Config} {σ σ' : System} {l : Label} {x y : Address}

/-- Only the master announces heads, a `JOIN` names the server that has sent it, and the master extends no
chain. -/
structure Origins (σ : System) : Prop where
  newHead : ∀ u y n, .newHead n ∈ σ.link u y → u = σ.master.addr
  join : ∀ u y j, .join j ∈ σ.link u y → j.serverAddr ≠ σ.master.addr
  localAddr : ∀ y, y ≠ σ.master.addr → σ.crashed y = false → (σ.server y).localAddr = y
  thread : σ.thread σ.master.addr = []

namespace Origins

lemma init : Origins cfg.init := by
  refine ⟨?_, ?_, ?_, rfl⟩
  · intro u y n hn
    cases hn
  · intro u y j hj
    cases hj
  · intro y hy hlive
    have hconf : cfg.bankOf y ≠ none := by
      intro hnone
      have hne : y ≠ cfg.master := hy
      simp [Config.init, hnone, hne] at hlive
    obtain ⟨b, hb⟩ := Option.ne_none_iff_exists'.mp hconf
    change (cfg.initServer y).localAddr = y
    rw [Config.initServer, hb]

lemma of_links (h : Origins σ) (addr : σ'.master.addr = σ.master.addr)
    (localAddr : ∀ y, σ'.crashed y = false →
      σ.crashed y = false ∧ (σ'.server y).localAddr = (σ.server y).localAddr)
    (link : ∀ u y m, m ∈ σ'.link u y → m ∈ σ.link u y ∨ m.isNews = false ∨
      u = σ.master.addr ∧ (∃ n, m = .newHead n) ∨
      ∃ j, m = .join j ∧ j.serverAddr ≠ σ.master.addr)
    (thread : σ'.thread σ.master.addr = σ.thread σ.master.addr) : Origins σ' := by
  refine ⟨?_, ?_, ?_, by rw [addr, thread, h.thread]⟩
  · intro u y n hn
    rw [addr]
    rcases link u y _ hn with hn | hn | ⟨hu, -⟩ | ⟨j, hj, -⟩
    · exact h.newHead u y n hn
    · cases hn
    · exact hu
    · cases hj
  · intro u y j hj
    rw [addr]
    rcases link u y _ hj with hj | hj | ⟨-, n, hn⟩ | ⟨j', hj', hne⟩
    · exact h.join u y j hj
    · cases hj
    · cases hn
    · obtain rfl := Message.join.inj hj'
      exact hne
  · intro y hy hlive
    rw [addr] at hy
    obtain ⟨hlive, hsame⟩ := localAddr y hlive
    rw [hsame]
    exact h.localAddr y hy hlive

/-- The master hands over messages. -/
lemma master_emit (h : Origins σ) {L : Links Address Message} (hL : ∀ u y m, m ∈ L u y → m ∈ σ.link u y)
    {m : Master} (haddr : m.addr = σ.master.addr) {out : List Packet}
    (hout : ∀ p ∈ out, ∀ t msg, p.tcp? = some (t, msg) → msg.isNews = false ∨ ∃ n, msg = .newHead n) :
    Origins ({ σ with link := L, master := m }.emit m.addr out) := by
  refine h.of_links haddr (fun y hlive => ⟨hlive, rfl⟩) (fun u y msg hmsg => ?_) rfl
  simp only [System.emit, Links.mem_send] at hmsg
  rcases hmsg with hmsg | ⟨rfl, hmsg⟩
  · exact Or.inl (hL u y msg hmsg)
  · obtain ⟨p, hp, htcp⟩ := List.mem_filterMap.mp hmsg
    rcases hout p hp y msg htcp with hnews | hnew
    · exact Or.inr (Or.inl hnews)
    · exact Or.inr (Or.inr (Or.inl ⟨haddr, hnew⟩))

lemma kill (h : Origins σ) (x : Address) : Origins (σ.kill x) := by
  refine h.of_links rfl (fun y hlive => ⟨?_, rfl⟩) (fun u y m hm => Or.inl hm) rfl
  simp only [System.kill] at hlive
  by_cases hy : y = x
  · subst hy
    rw [Function.update_self] at hlive
    cases hlive
  · rwa [Function.update_of_ne hy] at hlive

/-- Only servers extend chains. -/
lemma ne_master (h : Origins σ) {i : ℕ} {t : ExtendThread} (ht : (σ.thread x)[i]? = some t) :
    x ≠ σ.master.addr := by
  rintro rfl
  rw [h.thread] at ht
  cases ht

/-- A server hands over messages of its extension thread. -/
lemma thread_emit (h : Origins σ) (hne : y ≠ σ.master.addr) {S : Address → ChainServer}
    (hS : ∀ y, (S y).localAddr = (σ.server y).localAddr) {out : List Packet}
    (hout : ∀ p ∈ out, ∀ t msg, p.tcp? = some (t, msg) → msg.isNews = false)
    (ts : List ExtendThread) :
    Origins ((({ σ with server := S } : System).emit x out).setThreads y ts) := by
  refine h.of_links rfl (fun z hlive => ⟨hlive, hS z⟩) (fun u z msg hmsg => ?_)
    (Function.update_of_ne (Ne.symm hne) _ _)
  simp only [System.setThreads, System.emit, Links.mem_send] at hmsg
  rcases hmsg with hmsg | ⟨-, hmsg⟩
  · exact Or.inl hmsg
  · obtain ⟨p, hp, htcp⟩ := List.mem_filterMap.mp hmsg
    exact Or.inr (Or.inl (hout p hp z msg htcp))

theorem step (h : Origins σ) (hs : σ.step l = some σ') : Origins σ' := by
  cases System.join_cases hs with
  | @serve _ x msg L out τ taken serve =>
    refine h.of_links ?_ ?_ ?_ ?_
    · rw [System.spawn_master, serve.master]
    · rw [System.spawn_crashed, System.spawn_server]
      intro y hlive
      refine ⟨serve.live_of_live hlive, ?_⟩
      by_cases hy : y = x
      · subst hy
        rw [serve.server_self]
        exact (ChainServer.handleMsg_roleChange _ _ _).localAddr
      · rw [serve.server_of_ne hy]
    · intro u y m hm
      rw [System.spawn_link] at hm
      rcases serve.mem_link taken hm with hm | ⟨-, p, hp, htcp⟩
      · exact Or.inl hm
      · have hsends := ChainServer.handleMsg_sends (serve.out_prefix.subset hp) htcp
        exact Or.inr (Or.inl hsends.not_news)
    · rw [← serve.thread]
      cases msg with
      | extendServer a => exact Function.update_of_ne (Ne.symm serve.ne_master) _ _
      | _ => rfl
  | crash => exact h.kill _
  | master live head handled =>
    refine h.master_emit (fun _ _ _ => Links.mem_of_mem_recv _ _ _) (System.handleMsg_addr handled) ?_
    exact fun p hp t msg htcp => Or.inl (Master.handleMsg_not_news handled hp htcp)
  | refuse live head =>
    apply Origins.kill
    exact h.of_links rfl (fun y hlive => ⟨hlive, rfl⟩)
      (fun _ _ _ hm => Or.inl (Links.mem_of_mem_recv _ _ _ hm)) rfl
  | detect live dead lookup mem case =>
    refine h.master_emit (fun _ _ _ => id) case.addr ?_
    exact fun p hp t msg htcp => (case.not_news hp htcp).imp id And.right
  | @join s ne_master live =>
    refine h.of_links rfl (fun y hlive => ⟨hlive, rfl⟩) (fun u y m hm => ?_) rfl
    simp only [System.emit, Links.mem_send] at hm
    rcases hm with hm | ⟨-, hm⟩
    · exact Or.inl hm
    · have hm : (y, m) = (σ.master.addr, Message.join
          { bankId := (σ.server s).bankId, serverAddr := (σ.server s).localAddr }) := by simpa using hm
      obtain ⟨-, rfl⟩ := Prod.mk.inj hm
      refine Or.inr (Or.inr (Or.inr ⟨_, rfl, ?_⟩))
      rw [h.localAddr s ne_master live]
      exact ne_master
  | snapshot live spawned =>
    exact h.of_links rfl (fun y hlive => ⟨hlive, rfl⟩) (fun _ _ _ hm => Or.inl hm)
      (Function.update_of_ne (h.ne_master spawned).symm _ _)
  | @giveUp s i =>
    refine h.of_links rfl (fun y hlive => ⟨hlive, rfl⟩) (fun _ _ _ hm => Or.inl hm) ?_
    by_cases hs : s = σ.master.addr
    · subst hs
      change Function.update _ _ _ _ = _
      rw [Function.update_self, h.thread, List.eraseIdx_nil]
    · exact Function.update_of_ne (Ne.symm hs) _ _
  | extendSend live sending =>
    refine h.thread_emit (h.ne_master sending) (fun _ => rfl) (fun p hp t msg htcp => ?_) _
    obtain rfl := List.mem_singleton.mp hp
    obtain ⟨-, rfl⟩ := Prod.mk.inj (Option.some.inj htcp)
    rfl
  | @finish s i k out _ live sending block complete =>
    have hfinish : Origins (σ.finish s i out) := by
      refine h.thread_emit (h.ne_master sending) (fun y => ?_) (fun p hp t msg htcp => ?_) _
      · by_cases hy : y = s
        · subst hy
          rw [Function.update_self, System.extendBlock]
          split_ifs <;> rfl
        · rw [Function.update_of_ne hy]
      · have hp := block.subset hp
        rw [System.extendBlock] at hp
        split_ifs at hp
        · cases hp
        · obtain ⟨m, -, rfl⟩ := List.mem_map.mp hp
          obtain ⟨-, rfl⟩ := Prod.mk.inj (Option.some.inj htcp)
          rfl
    rcases complete with rfl | rfl
    · exact hfinish
    · exact hfinish.kill s

end Origins

end ChainReplication
