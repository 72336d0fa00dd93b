import ChainReplication.Extension.Shape

/-!
# The master's orders to a tail

`TO_BE_TAIL` and `EXTEND_SERVER` travel on one link, in this order. So a server that extends its chain
for a living server has no `TO_BE_TAIL` before it.
-/

namespace ChainReplication

open scoped List

/-- The orders that the master gives a tail. -/
def Message.isOrder : Message → Bool
  | .toBeTail | .extendServer _ => true
  | _ => false

/-- The joining server of the bank is alive. -/
def Alive (b : BankConfig) (σ : System) : Prop := ∃ y, Joiner b σ y ∧ σ.crashed y = false

/-- While the joining server of the bank is alive, no server that extends the chain is told to act as
the tail again. -/
structure Orders (cfg : Config) (b : BankConfig) (σ : System) : Prop where
  ordered : Alive b σ → ∀ x ∈ b.servers, σ.crashed x = false →
    ∀ a, ¬ (σ.link cfg.master x).Precedes (.extendServer a) .toBeTail
  resting : Alive b σ → ∀ x ∈ b.servers, σ.crashed x = false → σ.thread x ≠ [] →
    .toBeTail ∉ σ.link cfg.master x
  told : Alive b σ → ∀ x ∈ b.servers, σ.crashed x = false →
    (σ.thread x ≠ [] ∨ ∃ a, .extendServer a ∈ σ.link cfg.master x) →
      ∃ bsc, σ.master.bankServerChain.lookup b.bankId = some bsc ∧
        (bsc.tail = x ∧ bsc.extending ≠ .empty ∨ Joiner b σ bsc.tail)

variable {cfg : Config} {b : BankConfig} {σ σ' τ : System} {l : Label} {x y z src : Address}
  {msg m : Message} {L : Links Address Message} {out : List Packet}

lemma Alive.back (h : Alive b σ') (joiner : ∀ y, Joiner b σ' y → Joiner b σ y)
    (live : ∀ x, σ'.crashed x = false → σ.crashed x = false) : Alive b σ := by
  obtain ⟨y, hy, hlive⟩ := h
  exact ⟨y, joiner y hy, live y hlive⟩

/-- An order of one kind before another is one among the orders. -/
lemma precedes_filter {k : List Message} {p : Message → Bool} {m n : Message} (hm : p m = true)
    (hn : p n = true) (h : k.Precedes m n) : (k.filter p).Precedes m n := by
  have hsub := List.Sublist.filter p h
  rwa [List.filter_cons_of_pos hm, List.filter_cons_of_pos hn, List.filter_nil] at hsub

lemma not_precedes_append {k k' : List Message} {m n : Message} (hm : m ∉ k)
    (h : (k ++ k').Precedes m n) : k'.Precedes m n := by
  induction k with
  | nil => exact h
  | cons a k ih =>
    rw [List.cons_append, List.precedes_cons] at h
    rcases h with h | ⟨rfl, -⟩
    · exact ih (fun hin => hm (List.mem_cons_of_mem _ hin)) h
    · exact absurd List.mem_cons_self hm

/-- Packets that are no orders leave the orders on a link alone. -/
lemma filter_send {L : Links Address Message} {a u : Address}
    (h : ∀ p ∈ out, ∀ m, p.tcp? = some (x, m) → m.isOrder = false) :
    (L.send a (out.filterMap Packet.tcp?) u x).filter Message.isOrder =
      (L u x).filter Message.isOrder := by
  by_cases hu : u = a
  · subst hu
    rw [Links.send_self, List.filter_append]
    refine (congrArg _ (List.filter_eq_nil_iff.mpr ?_)).trans (List.append_nil _)
    intro m hm
    obtain ⟨q, hq, heq⟩ := List.mem_filterMap.mp hm
    obtain ⟨p, hp, htcp⟩ := List.mem_filterMap.mp hq
    simp only [Option.ite_none_right_eq_some, Option.some.injEq] at heq
    obtain ⟨rfl, rfl⟩ := heq
    rw [h p hp _ htcp]
    exact Bool.false_ne_true
  · rw [Links.send_of_ne _ _ _ hu]

namespace Orders

lemma init : Orders cfg b cfg.init := by
  have hnobody : ¬ Alive b cfg.init := by
    rintro ⟨y, ⟨-, e, he, -⟩, -⟩
    simp [Config.init] at he
  exact ⟨fun h => absurd h hnobody, fun h => absurd h hnobody, fun h => absurd h hnobody⟩

/-- Steps that give no order and start no thread. -/
lemma frame (h : Orders cfg b σ) (alive : Alive b σ' → Alive b σ)
    (live : ∀ x, σ'.crashed x = false → σ.crashed x = false)
    (order : ∀ x ∈ b.servers, (σ'.link cfg.master x).filter Message.isOrder <+
      (σ.link cfg.master x).filter Message.isOrder)
    (thread : ∀ x ∈ b.servers, σ'.thread x ≠ [] → σ.thread x ≠ [])
    (record : Alive b σ' → ∀ bsc, σ.master.bankServerChain.lookup b.bankId = some bsc →
      ∃ bsc', σ'.master.bankServerChain.lookup b.bankId = some bsc' ∧
        ((∀ x, bsc.tail = x ∧ bsc.extending ≠ .empty ∨ Joiner b σ bsc.tail →
          bsc'.tail = x ∧ bsc'.extending ≠ .empty ∨ Joiner b σ' bsc'.tail))) :
    Orders cfg b σ' := by
  have mem {x : Address} (hx : x ∈ b.servers) {m : Message} (hm : m.isOrder = true)
      (hin : m ∈ σ'.link cfg.master x) : m ∈ σ.link cfg.master x :=
    List.mem_of_mem_filter ((order x hx).subset (List.mem_filter.mpr ⟨hin, hm⟩))
  refine ⟨?_, ?_, ?_⟩
  · intro halive x hx hlive a hprec
    apply h.ordered (alive halive) x hx (live x hlive) a
    have hprec := (precedes_filter (p := Message.isOrder) rfl rfl hprec).of_sublist (order x hx)
    exact hprec.of_sublist List.filter_sublist
  · intro halive x hx hlive hthread hin
    exact h.resting (alive halive) x hx (live x hlive) (thread x hx hthread) (mem hx rfl hin)
  · intro halive x hx hlive htold
    obtain ⟨bsc, hlookup, htail⟩ := h.told (alive halive) x hx (live x hlive)
      (htold.imp (thread x hx) (Exists.imp fun _ => mem hx rfl))
    obtain ⟨bsc', hlookup', hrecord⟩ := record halive bsc hlookup
    exact ⟨bsc', hlookup', hrecord x htail⟩

/-- The records when the master has not changed them and nobody joins. -/
lemma record_same (master : σ'.master.bankServerChain = σ.master.bankServerChain)
    (joiner : ∀ y, Joiner b σ y → Joiner b σ' y) :
    ∀ bsc, σ.master.bankServerChain.lookup b.bankId = some bsc →
      ∃ bsc', σ'.master.bankServerChain.lookup b.bankId = some bsc' ∧
        ((∀ x, bsc.tail = x ∧ bsc.extending ≠ .empty ∨ Joiner b σ bsc.tail →
          bsc'.tail = x ∧ bsc'.extending ≠ .empty ∨ Joiner b σ' bsc'.tail)) := by
  intro bsc hlookup
  refine ⟨bsc, by rw [master]; exact hlookup, fun x htail => htail.imp id (joiner _)⟩

lemma kill (h : Orders cfg b σ) (x : Address) : Orders cfg b (σ.kill x) := by
  have live (y : Address) (hy : (σ.kill x).crashed y = false) : σ.crashed y = false := by
    by_cases hyx : y = x
    · simp [System.kill, hyx] at hy
    · simpa [System.kill, hyx] using hy
  exact h.frame (fun ha => ha.back (fun _ => id) live) live (fun _ _ => .refl _)
    (fun _ _ => id) fun _ => @record_same b σ (σ.kill x) rfl fun _ hy => hy

lemma drop (h : Orders cfg b σ) (src dst : Address) :
    Orders cfg b { σ with link := σ.link.recv src dst } := by
  refine h.frame id (fun _ => id) (fun x _ => ?_) (fun _ _ => id) fun _ => record_same rfl
    fun _ hy => hy
  exact (Extending.recv_sublist _ _ _ _ _).filter _

lemma setThreads (h : Orders cfg b σ) (s : Address) {ts : List ExtendThread}
    (hts : σ.thread s = [] → ts = []) : Orders cfg b (σ.setThreads s ts) := by
  refine @h.frame _ _ _ (σ.setThreads s ts) id (fun _ => id) (fun _ _ => .refl _) (fun x _ hx => ?_)
    fun _ => @record_same b σ (σ.setThreads s ts) rfl fun _ hy => hy
  simp only [System.setThreads] at hx
  by_cases hxs : x = s
  · subst hxs
    rw [Function.update_self] at hx
    exact fun hnil => hx (hts hnil)
  · rwa [Function.update_of_ne hxs] at hx

/-- A process sends packets that are no orders, and the servers change. -/
lemma emit (h : Orders cfg b σ) (a : Address) {S : Address → ChainServer}
    (hout : ∀ p ∈ out, ∀ t m, p.tcp? = some (t, m) → m.isOrder = false)
    (hjoining : ∀ p ∈ out, ∀ t y, p ≠ .tcp t (.extendServer y)) :
    Orders cfg b ({ σ with server := S }.emit a out) := by
  have joiner {y : Address} (hy : Joiner b ({ σ with server := S }.emit a out) y) :
      Joiner b σ y := by
    obtain ⟨hmem, e, he, hy⟩ := hy
    refine ⟨hmem, e, (List.mem_append.mp he).resolve_right fun he => ?_, hy⟩
    obtain ⟨p, hp, rfl⟩ := List.mem_map.mp he
    cases p with
    | tcp t n =>
      cases n with
      | extendServer z => exact hjoining _ hp t z rfl
      | _ => cases hy
    | _ => cases hy
  have joiner' {y : Address} (hy : Joiner b σ y) :
      Joiner b ({ σ with server := S }.emit a out) y := by
    obtain ⟨hmem, e, he, hy⟩ := hy
    exact ⟨hmem, e, List.mem_append_left _ he, hy⟩
  refine h.frame (fun ha => ha.back (fun _ => joiner) fun _ => id) (fun _ => id) (fun x _ => ?_)
    (fun _ _ => id) fun _ => record_same rfl fun _ => joiner'
  change (σ.link.send a (out.filterMap Packet.tcp?) cfg.master x).filter Message.isOrder <+ _
  rw [filter_send fun p hp m htcp => hout p hp x m htcp]

/-! ### A server serves a message -/

section Serve

variable (he : Extending cfg σ) (taken : System.Taken σ z msg L)
  (hs : System.Serve σ z msg L out τ)

include he hs in
lemma serve_link (x : Address) : τ.link cfg.master x = L cfg.master x := by
  rw [hs.link, Links.send_of_ne]
  rw [← he.master]
  exact hs.ne_master.symm

include taken in
lemma taken_sublist (u x : Address) : L u x <+ σ.link u x := by
  cases taken with
  | client => exact .refl _
  | link => exact Extending.recv_sublist _ _ _ _ _

include he in
/-- `EXTEND_SERVER` comes from the master. -/
lemma taken_extendServer {a : Address} (taken : System.Taken σ z (.extendServer a) L) :
    σ.link cfg.master z = .extendServer a :: L cfg.master z := by
  cases taken with
  | @link src _ rest head =>
    obtain ⟨rfl, -⟩ := he.fits src z (.extendServer a) (by rw [head]; exact List.mem_cons_self)
    rw [Links.recv_self, head, List.tail_cons]

include he taken hs in
lemma serve_joiner {y : Address} (hy : Joiner b (τ.spawn z msg) y) : Joiner b σ y := by
  have htrace : (τ.spawn z msg).trace = σ.trace ++ Event.handled z msg :: out.map (.sent z) := by
    rw [System.spawn_trace, hs.trace]
  exact ⟨hy.1, (he.serve_settles taken hs).joining htrace hy.2⟩

include he taken hs in
lemma serve_alive (halive : Alive b (τ.spawn z msg)) : Alive b σ := by
  obtain ⟨y, hy, hlive⟩ := halive
  rw [System.spawn_crashed] at hlive
  exact ⟨y, serve_joiner he taken hs hy, hs.live_of_live hlive⟩

include hs in
lemma serve_thread (hthread : (τ.spawn z msg).thread x ≠ []) :
    σ.thread x ≠ [] ∨ x = z ∧ ∃ a, msg = .extendServer a := by
  obtain ⟨t, ht⟩ := List.exists_mem_of_ne_nil _ hthread
  rcases System.mem_spawn_thread τ z msg ht with ht | ⟨hx, -, ha⟩
  · rw [hs.thread] at ht
    exact Or.inl (List.ne_nil_of_mem ht)
  · exact Or.inr ⟨hx, ha⟩

include he taken hs in
lemma serve (h : Orders cfg b σ) : Orders cfg b (τ.spawn z msg) := by
  have hlink (x : Address) : (τ.spawn z msg).link cfg.master x <+ σ.link cfg.master x := by
    rw [System.spawn_link, serve_link he hs]
    exact taken_sublist taken _ _
  have hlive {x : Address} (hx : (τ.spawn z msg).crashed x = false) : σ.crashed x = false := by
    rw [System.spawn_crashed] at hx
    exact hs.live_of_live hx
  have hjoiner {y : Address} (hy : Joiner b σ y) : Joiner b (τ.spawn z msg) y := by
    obtain ⟨hmem, e, hin, hy⟩ := hy
    refine ⟨hmem, e, ?_, hy⟩
    rw [System.spawn_trace, hs.trace]
    exact List.mem_append_left _ hin
  refine ⟨?_, ?_, ?_⟩
  · intro halive x hx hxlive a hprec
    exact h.ordered (serve_alive he taken hs halive) x hx (hlive hxlive) a
      (hprec.of_sublist (hlink x))
  · intro halive x hx hxlive hthread hin
    have hold := serve_alive he taken hs halive
    rcases serve_thread hs hthread with hthread | ⟨rfl, a, rfl⟩
    · exact h.resting hold x hx (hlive hxlive) hthread ((hlink x).subset hin)
    · apply h.ordered hold x hx (hlive hxlive) a
      rw [System.spawn_link, serve_link he hs] at hin
      rw [taken_extendServer he taken, List.precedes_cons]
      exact Or.inr ⟨rfl, hin⟩
  · intro halive x hx hxlive htold
    have halive := serve_alive he taken hs halive
    rw [System.spawn_master, hs.master]
    have hold : σ.thread x ≠ [] ∨ ∃ a, .extendServer a ∈ σ.link cfg.master x := by
      rcases htold with hthread | ⟨a, ha⟩
      · rcases serve_thread hs hthread with hthread | ⟨rfl, a, rfl⟩
        · exact Or.inl hthread
        · right
          rw [taken_extendServer he taken]
          exact ⟨a, List.mem_cons_self⟩
      · exact Or.inr ⟨a, (hlink x).subset ha⟩
    obtain ⟨bsc, hlookup, htail⟩ := h.told halive x hx (hlive hxlive) hold
    exact ⟨bsc, hlookup, htail.imp id hjoiner⟩

end Serve

/-! ### Steps of the master -/

section Master

variable (h : Orders cfg b σ) (he : Extending cfg σ) (hb : b ∈ cfg.banks)
include h he hb

lemma extendFinish {f : ExtendFinish} {rest : List Message}
    (head : σ.link src σ.master.addr = .extendFinish f :: rest) {m : Master} {out : List Packet}
    (hm : σ.master.handleExtendFinish f = some (m, out)) :
    Orders cfg b ({ σ with link := σ.link.recv src σ.master.addr, master := m }.emit m.addr out) := by
  obtain ⟨b', hb', hid, hy⟩ := he.fits src _ (.extendFinish f)
    (by rw [head]; exact List.mem_cons_self)
  obtain ⟨id, a⟩ := f
  obtain rfl : id = b'.bankId := hid
  obtain ⟨bsc, c, hlookup, hrec⟩ := he.record b' hb'
  simp only [Master.handleExtendFinish, hlookup, Option.bind_eq_bind, Option.bind_some] at hm
  obtain ⟨rfl, rfl⟩ := Prod.mk.inj (Option.some.inj hm)
  -- the clients hear of the new tail by UDP
  have hset : Orders cfg b { σ with
      link := σ.link.recv src σ.master.addr
      master := σ.master.setChain b'.bankId { bsc with tail := a, extending := .empty } } := by
    refine (h.drop src σ.master.addr).frame id (fun _ => id) (fun _ _ => .refl _) (fun _ _ => id) ?_
    intro _ bsc' hlookup'
    by_cases hid : b.bankId = b'.bankId
    · obtain rfl : b = b' := List.inj_on_of_nodup_map cfg.bankIds_nodup hb hb' hid
      exact ⟨_, AList.lookup_insert _, fun x _ => Or.inr hy⟩
    · exact ⟨bsc', (AList.lookup_insert_ne hid).trans hlookup', fun x htail => htail⟩
  apply hset.emit
  · intro p hp t n htcp
    obtain ⟨q, -, rfl⟩ := List.mem_map.mp hp
    cases htcp
  · intro p hp t y heq
    obtain ⟨q, -, rfl⟩ := List.mem_map.mp hp
    cases heq

section Admitted

variable {b' : BankConfig} {bsc : BankServerChain} {c : List Address}

omit h hb in
/-- The order is the last message to the tail. -/
lemma admitted_link (ha : Admitted cfg b' σ src bsc c σ') (x : Address) :
    σ'.link cfg.master x = σ.link.recv src σ.master.addr cfg.master x ++
      if x = bsc.tail then [.extendServer src] else [] := by
  rw [ha.link, ← he.master, Links.send_self]
  split_ifs with hx
  · simp [hx]
  · simp [Ne.symm hx]

omit h in
/-- Before, no server of the bank has a thread. -/
lemma admitted_thread (ha : Admitted cfg b σ src bsc c σ') (hx : x ∈ b.servers)
    (hlive : σ.crashed x = false) : σ.thread x = [] := by
  by_contra hne
  obtain ⟨t, ht⟩ := List.exists_mem_of_ne_nil _ hne
  obtain ⟨b'', hb'', hx'', -, y, hy, -⟩ := he.thread x hlive t ht
  obtain rfl := Config.bank_unique_servers hb hb'' hx hx''
  exact (he.idle_of_fresh hb ha.recorded ha.extend ha.asked ha.fresh).2.2.2 y hy

omit h in
/-- Before, no server of the bank has an order to start one. -/
lemma admitted_order (ha : Admitted cfg b σ src bsc c σ') (hx : x ∈ b.servers) (a : Address) :
    .extendServer a ∉ σ.link cfg.master x := by
  intro hin
  obtain ⟨-, b'', hb'', hx'', -, hj⟩ := he.fits _ _ _ hin
  obtain rfl := Config.bank_unique_servers hb hb'' hx hx''
  exact (he.idle_of_fresh hb ha.recorded ha.extend ha.asked ha.fresh).2.2.2 a hj

omit h in
/-- The master lets a server into the bank. -/
lemma of_admitted_own (ha : Admitted cfg b σ src bsc c σ') : Orders cfg b σ' := by
  have hrecv (x : Address) : σ.link.recv src σ.master.addr cfg.master x <+ σ.link cfg.master x :=
    Extending.recv_sublist _ _ _ _ _
  refine ⟨?_, ?_, ?_⟩
  · intro _ x hx _ a hprec
    rw [admitted_link he ha] at hprec
    have hprec := not_precedes_append
      (fun hin => admitted_order he hb ha hx a ((hrecv x).subset hin)) hprec
    split_ifs at hprec
    · exact absurd hprec.length_le (by simp)
    · exact absurd hprec.length_le (by simp)
  · intro _ x hx hlive hne
    rw [ha.thread] at hne
    rw [ha.crashed] at hlive
    exact absurd (admitted_thread he hb ha hx hlive) hne
  · intro _ x hx hlive htold
    rw [ha.crashed] at hlive
    rw [ha.master]
    refine ⟨_, AList.lookup_insert _, Or.inl ?_⟩
    rcases htold with hne | ⟨a, hin⟩
    · rw [ha.thread] at hne
      exact absurd (admitted_thread he hb ha hx hlive) hne
    · rw [admitted_link he ha, List.mem_append] at hin
      rcases hin with hin | hin
      · exact absurd ((hrecv x).subset hin) (admitted_order he hb ha hx a)
      · split_ifs at hin with htail
        · refine ⟨htail.symm, ?_⟩
          rintro rfl
          apply cfg.empty_notMem
          apply List.mem_cons_of_mem
          exact List.mem_flatMap.mpr ⟨b, hb, List.mem_append_right _ ha.extend⟩
        · cases hin

/-- The master lets a server into another bank. -/
lemma of_admitted_other (ha : Admitted cfg b' σ src bsc c σ') (hid : b.bankId ≠ b'.bankId) :
    Orders cfg b σ' := by
  have live (x : Address) (hx : σ'.crashed x = false) : σ.crashed x = false := by
    rwa [ha.crashed] at hx
  refine h.frame (fun halive => halive.back (fun _ => ha.joiner_other hb hid) live) live ?_ ?_ ?_
  · intro x hx
    have hne : x ≠ bsc.tail := by
      rintro rfl
      obtain ⟨-, hlast, -, -⟩ := he.idle_of_fresh ha.bank ha.recorded ha.extend ha.asked ha.fresh
      have hx' := ha.recorded.sub.subset (List.mem_of_getLast? hlast)
      obtain rfl := Config.bank_unique_servers hb ha.bank hx hx'
      exact hid rfl
    rw [admitted_link he ha, if_neg hne, List.append_nil]
    exact (Extending.recv_sublist _ _ _ _ _).filter _
  · rw [ha.thread]
    exact fun _ _ => id
  · intro _ bsc' hlookup'
    rw [ha.master]
    exact ⟨bsc', (AList.lookup_insert_ne hid).trans hlookup',
      fun x htail => htail.imp id (Joiner.lasts · ha.lasts)⟩

/-- The master lets a server in and tells the tail. -/
lemma of_admitted (ha : Admitted cfg b' σ src bsc c σ') : Orders cfg b σ' := by
  by_cases hid : b.bankId = b'.bankId
  · obtain rfl : b = b' := List.inj_on_of_nodup_map cfg.bankIds_nodup hb ha.bank hid
    exact of_admitted_own he hb ha
  · exact h.of_admitted_other he hb ha hid

end Admitted

omit h he hb in
/-- Only the crash of a tail makes the master give orders. -/
lemma notify_order {id : String} {node : Address} {bsc : BankServerChain} {m : Master}
    {out : List Packet} (hcase : Master.NotifyCase σ.master id node bsc m out)
    (hother : node ≠ bsc.head → node ≠ bsc.tail) {p : Packet} (hp : p ∈ out) {t : Address}
    {n : Message} (htcp : p.tcp? = some (t, n)) : n.isOrder = false := by
  have sent {a : Address} {n' : Message} (heq : (Packet.tcp a n').tcp? = some (t, n)) : n' = n := by
    rw [Packet.tcp?_tcp] at heq
    exact (Prod.mk.inj (Option.some.inj heq)).2
  cases hcase with
  | head head tail next set =>
    rcases List.mem_cons.mp hp with rfl | hp
    · rw [← sent htcp]
      rfl
    · rcases List.mem_append.mp hp with hp | hp
      · obtain ⟨a, -, rfl⟩ := List.mem_map.mp hp
        cases htcp
      · obtain ⟨e, -, he⟩ := List.mem_flatMap.mp hp
        obtain ⟨a, -, rfl⟩ := List.mem_map.mp he
        rw [← sent htcp]
        rfl
  | tail head tail => exact absurd tail (hother head)
  | internal =>
    obtain rfl := List.mem_singleton.mp hp
    rw [← sent htcp]
    rfl
  | extending =>
    obtain rfl := List.mem_singleton.mp hp
    rw [← sent htcp]
    rfl

omit h he hb in
/-- The notices of a crash let nobody in. -/
lemma notify_joiner (hb' : b ∈ cfg.banks) {node : Address} {bsc : BankServerChain} {m : Master}
    {c : List Address} {out : List Packet} (hrec : Recorded b σ bsc c)
    (hdead : σ.crashed node = true) (hmem : node ∈ bsc.serverChain)
    (hcase : Master.NotifyCase σ.master b.bankId node bsc m out) {b' : BankConfig}
    (hy : Joiner b' ({ σ with master := m }.emit m.addr out) y) : Joiner b' σ y := by
  obtain ⟨bsc', -, hrec', hnotice⟩ := hrec.notified hb' hdead hmem hcase
  have hsettles : Extending.Settles σ (out.map (.sent m.addr)) := by
    apply Extending.settles_sent
    intro p hp t n heq
    subst heq
    have hfits := Extending.joinNotice_fits hb' hrec' (hnotice _ hp t n rfl)
    exact ⟨hfits.1, hfits.2.1⟩
  exact ⟨hy.1, hsettles.joining rfl hy.2⟩

/-- The tail crashes while its bank is extended: the server before it is told. -/
lemma detect_tail {node newTail : Address} {bsc : BankServerChain} {m : Master}
    (hdead : σ.crashed node = true)
    (hlookup : σ.master.bankServerChain.lookup b.bankId = some bsc) (htail : node = bsc.tail)
    (hold : Alive b σ' → Alive b σ)
    (hset : m = σ.master.setChain b.bankId
      { bsc with tail := newTail, serverChain := bsc.serverChain.erase node })
    (hσ' : σ' = ({ σ with master := m } : System).emit cfg.master (Packet.tcp newTail .toBeTail ::
      (m.notifyClients (.newTail { bankId := b.bankId, serverAddr := newTail }) ++
        if bsc.extending = Address.empty then []
        else [Packet.tcp newTail (.extendServer bsc.extending)]))) :
    Orders cfg b σ' := by
  have hcrashed : σ'.crashed = σ.crashed := by rw [hσ']; rfl
  have hthread : σ'.thread = σ.thread := by rw [hσ']; rfl
  have hmaster : σ'.master = m := by rw [hσ']; rfl
  have hlink (x : Address) : σ'.link cfg.master x = σ.link cfg.master x ++
      if x = newTail then Message.toBeTail ::
        if bsc.extending = Address.empty then [] else [Message.extendServer bsc.extending]
      else [] := by
    have hclients : (m.notifyClients (.newTail { bankId := b.bankId, serverAddr := newTail })).filterMap
        Packet.tcp? = [] := by
      rw [List.filterMap_eq_nil_iff]
      intro p hp
      obtain ⟨a, -, rfl⟩ := List.mem_map.mp hp
      rfl
    rw [hσ']
    simp only [System.emit, Links.send_self, List.filterMap_cons, Packet.tcp?_tcp,
      List.filterMap_append, hclients, List.nil_append]
    by_cases hx : x = newTail
    · subst hx
      by_cases hempty : bsc.extending = Address.empty <;> simp [hempty]
    · by_cases hempty : bsc.extending = Address.empty <;> simp [hx, Ne.symm hx, hempty]
  -- no live server has been told of the joining server
  have hidle (halive : Alive b σ') {x : Address} (hx : x ∈ b.servers) (hlive : σ.crashed x = false) :
      ¬ (σ.thread x ≠ [] ∨ ∃ a, .extendServer a ∈ σ.link cfg.master x) := by
    intro htold
    obtain ⟨bsc', hlookup', hcase⟩ := h.told (hold halive) x hx hlive htold
    rw [hlookup] at hlookup'
    obtain rfl := Option.some.inj hlookup'
    rw [htail] at hdead
    rcases hcase with ⟨rfl, -⟩ | hjoiner
    · rw [hlive] at hdead
      cases hdead
    · obtain ⟨y, hy, hylive⟩ := hold halive
      rw [he.joiner_unique hb hjoiner hy, hylive] at hdead
      cases hdead
  refine ⟨?_, ?_, ?_⟩
  · intro halive x hx hlive a hprec
    rw [hcrashed] at hlive
    rw [hlink] at hprec
    have hprec := not_precedes_append
      (fun hin => hidle halive hx hlive (Or.inr ⟨a, hin⟩)) hprec
    split_ifs at hprec
    · exact absurd hprec.length_le (by simp)
    · rw [List.precedes_cons] at hprec
      rcases hprec with hprec | ⟨heq, -⟩
      · exact absurd hprec.length_le (by simp)
      · cases heq
    · exact absurd hprec.length_le (by simp)
  · intro halive x hx hlive hne
    rw [hcrashed] at hlive
    rw [hthread] at hne
    exact absurd (Or.inl hne) (hidle halive hx hlive)
  · intro halive x hx hlive htold
    rw [hcrashed] at hlive
    rw [hmaster, hset]
    refine ⟨_, AList.lookup_insert _, Or.inl ?_⟩
    rcases htold with hne | ⟨a, ha⟩
    · rw [hthread] at hne
      exact absurd (Or.inl hne) (hidle halive hx hlive)
    · rw [hlink, List.mem_append] at ha
      rcases ha with ha | ha
      · exact absurd (Or.inr ⟨a, ha⟩) (hidle halive hx hlive)
      · split_ifs at ha with hx' hempty
        · simp at ha
        · exact ⟨hx'.symm, hempty⟩
        · cases ha

omit h in
/-- A server other than the tail crashes: the record names the same tail. -/
lemma record_notify {node : Address} {bsc : BankServerChain} {c : List Address} {m : Master}
    {out : List Packet} (hrec : Recorded b σ bsc c) (hdead : σ.crashed node = true)
    (hmem : node ∈ bsc.serverChain) (hother : node ≠ bsc.head → node ≠ bsc.tail)
    (hcase : Master.NotifyCase σ.master b.bankId node bsc m out) (halive : Alive b σ) :
    ∃ bsc', m.bankServerChain.lookup b.bankId = some bsc' ∧
      bsc'.tail = bsc.tail ∧ bsc'.extending = bsc.extending := by
  cases hcase with
  | head head tail next set =>
    rw [set]
    exact ⟨_, AList.lookup_insert _, rfl, rfl⟩
  | tail head tail => exact absurd tail (hother head)
  | internal => exact ⟨_, AList.lookup_insert _, rfl, rfl⟩
  | extending head tail extending prev =>
    obtain ⟨hjoiner, -⟩ := hrec.notified_extending hb hdead hmem extending prev
    obtain ⟨y, hy, hlive⟩ := halive
    rw [he.joiner_unique hb hjoiner hy, hlive] at hdead
    cases hdead

lemma detect {id : String} {node : Address} {bsc : BankServerChain} {m : Master}
    {out : List Packet} (hdead : σ.crashed node = true)
    (hlookup : σ.master.bankServerChain.lookup id = some bsc) (hmem : node ∈ bsc.serverChain)
    (hcase : Master.NotifyCase σ.master id node bsc m out) :
    Orders cfg b ({ σ with master := m }.emit m.addr out) := by
  obtain ⟨b', hb', rfl⟩ := he.bank id bsc hlookup
  obtain ⟨bsc', c, hlookup', hrec⟩ := he.record b' hb'
  rw [hlookup] at hlookup'
  obtain rfl := Option.some.inj hlookup'
  obtain ⟨bsc', hm, hrec', hnotice⟩ := hrec.notified hb' hdead hmem hcase
  have hold {y : Address} (hy : Joiner b ({ σ with master := m }.emit m.addr out) y) :
      Joiner b σ y := notify_joiner hb' hrec hdead hmem hcase hy
  have hkept {y : Address} (hy : Joiner b σ y) :
      Joiner b ({ σ with master := m }.emit m.addr out) y := by
    obtain ⟨hmem, e, hin, hy⟩ := hy
    exact ⟨hmem, e, List.mem_append_left _ hin, hy⟩
  have halive : Alive b ({ σ with master := m }.emit m.addr out) → Alive b σ :=
    fun ha => ha.back (fun _ => hold) fun _ => id
  by_cases hid : b.bankId = b'.bankId
  · obtain rfl : b = b' := List.inj_on_of_nodup_map cfg.bankIds_nodup hb hb' hid
    by_cases hother : node ≠ bsc.head → node ≠ bsc.tail
    · refine h.frame halive (fun _ => id) (fun x _ => ?_) (fun _ _ => id) ?_
      · change (σ.link.send m.addr (out.filterMap Packet.tcp?) cfg.master x).filter
          Message.isOrder <+ _
        rw [filter_send fun p hp n htcp => notify_order hcase hother hp htcp]
      · intro hal bsc'' hlookup''
        rw [hlookup] at hlookup''
        obtain rfl := Option.some.inj hlookup''
        obtain ⟨bsc'', hl, htail, hextending⟩ :=
          record_notify he hb hrec hdead hmem hother hcase (halive hal)
        refine ⟨bsc'', hl, fun x hx => ?_⟩
        rw [htail, hextending]
        exact hx.imp id hkept
    · rw [Classical.not_imp, not_not] at hother
      cases hcase with
      | head head => exact absurd head hother.1
      | tail head tail prev set =>
        have haddr : m.addr = cfg.master := by
          rw [set]
          exact he.master
        apply h.detect_tail he hb hdead hlookup tail halive set
        rw [haddr]
      | internal head tail => exact absurd hother.2 tail
      | extending head tail => exact absurd hother.2 tail
  · refine h.frame halive (fun _ => id) (fun x hx => ?_) (fun _ _ => id) ?_
    · change (σ.link.send m.addr (out.filterMap Packet.tcp?) cfg.master x).filter
        Message.isOrder <+ _
      have other (hlast : (c.erase node).getLast? = some x) : False := by
        obtain rfl := Config.bank_unique_servers hb hb' hx
          (hrec'.sub.subset (List.mem_of_getLast? hlast))
        exact hid rfl
      rw [filter_send fun p hp n htcp => ?_]
      cases hnotice p hp x n htcp with
      | toBeTail last => exact (other last).elim
      | extendServer last => exact (other last).elim
      | _ => rfl
    · intro _ bsc'' hlookup''
      refine ⟨bsc'', ?_, fun x htail => htail.imp id hkept⟩
      change m.bankServerChain.lookup b.bankId = some bsc''
      rw [hm]
      exact (AList.lookup_insert_ne hid).trans hlookup''

end Master

/-! ### Runs -/

lemma thread_ne_nil {s : Address} {i : ℕ} {t : ExtendThread} (ht : (σ.thread s)[i]? = some t) :
    σ.thread s ≠ [] := List.ne_nil_of_mem (List.mem_of_getElem? ht)

theorem step (h : Orders cfg b σ) (he : Extending cfg σ) (hb : b ∈ cfg.banks)
    (hs : σ.step l = some σ') : Orders cfg b σ' := by
  cases System.join_cases hs with
  | serve taken serve => exact h.serve he taken serve
  | crash => exact h.kill _
  | @master src msg rest k m out live head handled =>
    cases msg with
    | reqSeq r =>
      obtain ⟨rfl, rfl⟩ := Prod.mk.inj (Option.some.inj handled)
      apply (h.drop src σ.master.addr).emit
      · intro p hp t n htcp
        obtain rfl := List.mem_singleton.mp hp
        rw [Packet.tcp?_tcp] at htcp
        obtain ⟨-, rfl⟩ := Prod.mk.inj (Option.some.inj htcp)
        rfl
      · simp [Master.notifyInternalCrashToPreserver]
    | join j =>
      obtain ⟨b', bsc, c, ha⟩ := he.admitted head handled
      exact h.of_admitted he hb ha
    | extendFinish f => exact h.extendFinish he hb head handled
    | _ =>
      obtain ⟨rfl, rfl⟩ := Prod.mk.inj (Option.some.inj handled)
      exact (h.drop src σ.master.addr).emit _ (by simp) (by simp)
  | refuse => exact (h.drop _ _).kill _
  | detect live dead lookup mem case => exact h.detect he hb dead lookup mem case
  | join =>
    apply h.emit
    · intro p hp t n htcp
      obtain rfl := List.mem_singleton.mp hp
      rw [Packet.tcp?_tcp] at htcp
      obtain ⟨-, rfl⟩ := Prod.mk.inj (Option.some.inj htcp)
      rfl
    · simp
  | snapshot live spawned => exact h.setThreads _ fun hnil => absurd hnil (thread_ne_nil spawned)
  | giveUp => exact h.setThreads _ fun hnil => by rw [hnil, List.eraseIdx_nil]
  | @extendSend s i e ms live sending =>
    have hemit : Orders cfg b (σ.emit s [.tcp (σ.server s).succServerAddr (.extendMsg e)]) := by
      apply h.emit
      · intro p hp t n htcp
        obtain rfl := List.mem_singleton.mp hp
        rw [Packet.tcp?_tcp] at htcp
        obtain ⟨-, rfl⟩ := Prod.mk.inj (Option.some.inj htcp)
        rfl
      · simp
    exact hemit.setThreads _ fun hnil => absurd hnil (thread_ne_nil sending)
  | @finish s i k out _ live sending block complete =>
    have extend {p : Packet} (hp : p ∈ out) : ∃ t e, p = .tcp t (.extendMsg e) := by
      obtain ⟨b', -, -, -, e, heq⟩ :=
        he.mem_extendBlock live (List.mem_of_getElem? sending) (block.subset hp)
      exact ⟨_, e, heq⟩
    have hemit : Orders cfg b
        (({ σ with server := Function.update σ.server s (σ.extendBlock s).server } : System).emit s
          out) := by
      apply h.emit
      · intro p hp t n htcp
        obtain ⟨t', e, rfl⟩ := extend hp
        rw [Packet.tcp?_tcp] at htcp
        obtain ⟨-, rfl⟩ := Prod.mk.inj (Option.some.inj htcp)
        rfl
      · intro p hp t y heq
        obtain ⟨t', e, rfl⟩ := extend hp
        cases heq
    have hfinish : Orders cfg b (σ.finish s i out) :=
      hemit.setThreads _ fun hnil => absurd hnil (thread_ne_nil sending)
    rcases complete with rfl | rfl
    · exact hfinish
    · exact hfinish.kill _

theorem reach {ok : System → Label → Prop} (hok : ∀ σ l, ok σ l → System.OneJoin cfg σ l)
    (hb : b ∈ cfg.banks) (hrun : Machine.Reach System.step ok cfg.init σ) : Orders cfg b σ := by
  have both := hrun.invariant (I := fun τ => Extending cfg τ ∧ Orders cfg b τ)
    ⟨Extending.init cfg, Orders.init⟩ fun τ l _ h hl hs =>
      ⟨h.1.step (hok τ l hl) hs, h.2.step h.1 hb hs⟩
  exact both.2

end Orders

end ChainReplication
