import ChainReplication.System.AckOrder
import ChainReplication.System.Relinking
import ChainReplication.Transfers.Answers

/-!
# Where a forwarded transfer is

The tail of the source bank keeps a transfer until the reply to its `TRANSFER_TO` comes. Until then the
destination bank has lost the head that the `TRANSFER_TO` went to, or is about to see it, or has logged it
behind what any live tail has logged, or the reply is on its way.
-/

namespace ChainReplication

variable {cfg : Config} {W : String → Request} {b c : BankConfig} {σ σ' : System} {l : Label}
  {x y z u : Address} {msg m : Message} {r d : String} {t q : Request} {n : ℕ}
  {L : Links Address Message} {out : List Packet}

/-- A reply to the transfer `r` to the account `d`. -/
def Message.isReplyFor (r d : String) : Message → Bool
  | .reply rep => rep.reqId = r && rep.accountId = d
  | _ => false

lemma Message.isReplyFor_iff : m.isReplyFor r d = true ↔
    ∃ rep, m = .reply rep ∧ rep.reqId = r ∧ rep.accountId = d := by
  cases m <;> simp [isReplyFor]

namespace System

/-- A reply to the transfer is on its way to `x`. -/
def ReplyUnderway (cfg : Config) (σ : System) (x : Address) (r d : String) : Prop :=
  ∃ u ∈ cfg.processes, ∃ m ∈ σ.link u x, m.isReplyFor r d = true

/-- A live server waits for the reply to a `TRANSFER_TO`, and none is on its way. -/
def Waited (cfg : Config) (σ : System) (q : Request) : Prop :=
  σ.crashed q.clientAddr = false ∧
    (∃ t ∈ (σ.server q.clientAddr).sentList, t.reqId = q.reqId ∧ t.destAccountId = q.accountId) ∧
    ¬ σ.ReplyUnderway cfg q.clientAddr q.reqId q.accountId

instance (cfg : Config) (σ : System) (x : Address) (r d : String) :
    Decidable (σ.ReplyUnderway cfg x r d) :=
  inferInstanceAs (Decidable (∃ u ∈ cfg.processes, ∃ m ∈ σ.link u x, _))

instance (cfg : Config) (σ : System) (q : Request) : Decidable (σ.Waited cfg q) :=
  inferInstanceAs (Decidable (_ ∧ _))

/-- `to_be_tail` answers nothing, so a server that becomes the tail has no `TRANSFER_TO` in `sent_list_` that
somebody waits for. -/
def NoneWaitedFor (cfg : Config) (σ : System) (l : Label) : Prop :=
  ∀ e ∈ σ.delivery l, e.2 = .toBeTail → ∀ q ∈ (σ.server e.1).sentList, q.type = .transferTo →
    ¬ σ.Waited cfg q

/-- A `TRANSFER_TO` of another bank is handled by a head: any other server takes it for a repetition. -/
def CreditsAtHead (σ : System) (l : Label) : Prop :=
  ∀ e ∈ σ.delivery l, ∀ q ∈ e.2.request?, q.type = .transferTo → q.bankUpdateSeq = 0 →
    (σ.server e.1).ishead = true

instance (cfg : Config) (σ : System) (l : Label) : Decidable (NoneWaitedFor cfg σ l) :=
  inferInstanceAs (Decidable (∀ e ∈ σ.delivery l, _))

instance (σ : System) (l : Label) : Decidable (CreditsAtHead σ l) :=
  inferInstanceAs (Decidable (∀ e ∈ σ.delivery l, _))

end System

/-- No live tail of the bank has logged the update number `n`, and no live server takes it for
acknowledged. -/
structure Unanswered (c : BankConfig) (σ : System) (n : ℕ) : Prop where
  tail : ∀ z ∈ c.servers, σ.crashed z = false → (σ.server z).istail = true →
    (σ.server z).hist.length < n
  base : ∀ z ∈ c.servers, σ.crashed z = false → (σ.server z).istail = false → (σ.server z).base < n
  ack : ∀ u, ∀ z ∈ c.servers, σ.crashed z = false → ∀ a, .acknowledge a ∈ σ.link u z →
    a.bankUpdateSeq < n

/-- What has become of the `TRANSFER_TO` that `x` has made of `t` and sent to the server `y` of the bank
`c`. -/
inductive Underway (cfg : Config) (c : BankConfig) (σ : System) (x y : Address) (t : Request) :
    Prop where
  | lost (dead : σ.crashed y = true)
  | newHead {n : Notify} (bank : n.bankId = t.destBankId) (mem : .newHead n ∈ σ.link σ.master.addr x)
  | sent {q : Request} (seq : q.bankUpdateSeq = 0) (content : q.content = t.credit x)
      (mem : .request q ∈ σ.link x y)
  | answered (reply : σ.ReplyUnderway cfg x t.reqId t.destAccountId)
  | logged {q : Request} (content : q.content = t.credit x) (mem : q ∈ (σ.server y).hist)
      (unanswered : Unanswered c σ q.bankUpdateSeq)

/-- Every transfer in the `sent_list_` of a live tail is underway at the head that the tail knows. -/
def Tracked (cfg : Config) (σ : System) : Prop :=
  ∀ b ∈ cfg.banks, ∀ x ∈ b.servers, σ.crashed x = false → (σ.server x).istail = true →
    ∀ t ∈ (σ.server x).sentList, ∃ c ∈ cfg.banks, c.bankId = t.destBankId ∧ ∃ y ∈ c.servers,
      (σ.server x).bankHeadList.lookup t.destBankId = some y ∧ Underway cfg c σ x y t

/-! ### Messages that stay on their way -/

namespace System

lemma Taken.mem_of_ne (h : Taken σ z msg L) (hm : m ∈ σ.link u y) (hne : y = z → m ≠ msg) :
    m ∈ L u y := by
  cases h with
  | client => exact hm
  | @link src _ rest head =>
    by_cases heq : u = src ∧ y = z
    · obtain ⟨rfl, rfl⟩ := heq
      rw [head] at hm
      rw [Links.recv_self, head]
      exact (List.mem_cons.mp hm).resolve_left (hne rfl)
    · rwa [Links.recv_of_ne _ _ _ heq]

namespace Serve

variable (h : Serve σ z msg L out σ')
include h

lemma mem_link_of_mem (hm : m ∈ L u y) : m ∈ σ'.link u y := by
  rw [h.link, Links.mem_send]
  exact Or.inl hm

lemma mem_link_of_sent {p : Packet} (hp : p ∈ out) (htcp : p.tcp? = some (y, m)) :
    m ∈ σ'.link z y := by
  rw [h.link, Links.mem_send]
  exact Or.inr ⟨rfl, List.mem_filterMap.mpr ⟨p, hp, htcp⟩⟩

end Serve

lemma ReplyUnderway.serve (h : σ.ReplyUnderway cfg x r d) (taken : Taken σ z msg L)
    (hs : Serve σ z msg L out σ') (hne : x = z → msg.isReplyFor r d = false) :
    σ'.ReplyUnderway cfg x r d := by
  obtain ⟨u, hu, m, hm, hreply⟩ := h
  refine ⟨u, hu, m, hs.mem_link_of_mem (taken.mem_of_ne hm ?_), hreply⟩
  rintro hx rfl
  rw [hne hx] at hreply
  cases hreply

end System

lemma Request.fields_of_credit (h : q.content = t.credit x) : q.reqId = t.reqId ∧
    q.type = .transferTo ∧ q.clientAddr = x ∧ q.accountId = t.destAccountId := by
  have hcredit : q.content = (t.credit x).content := h
  obtain ⟨hid, htype, hclient, hacc, -⟩ := Request.fields_of_content hcredit
  exact ⟨hid, htype, hclient, hacc⟩

namespace ChainServer

variable {s : ChainServer} {req : Request} {master : Address}

/-- A head logs every update. -/
lemma handleMsg_logs (hext : s.extendingChain = false) (hhead : s.ishead = true)
    (htype : req.type ≠ .query) : (s.handleMsg master (.request req)).server.hist =
      s.hist ++ [s.answered req] := by
  have hcase := receiveRequest_cases s req
  simp only [handleMsg]
  generalize s.receiveRequest req = e at hcase ⊢
  cases hcase with
  | query type => exact absurd type htype
  | refused why => simp [htype, hhead] at why
  | duplicate head => simp [hhead] at head
  | relayed => rw [relayUpdate_server]
  | single => rw [answerUpdate_server req hext]
  | tail type tail head => simp [hhead] at head

end ChainServer

/-! ### Steps in which no server does anything -/

lemma Unanswered.frame (h : Unanswered c σ n) (server : σ'.server = σ.server)
    (live : ∀ z, σ'.crashed z = false → σ.crashed z = false)
    (acks : ∀ u z a, .acknowledge a ∈ σ'.link u z → .acknowledge a ∈ σ.link u z) :
    Unanswered c σ' n := by
  refine ⟨?_, ?_, ?_⟩
  · rw [server]
    exact fun z hz hlive => h.tail z hz (live z hlive)
  · rw [server]
    exact fun z hz hlive => h.base z hz (live z hlive)
  · exact fun u z hz hlive a ha => h.ack u z hz (live z hlive) a (acks u z a ha)

lemma Underway.frame (h : Underway cfg c σ x y t) (server : σ'.server = σ.server)
    (live : ∀ z, σ'.crashed z = false → σ.crashed z = false) (master : σ'.master.addr = σ.master.addr)
    (link : ∀ u z m, z ≠ σ.master.addr → m ∈ σ.link u z → m ∈ σ'.link u z)
    (acks : ∀ u z a, .acknowledge a ∈ σ'.link u z → .acknowledge a ∈ σ.link u z)
    (hx : x ≠ σ.master.addr) (hy : y ≠ σ.master.addr) : Underway cfg c σ' x y t := by
  cases h with
  | lost dead =>
    refine .lost ?_
    by_contra hlive
    rw [live y (by simpa using hlive)] at dead
    cases dead
  | newHead bank mem =>
    refine .newHead bank ?_
    rw [master]
    exact link _ _ _ hx mem
  | sent seq content mem => exact .sent seq content (link _ _ _ hy mem)
  | answered reply =>
    obtain ⟨u, hu, m, hm, hreply⟩ := reply
    exact .answered ⟨u, hu, m, link _ _ _ hx hm, hreply⟩
  | logged content mem unanswered =>
    refine .logged content ?_ (unanswered.frame server live acks)
    rwa [server]

lemma Tracked.frame (h : Tracked cfg σ) (hmaster : σ.master.addr = cfg.master)
    (server : σ'.server = σ.server) (live : ∀ z, σ'.crashed z = false → σ.crashed z = false)
    (master : σ'.master.addr = σ.master.addr)
    (link : ∀ u z m, z ≠ σ.master.addr → m ∈ σ.link u z → m ∈ σ'.link u z)
    (acks : ∀ u z a, .acknowledge a ∈ σ'.link u z → .acknowledge a ∈ σ.link u z) :
    Tracked cfg σ' := by
  intro b hb x hx hlive htail t ht
  rw [server] at htail ht ⊢
  obtain ⟨c, hc, hid, y, hy, hlookup, h⟩ := h b hb x hx (live x hlive) htail t ht
  refine ⟨c, hc, hid, y, hy, hlookup, h.frame server live master link acks ?_ ?_⟩
  · rw [hmaster]
    exact Config.ne_master hb hx
  · rw [hmaster]
    exact Config.ne_master hc hy

/-! ### A server serves a message -/

section Serve

variable (ht : Topology cfg σ) (taken : System.Taken σ z msg L) (hs : System.Serve σ z msg L out σ')
include ht taken hs

/-- Only a server of the bank can end that, as the tail. -/
lemma Unanswered.serve (h : Unanswered c σ n) (hc : c ∈ cfg.banks)
    (htail : z ∈ c.servers → (σ'.server z).istail = true → σ'.crashed z = false ∨ out ≠ [] →
      (σ'.server z).hist.length < n) : Unanswered c σ' n := by
  -- an acknowledgement that `z` handles has a smaller number
  have handled {a : Acknowledge} (hmsg : msg = .acknowledge a) (hz : z ∈ c.servers) :
      a.bankUpdateSeq < n := by
    subst hmsg
    rcases taken.origin with ⟨src, hm⟩ | ⟨_, heq, -⟩
    · exact h.ack src z hz hs.live a hm
    · cases heq
  refine ⟨?_, ?_, ?_⟩
  · intro w hw hlive htail'
    by_cases hwz : w = z
    · subst hwz
      exact htail hw htail' (Or.inl hlive)
    · rw [hs.server_of_ne hwz] at htail' ⊢
      exact h.tail w hw (hs.live_of_live hlive) htail'
  · intro w hw hlive htail'
    by_cases hwz : w = z
    · subst hwz
      obtain ⟨hold, hbase⟩ := Replicated.serve_base ht taken hs htail'
      have hlt := h.base w hw hs.live hold
      rcases hbase with hbase | ⟨a, hmsg, hbase⟩
      · omega
      · have := handled hmsg hw
        omega
    · rw [hs.server_of_ne hwz] at htail' ⊢
      exact h.base w hw (hs.live_of_live hlive) htail'
  · intro u w hw hlive a hm
    rcases hs.mem_link taken hm with hm | ⟨rfl, p, hp, htcp⟩
    · exact h.ack u w hw (hs.live_of_live hlive) a hm
    · have hspec := hs.packets ht.toPlain taken hp htcp
      obtain ⟨hz, -, -, hcase⟩ := AckOrder.ack_packet ht taken hs hc hw hspec
      rcases hcase with hmsg | ⟨htail', -⟩
      · exact handled hmsg hz
      · rcases hspec.2 with hmsg | ⟨-, -, hseq⟩
        · exact handled hmsg hz
        · rw [hseq, ((ht.serve taken hs).log u).counter]
          exact htail hz htail' (Or.inr (List.ne_nil_of_mem hp))

omit ht taken in
/-- A tail that answers the `TRANSFER_TO` of `t` sends the reply. -/
lemma System.replyUnderway_of_answered {req : Request} (hc : c ∈ cfg.banks) (hz : z ∈ c.servers)
    (hown : (σ'.server z).AnswersOwn) (hmsg : msg = .request req)
    (htail : (σ.server z).istail = true)
    (hist : (σ'.server z).hist = (σ.server z).hist ++ [(σ.server z).answered req])
    (hcontent : ((σ.server z).answered req).content = t.credit x) (hout : out ≠ []) :
    σ'.ReplyUnderway cfg x t.reqId t.destAccountId := by
  subst hmsg
  obtain ⟨hid, htype, hclient, hacc⟩ := Request.fields_of_credit hcontent
  have hreq : req.type = .transferTo := by rwa [ChainServer.answered_type] at htype
  rw [hs.server_self] at hist
  obtain ⟨rest, hanswer⟩ := ChainServer.handleMsg_answers _ htail hreq hist
  have hmem : .replyToClient ((σ.server z).answered req) ∈ out := by
    have hprefix := hs.out_prefix
    rw [hanswer] at hprefix
    obtain ⟨p, out', rfl⟩ := List.exists_cons_of_ne_nil hout
    rw [(List.cons_prefix_cons.mp hprefix).1]
    exact List.mem_cons_self
  have htcp : (Packet.replyToClient ((σ.server z).answered req)).tcp? =
      some (x, .reply ((σ.server z).answered req).reply) := by
    rw [Packet.tcp?_replyToClient, if_pos htype, hclient]
  rw [← hs.server_self] at hist
  obtain ⟨hrid, hracc, -⟩ := hown.hist ((σ.server z).answered req) (by rw [hist]; simp) htype
  refine ⟨z, ?_, _, hs.mem_link_of_sent hmem htcp, ?_⟩
  · exact Config.mem_processes hc hz
  · exact Message.isReplyFor_iff.mpr ⟨_, rfl, hrid.trans hid, hracc.trans hacc⟩

namespace Underway

variable (hr : Replicated cfg σ) (hc : c ∈ cfg.banks) (hy : y ∈ c.servers)
  (hown : ∀ u, (σ'.server u).AnswersOwn)
include hr hc hy hown

/-- The head takes up the `TRANSFER_TO`. -/
lemma serve_request (hzy : z = y) (hmsg : msg = .request q) (hhead : (σ.server y).ishead = true)
    (hcontent : q.content = t.credit x) : Underway cfg c σ' x y t := by
  subst hzy hmsg
  by_cases hlive : σ'.crashed z = true
  · exact .lost hlive
  have hlive : σ'.crashed z = false := by simpa using hlive
  have htype : q.type ≠ .query := by
    rw [(Request.fields_of_credit hcontent).2.1]
    simp
  have hist : (σ'.server z).hist = (σ.server z).hist ++ [(σ.server z).answered q] := by
    rw [hs.server_self]
    exact ChainServer.handleMsg_logs (ht.extendingChain z) hhead htype
  have hcontent' : ((σ.server z).answered q).content = t.credit x := by
    rwa [ChainServer.answered_content]
  have hmem : (σ.server z).answered q ∈ (σ'.server z).hist := by
    rw [hist]
    simp
  have hrole := hs.roleStep ht.toPlain taken
  by_cases htail : (σ.server z).istail = true
  · refine .answered (System.replyUnderway_of_answered hs hc hy (hown z) rfl htail hist
      hcontent' ?_)
    obtain ⟨rest, hanswer⟩ := ChainServer.handleMsg_answers σ.master.addr htail
      (Request.fields_of_credit hcontent).2.1 (by rw [← hs.server_self]; exact hist)
    rw [(hs.complete hlive).1, hanswer]
    exact List.cons_ne_nil _ _
  · have htail : (σ'.server z).istail = false := by
      rw [Bool.eq_false_iff, ne_eq, hrole.tail]
      simpa using htail
    -- no other live server of the bank has as long a history
    have hle {w : Address} (hw : w ∈ c.servers) (hwz : w ≠ z) (hwlive : σ.crashed w = false) :
        (σ.server w).hist.length ≤ (σ.server z).hist.length := by
      rcases List.precedes_total hw hy hwz with hprec | hprec
      · rw [ht.head z hhead c hc w hprec] at hwlive
        cases hwlive
      · simpa using (hr.sub c hc z w hprec hs.live).length_le
    have hnumber : ((σ.server z).answered q).bankUpdateSeq = (σ.server z).hist.length + 1 := by
      rw [ChainServer.answered_bankUpdateSeq, (ht.log z).counter]
    refine .logged hcontent' hmem ⟨?_, ?_, ?_⟩
    · intro w hw hwlive hwtail
      have hwz : w ≠ z := by
        rintro rfl
        rw [htail] at hwtail
        cases hwtail
      rw [hs.server_of_ne hwz, hnumber]
      exact Nat.lt_succ_of_le (hle hw hwz (hs.live_of_live hwlive))
    · intro w hw hwlive hwtail
      rw [hnumber]
      by_cases hwz : w = z
      · subst hwz
        obtain ⟨-, hbase | ⟨a, heq, -⟩⟩ := Replicated.serve_base ht taken hs hwtail
        · have hadd := (ht.log w).base_add
          omega
        · cases heq
      · rw [hs.server_of_ne hwz]
        have hadd := (ht.log w).base_add
        have := hle hw hwz (hs.live_of_live hwlive)
        omega
    · intro u w hw hwlive a hm
      rcases hs.mem_link_spec ht.toPlain taken hm with hm | ⟨rfl, hspec⟩
      · rw [hnumber]
        exact Nat.lt_succ_of_le (hr.sound u w _ hm c hc hw z hy hs.live)
      · obtain ⟨-, -, -, heq | ⟨htail', -⟩⟩ := AckOrder.ack_packet ht taken hs hc hw hspec
        · cases heq
        · rw [htail] at htail'
          cases htail'

omit hr hc hy hown in
/-- A tail logs nothing but a request that it takes up. -/
lemma serve_logs (htail : (σ.server z).istail = true)
    (hlt : (σ.server z).hist.length < (σ'.server z).hist.length) : ∃ req, msg = .request req ∧
      ((σ.server z).ishead = true ∨ req.bankUpdateSeq = (σ.server z).bankUpdateSeq + 1) ∧
      (σ'.server z).hist = (σ.server z).hist ++ [(σ.server z).answered req] := by
  have same (hist : (σ'.server z).hist = (σ.server z).hist) : False := by
    rw [hist] at hlt
    exact lt_irrefl _ hlt
  rw [hs.server_self] at same ⊢
  cases taken.logStep ht.toPlain with
  | answer type tail next hist => exact ⟨_, rfl, next, hist⟩
  | relay type tail =>
    rw [htail] at tail
    cases tail
  | keep hist => exact (same hist).elim
  | ack hist => exact (same hist).elim
  | toBeTail hist => exact (same hist).elim
  | reply hist => exact (same hist).elim
  | resend hist => exact (same hist).elim

/-- The tail of the bank comes to the `TRANSFER_TO` and answers it. -/
lemma serve_logged_tail (hcontent : q.content = t.credit x) (hmem : q ∈ (σ.server y).hist)
    (hylive : σ.crashed y = false) (hz : z ∈ c.servers) (htail : (σ.server z).istail = true)
    (hlt : (σ.server z).hist.length < q.bankUpdateSeq) (hle : q.bankUpdateSeq ≤ (σ'.server z).hist.length)
    (hout : σ'.crashed z = false ∨ out ≠ []) : Underway cfg c σ' x y t := by
  obtain ⟨hget, -, -⟩ := (ht.log y).getElem? hmem
  obtain ⟨req, rfl, hnext, hist⟩ := serve_logs ht taken hs htail (hlt.trans_le hle)
  have hnumber : q.bankUpdateSeq - 1 = (σ.server z).hist.length := by
    rw [hist, List.length_append, List.length_singleton] at hle
    omega
  have hyz : c.servers.Precedes y z := by
    have hne : y ≠ z := by
      rintro rfl
      have := (List.getElem?_eq_some_iff.mp hget).1
      omega
    refine (List.precedes_total hy hz hne).resolve_right fun hprec => ?_
    rw [ht.tail z htail c hc y hprec] at hylive
    cases hylive
  have hcontent' : ((σ.server z).answered req).content = t.credit x := by
    have hagrees := Replicated.next_agrees hr ht taken rfl hnext hs.live hc hyz hylive
    rw [← hnumber, ChainServer.bodies, List.getElem?_map, hget, Option.map_some] at hagrees
    rw [Request.content, ← Option.some.inj hagrees]
    exact hcontent
  have hout : out ≠ [] := by
    rcases hout with hlive | hout
    · have htype : req.type = .transferTo := by
        have htype := (Request.fields_of_credit hcontent').2.1
        rwa [ChainServer.answered_type] at htype
      obtain ⟨rest, hanswer⟩ := ChainServer.handleMsg_answers σ.master.addr htail htype
        (by rw [← hs.server_self]; exact hist)
      rw [(hs.complete hlive).1, hanswer]
      exact List.cons_ne_nil _ _
    · exact hout
  exact .answered (System.replyUnderway_of_answered hs hc hz (hown z) rfl htail hist hcontent' hout)

omit taken hown in
/-- A server that has logged as much has logged the `TRANSFER_TO` under the same number. -/
lemma logged_everywhere (hcontent : q.content = t.credit x) (hmem : q ∈ (σ.server y).hist)
    (hylive : σ.crashed y = false) (hz : z ∈ c.servers) (hle : q.bankUpdateSeq ≤ (σ.server z).hist.length) :
    ∃ q' ∈ (σ.server z).hist, q'.bankUpdateSeq = q.bankUpdateSeq ∧ q'.content = t.credit x := by
  obtain ⟨hget, hpos, -⟩ := (ht.log y).getElem? hmem
  have hybody : (σ.server y).bodies[q.bankUpdateSeq - 1]? = some q.body := by
    rw [ChainServer.bodies, List.getElem?_map, hget, Option.map_some]
  have hzbody : (σ.server z).bodies[q.bankUpdateSeq - 1]? = some q.body := by
    by_cases hyz : y = z
    · rwa [← hyz]
    · rcases List.precedes_total hy hz hyz with hprec | hprec
      · have hprefix := hr.sub c hc y z hprec hylive
        rw [List.prefix_iff_getElem?] at hprefix
        rw [← hybody, hprefix _ (by rw [ChainServer.length_bodies]; omega)]
        exact List.getElem?_eq_getElem _
      · exact getElem?_of_prefix (hr.sub c hc z y hprec hs.live) hybody
  rw [ChainServer.bodies, List.getElem?_map, Option.map_eq_some_iff] at hzbody
  obtain ⟨q', hget', hbody⟩ := hzbody
  refine ⟨q', List.mem_of_getElem? hget', (Request.fields_of_body hbody).2.2.1, ?_⟩
  rw [Request.content, hbody]
  exact hcontent

omit hown in
/-- A server that becomes the tail has the `TRANSFER_TO` in `sent_list_`, so nobody waits for it. -/
lemma serve_logged_toBeTail (hcontent : q.content = t.credit x) (hmem : q ∈ (σ.server y).hist)
    (hylive : σ.crashed y = false) (hz : z ∈ c.servers) (hmsg : msg = .toBeTail)
    (htail : (σ.server z).istail = false) (hbase : (σ.server z).base < q.bankUpdateSeq)
    (hle : q.bankUpdateSeq ≤ (σ'.server z).hist.length) (hxlive : σ.crashed x = false)
    (hsent : t ∈ (σ.server x).sentList)
    (hguard : ∀ q ∈ (σ.server z).sentList, q.type = .transferTo → ¬ σ.Waited cfg q) :
    Underway cfg c σ' x y t := by
  subst hmsg
  have hist : (σ'.server z).hist = (σ.server z).hist := by
    rw [hs.server_self]
    cases taken.logStep ht.toPlain with
    | keep hist => exact hist
    | toBeTail hist => exact hist
  rw [hist] at hle
  obtain ⟨q', hq', hseq, hcontent'⟩ := logged_everywhere ht hs hr hc hy hcontent hmem hylive hz hle
  obtain ⟨hid, htype, hclient, hacc⟩ := Request.fields_of_credit hcontent'
  have hsent' : q' ∈ (σ.server z).sentList :=
    (ht.log z).mem_sent_of_lt htail hq' (hseq ▸ hbase)
  have hwaited := hguard q' hsent' htype
  rw [System.Waited, hclient, hid, hacc] at hwaited
  have hreply : σ.ReplyUnderway cfg x t.reqId t.destAccountId := by
    by_contra hreply
    exact hwaited ⟨hxlive, ⟨t, hsent, rfl, rfl⟩, hreply⟩
  exact .answered (hreply.serve taken hs fun _ => rfl)

/-- The tail of the bank comes to the `TRANSFER_TO` and answers it, unless it becomes the tail behind it. -/
lemma serve_logged (hcontent : q.content = t.credit x) (hmem : q ∈ (σ.server y).hist)
    (hunanswered : Unanswered c σ q.bankUpdateSeq) (hxlive : σ.crashed x = false)
    (hsent : t ∈ (σ.server x).sentList)
    (hguard : msg = .toBeTail → ∀ q ∈ (σ.server z).sentList, q.type = .transferTo → ¬ σ.Waited cfg q) :
    Underway cfg c σ' x y t := by
  by_cases hylive : σ'.crashed y = true
  · exact .lost hylive
  have hylive : σ.crashed y = false := hs.live_of_live (by simpa using hylive)
  have hmem' : q ∈ (σ'.server y).hist :=
    ((Replicated.serve_appends ht taken hs).hist y).subset hmem
  by_cases hreached : z ∈ c.servers ∧ (σ'.server z).istail = true ∧
      (σ'.crashed z = false ∨ out ≠ []) ∧ q.bankUpdateSeq ≤ (σ'.server z).hist.length
  swap
  · refine .logged hcontent hmem' (hunanswered.serve ht taken hs hc fun hz htail hout => ?_)
    by_contra hle
    exact hreached ⟨hz, htail, hout, not_lt.mp hle⟩
  obtain ⟨hz, htail', hout, hle⟩ := hreached
  by_cases htail : (σ.server z).istail = true
  · exact serve_logged_tail ht taken hs hr hc hy hown hcontent hmem hylive hz htail
      (hunanswered.tail z hz hs.live htail) hle hout
  · have hmsg := ((hs.roleStep ht.toPlain taken).tail.mp htail').resolve_left htail
    have htail : (σ.server z).istail = false := by simpa using htail
    exact serve_logged_toBeTail ht taken hs hr hc hy hcontent hmem hylive hz hmsg htail
      (hunanswered.base z hz hs.live htail) hle hxlive hsent (hguard hmsg)

/-- Whatever has become of the `TRANSFER_TO`, as long as the tail keeps the transfer and hears of no new
head. -/
theorem serve (h : Underway cfg c σ x y t) (ha : Answers cfg W σ) (hxlive : σ.crashed x = false)
    (hsent : t ∈ (σ.server x).sentList) (hsent' : t ∈ (σ'.server x).sentList)
    (hnew : x = z → ∀ n, msg = .newHead n → n.bankId ≠ t.destBankId)
    (hguard : msg = .toBeTail → ∀ q ∈ (σ.server z).sentList, q.type = .transferTo → ¬ σ.Waited cfg q)
    (hhead : ∀ q, msg = .request q → q.type = .transferTo → q.bankUpdateSeq = 0 →
      (σ.server z).ishead = true) : Underway cfg c σ' x y t := by
  cases h with
  | lost dead => exact .lost (hs.crashed_mono dead)
  | newHead bank mem =>
    refine .newHead bank ?_
    rw [hs.master]
    refine hs.mem_link_of_mem (taken.mem_of_ne mem ?_)
    rintro hx rfl
    exact hnew hx _ rfl bank
  | @sent q seq content mem =>
    by_cases hmsg : y = z ∧ msg = .request q
    · obtain ⟨rfl, rfl⟩ := hmsg
      have htype := (Request.fields_of_credit content).2.1
      exact serve_request ht taken hs hr hc hy hown rfl rfl (hhead q rfl htype seq) content
    · refine .sent seq content (hs.mem_link_of_mem (taken.mem_of_ne mem ?_))
      exact fun hyz heq => hmsg ⟨hyz, heq.symm⟩
  | answered reply =>
    refine .answered (reply.serve taken hs fun hx => ?_)
    rw [Bool.eq_false_iff, ne_eq, Message.isReplyFor_iff]
    rintro ⟨rep, rfl, hid, hacc⟩
    subst hx
    -- the reply takes the transfer out of `sent_list_`
    have hprocessed : rep.outcome = .processed := by
      rcases taken.origin with ⟨src, hm⟩ | ⟨_, heq, -⟩
      · exact (ha.link src x rep hm).1
      · cases heq
    rw [hs.server_self] at hsent'
    simp only [ChainServer.handleMsg, ChainServer.receiveTransferReply, hprocessed, ne_eq,
      not_true_eq_false, if_false, List.mem_filter] at hsent'
    simp [hid, hacc] at hsent'
  | logged content mem unanswered =>
    exact serve_logged ht taken hs hr hc hy hown content mem unanswered hxlive hsent hguard

end Underway

namespace Tracked

/-- A tail that sends a `TRANSFER_TO` knows the head that it goes to. -/
lemma of_packet (hr' : Routed cfg W σ') (hkeeps : (σ'.server z).KeepsTransfers)
    (hlive : σ'.crashed z = false) (htail : (σ'.server z).istail = true)
    (hsent : ∃ a, .tcp a (.request ((σ.server z).transferToReq t)) ∈
      ((σ.server z).handleMsg σ.master.addr msg).out) :
    ∃ c ∈ cfg.banks, c.bankId = t.destBankId ∧ ∃ y ∈ c.servers,
      (σ'.server z).bankHeadList.lookup t.destBankId = some y ∧ Underway cfg c σ' z y t := by
  obtain ⟨a, ha⟩ := hsent
  have hout := ha
  rw [← (hs.complete hlive).1] at hout
  have hdispatch := ChainServer.handleMsg_dispatch (ht.extendingChain z)
    (taken.plain ht.toPlain) ha (Packet.tcp?_tcp ..)
  rw [← hs.server_self] at hdispatch
  have hlookup : (σ'.server z).bankHeadList.lookup t.destBankId = some a := by
    generalize hq : (σ.server z).transferToReq t = q at hdispatch
    generalize hm : Message.request q = m at hdispatch
    cases hdispatch with
    | @transferTo _ v tail mem head =>
      subst hq
      have hbank := congrArg Request.bankId (Message.request.inj hm)
      have hbank : t.destBankId = v.destBankId := hbank
      rwa [hbank]
    | relay mem =>
      obtain rfl := Message.request.inj hm
      have htype := hkeeps htail _ mem
      subst hq
      cases htype
    | answer => cases hm
    | release => cases hm
    | other request => exact absurd hm.symm (request q)
  obtain ⟨c, hc, hid, hy⟩ := hr'.heads z t.destBankId a hlookup
  refine ⟨c, hc, hid, a, hy, hlookup, .sent (q := (σ.server z).transferToReq t) rfl ?_ ?_⟩
  · rw [ChainServer.transferToReq_content, ht.serve_localAddr hs]
  · exact hs.mem_link_of_sent hout (Packet.tcp?_tcp ..)

lemma serve (h : Tracked cfg σ) (hr : Replicated cfg σ) (ha : Answers cfg W σ)
    (ha' : Answers cfg W σ') (hr' : Routed cfg W σ') (hkeeps : ∀ u, (σ'.server u).KeepsTransfers)
    (hguard : msg = .toBeTail → ∀ q ∈ (σ.server z).sentList, q.type = .transferTo → ¬ σ.Waited cfg q)
    (hhead : ∀ q, msg = .request q → q.type = .transferTo → q.bankUpdateSeq = 0 →
      (σ.server z).ishead = true) : Tracked cfg σ' := by
  intro b hb x hx hlive htail t hsent'
  -- what was in `sent_list_` before is where it was, or a step further
  have kept (hsent : t ∈ (σ.server x).sentList) (htail : (σ.server x).istail = true)
      (hlookup : (σ'.server x).bankHeadList.lookup t.destBankId =
        (σ.server x).bankHeadList.lookup t.destBankId)
      (hnew : x = z → ∀ n, msg = .newHead n → n.bankId ≠ t.destBankId) :
      ∃ c ∈ cfg.banks, c.bankId = t.destBankId ∧ ∃ y ∈ c.servers,
        (σ'.server x).bankHeadList.lookup t.destBankId = some y ∧ Underway cfg c σ' x y t := by
    have hold := hs.live_of_live hlive
    obtain ⟨c, hc, hid, y, hy, hknown, h⟩ := h b hb x hx hold htail t hsent
    refine ⟨c, hc, hid, y, hy, hlookup.trans hknown, ?_⟩
    exact h.serve ht taken hs hr hc hy ha'.server ha hold hsent hsent' hnew hguard hhead
  by_cases hxz : x = z
  · subst hxz
    have forwarded := of_packet (t := t) ht taken hs hr' (hkeeps x) hlive htail
    have hok := (hs.complete hlive).2
    have hrole := hs.roleStep ht.toPlain taken
    have hcase := ChainServer.handleMsg_forwards (ht.extendingChain x) (taken.plain ht.toPlain) hok
      (by rwa [← hs.server_self]) (by rwa [← hs.server_self])
    rcases hcase with hpacket | ⟨hsent, hne⟩
    · exact forwarded hpacket
    · have hold := (hrole.tail.mp htail).resolve_right hne
      by_cases hnew : ∃ n, msg = .newHead n ∧ n.bankId = t.destBankId
      · obtain ⟨n, rfl, hbank⟩ := hnew
        exact forwarded (ChainServer.handleMsg_resends hok hold hsent hbank.symm)
      · have hnew : ∀ n, msg = .newHead n → n.bankId ≠ t.destBankId :=
          fun n hmsg hbank => hnew ⟨n, hmsg, hbank⟩
        refine kept hsent hold ?_ fun _ => hnew
        have hheads : (σ'.server x).bankHeadList = (σ.server x).bankHeadList ∨ ∃ n, msg = .newHead n ∧
            (σ'.server x).bankHeadList =
              (σ.server x).bankHeadList.insert n.bankId n.serverAddr := by
          rw [hs.server_self]
          exact ChainServer.handleMsg_bankHeadList (ht.extendingChain x) (taken.plain ht.toPlain)
        rcases hheads with hsame | ⟨n, hmsg, hinsert⟩
        · rw [hsame]
        · rw [hinsert, AList.lookup_insert_ne (Ne.symm (hnew n hmsg))]
  · rw [hs.server_of_ne hxz] at htail hsent'
    refine kept hsent' htail ?_ fun heq => absurd heq hxz
    rw [hs.server_of_ne hxz]

end Tracked

end Serve

/-! ### Runs -/

namespace Tracked

lemma init : Tracked cfg cfg.init := by
  intro b hb x hx _ _ t ht
  have hserver : cfg.init.server x = cfg.initServer x := rfl
  rw [hserver, Config.initServer_of_mem hb hx] at ht
  cases ht

lemma step (h : Tracked cfg σ) (ht : Topology cfg σ) (hr : Replicated cfg σ) (ha : Answers cfg W σ)
    (ha' : Answers cfg W σ') (hr' : Routed cfg W σ') (hkeeps : ∀ u, (σ'.server u).KeepsTransfers)
    (hwaited : σ.NoneWaitedFor cfg l) (hhead : σ.CreditsAtHead l) (hcase : System.StepCase σ l σ') :
    Tracked cfg σ' := by
  have live : ∀ z, σ'.crashed z = false → σ.crashed z = false := fun _ => (ht.appends hcase).live
  -- the master takes nothing that is on its way to a server
  have recv {src u z : Address} {m : Message} (hz : z ≠ σ.master.addr) (hm : m ∈ σ.link u z) :
      m ∈ σ.link.recv src σ.master.addr u z := by
    rwa [Links.recv_of_ne _ _ _ fun heq => hz heq.2]
  cases hcase with
  | @serve _ x msg L out _ taken serve hdelivery =>
    refine h.serve ht taken serve hr ha ha' hr' hkeeps ?_ ?_
    · rintro rfl
      exact hwaited _ hdelivery rfl
    · rintro q rfl
      exact hhead _ hdelivery q rfl
  | crash => exact h.frame ht.master rfl live rfl (fun _ _ _ _ hm => hm) fun _ _ _ hm => hm
  | relink live' head =>
    refine h.frame ht.master rfl live rfl ?_ ?_
    · exact fun u z m hz hm => (Links.mem_send _ _ _).mpr (Or.inl (recv hz hm))
    · intro u z a hm
      rcases (Links.mem_send _ _ _).mp hm with hm | ⟨-, hm⟩
      · exact Links.mem_of_mem_recv _ _ _ hm
      · simp at hm
  | ignore live' =>
    refine h.frame ht.master rfl live rfl ?_ fun _ _ _ hm => Links.mem_of_mem_recv _ _ _ hm
    exact fun u z m hz hm => recv hz hm
  | detect live' dead lookup mem case =>
    refine h.frame ht.master rfl live (Announced.detect_addr case) ?_ ?_
    · exact fun u z m _ hm => (Links.mem_send _ _ _).mpr (Or.inl hm)
    · intro u z a hm
      rcases (Links.mem_send _ _ _).mp hm with hm | ⟨-, hm⟩
      · exact hm
      · obtain ⟨p, hp, htcp⟩ := List.mem_filterMap.mp hm
        cases case.notice hp htcp

theorem reach {ok : System → Label → Prop} (hok : ∀ σ l, ok σ l → System.NoJoin σ l)
    (hwork : ∀ σ l, ok σ l → Workload cfg W σ l) (hown : ∀ σ l, ok σ l → σ.OwnPrecedents l)
    (hwaited : ∀ σ l, ok σ l → σ.NoneWaitedFor cfg l) (hhead : ∀ σ l, ok σ l → σ.CreditsAtHead l)
    (hrun : Machine.Reach System.step ok cfg.init σ) : Tracked cfg σ := by
  refine hrun.invariant_of (J := fun τ => Topology cfg τ ∧ Replicated cfg τ ∧ Answers cfg W τ ∧
    Routed cfg W τ ∧ ∀ x, (τ.server x).KeepsTransfers) ?_ init ?_
  · intro τ hτ
    exact ⟨Topology.reach hok hτ, Replicated.reach hok hτ, Answers.reach hok hwork hown hτ,
      Routed.reach hok hwork hτ, fun x => (carriesOnce_of_reach (hτ.mono hok) "" "" x).1⟩
  · rintro τ l τ' h ⟨ht, hr, ha, -⟩ ⟨-, -, ha', hr', hkeeps⟩ hl hs
    exact h.step ht hr ha ha' hr' hkeeps (hwaited _ _ hl) (hhead _ _ hl)
      (System.step_cases ht.toPlain (hok _ _ hl) hs)

end Tracked

end ChainReplication
