import ChainReplication.Server.Downstream
import ChainReplication.System.Once

/-!
# The requests behind the updates

In a workload every request id belongs to one client request. Whatever a server logs is then a client's
request at the bank that it names, or the `TRANSFER_TO` that a server of the source bank has made of
a transfer.
-/

namespace ChainReplication

/-- What a client says in a request: neither the number nor anything else that a server fills in. -/
def Request.content (req : Request) : Request := { req.body with bankUpdateSeq := 0 }

/-- The `TRANSFER_TO` that the server at `a` makes of a transfer. -/
def Request.credit (req : Request) (a : Address) : Request :=
  { req.content with
    type := .transferTo
    accountId := req.destAccountId
    bankId := req.destBankId
    destAccountId := ""
    destBankId := ""
    clientAddr := a }

/-- The update under a request id is always the same, `W` of the id, and goes to the bank that it
names. -/
def Workload (cfg : Config) (W : String → Request) (_ : System) : Label → Prop
  | .client s req _ => req.type ≠ .query → req.content = (W req.reqId).content ∧
      ∃ b ∈ cfg.banks, s ∈ b.servers ∧ req.bankId = b.bankId
  | _ => True

instance (cfg : Config) (W : String → Request) (σ : System) (l : Label) :
    Decidable (Workload cfg W σ l) :=
  match l with
  | .client s req _ => inferInstanceAs (Decidable (req.type ≠ .query →
      req.content = (W req.reqId).content ∧ ∃ b ∈ cfg.banks, s ∈ b.servers ∧ req.bankId = b.bankId))
  | .deliver .. | .crash _ | .detect .. | .join _ | .snapshot .. | .extendSend .. | .extendFin .. =>
    inferInstanceAs (Decidable True)

/-- The update `q` belongs at the bank `b`. -/
inductive Owned (cfg : Config) (W : String → Request) (b : BankConfig) (q : Request) : Prop where
  | client (type : q.type ≠ .transferTo) (same : q.content = (W q.reqId).content)
      (bank : q.bankId = b.bankId)
  | credit {src} (mem : src ∈ cfg.banks) (client : q.clientAddr ∈ src.servers)
      (same : q.content = (W q.reqId).credit q.clientAddr) (type : (W q.reqId).type = .transfer)
      (bank : (W q.reqId).bankId = src.bankId) (dest : (W q.reqId).destBankId = b.bankId)

variable {cfg : Config} {W : String → Request} {b : BankConfig} {σ σ' : System} {l : Label}
  {x y z : Address} {msg m : Message} {q q' : Request} {L : Links Address Message} {out : List Packet}

/-! ### Fields -/

lemma Request.fields_of_content (h : q.content = q'.content) :
    q.reqId = q'.reqId ∧ q.type = q'.type ∧ q.clientAddr = q'.clientAddr ∧
      q.accountId = q'.accountId ∧ q.bankId = q'.bankId ∧ q.amount = q'.amount ∧
      q.destBankId = q'.destBankId ∧ q.destAccountId = q'.destAccountId := by
  simp only [content, body, mk.injEq] at h
  exact ⟨h.1, h.2.1, h.2.2.1, h.2.2.2.2.1, h.2.2.2.2.2.1, h.2.2.2.2.2.2.1, h.2.2.2.2.2.2.2.1,
    h.2.2.2.2.2.2.2.2.1⟩

@[simp] lemma Request.content_content (q : Request) : q.content.content = q.content := rfl
@[simp] lemma Request.content_credit (q : Request) (a : Address) :
    (q.credit a).content = q.credit a := rfl
@[simp] lemma Request.credit_content (q : Request) (a : Address) :
    q.content.credit a = q.credit a := rfl

@[simp] lemma ChainServer.answered_content (s : ChainServer) (req : Request) :
    (s.answered req).content = req.content := by
  have hbody : ({ (s.answered req).body with bankUpdateSeq := 0 } : Request) =
      { (s.number req).body with bankUpdateSeq := 0 } := by rw [answered_body]
  exact hbody

@[simp] lemma ChainServer.transferToReq_content (s : ChainServer) (q : Request) :
    (s.transferToReq q).content = q.credit s.localAddr := rfl

namespace Owned

/-- Who owns an update is a matter of what the client says. -/
lemma congr (h : Owned cfg W b q) (hq : q'.content = q.content) : Owned cfg W b q' := by
  obtain ⟨hid, htype, hclient, -, hbank, -⟩ := Request.fields_of_content hq
  cases h with
  | client type same bank =>
    exact .client (htype ▸ type) (by rw [hq, hid]; exact same) (hbank.trans bank)
  | credit mem client same type bank dest =>
    refine .credit mem (hclient ▸ client) ?_ ?_ ?_ ?_
    · rw [hq, hid, hclient]
      exact same
    · rwa [hid]
    · rwa [hid]
    · rwa [hid]

lemma of_type (h : Owned cfg W b q) (htype : q.type ≠ .transferTo) :
    q.content = (W q.reqId).content ∧ q.bankId = b.bankId := by
  cases h with
  | client type same bank => exact ⟨same, bank⟩
  | credit mem client same =>
    have hcredit : q.content.type = .transferTo := by rw [same]; rfl
    exact absurd hcredit htype

lemma of_credit (h : Owned cfg W b q) (htype : q.type = .transferTo) :
    ∃ src ∈ cfg.banks, q.clientAddr ∈ src.servers ∧ q.content = (W q.reqId).credit q.clientAddr ∧
      (W q.reqId).type = .transfer ∧ (W q.reqId).bankId = src.bankId ∧
      (W q.reqId).destBankId = b.bankId := by
  cases h with
  | client type => exact absurd htype type
  | credit mem client same type bank dest => exact ⟨_, mem, client, same, type, bank, dest⟩

end Owned

/-- The `TRANSFER_TO` that the tail of the bank makes of a transfer belongs at the bank it names. -/
lemma Owned.transferTo {src : BankConfig} (h : Owned cfg W src q) (hsrc : src ∈ cfg.banks)
    (htype : q.type = .transfer) {s : ChainServer} (haddr : s.localAddr ∈ src.servers)
    (hdest : q.destBankId = b.bankId) : Owned cfg W b (s.transferToReq q) := by
  obtain ⟨hsame, hbank⟩ := h.of_type (by rw [htype]; simp)
  obtain ⟨-, htype', -, -, hbank', -, hdest', -⟩ := Request.fields_of_content hsame
  refine .credit hsrc haddr ?_ ?_ ?_ ?_
  · rw [ChainServer.transferToReq_content, ← Request.credit_content, hsame, Request.credit_content]
    rfl
  · exact htype'.symm.trans htype
  · exact hbank'.symm.trans hbank
  · exact hdest'.symm.trans hdest

/-! ### Routes -/

/-- Every update is where it belongs, and the servers know the heads of the banks. -/
structure Routed (cfg : Config) (W : String → Request) (σ : System) : Prop where
  hist : ∀ x, ∀ q ∈ (σ.server x).hist, ∃ b ∈ cfg.banks, x ∈ b.servers ∧ Owned cfg W b q
  link : ∀ u y q, .request q ∈ σ.link u y →
    y = .empty ∨ ∃ b ∈ cfg.banks, y ∈ b.servers ∧ Owned cfg W b q
  heads : ∀ x id t, (σ.server x).bankHeadList.lookup id = some t →
    ∃ b ∈ cfg.banks, b.bankId = id ∧ t ∈ b.servers
  notice : ∀ u y n, .newHead n ∈ σ.link u y → ∃ b ∈ cfg.banks, b.bankId = n.bankId ∧
    n.serverAddr ∈ b.servers

namespace Routed

lemma init (cfg : Config) (W : String → Request) : Routed cfg W cfg.init where
  hist x := Config.initServer_cases (P := fun s => ∀ q ∈ s.hist,
    ∃ b ∈ cfg.banks, x ∈ b.servers ∧ Owned cfg W b q) x (by simp) (by simp)
  link u y q hq := by simp [Config.init] at hq
  heads x := Config.initServer_cases (P := fun s => ∀ id t, s.bankHeadList.lookup id = some t →
    ∃ b ∈ cfg.banks, b.bankId = id ∧ t ∈ b.servers) x (by simp) fun b hb ha id t hlookup => by
      obtain ⟨b', hb', hid, rfl⟩ := AList.exists_of_lookup_foldl_insert cfg.bankIds_nodup hlookup
      refine ⟨b', hb', hid, ?_⟩
      cases hs : b'.servers with
      | nil => exact absurd hs (cfg.servers_ne_nil b' hb')
      | cons a l => exact List.mem_cons_self
  notice u y n hn := by simp [Config.init] at hn

lemma hist_owned (h : Routed cfg W σ) (hb : b ∈ cfg.banks) (hx : x ∈ b.servers)
    (hq : q ∈ (σ.server x).hist) : Owned cfg W b q := by
  obtain ⟨b', hb', hx', hown⟩ := h.hist x q hq
  obtain rfl := Config.bank_unique_servers hb hb' hx hx'
  exact hown

/-- Steps of the master and crashes. -/
lemma frame (h : Routed cfg W σ) (server : σ'.server = σ.server)
    (link : ∀ u y m, m ∈ σ'.link u y → m ∈ σ.link u y ∨ (∀ q, m ≠ .request q) ∧
      ∀ n, m = .newHead n → ∃ b ∈ cfg.banks, b.bankId = n.bankId ∧ n.serverAddr ∈ b.servers) :
    Routed cfg W σ' := by
  refine ⟨by rw [server]; exact h.hist, ?_, by rw [server]; exact h.heads, ?_⟩
  · intro u y q hq
    rcases link u y _ hq with hq | ⟨hno, -⟩
    · exact h.link u y q hq
    · exact absurd rfl (hno q)
  · intro u y n hn
    rcases link u y _ hn with hn | ⟨-, hn⟩
    · exact h.notice u y n hn
    · exact hn n rfl

/-! ### A server serves a message -/

/-- What a client sends is no `TRANSFER_TO`. -/
lemma taken_client (taken : System.Taken σ x (.request q) L) (hL : L = σ.link) :
    q.type ≠ .transferTo := by
  cases taken with
  | client seq type => exact type
  | @link src _ rest head =>
    have hrecv := congrFun (congrFun hL src) x
    rw [Links.recv_self, head, List.tail_cons] at hrecv
    exact absurd hrecv (by simp)

/-- An update that a server takes up belongs at its bank. -/
lemma taken_owned (h : Routed cfg W σ) (taken : System.Taken σ x (.request q) L)
    (hdelivery : σ.delivery l = some (x, .request q)) (hleft : L = σ.left l)
    (hl : Workload cfg W σ l) (htype : q.type ≠ .query) :
    x = .empty ∨ ∃ b ∈ cfg.banks, x ∈ b.servers ∧ Owned cfg W b q := by
  cases l with
  | client s req k =>
    obtain ⟨rfl, hq⟩ := Prod.mk.inj (Option.some.inj hdelivery)
    obtain rfl := Message.request.inj hq
    obtain ⟨hsame, b, hb, hx, hbank⟩ := hl htype
    exact Or.inr ⟨b, hb, hx, .client (taken_client taken hleft) hsame hbank⟩
  | deliver src dst k =>
    obtain ⟨m, hm, heq⟩ := Option.map_eq_some_iff.mp hdelivery
    obtain ⟨rfl, rfl⟩ := Prod.mk.inj heq
    exact h.link src dst q (List.mem_of_head? hm)
  | _ => cases hdelivery

section Serve

variable (h : Routed cfg W σ) (ht : Topology cfg σ) (taken : System.Taken σ x msg L)
  (hs : System.Serve σ x msg L out σ')
include h ht taken hs

/-- What a server logs belongs at its bank. -/
lemma serve_hist (hown : ∀ q, msg = .request q → q.type ≠ .query →
      x = .empty ∨ ∃ b ∈ cfg.banks, x ∈ b.servers ∧ Owned cfg W b q)
    (hq : q ∈ (σ'.server x).hist) : ∃ b ∈ cfg.banks, x ∈ b.servers ∧ Owned cfg W b q := by
  rcases ht.serve_hist taken hs hq with hq | ⟨req, rfl, rfl⟩
  · exact h.hist x q hq
  · have hupdate := (ht.serve_log taken hs).update _ hq
    rw [ChainServer.answered_type] at hupdate
    rcases hown req rfl hupdate with rfl | ⟨b, hb, hx, hown⟩
    · have hlive := hs.live
      rw [ht.empty] at hlive
      cases hlive
    · exact ⟨b, hb, hx, hown.congr (ChainServer.answered_content _ _)⟩

lemma serve_heads {id : String} {t : Address}
    (hlookup : (σ'.server x).bankHeadList.lookup id = some t) :
    ∃ b ∈ cfg.banks, b.bankId = id ∧ t ∈ b.servers := by
  rw [hs.server_self] at hlookup
  rcases ChainServer.handleMsg_bankHeadList (ht.extendingChain x) (taken.plain ht.toPlain) with
    hsame | ⟨n, rfl, hinsert⟩
  · rw [hsame] at hlookup
    exact h.heads x id t hlookup
  · rw [hinsert] at hlookup
    by_cases hid : id = n.bankId
    · subst hid
      rw [AList.lookup_insert] at hlookup
      obtain rfl := Option.some.inj hlookup
      rcases taken.origin with ⟨src, hn⟩ | ⟨req, heq, -⟩
      · exact h.notice src x n hn
      · cases heq
    · rw [AList.lookup_insert_ne hid] at hlookup
      exact h.heads x id t hlookup

omit h in
lemma serve_dispatch (hm : m ∈ σ'.link y z) : m ∈ σ.link y z ∨
    y = x ∧ ChainServer.Dispatch (σ.server x) msg (σ'.server x) z m := by
  rcases hs.mem_link taken hm with hm | ⟨rfl, p, hp, htcp⟩
  · exact Or.inl hm
  · refine Or.inr ⟨rfl, ?_⟩
    rw [hs.server_self]
    exact ChainServer.handleMsg_dispatch (ht.extendingChain y) (taken.plain ht.toPlain)
      (hs.out_prefix.subset hp) htcp

theorem serve (ht' : Topology cfg σ') (hkeeps : ∀ x, (σ'.server x).KeepsTransfers)
    (hown : ∀ q, msg = .request q → q.type ≠ .query →
      x = .empty ∨ ∃ b ∈ cfg.banks, x ∈ b.servers ∧ Owned cfg W b q) : Routed cfg W σ' := by
  have hlogged {q : Request} (hq : q ∈ (σ'.server x).sentList) :
      ∃ b ∈ cfg.banks, x ∈ b.servers ∧ Owned cfg W b q :=
    h.serve_hist ht taken hs hown ((ht'.log x).mem_hist hq)
  have haddr : (σ'.server x).localAddr = x := by
    rw [(hs.roleStep ht.toPlain taken).localAddr, ht.serve_localAddr hs]
  refine ⟨?_, ?_, ?_, ?_⟩
  · intro y q hq
    by_cases hyx : y = x
    · subst hyx
      exact h.serve_hist ht taken hs hown hq
    · rw [hs.server_of_ne hyx] at hq
      exact h.hist y q hq
  · intro u y q hq
    rcases serve_dispatch ht taken hs hq with hq | ⟨rfl, hdispatch⟩
    · exact h.link u y q hq
    · cases hdispatch with
      | @transferTo _ v tail mem head =>
        obtain ⟨src, hsrc, hx, hv⟩ := hlogged mem
        obtain ⟨b, hb, hid, hy⟩ := h.serve_heads ht taken hs head
        refine Or.inr ⟨b, hb, hy, hv.transferTo hsrc (hkeeps u tail v mem) ?_ hid.symm⟩
        rwa [haddr]
      | relay mem =>
        obtain ⟨b, hb, hx, hown⟩ := hlogged mem
        refine (ht'.succ u).imp id ?_
        rintro ⟨b', hb', hprec, -⟩
        obtain rfl := Config.bank_unique_servers hb hb' hx hprec.left_mem
        exact ⟨b, hb, hprec.right_mem, hown⟩
      | other request => exact absurd rfl (request q)
  · intro y id t hlookup
    by_cases hyx : y = x
    · subst hyx
      exact h.serve_heads ht taken hs hlookup
    · rw [hs.server_of_ne hyx] at hlookup
      exact h.heads y id t hlookup
  · intro u y n hn
    rcases hs.mem_link_spec ht.toPlain taken hn with hn | ⟨-, hspec⟩
    · exact h.notice u y n hn
    · exact hspec.elim

end Serve

/-! ### Runs -/

theorem step (h : Routed cfg W σ) (ht : Topology cfg σ) (ht' : Topology cfg σ')
    (hkeeps : ∀ x, (σ'.server x).KeepsTransfers) (hl : Workload cfg W σ l)
    (hcase : System.StepCase σ l σ') : Routed cfg W σ' := by
  cases hcase with
  | serve taken serve delivery left =>
    apply h.serve ht taken serve ht' hkeeps
    rintro q rfl htype
    exact h.taken_owned taken delivery left hl htype
  | crash => exact h.frame rfl fun _ _ _ hm => Or.inl hm
  | relink live head =>
    refine h.frame rfl fun u y m hm => ?_
    simp only [System.emit, Links.mem_send] at hm
    rcases hm with hm | ⟨-, hm⟩
    · exact Or.inl (Links.mem_of_mem_recv _ _ _ hm)
    · obtain ⟨-, rfl⟩ := by simpa using hm
      exact Or.inr ⟨by simp, by simp⟩
  | ignore live head => exact h.frame rfl fun _ _ _ hm => Or.inl (Links.mem_of_mem_recv _ _ _ hm)
  | detect live dead lookup mem case =>
    refine h.frame rfl fun u y m hm => ?_
    simp only [System.emit, Links.mem_send] at hm
    rcases hm with hm | ⟨-, hm⟩
    · exact Or.inl hm
    · obtain ⟨p, hp, htcp⟩ := List.mem_filterMap.mp hm
      refine Or.inr ⟨?_, ?_⟩
      · rintro q rfl
        cases case.notice hp htcp
      · rintro n rfl
        obtain ⟨b, hb, hid, hok⟩ := ht.record_ok lookup
        obtain ⟨hid', hmem⟩ := case.newHead hp htcp
        exact ⟨b, hb, hid.trans hid'.symm, hok.sub.subset hmem⟩

theorem reach {ok : System → Label → Prop} (hok : ∀ σ l, ok σ l → System.NoJoin σ l)
    (hwork : ∀ σ l, ok σ l → Workload cfg W σ l)
    (hrun : Machine.Reach System.step ok cfg.init σ) : Routed cfg W σ := by
  refine hrun.invariant_of (J := fun τ => Topology cfg τ ∧ ∀ x, (τ.server x).KeepsTransfers) ?_
    (init cfg W) ?_
  · intro τ hτ
    exact ⟨Topology.reach hok hτ, fun x => (carriesOnce_of_reach (hτ.mono hok) "" "" x).1⟩
  · rintro τ l τ' h ⟨ht, -⟩ ⟨ht', hkeeps⟩ hl hs
    exact h.step ht ht' hkeeps (hwork τ l hl) (System.step_cases ht.toPlain (hok τ l hl) hs)

end Routed

end ChainReplication
