import ChainReplication.System.Basic
import ChainReplication.Library.Assoc
import ChainReplication.Master.Chain

/-!
# Configurations and initial states

The chains of a configuration are disjoint and have no duplicates; every process starts in the
position that its chain gives it.
-/

namespace ChainReplication

namespace Config

variable {cfg : Config} {b b' : BankConfig} {a x y : Address}

/-! ### Chains -/

lemma servers_nodup (hb : b ∈ cfg.banks) : b.servers.Nodup := by
  have h := (List.nodup_flatMap.mp (List.nodup_cons.mp cfg.addrs_nodup).2).1 b hb
  exact (List.nodup_append.mp h).1

/-- An address has a place in one bank only. -/
lemma bank_unique (hb : b ∈ cfg.banks) (hb' : b' ∈ cfg.banks)
    (ha : a ∈ b.servers ++ b.extendServers) (ha' : a ∈ b'.servers ++ b'.extendServers) :
    b = b' := by
  by_contra hne
  have hpairwise := (List.nodup_flatMap.mp (List.nodup_cons.mp cfg.addrs_nodup).2).2
  have hsymm : Std.Symm (Function.onFun List.Disjoint
      fun b : BankConfig => b.servers ++ b.extendServers) := ⟨fun _ _ h _ hx hy => h hy hx⟩
  exact hpairwise.forall hb hb' hne ha ha'

lemma bank_unique_servers (hb : b ∈ cfg.banks) (hb' : b' ∈ cfg.banks) (ha : a ∈ b.servers)
    (ha' : a ∈ b'.servers) : b = b' :=
  bank_unique hb hb' (List.mem_append_left _ ha) (List.mem_append_left _ ha')

lemma ne_master (hb : b ∈ cfg.banks) (ha : a ∈ b.servers) : a ≠ cfg.master := by
  rintro rfl
  refine (List.nodup_cons.mp cfg.addrs_nodup).1 ?_
  exact List.mem_flatMap.mpr ⟨b, hb, List.mem_append_left _ ha⟩

lemma ne_empty (hb : b ∈ cfg.banks) (ha : a ∈ b.servers) : a ≠ .empty := by
  rintro rfl
  refine cfg.empty_notMem (List.mem_cons_of_mem _ ?_)
  exact List.mem_flatMap.mpr ⟨b, hb, List.mem_append_left _ ha⟩

lemma bankOf_of_mem (hb : b ∈ cfg.banks) (ha : a ∈ b.servers) : cfg.bankOf a = some b := by
  have ha := List.mem_append_left b.extendServers ha
  cases h : cfg.bankOf a with
  | none =>
    have := List.find?_eq_none.mp h b hb
    simp [ha] at this
  | some b' =>
    have hb' := List.mem_of_find?_eq_some h
    have ha' := List.find?_some h
    rw [bank_unique hb hb' ha (by simpa using ha')]

lemma of_bankOf (h : cfg.bankOf a = some b) :
    b ∈ cfg.banks ∧ a ∈ b.servers ++ b.extendServers :=
  ⟨List.mem_of_find?_eq_some h, by simpa using List.find?_some h⟩

/-! ### Initial states -/

lemma initServer_of_mem (hb : b ∈ cfg.banks) (ha : a ∈ b.servers) : cfg.initServer a =
    { bankId := b.bankId
      ishead := b.servers.head? = some a
      istail := b.servers.getLast? = some a
      localAddr := a
      preServerAddr := (BankServerChain.prevOf a b.servers).getD .empty
      succServerAddr := (BankServerChain.nextOf a b.servers).getD .empty
      bankHeadList := cfg.bankHeadList } := by
  rw [initServer, bankOf_of_mem hb ha]

/-- A property of a fresh server holds of every server at the start. -/
lemma initServer_cases {P : ChainServer → Prop} (a : Address) (hnone : P {})
    (hsome : ∀ b ∈ cfg.banks, a ∈ b.servers ++ b.extendServers → P
      { bankId := b.bankId
        ishead := b.servers.head? = some a
        istail := b.servers.getLast? = some a
        localAddr := a
        preServerAddr := (BankServerChain.prevOf a b.servers).getD .empty
        succServerAddr := (BankServerChain.nextOf a b.servers).getD .empty
        bankHeadList := cfg.bankHeadList }) : P (cfg.initServer a) := by
  unfold initServer
  split
  · exact hnone
  · next b h =>
    obtain ⟨hb, ha⟩ := of_bankOf h
    exact hsome b hb ha

lemma init_live (hb : b ∈ cfg.banks) (ha : a ∈ b.servers) : cfg.init.crashed a = false := by
  simp [init, bankOf_of_mem hb ha]

lemma init_empty_crashed : cfg.init.crashed .empty = true := by
  have hmaster : Address.empty ≠ cfg.master := by
    rintro h
    exact cfg.empty_notMem (by rw [h]; exact List.mem_cons_self)
  have hnone : cfg.bankOf .empty = none := by
    cases h : cfg.bankOf .empty with
    | none => rfl
    | some b =>
      obtain ⟨hb, ha⟩ := of_bankOf h
      exact absurd (List.mem_cons_of_mem _ (List.mem_flatMap.mpr ⟨b, hb, ha⟩)) cfg.empty_notMem
  simp [init, hmaster, hnone]

/-- The master starts with the record of every bank's whole chain. -/
lemma initMaster_lookup (hb : b ∈ cfg.banks) : cfg.initMaster.bankServerChain.lookup b.bankId =
    some { head := b.servers.headD .empty, tail := b.servers.getLastD .empty,
           serverChain := b.servers } :=
  AList.lookup_foldl_insert cfg.bankIds_nodup hb ∅

lemma of_initMaster_lookup {id : String} {bsc : BankServerChain}
    (h : cfg.initMaster.bankServerChain.lookup id = some bsc) :
    ∃ b ∈ cfg.banks, b.bankId = id ∧ bsc =
      { head := b.servers.headD .empty, tail := b.servers.getLastD .empty,
        serverChain := b.servers } := by
  obtain ⟨b, hb, hid, rfl⟩ := AList.exists_of_lookup_foldl_insert cfg.bankIds_nodup h
  exact ⟨b, hb, hid, rfl⟩

/-- The master's loop over a bank's servers builds this record. -/
lemma initMaster_lookup_readConfig (hb : b ∈ cfg.banks) :
    cfg.initMaster.bankServerChain.lookup b.bankId =
      some (BankServerChain.readConfig (b.servers.zip (List.range' 1 b.servers.length))) := by
  have hfst : (b.servers.zip (List.range' 1 b.servers.length)).map Prod.fst = b.servers :=
    List.map_fst_zip (by simp)
  have hsnd : (b.servers.zip (List.range' 1 b.servers.length)).map Prod.snd =
      List.range' 1 (b.servers.zip (List.range' 1 b.servers.length)).length := by
    rw [List.map_snd_zip (by simp)]
    simp
  rw [initMaster_lookup hb, BankServerChain.readConfig_eq hsnd, hfst]

/-- The record of a whole chain is well formed. -/
lemma init_record_wf (hb : b ∈ cfg.banks) : BankServerChain.Wf
    { head := b.servers.headD .empty, tail := b.servers.getLastD .empty,
      serverChain := b.servers } := by
  have hne := cfg.servers_ne_nil b hb
  refine ⟨servers_nodup hb, fun h => ne_empty hb h rfl, ?_, ?_, rfl⟩
  · cases h : b.servers with
    | nil => exact absurd h hne
    | cons a l => rfl
  · cases h : b.servers with
    | nil => exact absurd h hne
    | cons a l => simp [List.getLastD_eq_getLast?, List.getLast?_cons]

/-! ### Executions -/

section Execution

variable (cfg : Config) (ok : System → Label → Prop) [∀ σ l, Decidable (ok σ l)]

/-- The state after an execution; the initial state if the execution does not go through. -/
def after (ls : List Label) : System := Machine.after System.step ok cfg.init ls

variable {cfg ok} {ls ls' : List Label}

lemma reach_after (h : (Machine.run System.step ok cfg.init ls).isSome = true) :
    Machine.Reach System.step ok cfg.init (cfg.after ok ls) :=
  Machine.reach_after h

lemma reach_after_append
    (h : (Machine.run System.step ok cfg.init (ls ++ ls')).isSome = true) :
    Machine.Reach System.step ok (cfg.after ok ls) (cfg.after ok (ls ++ ls')) := by
  obtain ⟨σ', hσ'⟩ := Option.isSome_iff_exists.mp h
  obtain ⟨σ, hσ, hrest⟩ := Machine.run_append.mp hσ'
  rw [after, after, Machine.after, Machine.after, hσ, hσ']
  exact Machine.reach_of_run hrest

end Execution

/-! ### A sample configuration -/

/-- The process number `n` of the machine that the sample configuration describes. -/
def localAddress (n : ℕ) : Address := ⟨"127.0.0.1", 50000 + n⟩

/-- A chain of three servers and a chain of one. -/
def twoBanks : Config where
  master := localAddress 0
  clients := [localAddress 100]
  banks := [{ bankId := "BOA", servers := [localAddress 1, localAddress 2, localAddress 3] },
    { bankId := "CITI", servers := [localAddress 11] }]
  bankIds_nodup := by decide
  addrs_nodup := by decide
  empty_notMem := by decide
  servers_ne_nil := by decide

/-- A bank with a chain of two servers and one server that may join. -/
def growingBank : Config where
  master := localAddress 0
  clients := [localAddress 100]
  banks := [{ bankId := "BOA", servers := [localAddress 1, localAddress 2],
              extendServers := [localAddress 3] }]
  bankIds_nodup := by decide
  addrs_nodup := by decide
  empty_notMem := by decide
  servers_ne_nil := by decide

/-- A deposit into the account `a` of the first bank. -/
def sampleDeposit (reqId : String) (amount : ℚ) : Request :=
  { reqId := reqId, type := .deposit, clientAddr := localAddress 100, accountId := "a",
    bankId := "BOA", amount := amount }

/-- A transfer from the account `a` of the first bank to the account `z` of the second. -/
def sampleTransfer (reqId : String) (amount : ℚ) : Request :=
  { sampleDeposit reqId amount with
    type := .transfer, destBankId := "CITI", destAccountId := "z" }

/-- A client's request reaches a process. -/
def request (n : ℕ) (req : Request) : Label := .client (localAddress n) req none

/-- The oldest message between two processes is handled. -/
def hop (m n : ℕ) : Label := .deliver (localAddress m) (localAddress n) none

/-- The server `m` is let in, and the tail `n` sends it an empty history up to `FIN`. -/
def extend (m n : ℕ) : List Label :=
  [.join (localAddress m), hop m 0, hop 0 n, .snapshot (localAddress n) 0 [] [],
    .extendSend (localAddress n) 0, .extendFin (localAddress n) 0 none]

/-- A process of the first bank dies, and the master finds out. -/
def lose (n : ℕ) : List Label :=
  [.crash (localAddress n), .detect "BOA" (localAddress n)]

end Config

end ChainReplication
