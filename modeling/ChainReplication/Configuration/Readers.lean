import ChainReplication.System.Clients

/-!
# The readers of the configuration

`read_config_master`, `read_config_server` and the part of `read_config_client` about banks, on the parsed
file. Every process reads the file by itself. A field that the file leaves out is read as `""` or 0. Delays,
fail scenarios and the requests of clients are left out.
-/

namespace ChainReplication

/-- An entry of `servers` or `extend_servers`. -/
structure ServerJson where
  addr : Address
  chainno : ℤ
  startDelay : ℤ := 0
deriving DecidableEq

/-- An entry of `banks`. -/
structure BankJson where
  bankId : String
  servers : List ServerJson
  extendServers : List ServerJson := []
deriving DecidableEq

/-- The file. -/
structure ConfigJson where
  master : Address
  banks : List BankJson
  clients : List Address := []

namespace BankJson

/-- The address of the first server in the array. -/
def firstAddr (b : BankJson) : Address := (b.servers.head?.map ServerJson.addr).getD .empty

/-- The address of the last server in the array. -/
def lastAddr (b : BankJson) : Address := (b.servers.getLast?.map ServerJson.addr).getD .empty

/-- `get_alive_server_json_with_chainno`. -/
def getAliveServerJsonWithChainno (b : BankJson) (chainno : ℤ) : Option ServerJson :=
  b.servers.find? fun s => s.chainno = chainno

/-- `get_server_json_with_chainno`. -/
def getServerJsonWithChainno (b : BankJson) (chainno : ℤ) : Option ServerJson :=
  (b.servers.find? fun s => s.chainno = chainno).or
    (b.extendServers.find? fun s => s.chainno = chainno)

/-- `pre_server_addr_` of the server with number `chainno`, unless it is the head or its start is delayed. -/
def readPreServer (b : BankJson) (server : ServerJson) (chainno : ℤ) : Option Address :=
  if chainno ≠ 1 ∧ server.startDelay = 0 then
    (b.getAliveServerJsonWithChainno (chainno - 1)).map ServerJson.addr
  else some .empty

/-- `succ_server_addr_` of the server with number `chainno`, unless it is the tail or its start is delayed. -/
def readSuccServer (b : BankJson) (server : ServerJson) (chainno : ℤ) : Option Address :=
  if chainno ≠ b.servers.length ∧ server.startDelay = 0 then
    (b.getAliveServerJsonWithChainno (chainno + 1)).map ServerJson.addr
  else some .empty

end BankJson

/-- The insertion that `assert(it.second)` follows. -/
def insertNew (m : AList fun _ : String => Address) (bankId : String) (addr : Address) :
    Option (AList fun _ : String => Address) :=
  if bankId ∈ m then none else some (m.insert bankId addr)

namespace ConfigJson

/-- The loop that fills a table with an address for each bank. -/
def readBanks (root : ConfigJson) (addr : BankJson → Address) :
    Option (AList fun _ : String => Address) :=
  root.banks.foldlM (fun m b => insertNew m b.bankId (addr b)) ∅

/-- `read_config_server`. `none` stands for an error or a failed assertion. -/
def readConfigServer (root : ConfigJson) (bankid : String) (chainno : ℤ) : Option ChainServer := do
  let bankHeadList ← root.readBanks BankJson.firstAddr
  let bank ← root.banks.find? fun b => b.bankId = bankid
  let server ← bank.getServerJsonWithChainno chainno
  let pre ← bank.readPreServer server chainno
  let succ ← bank.readSuccServer server chainno
  return {
    bankId := bankid
    ishead := chainno = 1
    istail := chainno = bank.servers.length
    localAddr := server.addr
    preServerAddr := pre
    succServerAddr := succ
    bankHeadList := bankHeadList }

/-- `read_config_master`. -/
def readConfigMaster (root : ConfigJson) : Master where
  addr := root.master
  bankServerChain := root.banks.foldl (fun m b => m.insert b.bankId
    (BankServerChain.readConfig (b.servers.map fun s => (s.addr, s.chainno.toNat)))) ∅
  clientList := root.clients

/-- The part of `read_config_client` about banks. -/
def readConfigClient (root : ConfigJson) : Option Client := do
  let bankHeadList ← root.readBanks BankJson.firstAddr
  let bankTailList ← root.readBanks BankJson.lastAddr
  return { bankHeadList := bankHeadList, bankTailList := bankTailList }

/-! ### The tables -/

variable {root : ConfigJson}

/-- The tables of a file whose banks have different ids. -/
lemma readBanks_eq (hids : (root.banks.map BankJson.bankId).Nodup) (addr : BankJson → Address) :
    root.readBanks addr = some (root.banks.foldl (fun m b => m.insert b.bankId (addr b)) ∅) := by
  have hfold : ∀ (l : List BankJson) (m : AList fun _ : String => Address),
      (l.map BankJson.bankId).Nodup → (∀ b ∈ l, b.bankId ∉ m) →
      l.foldlM (fun m b => insertNew m b.bankId (addr b)) m =
        some (l.foldl (fun m b => m.insert b.bankId (addr b)) m) := by
    intro l
    induction l with
    | nil => exact fun m _ _ => rfl
    | cons b l ih =>
      intro m hl hm
      obtain ⟨hb, hl⟩ := List.nodup_cons.mp hl
      rw [List.foldlM_cons, insertNew, if_neg (hm b List.mem_cons_self)]
      refine ih _ hl fun b' hb' hmem => ?_
      rcases AList.mem_insert _ |>.mp hmem with heq | hmem
      · exact hb (heq ▸ List.mem_map_of_mem hb')
      · exact hm b' (List.mem_cons_of_mem _ hb') hmem
  exact hfold root.banks ∅ hids fun b _ => AList.notMem_empty _

lemma lookup_readBanks (hids : (root.banks.map BankJson.bankId).Nodup) {addr : BankJson → Address}
    {table : AList fun _ : String => Address} (hread : root.readBanks addr = some table) {b : BankJson}
    (hb : b ∈ root.banks) : table.lookup b.bankId = some (addr b) := by
  rw [readBanks_eq hids] at hread
  obtain rfl := Option.some.inj hread
  exact AList.lookup_foldl_insert hids hb ∅

lemma readConfigClient_eq (hids : (root.banks.map BankJson.bankId).Nodup) : root.readConfigClient = some
    { bankHeadList := root.banks.foldl (fun m b => m.insert b.bankId b.firstAddr) ∅
      bankTailList := root.banks.foldl (fun m b => m.insert b.bankId b.lastAddr) ∅ } := by
  rw [readConfigClient, readBanks_eq hids, readBanks_eq hids]
  rfl

/-- The record of a bank. -/
lemma lookup_readConfigMaster (hids : (root.banks.map BankJson.bankId).Nodup) {b : BankJson}
    (hb : b ∈ root.banks) : root.readConfigMaster.bankServerChain.lookup b.bankId =
      some (BankServerChain.readConfig (b.servers.map fun s => (s.addr, s.chainno.toNat))) :=
  AList.lookup_foldl_insert hids hb ∅

end ConfigJson

end ChainReplication
