import ChainReplication.Configuration.Readers
import ChainReplication.Wraparound.Chain
import ChainReplication.Library.ListOrder

/-!
# The chain that a configuration describes

Every bank numbers its servers from 1 on, in whatever order the file lists them. The servers look for their
neighbours by number; the order of the master's list and the heads and tails that servers and clients start
with come from the order in the file.
-/

namespace ChainReplication

namespace BankServerChain

variable {l : List Address} {x : Address} {i : ℕ}

lemma nextOf_of_getElem? (hl : l.Nodup) (h : l[i]? = some x) : nextOf x l = l[i + 1]? := by
  induction l generalizing i with
  | nil => simp at h
  | cons a l ih =>
    obtain ⟨ha, hl⟩ := List.nodup_cons.mp hl
    cases i with
    | zero =>
      obtain rfl : a = x := by simpa using h
      rw [nextOf, if_pos rfl, List.getElem?_cons_succ, List.head?_eq_getElem?]
    | succ i =>
      rw [List.getElem?_cons_succ] at h
      have hne : a ≠ x := by
        rintro rfl
        exact ha (List.mem_of_getElem? h)
      rw [nextOf, if_neg hne, ih hl h, List.getElem?_cons_succ]

lemma prevOf_of_getElem? (hl : l.Nodup) (h : l[i + 1]? = some x) : prevOf x l = l[i]? := by
  have hlt := (List.getElem?_eq_some_iff.mp h).1
  have hp : l[i]? = some l[i] := List.getElem?_eq_getElem (by omega)
  rw [hp]
  apply prevOf_of_nextOf hl
  rw [nextOf_of_getElem? hl hp, h]

lemma head?_eq_iff (hl : l.Nodup) (h : l[i]? = some x) : l.head? = some x ↔ i = 0 := by
  rw [List.head?_eq_getElem?]
  constructor
  · intro hhead
    have hlt := (List.getElem?_eq_some_iff.mp h).1
    exact (List.getElem?_inj hlt hl).mp (h.trans hhead.symm)
  · rintro rfl
    exact h

lemma getLast?_eq_iff (hl : l.Nodup) (h : l[i]? = some x) : l.getLast? = some x ↔ i + 1 = l.length := by
  have hlt := (List.getElem?_eq_some_iff.mp h).1
  rw [List.getLast?_eq_getElem?]
  constructor
  · intro hlast
    have hi := (List.getElem?_inj hlt hl).mp (h.trans hlast.symm)
    omega
  · intro hi
    rw [← hi, Nat.add_sub_cancel, h]

/-- The master keeps the servers in the order of the file. -/
lemma foldl_readServer_serverChain {n : ℕ} (servers : List (Address × ℕ)) (bsc : BankServerChain) :
    (servers.foldl (readServer n) bsc).serverChain = bsc.serverChain ++ servers.map Prod.fst ∧
      (servers.foldl (readServer n) bsc).extending = bsc.extending := by
  induction servers generalizing bsc with
  | nil => simp
  | cons s servers ih =>
    obtain ⟨hchain, hext⟩ := ih (readServer n bsc s)
    have hstep : (readServer n bsc s).serverChain = bsc.serverChain ++ [s.1] ∧
        (readServer n bsc s).extending = bsc.extending := by
      unfold readServer appendNode
      split_ifs <;> exact ⟨rfl, rfl⟩
    rw [List.foldl_cons, hchain, hext, hstep.1, hstep.2]
    simp

end BankServerChain

namespace BankJson

open BankServerChain

variable {b : BankJson} {s : ServerJson}

/-- The servers have the numbers from 1 on, in some order, and different addresses. -/
structure Numbered (b : BankJson) : Prop where
  chainnos : (b.servers.map ServerJson.chainno).Perm
    ((List.range' 1 b.servers.length).map fun k : ℕ => (k : ℤ))
  addrs : (b.servers.map ServerJson.addr).Nodup

/-- The address of the server with a number. -/
def addrOf (b : BankJson) (chainno : ℤ) : Address :=
  ((b.servers.find? fun s => s.chainno = chainno).map ServerJson.addr).getD .empty

/-- The addresses by number: the chain that the file describes. -/
def chain (b : BankJson) : List Address :=
  (List.range' 1 b.servers.length).map fun k : ℕ => b.addrOf k

/-- The file lists the servers in the order of their numbers. -/
def Sorted (b : BankJson) : Prop :=
  b.servers.map ServerJson.chainno = (List.range' 1 b.servers.length).map fun k : ℕ => (k : ℤ)

instance (b : BankJson) : Decidable b.Sorted := inferInstanceAs (Decidable (_ = _))

lemma Numbered.nodup (h : b.Numbered) : (b.servers.map ServerJson.chainno).Nodup := by
  rw [h.chainnos.nodup_iff]
  exact List.Nodup.map Nat.cast_injective List.nodup_range'

lemma Numbered.find? (h : b.Numbered) (hs : s ∈ b.servers) :
    (b.servers.find? fun s' => s'.chainno = s.chainno) = some s :=
  List.find?_key h.nodup hs

lemma Numbered.addrOf (h : b.Numbered) (hs : s ∈ b.servers) : b.addrOf s.chainno = s.addr := by
  rw [BankJson.addrOf, h.find? hs]
  rfl

/-- The addresses in the order of the file. -/
lemma Numbered.addrs_eq (h : b.Numbered) :
    b.servers.map ServerJson.addr = (b.servers.map ServerJson.chainno).map b.addrOf := by
  rw [List.map_map]
  exact List.map_congr_left fun s hs => (h.addrOf hs).symm

lemma chain_eq (b : BankJson) :
    b.chain = ((List.range' 1 b.servers.length).map fun k : ℕ => (k : ℤ)).map b.addrOf := by
  rw [List.map_map]
  rfl

lemma Numbered.perm (h : b.Numbered) : (b.servers.map ServerJson.addr).Perm b.chain := by
  rw [h.addrs_eq, chain_eq]
  exact h.chainnos.map b.addrOf

lemma Numbered.chain_nodup (h : b.Numbered) : b.chain.Nodup := h.perm.nodup_iff.mp h.addrs

/-- A server stands at the place that its number names. -/
lemma Numbered.getElem? (h : b.Numbered) (hs : s ∈ b.servers) :
    ∃ i < b.servers.length, s.chainno = i + 1 ∧ b.chain[i]? = some s.addr := by
  have hmem := h.chainnos.mem_iff.mp (List.mem_map_of_mem hs)
  obtain ⟨k, hk, hno⟩ := List.mem_map.mp hmem
  rw [List.mem_range'_1] at hk
  refine ⟨k - 1, by omega, by omega, ?_⟩
  have hindex : k - 1 < b.servers.length := by omega
  rw [chain, List.getElem?_map, List.getElem?_range' hindex, Option.map_some]
  have hplace : ((1 + 1 * (k - 1) : ℕ) : ℤ) = s.chainno := by omega
  rw [hplace, h.addrOf hs]

/-- Every number has its server. -/
lemma Numbered.exists_server (h : b.Numbered) {i : ℕ} (hi : i < b.servers.length) :
    ∃ s, (b.servers.find? fun s' => s'.chainno = ((i : ℤ) + 1)) = some s ∧ b.chain[i]? = some s.addr := by
  have hmem : ((i : ℤ) + 1) ∈ (List.range' 1 b.servers.length).map fun k : ℕ => (k : ℤ) :=
    List.mem_map.mpr ⟨i + 1, by simp [List.mem_range'_1]; omega, by push_cast; rfl⟩
  obtain ⟨s, hs, hno⟩ := List.mem_map.mp (h.chainnos.mem_iff.mpr hmem)
  obtain ⟨j, -, hj, hget⟩ := h.getElem? hs
  obtain rfl : i = j := by omega
  exact ⟨s, hno ▸ h.find? hs, hget⟩

/-- The order in the file is that of the chain exactly if the numbers are in order. -/
lemma Numbered.addrs_eq_chain_iff (h : b.Numbered) :
    b.servers.map ServerJson.addr = b.chain ↔ b.Sorted := by
  rw [h.addrs_eq, chain_eq, Sorted]
  constructor
  · intro hmap
    have hnodup := h.addrs
    rw [h.addrs_eq] at hnodup
    exact h.chainnos.eq_of_map_eq hnodup hmap
  · intro hsorted
    rw [hsorted]

/-- The lookup of the predecessor, which only a server that is not the head makes. -/
lemma Numbered.readPre (h : b.Numbered) (hs : s ∈ b.servers) : ∃ pre,
    b.readPreServer s s.chainno = some pre ∧
      (s.startDelay = 0 → pre = (prevOf s.addr b.chain).getD .empty) := by
  have hnodup := h.chain_nodup
  obtain ⟨i, hi, hno, hget⟩ := h.getElem? hs
  cases i with
  | zero =>
    have hfirst : s.chainno = 1 := by omega
    have hnone : prevOf s.addr b.chain = none := by
      cases hprev : prevOf s.addr b.chain with
      | none => rfl
      | some p =>
        have hhead := (head?_eq_iff hnodup hget).mpr rfl
        exact absurd hhead (head?_ne_of_nextOf hnodup (nextOf_of_prevOf hnodup hprev))
    refine ⟨.empty, if_neg (by simp [hfirst]), fun _ => ?_⟩
    rw [hnone, Option.getD_none]
  | succ i =>
    have hnot : s.chainno ≠ 1 := by omega
    obtain ⟨p, hfind, hp⟩ := h.exists_server (i := i) (by omega)
    have hprev : s.chainno - 1 = (i : ℤ) + 1 := by omega
    by_cases hdelay : s.startDelay = 0
    · refine ⟨p.addr, ?_, fun _ => ?_⟩
      · rw [readPreServer, if_pos ⟨hnot, hdelay⟩, getAliveServerJsonWithChainno, hprev, hfind]
        rfl
      · rw [prevOf_of_getElem? hnodup hget, hp, Option.getD_some]
    · exact ⟨.empty, if_neg fun hcond => hdelay hcond.2, fun h => absurd h hdelay⟩

/-- The lookup of the successor, which only a server that is not the tail makes. -/
lemma Numbered.readSucc (h : b.Numbered) (hs : s ∈ b.servers) : ∃ succ,
    b.readSuccServer s s.chainno = some succ ∧
      (s.startDelay = 0 → succ = (nextOf s.addr b.chain).getD .empty) := by
  have hnodup := h.chain_nodup
  have hlength : b.chain.length = b.servers.length := by simp [chain]
  obtain ⟨i, hi, hno, hget⟩ := h.getElem? hs
  have hnext := nextOf_of_getElem? hnodup hget
  by_cases hlast : i + 1 = b.servers.length
  · have htail : s.chainno = b.servers.length := by omega
    refine ⟨.empty, if_neg (by simp [htail]), fun _ => ?_⟩
    rw [hnext, List.getElem?_eq_none (by omega), Option.getD_none]
  · have hnot : s.chainno ≠ b.servers.length := by omega
    obtain ⟨p, hfind, hp⟩ := h.exists_server (i := i + 1) (by omega)
    have hsucc : s.chainno + 1 = ((i + 1 : ℕ) : ℤ) + 1 := by omega
    by_cases hdelay : s.startDelay = 0
    · refine ⟨p.addr, ?_, fun _ => ?_⟩
      · rw [readSuccServer, if_pos ⟨hnot, hdelay⟩, getAliveServerJsonWithChainno, hsucc, hfind]
        rfl
      · rw [hnext, hp, Option.getD_some]
    · exact ⟨.empty, if_neg fun hcond => hdelay hcond.2, fun h => absurd h hdelay⟩

end BankJson

/-! ### What the processes start with -/

/-- A server knows its place in the chain: whether it is the head or the tail and, unless its start is
delayed, its neighbours. -/
structure InPlace (b : BankJson) (s : ServerJson) (cs : ChainServer) : Prop where
  addr : cs.localAddr = s.addr
  head : cs.ishead = true ↔ b.chain.head? = some s.addr
  tail : cs.istail = true ↔ b.chain.getLast? = some s.addr
  pre : s.startDelay = 0 → cs.preServerAddr = (BankServerChain.prevOf s.addr b.chain).getD .empty
  succ : s.startDelay = 0 → cs.succServerAddr = (BankServerChain.nextOf s.addr b.chain).getD .empty

namespace ConfigJson

open BankServerChain

variable {root : ConfigJson} {b : BankJson} {s : ServerJson}

/-- The banks have different ids and number their servers. -/
structure WellFormed (root : ConfigJson) : Prop where
  bankIds : (root.banks.map BankJson.bankId).Nodup
  numbered : ∀ b ∈ root.banks, b.Numbered

/-- All processes start from the chains that the numbers describe. -/
structure OneChain (root : ConfigJson) : Prop where
  master : ∀ b ∈ root.banks, root.readConfigMaster.bankServerChain.lookup b.bankId =
    some { head := b.chain.headD .empty, tail := b.chain.getLastD .empty, serverChain := b.chain }
  servers : ∀ b ∈ root.banks, ∀ s ∈ b.servers, ∃ cs,
    root.readConfigServer b.bankId s.chainno = some cs ∧ InPlace b s cs
  heads : ∀ bankid chainno cs, root.readConfigServer bankid chainno = some cs →
    ∀ b ∈ root.banks, cs.bankHeadList.lookup b.bankId = some (b.chain.headD .empty)
  clients : ∃ c, root.readConfigClient = some c ∧ ∀ b ∈ root.banks,
    c.getBankHead b.bankId = some (b.chain.headD .empty) ∧
    c.getBankTail b.bankId = some (b.chain.getLastD .empty)

/-- A server finds its place in whatever order the file lists the chain. -/
theorem readConfigServer_inPlace (h : root.WellFormed) (hb : b ∈ root.banks) (hs : s ∈ b.servers) :
    ∃ cs, root.readConfigServer b.bankId s.chainno = some cs ∧ InPlace b s cs := by
  have hnumbered := h.numbered b hb
  have hnodup := hnumbered.chain_nodup
  have hlength : b.chain.length = b.servers.length := by simp [BankJson.chain]
  obtain ⟨i, hi, hno, hget⟩ := hnumbered.getElem? hs
  have hserver : b.getServerJsonWithChainno s.chainno = some s := by
    rw [BankJson.getServerJsonWithChainno, hnumbered.find? hs, Option.some_or]
  have hhead : s.chainno = 1 ↔ b.chain.head? = some s.addr := by
    rw [head?_eq_iff hnodup hget]
    omega
  have htail : s.chainno = b.servers.length ↔ b.chain.getLast? = some s.addr := by
    rw [getLast?_eq_iff hnodup hget, hlength]
    omega
  obtain ⟨pre, hpre, hprev⟩ := hnumbered.readPre hs
  obtain ⟨succ, hsucc, hnext⟩ := hnumbered.readSucc hs
  refine ⟨{ bankId := b.bankId, ishead := s.chainno = 1, istail := s.chainno = b.servers.length,
            localAddr := s.addr, preServerAddr := pre, succServerAddr := succ,
            bankHeadList := root.banks.foldl (fun m b => m.insert b.bankId b.firstAddr) ∅ }, ?_, ?_⟩
  · simp only [readConfigServer, readBanks_eq h.bankIds, List.find?_key h.bankIds hb, hserver, hpre, hsucc,
      Option.bind_eq_bind, Option.bind_some]
    rfl
  · exact ⟨rfl, by simpa using hhead, by simpa using htail, hprev, hnext⟩

/-- Every process starts from the chain by numbers exactly if the file lists the servers of every bank in
the order of their numbers. -/
theorem oneChain_iff (h : root.WellFormed) : root.OneChain ↔ ∀ b ∈ root.banks,
    b.servers.map ServerJson.chainno = (List.range' 1 b.servers.length).map fun k : ℕ => (k : ℤ) := by
  have hrecord {b : BankJson} (hb : b ∈ root.banks) := lookup_readConfigMaster h.bankIds hb
  constructor
  · intro hone b hb
    have hmaster := hone.master b hb
    rw [hrecord hb, Option.some.injEq] at hmaster
    have hchain := congrArg BankServerChain.serverChain hmaster
    rw [readConfig, (foldl_readServer_serverChain _ _).1, List.nil_append, List.map_map] at hchain
    exact (h.numbered b hb).addrs_eq_chain_iff.mp hchain
  · intro hsorted
    have hchain {b : BankJson} (hb : b ∈ root.banks) : b.servers.map ServerJson.addr = b.chain :=
      (h.numbered b hb).addrs_eq_chain_iff.mpr (hsorted b hb)
    have hfirst {b : BankJson} (hb : b ∈ root.banks) : b.firstAddr = b.chain.headD .empty := by
      rw [BankJson.firstAddr, ← hchain hb, List.headD_eq_head?_getD, List.head?_map]
    have hlast {b : BankJson} (hb : b ∈ root.banks) : b.lastAddr = b.chain.getLastD .empty := by
      rw [BankJson.lastAddr, ← hchain hb, List.getLastD_eq_getLast?, List.getLast?_map]
    constructor
    case master =>
      intro b hb
      have horder : (b.servers.map fun s => (s.addr, s.chainno.toNat)).map Prod.snd =
          List.range' 1 (b.servers.map fun s => (s.addr, s.chainno.toNat)).length := by
        have htoNat := congrArg (List.map Int.toNat) (hsorted b hb)
        rw [List.map_map, List.map_map] at htoNat
        rw [List.map_map, List.length_map]
        refine htoNat.trans ?_
        simp [Function.comp_def]
      have hfst : (b.servers.map fun s => (s.addr, s.chainno.toNat)).map Prod.fst = b.chain := by
        rw [← hchain hb, List.map_map]
        rfl
      rw [hrecord hb, readConfig_eq horder, hfst]
    case servers => exact fun b hb s hs => readConfigServer_inPlace h hb hs
    case heads =>
      intro bankid chainno cs hread b hb
      obtain ⟨table, htable, hrest⟩ := Option.bind_eq_some_iff.mp hread
      obtain ⟨bank, -, hrest⟩ := Option.bind_eq_some_iff.mp hrest
      obtain ⟨server, -, hrest⟩ := Option.bind_eq_some_iff.mp hrest
      obtain ⟨pre, -, hrest⟩ := Option.bind_eq_some_iff.mp hrest
      obtain ⟨succ, -, hrest⟩ := Option.bind_eq_some_iff.mp hrest
      obtain rfl := Option.some.inj hrest
      rw [← hfirst hb]
      exact lookup_readBanks h.bankIds htable hb
    case clients =>
      refine ⟨_, readConfigClient_eq h.bankIds, fun b hb => ⟨?_, ?_⟩⟩
      · rw [← hfirst hb]
        exact AList.lookup_foldl_insert h.bankIds hb ∅
      · rw [← hlast hb]
        exact AList.lookup_foldl_insert h.bankIds hb ∅

/-- A bank that lists its servers 1, 2 and 3 in the given order, and a bank of one server. -/
def sampleRoot (order : List ℕ) : ConfigJson where
  master := Config.localAddress 0
  banks :=
    [{ bankId := "BOA", servers := order.map fun k => { addr := Config.localAddress k, chainno := k } },
      { bankId := "CITI", servers := [{ addr := Config.localAddress 11, chainno := 1 }] }]

lemma sampleRoot_wellFormed :
    (sampleRoot [1, 2, 3]).WellFormed ∧ (sampleRoot [2, 3, 1]).WellFormed := by
  refine ⟨⟨by decide, ?_⟩, ⟨by decide, ?_⟩⟩
  all_goals
    intro b hb
    simp only [sampleRoot, List.mem_cons, List.not_mem_nil, or_false] at hb
    rcases hb with rfl | rfl
    all_goals exact ⟨by decide, by decide⟩

theorem oneChain_iff_sample : (sampleRoot [1, 2, 3]).WellFormed ∧
    ((sampleRoot [1, 2, 3]).OneChain ↔ ∀ b ∈ (sampleRoot [1, 2, 3]).banks,
      b.servers.map ServerJson.chainno = (List.range' 1 b.servers.length).map fun k : ℕ => (k : ℤ)) :=
  ⟨sampleRoot_wellFormed.1, oneChain_iff sampleRoot_wellFormed.1⟩

/-- The servers 2, 3 and 1 in this order: server 1 takes itself for the head, but clients and servers of
other banks take server 2 for it, and the master's chain starts with server 2. -/
theorem not_oneChain_sample : (sampleRoot [2, 3, 1]).WellFormed ∧ ¬ (sampleRoot [2, 3, 1]).OneChain ∧
    ((sampleRoot [2, 3, 1]).readConfigServer "BOA" 1).map ChainServer.ishead = some true ∧
    ((sampleRoot [2, 3, 1]).readConfigClient.bind fun c => c.getBankHead "BOA") =
      some (Config.localAddress 2) ∧
    ((sampleRoot [2, 3, 1]).readConfigMaster.bankServerChain.lookup "BOA").map serverChain =
      some [Config.localAddress 2, Config.localAddress 3, Config.localAddress 1] := by
  have hwf := sampleRoot_wellFormed.2
  refine ⟨hwf, fun hone => ?_, by decide +kernel, by decide +kernel, by decide +kernel⟩
  obtain ⟨c, hread, hclient⟩ := hone.clients
  have hhead := (hclient _ List.mem_cons_self).1
  rw [readConfigClient_eq hwf.bankIds, Option.some.injEq] at hread
  subst hread
  exact absurd hhead (by decide +kernel)

end ConfigJson

end ChainReplication
