import ChainReplication.Master.Properties

/-!
# What the master does while a server joins

`NotifyCase` lists the branches of `notify_crash` for any record, one with a joining server included.
-/

namespace ChainReplication

namespace Master

variable {m m' : Master} {bankId : String} {node : Address} {out : List Packet}
  {bsc : BankServerChain}

/-- What `notify_crash` does to the record `bsc` of one bank, and whom it tells. -/
inductive NotifyCase (m : Master) (bankId : String) (node : Address) (bsc : BankServerChain) :
    Master → List Packet → Prop where
  | head {newHead m'} (head : node = bsc.head) (tail : node ≠ bsc.tail)
      (next : BankServerChain.nextOf node bsc.serverChain = some newHead)
      (set : m' = m.setChain bankId
        { bsc with head := newHead, serverChain := bsc.serverChain.erase node }) :
      NotifyCase m bankId node bsc m' (.tcp newHead .toBeHead ::
        (m'.notifyClients (.newHead { bankId := bankId, serverAddr := newHead }) ++
          m'.notifyServers (.newHead { bankId := bankId, serverAddr := newHead })))
  | tail {newTail m'} (head : node ≠ bsc.head) (tail : node = bsc.tail)
      (prev : BankServerChain.prevOf node bsc.serverChain = some newTail)
      (set : m' = m.setChain bankId
        { bsc with tail := newTail, serverChain := bsc.serverChain.erase node }) :
      NotifyCase m bankId node bsc m' (.tcp newTail .toBeTail ::
        (m'.notifyClients (.newTail { bankId := bankId, serverAddr := newTail }) ++
          if bsc.extending = .empty then [] else [.tcp newTail (.extendServer bsc.extending)]))
  | internal {pre succ} (head : node ≠ bsc.head) (tail : node ≠ bsc.tail)
      (extending : node ≠ bsc.extending)
      (next : BankServerChain.nextOf node bsc.serverChain = some succ)
      (prev : BankServerChain.prevOf node bsc.serverChain = some pre) :
      NotifyCase m bankId node bsc
        (m.setChain bankId { bsc with serverChain := bsc.serverChain.erase node })
        [.tcp succ (.newPreServer pre)]
  | extending {pre} (head : node ≠ bsc.head) (tail : node ≠ bsc.tail)
      (extending : node = bsc.extending)
      (prev : BankServerChain.prevOf node bsc.serverChain = some pre) :
      NotifyCase m bankId node bsc
        (m.setChain bankId { bsc with
          serverChain := bsc.serverChain.erase node, extending := .empty })
        [.tcp pre .extendFail]

lemma removeNode_eq_some {bsc bsc' : BankServerChain} (h : bsc.removeNode node = some bsc') :
    node ∈ bsc.serverChain ∧ bsc' = { bsc with serverChain := bsc.serverChain.erase node } := by
  rw [BankServerChain.removeNode] at h
  split_ifs at h with hmem
  exact ⟨hmem, (Option.some.inj h).symm⟩

theorem notifyCrash_notifyCase (hlookup : m.bankServerChain.lookup bankId = some bsc)
    (h : m.notifyCrash bankId node = some (m', out)) : NotifyCase m bankId node bsc m' out := by
  simp only [notifyCrash, hlookup, Option.bind_eq_bind, Option.bind_some] at h
  split_ifs at h with hhead htail hinternal hextending
  all_goals simp only [Option.bind_eq_some_iff] at h
  · obtain ⟨newHead, hnext, bsc', hremove, h⟩ := h
    obtain ⟨-, rfl⟩ := removeNode_eq_some hremove
    obtain ⟨rfl, rfl⟩ := by simpa using h
    rw [BankServerChain.succServerAddr, if_pos hhead.2] at hnext
    exact .head hhead.1 hhead.2 hnext rfl
  · obtain ⟨newTail, hprev, bsc', hremove, h⟩ := h
    obtain ⟨-, rfl⟩ := removeNode_eq_some hremove
    obtain ⟨rfl, rfl⟩ := by simpa using h
    rw [BankServerChain.preServerAddr, if_pos htail.1] at hprev
    exact .tail htail.1 htail.2 hprev rfl
  · obtain ⟨succ, hnext, pre, hprev, bsc', hremove, h⟩ := h
    obtain ⟨-, rfl⟩ := removeNode_eq_some hremove
    obtain ⟨rfl, rfl⟩ := by simpa using h
    rw [BankServerChain.succServerAddr, if_pos hinternal.2.1] at hnext
    rw [BankServerChain.preServerAddr, if_pos hinternal.1] at hprev
    exact .internal hinternal.1 hinternal.2.1 hinternal.2.2 hnext hprev
  · obtain ⟨pre, hprev, bsc', hremove, h⟩ := h
    obtain ⟨-, rfl⟩ := removeNode_eq_some hremove
    obtain ⟨rfl, rfl⟩ := by simpa using h
    have hnode : node ≠ bsc.head := by
      rintro hnode
      simp [BankServerChain.preServerAddr, hnode] at hprev
    rw [BankServerChain.preServerAddr, if_pos hnode] at hprev
    exact .extending hnode (fun hlast => htail ⟨hnode, hlast⟩) hextending hprev

end Master

end ChainReplication
