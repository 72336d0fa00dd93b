import ChainReplication.System.Inputs
import ChainReplication.Server.Agreement

/-!
# Replicas of the reference bank

The updates that reach a chain from outside belong to one account for each request id and are no
transfers. Then every server of the chain is a replica of the reference bank, whichever
acknowledgements have arrived and whichever servers have taken over.
-/

namespace ChainReplication

variable {cfg : Config} {b : BankConfig} {owner : String → String} {σ : System}

/-- An update that reaches a server of the bank from a client or another bank is no transfer, and its
request id belongs to one account. -/
def AssignedInput (b : BankConfig) (owner : String → String) : System → Label → Prop :=
  UpdateInput b fun req => req.Assigned owner ∧ req.type ≠ .transfer

instance (b : BankConfig) (owner : String → String) (σ : System) (l : Label) :
    Decidable (AssignedInput b owner σ l) :=
  inferInstanceAs (Decidable (UpdateInput b (fun req => req.Assigned owner ∧ req.type ≠ .transfer) σ l))

lemma follows_invariant (owner : String → String) :
    ServerInvariant (fun req => req.Assigned owner ∧ req.type ≠ .transfer)
      (ChainServer.Follows owner) where
  init s haccounts hprocessed hsent hhist := by
    have hbodies : s.bodies = [] := by rw [ChainServer.bodies, hhist, List.map_nil]
    refine ⟨⟨?_, ?_, ?_⟩, ?_, ?_, ?_, ?_⟩
    · intro a
      rw [ChainServer.balance, haccounts, hbodies]
      rfl
    · rw [hhist, hbodies]
      rfl
    · intro r a _
      rw [ChainServer.recalled, hprocessed, hsent, hbodies]
      rfl
    all_goals simp [hhist, hsent, hprocessed]
  hist _ h := h.assigned
  settled _ h := h.settled
  step _ _ _ h hlog hstep hrole hreq hreply := h.step hlog hstep hrole hreq hreply

/-- The servers of the bank follow the reference bank. -/
theorem follows_of_reach (hb : b ∈ cfg.banks) (hrun : Machine.Reach System.step
    (fun σ l => System.NoJoin σ l ∧ AssignedInput b owner σ l) cfg.init σ) :
    ∀ x ∈ b.servers, (σ.server x).Follows owner :=
  (BankInvariant.reach (follows_invariant owner) hb hrun).server

/-- Every live server of a chain without joins and transfers is a replica of the reference bank: its
balances, the replies to all the updates it has applied and the first requests that its two stores
hold together are what the reference bank computes from its history. -/
theorem replicas_agree (hb : b ∈ cfg.banks) (hrun : Machine.Reach System.step
    (fun σ l => System.NoJoin σ l ∧ AssignedInput b owner σ l) cfg.init σ) :
    ∀ x ∈ b.servers, σ.crashed x = false → (σ.server x).Agrees :=
  fun x hx _ => (follows_of_reach hb hrun x hx).toAgrees

open Config in
/-- A withdrawal that fails, a repetition and a conflicting body under one request id, then the tail
dies and the internal server, which has some updates acknowledged and some not, takes over. -/
theorem replicas_agree_after_takeover :
    let chain : BankConfig := { bankId := "BOA", servers := [1, 2, 3].map localAddress }
    let σ := twoBanks.after
      (fun σ l => System.NoJoin σ l ∧ AssignedInput chain (fun _ => "a") σ l)
      ([request 1 { sampleDeposit "1" 10 with type := .withdraw }, hop 1 2, hop 2 3, hop 3 2,
        request 1 (sampleDeposit "2" 10), hop 1 2, request 1 (sampleDeposit "2" 10), hop 1 2,
        request 1 (sampleDeposit "2" 7), hop 1 2, hop 2 3] ++ lose 3 ++ [hop 0 2, hop 2 1])
    ∀ x ∈ chain.servers, σ.crashed x = false → (σ.server x).Agrees :=
  replicas_agree (by decide) (reach_after (by decide +kernel))

end ChainReplication
