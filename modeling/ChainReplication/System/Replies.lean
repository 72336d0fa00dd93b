import ChainReplication.System.Replicas
import ChainReplication.System.Consistency

/-!
# Replies across failovers

Every reply that a chain has sent is an entry in the log of each of its live servers, and all replies
together are in the log of the last server that answered. The log is that of the reference bank, where
an answer without a conflict repeats the reply to the first request.
-/

namespace ChainReplication

variable {cfg : Config} {b : BankConfig} {owner : String → String} {σ σ' : System} {l : Label}

/-- The server `z` has logged every reply to an update that a server of the bank has sent. -/
def LogsReplies (b : BankConfig) (σ : System) (z : Address) : Prop :=
  ∀ x ∈ b.servers, ∀ u, Event.sent x (.replyToClient u) ∈ σ.trace → u.type ≠ .query →
    u ∈ (σ.server z).hist

/-- The live servers of the bank have logged all replies, and there is a server that has. -/
structure RepliesLogged (b : BankConfig) (σ : System) : Prop where
  live : ∀ z ∈ b.servers, σ.crashed z = false → LogsReplies b σ z
  all : ∃ z ∈ b.servers, LogsReplies b σ z

lemma LogsReplies.appends {z : Address} (h : LogsReplies b σ z) (ha : Appends σ σ')
    (htrace : ∀ x ∈ b.servers, ∀ u, Event.sent x (.replyToClient u) ∈ σ'.trace →
      Event.sent x (.replyToClient u) ∈ σ.trace) : LogsReplies b σ' z :=
  fun x hx u hu htype => (ha.hist z).subset (h x hx u (htrace x hx u hu) htype)

namespace RepliesLogged

lemma init (hb : b ∈ cfg.banks) : RepliesLogged b cfg.init := by
  have hnone (z : Address) : LogsReplies b cfg.init z := by
    intro x _ u hu
    simp [Config.init] at hu
  obtain ⟨z, hz⟩ := List.exists_mem_of_ne_nil _ (cfg.servers_ne_nil b hb)
  exact ⟨fun z _ _ => hnone z, z, hz, hnone z⟩

/-- A server that follows the reference bank has the answers of every server with a shorter
history. -/
lemma mem_hist_of_prefix {s t : ChainServer} (hs : s.Follows owner) (ht : t.Follows owner)
    (h : s.bodies <+: t.bodies) {u : Request} (hu : u ∈ s.hist) : u ∈ t.hist := by
  rw [hs.log] at hu
  rw [ht.log]
  exact (Bank.log_of_prefix h).subset hu

lemma step (h : RepliesLogged b σ) (hb : b ∈ cfg.banks) (ht : Topology cfg σ)
    (hr : Replicated cfg σ) (hfollows : ∀ x ∈ b.servers, (σ'.server x).Follows owner)
    (hcase : System.StepCase σ l σ') : RepliesLogged b σ' := by
  have ha := ht.appends hcase
  have hne {x : Address} (hx : x ∈ b.servers) : x ≠ σ.master.addr := by
    rw [ht.master]
    exact Config.ne_master hb hx
  refine ⟨?_, ?_⟩
  · intro z hz hlive x hx u hu htype
    rcases hcase.sent_packet (hne hx) hu with hu | ⟨msg, L, out, taken, hs, hp⟩
    · exact (ha.hist z).subset (h.live z hz (ha.live hlive) x hx u hu htype)
    · obtain ⟨hmem, htail⟩ := ht.replied taken hs hp htype
      have hsub := Replicated.serve_tail_shortest hr ht taken hs hb hx htail hz hlive
      exact mem_hist_of_prefix (hfollows x hx) (hfollows z hz) hsub hmem
  · by_cases hnew : ∃ x ∈ b.servers, ∃ msg L out, System.Taken σ x msg L ∧
        System.Serve σ x msg L out σ'
    · -- the server that has taken the step was live and has logged all earlier replies
      obtain ⟨x, hx, msg, L, out, taken, hs⟩ := hnew
      refine ⟨x, hx, fun y hy u hu htype => ?_⟩
      rw [hs.trace, List.mem_append, List.mem_cons] at hu
      rcases hu with hu | hu | hu
      · exact (ha.hist x).subset (h.live x hx hs.live y hy u hu htype)
      · cases hu
      · obtain ⟨p, hp, heq⟩ := List.mem_map.mp hu
        obtain ⟨rfl, rfl⟩ := Event.sent.inj heq
        exact (ht.replied taken hs hp htype).1
    · obtain ⟨z, hz, hlogs⟩ := h.all
      refine ⟨z, hz, fun y hy u hu htype => ?_⟩
      rcases hcase.sent_packet (hne hy) hu with hu | ⟨msg, L, out, taken, hs, -⟩
      · exact (ha.hist z).subset (hlogs y hy u hu htype)
      · exact absurd ⟨y, hy, msg, L, out, taken, hs⟩ hnew

theorem reach (hb : b ∈ cfg.banks) (hrun : Machine.Reach System.step
    (fun σ l => System.NoJoin σ l ∧ AssignedInput b owner σ l) cfg.init σ) :
    RepliesLogged b σ := by
  refine hrun.invariant_of (J := fun σ => Topology cfg σ ∧ Replicated cfg σ ∧
    ∀ x ∈ b.servers, (σ.server x).Follows owner) ?_ (init hb) ?_
  · intro σ hrun
    exact ⟨Topology.reach (fun _ _ h => h.1) hrun, Replicated.reach (fun _ _ h => h.1) hrun,
      follows_of_reach hb hrun⟩
  · intro σ l σ' h hJ hJ' hl hs
    exact h.step hb hJ.1 hJ.2.1 hJ'.2.2 (System.step_cases hJ.1.toPlain hl.1 hs)

end RepliesLogged

/-- Any two replies that tails of a chain send at any time for updates under one id and account, neither
of which reports a conflict, carry the same outcome and the same balance. -/
theorem repeated_reply_same (hb : b ∈ cfg.banks) (hrun : Machine.Reach System.step
    (fun σ l => System.NoJoin σ l ∧ AssignedInput b owner σ l) cfg.init σ) :
    ∀ x ∈ b.servers, ∀ y ∈ b.servers, ∀ u u',
      Event.sent x (.replyToClient u) ∈ σ.trace → Event.sent y (.replyToClient u') ∈ σ.trace →
      u.type ≠ .query → u'.type ≠ .query → u.reqId = u'.reqId → u.accountId = u'.accountId →
      u.reply.outcome ≠ .inconsistentWithHistory → u'.reply.outcome ≠ .inconsistentWithHistory →
      u.reply.outcome = u'.reply.outcome ∧ u.reply.balance = u'.reply.balance := by
  intro x hx y hy u u' hu hu' htype htype' hid hacc hout hout'
  obtain ⟨z, hz, hlogs⟩ := (RepliesLogged.reach hb hrun).all
  have hlog := (follows_of_reach hb hrun z hz).log
  have hmem := hlogs x hx u hu htype
  have hmem' := hlogs y hy u' hu' htype'
  rw [hlog] at hmem hmem'
  obtain ⟨it, hit, hreply⟩ := Bank.reply_of_log hmem hout
  obtain ⟨it', hit', hreply'⟩ := Bank.reply_of_log hmem' hout'
  rw [hid, hacc, hit'] at hit
  obtain rfl := Option.some.inj hit
  rw [hreply, hreply']
  exact ⟨rfl, rfl⟩

open Config in
/-- The tail answers a deposit, another deposit changes the balance, the tail dies, and the next tail
answers the repetition of the first deposit. -/
theorem repeated_reply_same_takeover :
    let chain : BankConfig := { bankId := "BOA", servers := [1, 2, 3].map localAddress }
    let σ := twoBanks.after
      (fun σ l => System.NoJoin σ l ∧ AssignedInput chain (fun _ => "a") σ l)
      ([request 1 (sampleDeposit "1" 10), hop 1 2, hop 2 3, request 1 (sampleDeposit "2" 5),
        hop 1 2] ++ lose 3 ++ [hop 0 2, request 1 (sampleDeposit "1" 10), hop 1 2])
    ∀ x ∈ chain.servers, ∀ y ∈ chain.servers, ∀ u u',
      Event.sent x (.replyToClient u) ∈ σ.trace → Event.sent y (.replyToClient u') ∈ σ.trace →
      u.type ≠ .query → u'.type ≠ .query → u.reqId = u'.reqId → u.accountId = u'.accountId →
      u.reply.outcome ≠ .inconsistentWithHistory → u'.reply.outcome ≠ .inconsistentWithHistory →
      u.reply.outcome = u'.reply.outcome ∧ u.reply.balance = u'.reply.balance :=
  repeated_reply_same (by decide) (reach_after (by decide +kernel))

end ChainReplication
