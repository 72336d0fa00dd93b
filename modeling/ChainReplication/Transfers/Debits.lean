import ChainReplication.Transfers.Calm
import ChainReplication.Transfers.Workload

/-!
# Incoming transfers and their debits

Without failures every `TRANSFER_TO`, logged or on its way, stems from a transfer that the tail of the
source bank has debited.
-/

namespace ChainReplication

/-- The last server of the chain. -/
def BankConfig.last (b : BankConfig) : Address := b.servers.getLastD .empty

namespace System

/-- What the tails of the banks have logged. -/
def tailLogs (cfg : Config) (σ : System) : List Request :=
  cfg.banks.flatMap fun b => (σ.server b.last).hist

/-- The updates of a type that the tails of the banks have carried out. -/
def carriedOut (cfg : Config) (σ : System) (t : RequestType) : List Request :=
  (σ.tailLogs cfg).filter fun q => q.type = t ∧ q.Applied

/-- A transfer under the id has been debited at the tail of its bank. -/
def Debited (cfg : Config) (σ : System) (r : String) : Prop :=
  ∃ q ∈ σ.carriedOut cfg .transfer, q.reqId = r

end System

/-- The servers remember what they have carried out, and incoming transfers have been debited. -/
structure Debits (cfg : Config) (σ : System) : Prop where
  dedup : ∀ x, (σ.server x).Deduplicates
  hist : ∀ x, ∀ q ∈ (σ.server x).hist, q.type = .transferTo → σ.Debited cfg q.reqId
  link : ∀ u y q, .request q ∈ σ.link u y → q.type = .transferTo → σ.Debited cfg q.reqId

variable {cfg : Config} {W : String → Request} {b : BankConfig} {σ σ' : System} {l : Label}
  {x y z : Address} {msg m : Message} {q : Request} {r : String} {t : RequestType}
  {L : Links Address Message} {out : List Packet}

/-! ### The last servers -/

lemma Config.getLast?_eq_last (hb : b ∈ cfg.banks) : b.servers.getLast? = some b.last := by
  rw [BankConfig.last, List.getLastD_eq_getLast?]
  cases h : b.servers.getLast? with
  | none => exact absurd (List.getLast?_eq_none_iff.mp h) (cfg.servers_ne_nil b hb)
  | some x => rfl

lemma Config.last_mem (hb : b ∈ cfg.banks) : b.last ∈ b.servers :=
  List.mem_of_getLast? (getLast?_eq_last hb)

lemma Steady.tail_last (h : Steady cfg σ) (hb : b ∈ cfg.banks) :
    (σ.server b.last).istail = true :=
  (h.tail _).mpr ⟨b, hb, Config.getLast?_eq_last hb⟩

lemma Steady.last_of_tail (h : Steady cfg σ) (htail : (σ.server x).istail = true) :
    ∃ b ∈ cfg.banks, b.last = x := by
  obtain ⟨b, hb, hlast⟩ := (h.tail x).mp htail
  rw [Config.getLast?_eq_last hb] at hlast
  exact ⟨b, hb, Option.some.inj hlast⟩

lemma System.mem_carriedOut : q ∈ σ.carriedOut cfg t ↔
    ∃ b ∈ cfg.banks, q ∈ (σ.server b.last).hist ∧ q.type = t ∧ q.Applied := by
  simp only [carriedOut, tailLogs, List.mem_filter, List.mem_flatMap, decide_eq_true_eq]
  constructor
  · rintro ⟨⟨b, hb, hq⟩, h⟩
    exact ⟨b, hb, hq, h⟩
  · rintro ⟨b, hb, hq, h⟩
    exact ⟨⟨b, hb, hq⟩, h⟩

lemma System.Debited.mono (h : σ.Debited cfg r)
    (hist : ∀ x, (σ.server x).hist ⊆ (σ'.server x).hist) : σ'.Debited cfg r := by
  obtain ⟨q, hq, hid⟩ := h
  obtain ⟨b, hb, hmem, hq⟩ := mem_carriedOut.mp hq
  exact ⟨q, mem_carriedOut.mpr ⟨b, hb, hist _ hmem, hq⟩, hid⟩

/-! ### Initial states -/

/-- A property of servers that have done nothing holds at the start. -/
lemma Config.init_fresh {P : ChainServer → Prop} (x : Address)
    (h : ∀ s : ChainServer, s.hist = [] → s.accountMap = ∅ → s.processedMap = ∅ → P s) :
    P (cfg.init.server x) :=
  Config.initServer_cases x (h _ rfl rfl rfl) fun _ _ _ => h _ rfl rfl rfl

lemma Config.init_hist (x : Address) : (cfg.init.server x).hist = [] := init_fresh x fun _ h _ _ => h

namespace Debits

lemma init (cfg : Config) : Debits cfg cfg.init := by
  refine ⟨?_, ?_, ?_⟩
  · intro x
    exact Config.init_fresh x fun s h h' h'' => ⟨by simp [h''], by simp [h], by simp [h]⟩
  · intro x q hq
    rw [Config.init_hist] at hq
    cases hq
  · intro u y q hq
    simp [Config.init] at hq

/-- Steps in which no server does anything. -/
lemma idle (h : Debits cfg σ) (server : σ'.server = σ.server)
    (link : ∀ u y, ∀ m ∈ σ'.link u y, m ∈ σ.link u y) : Debits cfg σ' := by
  have hcarried : σ'.carriedOut cfg .transfer = σ.carriedOut cfg .transfer := by
    simp only [System.carriedOut, System.tailLogs, server]
  refine ⟨by rw [server]; exact h.dedup, ?_, ?_⟩
  · simp only [System.Debited, server, hcarried]
    exact h.hist
  · simp only [System.Debited, hcarried]
    exact fun u y q hq => h.link u y q (link u y _ hq)

/-! ### A server serves a message -/

section Serve

variable (h : Debits cfg σ) (ht : Topology cfg σ) (taken : System.Taken σ x msg L)
  (hs : System.Serve σ x msg L out σ')
include ht taken hs

lemma serve_hist_subset (y : Address) : (σ.server y).hist ⊆ (σ'.server y).hist := by
  by_cases hyx : y = x
  · subst hyx
    rw [hs.server_self]
    exact (taken.logStep ht.toPlain).prefix_hist.subset
  · rw [hs.server_of_ne hyx]
    exact fun _ hq => hq

/-- A handler that keeps a property of its server keeps it of all servers. -/
lemma serve_servers {P : ChainServer → Prop} (hP : ∀ y, P (σ.server y))
    (keep : P (σ.server x) → ChainServer.LogStep (σ.server x) msg
      ((σ.server x).handleMsg σ.master.addr msg) → P (σ'.server x)) (y : Address) :
    P (σ'.server y) := by
  by_cases hyx : y = x
  · subst hyx
    exact keep (hP y) (taken.logStep ht.toPlain)
  · rw [hs.server_of_ne hyx]
    exact hP y

include h

lemma serve_dedup (hsteady : Steady cfg σ) (y : Address) : (σ'.server y).Deduplicates := by
  apply serve_servers ht taken hs h.dedup
  intro hdedup hstep
  rw [hs.server_self]
  apply hdedup.step (ht.log x) hstep
  rintro rep rfl u hu - -
  exact (hsteady.sent x (ht.taken_reply taken) u hu).2.2

/-- An incoming transfer that a server logs has been debited. -/
lemma serve_hist_debited (hq : q ∈ (σ'.server y).hist) (htype : q.type = .transferTo) :
    σ'.Debited cfg q.reqId := by
  have hgrows := serve_hist_subset ht taken hs
  by_cases hyx : y = x
  · subst hyx
    rcases ht.serve_hist taken hs hq with hq | ⟨req, rfl, rfl⟩
    · exact (h.hist y q hq htype).mono hgrows
    · rw [ChainServer.answered_type] at htype
      rw [ChainServer.answered_reqId]
      rcases taken.origin with ⟨src, hreq⟩ | ⟨_, heq, -, hclient⟩
      · exact (h.link src y req hreq htype).mono hgrows
      · obtain rfl := Message.request.inj heq
        exact absurd htype hclient
  · rw [hs.server_of_ne hyx] at hq
    exact (h.hist y q hq htype).mono hgrows

lemma serve_link_debited (ht' : Topology cfg σ') (hsteady' : Steady cfg σ')
    (hq : .request q ∈ σ'.link y z) (htype : q.type = .transferTo) : σ'.Debited cfg q.reqId := by
  rcases Routed.serve_dispatch ht taken hs hq with hq | ⟨rfl, hdispatch⟩
  · exact (h.link y z q hq htype).mono (serve_hist_subset ht taken hs)
  · cases hdispatch with
    | @transferTo _ u tail mem =>
      obtain ⟨hu, happlied, -⟩ := hsteady'.sent y tail u mem
      obtain ⟨b, hb, rfl⟩ := hsteady'.last_of_tail tail
      exact ⟨u, System.mem_carriedOut.mpr ⟨b, hb, (ht'.log _).mem_hist mem, hu, happlied⟩, rfl⟩
    | relay mem => exact h.serve_hist_debited ht taken hs ((ht'.log y).mem_hist mem) htype
    | other request => exact absurd rfl (request q)

theorem serve (ht' : Topology cfg σ') (hsteady : Steady cfg σ) (hsteady' : Steady cfg σ') :
    Debits cfg σ' := by
  refine ⟨h.serve_dedup ht taken hs hsteady, ?_, ?_⟩
  · intro y q hq htype
    exact h.serve_hist_debited ht taken hs hq htype
  · intro y z q hq htype
    exact h.serve_link_debited ht taken hs ht' hsteady' hq htype

end Serve

theorem step (h : Debits cfg σ) (ht : Topology cfg σ) (ht' : Topology cfg σ')
    (hsteady : Steady cfg σ) (hsteady' : Steady cfg σ') (hcase : CalmCase σ l σ') :
    Debits cfg σ' := by
  cases hcase with
  | serve taken serve => exact h.serve ht taken serve ht' hsteady hsteady'
  | idle server link => exact h.idle server link

end Debits

end ChainReplication
