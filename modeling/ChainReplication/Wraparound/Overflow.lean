import ChainReplication.Wraparound.Counting
import ChainReplication.Wraparound.Pair

/-!
# The 2³²-th update

No update vanishes as long as the head's counter does not wrap. The update after that gets the number 0, and
the successor takes it for a repetition.
-/

namespace ChainReplication

namespace Chain

open BankServerChain ChainServer Config

variable {cfg : Config} {b : BankConfig} {γ γ' : Chain} {l : ChainLabel} {master : Address}

/-- What holds between neighbours holds along the chain. -/
lemma isChain_of_nextOf {servers : List Address} {R : Address → Address → Prop} (hl : servers.Nodup)
    (h : ∀ x y, nextOf x servers = some y → R x y) : servers.IsChain R := by
  induction servers with
  | nil => exact List.IsChain.nil
  | cons a l ih =>
    obtain ⟨ha, hl⟩ := List.nodup_cons.mp hl
    have hrest := ih hl fun x y hxy => by
      have hne : a ≠ x := by
        rintro rfl
        exact ha (mem_of_nextOf hxy).1
      exact h x y (by rw [nextOf, if_neg hne, hxy])
    cases l with
    | nil => exact List.IsChain.singleton a
    | cons c l => exact List.IsChain.cons_cons (h a c (by rw [nextOf, if_pos rfl, List.head?_cons])) hrest

/-- When no update is on its way, every server has applied the same ones. -/
lemma NothingVanishes.settled (h : γ.NothingVanishes b) (hl : b.servers.Nodup)
    (hflight : ∀ x y, nextOf x b.servers = some y → γ.inFlight x y = []) {x y : Address}
    (hx : x ∈ b.servers) (hy : y ∈ b.servers) : (γ.server x).bodies = (γ.server y).bodies := by
  have hchain : b.servers.IsChain fun x y => (γ.server x).bodies = (γ.server y).bodies :=
    isChain_of_nextOf hl fun x y hxy => by rw [h.applied x y hxy, hflight x y hxy, List.append_nil]
  have htrans : IsTrans Address fun x y => (γ.server x).bodies = (γ.server y).bodies :=
    ⟨fun _ _ _ => Eq.trans⟩
  have hsymm : Std.Symm fun x y => (γ.server x).bodies = (γ.server y).bodies := ⟨fun _ _ => Eq.symm⟩
  by_cases hxy : x = y
  · rw [hxy]
  · exact hchain.pairwise.forall hx hy hxy

/-- In every run of a chain without failures whose head, if it has a successor, numbers fewer than 2³²
updates, no update vanishes: once nothing is on its way, every server has applied all of them. -/
theorem nothing_vanishes (hb : b ∈ cfg.banks)
    (hrun : Machine.Reach (Chain.step b master) (Chain.Fits b) cfg.initChain γ) :
    γ.NothingVanishes b ∧ ((∀ x y, nextOf x b.servers = some y → γ.inFlight x y = []) →
      ∀ x ∈ b.servers, ∀ y ∈ b.servers, (γ.server x).bodies = (γ.server y).bodies) := by
  have hnodup := servers_nodup hb
  have hvanishes : γ.NothingVanishes b := by
    by_cases hlen : 2 ≤ b.servers.length
    · have hcounting : Counting b γ := by
        refine hrun.invariant (Counting.init hb) fun γ l γ' hγ hfits hstep => ?_
        exact hγ.step hb hlen hfits hstep
      exact hcounting.nothingVanishes hnodup
    · have hnone (x y : Address) : nextOf x b.servers ≠ some y := by
        intro hxy
        obtain ⟨l₁, l₂, hl⟩ := nextOf_eq_some hxy
        rw [hl] at hlen
        simp at hlen
        omega
      constructor <;> exact fun x y hxy => absurd hxy (hnone x y)
  exact ⟨hvanishes, fun hflight x hx y hy => hvanishes.settled hnodup hflight hx hy⟩

/-! ### A run that wraps -/

/-- The chain of two servers of the sample configuration. -/
def pair : BankConfig :=
  { bankId := "BOA", servers := [localAddress 1, localAddress 2], extendServers := [localAddress 3] }

/-- A deposit reaches the head, the tail takes it up, and the head its acknowledgement. -/
def round : List ChainLabel :=
  [.outside (localAddress 1) (.request (sampleDeposit "BOA.c.1" 5)),
    .deliver (localAddress 1) (localAddress 2), .deliver (localAddress 2) (localAddress 1)]

theorem nothing_vanishes_sample :
    let γ := Machine.after (Chain.step pair (localAddress 0)) (Chain.Fits pair) growingBank.initChain
      (round ++ round.take 1)
    γ.NothingVanishes pair ∧ ((∀ x y, nextOf x pair.servers = some y → γ.inFlight x y = []) →
      ∀ x ∈ pair.servers, ∀ y ∈ pair.servers, (γ.server x).bodies = (γ.server y).bodies) :=
  @nothing_vanishes growingBank pair _ _ List.mem_cons_self (Machine.reach_after (by decide +kernel))

/-- Where the two servers are, and what is on its way down and up. -/
structure Stage (γ : Chain) (c k c' k' : ℕ) (sent : List Request) (down up : List Message) : Prop where
  servers : HeadAndTail (localAddress 1) (localAddress 2) (γ.server (localAddress 1))
    (γ.server (localAddress 2)) c k c' k' sent
  link : γ.link (localAddress 1) (localAddress 2) = down ∧ γ.link (localAddress 2) (localAddress 1) = up

lemma stage_init : Stage growingBank.initChain 0 0 0 0 [] [] [] := by
  refine ⟨?_, rfl, rfl⟩
  constructor <;> decide +kernel

variable {c k c' k' : ℕ} {sent : List Request} {down up : List Message} {r : Request}

lemma localAddress_ne : localAddress 2 ≠ localAddress 1 := by decide

/-- The head takes up a deposit. -/
lemma Stage.number (h : Stage γ c k c' k' [] [] []) : ∃ γ' r, Chain.step pair master γ
      (.outside (localAddress 1) (.request (sampleDeposit "BOA.c.1" 5))) = some γ' ∧
    r.type = .deposit ∧ r.bankUpdateSeq = nextSeq c ∧
    Stage γ' (nextSeq c) (k + 1) c' k' [r] [.request r] [] := by
  have hne := localAddress_ne
  have htaken : γ.taken pair (.outside (localAddress 1) (.request (sampleDeposit "BOA.c.1" 5))) =
      some (localAddress 1, .request (sampleDeposit "BOA.c.1" 5)) := by
    rw [taken]
    exact if_pos (by decide)
  obtain ⟨s', r, hhandle, htype, hr, hservers⟩ :=
    h.servers.number master (show (sampleDeposit "BOA.c.1" 5).type = .deposit from rfl)
  refine ⟨_, r, by rw [Chain.step, htaken, Option.bind_some]; simp only [hhandle, if_true]; rfl, htype, hr, ?_⟩
  constructor <;>
    simp only [Chain.handle, Chain.receive, Function.update_self, Function.update_of_ne hne, Links.send]
  case servers => exact hservers
  case link => simp [hne, h.link]

lemma taken_deliver {x y : Address} {msg : Message} (hx : x ∈ pair.servers) (hy : y ∈ pair.servers)
    (hlink : γ.link x y = [msg]) : γ.taken pair (.deliver x y) = some (y, msg) := by
  rw [taken, if_pos ⟨hx, hy⟩, hlink]
  rfl

/-- The tail takes up a deposit that has the next number. -/
lemma Stage.apply (h : Stage γ c k c' k' [r] [.request r] []) (htype : r.type = .deposit)
    (hr : r.bankUpdateSeq = c' + 1) : ∃ γ',
      Chain.step pair master γ (.deliver (localAddress 1) (localAddress 2)) = some γ' ∧
        Stage γ' c k (c' + 1) (k' + 1) [r] [] [.acknowledge ⟨r.bankUpdateSeq⟩] := by
  have hne := localAddress_ne
  have htaken := taken_deliver (by decide) (by decide) h.link.1
  obtain ⟨t', u, hhandle, hu, hservers⟩ := h.servers.apply master htype hr
  refine ⟨_, by rw [Chain.step, htaken, Option.bind_some]; simp only [hhandle, if_true]; rfl, ?_⟩
  constructor <;>
    simp only [Chain.handle, Chain.receive, Function.update_self, Function.update_of_ne hne.symm, Links.send,
      List.filterMap_cons, Packet.tcp?_replyToClient, hu]
  case servers => exact hservers
  case link => simp [hne, hne.symm, h.link, Links.recv]

/-- The tail ignores a deposit whose number it has passed. -/
lemma Stage.ignore (h : Stage γ c k c' k' [r] [.request r] []) (htype : r.type = .deposit)
    (hr : r.bankUpdateSeq ≤ c') : ∃ γ',
      Chain.step pair master γ (.deliver (localAddress 1) (localAddress 2)) = some γ' ∧
        Stage γ' c k c' k' [r] [] [] := by
  have hne := localAddress_ne
  have htaken := taken_deliver (by decide) (by decide) h.link.1
  have hhandle := h.servers.ignore master htype hr
  refine ⟨_, by rw [Chain.step, htaken, Option.bind_some]; simp only [hhandle, if_true]; rfl, ?_⟩
  constructor <;>
    simp only [Chain.handle, Chain.receive, Function.update_self, Function.update_of_ne hne.symm, Links.send]
  case servers => exact h.servers
  case link => simp [hne, hne.symm, h.link, Links.recv]

/-- The head takes up the acknowledgement. -/
lemma Stage.forget {a : Acknowledge} (h : Stage γ c k c' k' [r] [] [.acknowledge a])
    (hr : r.bankUpdateSeq ≤ a.bankUpdateSeq) : ∃ γ',
      Chain.step pair master γ (.deliver (localAddress 2) (localAddress 1)) = some γ' ∧
        Stage γ' c k c' k' [] [] [] := by
  have hne := localAddress_ne
  have htaken := taken_deliver (by decide) (by decide) h.link.2
  obtain ⟨s', hhandle, hservers⟩ := h.servers.forget master hr
  refine ⟨_, by rw [Chain.step, htaken, Option.bind_some]; simp only [hhandle, if_true]; rfl, ?_⟩
  constructor <;>
    simp only [Chain.handle, Chain.receive, Function.update_self, Function.update_of_ne hne, Links.send]
  case servers => exact hservers
  case link => simp [hne, hne.symm, h.link, Links.recv]

/-- The runs of the chain, whatever its counter does. -/
abbrev execute (γ : Chain) (ls : List ChainLabel) : Option Chain :=
  Machine.run (Chain.step pair (localAddress 0)) (fun _ _ => True) γ ls

lemma execute_cons {ls : List ChainLabel} {γ₁ : Chain} (hstep : Chain.step pair (localAddress 0) γ l = some γ₁)
    (hrest : execute γ₁ ls = some γ') : execute γ (l :: ls) = some γ' :=
  Machine.run_cons.mpr ⟨trivial, γ₁, hstep, hrest⟩

/-- A deposit is numbered, applied and acknowledged as long as the counter fits. -/
lemma Stage.round (h : Stage γ c k c k [] [] []) (hc : c + 1 < 2 ^ 32) : ∃ γ',
    execute γ Chain.round = some γ' ∧ Stage γ' (c + 1) (k + 1) (c + 1) (k + 1) [] [] [] := by
  have hnext : nextSeq c = c + 1 := nextSeq_of_lt hc
  obtain ⟨γ₁, r, hstep₁, htype, hr, h₁⟩ := h.number
  rw [hnext] at hr h₁
  obtain ⟨γ₂, hstep₂, h₂⟩ := h₁.apply htype hr
  obtain ⟨γ₃, hstep₃, h₃⟩ := h₂.forget le_rfl
  exact ⟨γ₃, execute_cons hstep₁ (execute_cons hstep₂ (execute_cons hstep₃ rfl)), h₃⟩

lemma stage_rounds {n : ℕ} (hn : n < 2 ^ 32) : ∃ γ,
    execute growingBank.initChain (List.replicate n round).flatten = some γ ∧ Stage γ n n n n [] [] [] := by
  induction n with
  | zero => exact ⟨_, rfl, stage_init⟩
  | succ n ih =>
    obtain ⟨γ, hrun, h⟩ := ih (by omega)
    obtain ⟨γ', hround, h'⟩ := h.round hn
    refine ⟨γ', ?_, h'⟩
    rw [List.replicate_succ', List.flatten_append, List.flatten_singleton]
    exact Machine.run_append.mpr ⟨γ, hrun, hround⟩

/-- After 2³² - 1 deposits, all of them applied and acknowledged, one more gets the number 0. The tail takes
it up and ignores it: it has vanished. -/
theorem update_vanishes : ∃ γ,
    execute growingBank.initChain ((List.replicate (2 ^ 32 - 1) round).flatten ++ round.take 2) = some γ ∧
    (γ.server (localAddress 2)).hist.length < (γ.server (localAddress 1)).hist.length ∧
    γ.link (localAddress 1) (localAddress 2) = [] ∧ ¬ γ.NothingVanishes pair := by
  obtain ⟨γ, hrun, h⟩ := @stage_rounds (2 ^ 32 - 1) (by omega)
  obtain ⟨γ₁, r, hstep₁, htype, hr, h₁⟩ := h.number
  have hzero : nextSeq (2 ^ 32 - 1) = 0 := by decide
  rw [hzero] at hr
  obtain ⟨γ₂, hstep₂, h₂⟩ := h₁.ignore htype (by omega)
  have hshort : (γ₂.server (localAddress 2)).hist.length < (γ₂.server (localAddress 1)).hist.length := by
    rw [h₂.servers.numbered.2.1, h₂.servers.applied.2.1]
    omega
  have htake : round.take 2 = [.outside (localAddress 1) (.request (sampleDeposit "BOA.c.1" 5)),
    .deliver (localAddress 1) (localAddress 2)] := rfl
  refine ⟨γ₂, Machine.run_append.mpr ⟨γ, hrun, ?_⟩, hshort, h₂.link.1, fun hnothing => ?_⟩
  · rw [htake]
    exact execute_cons hstep₁ (execute_cons hstep₂ rfl)
  · have happlied := hnothing.applied (localAddress 1) (localAddress 2) (by decide)
    have hlength := congrArg List.length happlied
    rw [inFlight, h₂.link.1, List.filterMap_nil, List.map_nil, List.append_nil, length_bodies,
      length_bodies] at hlength
    omega

end Chain

end ChainReplication
