import ChainReplication.System.Observed
import ChainReplication.System.Ordered
import ChainReplication.Wraparound.Pair

/-!
# Rounds of deposits

A bank with a chain of two servers takes up one deposit after another without failures. As long as the head's
counter fits, each of them is applied, answered and acknowledged.
-/

namespace ChainReplication

variable {cfg : Config} {b : BankConfig} {ω ω' : Ordered} {l : Label} {x y z u : Address} {msg : Message}
  {req r : Request} {s s' : ChainServer} {out : List Packet}

namespace Ordered

/-- The state after the server `z` has taken up `msg`, become `s` and sent `out`. -/
def serve (ω : Ordered) (l : Label) (z : Address) (msg : Message) (s : ChainServer) (out : List Packet) :
    Ordered where
  system := { ω.system with
    server := Function.update ω.system.server z s
    link := (ω.system.left l).send z (out.filterMap Packet.tcp?)
    trace := ω.system.trace ++ Event.handled z msg :: out.map (.sent z) }
  inbox dst := ω.waiting l dst ++ (sentTo out dst).map (z, ·)

lemma arrivals_handled (evs : List Event) (dst : Address) :
    arrivals ((evs ++ Event.handled z msg :: out.map (.sent z)).drop evs.length) dst =
      (sentTo out dst).map (z, ·) := by
  rw [List.drop_left, arrivals, List.filterMap_cons, ← arrivals]
  exact arrivals_sent z out dst

/-- A live server takes up a client's request. -/
lemma step32_client (hz : z ≠ ω.system.master.addr) (hlive : ω.system.crashed z = false)
    (hseq : req.bankUpdateSeq = 0) (htype : req.type ≠ .transferTo)
    (he : (ω.system.server z).handleMsg32 ω.system.master.addr (.request req) =
      { server := s, out := out }) :
    ω.step32 (.client z req none) = some (ω.serve (.client z req none) z (.request req) s out) := by
  have he : (ω.system.server z).receiveRequest32 req = { server := s, out := out } := he
  rw [step32, stepOf, if_pos (show ω.InTurn (.client z req none) from trivial), System.step32,
    if_pos ⟨hz, by simpa using hlive, hseq, htype⟩, he, Option.map_some]
  simp only [System.handle, System.emit, true_and, if_true, serve, List.append_assoc, List.singleton_append,
    arrivals_handled]
  rfl

/-- A live server takes up the first message of its inbox. -/
lemma step32_deliver (hz : z ≠ ω.system.master.addr) (hlive : ω.system.crashed z = false)
    {rest : List (Address × Message)} {rest' : List Message} (hinbox : ω.inbox z = (u, msg) :: rest)
    (hlink : ω.system.link u z = msg :: rest') (hextend : msg.isExtend = false)
    (he : (ω.system.server z).handleMsg32 ω.system.master.addr msg = { server := s, out := out }) :
    ω.step32 (.deliver u z none) = some (ω.serve (.deliver u z none) z msg s out) := by
  have hturn : ω.InTurn (.deliver u z none) := by
    show (ω.inbox z).head?.map Prod.fst = some u
    rw [hinbox]
    rfl
  have hspawn (σ : System) : σ.spawn z msg = σ := by
    cases msg with
    | extendServer => cases hextend
    | _ => rfl
  rw [step32, stepOf, if_pos hturn, System.step32]
  simp only [hlink, hlive, Bool.false_eq_true, if_false, if_neg hz, he, hspawn, Option.map_some, System.handle,
    System.emit, true_and, if_true, serve, List.append_assoc, List.singleton_append, arrivals_handled]
  rfl

end Ordered

/-- A deposit reaches the head `x`, the tail `y` takes it up, and the head its acknowledgement. -/
def depositRound (x y : Address) (req : Request) : List Label :=
  [.client x req none, .deliver x y none, .deliver y x none]

/-- The messages `down` are on their way from `x` to `y` and `up` back, and no others. -/
def between (x y : Address) (down up : List Message) : Links Address Message := fun u v =>
  if u = x ∧ v = y then down else if u = y ∧ v = x then up else []

/-- The bank's servers run as head and tail, the messages `down` and `up` are on their way between them, and
`k'` deposits have been answered. -/
structure InRounds (cfg : Config) (x y : Address) (ω : Ordered) (c k k' : ℕ) (sent : List Request)
    (down up : List Message) : Prop where
  servers : HeadAndTail x y (ω.system.server x) (ω.system.server y) c k k' k' sent
  crashed : ω.system.crashed = cfg.init.crashed
  master : ω.system.master = cfg.initMaster
  link : ω.system.link = between x y down up
  inbox : ∀ u, ω.inbox u = if u = y then down.map (x, ·) else if u = x then up.map (y, ·) else []
  deposits : (accepted y ω.system.trace).length = k' ∧ ∀ q ∈ accepted y ω.system.trace, q.type = .deposit
  answers : (repliesOf y ω.system.trace).length = k'

section Between

variable (hne : x ≠ y) {down up : List Message} {m : Message}
include hne

lemma between_send_down : (between x y down up).send x [(y, m)] = between x y (down ++ [m]) up := by
  funext u v
  by_cases hu : u = x
  · subst hu
    by_cases hv : v = y
    · simp [Links.send, between, hv]
    · simp [Links.send, between, hv, Ne.symm hv, hne]
  · simp [Links.send, between, hu]

lemma between_send_up : (between x y down up).send y [(x, m)] = between x y down (up ++ [m]) := by
  funext u v
  by_cases hu : u = y
  · subst hu
    by_cases hv : v = x
    · simp [Links.send, between, hv, hne.symm]
    · simp [Links.send, between, hv, Ne.symm hv, hne.symm]
  · simp [Links.send, between, hu]

omit hne in
lemma between_recv_down : (between x y (m :: down) up).recv x y = between x y down up := by
  funext u v
  by_cases huv : u = x ∧ v = y
  · simp [Links.recv, between, huv]
  · simp [Links.recv, between, huv]

lemma between_recv_up : (between x y down (m :: up)).recv y x = between x y down up := by
  funext u v
  by_cases huv : u = y ∧ v = x
  · simp [Links.recv, between, huv, hne.symm]
  · simp [Links.recv, between, huv]

end Between

namespace InRounds

variable {c k k' : ℕ} {sent : List Request} {down up : List Message}

section Bank

variable (hb : b ∈ cfg.banks) (hservers : b.servers = [x, y])
include hb hservers

lemma ne : x ≠ y := by
  have hnodup := Config.servers_nodup hb
  rw [hservers] at hnodup
  simpa using hnodup

lemma init : InRounds cfg x y (Ordered.init cfg) 0 0 0 [] [] [] := by
  have hne := ne hb hservers
  have hx := Config.initServer_of_mem hb (show x ∈ b.servers by simp [hservers])
  have hy := Config.initServer_of_mem hb (show y ∈ b.servers by simp [hservers])
  refine ⟨?_, rfl, rfl, ?_, ?_, ⟨rfl, by simp [accepted, Ordered.init, Config.init]⟩, rfl⟩
  · show HeadAndTail x y (cfg.initServer x) (cfg.initServer y) 0 0 0 0 []
    rw [hx, hy, hservers]
    constructor <;> simp [hne, hne.symm, BankServerChain.nextOf, BankServerChain.prevOf]
  · funext u v
    simp [Ordered.init, Config.init, between]
  · intro u
    simp [Ordered.init]

omit hservers in
lemma live (h : InRounds cfg x y ω c k k' sent down up) (hz : z ∈ b.servers) :
    z ≠ ω.system.master.addr ∧ ω.system.crashed z = false := by
  rw [h.master, h.crashed]
  exact ⟨Config.ne_master hb hz, Config.init_live hb hz⟩

omit hb hservers in
/-- The first message on its way to the tail is the first in its inbox. -/
lemma next_down (h : InRounds cfg x y ω c k k' sent (msg :: down) up) :
    ω.inbox y = (x, msg) :: down.map (x, ·) ∧ ω.system.link x y = msg :: down := by
  rw [h.inbox, h.link, between, if_pos rfl, if_pos ⟨rfl, rfl⟩]
  exact ⟨rfl, rfl⟩

omit hb hservers in
/-- The tail accepts a deposit that has the next number. -/
lemma acceptNext_eq (h : InRounds cfg x y ω c k k' sent down up) (htype : r.type = .deposit) :
    acceptNext (accepted y ω.system.trace) r = if r.bankUpdateSeq = k' + 1 then
      accepted y ω.system.trace ++ [r.body] else accepted y ω.system.trace := by
  have hfilter : (accepted y ω.system.trace).filter (·.type ≠ .query) = accepted y ω.system.trace := by
    rw [List.filter_eq_self]
    intro q hq
    simp [h.deposits.2 q hq]
  rw [acceptNext, if_neg (by simp [htype]), hfilter, h.deposits.1]

/-- The head takes up a deposit. -/
lemma number (h : InRounds cfg x y ω c k k' sent down up) (req : Request) (htype : req.type = .deposit)
    (hseq : req.bankUpdateSeq = 0) : ∃ ω' r,
    ω.step32 (.client x req none) = some ω' ∧ r.type = .deposit ∧ r.bankUpdateSeq = nextSeq c ∧
      InRounds cfg x y ω' (nextSeq c) (k + 1) k' (sent ++ [r]) (down ++ [.request r]) up := by
  have hne := ne hb hservers
  obtain ⟨hx, hlive⟩ := h.live hb (show x ∈ b.servers by simp [hservers])
  obtain ⟨s', r, hhandle, hr, hnumber, hpair⟩ := h.servers.number ω.system.master.addr htype
  have hstep := Ordered.step32_client hx hlive hseq (by simp [htype]) hhandle
  refine ⟨_, r, hstep, hr, hnumber, ?_, h.crashed, h.master, ?_, ?_, ?_, ?_⟩
  · simpa only [Ordered.serve, Function.update_self, Function.update_of_ne hne.symm] using hpair
  · simp only [Ordered.serve, System.left, h.link, List.filterMap_cons, List.filterMap_nil, Packet.tcp?_tcp,
      between_send_down hne]
  · intro u
    simp only [Ordered.serve, Ordered.waiting, h.inbox, sentTo, List.filterMap_cons, List.filterMap_nil,
      Packet.tcp?_tcp]
    by_cases hu : u = y
    · simp [hu]
    · simp [hu, Ne.symm hu]
  · rw [Ordered.serve, accepted_serve_of_ne _ hne]
    exact h.deposits
  · rw [Ordered.serve, repliesOf_serve_of_ne _ hne]
    exact h.answers

/-- The tail takes up a deposit that has the next number. -/
lemma apply (h : InRounds cfg x y ω c k k' sent (.request r :: down) up) (htype : r.type = .deposit)
    (hr : r.bankUpdateSeq = k' + 1) : ∃ ω', ω.step32 (.deliver x y none) = some ω' ∧
      InRounds cfg x y ω' c k (k' + 1) sent down (up ++ [.acknowledge ⟨r.bankUpdateSeq⟩]) := by
  have hne := ne hb hservers
  obtain ⟨hy, hlive⟩ := h.live hb (show y ∈ b.servers by simp [hservers])
  obtain ⟨t', u, hhandle, hu, hpair⟩ := h.servers.apply ω.system.master.addr htype hr
  obtain ⟨hinbox, hlink⟩ := h.next_down
  have hstep := Ordered.step32_deliver hy hlive hinbox hlink rfl hhandle
  have haccepted : acceptNext (accepted y ω.system.trace) r = accepted y ω.system.trace ++ [r.body] := by
    rw [h.acceptNext_eq htype, if_pos hr]
  refine ⟨_, hstep, ?_, h.crashed, h.master, ?_, ?_, ?_, ?_⟩
  · simpa only [Ordered.serve, Function.update_self, Function.update_of_ne hne] using hpair
  · simp [Ordered.serve, System.left, h.link, hu, between_recv_down, between_send_up hne]
  · intro v
    simp only [Ordered.serve, Ordered.waiting, h.inbox, sentTo]
    by_cases hv : v = y
    · simp [hv, hu, hne]
    · by_cases hvx : v = x
      · simp [hvx, hu, hne]
      · simp [hv, hvx, hu, Ne.symm hvx]
  · simp only [Ordered.serve, accepted_serve, accepted_handled, haccepted]
    refine ⟨by simp [h.deposits.1], fun q hq => ?_⟩
    rcases List.mem_append.mp hq with hq | hq
    · exact h.deposits.2 q hq
    · rw [List.mem_singleton.mp hq, Request.body_type, htype]
  · simp only [Ordered.serve, repliesOf_serve]
    simp [h.answers]

/-- The tail ignores a deposit whose number it has passed. -/
lemma ignore (h : InRounds cfg x y ω c k k' sent (.request r :: down) up) (htype : r.type = .deposit)
    (hr : r.bankUpdateSeq ≤ k') : ∃ ω', ω.step32 (.deliver x y none) = some ω' ∧
      InRounds cfg x y ω' c k k' sent down up := by
  have hne := ne hb hservers
  obtain ⟨hy, hlive⟩ := h.live hb (show y ∈ b.servers by simp [hservers])
  have hhandle := h.servers.ignore ω.system.master.addr htype hr
  obtain ⟨hinbox, hlink⟩ := h.next_down
  have hstep := Ordered.step32_deliver hy hlive hinbox hlink rfl hhandle
  have haccepted : acceptNext (accepted y ω.system.trace) r = accepted y ω.system.trace := by
    rw [h.acceptNext_eq htype, if_neg (by omega)]
  refine ⟨_, hstep, ?_, h.crashed, h.master, ?_, ?_, ?_, ?_⟩
  · simpa only [Ordered.serve, Function.update_self, Function.update_of_ne hne] using h.servers
  · simp [Ordered.serve, System.left, h.link, between_recv_down]
  · intro v
    simp only [Ordered.serve, Ordered.waiting, h.inbox, sentTo]
    by_cases hv : v = y
    · simp [hv]
    · simp [hv]
  · simp only [Ordered.serve, accepted_serve, accepted_handled, haccepted]
    exact h.deposits
  · simp only [Ordered.serve, repliesOf_serve]
    simp [h.answers]

/-- The head takes up an acknowledgement of its last deposit. -/
lemma forget {a : Acknowledge} (h : InRounds cfg x y ω c k k' [r] down (.acknowledge a :: up))
    (hr : r.bankUpdateSeq ≤ a.bankUpdateSeq) : ∃ ω', ω.step32 (.deliver y x none) = some ω' ∧
      InRounds cfg x y ω' c k k' [] down up := by
  have hne := ne hb hservers
  obtain ⟨hx, hlive⟩ := h.live hb (show x ∈ b.servers by simp [hservers])
  obtain ⟨s', hhandle, hpair⟩ := h.servers.forget ω.system.master.addr hr
  have hinbox : ω.inbox x = (y, .acknowledge a) :: up.map (y, ·) := by
    rw [h.inbox, if_neg hne, if_pos rfl, List.map_cons]
  have hlink : ω.system.link y x = .acknowledge a :: up := by
    rw [h.link, between, if_neg (by simp [hne]), if_pos ⟨rfl, rfl⟩]
  have hstep := Ordered.step32_deliver hx hlive hinbox hlink rfl hhandle
  refine ⟨_, hstep, ?_, h.crashed, h.master, ?_, ?_, ?_, ?_⟩
  · simpa only [Ordered.serve, Function.update_self, Function.update_of_ne hne.symm] using hpair
  · simp [Ordered.serve, System.left, h.link, between_recv_up hne]
  · intro v
    simp only [Ordered.serve, Ordered.waiting, h.inbox, sentTo]
    by_cases hv : v = x
    · simp [hv, hne]
    · simp [hv]
  · rw [Ordered.serve, accepted_serve_of_ne _ hne]
    exact h.deposits
  · rw [Ordered.serve, repliesOf_serve_of_ne _ hne]
    exact h.answers

variable (req) (ok : Ordered → Label → Prop) [∀ ω l, Decidable (ok ω l)]
  (hok : (∀ ω, ok ω (.client x req none)) ∧ (∀ ω, ok ω (.deliver x y none)) ∧ ∀ ω, ok ω (.deliver y x none))
include hok

/-- A deposit is numbered, applied and acknowledged as long as the counter fits. -/
lemma round (h : InRounds cfg x y ω k k k [] [] []) (hk : k + 1 < 2 ^ 32) (htype : req.type = .deposit)
    (hseq : req.bankUpdateSeq = 0) :
    ∃ ω', Machine.run Ordered.step32 ok ω (depositRound x y req) = some ω' ∧
      InRounds cfg x y ω' (k + 1) (k + 1) (k + 1) [] [] [] := by
  obtain ⟨ω₁, r, hstep₁, hr, hnumber, h₁⟩ := h.number hb hservers req htype hseq
  rw [nextSeq_of_lt hk] at hnumber h₁
  obtain ⟨ω₂, hstep₂, h₂⟩ := h₁.apply hb hservers hr hnumber
  obtain ⟨ω₃, hstep₃, h₃⟩ := h₂.forget hb hservers le_rfl
  obtain ⟨hok₁, hok₂, hok₃⟩ := hok
  exact ⟨ω₃, Machine.run_cons.mpr ⟨hok₁ ω, ω₁, hstep₁, Machine.run_cons.mpr ⟨hok₂ ω₁, ω₂, hstep₂,
    Machine.run_cons.mpr ⟨hok₃ ω₂, ω₃, hstep₃, rfl⟩⟩⟩, h₃⟩

/-- As many rounds as the counter has numbers go through, and each deposit is answered. -/
theorem rounds {n : ℕ} (hn : n < 2 ^ 32) (htype : req.type = .deposit) (hseq : req.bankUpdateSeq = 0) :
    ∃ ω, Machine.run Ordered.step32 ok (Ordered.init cfg) (List.replicate n (depositRound x y req)).flatten =
        some ω ∧ InRounds cfg x y ω n n n [] [] [] := by
  induction n with
  | zero => exact ⟨_, rfl, init hb hservers⟩
  | succ n ih =>
    obtain ⟨ω, hrun, h⟩ := ih (by omega)
    obtain ⟨ω', hround, h'⟩ := h.round req hb hservers ok hok hn htype hseq
    refine ⟨ω', ?_, h'⟩
    rw [List.replicate_succ', List.flatten_append, List.flatten_singleton]
    exact Machine.run_append.mpr ⟨ω, hrun, hround⟩

/-- After that the next deposit gets the number 0, and the tail ignores it. -/
theorem overflow (htype : req.type = .deposit) (hseq : req.bankUpdateSeq = 0) : ∃ ω r,
    Machine.run Ordered.step32 ok (Ordered.init cfg)
      ((List.replicate (2 ^ 32 - 1) (depositRound x y req)).flatten ++ (depositRound x y req).take 2) = some ω ∧
    r.bankUpdateSeq = 0 ∧ InRounds cfg x y ω 0 (2 ^ 32) (2 ^ 32 - 1) [r] [] [] := by
  obtain ⟨ω, hrun, h⟩ := rounds req hb hservers ok hok (show 2 ^ 32 - 1 < 2 ^ 32 by omega) htype hseq
  obtain ⟨ω₁, r, hstep₁, hr, hnumber, h₁⟩ := h.number hb hservers req htype hseq
  have hzero : nextSeq (2 ^ 32 - 1) = 0 := by decide
  rw [hzero] at hnumber h₁
  obtain ⟨ω₂, hstep₂, h₂⟩ := h₁.ignore hb hservers hr (by omega)
  obtain ⟨hok₁, hok₂, -⟩ := hok
  have hlast : Machine.run Ordered.step32 ok ω ((depositRound x y req).take 2) = some ω₂ :=
    Machine.run_cons.mpr ⟨hok₁ ω, ω₁, hstep₁, Machine.run_cons.mpr ⟨hok₂ ω₁, ω₂, hstep₂, rfl⟩⟩
  exact ⟨ω₂, r, Machine.run_append.mpr ⟨ω, hrun, hlast⟩, hnumber, h₂⟩

end Bank

end InRounds

namespace Config

/-- The chain of two servers of the sample configuration. -/
def growingChain : BankConfig :=
  { bankId := "BOA", servers := [localAddress 1, localAddress 2], extendServers := [localAddress 3] }

/-- Rounds of a deposit at the bank with two servers. -/
def deposits (n : ℕ) : List Label :=
  (List.replicate n (depositRound (localAddress 1) (localAddress 2) (sampleDeposit "1" 5))).flatten

end Config

end ChainReplication
