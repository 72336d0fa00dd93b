import ChainReplication.DistAlgo.Topology
import ChainReplication.Library.SeqStream

/-!
# The order of the updates in the DistAlgo system

A server has the updates of every server behind it, in the same order and with the same numbers, and those
behind get the others without a gap, whatever crashes and however late a link is repaired.
-/

namespace ChainReplication.DistAlgo

open SeqStream

variable {P : Type*} {s t : Server P} {log : List (Request P)} {m : Mail P} {r : Request P} {src : P}
  {out : List (P × Mail P)}

/-! ### The log of a server -/

/-- A server has numbered its updates from 1, and those that it still has to pass on are the last ones. -/
structure Logged (s : Server P) (log : List (Request P)) : Prop where
  count : s.bankUpdateSeq = log.length
  numbered : ∀ (k : ℕ) r, log[k]? = some r → r.bankUpdateSeq = k + 1
  sent : s.sent.map Request.body <:+ log

namespace Logged

lemma init (h : s.bankUpdateSeq = 0) (hsent : s.sent = []) : Logged s [] := by
  refine ⟨h, fun k r hr => ?_, ?_⟩
  · rw [List.getElem?_nil] at hr
    cases hr
  · rw [hsent]
    exact List.suffix_refl []

/-- Where the requests stand that a server still has to pass on. -/
lemma exists_base (h : Logged s log) : ∃ base : ℕ, log.length = base + s.sent.length ∧
    ∀ (i : ℕ) r, s.sent[i]? = some r → log[base + i]? = some r.body ∧ r.bankUpdateSeq = base + i + 1 := by
  obtain ⟨pre, hpre⟩ := h.sent
  refine ⟨pre.length, by rw [← hpre, List.length_append, List.length_map], fun i r hr => ?_⟩
  have hlog : log[pre.length + i]? = some r.body := by
    rw [← hpre, List.getElem?_append_right (Nat.le_add_right _ _), Nat.add_sub_cancel_left, List.getElem?_map, hr]
    rfl
  refine ⟨hlog, ?_⟩
  have hnumber := h.numbered _ _ hlog
  push_cast at hnumber
  exact hnumber

lemma numbers_sent (h : Logged s log) : ∃ base, log.length = base + s.sent.length ∧
    s.sent.map (fun r => r.bankUpdateSeq.toNat) = List.range' (base + 1) s.sent.length := by
  obtain ⟨base, hbase, hsent⟩ := h.exists_base
  refine ⟨base, hbase, List.ext_getElem (by simp) fun i hi hi' => ?_⟩
  have hlt : i < s.sent.length := by simpa using hi
  have hnumber := (hsent i _ (List.getElem?_eq_getElem hlt)).2
  rw [List.getElem_map, List.getElem_range']
  omega

lemma le_of_mem_sent (h : Logged s log) (hr : r ∈ s.sent) : r.bankUpdateSeq ≤ log.length := by
  obtain ⟨base, hbase, hsent⟩ := h.exists_base
  obtain ⟨i, hi⟩ := List.mem_iff_getElem?.mp hr
  have hlt := (List.getElem?_eq_some_iff.mp hi).1
  have hnumber := (hsent i r hi).2
  omega

/-- The next update. -/
lemma append (h : Logged s log) (hnext : r.bankUpdateSeq = s.bankUpdateSeq + 1)
    (hcount : t.bankUpdateSeq = r.bankUpdateSeq) (hsent : t.sent.map Request.body <:+ log ++ [r.body]) :
    Logged t (log ++ [r.body]) := by
  have hold := h.count
  refine ⟨?_, fun k x hx => ?_, hsent⟩
  · rw [List.length_append, List.length_singleton]
    push_cast
    omega
  · rcases Nat.lt_or_ge k log.length with hk | hk
    · rw [List.getElem?_append_left hk] at hx
      exact h.numbered k x hx
    · rw [List.getElem?_append_right hk, List.getElem?_singleton] at hx
      split_ifs at hx with hlast
      obtain rfl := Option.some.inj hx
      show r.bankUpdateSeq = k + 1
      omega

/-- What is taken up is logged. -/
lemma handle (h : Logged s log) (hcase : s.HandleCase src m t out)
    (htail : s.isTail = true → s.sent = []) : Logged t (log ++ (s.takenUp src m).toList) := by
  cases hcase with
  | idle none_taken queries =>
    rw [none_taken, Option.toList_none, List.append_nil]
    exact ⟨h.count, h.numbered, h.sent⟩
  | pass taken next relay succ =>
    rw [taken, Option.toList_some]
    refine h.append next rfl ?_
    rw [List.map_append, List.map_singleton]
    obtain ⟨pre, hpre⟩ := h.sent
    exact ⟨pre, by rw [← List.append_assoc, hpre]⟩
  | complete taken next tail out_eq =>
    rw [taken, Option.toList_some]
    refine h.append next rfl ?_
    dsimp only
    rw [htail tail]
    exact List.nil_suffix
  | acked split upTo out_eq =>
    rw [Server.takenUp_ack, Option.toList_none, List.append_nil]
    refine ⟨h.count, h.numbered, List.IsSuffix.trans ?_ h.sent⟩
    rw [split, List.map_append]
    exact List.suffix_append _ _
  | head | prev | succ =>
    rw [Server.takenUp_notice, Option.toList_none, List.append_nil]
    exact ⟨h.count, h.numbered, h.sent⟩
  | tail out_eq =>
    rw [Server.takenUp_notice, Option.toList_none, List.append_nil]
    exact ⟨h.count, h.numbered, List.nil_suffix⟩

end Logged

/-! ### Messages -/

/-- The number of a request. -/
def Mail.number : Mail P → Option ℕ
  | .msg (.request req) => some req.bankUpdateSeq.toNat
  | _ => none

/-- The numbers of the requests among messages. -/
def numbers (l : List (Mail P)) : List ℕ := l.filterMap Mail.number

lemma numbers_cons (m : Mail P) (l : List (Mail P)) : numbers (m :: l) = m.number.toList ++ numbers l := by
  rw [numbers, List.filterMap_cons]
  cases m.number <;> rfl

@[simp] lemma numbers_append (l l' : List (Mail P)) : numbers (l ++ l') = numbers l ++ numbers l' :=
  List.filterMap_append

variable {d : Deployment P} {b : BankSetup P} {σ τ : Network P} {p q x y z dst : P}

/-- Processes only end and logs only grow. -/
structure Grows (σ τ : Network P) : Prop where
  dead : ∀ z, σ.Dead z → τ.Dead z
  log : ∀ z, σ.log z <+: τ.log z

/-- The reply answers an update that every server of the bank has as long as it lives. -/
def Kept (b : BankSetup P) (σ : Network P) (rep : Reply) : Prop :=
  ∃ r : Request P, r.reqId = rep.reqId ∧ r.type = rep.type ∧ r.accountId = rep.accountId ∧
    ∀ z ∈ b.servers, ¬ σ.Dead z → r ∈ σ.log z

/-- What a message from `x` to `y` says of the logs is true. -/
def Backed (d : Deployment P) (σ : Network P) (x y : P) : Mail P → Prop
  | .msg (.request req) => ∃ k : ℕ, req.bankUpdateSeq = k + 1 ∧
    ∀ b ∈ d.banks, ∀ z, b.servers.Precedes z y → ¬ σ.Dead z → (σ.log z)[k]? = some req.body
  | .msg (.ack n _) => ∀ b ∈ d.banks, ∀ z, b.servers.Precedes y z → ¬ σ.Dead z → n ≤ (σ.log z).length
  | .msg (.reply rep) => rep.type = .query ∨ ∃ b ∈ d.banks, x ∈ b.servers ∧ Kept b σ rep
  | .notice (.newSuccServer s n) => ¬ σ.Dead s → n ≤ (σ.log s).length
  | .ackNewPrevServer _ n => n ≤ (σ.log x).length
  | _ => True

namespace Grows

lemma refl : Grows σ σ := ⟨fun _ => id, fun _ => List.prefix_refl _⟩

lemma trans {υ : Network P} (h : Grows σ τ) (h' : Grows τ υ) : Grows σ υ :=
  ⟨fun z hz => h'.dead z (h.dead z hz), fun z => (h.log z).trans (h'.log z)⟩

variable (h : Grows σ τ)
include h

lemma live (hz : ¬ τ.Dead z) : ¬ σ.Dead z := fun hdead => hz (h.dead z hdead)

lemma length : (σ.log z).length ≤ (τ.log z).length := (h.log z).length_le

lemma getElem? {k : ℕ} (hr : (σ.log z)[k]? = some r) : (τ.log z)[k]? = some r := by
  obtain ⟨rest, hrest⟩ := h.log z
  rw [← hrest, List.getElem?_append_left (List.getElem?_eq_some_iff.mp hr).1, hr]

lemma kept {rep : Reply} (hrep : Kept b σ rep) : Kept b τ rep := by
  obtain ⟨r, hid, htype, haccount, hr⟩ := hrep
  exact ⟨r, hid, htype, haccount, fun z hz hlive => (h.log z).subset (hr z hz (h.live hlive))⟩

lemma backed (hm : Backed d σ x y m) : Backed d τ x y m := by
  unfold Backed at hm ⊢
  split at hm
  · obtain ⟨k, hk, hlogs⟩ := hm
    exact ⟨k, hk, fun b hb z hz hlive => h.getElem? (hlogs b hb z hz (h.live hlive))⟩
  · intro b hb z hz hlive
    have hcount := hm b hb z hz (h.live hlive)
    have hlength := h.length (z := z)
    omega
  · exact hm.imp_right fun ⟨b, hb, hx, hkept⟩ => ⟨b, hb, hx, h.kept hkept⟩
  · exact fun hlive => (hm (h.live hlive)).trans h.length
  · exact hm.trans h.length
  · trivial

end Grows

/-! ### The system -/

variable [DecidableEq P] {l : NetworkLabel P}

/-- The messages for one process. -/
def sentTo (y : P) (out : List (P × Mail P)) : List (Mail P) :=
  out.filterMap fun p => if p.1 = y then some p.2 else none

lemma mem_sentTo : m ∈ sentTo y out ↔ (y, m) ∈ out := by
  rw [sentTo, List.mem_filterMap]
  constructor
  · rintro ⟨⟨z, m'⟩, hp, heq⟩
    obtain ⟨rfl, rfl⟩ : z = y ∧ m' = m := by simpa using heq
    exact hp
  · exact fun hp => ⟨(y, m), hp, by simp⟩

lemma numbers_send (L : Links P (Mail P)) (src : P) (out : List (P × Mail P)) (x y : P) :
    numbers (L.send src out x y) = numbers (L x y) ++ if x = src then numbers (sentTo y out) else [] := by
  rw [Links.send]
  split_ifs
  · rw [numbers_append]
    rfl
  · rw [List.append_nil]

lemma sentTo_map {α : Type*} (l : List α) (f : α → Mail P) (y z : P) :
    sentTo z (l.map fun a => (y, f a)) = if y = z then l.map f else [] := by
  rw [sentTo, List.filterMap_map]
  split_ifs with hyz
  · simp [hyz]
  · simp [hyz]

omit [DecidableEq P] in
/-- The numbers of what a server sends again. -/
lemma numbers_resend (n : ℕ) (l : List (Request P)) :
    numbers ((l.filter fun r => (n : ℤ) < r.bankUpdateSeq).map fun r => .msg (.request r)) =
      (l.map fun r => r.bankUpdateSeq.toNat).filter (n < ·) := by
  have hnumber : Mail.number ∘ (fun r : Request P => .msg (.request r)) =
      some ∘ fun r => r.bankUpdateSeq.toNat := rfl
  have hlt : (fun r : Request P => decide ((n : ℤ) < r.bankUpdateSeq)) =
      (fun k => decide (n < k)) ∘ fun r => r.bankUpdateSeq.toNat := by
    funext r
    simp [Int.lt_toNat]
  rw [numbers, List.filterMap_map, List.filter_map, hnumber, hlt, List.filterMap_eq_map]

/-- Messages that are no requests have no number. -/
lemma numbers_sentTo (h : ∀ a ∈ out, a.2.number = none) : numbers (sentTo y out) = [] :=
  List.filterMap_eq_nil_iff.mpr fun m hm => h (y, m) (mem_sentTo.mp hm)

lemma Grows.kill (σ : Network P) (p : P) (link : Links P (Mail P)) :
    Grows σ ({ σ with link := link }.kill p) :=
  ⟨fun _ hz => Topology.dead_kill hz, fun _ => List.prefix_refl _⟩

/-- A step lets logs only grow. -/
lemma Network.StepCase.grows (hcase : Network.StepCase σ l τ) : Grows σ τ := by
  cases hcase with
  | halt others sub => exact Grows.kill _ _ _
  | @serve src dst m s out out' link crashed server alive origin handle sends ends =>
    refine ⟨fun z hz => ?_, fun z => ?_⟩
    · rcases ends with ⟨rfl, -⟩ | rfl
      · exact hz
      · exact Topology.dead_kill hz
    · show σ.log z <+: Function.update σ.log dst _ z
      by_cases hzd : z = dst
      · rw [hzd, Function.update_self]
        exact List.prefix_append _ _
      · rw [Function.update_of_ne hzd]
  | detect => exact ⟨fun _ => id, fun _ => List.prefix_refl _⟩
  | order => exact ⟨fun _ => id, fun _ => List.prefix_refl _⟩

/-- The order of the updates. -/
structure Ordered (d : Deployment P) (σ : Network P) : Prop where
  backed : ∀ x y, ∀ m ∈ σ.link x y, Backed d σ x y m
  logged : ∀ b ∈ d.banks, ∀ p ∈ b.servers, Logged (σ.server p) (σ.log p)
  prefixes : ∀ b ∈ d.banks, ∀ x y, b.servers.Precedes x y → ¬ σ.Dead x → σ.log y <+: σ.log x
  based : ∀ b ∈ d.banks, ∀ x y, b.servers.Precedes x y → ¬ σ.Dead x → ¬ σ.Dead y →
    (σ.log x).length ≤ (σ.log y).length + (σ.server x).sent.length
  gapFree : ∀ b ∈ d.banks, ∀ y ∈ b.servers, ¬ σ.Dead y → ∀ x, GapFree (σ.log y).length (numbers (σ.link x y))
  streams : ∀ b ∈ d.banks, ∀ x ∈ b.servers, ∀ y ∈ (σ.server x).succ, ¬ σ.Dead x → ¬ σ.Dead y →
    (σ.log x).length ≤ reach (σ.log y).length (numbers (σ.link x y))

namespace Ordered

lemma init (d : Deployment P) : Ordered d d.init where
  backed x y := List.forall_mem_nil _
  logged b hb p hp := by
    obtain ⟨l₁, l₂, hsplit⟩ := List.append_of_mem hp
    show Logged (d.initServer p) []
    rw [Deployment.initServer_split hb hsplit]
    exact Logged.init rfl rfl
  prefixes b hb x y hxy hx := List.prefix_refl _
  based b hb x y hxy hx hy := Nat.zero_le _
  gapFree b hb y hy hlive x := trivial
  streams b hb x hx y hy hxlive hylive := Nat.zero_le _

/-- A crash. -/
lemma halt (h : Ordered d σ) {link : Links P (Mail P)} (others : ∀ x y, y ≠ p → link x y = σ.link x y)
    (hsub : ∀ x y m, m ∈ link x y → m ∈ σ.link x y) : Ordered d ({ σ with link := link }.kill p) := by
  have hgrows := Grows.kill σ p link
  have hne (y : P) (hy : ¬ ({ σ with link := link }.kill p).Dead y) : y ≠ p := by
    rintro rfl
    exact hy (show Function.update σ.crashed y true y = true from Function.update_self ..)
  refine ⟨fun x y m hm => hgrows.backed (h.backed x y m (hsub x y m hm)), h.logged, ?_, ?_, ?_, ?_⟩
  · exact fun b hb x y hxy hx => h.prefixes b hb x y hxy (hgrows.live hx)
  · exact fun b hb x y hxy hx hy => h.based b hb x y hxy (hgrows.live hx) (hgrows.live hy)
  · intro b hb y hy hlive x
    show GapFree (σ.log y).length (numbers (link x y))
    rw [others x y (hne y hlive)]
    exact h.gapFree b hb y hy (hgrows.live hlive) x
  · intro b hb x hx y hy hxlive hylive
    show (σ.log x).length ≤ reach (σ.log y).length (numbers (link x y))
    rw [others x y (hne y hylive)]
    exact h.streams b hb x hx y hy (hgrows.live hxlive) (hgrows.live hylive)

/-- What the master sends. -/
lemma notify (htop : Topology d σ) (h : Ordered d σ) {link : Links P (Mail P)} {master : Master P}
    {out : List (P × Notice P)} (others : ∀ x y, y ≠ σ.masterProc → link x y = σ.link x y)
    (hsub : ∀ x y m, m ∈ link x y → m ∈ σ.link x y)
    (hout : ∀ a ∈ out, Backed d σ σ.masterProc a.1 (.notice a.2)) :
    Ordered d { σ with
      master := master
      link := link.send σ.masterProc (out.map fun p => (p.1, .notice p.2)) } := by
  have hnumbers (x y : P) (hy : y ≠ σ.masterProc) :
      numbers (link.send σ.masterProc (out.map fun p => (p.1, Mail.notice p.2)) x y) = numbers (σ.link x y) := by
    rw [numbers_send, numbers_sentTo, ite_self, List.append_nil, others x y hy]
    exact List.forall_mem_map.mpr fun _ _ => rfl
  refine ⟨fun x y m hm => ?_, h.logged, h.prefixes, h.based, ?_, ?_⟩
  · rcases (Links.mem_send _ _ _).mp hm with hm | ⟨rfl, hsent⟩
    · exact h.backed x y m (hsub x y m hm)
    · obtain ⟨a, ha, heq⟩ := List.mem_map.mp hsent
      obtain ⟨rfl, rfl⟩ := Prod.mk.inj heq
      exact hout a ha
  · intro b hb y hy hlive x
    have hne := Deployment.ne_master hb hy
    dsimp only
    rw [hnumbers x y (htop.masterProc ▸ hne)]
    exact h.gapFree b hb y hy hlive x
  · intro b hb x hx y hy hxlive hylive
    have hne := Deployment.ne_master hb ((htop.placed b hb x hx).succ y hy).1.right_mem
    dsimp only
    rw [hnumbers x y (htop.masterProc ▸ hne)]
    exact h.streams b hb x hx y hy hxlive hylive

/-! ### A server's step -/

omit [DecidableEq P] in
/-- An acknowledgement to the server before. -/
lemma backed_ack (hb : b ∈ d.banks) (hplaced : Placed d σ.Dead b dst s) (hgrows : Grows σ τ) {n : ℤ}
    {id : String} (hq : q ∈ s.prev) (hself : n ≤ (τ.log dst).length)
    (hbehind : ∀ z, b.servers.Precedes dst z → ¬ τ.Dead z → n ≤ (τ.log z).length) :
    Backed d τ dst q (.msg (.ack n id)) := by
  intro b' hb' z hz hzlive
  have hlink := hplaced.prev q hq
  obtain rfl := Deployment.bank_unique hb hb' hlink.1.left_mem hz.left_mem
  rcases hlink.behind hz (hgrows.live hzlive) with rfl | hz
  · exact hself
  · exact hbehind z hz hzlive

section

variable (htop : Topology d σ) (h : Ordered d σ) (hb : b ∈ d.banks) (hdst : dst ∈ b.servers)
  (hin : (∃ req, m = .msg (.request req) ∧ req.bankUpdateSeq = -1) ∨ m ∈ σ.link src dst)
include htop h hb hdst

include hin in
/-- An update that is taken up is the next one of every server before. -/
lemma taken (htaken : (σ.server dst).takenUp src m = some r) (hz : b.servers.Precedes z dst) (hzlive : ¬ σ.Dead z) :
    (σ.log z)[(σ.log dst).length]? = some r := by
  have hcount := (h.logged b hb dst hdst).count
  obtain ⟨req, rfl, htype, ⟨hhead, -⟩ | ⟨-, hnext, rfl⟩⟩ := Server.takenUp_eq htaken
  · exact absurd ((htop.placed b hb dst hdst).head hhead z hz) hzlive
  · rcases hin with ⟨req', heq, hnumber⟩ | hmem
    · obtain rfl : req = req' := by simpa using heq
      omega
    · obtain ⟨k, hk, hlogs⟩ := h.backed src dst _ hmem
      obtain rfl : k = (σ.log dst).length := by omega
      exact hlogs b hb z hz hzlive

include hin in
/-- Every server before has what a server logs. -/
lemma prefix_taken (hz : b.servers.Precedes z dst) (hzlive : ¬ σ.Dead z) :
    σ.log dst ++ ((σ.server dst).takenUp src m).toList <+: σ.log z := by
  have hold := h.prefixes b hb z dst hz hzlive
  cases htaken : (σ.server dst).takenUp src m with
  | none => rwa [Option.toList_none, List.append_nil]
  | some r =>
    have hr := h.taken htop hb hdst hin htaken hz hzlive
    obtain ⟨rest, hrest⟩ := hold
    rw [← hrest, List.getElem?_append_right le_rfl, Nat.sub_self] at hr
    obtain ⟨rest, rfl⟩ := List.head?_eq_some_iff.mp (List.head?_eq_getElem?.trans hr)
    exact ⟨rest, by rw [← hrest]; simp⟩

variable (hgrows : Grows σ τ) (hlog : τ.log dst = σ.log dst ++ ((σ.server dst).takenUp src m).toList)
include hgrows hlog

include hin in
/-- What a server sends is true. -/
lemma backed_out (hcase : (σ.server dst).HandleCase src m t out) :
    ∀ a ∈ out, Backed d τ dst a.1 a.2 := by
  have hplaced := htop.placed b hb dst hdst
  have hlogged := h.logged b hb dst hdst
  have hcount := hlogged.count
  have hlength := hgrows.length (z := dst)
  cases hcase with
  | idle none_taken queries =>
    intro a ha
    obtain ⟨rep, heq, htype⟩ := queries a ha
    rw [heq]
    exact Or.inl htype
  | @pass _ r y _ _ _ taken next relay succ =>
    rw [taken, Option.toList_some] at hlog
    refine List.forall_mem_singleton.mpr ⟨(σ.log dst).length, by omega, fun b' hb' z hz hzlive => ?_⟩
    have hlink := hplaced.succ y succ
    obtain rfl := Deployment.bank_unique hb hb' hlink.1.right_mem hz.right_mem
    rcases hlink.before hz (hgrows.live hzlive) with rfl | hz
    · rw [hlog, List.getElem?_append_right le_rfl, Nat.sub_self]
      rfl
    · exact hgrows.getElem? (h.taken htop hb hdst hin taken hz (hgrows.live hzlive))
  | @complete _ r out _ _ _ taken next tail out_eq =>
    rw [taken, Option.toList_some] at hlog
    have hrear := (hplaced.tail tail).1
    intro a ha
    rcases out_eq a ha with ⟨-, q, hq, r', hr', rfl⟩ | ⟨c, rep, rfl, hid, htype, haccount⟩
    · obtain rfl := List.mem_singleton.mp hr'
      refine backed_ack hb hplaced hgrows hq ?_ fun z hz hzlive => ?_
      · rw [hlog, List.length_append, List.length_singleton]
        push_cast
        omega
      · exact absurd (hrear z hz) (hgrows.live hzlive)
    · refine Or.inr ⟨b, hb, hdst, r.body, hid.symm, htype.symm, haccount.symm, fun z hz hzlive => ?_⟩
      by_cases hzd : z = dst
      · rw [hzd, hlog]
        exact List.mem_append_right _ (List.mem_singleton_self _)
      · rcases List.precedes_total hz hdst hzd with hz | hz
        · have hr := h.taken htop hb hdst hin taken hz (hgrows.live hzlive)
          exact (hgrows.log z).subset (List.mem_of_getElem? hr)
        · exact absurd (hrear z hz) (hgrows.live hzlive)
  | @acked n id moved sent out _ split upTo out_eq =>
    intro a ha
    obtain ⟨-, q, hq, r, hr, rfl⟩ := out_eq a ha
    have hback := h.backed src dst _ (hin.resolve_left (by simp))
    have hle := hlogged.le_of_mem_sent (r := r) (split ▸ List.mem_append_left _ hr)
    refine backed_ack hb hplaced hgrows hq (by omega) fun z hz hzlive => ?_
    have hz := hback b hb z hz (hgrows.live hzlive)
    have hupTo := upTo r hr
    have hlength := hgrows.length (z := z)
    omega
  | head => exact List.forall_mem_nil _
  | tail out_eq =>
    intro a ha
    obtain ⟨-, q, hq, r, hr, rfl⟩ := out_eq a ha
    obtain ⟨b', hb', hmem, hrear⟩ := htop.addressed src dst _ (hin.resolve_left (by simp))
    obtain rfl := Deployment.bank_unique hb hb' hdst hmem
    have hle := hlogged.le_of_mem_sent hr
    refine backed_ack hb hplaced hgrows hq (by omega) fun z hz hzlive => ?_
    exact absurd (hrear z hz) (hgrows.live hzlive)
  | prev =>
    refine List.forall_mem_singleton.mpr ?_
    show (σ.server dst).bankUpdateSeq.toNat ≤ (τ.log dst).length
    omega
  | @succ y n =>
    intro a ha
    obtain ⟨r, hr, rfl⟩ := List.mem_map.mp ha
    obtain ⟨base, hbase, hsent⟩ := hlogged.exists_base
    obtain ⟨i, hi⟩ := List.mem_iff_getElem?.mp (List.mem_filter.mp hr).1
    obtain ⟨hr, hnumber⟩ := hsent i r hi
    refine ⟨base + i, by push_cast; exact hnumber, fun b' hb' z hz hzlive => ?_⟩
    obtain ⟨b'', hb'', hlink⟩ := htop.addressed src dst _ (hin.resolve_left (by simp))
    obtain rfl := Deployment.bank_unique hb hb'' hdst hlink.1.left_mem
    obtain rfl := Deployment.bank_unique hb hb' hlink.1.right_mem hz.right_mem
    rcases hlink.before hz (hgrows.live hzlive) with rfl | hz
    · exact hgrows.getElem? hr
    · obtain ⟨rest, hrest⟩ := (h.prefixes b hb z dst hz (hgrows.live hzlive)).trans (hgrows.log z)
      rw [← hrest, List.getElem?_append_left (List.getElem?_eq_some_iff.mp hr).1, hr]

omit [DecidableEq P] hgrows in
/-- A server has got to the number of the request that it has handled. -/
lemma number_le {n : ℕ} (hmem : m ∈ σ.link src dst) (hm : m.number = some n)
    (hn : n ≤ (σ.log dst).length + 1) : n ≤ (τ.log dst).length := by
  have hcount := (h.logged b hb dst hdst).count
  unfold Mail.number at hm
  split at hm
  · rename_i req
    obtain rfl := Option.some.inj hm
    obtain ⟨htype, -, -⟩ := htop.addressed src dst _ hmem
    obtain ⟨k, hk, -⟩ := h.backed src dst _ hmem
    rw [hlog, List.length_append, Server.takenUp, if_neg htype]
    split_ifs with hhead hnext
    · rw [Option.toList_some, List.length_singleton]
      omega
    · rw [Option.toList_some, List.length_singleton]
      omega
    · omega
  · cases hm

/-- The links to a server when it has handled a message. -/
lemma received (hlive : ¬ σ.Dead dst) {link : Links P (Mail P)}
    (horigin : link = σ.link ∨ (∃ rest, σ.link src dst = m :: rest) ∧ link = σ.link.recv src dst) (x : P) :
    GapFree (τ.log dst).length (numbers (link x dst)) ∧
    reach (σ.log dst).length (numbers (σ.link x dst)) ≤ reach (τ.log dst).length (numbers (link x dst)) := by
  have hgap := h.gapFree b hb dst hdst hlive x
  have hlength := hgrows.length (z := dst)
  rcases horigin with rfl | ⟨⟨rest, hfront⟩, rfl⟩
  · exact ⟨hgap.mono hlength, reach_mono hlength⟩
  · by_cases hx : x = src
    · subst hx
      rw [Links.recv_self]
      rw [hfront, numbers_cons] at hgap ⊢
      rw [List.tail_cons]
      cases hm : m.number with
      | none =>
        rw [hm] at hgap
        exact ⟨hgap.mono hlength, reach_mono hlength⟩
      | some n =>
        rw [hm] at hgap
        have hn := h.number_le htop hb hdst hlog (hfront ▸ List.mem_cons_self) hm hgap.1
        exact ⟨hgap.2.mono (max_le hlength hn), reach_mono (max_le hlength hn)⟩
    · rw [Links.recv_of_ne _ _ _ fun heq => hx heq.1]
      exact ⟨hgap.mono hlength, reach_mono hlength⟩

include hin in
/-- The requests that a server sends bring its successor on without a gap. -/
lemma streams_out (hcase : (σ.server dst).HandleCase src m t out) (hlive : ¬ σ.Dead dst) (hy : ¬ τ.Dead y)
    {k : ℕ} (hcount : (σ.log y).length ≤ k) (hstream : y ∈ (σ.server dst).succ → (σ.log dst).length ≤ k) :
    GapFree k (numbers (sentTo y out)) ∧
    (y ∈ t.succ → (τ.log dst).length ≤ reach k (numbers (sentTo y out))) := by
  have hplaced := htop.placed b hb dst hdst
  have hlogged := h.logged b hb dst hdst
  have hnone (hout : ∀ a ∈ out, a.2.number = none) (hsame : t.succ = (σ.server dst).succ)
      (hlog : τ.log dst = σ.log dst) : GapFree k (numbers (sentTo y out)) ∧
      (y ∈ t.succ → (τ.log dst).length ≤ reach k (numbers (sentTo y out))) := by
    rw [numbers_sentTo hout, hlog, hsame]
    exact ⟨trivial, hstream⟩
  have hacks {reqs : List (Request P)} (a : P × Mail P) (ha : (σ.server dst).Acks reqs a) :
      a.2.number = none := by
    obtain ⟨-, q, -, r, -, rfl⟩ := ha
    rfl
  cases hcase with
  | idle none_taken queries =>
    rw [none_taken, Option.toList_none, List.append_nil] at hlog
    refine hnone (fun a ha => ?_) rfl hlog
    obtain ⟨rep, heq, -⟩ := queries a ha
    rw [heq]
    rfl
  | @pass _ r y' _ _ _ taken next relay succ =>
    rw [taken, Option.toList_some] at hlog
    have hcounted := hlogged.count
    have hout := sentTo_map [r] (fun r => Mail.msg (.request r)) y' y
    rw [List.map_singleton] at hout
    rw [hout, hlog, List.length_append, List.length_singleton]
    split_ifs with hyy
    · have hk := hstream (hyy ▸ succ)
      have hnumber : r.bankUpdateSeq.toNat = (σ.log dst).length + 1 := by omega
      rw [List.map_singleton, numbers_cons, Mail.number, hnumber]
      exact ⟨⟨by omega, trivial⟩, fun _ => le_max_right _ _⟩
    · exact ⟨trivial, fun hmem => absurd (Option.some.inj (succ.symm.trans hmem)) hyy⟩
  | @complete _ r out _ _ _ taken next tail out_eq =>
    have hnumber (a : P × Mail P) (ha : a ∈ out) : a.2.number = none := by
      rcases out_eq a ha with ha | ⟨c, rep, rfl, -⟩
      · exact hacks a ha
      · rfl
    rw [numbers_sentTo hnumber]
    refine ⟨trivial, fun hmem => ?_⟩
    exact absurd ((hplaced.tail tail).1 y (hplaced.succ y hmem).1) (hgrows.live hy)
  | acked split upTo out_eq =>
    rw [Server.takenUp_ack, Option.toList_none, List.append_nil] at hlog
    exact hnone (fun a ha => hacks a (out_eq a ha)) rfl hlog
  | head =>
    rw [Server.takenUp_notice, Option.toList_none, List.append_nil] at hlog
    exact hnone (List.forall_mem_nil _) rfl hlog
  | tail out_eq =>
    rw [Server.takenUp_notice, Option.toList_none, List.append_nil] at hlog
    exact hnone (fun a ha => hacks a (out_eq a ha)) rfl hlog
  | prev =>
    rw [Server.takenUp_notice, Option.toList_none, List.append_nil] at hlog
    exact hnone (List.forall_mem_singleton.mpr rfl) rfl hlog
  | @succ y' n =>
    rw [Server.takenUp_notice, Option.toList_none, List.append_nil] at hlog
    have hmem := hin.resolve_left (by simp)
    obtain ⟨base, hbase, hnumbers⟩ := hlogged.numbers_sent
    obtain ⟨b', hb', hlink⟩ := htop.addressed src dst _ hmem
    obtain rfl := Deployment.bank_unique hb hb' hdst hlink.1.left_mem
    rw [sentTo_map, hlog]
    split_ifs with hyy
    · subst hyy
      have hn := (h.backed src dst _ hmem (hgrows.live hy)).trans hcount
      have hbased := h.based b hb dst y' hlink.1 hlive (hgrows.live hy)
      rw [numbers_resend, hnumbers, hbase]
      exact ⟨(gapFree_range' (by omega)).filter hn, fun _ => le_reach_range' (by omega) hn⟩
    · exact ⟨trivial, fun hy' => absurd (Option.some.inj hy') hyy⟩

omit [DecidableEq P] hgrows in
include hin in
/-- What a server no longer keeps to pass on, every server behind it has. -/
lemma based_out (hcase : (σ.server dst).HandleCase src m t out) (hlive : ¬ σ.Dead dst)
    (hdy : b.servers.Precedes dst y) (hy : ¬ σ.Dead y) :
    (τ.log dst).length ≤ (σ.log y).length + t.sent.length := by
  have hplaced := htop.placed b hb dst hdst
  have hlogged := h.logged b hb dst hdst
  have hbased := h.based b hb dst y hdy hlive hy
  rw [hlog, List.length_append]
  cases hcase with
  | idle none_taken queries =>
    rw [none_taken]
    exact hbased
  | pass taken next relay succ =>
    rw [taken, Option.toList_some, List.length_append, List.length_singleton, List.length_singleton]
    omega
  | complete taken next tail out_eq => exact absurd ((hplaced.tail tail).1 y hdy) hy
  | @acked n id moved sent _ _ split upTo out_eq =>
    rw [Server.takenUp_ack, Option.toList_none, List.length_nil]
    have hback := h.backed src dst _ (hin.resolve_left (by simp)) b hb y hdy hy
    obtain ⟨base, hbase, hsent⟩ := hlogged.exists_base
    rw [split, List.length_append] at hbase hbased
    cases hmoved : moved.getLast? with
    | none =>
      rw [List.getLast?_eq_none_iff.mp hmoved, List.length_nil] at hbased
      dsimp only
      omega
    | some r =>
      have hr := upTo r (List.mem_of_getLast? hmoved)
      have hlen := List.length_pos_of_mem (List.mem_of_getLast? hmoved)
      rw [List.getLast?_eq_getElem?] at hmoved
      have hnumber := (hsent (moved.length - 1) r (by
        rw [split, List.getElem?_append_left (by omega), hmoved])).2
      dsimp only
      omega
  | head | prev | succ =>
    rw [Server.takenUp_notice, Option.toList_none, List.length_nil]
    exact hbased
  | tail out_eq =>
    obtain ⟨b', hb', hmem, hrear⟩ := htop.addressed src dst _ (hin.resolve_left (by simp))
    obtain rfl := Deployment.bank_unique hb hb' hdst hmem
    exact absurd (hrear y hdy) hy

include hin in
/-- A server has handled a message. -/
lemma serve (htop' : Topology d τ) (hlogs : ∀ p, p ≠ dst → τ.log p = σ.log p) (hserver : τ.server dst = t)
    (hservers : ∀ p, p ≠ dst → τ.server p = σ.server p) (hlive : ¬ σ.Dead dst)
    (hcase : (σ.server dst).HandleCase src m t out) {link : Links P (Mail P)} {out' : List (P × Mail P)}
    (horigin : link = σ.link ∨ (∃ rest, σ.link src dst = m :: rest) ∧ link = σ.link.recv src dst)
    (hsends : out' <+: out) (hends : ¬ τ.Dead dst → out' = out) (hlink : τ.link = link.send dst out') :
    Ordered d τ := by
  have hplaced := htop.placed b hb dst hdst
  have hlogged := h.logged b hb dst hdst
  have hothers (x y : P) (hy : y ≠ dst) : link x y = σ.link x y := by
    rcases horigin with rfl | ⟨-, rfl⟩
    · rfl
    · exact Links.recv_of_ne _ _ _ fun heq => hy heq.2
  have hsub (x y : P) (m : Mail P) (hm : m ∈ link x y) : m ∈ σ.link x y := by
    rcases horigin with rfl | ⟨-, rfl⟩
    · exact hm
    · exact Links.mem_of_mem_recv _ _ _ hm
  have hreach (b' : BankSetup P) (hb' : b' ∈ d.banks) (y : P) (hy : y ∈ b'.servers) (hylive : ¬ τ.Dead y) (x : P) :
      GapFree (τ.log y).length (numbers (link x y)) ∧
      reach (σ.log y).length (numbers (σ.link x y)) ≤ reach (τ.log y).length (numbers (link x y)) := by
    by_cases hyd : y = dst
    · subst hyd
      exact h.received htop hb hdst hgrows hlog hlive horigin x
    · rw [hlogs y hyd, hothers x y hyd]
      exact ⟨h.gapFree b' hb' y hy (hgrows.live hylive) x, le_rfl⟩
  refine ⟨?_, ?_, ?_, ?_, ?_, ?_⟩
  · intro x y m' hm'
    rw [hlink] at hm'
    rcases (Links.mem_send _ _ _).mp hm' with hm' | ⟨rfl, hsent⟩
    · exact hgrows.backed (h.backed x y m' (hsub x y m' hm'))
    · exact h.backed_out htop hb hdst hin hgrows hlog hcase _ (hsends.subset hsent)
  · intro b' hb' p hp
    by_cases hpd : p = dst
    · subst hpd
      rw [hserver, hlog]
      exact hlogged.handle hcase fun htail => (hplaced.tail htail).2
    · rw [hservers p hpd, hlogs p hpd]
      exact h.logged b' hb' p hp
  · intro b' hb' x y hxy hx
    by_cases hyd : y = dst
    · subst hyd
      obtain rfl := Deployment.bank_unique hb hb' hdst hxy.right_mem
      rw [hlog]
      exact (h.prefix_taken htop hb hdst hin hxy (hgrows.live hx)).trans (hgrows.log x)
    · rw [hlogs y hyd]
      exact (h.prefixes b' hb' x y hxy (hgrows.live hx)).trans (hgrows.log x)
  · intro b' hb' x y hxy hx hy
    have hlength := hgrows.length (z := y)
    by_cases hxd : x = dst
    · subst hxd
      obtain rfl := Deployment.bank_unique hb hb' hdst hxy.left_mem
      have hbased := h.based_out htop hb hdst hin hlog hcase hlive hxy (hgrows.live hy)
      rw [hserver]
      omega
    · have hbased := h.based b' hb' x y hxy (hgrows.live hx) (hgrows.live hy)
      rw [hlogs x hxd, hservers x hxd]
      omega
  · intro b' hb' y hy hylive x
    obtain ⟨hgap, hle⟩ := hreach b' hb' y hy hylive x
    rw [hlink, numbers_send, gapFree_append]
    refine ⟨hgap, ?_⟩
    split_ifs with hxd
    · subst hxd
      have hstream (hmem : y ∈ (σ.server x).succ) :
          (σ.log x).length ≤ reach (τ.log y).length (numbers (link x y)) :=
        (h.streams b hb x hdst y hmem hlive (hgrows.live hylive)).trans hle
      have hout := (h.streams_out htop hb hdst hin hgrows hlog hcase hlive hylive
        ((hgrows.length (z := y)).trans le_reach) hstream).1
      exact hout.of_prefix ((hsends.filterMap _).filterMap _)
    · trivial
  · intro b' hb' x hx y hy hxlive hylive
    have hxy := ((htop'.placed b' hb' x hx).succ y hy).1
    obtain ⟨-, hle⟩ := hreach b' hb' y hxy.right_mem hylive x
    rw [hlink, numbers_send, reach_append]
    by_cases hxd : x = dst
    · subst hxd
      obtain rfl := Deployment.bank_unique hb hb' hdst hx
      have hstream (hmem : y ∈ (σ.server x).succ) :
          (σ.log x).length ≤ reach (τ.log y).length (numbers (link x y)) :=
        (h.streams b hb x hx y hmem hlive (hgrows.live hylive)).trans hle
      rw [if_pos rfl, hends hxlive]
      rw [hserver] at hy
      exact (h.streams_out htop hb hx hin hgrows hlog hcase hlive hylive
        ((hgrows.length (z := y)).trans le_reach) hstream).2 hy
    · rw [if_neg hxd, hlogs x hxd]
      rw [hservers x hxd] at hy
      exact (h.streams b' hb' x hx y hy (hgrows.live hxlive) (hgrows.live hylive)).trans hle

end

theorem step (htop : Topology d σ) (h : Ordered d σ) (hcase : Network.StepCase σ l τ) : Ordered d τ := by
  have htop' := htop.step hcase
  have hgrows := hcase.grows
  cases hcase with
  | halt others sub => exact h.halt others sub
  | @serve src dst m s out out' link crashed server alive origin handle sends ends =>
    have hlive : ¬ σ.Dead dst := by simp [Network.Dead, alive]
    obtain ⟨b, hb, hdst⟩ := htop.members dst hlive (htop.masterProc ▸ server)
    have hcase := Server.handle_case (htop.placed b hb dst hdst).noExtension handle
    have hin : (∃ req, m = .msg (.request req) ∧ req.bankUpdateSeq = -1) ∨ m ∈ σ.link src dst := by
      rcases origin with ⟨hclient, -⟩ | ⟨⟨rest, hfront⟩, -⟩
      · exact Or.inl hclient.request
      · exact Or.inr (hfront ▸ List.mem_cons_self)
    refine h.serve htop hb hdst hin hgrows (Function.update_self ..) htop'
      (fun p hp => Function.update_of_ne hp ..) (Function.update_self ..)
      (fun p hp => Function.update_of_ne hp ..) hlive hcase (origin.imp_left And.right) sends (fun hend => ?_) rfl
    rcases ends with ⟨-, rfl⟩ | rfl
    · rfl
    · exact absurd (show Function.update σ.crashed dst true dst = true from Function.update_self ..) hend
  | @detect bankId node master out dead notify =>
    cases hlookup : σ.master.bankChains.lookup bankId with
    | none => simp [Master.notifyCrash, hlookup] at notify
    | some chain =>
      obtain ⟨b, hb, rfl, hrec⟩ := htop.record bankId chain hlookup
      obtain ⟨chain', -, rfl, hcase⟩ := hrec.notifyCrash_cases (Deployment.servers_nodup hb) dead hlookup notify
      refine h.notify htop (fun _ _ _ => rfl) (fun _ _ _ => id) ?_
      cases hcase with
      | head servers tail mem front =>
        refine List.forall_mem_cons.mpr ⟨trivial, List.forall_mem_append.mpr ⟨?_, ?_⟩⟩
        all_goals exact List.forall_mem_map.mpr fun _ _ => trivial
      | tail servers head mem rear =>
        exact List.forall_mem_cons.mpr ⟨trivial, List.forall_mem_map.mpr fun _ _ => trivial⟩
      | link servers servers' last first head tail linked => exact List.forall_mem_singleton.mpr trivial
  | @order src m rest master out front handle =>
    have hidle (hmaster : some (σ.master, []) = some (master, out)) :
        Ordered d { σ with
          master := master
          link := (σ.link.recv src σ.masterProc).send σ.masterProc (out.map fun p => (p.1, .notice p.2)) } := by
      obtain ⟨rfl, rfl⟩ := Prod.mk.inj (Option.some.inj hmaster)
      exact h.notify htop (fun _ _ hy => Links.recv_of_ne _ _ _ fun heq => hy heq.2)
        (fun _ _ _ => Links.mem_of_mem_recv _ _ _) (List.forall_mem_nil _)
    cases m with
    | ackNewPrevServer bankId sn =>
      obtain ⟨out, hack, heq⟩ := Option.map_eq_some_iff.mp handle
      obtain ⟨rfl, rfl⟩ := Prod.mk.inj heq
      have hback : sn ≤ (σ.log src).length :=
        h.backed src σ.masterProc (.ackNewPrevServer bankId sn) (front ▸ List.mem_cons_self)
      cases hlookup : σ.master.bankChains.lookup bankId with
      | none => simp [Master.ackNewPrevServer, hlookup] at hack
      | some chain =>
        obtain ⟨b, hb, rfl, hrec⟩ := htop.record bankId chain hlookup
        obtain ⟨q, -, rfl⟩ := hrec.ackNewPrevServer_eq (Deployment.servers_nodup hb) hlookup hack
        exact h.notify htop (fun _ _ hy => Links.recv_of_ne _ _ _ fun heq => hy heq.2)
          (fun _ _ _ => Links.mem_of_mem_recv _ _ _) (List.forall_mem_singleton.mpr fun _ => hback)
    | msg msg => exact hidle handle
    | notice notice => exact hidle handle

end Ordered

/-! ### Runs -/

namespace Network

variable {ok : Network P → NetworkLabel P → Prop}

theorem reach_ordered (hrun : Machine.Reach step ok d.init σ) : Ordered d σ :=
  hrun.invariant_of (fun _ h => reach_topology h) (Ordered.init d)
    fun _ _ _ h htop _ _ hs => h.step htop (step_cases hs)

lemma reach_grows (hrun : Machine.Reach step ok σ τ) : Grows σ τ :=
  hrun.rel (fun _ => Grows.refl) (fun _ _ _ => Grows.trans) fun _ _ _ _ hs => (step_cases hs).grows

/-- In every run a server handles what comes next on a link without an exception, and a client's request too
unless it is a query for a server that is no tail. -/
theorem no_exception (hrun : Machine.Reach step (fun _ _ => True) d.init σ) (hp : p ≠ d.master)
    (hlive : ¬ σ.Dead p) :
    (∀ src m rest, σ.link src p = m :: rest → ((σ.server p).handle src m).isSome = true) ∧
    ∀ client req, req.bankUpdateSeq = -1 →
      (((σ.server p).handle client (.msg (.request req))).isSome = true ↔
        (req.type = .query → (σ.server p).isTail = true)) := by
  have htop := reach_topology hrun
  have hord := reach_ordered hrun
  obtain ⟨b, hb, hmem⟩ := htop.members p hlive hp
  have hplaced := htop.placed b hb p hmem
  have hcount := (hord.logged b hb p hmem).count
  constructor
  · intro src m rest hfront
    have hin : m ∈ σ.link src p := hfront ▸ List.mem_cons_self
    by_cases hreq : ∃ req, m = .msg (.request req)
    · obtain ⟨req, rfl⟩ := hreq
      obtain ⟨htype, hclient, -⟩ := htop.addressed src p _ hin
      obtain ⟨k, hk, -⟩ := hord.backed src p _ hin
      have hgap := hord.gapFree b hb p hmem hlive src
      rw [hfront, numbers_cons] at hgap
      have hn : req.bankUpdateSeq.toNat ≤ (σ.log p).length + 1 := hgap.1
      refine Server.handle_request_isSome hplaced.noExtension hplaced.hasPrev hplaced.hasSucc
        (fun hquery => absurd hquery htype) fun _ => Or.inr ?_
      by_cases hold : req.bankUpdateSeq ≤ (σ.server p).bankUpdateSeq
      · exact Or.inl hold
      · exact Or.inr ⟨by omega, hclient⟩
    · exact Server.handle_isSome hplaced.hasPrev fun req heq => hreq ⟨req, heq⟩
  · intro client req hnumber
    constructor
    · intro hsome htype
      by_contra htail
      rw [Server.handle, Server.posted, Option.isSome_map, Server.processReq, if_pos htype, if_neg htail] at hsome
      cases hsome
    · intro hquery
      refine Server.handle_request_isSome hplaced.noExtension hplaced.hasPrev hplaced.hasSucc hquery
        fun _ => Or.inr (Or.inl ?_)
      omega

/-- A bank with the chain of the processes 1 to 3. -/
def sample : Deployment ℕ where
  master := 0
  clients := [100]
  banks := [{ bankId := "BOA", servers := [1, 2, 3], servers_ne_nil := by decide }]
  bankIds_nodup := by decide
  processes_nodup := by decide

/-- A deposit from client 100. -/
def sampleDeposit (reqId : String) (amount : ℚ) : NetworkLabel ℕ :=
  .client 100 1 { reqId := reqId, type := .deposit, bankId := "BOA", accountId := "a", amount := amount } none

/-- Server 2 crashes while the second deposit is on its way to it, and server 1 sends it to server 3. -/
def sampleRepair : List (NetworkLabel ℕ) :=
  [sampleDeposit "BOA.c.1" 5, .deliver 1 2 none, .deliver 2 3 none, sampleDeposit "BOA.c.2" 7, .crash 2,
    .detect "BOA" 2, .deliver 0 3 none, .deliver 3 0 none, .deliver 0 1 none]

/-- The state that this leaves. -/
def sampleState : Network ℕ := Machine.after step (fun _ _ => True) sample.init sampleRepair

lemma reach_sample : Machine.Reach step (fun _ _ => True) sample.init sampleState :=
  Machine.reach_after (by decide +kernel)

theorem no_exception_sample :
    (∀ src m rest, sampleState.link src 3 = m :: rest → ((sampleState.server 3).handle src m).isSome = true) ∧
    ∀ client req, req.bankUpdateSeq = -1 →
      (((sampleState.server 3).handle client (.msg (.request req))).isSome = true ↔
        (req.type = .query → (sampleState.server 3).isTail = true)) :=
  no_exception reach_sample (by decide) (by decide +kernel)

/-- In every run a server numbers its updates from 1 without a gap. A live server before another one has all
that the other has, in the same order; what it has beyond that it still keeps to pass on. -/
theorem updates_ordered (hrun : Machine.Reach step (fun _ _ => True) d.init σ) (hb : b ∈ d.banks) :
    (∀ p ∈ b.servers, (σ.server p).bankUpdateSeq = (σ.log p).length ∧
      ∀ (k : ℕ) r, (σ.log p)[k]? = some r → r.bankUpdateSeq = k + 1) ∧
    ∀ x y, b.servers.Precedes x y → ¬ σ.Dead x → ∃ rest, σ.log x = σ.log y ++ rest ∧
      (¬ σ.Dead y → rest <:+ (σ.server x).sent.map Request.body) := by
  have hord := reach_ordered hrun
  refine ⟨fun p hp => ⟨(hord.logged b hb p hp).count, (hord.logged b hb p hp).numbered⟩, fun x y hxy hx => ?_⟩
  obtain ⟨rest, hrest⟩ := hord.prefixes b hb x y hxy hx
  refine ⟨rest, hrest.symm, fun hy => ?_⟩
  have hsent := (hord.logged b hb x hxy.left_mem).sent
  have hbased := hord.based b hb x y hxy hx hy
  refine List.suffix_of_suffix_length_le ⟨_, hrest⟩ hsent ?_
  rw [← hrest, List.length_append] at hbased
  rw [List.length_map]
  omega

theorem updates_ordered_sample :
    (∀ p ∈ [1, 2, 3], (sampleState.server p).bankUpdateSeq = (sampleState.log p).length ∧
      ∀ (k : ℕ) r, (sampleState.log p)[k]? = some r → r.bankUpdateSeq = k + 1) ∧
    ∀ x y, [1, 2, 3].Precedes x y → ¬ sampleState.Dead x → ∃ rest, sampleState.log x = sampleState.log y ++ rest ∧
      (¬ sampleState.Dead y → rest <:+ (sampleState.server x).sent.map Request.body) :=
  updates_ordered (b := { bankId := "BOA", servers := [1, 2, 3], servers_ne_nil := by decide }) reach_sample
    List.mem_cons_self

/-- A reply to an update that a server has sent answers an update that every live server of the bank has, from
then on. -/
theorem replied_kept (hrun : Machine.Reach step (fun _ _ => True) d.init σ) {x c : P} {rep : Reply}
    (hsent : .msg (.reply rep) ∈ σ.link x c) (hupdate : rep.type ≠ .query)
    (hlater : Machine.Reach step (fun _ _ => True) σ τ) :
    ∃ b ∈ d.banks, x ∈ b.servers ∧ ∃ r : Request P, r.reqId = rep.reqId ∧ r.type = rep.type ∧
      r.accountId = rep.accountId ∧ ∀ z ∈ b.servers, ¬ τ.Dead z → r ∈ τ.log z := by
  obtain ⟨b, hb, hx, hkept⟩ := ((reach_ordered hrun).backed x c _ hsent).resolve_left hupdate
  exact ⟨b, hb, hx, (reach_grows hlater).kept hkept⟩

/-- The reply to the first deposit. -/
def sampleReply : Reply :=
  { reqId := "BOA.c.1", type := .deposit, accountId := "a", balance := 5, outcome := .processed }

/-- The replies among messages. -/
def replies (l : List (Mail P)) : List Reply := l.filterMap fun m => match m with
  | .msg (.reply rep) => some rep
  | _ => none

omit [DecidableEq P] in
lemma mem_of_mem_replies {l : List (Mail P)} {rep : Reply} (h : rep ∈ replies l) : .msg (.reply rep) ∈ l := by
  obtain ⟨m, hm, heq⟩ := List.mem_filterMap.mp h
  split at heq
  · exact Option.some.inj heq ▸ hm
  · cases heq

theorem replied_kept_sample : ∃ b ∈ sample.banks, 3 ∈ b.servers ∧ ∃ r : Request ℕ, r.reqId = sampleReply.reqId ∧
    r.type = sampleReply.type ∧ r.accountId = sampleReply.accountId ∧
    ∀ z ∈ b.servers, ¬ sampleState.Dead z → r ∈ sampleState.log z :=
  replied_kept (x := 3) (c := 100) reach_sample (mem_of_mem_replies (by decide +kernel)) (by decide)
    Machine.Reach.refl

end Network

end ChainReplication.DistAlgo
