import ChainReplication.System.Topology

/-!
# The links of a chain

Every server but the last of its chain names a successor and every server but the first names a
predecessor, in its own chain and with crashed servers only between them.
-/

namespace ChainReplication

variable {cfg : Config} {b : BankConfig} {σ σ' : System} {x y z : Address}

namespace Config

lemma exists_next (hb : b ∈ cfg.banks) (hx : x ∈ b.servers) (hlast : b.servers.getLast? ≠ some x) :
    ∃ y ∈ b.servers, BankServerChain.nextOf x b.servers = some y := by
  obtain ⟨l₁, l₂, hl⟩ := List.append_of_mem hx
  have hnodup := servers_nodup hb
  cases l₂ with
  | nil =>
    rw [hl] at hlast
    exact absurd List.getLast?_concat hlast
  | cons y l₂ =>
    rw [hl] at hnodup
    refine ⟨y, by simp [hl], ?_⟩
    rw [hl]
    apply BankServerChain.nextOf_of_split
    intro hmem
    exact (List.nodup_append.mp hnodup).2.2 x hmem x List.mem_cons_self rfl

lemma exists_prev (hb : b ∈ cfg.banks) (hx : x ∈ b.servers) (hfirst : b.servers.head? ≠ some x) :
    ∃ y ∈ b.servers, BankServerChain.prevOf x b.servers = some y := by
  obtain ⟨l₁, l₂, hl⟩ := List.append_of_mem hx
  have hnodup := servers_nodup hb
  rcases List.eq_nil_or_concat l₁ with rfl | ⟨l, y, rfl⟩
  · rw [hl] at hfirst
    exact absurd rfl hfirst
  · rw [hl] at hnodup
    refine ⟨y, by simp [hl], ?_⟩
    rw [hl, List.concat_eq_append, List.append_assoc, List.singleton_append]
    apply BankServerChain.prevOf_of_split
    intro hmem
    rw [List.concat_eq_append] at hnodup
    exact (List.nodup_append.mp hnodup).2.2 x hmem x List.mem_cons_self rfl

end Config

/-- Every server of the bank that needs a neighbour names one. -/
structure NamesLinks (b : BankConfig) (σ : System) : Prop where
  succ : ∀ x ∈ b.servers, b.servers.getLast? ≠ some x → (σ.server x).succServerAddr ≠ .empty
  pre : ∀ x ∈ b.servers, b.servers.head? ≠ some x → (σ.server x).preServerAddr ≠ .empty

lemma Linked.ne_empty (h : Linked cfg σ x y) : x ≠ .empty ∧ y ≠ .empty := by
  obtain ⟨b, hb, hxy, -⟩ := h
  exact ⟨Config.ne_empty hb hxy.left_mem, Config.ne_empty hb hxy.right_mem⟩

namespace NamesLinks

lemma init (hb : b ∈ cfg.banks) : NamesLinks b cfg.init := by
  have hserver (x : Address) : cfg.init.server x = cfg.initServer x := rfl
  constructor
  · intro x hx hlast
    obtain ⟨y, hy, hnext⟩ := Config.exists_next hb hx hlast
    rw [hserver, Config.initServer_of_mem hb hx]
    simp only [hnext, Option.getD_some]
    exact Config.ne_empty hb hy
  · intro x hx hfirst
    obtain ⟨y, hy, hprev⟩ := Config.exists_prev hb hx hfirst
    rw [hserver, Config.initServer_of_mem hb hx]
    simp only [hprev, Option.getD_some]
    exact Config.ne_empty hb hy

lemma step (h : NamesLinks b σ) (ht : Topology cfg σ) {l : Label}
    (hcase : System.StepCase σ l σ') : NamesLinks b σ' := by
  cases hcase with
  | @serve _ y msg L out _ taken serve =>
    have hrole := serve.roleStep ht.toPlain taken
    constructor
    · intro x hx hlast
      by_cases hxy : x = y
      · subst hxy
        rcases hrole.succ with hsame | ⟨r, rfl, hr⟩
        · rw [hsame]
          exact h.succ x hx hlast
        · rcases ht.taken_fits taken with hfits | ⟨_, hreq, -⟩
          · rw [hr]
            exact (Linked.ne_empty hfits).2
          · cases hreq
      · rw [serve.server_of_ne hxy]
        exact h.succ x hx hlast
    · intro x hx hfirst
      by_cases hxy : x = y
      · subst hxy
        rcases hrole.pre with hsame | hpre
        · rw [hsame]
          exact h.pre x hx hfirst
        · rcases ht.taken_fits taken with hfits | ⟨_, hreq, -⟩
          · rw [hpre] at hfits
            exact (Linked.ne_empty hfits).1
          · rw [hpre] at hreq
            cases hreq
      · rw [serve.server_of_ne hxy]
        exact h.pre x hx hfirst
  | crash => exact ⟨h.succ, h.pre⟩
  | relink => exact ⟨h.succ, h.pre⟩
  | ignore => exact ⟨h.succ, h.pre⟩
  | detect => exact ⟨h.succ, h.pre⟩

theorem reach {ok : System → Label → Prop} (hok : ∀ σ l, ok σ l → System.NoJoin σ l)
    (hb : b ∈ cfg.banks) (hrun : Machine.Reach System.step ok cfg.init σ) : NamesLinks b σ :=
  hrun.invariant_of (fun _ hu => Topology.reach hok hu) (NamesLinks.init hb)
    fun _ _ _ h ht _ hl hs => h.step ht (System.step_cases ht.toPlain (hok _ _ hl) hs)

end NamesLinks

lemma Topology.linked_succ (ht : Topology cfg σ) (hlinks : NamesLinks b σ) (hx : x ∈ b.servers)
    (hlast : b.servers.getLast? ≠ some x) : Linked cfg σ x (σ.server x).succServerAddr :=
  (ht.succ x).resolve_left (hlinks.succ x hx hlast)

/-- The successor is the next live server. -/
lemma Linked.eq_of_next (h : Linked cfg σ x y) (hb : b ∈ cfg.banks) (hxz : b.servers.Precedes x z)
    (hz : σ.crashed z = false) (hy : σ.crashed y = false)
    (hnext : ∀ w, b.servers.Precedes x w → b.servers.Precedes w z → σ.crashed w = true) : y = z := by
  obtain ⟨b', hb', hxy, hbetween⟩ := h
  obtain rfl := Config.bank_unique_servers hb hb' hxz.left_mem hxy.left_mem
  by_contra hne
  rcases List.precedes_total hxy.right_mem hxz.right_mem hne with hyz | hzy
  · rw [hnext y hxy hyz] at hy
    cases hy
  · rw [hbetween z hxz hzy] at hz
    cases hz

end ChainReplication
