import Mathlib.Logic.Relation
import EntitySchema.Proofs.Cycle.Search

/-!
# The order of a complete search

Every edge of a complete search either points back in the order of leaving or closes a reported
circle. So the closing edges alone stand between a graph and an order of its models, and among names
without a space each of them is the last edge of a circle exactly as it was reported.
-/

set_option autoImplicit false

namespace EntitySchema.Cycle

theorem idxOf_lt_of_sublist {l : List String} (hn : l.Nodup) {a b : String}
    (h : [a, b].Sublist l) : l.idxOf a < l.idxOf b := by
  induction l with
  | nil => cases h
  | cons x l ih =>
    rw [List.nodup_cons] at hn
    cases h with
    | cons _ h =>
      have ha : x ≠ a := fun he => hn.1 (he ▸ h.subset (by simp))
      have hb : x ≠ b := fun he => hn.1 (he ▸ h.subset (by simp))
      rw [List.idxOf_cons_ne l ha, List.idxOf_cons_ne l hb]
      exact Nat.succ_lt_succ (ih hn.2 h)
    | cons_cons _ h =>
      have hb : a ≠ b := fun he => hn.1 (he ▸ List.singleton_sublist.mp h)
      rw [List.idxOf_cons_self, List.idxOf_cons_ne l hb]
      exact Nat.succ_pos _

/-- Parts of one list without repetitions that have the same elements are equal. -/
theorem eq_of_sublist_of_perm {l xs ys : List String} (hn : l.Nodup) (hx : xs.Sublist l)
    (hy : ys.Sublist l) (hp : xs.Perm ys) : xs = ys := by
  induction l generalizing xs ys with
  | nil => rw [List.sublist_nil.mp hx, List.sublist_nil.mp hy]
  | cons a l ih =>
    rw [List.nodup_cons] at hn
    cases hx with
    | cons _ hx =>
      cases hy with
      | cons _ hy => exact ih hn.2 hx hy hp
      | cons_cons _ hy => exact absurd (hx.subset (hp.mem_iff.mpr List.mem_cons_self)) hn.1
    | cons_cons _ hx =>
      cases hy with
      | cons _ hy => exact absurd (hy.subset (hp.mem_iff.mp List.mem_cons_self)) hn.1
      | cons_cons _ hy => rw [ih hn.2 hx hy hp.cons_inv]

theorem rank_lt_of_transGen {r : String → String → Prop} {rank : String → Nat}
    (h : ∀ a b, r a b → rank b < rank a) {a b : String} (hr : Relation.TransGen r a b) :
    rank b < rank a := by
  induction hr with
  | single hab => exact h _ _ hab
  | tail _ hbc ih => exact (h _ _ hbc).trans ih

theorem transGen_of_isChain {r : String → String → Prop} {a b : String} {rest : List String}
    (h : (a :: (rest ++ [b])).IsChain r) : Relation.TransGen r a b := by
  induction rest generalizing a with
  | nil => exact Relation.TransGen.single (List.isChain_pair.mp h)
  | cons c rest ih =>
    rw [List.cons_append, List.isChain_cons_cons] at h
    exact Relation.TransGen.head h.1 (ih h.2)

variable {next : String → List String} {nodes entered left : List String}
  {cycles : List (List String)}

theorem Circle.nodup {ring : List String} (h : Circle next entered ring) (he : entered.Nodup) :
    ring.Nodup := List.nodup_reverse.mp (h.along.nodup he)

theorem Complete.mem_nodes {ring : List String} (h : Complete next nodes entered left cycles)
    (hr : Circle next entered ring) : ∀ n ∈ ring, n ∈ nodes := by
  intro n hn
  exact (h.mem_entered n).mp (hr.along.subset (List.mem_reverse.mpr hn))

theorem Complete.isChain_edge {ring : List String} (h : Complete next nodes entered left cycles)
    (hr : Circle next entered ring) : (close ring).IsChain (Edge next nodes) := by
  refine hr.chain.imp_of_mem_imp fun a b ha hb hab => ⟨?_, ?_, hab⟩
  · exact h.mem_nodes hr a (mem_close.mp ha)
  · exact h.mem_nodes hr b (mem_close.mp hb)

/-- The circle that an edge closes is reported as it is, if names have no spaces: a circle with the
same models runs along the same order. -/
theorem Complete.exists_closed {a b : String} (h : Complete next nodes entered left cycles)
    (hs : SpaceFree nodes) (hb : Back next entered cycles a b) :
    ∃ c ∈ cycles, [a, b] <:+ c := by
  obtain ⟨ring, hring, hlast, c, hc, hform⟩ := hb
  obtain ⟨ring', rfl, hring'⟩ := h.circles c hc
  have hperm : ring.Perm ring' := by
    apply perm_of_arrows_mem_forms hring.ne_nil hring'.ne_nil _ _ hform
    · exact fun n hn => hs n (h.mem_nodes hring n hn)
    · exact fun n hn => hs n (h.mem_nodes hring' n hn)
  have heq : ring.reverse = ring'.reverse := by
    apply eq_of_sublist_of_perm h.entered_nodup hring.along hring'.along
    exact (ring.reverse_perm.trans hperm).trans ring'.reverse_perm.symm
  exact ⟨_, hc, List.reverse_injective heq ▸ hlast⟩

/-- Without the edges that close a reported circle the graph is acyclic. -/
theorem Complete.acyclic (h : Complete next nodes entered left cycles) (hs : SpaceFree nodes)
    (a : String) :
    ¬ Relation.TransGen (fun a b => Edge next nodes a b ∧ ∀ c ∈ cycles, ¬ [a, b] <:+ c) a a := by
  have hrank : ∀ a b, (Edge next nodes a b ∧ ∀ c ∈ cycles, ¬ [a, b] <:+ c) →
      left.reverse.idxOf b < left.reverse.idxOf a := by
    rintro a b ⟨hab, hopen⟩
    rcases h.edges a b hab with hsub | hback
    · exact idxOf_lt_of_sublist (List.nodup_reverse.mpr h.left_nodup) hsub.reverse
    · obtain ⟨c, hc, hlast⟩ := h.exists_closed hs hback
      exact absurd hlast (hopen c hc)
  exact fun hcycle => lt_irrefl _ (rank_lt_of_transGen hrank hcycle)

/-- Circles that are reported are neither rotations nor reversals of each other. -/
theorem Complete.pairwise_not_rotated (h : Complete next nodes entered left cycles) :
    cycles.Pairwise fun c d => ¬ c.dropLast ~r d.dropLast ∧ ¬ c.dropLast.reverse ~r d.dropLast := by
  refine h.distinct.imp_of_mem fun {c d} hc hd hcd => ?_
  obtain ⟨ring, rfl, hring⟩ := h.circles c hc
  obtain ⟨ring', rfl, hring'⟩ := h.circles d hd
  rw [mem_forms hring.ne_nil] at hcd
  rw [dropLast_close hring.ne_nil, dropLast_close hring'.ne_nil]
  exact ⟨fun hrot => hcd ⟨ring', Or.inl hrot, rfl⟩, fun hrot => hcd ⟨ring', Or.inr hrot, rfl⟩⟩

/-- If no circle is reported, every edge points back in the order of leaving. -/
theorem Complete.sublist_left (h : Complete next nodes entered left []) {a b : String}
    (hab : Edge next nodes a b) : [a, b].Sublist left := by
  rcases h.edges a b hab with hsub | ⟨_, _, _, c, hc, _⟩
  · exact hsub
  · cases hc

/-- A graph whose edges lower a rank has no circle to report. -/
theorem Complete.cycles_eq_nil (h : Complete next nodes entered left cycles) (rank : String → Nat)
    (hr : ∀ a b, Edge next nodes a b → rank b < rank a) : cycles = [] := by
  apply List.eq_nil_iff_forall_not_mem.mpr
  intro c hc
  obtain ⟨ring, rfl, hring⟩ := h.circles c hc
  have hchain := h.isChain_edge hring
  obtain ⟨a, rest, rfl⟩ := List.exists_cons_of_ne_nil hring.ne_nil
  exact lt_irrefl _ (rank_lt_of_transGen hr (transGen_of_isChain hchain))

end EntitySchema.Cycle
