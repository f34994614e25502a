import Mathlib.Data.List.Chain
import Mathlib.Data.List.Nodup
import EntitySchema.Proofs.Cycle.Forms
import EntitySchema.Proofs.Lookup

/-!
# What a search has settled

The search keeps no record of the order in which models were entered and left. The two orders carry
its invariant: the path is part of the order of entering, every circle runs along that order, and of
the edges already read each one either leads to a model that was left before, or to a model further
inside on the path, or closes a circle. Nothing is assumed about the graph.
-/

set_option autoImplicit false

namespace EntitySchema.Cycle

def names (path : List Frame) : List String := path.map (·.node)

/-- A closed circle of edges along the order of entering, which has the latest model first. -/
structure Circle (next : String → List String) (entered ring : List String) : Prop where
  ne_nil : ring ≠ []
  along : ring.reverse.Sublist entered
  chain : (close ring).IsChain fun a b => b ∈ next a

/-- An edge that closes a circle which has been reported, perhaps in another form. -/
def Back (next : String → List String) (entered : List String) (cycles : List (List String))
    (a b : String) : Prop :=
  ∃ ring, Circle next entered ring ∧ [a, b] <:+ close ring ∧
    ∃ c ∈ cycles, Finding.arrows (close ring) ∈ forms c

/-- What is known of the edges of the models on a path, of which `above` are further inside. -/
def Settled (next : String → List String) (nodes left : List String)
    (back : String → String → Prop) : List String → List Frame → Prop
  | _, [] => True
  | above, f :: below =>
    (∀ b ∈ next f.node, b ∈ nodes → b ∈ f.unread ∨ b ∈ above ∨ b ∈ left ∨ back f.node b) ∧
      Settled next nodes left back (f.node :: above) below

/-- The state of a search that has entered and left models in these orders, latest first. -/
structure Trail (next : String → List String) (nodes entered left : List String) (s : Search) :
    Prop where
  nodup : (entered ++ s.unvisited).Nodup
  mem_iff : ∀ n, n ∈ entered ∨ n ∈ s.unvisited ↔ n ∈ nodes
  perm : entered.Perm (names s.path ++ left)
  along : (names s.path).Sublist entered
  chain : (names s.path).IsChain fun b a => b ∈ next a
  unread : ∀ f ∈ s.path, ∀ b ∈ f.unread, b ∈ next f.node
  onPath : Settled next nodes left (Back next entered s.cycles) [] s.path
  behind : ∀ a ∈ left, ∀ b ∈ next a, b ∈ nodes →
    [a, b].Sublist left ∨ Back next entered s.cycles a b
  circles : ∀ c ∈ s.cycles, ∃ ring, c = close ring ∧ Circle next entered ring
  distinct : s.cycles.Pairwise fun c d => Finding.arrows d ∉ forms c

variable {next : String → List String} {nodes entered left : List String} {s t : Search}

theorem Circle.mono {ring : List String} {entered' : List String}
    (h : Circle next entered ring) (he : entered.Sublist entered') : Circle next entered' ring :=
  ⟨h.ne_nil, h.along.trans he, h.chain⟩

theorem Back.mono {cycles cycles' : List (List String)} {entered' : List String} {a b : String}
    (h : Back next entered cycles a b) (he : entered.Sublist entered')
    (hc : ∀ c ∈ cycles, c ∈ cycles') : Back next entered' cycles' a b := by
  obtain ⟨ring, hring, hab, c, hmem, hform⟩ := h
  exact ⟨ring, hring.mono he, hab, c, hc c hmem, hform⟩

theorem settled_mono {back back' : String → String → Prop} {left' : List String}
    (hl : ∀ b ∈ left, b ∈ left') (hb : ∀ a b, back a b → back' a b) {above above' : List String}
    (ha : ∀ b ∈ above, b ∈ above' ∨ b ∈ left') {path : List Frame}
    (h : Settled next nodes left back above path) :
    Settled next nodes left' back' above' path := by
  induction path generalizing above above' with
  | nil => trivial
  | cons f below ih =>
    refine ⟨fun b hbn hbm => ?_, ih (fun b hmem => ?_) h.2⟩
    · rcases h.1 b hbn hbm with hu | hab | hle | hbk
      · exact Or.inl hu
      · exact Or.inr ((ha b hab).elim Or.inl (Or.inr ∘ Or.inl))
      · exact Or.inr (Or.inr (Or.inl (hl b hle)))
      · exact Or.inr (Or.inr (Or.inr (hb _ b hbk)))
    · rcases List.mem_cons.mp hmem with rfl | hab
      · exact Or.inl List.mem_cons_self
      · exact (ha b hab).imp_left (List.mem_cons_of_mem _)

/-- An edge may be taken off the unread ones once it is settled in another way. -/
theorem settled_read {back back' : String → String → Prop} {above above' : List String}
    {node edge : String} {unread : List String} {below : List Frame}
    (hb : ∀ a b, back a b → back' a b) (ha : ∀ b ∈ above, b ∈ above')
    (hedge : edge ∈ nodes → edge ∈ above' ∨ edge ∈ left ∨ back' node edge)
    (h : Settled next nodes left back above (⟨node, edge :: unread⟩ :: below)) :
    Settled next nodes left back' above' (⟨node, unread⟩ :: below) := by
  refine ⟨fun b hbn hbm => ?_, ?_⟩
  · rcases h.1 b hbn hbm with hu | hab | hle | hbk
    · rcases List.mem_cons.mp hu with rfl | hu
      · exact Or.inr (hedge hbm)
      · exact Or.inl hu
    · exact Or.inr (Or.inl (ha b hab))
    · exact Or.inr (Or.inr (Or.inl hle))
    · exact Or.inr (Or.inr (Or.inr (hb _ b hbk)))
  · apply settled_mono (fun _ h => h) hb _ h.2
    intro b hmem
    left
    exact List.mem_cons.mpr ((List.mem_cons.mp hmem).imp_right (ha b))

theorem close_pathFrom (edge : String) (path : List Frame) :
    close (pathFrom edge path) = pathFrom edge path ++ [edge] := rfl

theorem pathFrom_eq {edge : String} {path : List Frame} {inner outer : List String}
    (hp : names path = inner ++ edge :: outer) (hi : edge ∉ inner) :
    pathFrom edge path = edge :: inner.reverse := by
  have hne : ∀ a ∈ inner, (a != edge) = true := by
    intro a ha
    simpa using fun he : a = edge => hi (he ▸ ha)
  rw [pathFrom, show path.map (·.node) = inner ++ edge :: outer from hp,
    List.takeWhile_append_of_pos hne, List.takeWhile_cons_of_neg (by simp), List.append_nil]

/-- An edge from the end of the path back to a model on it closes a circle with that edge. -/
theorem circle_pathFrom {node edge : String} {path : List Frame} {rest : List String}
    (hp : names path = node :: rest) (ha : (names path).Sublist entered)
    (hc : (names path).IsChain fun b a => b ∈ next a) (hm : edge ∈ names path)
    (he : edge ∈ next node) :
    Circle next entered (pathFrom edge path) ∧ [node, edge] <:+ close (pathFrom edge path) := by
  obtain ⟨inner, outer, hio, hi⟩ := List.eq_append_cons_of_mem hm
  have hprefix : inner ++ [edge] <+: names path := by
    rw [hio]
    exact ⟨outer, by simp⟩
  obtain ⟨tail, htail⟩ : ∃ tail, inner ++ [edge] = node :: tail := by
    rw [hp] at hio
    cases inner with
    | nil => exact ⟨[], by simp_all⟩
    | cons a inner => exact ⟨inner ++ [edge], by simp_all⟩
  have hreverse : (close (pathFrom edge path)).reverse = edge :: (inner ++ [edge]) := by
    rw [close_pathFrom, pathFrom_eq hio hi]
    simp
  refine ⟨⟨by simp [pathFrom], ?_, ?_⟩, ?_⟩
  · rw [pathFrom_eq hio hi]
    simpa using hprefix.sublist.trans ha
  · rw [← List.isChain_reverse, hreverse, htail, List.isChain_cons_cons, ← htail]
    exact ⟨he, hc.prefix hprefix⟩
  · rw [← List.reverse_prefix, hreverse, htail]
    exact ⟨tail, rfl⟩

theorem known_iff (cycle : List String) (s : Search) :
    s.known cycle = true ↔ ∃ c ∈ s.cycles, Finding.arrows cycle ∈ forms c := by
  rw [Search.known, List.contains_iff_mem, List.mem_flatMap]

theorem mem_cycles_report {cycle c : List String} :
    c ∈ (s.report cycle).cycles ↔ c ∈ s.cycles ∨ c = cycle ∧ s.known cycle = false := by
  unfold Search.report
  split
  · next h => simp [h]
  · next h => simp [h]

theorem known_report {ring : List String} (h : ring ≠ []) :
    ∃ c ∈ (s.report (close ring)).cycles, Finding.arrows (close ring) ∈ forms c := by
  by_cases hk : s.known (close ring) = true
  · obtain ⟨c, hc, hform⟩ := (known_iff _ s).mp hk
    exact ⟨c, mem_cycles_report.mpr (Or.inl hc), hform⟩
  · exact ⟨close ring, mem_cycles_report.mpr (Or.inr ⟨rfl, by simpa using hk⟩),
      arrows_mem_forms h⟩

theorem report_eq (cycle : List String) (s : Search) :
    s.report cycle = ⟨s.unvisited, s.path, (s.report cycle).cycles⟩ := by
  unfold Search.report
  split <;> rfl

theorem distinct_report {cycle : List String}
    (h : s.cycles.Pairwise fun c d => Finding.arrows d ∉ forms c) :
    (s.report cycle).cycles.Pairwise fun c d => Finding.arrows d ∉ forms c := by
  unfold Search.report
  split
  · exact h
  · next hk =>
    refine List.pairwise_append.mpr ⟨h, List.pairwise_singleton _ _, fun c hc d hd => ?_⟩
    rw [List.mem_singleton.mp hd]
    exact fun hform => hk ((known_iff _ s).mpr ⟨c, hc, hform⟩)

/-- What one move does: begin at a model, leave one whose edges are all read, or read an edge. The edge
closes a circle, leads on to a model that was not entered before, or does neither. -/
inductive Moved (next : String → List String) (s : Search) : Search → Prop
  | begin {node : String} {rest : List String} (hp : s.path = []) (hu : s.unvisited = node :: rest) :
      Moved next s (s.enter next node)
  | leave {node : String} {below : List Frame} (hp : s.path = ⟨node, []⟩ :: below) :
      Moved next s { s with path := below }
  | close {node edge : String} {unread : List String} {below : List Frame}
      (hp : s.path = ⟨node, edge :: unread⟩ :: below) (hon : edge ∈ names s.path) :
      Moved next s (Search.report (pathFrom edge (⟨node, unread⟩ :: below) ++ [edge])
        ⟨s.unvisited, ⟨node, unread⟩ :: below, s.cycles⟩)
  | descend {node edge : String} {unread : List String} {below : List Frame}
      (hp : s.path = ⟨node, edge :: unread⟩ :: below) (hu : edge ∈ s.unvisited) :
      Moved next s (Search.enter next edge ⟨s.unvisited, ⟨node, unread⟩ :: below, s.cycles⟩)
  | skip {node edge : String} {unread : List String} {below : List Frame}
      (hp : s.path = ⟨node, edge :: unread⟩ :: below) (hoff : edge ∉ names s.path)
      (hu : edge ∉ s.unvisited) :
      Moved next s ⟨s.unvisited, ⟨node, unread⟩ :: below, s.cycles⟩

theorem moved_of_step (h : s.step next = some t) : Moved next s t := by
  unfold Search.step at h
  split at h
  · next hp =>
    split at h
    · cases h
    · next hu =>
      cases h
      exact .begin hp hu
  · next hp =>
    cases h
    exact .leave hp
  · next node edge unread below hp =>
    have hnames : names (⟨node, unread⟩ :: below) = names s.path := by simp [names, hp]
    have hon : Search.onPath { s with path := ⟨node, unread⟩ :: below } edge = true ↔
        edge ∈ names s.path := by
      rw [← hnames]
      exact List.contains_iff_mem
    simp only [hon, List.contains_iff_mem] at h
    split at h
    · next hmem =>
      cases h
      exact .close hp hmem
    · next hoff =>
      split at h
      · next hu =>
        cases h
        exact .descend hp hu
      · next hu =>
        cases h
        exact .skip hp hoff hu

/-! The moves of the search, each with what it does to the two orders. -/

theorem Trail.begin (hn : nodes.Nodup) : Trail next nodes [] [] ⟨nodes, [], []⟩ where
  nodup := hn
  mem_iff := by simp
  perm := List.Perm.nil
  along := List.Sublist.slnil
  chain := List.isChain_nil
  unread := by simp
  onPath := trivial
  behind := by simp
  circles := by simp
  distinct := List.Pairwise.nil

/-- Enters a model that is reached from the innermost model of the path, if there is one. -/
theorem Trail.enter (I : Trail next nodes entered left s) {node : String} {path : List Frame}
    (hn : node ∈ s.unvisited) (hp : names path = names s.path)
    (hc : ∀ a ∈ (names path).head?, node ∈ next a)
    (hu : ∀ f ∈ path, ∀ b ∈ f.unread, b ∈ next f.node)
    (hs : Settled next nodes left (Back next (node :: entered) s.cycles) [node] path) :
    Trail next nodes (node :: entered) left (Search.enter next node ⟨s.unvisited, path, s.cycles⟩)
    where
  nodup := by
    have hperm : (node :: entered ++ s.unvisited.erase node).Perm (entered ++ s.unvisited) :=
      List.perm_middle.symm.trans ((List.perm_cons_erase hn).symm.append_left entered)
    exact hperm.nodup_iff.mpr I.nodup
  mem_iff := by
    intro n
    rw [← I.mem_iff n]
    by_cases he : n = node
    · simp [he, hn]
    · simp [Search.enter, he, List.mem_erase_of_ne he]
  perm := by
    change (node :: entered).Perm (node :: names path ++ left)
    rw [hp]
    exact I.perm.cons node
  along := by
    change (node :: names path).Sublist (node :: entered)
    rw [hp]
    exact I.along.cons_cons node
  chain := by
    change (node :: names path).IsChain fun b a => b ∈ next a
    rw [List.isChain_cons, hp]
    exact ⟨hp ▸ hc, I.chain⟩
  unread := by
    intro f hf
    rcases List.mem_cons.mp hf with rfl | hf
    · exact fun b hb => hb
    · exact hu f hf
  onPath := ⟨fun b hb _ => Or.inl hb, hs⟩
  behind := by
    intro a ha b hb hbm
    exact (I.behind a ha b hb hbm).imp_right
      (Back.mono · (List.sublist_cons_self node entered) fun _ h => h)
  circles := by
    intro c hc
    obtain ⟨ring, hring, hcircle⟩ := I.circles c hc
    exact ⟨ring, hring, hcircle.mono (List.sublist_cons_self node entered)⟩
  distinct := I.distinct

theorem Trail.mem_next (I : Trail next nodes entered left s) {node edge : String}
    {unread : List String} {below : List Frame} (hp : s.path = ⟨node, edge :: unread⟩ :: below) :
    edge ∈ next node :=
  I.unread _ (hp ▸ List.mem_cons_self) edge List.mem_cons_self

theorem Trail.unread_tail (I : Trail next nodes entered left s) {node edge : String}
    {unread : List String} {below : List Frame} (hp : s.path = ⟨node, edge :: unread⟩ :: below) :
    ∀ f ∈ ⟨node, unread⟩ :: below, ∀ b ∈ f.unread, b ∈ next f.node := by
  intro f hf b hb
  rcases List.mem_cons.mp hf with rfl | hf
  · exact I.unread ⟨node, edge :: unread⟩ (hp ▸ List.mem_cons_self) b (List.mem_cons_of_mem _ hb)
  · exact I.unread f (hp ▸ List.mem_cons_of_mem _ hf) b hb

/-- Reads an edge that leads to a model that was left, or closes a circle. -/
theorem Trail.read (I : Trail next nodes entered left s) {node edge : String}
    {unread : List String} {below : List Frame} {cycles : List (List String)}
    (hp : s.path = ⟨node, edge :: unread⟩ :: below) (hsub : ∀ c ∈ s.cycles, c ∈ cycles)
    (hc : ∀ c ∈ cycles, ∃ ring, c = close ring ∧ Circle next entered ring)
    (hd : cycles.Pairwise fun c d => Finding.arrows d ∉ forms c)
    (he : edge ∈ nodes → edge ∈ left ∨ Back next entered cycles node edge) :
    Trail next nodes entered left ⟨s.unvisited, ⟨node, unread⟩ :: below, cycles⟩ where
  nodup := I.nodup
  mem_iff := I.mem_iff
  perm := by simpa [names, hp] using I.perm
  along := by simpa [names, hp] using I.along
  chain := by simpa [names, hp] using I.chain
  unread := I.unread_tail hp
  onPath := by
    have hs := hp ▸ I.onPath
    exact settled_read (fun _ _ h => h.mono (List.Sublist.refl _) hsub) (fun _ h => h)
      (fun h => Or.inr (he h)) hs
  behind := by
    intro a ha b hb hbm
    exact (I.behind a ha b hb hbm).imp_right (Back.mono · (List.Sublist.refl _) hsub)
  circles := hc
  distinct := hd

/-- Leaves a model whose edges are all read. -/
theorem Trail.leave (I : Trail next nodes entered left s) {node : String} {below : List Frame}
    (hp : s.path = ⟨node, []⟩ :: below) :
    Trail next nodes entered (node :: left) { s with path := below } where
  nodup := I.nodup
  mem_iff := I.mem_iff
  perm := by
    have hperm := I.perm
    rw [hp] at hperm
    exact hperm.trans List.perm_middle.symm
  along := by
    have hsub := I.along
    rw [hp] at hsub
    exact (List.sublist_cons_self _ _).trans hsub
  chain := by
    have hchain := I.chain
    rw [hp] at hchain
    exact hchain.tail
  unread := fun f hf => I.unread f (hp ▸ List.mem_cons_of_mem _ hf)
  onPath := by
    have hs := I.onPath
    rw [hp] at hs
    exact settled_mono (fun _ h => List.mem_cons_of_mem _ h) (fun _ _ h => h)
      (fun b hb => Or.inr (List.mem_singleton.mp hb ▸ List.mem_cons_self)) hs.2
  behind := by
    intro a ha b hb hbm
    rcases List.mem_cons.mp ha with rfl | ha
    · have hs := I.onPath
      rw [hp] at hs
      rcases hs.1 b hb hbm with hu | hab | hle | hbk
      · simp at hu
      · simp at hab
      · exact Or.inl ((List.singleton_sublist.mpr hle).cons_cons a)
      · exact Or.inr hbk
    · exact (I.behind a ha b hb hbm).imp_left (List.Sublist.cons node)
  circles := I.circles
  distinct := I.distinct

/-- Reads an edge back to the path and reports the circle that it closes. -/
theorem Trail.close (I : Trail next nodes entered left s) {node edge : String}
    {unread : List String} {below : List Frame} (hp : s.path = ⟨node, edge :: unread⟩ :: below)
    (hon : edge ∈ names s.path) :
    Trail next nodes entered left
      (Search.report (pathFrom edge (⟨node, unread⟩ :: below) ++ [edge])
        ⟨s.unvisited, ⟨node, unread⟩ :: below, s.cycles⟩) := by
  have hnames : names (⟨node, unread⟩ :: below) = names s.path := by simp [names, hp]
  have hcons : names (⟨node, unread⟩ :: below) = node :: names below := rfl
  obtain ⟨hcircle, hlast⟩ := circle_pathFrom hcons (hnames ▸ I.along) (hnames ▸ I.chain)
    (hnames ▸ hon) (I.mem_next hp)
  rw [← close_pathFrom, report_eq]
  apply I.read hp
  · exact fun c hc => mem_cycles_report.mpr (Or.inl hc)
  · intro c hc
    rcases mem_cycles_report.mp hc with hc | ⟨hc, -⟩
    · exact I.circles c hc
    · exact ⟨_, hc, hcircle⟩
  · exact distinct_report I.distinct
  · exact fun _ => Or.inr ⟨_, hcircle, hlast, known_report hcircle.ne_nil⟩

/-- Reads an edge to a model that was not entered before. -/
theorem Trail.descend (I : Trail next nodes entered left s) {node edge : String}
    {unread : List String} {below : List Frame} (hp : s.path = ⟨node, edge :: unread⟩ :: below)
    (hu : edge ∈ s.unvisited) :
    Trail next nodes (edge :: entered) left
      (Search.enter next edge ⟨s.unvisited, ⟨node, unread⟩ :: below, s.cycles⟩) := by
  have hnames : names (⟨node, unread⟩ :: below) = names s.path := by simp [names, hp]
  apply I.enter hu hnames
  · simpa [names] using I.mem_next hp
  · exact I.unread_tail hp
  · have hs := I.onPath
    rw [hp] at hs
    exact settled_read (fun _ _ h => h.mono (List.sublist_cons_self _ _) fun _ h => h) (by simp)
      (fun _ => Or.inl List.mem_cons_self) hs

/-- Reads an edge to a model that was left, or to none of the graph. -/
theorem Trail.skip (I : Trail next nodes entered left s) {node edge : String}
    {unread : List String} {below : List Frame} (hp : s.path = ⟨node, edge :: unread⟩ :: below)
    (hoff : edge ∉ names s.path) (hu : edge ∉ s.unvisited) :
    Trail next nodes entered left ⟨s.unvisited, ⟨node, unread⟩ :: below, s.cycles⟩ := by
  refine I.read hp (fun _ h => h) I.circles I.distinct fun hm => ?_
  have hentered : edge ∈ entered := ((I.mem_iff edge).mpr hm).resolve_right hu
  exact Or.inl ((List.mem_append.mp (I.perm.mem_iff.mp hentered)).resolve_left hoff)

/-- One move of the search. -/
theorem Trail.step (I : Trail next nodes entered left s) (h : s.step next = some t) :
    ∃ entered' left', Trail next nodes entered' left' t := by
  cases moved_of_step h with
  | @begin start _ hp hu =>
    have hstart : start ∈ s.unvisited := hu ▸ List.mem_cons_self
    have hpath : s = ⟨s.unvisited, [], s.cycles⟩ := by rw [← hp]
    rw [hpath]
    exact ⟨_, _, I.enter hstart (by rw [hp]) (by simp [names]) (by simp) trivial⟩
  | leave hp => exact ⟨_, _, I.leave hp⟩
  | close hp hon => exact ⟨_, _, I.close hp hon⟩
  | descend hp hu => exact ⟨_, _, I.descend hp hu⟩
  | skip hp hoff hu => exact ⟨_, _, I.skip hp hoff hu⟩

theorem run_of_step_eq_none (h : s.step next = none) : s.run next = s := by
  rw [Search.run]
  split
  · rfl
  · next t ht => rw [h] at ht; cases ht

theorem run_of_step_eq_some (h : s.step next = some t) : s.run next = t.run next := by
  rw [Search.run]
  split
  · next hn => rw [h] at hn; cases hn
  · next t' ht => rw [h] at ht; cases ht; rfl

theorem Trail.run (I : Trail next nodes entered left s) :
    ∃ entered' left', Trail next nodes entered' left' (s.run next) := by
  induction s using Search.run.induct next generalizing entered left with
  | case1 s h =>
    rw [run_of_step_eq_none h]
    exact ⟨_, _, I⟩
  | case2 s t h _ ih =>
    obtain ⟨entered', left', I'⟩ := I.step h
    rw [run_of_step_eq_some h]
    exact ih I'

theorem step_run (next : String → List String) (s : Search) : (s.run next).step next = none := by
  induction s using Search.run.induct next with
  | case1 s h => rw [run_of_step_eq_none h]; exact h
  | case2 s t h _ ih => rw [run_of_step_eq_some h]; exact ih

def move (next : String → List String) (s : Search) : Search := (s.step next).getD s

theorem run_move (next : String → List String) (s : Search) :
    (move next s).run next = s.run next := by
  unfold move
  cases h : s.step next with
  | none => rfl
  | some t => exact (run_of_step_eq_some h).symm

theorem run_iterate_move (next : String → List String) (n : Nat) (s : Search) :
    ((move next)^[n] s).run next = s.run next := by
  induction n generalizing s with
  | zero => rfl
  | succ n ih => rw [Function.iterate_succ_apply, ih, run_move]

/-- A number of moves that brings the search to its end finds all the circles. -/
theorem find_eq_of_iterate_move {n : Nat}
    (h : ((move next)^[n] (Search.start nodes)).step next = none) :
    find next nodes = ((move next)^[n] (Search.start nodes)).cycles := by
  rw [find, ← run_iterate_move next n, run_of_step_eq_none h]

theorem eq_nil_of_step_eq_none (h : s.step next = none) : s.path = [] ∧ s.unvisited = [] := by
  unfold Search.step at h
  split at h
  · next hp =>
    split at h
    · next hu => exact ⟨hp, hu⟩
    · cases h
  · cases h
  · simp only at h
    split at h
    · cases h
    · split at h <;> cases h

def Edge (next : String → List String) (nodes : List String) (a b : String) : Prop :=
  a ∈ nodes ∧ b ∈ nodes ∧ b ∈ next a

/-- What a complete search knows: every model was entered and left, and an edge between models leads
to one that was left before or closes a reported circle. -/
structure Complete (next : String → List String) (nodes entered left : List String)
    (cycles : List (List String)) : Prop where
  entered_nodup : entered.Nodup
  left_nodup : left.Nodup
  mem_entered : ∀ n, n ∈ entered ↔ n ∈ nodes
  mem_left : ∀ n, n ∈ left ↔ n ∈ nodes
  edges : ∀ a b, Edge next nodes a b → [a, b].Sublist left ∨ Back next entered cycles a b
  circles : ∀ c ∈ cycles, ∃ ring, c = close ring ∧ Circle next entered ring
  distinct : cycles.Pairwise fun c d => Finding.arrows d ∉ forms c

theorem exists_complete (next : String → List String) (nodes : List String) :
    ∃ entered left, Complete next nodes entered left (find next nodes) := by
  have hbegin : Trail next (firstByKey id [] nodes) [] [] (Search.start nodes) :=
    Trail.begin (nodup_distinct nodes)
  obtain ⟨entered, left, I⟩ := hbegin.run
  obtain ⟨hpath, hunvisited⟩ := eq_nil_of_step_eq_none (step_run next _)
  have hmem : ∀ n, n ∈ entered ↔ n ∈ nodes := by
    intro n
    rw [← mem_distinct nodes n, ← I.mem_iff n, hunvisited]
    simp
  have hnodup : entered.Nodup := (List.nodup_append.mp I.nodup).1
  have hperm : entered.Perm left := by simpa [hpath, names] using I.perm
  have hleft : ∀ n, n ∈ left ↔ n ∈ nodes := fun n => hperm.mem_iff.symm.trans (hmem n)
  refine ⟨entered, left, hnodup, hperm.nodup_iff.mp hnodup, hmem, hleft, ?_, I.circles, I.distinct⟩
  rintro a b ⟨ha, hb, hab⟩
  exact I.behind a ((hleft a).mpr ha) b hab ((mem_distinct nodes b).mpr hb)

end EntitySchema.Cycle
