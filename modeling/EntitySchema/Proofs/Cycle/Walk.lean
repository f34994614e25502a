import Mathlib.Data.List.Perm.Basic
import Mathlib.Data.Set.Card
import EntitySchema.Proofs.Cycle.Search

/-!
# The length of a search

How long a search takes is known before its first move. What lies ahead of it are the models that
were not entered and the edges that were not read. A move takes from them exactly what it enters and
reads, and nothing comes back when a model is left. So a search from its start to its end enters
every model once and reads every edge once, and as it leaves every model that it enters, its moves on
a path are as many as the models and the edges together. Nothing is assumed about the graph.
-/

set_option autoImplicit false

namespace EntitySchema.Cycle

variable {next : String → List String} {s t u : Search}

def edgesFrom (next : String → List String) (node : String) : List (String × String) :=
  (next node).map fun edge => (node, edge)

def Frame.edges (f : Frame) : List (String × String) := f.unread.map fun edge => (f.node, edge)

namespace Search

def entered? (next : String → List String) (s : Search) : Option String :=
  (s.step next).bind fun t =>
    if s.path.length < t.path.length then t.path.head?.map (·.node) else none

def taken? (s : Search) : Option (String × String) :=
  match s.path with
  | ⟨node, edge :: _⟩ :: _ => some (node, edge)
  | _ => none

def isUnderway (s : Search) : Bool := !s.path.isEmpty

/-- The edges that are not read yet: the unread ones of the path and all those of the models that were
not entered. -/
def ahead (next : String → List String) (s : Search) : List (String × String) :=
  s.path.flatMap Frame.edges ++ s.unvisited.flatMap (edgesFrom next)

end Search

/-- A search from a state to its end, with the states from which it moves. -/
inductive Walk (next : String → List String) : Search → List Search → Search → Prop
  | stop {s : Search} (h : s.step next = none) : Walk next s [] s
  | move {s t u : Search} {states : List Search} (h : s.step next = some t)
      (rest : Walk next t states u) : Walk next s (s :: states) u

/-- From one state to a later one a search enters these models, takes these edges and makes so many
moves on a path. -/
structure Progress (next : String → List String) (s : Search) (entered : List String)
    (taken : List (String × String)) (moves : Nat) (t : Search) : Prop where
  unvisited : s.unvisited.Perm (entered ++ t.unvisited)
  ahead : (s.ahead next).Perm (taken ++ t.ahead next)
  depth : s.path.length + entered.length + taken.length = t.path.length + moves

theorem Progress.refl (s : Search) : Progress next s [] [] 0 s :=
  ⟨List.Perm.refl _, List.Perm.refl _, rfl⟩

theorem Progress.trans {entered entered' : List String} {taken taken' : List (String × String)}
    {moves moves' : Nat} (h : Progress next s entered taken moves t)
    (h' : Progress next t entered' taken' moves' u) :
    Progress next s (entered ++ entered') (taken ++ taken') (moves + moves') u where
  unvisited := by
    rw [List.append_assoc]
    exact h.unvisited.trans (h'.unvisited.append_left entered)
  ahead := by
    rw [List.append_assoc]
    exact h.ahead.trans (h'.ahead.append_left taken)
  depth := by
    have := h.depth
    have := h'.depth
    simp only [List.length_append]
    omega

/-- A model that is entered brings its edges to the path. -/
theorem Progress.enter {node : String} (h : node ∈ s.unvisited) :
    Progress next s [node] [] 0 (s.enter next node) where
  unvisited := List.perm_cons_erase h
  ahead := by
    have hedges : (s.unvisited.flatMap (edgesFrom next)).Perm
        (edgesFrom next node ++ (s.unvisited.erase node).flatMap (edgesFrom next)) :=
      (List.perm_cons_erase h).flatMap_right _
    have hpath : (s.enter next node).path.flatMap Frame.edges =
        edgesFrom next node ++ s.path.flatMap Frame.edges := List.flatMap_cons
    rw [List.nil_append, Search.ahead, Search.ahead, hpath, List.append_assoc]
    exact (hedges.append_left _).trans (List.perm_append_comm_assoc _ _ _)
  depth := rfl

theorem Progress.leave {node : String} {below : List Frame} (hp : s.path = ⟨node, []⟩ :: below) :
    Progress next s [] [] 1 { s with path := below } where
  unvisited := List.Perm.refl _
  ahead := by
    rw [Search.ahead, hp]
    exact List.Perm.refl _
  depth := by rw [hp]; rfl

theorem Progress.read {node edge : String} {unread : List String} {below : List Frame}
    (hp : s.path = ⟨node, edge :: unread⟩ :: below) (cycles : List (List String)) :
    Progress next s [] [(node, edge)] 1 ⟨s.unvisited, ⟨node, unread⟩ :: below, cycles⟩ where
  unvisited := List.Perm.refl _
  ahead := by
    rw [Search.ahead, hp]
    exact List.Perm.refl _
  depth := by rw [hp]; rfl

theorem entered?_of_step (h : s.step next = some t) : s.entered? next =
    if s.path.length < t.path.length then t.path.head?.map (·.node) else none := by
  rw [Search.entered?, h]
  rfl

theorem taken?_of_unread {node edge : String} {unread : List String} {below : List Frame}
    (hp : s.path = ⟨node, edge :: unread⟩ :: below) :
    s.taken? = some (node, edge) ∧ s.isUnderway = true := by
  rw [Search.taken?, Search.isUnderway, hp]
  exact ⟨rfl, rfl⟩

/-- What a move enters and takes is what it takes from what is ahead. -/
theorem progress_of_step (h : s.step next = some t) : Progress next s (s.entered? next).toList
    s.taken?.toList (if s.isUnderway then 1 else 0) t := by
  have hentered := entered?_of_step h
  -- The path grows when the search begins and when it descends, so only these moves enter a model.
  cases moved_of_step h with
  | @begin start rest hp hu =>
    have htaken : s.taken? = none ∧ s.isUnderway = false := by
      rw [Search.taken?, Search.isUnderway, hp]
      exact ⟨rfl, rfl⟩
    rw [hentered, htaken.1, htaken.2, hp]
    exact .enter (hu ▸ List.mem_cons_self)
  | @leave node below hp =>
    have htaken : s.taken? = none ∧ s.isUnderway = true := by
      rw [Search.taken?, Search.isUnderway, hp]
      exact ⟨rfl, rfl⟩
    rw [hentered, htaken.1, htaken.2, if_neg (by simp [hp])]
    exact .leave hp
  | @close node edge unread below hp hon =>
    obtain ⟨htaken, hunderway⟩ := taken?_of_unread hp
    rw [report_eq] at hentered ⊢
    rw [hentered, htaken, hunderway, if_neg (by simp [hp])]
    exact .read hp _
  | @descend node edge unread below hp hu =>
    obtain ⟨htaken, hunderway⟩ := taken?_of_unread hp
    rw [hentered, htaken, hunderway, if_pos (by simp [hp, Search.enter])]
    exact (Progress.read hp s.cycles).trans (.enter hu)
  | @skip node edge unread below hp hoff hu =>
    obtain ⟨htaken, hunderway⟩ := taken?_of_unread hp
    rw [hentered, htaken, hunderway, if_neg (by simp [hp])]
    exact .read hp _

/-! A whole search. -/

/-- Every search comes to its end. -/
theorem exists_walk (next : String → List String) (s : Search) :
    ∃ states, Walk next s states (s.run next) := by
  induction s using Search.run.induct next with
  | case1 s h =>
    rw [run_of_step_eq_none h]
    exact ⟨[], .stop h⟩
  | case2 s t h _ ih =>
    obtain ⟨states, w⟩ := ih
    rw [run_of_step_eq_some h]
    exact ⟨s :: states, .move h w⟩

theorem Walk.eq_run {states : List Search} (w : Walk next s states t) : t = s.run next := by
  induction w with
  | stop h => exact (run_of_step_eq_none h).symm
  | move h _ ih => rw [run_of_step_eq_some h, ih]

theorem Walk.progress {states : List Search} (w : Walk next s states t) :
    Progress next s (states.filterMap (·.entered? next)) (states.filterMap (·.taken?))
      (states.countP (·.isUnderway)) t := by
  induction w with
  | stop h => exact .refl _
  | @move s t u states h _ ih =>
    have hmoves : (s :: states).countP (·.isUnderway) =
        (if s.isUnderway then 1 else 0) + states.countP (·.isUnderway) := by
      rw [List.countP_cons, Nat.add_comm]
    have hcons {α : Type} (f : Search → Option α) :
        (s :: states).filterMap f = (f s).toList ++ states.filterMap f := by
      rw [List.filterMap_cons]
      cases f s <;> rfl
    rw [hmoves, hcons, hcons]
    exact (progress_of_step h).trans ih

/-- At its end a search has entered and read all that was ahead of it, and left every model of its
path. -/
theorem Walk.exhausts {states : List Search} (w : Walk next s states t) :
    s.unvisited.Perm (states.filterMap (·.entered? next)) ∧
      (s.ahead next).Perm (states.filterMap (·.taken?)) ∧
      states.countP (·.isUnderway) =
        s.path.length + s.unvisited.length + (s.ahead next).length := by
  have hend : t.step next = none := by
    rw [w.eq_run]
    exact step_run next s
  obtain ⟨hpath, hunvisited⟩ := eq_nil_of_step_eq_none hend
  have hahead : t.ahead next = [] := by rw [Search.ahead, hpath, hunvisited]; rfl
  obtain ⟨hentered, htaken, hdepth⟩ := w.progress
  rw [hunvisited, List.append_nil] at hentered
  rw [hahead, List.append_nil] at htaken
  rw [hpath, List.length_nil, Nat.zero_add] at hdepth
  exact ⟨hentered, htaken, by rw [hentered.length_eq, htaken.length_eq, hdepth]⟩

structure ListsOnce {α : Type} (l : List α) (p : α → Prop) : Prop where
  nodup : l.Nodup
  mem_iff : ∀ a, a ∈ l ↔ p a

section ListsOnce

variable {α : Type} {l l' : List α} {p : α → Prop}

theorem ListsOnce.perm (h : ListsOnce l p) (hp : l.Perm l') : ListsOnce l' p :=
  ⟨hp.nodup_iff.mp h.nodup, fun a => hp.mem_iff.symm.trans (h.mem_iff a)⟩

theorem ListsOnce.congr {q : α → Prop} (h : ListsOnce l p) (hpq : ∀ a, p a ↔ q a) :
    ListsOnce l q :=
  ⟨h.nodup, fun a => (h.mem_iff a).trans (hpq a)⟩

theorem ListsOnce.ncard_eq (h : ListsOnce l p) : {a | p a}.ncard = l.length := by
  classical
  have hset : {a | p a} = (l.toFinset : Set α) := by
    ext a
    rw [List.coe_toFinset]
    exact (h.mem_iff a).symm
  rw [hset, Set.ncard_coe_finset, List.toFinset_card_of_nodup h.nodup]

theorem ListsOnce.length_eq (h : ListsOnce l p) (h' : ListsOnce l' p) : l.length = l'.length :=
  h.ncard_eq.symm.trans h'.ncard_eq

end ListsOnce

/-- Before the first move all edges of the graph are ahead. -/
theorem listsOnce_ahead_start {nodes : List String} (hn : ∀ a ∈ nodes, (next a).Nodup) :
    ListsOnce ((Search.start nodes).ahead next) fun e => e.1 ∈ nodes ∧ e.2 ∈ next e.1 where
  nodup := by
    refine List.nodup_flatMap.mpr ⟨fun a ha => ?_, (nodup_distinct nodes).imp fun {a b} hab => ?_⟩
    · exact (hn a ((mem_distinct nodes a).mp ha)).map fun _ _ he => (Prod.mk.inj he).2
    · rintro ⟨c, d⟩ hc hd
      simp only [edgesFrom, List.mem_map, Prod.mk.injEq] at hc hd
      obtain ⟨-, -, rfl, -⟩ := hc
      obtain ⟨-, -, rfl, -⟩ := hd
      exact hab rfl
  mem_iff := by
    rintro ⟨a, b⟩
    simp only [Search.ahead, Search.start, List.flatMap_nil, List.nil_append, List.mem_flatMap,
      mem_distinct, edgesFrom, List.mem_map, Prod.mk.injEq]
    constructor
    · rintro ⟨a, ha, b, hb, rfl, rfl⟩
      exact ⟨ha, hb⟩
    · rintro ⟨ha, hb⟩
      exact ⟨a, ha, b, hb, rfl, rfl⟩

/-- A whole search enters each model once and reads each edge once, and makes one move on a path for
each of them. -/
theorem Walk.from_start {nodes : List String} {states : List Search}
    (w : Walk next (Search.start nodes) states t) (hn : ∀ a ∈ nodes, (next a).Nodup) :
    ListsOnce (states.filterMap (·.entered? next)) (· ∈ nodes) ∧
      ListsOnce (states.filterMap (·.taken?)) (fun e => e.1 ∈ nodes ∧ e.2 ∈ next e.1) ∧
      states.countP (·.isUnderway) = (states.filterMap (·.entered? next)).length +
        (states.filterMap (·.taken?)).length := by
  obtain ⟨hentered, htaken, hmoves⟩ := w.exhausts
  have hnodes : ListsOnce (Search.start nodes).unvisited (· ∈ nodes) :=
    ⟨nodup_distinct nodes, mem_distinct nodes⟩
  refine ⟨hnodes.perm hentered, (listsOnce_ahead_start hn).perm htaken, ?_⟩
  rw [hmoves, hentered.length_eq, htaken.length_eq]
  exact congrArg (· + _) (Nat.zero_add _)

end EntitySchema.Cycle
