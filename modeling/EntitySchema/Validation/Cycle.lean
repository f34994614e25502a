import EntitySchema.Relation.Reverse
import EntitySchema.Schema.Basic
import EntitySchema.Validation.Finding

/-!
# Insertion cycles

A field that blocks insertion makes its model wait for another one. Models that wait for each other
in a circle can never be filled, so every circle found is an error. The circles are found by one depth
first search over all models: each model is entered once, each waiting edge is read once, and an edge
back to a model on the current path closes a circle. A circle that was already found, from whichever
model and in either direction, is not reported again.
-/

set_option autoImplicit false

namespace EntitySchema

namespace Schema

def waitsFor (s : Schema) (m : Model) : List String :=
  (m.fields.items.filter fun f =>
    f.blocksInsertion && f.typeName != m.name && (s.model? f.typeName).isSome).map (·.typeName)

def successors (s : Schema) (name : String) : List String :=
  firstByKey id [] ((s.models.items.filter (·.name == name)).flatMap s.waitsFor)

end Schema

namespace Cycle

structure Frame where
  node : String
  unread : List String

/-- State of the search. The innermost frame of the path comes first. -/
structure Search where
  unvisited : List String
  path : List Frame
  /-- Circles found so far, each with its first model again at the end. -/
  cycles : List (List String)

def rotations (ring : List String) : List (List String) :=
  (List.range ring.length).map fun i => ring.drop i ++ ring.take i

def close (ring : List String) : List String := ring ++ ring.take 1

/-- Every way to write a closed circle down, in both directions. -/
def forms (cycle : List String) : List String :=
  let ring := cycle.dropLast
  (rotations ring ++ rotations ring.reverse).map fun r => Finding.arrows (close r)

def pathFrom (node : String) (path : List Frame) : List String :=
  node :: ((path.map (·.node)).takeWhile (· != node)).reverse

namespace Search

def onPath (s : Search) (node : String) : Bool := (s.path.map (·.node)).contains node

def known (s : Search) (cycle : List String) : Bool :=
  (s.cycles.flatMap forms).contains (Finding.arrows cycle)

def enter (next : String → List String) (node : String) (s : Search) : Search :=
  { s with unvisited := s.unvisited.erase node, path := ⟨node, next node⟩ :: s.path }

def report (cycle : List String) (s : Search) : Search :=
  if s.known cycle then s else { s with cycles := s.cycles ++ [cycle] }

/-- One move: begin at the next model, leave a model without unread edges, or read an edge. -/
def step (next : String → List String) (s : Search) : Option Search :=
  match s.path with
  | [] =>
    match s.unvisited with
    | [] => none
    | start :: _ => some (s.enter next start)
  | ⟨_, []⟩ :: below => some { s with path := below }
  | ⟨node, edge :: unread⟩ :: below =>
    let rest : Search := { s with path := ⟨node, unread⟩ :: below }
    if rest.onPath edge then some (rest.report (pathFrom edge rest.path ++ [edge]))
    else if rest.unvisited.contains edge then some (rest.enter next edge)
    else some rest

def pending (s : Search) : Nat := (s.path.map (·.unread.length + 1)).foldr (· + ·) 0

theorem unvisited_report (cycle : List String) (s : Search) :
    (s.report cycle).unvisited = s.unvisited := by
  unfold report; split <;> rfl

theorem path_report (cycle : List String) (s : Search) : (s.report cycle).path = s.path := by
  unfold report; split <;> rfl

/-- Every move enters a model or uses up a pending one. -/
theorem step_decreases {next : String → List String} {s t : Search} (h : s.step next = some t) :
    t.unvisited.length < s.unvisited.length
      ∨ t.unvisited = s.unvisited ∧ t.pending < s.pending := by
  unfold step at h
  split at h
  · split at h
    · cases h
    · next start rest hu =>
      cases h
      left
      simp [enter, hu]
  · next node below hp =>
    cases h
    right
    simp [pending, hp]
  · next node edge unread below hp =>
    simp only at h
    split at h
    · cases h
      right
      refine ⟨unvisited_report _ _, ?_⟩
      simp only [pending, path_report]
      simp [hp]
    · split at h
      · next hm =>
        cases h
        left
        have hm' : edge ∈ s.unvisited := by simpa using hm
        have := List.length_erase_of_mem hm'
        have hpos := List.length_pos_of_mem hm'
        simp only [enter]
        omega
      · cases h
        right
        simp [pending, hp]

def run (next : String → List String) (s : Search) : Search :=
  match h : s.step next with
  | none => s
  | some t =>
    have := step_decreases h
    run next t
termination_by (s.unvisited.length, s.pending)
decreasing_by
  rcases this with h | ⟨h₁, h₂⟩
  · exact Prod.Lex.left _ _ h
  · rw [h₁]; exact Prod.Lex.right _ h₂

def start (nodes : List String) : Search := ⟨firstByKey id [] nodes, [], []⟩

end Search

def find (next : String → List String) (nodes : List String) : List (List String) :=
  ((Search.start nodes).run next).cycles

end Cycle

namespace Schema

def circularFindings (s : Schema) : List Finding :=
  (Cycle.find s.successors s.modelNames).map .circularRelation

end Schema

end EntitySchema
