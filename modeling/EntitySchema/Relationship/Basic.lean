import EntitySchema.Schema.Basic

/-!
# Relationships

The cardinality of each relation of a model. With an opposite field on the target both list flags
decide; without one the key does, or the list flag. Junction tables are passed over.
-/

set_option autoImplicit false

namespace EntitySchema

inductive Cardinality where
  | oneToOne
  | oneToMany
  | manyToOne
  | manyToMany
  deriving DecidableEq, Repr

namespace Cardinality

def word : Cardinality → String
  | oneToOne => "one_to_one"
  | oneToMany => "one_to_many"
  | manyToOne => "many_to_one"
  | manyToMany => "many_to_many"

def converse : Cardinality → Cardinality
  | oneToOne => oneToOne
  | oneToMany => manyToOne
  | manyToOne => oneToMany
  | manyToMany => manyToMany

def ofFlags (isList oppositeIsList : Bool) : Cardinality :=
  match isList, oppositeIsList with
  | true, true => manyToMany
  | true, false => oneToMany
  | false, true => manyToOne
  | false, false => oneToOne

theorem ofFlags_swap (a b : Bool) : ofFlags b a = (ofFlags a b).converse := by
  cases a <;> cases b <;> rfl

end Cardinality

structure Relationship where
  model : String
  field : String
  target : String
  cardinality : Cardinality
  backReference : Option String
  shouldAutoInclude : Bool
  frozen : Bool

namespace Relationship

def isBidirectional (r : Relationship) : Bool := r.backReference.isSome

end Relationship

structure ModelAnalysis where
  model : String
  isJunctionTable : Bool
  relationships : Seq Relationship
  skipped : Seq String
  frozen : Bool

namespace Field

/-- Whether a field of `target` is the opposite of `f` on `source`: it points back under the same
relation name, and it is not `f` itself. -/
def isOppositeOf (candidate f : Field) (source target : Model) : Bool :=
  candidate.typeName == source.name
    && !(source.name == target.name && candidate.name == f.name)
    && candidate.relationName == f.relationName

def backReference? (f : Field) (source target : Model) : Option Field :=
  target.relationFields.items.find? (·.isOppositeOf f source target)

end Field

def sortedNames (names : List String) : List String := names.mergeSort fun a b => decide (a ≤ b)

namespace Model

def isSingleKey (m : Model) (names : List String) : Bool :=
  match names with
  | [name] => (m.field? name).any fun f => f.isUnique || f.isId
  | _ => false

/-- Whether names are the fields of a key, in any order: one unique or id field, the composite primary
key, or a unique group. -/
def areUnique (m : Model) (names : List String) : Bool :=
  let wanted := sortedNames names
  m.isSingleKey wanted
    || m.primaryKey.any (fun k => sortedNames k.fields.items == wanted)
    || m.uniqueFields.items.any fun group => sortedNames group.items == wanted

end Model

namespace Cardinality

def ofRelation (f : Field) (source target : Model) (back : Option Field) : Cardinality :=
  match back with
  | some b => ofFlags f.isList b.isList
  | none =>
    if !f.fromNames.isEmpty then
      if source.areUnique f.fromNames then oneToOne else manyToOne
    else if f.isList then
      if target.isJunctionTable then manyToMany else oneToMany
    else oneToOne

end Cardinality

namespace Model

def relationship (frozen : Bool) (m target : Model) (f : Field) : Relationship :=
  let back := f.backReference? m target
  let cardinality := Cardinality.ofRelation f m target back
  { model := m.name, field := f.name, target := target.name, cardinality,
    backReference := back.map (·.name), shouldAutoInclude := cardinality == .manyToOne, frozen }

/-- The relationships of a model. The lists of a junction table are the empty ones a record starts
with. -/
def analyze (frozen : Bool) (s : Schema) (m : Model) : ModelAnalysis :=
  if m.isJunctionTable then
    { model := m.name, isJunctionTable := true, relationships := .empty, skipped := .empty, frozen }
  else
    let relations := m.fields.items.filter (·.isRelation)
    { model := m.name
      isJunctionTable := false
      relationships := ⟨frozen, relations.filterMap fun f =>
        (s.model? f.typeName).map fun t => m.relationship frozen t f⟩
      skipped := ⟨frozen, (relations.filter fun f => (s.model? f.typeName).isNone).map (·.name)⟩
      frozen }

end Model

namespace Schema

def putNamed {α : Type} (name : String) (a : α) : List (String × α) → List (String × α)
  | [] => [(name, a)]
  | (n, b) :: rest => if n = name then (n, a) :: rest else (n, b) :: putNamed name a rest

/-- The analyses of all models in schema order; of models with one name the last is analyzed, in the
place of the first. -/
def analyze (frozen : Bool) (s : Schema) : List ModelAnalysis :=
  (s.models.items.foldl (fun found m => putNamed m.name (m.analyze frozen s) found) []).map (·.2)

end Schema

end EntitySchema
