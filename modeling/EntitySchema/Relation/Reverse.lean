import EntitySchema.Model.Basic
import EntitySchema.Relation.Edge

/-!
# The reverse index

For every model the relation fields that point at it, from whichever model. An edge is entered once,
however often its model is listed, and an edge to an unknown model is not entered.
-/

set_option autoImplicit false

namespace EntitySchema

/-- The first of the elements with each key, in order; `seen` holds the keys that are taken. -/
def firstByKey {α : Type} (key : α → String) (seen : List String) : List α → List α
  | [] => []
  | a :: rest =>
    if seen.contains (key a) then firstByKey key seen rest
    else a :: firstByKey key (key a :: seen) rest

structure ReverseIndex where
  frozen : Bool
  entries : List (String × Seq Field)

namespace ReverseIndex

def empty : ReverseIndex := ⟨false, []⟩

def find? (index : ReverseIndex) (name : String) : Option (Seq Field) := index.entries.lookup name

def edges (models : List Model) : List (String × Field) :=
  models.flatMap fun m =>
    (m.fields.items.filter fun f => f.isRelation && (models.map (·.name)).contains f.typeName).map
      fun f => (f.edgeKey m.name, f)

def distinctEdges (models : List Model) : List Field :=
  (firstByKey (·.1) [] (edges models)).map (·.2)

def build (frozen : Bool) (models : List Model) : ReverseIndex where
  frozen := frozen
  entries :=
    let found := distinctEdges models
    (firstByKey id [] (models.map (·.name))).map fun name =>
      (name, ⟨frozen, (found.filter (·.typeName == name)).map (Field.copy frozen)⟩)

end ReverseIndex

end EntitySchema
