import EntitySchema.Naming.Plural
import EntitySchema.Relation.Reverse
import EntitySchema.Schema.Basic
import EntitySchema.Validation.Finding

/-!
# Name collisions

Distinct names that generated code would spell the same way. Models are compared by lower case, snake
case and route segment, fields of one model by camel case and snake case, and enums share one
namespace of type names with the models. A name that collides is reported with the first name of the
same spelling, and each pair is reported once.
-/

set_option autoImplicit false

namespace EntitySchema

structure NameForm where
  label : String
  apply : String → String

def modelNameForms : List NameForm :=
  [⟨"lower-case", lowerText⟩, ⟨"snake_case", snakeCase⟩, ⟨"route", routeSegment⟩]

def fieldNameForms : List NameForm := [⟨"camelCase", camelCase⟩, ⟨"snake_case", snakeCase⟩]

structure Collision where
  first : String
  second : String
  form : String
  derived : String

namespace Collision

/-- The names with their spellings that come after a different name of the same spelling, each with
the first such name. -/
def ofSpelled (form : String) (spelled : List (String × String)) : List Collision :=
  spelled.filterMap fun p =>
    match spelled.find? (·.2 == p.2) with
    | some q => if q.1 = p.1 then none else some ⟨q.1, p.1, form, p.2⟩
    | none => none

def ofForm (names : List String) (form : NameForm) : List Collision :=
  ofSpelled form.label (names.map fun n => (n, form.apply n))

def distinctPairs (seen : List (String × String)) : List Collision → List Collision
  | [] => []
  | c :: rest =>
    if seen.contains (c.first, c.second) then distinctPairs seen rest
    else c :: distinctPairs ((c.first, c.second) :: seen) rest

def all (names : List String) (forms : List NameForm) : List Collision :=
  distinctPairs [] (forms.flatMap (ofForm names))

end Collision

namespace Schema

def modelCollisionFindings (s : Schema) : List Finding :=
  (Collision.all s.modelNames modelNameForms).map fun c =>
    .modelNameCollision c.first c.second c.form c.derived

def enumCollisionFindings (s : Schema) : List Finding :=
  let lowered := s.models.items.map fun m => (m.nameLower, m.name)
  s.enums.items.filterMap fun e =>
    (findLast? (lowerText e.name) lowered).map fun m => .enumModelNameCollision e.name m

def fieldCollisionFindings (s : Schema) : List Finding :=
  s.models.items.flatMap fun m =>
    (Collision.all m.fieldNames fieldNameForms).map fun c =>
      .fieldNameCollision m.name c.first c.second c.form c.derived

def collisionFindings (s : Schema) : List Finding :=
  s.modelCollisionFindings ++ s.enumCollisionFindings ++ s.fieldCollisionFindings

end Schema

end EntitySchema
