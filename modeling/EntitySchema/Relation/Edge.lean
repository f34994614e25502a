import EntitySchema.Field.Basic
import EntitySchema.Value.Copy

/-!
# Relation edges

A relation field is an edge from the model that declares it to the model it names. The key of an edge
tells edges apart; a copy of a field shares no container with it.
-/

set_option autoImplicit false

namespace EntitySchema

namespace Value

def copyDefault (frozen : Bool) : Value → Value
  | .call _ name _ args => .call frozen name frozen (args.map (copy frozen))
  | v => copy frozen v

end Value

namespace Field

/-- The key of the edge that a field of a model makes: model, field, relation name, target, and the
lengths of both key lists. -/
def edgeKey (model : String) (f : Field) : String :=
  model ++ "." ++ f.name ++ "." ++ (f.relationName.filter (!·.isEmpty)).getD "implicit" ++ "."
    ++ f.typeName ++ "." ++ toString f.fromNames.length ++ ":" ++ toString f.toNames.length

def copy (frozen : Bool) (f : Field) : Field :=
  { f with
    relationFrom := f.relationFrom.map (·.withFrozen frozen)
    relationTo := f.relationTo.map (·.withFrozen frozen)
    defaultValue := f.defaultValue.copyDefault frozen
    frozen }

end Field

end EntitySchema
