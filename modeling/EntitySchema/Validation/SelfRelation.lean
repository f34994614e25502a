import EntitySchema.Schema.Basic
import EntitySchema.Validation.Finding

/-!
# Self-relations

A relation from a model to itself is worth a note; one that has to be filled before the first row can
exist is an error.
-/

set_option autoImplicit false

namespace EntitySchema

namespace Field

def selfRelationFindings (model : String) (f : Field) : List Finding :=
  if f.isSelfRelation then
    .selfRelation model f.name
      :: (if f.blocksInsertion then [.requiredSelfRelation model f.name] else [])
  else []

end Field

namespace Schema

def selfRelationFindings (s : Schema) : List Finding :=
  s.models.items.flatMap fun m => m.fields.items.flatMap (·.selfRelationFindings m.name)

end Schema

end EntitySchema
