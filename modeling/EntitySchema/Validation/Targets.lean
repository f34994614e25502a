import EntitySchema.Schema.Basic
import EntitySchema.Validation.Finding

/-!
# Relation targets

A relation points at a known model, and its two key lists have the same length and name fields that
exist: the local list on the model that declares it, the referenced list on the target.
-/

set_option autoImplicit false

namespace EntitySchema

namespace Field

def keyCountFindings (model : String) (f : Field) : List Finding :=
  if !f.fromNames.isEmpty && f.toNames.isEmpty then [.missingToFields model f.name]
  else if !f.toNames.isEmpty && f.fromNames.length != f.toNames.length then
    [.fieldCountMismatch model f.name f.fromNames.length f.toNames.length]
  else []

end Field

namespace Schema

def relationFindings (s : Schema) (m : Model) (f : Field) : List Finding :=
  let target := s.model? f.typeName
  (if target.isNone then [.unknownRelationTarget m.name f.name f.typeName] else [])
    ++ f.keyCountFindings m.name
    ++ ((f.fromNames.filter fun n => (m.field? n).isNone).map fun n =>
      .localFieldNotFound m.name f.name n)
    ++ (match target with
      | some t => (f.toNames.filter fun n => (t.field? n).isNone).map fun n =>
        .referencedFieldNotFound m.name f.name t.name n
      | none => [])

def targetFindings (s : Schema) : List Finding :=
  s.models.items.flatMap fun m =>
    (m.fields.items.filter (·.isRelation)).flatMap (s.relationFindings m)

end Schema

end EntitySchema
