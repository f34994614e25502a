import EntitySchema.Relation.Reverse
import EntitySchema.Schema.Basic
import EntitySchema.Validation.Finding

/-!
# Keys

Every model needs an id field or a composite key, and the fields that a key lists have to exist.
Several id fields, a field listed twice and a unique constraint over nothing are worth a warning.
-/

set_option autoImplicit false

namespace EntitySchema

namespace Model

def keyListFindings (m : Model) (kind : KeyKind) (names : List String) : List Finding :=
  ((names.filter fun n => (m.field? n).isNone).map fun n => .keyFieldNotFound kind m.name n)
    ++ ((firstByKey id [] names).filter fun n => decide (1 < names.count n)).map fun n =>
      .duplicateKeyField kind m.name n (names.count n)

def uniqueFindings (m : Model) (names : List String) : List Finding :=
  if names.isEmpty then [.emptyUniqueConstraint m.name] else m.keyListFindings .unique names

def idFieldNames (m : Model) : List String := (m.fields.items.filter (·.isId)).map (·.name)

def keyFindings (m : Model) : List Finding :=
  (if m.idFieldNames.isEmpty && !m.hasCompositePrimaryKey then [.missingPrimaryKey m.name] else [])
    ++ (if 1 < m.idFieldNames.length then [.multipleIdFields m.name m.idFieldNames] else [])
    ++ (match m.primaryKey with
      | some key => m.keyListFindings .primary key.fields.items
      | none => [])
    ++ m.uniqueFields.items.flatMap fun group => m.uniqueFindings group.items

end Model

namespace Schema

def keyFindings (s : Schema) : List Finding := s.models.items.flatMap (·.keyFindings)

end Schema

end EntitySchema
