import EntitySchema.Field.Default
import EntitySchema.Relation.Reverse

/-!
# Views of a model

The partitions of a model's fields that generators consume, and the decision whether the model is a
junction table: a model that does little more than link two others.
-/

set_option autoImplicit false

namespace EntitySchema

/-- At least two relations, at most two other fields, and at most four fields in all. -/
def isJunction (fields : List Field) : Bool :=
  let relations := fields.countP (·.isRelation)
  decide (fields.length ≤ 4) && decide (2 ≤ relations) && decide (fields.length - relations ≤ 2)

namespace Field

def isScalar (f : Field) : Bool := f.kind != .object && f.kind != .unsupported

end Field

namespace Model

def withViews (frozen : Bool) (index : ReverseIndex) (m : Model) : Model :=
  let fields := m.fields.items
  let scalars := fields.filter (·.isScalar)
  let writable := scalars.filter (·.isWritable)
  { m with
    fields := ⟨frozen, fields⟩
    uniqueFields := ⟨frozen, m.uniqueFields.items.map (·.withFrozen frozen)⟩
    scalarFields := ⟨frozen, scalars⟩
    relationFields := ⟨frozen, fields.filter (·.isRelation)⟩
    createFields := ⟨frozen, writable⟩
    updateFields := ⟨frozen, writable⟩
    readFields := ⟨frozen, scalars⟩
    reverseRelations := ⟨frozen, ((index.find? m.name).map (·.items)).getD []⟩
    idField := fields.find? (·.isId)
    hasSelfRelation := fields.any (·.isSelfRelation)
    isJunctionTable := isJunction fields
    frozen
    fieldIndex := indexOf fields }

end Model

end EntitySchema
