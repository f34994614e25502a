import EntitySchema.Field.Reading
import EntitySchema.Model.Basic
import EntitySchema.Text.LetterCase

/-!
# Reading models

How a model declaration becomes a model without views. An empty composite key counts as none, and an
empty key or table name likewise.
-/

set_option autoImplicit false

namespace EntitySchema

namespace PrimaryKey

def ofNode? (frozen : Bool) (node : KeyNode) : Option PrimaryKey :=
  if node.fields.isEmpty then none
  else some { name := nonEmpty node.name, fields := ⟨frozen, node.fields⟩, frozen }

end PrimaryKey

namespace Model

def ofParts (frozen : Bool) (node : ModelNode) (key : Option PrimaryKey) (fields : List Field) :
    Model where
  name := node.name
  nameLower := lowerText node.name
  dbName := nonEmpty node.dbName
  documentation := sanitizeDocumentation node.documentation
  fields := ⟨frozen, fields⟩
  primaryKey := key
  uniqueFields := ⟨frozen, (node.uniqueFields.getD []).map (⟨frozen, ·⟩)⟩
  frozen := frozen
  fieldIndex := indexOf fields

def ofNode (frozen : Bool) (node : ModelNode) : Logged Model := do
  let key := node.primaryKey.bind (PrimaryKey.ofNode? frozen)
  let keyFields := (key.map (·.fields.items)).getD []
  let fields ← Field.readAll frozen node.name keyFields node.fields
  return ofParts frozen node key fields

def reader (frozen : Bool) : NodeReader ModelNode Model where
  shape? := Value.modelNode?
  nameOf := ModelNode.name
  read := ofNode frozen
  invalid := .invalidModel
  duplicate := .duplicateModel

def readAll (frozen : Bool) (nodes : List Value) : Logged (List Model) := (reader frozen).readAll nodes

end Model

end EntitySchema
