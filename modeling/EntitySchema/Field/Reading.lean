import EntitySchema.Field.Default
import EntitySchema.Log.Distinct
import EntitySchema.Node.Shape
import EntitySchema.Text.Documentation
import EntitySchema.Value.Copy

/-!
# Reading fields

How a field declaration becomes a field. A create payload may omit a field that is nullable, has a
default, is a list, or is a relation whose key lies on the other side. A field is read-only if it is
declared so, if it is an update time, or if it is an id or a timestamp that the database fills in.
Nothing in the result shares a container with the document.
-/

set_option autoImplicit false

namespace EntitySchema

namespace Value

/-- A default as a field keeps it. A mapping has to describe a default function, and what is neither
a scalar nor a container is refused; a refused default counts as none. -/
def keptDefault (frozen : Bool) (owner : String) (raw : Value) : Logged Value :=
  match raw with
  | .map f entries =>
    match callNode? (.map f entries) with
    | some node => pure (.call frozen node.name frozen (node.args.map (copy frozen)))
    | none => do
      Logged.warn (.malformedDefault owner raw)
      return .null
  | .bytes _ => do
    Logged.warn (.unsupportedDefault owner raw)
    return .null
  | .call .. => do
    Logged.warn (.unsupportedDefault owner raw)
    return .null
  | _ => pure (copy frozen raw)

def isNull : Value → Bool
  | .null => true
  | _ => false

end Value

def nonEmpty (s : Option String) : Option String := s.filter (!·.isEmpty)

namespace Field

def ofParts (frozen : Bool) (model : String) (keyFields : List String) (node : FieldNode)
    (kept : Value) : Field :=
  let kind := FieldKind.ofDeclared node.kind
  let isRequired := node.isRequired.getD false
  let isList := node.isList.getD false
  let isId := node.isId.getD false
  let isUpdatedAt := node.isUpdatedAt.getD false
  let isNullable := node.isNullable.getD (!isRequired)
  let hasDefaultValue := node.hasDefaultValue.getD (!kept.isNull)
  let hasDbDefault := hasDefaultValue && kept.isDatabaseDefault
  let isRelation := kind == .object
  let isImplicit := isRelation && (node.relationFrom.getD []).isEmpty
  { name := node.name
    typeName := node.typeName
    kind
    isId
    isList
    isRequired
    isUnique := node.isUnique.getD false
    isNullable
    isOptional := isNullable || hasDefaultValue || isList || isImplicit
    isReadOnly := node.isReadOnly.getD false || isUpdatedAt
      || ((isId || timestampFields.contains node.name) && hasDbDefault)
    isUpdatedAt
    hasDefaultValue
    hasDbDefault
    defaultValue := kept
    isPartOfCompositePrimaryKey := keyFields.contains node.name
    isSelfRelation := isRelation && node.typeName == model
    relationName := nonEmpty node.relationName
    relationFrom := node.relationFrom.map (⟨frozen, ·⟩)
    relationTo := node.relationTo.map (⟨frozen, ·⟩)
    documentation := sanitizeDocumentation node.documentation
    frozen }

def ofNode (frozen : Bool) (model : String) (keyFields : List String) (node : FieldNode) :
    Logged Field := do
  let owner := model ++ "." ++ node.name
  if FieldKind.ofDeclared node.kind == .unsupported then
    Logged.warn (.unsupportedKind owner node.kind)
  let kept ← node.defaultValue.keptDefault frozen owner
  return ofParts frozen model keyFields node kept

def reader (frozen : Bool) (model : String) (keyFields : List String) :
    NodeReader FieldNode Field where
  shape? := Value.fieldNode?
  nameOf := FieldNode.name
  read := ofNode frozen model keyFields
  invalid := .invalidField model
  duplicate := .duplicateField model

def readAll (frozen : Bool) (model : String) (keyFields : List String) (nodes : List Value) :
    Logged (List Field) :=
  (reader frozen model keyFields).readAll nodes

end Field

end EntitySchema
