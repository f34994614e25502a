import EntitySchema.Value.Basic

/-!
# Shapes of document nodes

What each node of a document has to look like, as the content that is read from it. A node is valid
when it has the shape; nothing else of a node is ever looked at. Text members that name something must
not be empty; optional members may be absent or null.
-/

set_option autoImplicit false

namespace EntitySchema

/-- A field declaration. The default is kept as it is; null stands for none. -/
structure FieldNode where
  name : String
  typeName : String
  kind : String
  isRequired : Option Bool
  isList : Option Bool
  isId : Option Bool
  isUnique : Option Bool
  isReadOnly : Option Bool
  isUpdatedAt : Option Bool
  hasDefaultValue : Option Bool
  isNullable : Option Bool
  defaultValue : Value
  relationFrom : Option (List String)
  relationTo : Option (List String)
  relationName : Option String
  documentation : Option String

structure KeyNode where
  name : Option String
  fields : List String

structure ModelNode where
  name : String
  fields : List Value
  primaryKey : Option KeyNode
  uniqueFields : Option (List (List String))
  dbName : Option String
  documentation : Option String

structure EnumNode where
  name : String
  values : List String
  documentation : Option String

structure CallNode where
  name : String
  args : List Value

namespace Value

def optionalBool (v : Value) (key : String) : Option (Option Bool) := optional bool? (v.get key)

def optionalText (v : Value) (key : String) : Option (Option String) := optional text? (v.get key)

def optionalTexts (v : Value) (key : String) : Option (Option (List String)) :=
  optional texts? (v.get key)

def fieldNode? (v : Value) : Option FieldNode := do
  guard v.isMap
  let name ← (v.get "name").nonEmptyText?
  let typeName ← (v.get "type").nonEmptyText?
  let kind ← (v.get "kind").nonEmptyText?
  let isRequired ← v.optionalBool "isRequired"
  let isList ← v.optionalBool "isList"
  let isId ← v.optionalBool "isId"
  let isUnique ← v.optionalBool "isUnique"
  let isReadOnly ← v.optionalBool "isReadOnly"
  let isUpdatedAt ← v.optionalBool "isUpdatedAt"
  let hasDefaultValue ← v.optionalBool "hasDefaultValue"
  let isNullable ← v.optionalBool "isNullable"
  let relationFrom ← v.optionalTexts "relationFromFields"
  let relationTo ← v.optionalTexts "relationToFields"
  let relationName ← v.optionalText "relationName"
  let documentation ← v.optionalText "documentation"
  return { name, typeName, kind, isRequired, isList, isId, isUnique, isReadOnly, isUpdatedAt,
           hasDefaultValue, isNullable, defaultValue := v.get "default", relationFrom, relationTo,
           relationName, documentation }

def keyNode? (v : Value) : Option KeyNode := do
  guard v.isMap
  let name ← v.optionalText "name"
  let fields ← (v.get "fields").texts?
  return { name, fields }

def textGroups? (v : Value) : Option (List (List String)) := v.items?.bind (·.mapM texts?)

def modelNode? (v : Value) : Option ModelNode := do
  guard v.isMap
  let name ← (v.get "name").nonEmptyText?
  let fields ← (v.get "fields").items?
  let primaryKey ← optional keyNode? (v.get "primaryKey")
  let uniqueFields ← optional textGroups? (v.get "uniqueFields")
  let dbName ← v.optionalText "dbName"
  let documentation ← v.optionalText "documentation"
  return { name, fields, primaryKey, uniqueFields, dbName, documentation }

def enumValueName? (v : Value) : Option String := (v.get "name").nonEmptyText?

def enumNode? (v : Value) : Option EnumNode := do
  guard v.isMap
  let name ← (v.get "name").nonEmptyText?
  let values ← (v.get "values").items?.bind (·.mapM enumValueName?)
  let documentation ← v.optionalText "documentation"
  return { name, values, documentation }

/-- The content of a mapping that describes a default function; absent arguments count as none. -/
def callNode? (v : Value) : Option CallNode := do
  guard v.isMap
  let name ← (v.get "name").nonEmptyText?
  let args ← optional items? (v.get "args")
  return { name, args := args.getD [] }

/-- The mapping that holds the sections of a document: the data model inside it if that is a mapping,
else the document itself. -/
def dataModel? (document : Value) : Option Value :=
  if document.isMap then
    let inner := document.get "datamodel"
    some (if inner.isMap then inner else document)
  else none

end Value

end EntitySchema
