import EntitySchema.Live.Attribute
import EntitySchema.Schema.Basic

/-!
# What live objects show

What a caller sees of an object: records with everything they hold and everything that is computed
from it. A record that lacks an attribute cannot be shown, and neither can anything that contains it.
-/

set_option autoImplicit false

namespace EntitySchema.Live

inductive Shown where
  | value (v : Value)
  | seq (frozen : Bool) (items : List Shown)
  | map (frozen : Bool) (entries : List (Value × Shown))
  /-- A field, with what it holds where that need not be plain names or a plain default. -/
  | field (f : Field) (kept fromNames toNames : Shown)
  /-- Any other record: its attributes and what is computed from them, by name. -/
  | record (kind : RecordKind) (frozen : Bool) (members : List (String × Shown))

namespace Shown

def ofText (s : String) : Shown := .value (.text s)

def ofFlag (b : Bool) : Shown := .value (.bool b)

def ofLeaf : Cell → Shown
  | .leaf v => .value v
  | .ref _ => .value .null

def member (name : String) : Shown → Shown
  | .record _ _ members => (members.lookup name).getD (.value .null)
  | _ => .value .null

end Shown

def textIn? (c : Cell) (name : String) : Edit (Option String) := do
  let held ← stored c name
  return if isNull held then none else some (wordsOf held)

def namesIn? (c : Cell) (name : String) : Edit (Option (Seq String)) := do
  let held ← stored c name
  if isNull held then return none
  return some ⟨false, (← elements held).map wordsOf⟩

/-- A default as far as flags and literals depend on it: of a function its name, of a sequence nothing. -/
def outline (c : Cell) : Edit Value := do
  match c with
  | .leaf v => return v
  | .ref _ =>
    match ← functionName? c with
    | some name => return .call false name false []
    | none => return .seq false []

def readField (c : Cell) : Edit Field := do
  return {
    name := ← wordsIn c "name"
    typeName := ← wordsIn c "type"
    kind := FieldKind.ofDeclared (← wordsIn c "kind")
    isId := ← holds c "is_id"
    isList := ← holds c "is_list"
    isRequired := ← holds c "is_required"
    isUnique := ← holds c "is_unique"
    isNullable := ← holds c "is_nullable"
    isOptional := ← holds c "is_optional"
    isReadOnly := ← holds c "is_read_only"
    isUpdatedAt := ← holds c "is_updated_at"
    hasDefaultValue := ← holds c "has_default_value"
    hasDbDefault := ← holds c "has_db_default"
    defaultValue := ← outline (← stored c "default")
    isPartOfCompositePrimaryKey := ← holds c "is_part_of_composite_primary_key"
    isSelfRelation := ← holds c "is_self_relation"
    relationName := ← textIn? c "relation_name"
    relationFrom := ← namesIn? c "relation_from_fields"
    relationTo := ← namesIn? c "relation_to_fields"
    documentation := ← textIn? c "documentation"
    frozen := ← isFrozen c }

def showNames (c : Cell) (name : String) : Edit Shown := do
  let frozen ← match ← objectOf? (← stored c name) with
    | some (_, .seq frozen _) => pure frozen
    | _ => pure false
  return .seq frozen ((← namesIn c name).map Shown.ofLeaf)

def showMembers (look : Cell → Edit Shown) (c : Cell) (names : List String) :
    Edit (List (String × Shown)) :=
  names.mapM fun name => do return (name, ← look (← stored c name))

def viewNames : List String :=
  ["scalar_fields", "relation_fields", "create_fields", "update_fields", "read_fields"]

def sizeIn (c : Cell) (name : String) : Edit Nat := do size (← stored c name)

def modelMembers (look : Cell → Edit Shown) (c : Cell) : Edit (List (String × Shown)) := do
  let plain ← showMembers look c
    ["name", "name_lower", "db_name", "documentation", "fields", "primary_key", "unique_fields",
      "reverse_relations", "has_self_relation", "is_junction_table"]
  let views ← viewNames.mapM fun name => do return (name, ← showNames c name)
  let idField ← stored c "id_field"
  let idName ← if isNull idField then pure idField else stored idField "name"
  let label := Model.labelOf (← wordsIn c "name") (← sizeIn c "fields") (← sizeIn c "relation_fields")
  return plain ++ views ++
    [("id_field", .ofLeaf idName),
      ("has_composite_primary_key", .ofFlag (← hasCompositeKey c)),
      ("field_names", .seq false ((← namesIn c "fields").map Shown.ofLeaf)), ("label", .ofText label)]

def schemaMembers (look : Cell → Edit Shown) (c : Cell) : Edit (List (String × Shown)) := do
  let plain ← showMembers look c ["models", "enums"]
  let total ← totalFields c
  let label := Schema.labelOf (← sizeIn c "models") (← sizeIn c "enums") total
  return plain ++
    [("model_names", .seq false ((← namesIn c "models").map Shown.ofLeaf)),
      ("total_fields", .value (.int total)), ("label", .ofText label)]

def recordMembers (look : Cell → Edit Shown) (c : Cell) : RecordKind → Edit (List (String × Shown))
  | .schema => schemaMembers look c
  | .model => modelMembers look c
  | .enum => do
    let label := EnumType.labelOf (← wordsIn c "name") (← sizeIn c "values")
    return (← showMembers look c ["name", "values", "documentation"]) ++ [("label", .ofText label)]
  | .function => do
    let label := (Value.call false (← wordsIn c "name") false []).readable
    return (← showMembers look c ["name", "args"]) ++ [("label", .ofText label)]
  | .primaryKey => showMembers look c ["name", "fields"]
  | .field => return []

def shownWithin : Nat → Cell → Edit Shown
  | _, .leaf v => return .value v
  | 0, .ref _ => throw .endless
  | depth + 1, .ref id => do
    match ← fetch id with
    | .seq frozen items => return .seq frozen (← items.mapM (shownWithin depth))
    | .map frozen entries =>
      return .map frozen (← entries.mapM fun e => do return (e.1, ← shownWithin depth e.2))
    | .record .field .. =>
      let c := Cell.ref id
      return .field (← readField c) (← shownWithin depth (← stored c "default"))
        (← shownWithin depth (← stored c "relation_from_fields"))
        (← shownWithin depth (← stored c "relation_to_fields"))
    | .record kind .. =>
      let c := Cell.ref id
      return .record kind (← isFrozen c) (← recordMembers (shownWithin depth) c kind)

def shown (c : Cell) : Edit Shown := do shownWithin (← depthLimit) c

end EntitySchema.Live
