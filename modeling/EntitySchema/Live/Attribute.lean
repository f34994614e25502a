import EntitySchema.Field.Default
import EntitySchema.Live.Content

/-!
# Reading attributes

What an object answers under a name: an attribute that it holds, or one that is computed from others
at the moment of asking. Each reads no more than it needs, one condition after the other, so an
attribute that was removed is missed only where it decides.
-/

set_option autoImplicit false

namespace EntitySchema.Live

def holds (c : Cell) (name : String) : Edit Bool := do isPresent (← stored c name)

def elementsIn (c : Cell) (name : String) : Edit (List Cell) := do elements (← stored c name)

def wordsIn (c : Cell) (name : String) : Edit String := do return wordsOf (← stored c name)

def isMarked (inner : List (String × Cell)) : Edit Bool :=
  match inner.lookup markName with
  | some c => isPresent c
  | none => return false

def isFrozen (c : Cell) : Edit Bool := do
  match ← objectOf? c with
  | some (_, .record _ _ inner) => isMarked inner
  | _ => throw .noAttribute

def isOfKind (c : Cell) (kind : FieldKind) : Edit Bool := do return isText (← stored c "kind") kind.word

def ownsKey (c : Cell) : Edit Bool := do
  if ← isOfKind c .object then holds c "relation_from_fields" else return false

def isImplicit (c : Cell) : Edit Bool := do
  if ← isOfKind c .object then return !(← holds c "relation_from_fields") else return false

def blocksInsertion (c : Cell) : Edit Bool := do
  if !(← holds c "is_required") then return false
  if ← holds c "is_nullable" then return false
  if ← holds c "is_list" then return false
  ownsKey c

def functionName? (c : Cell) : Edit (Option String) := do
  match ← objectOf? c with
  | some (_, .record .function ..) => some <$> wordsIn c "name"
  | some (_, .map _ entries) =>
    match entryUnder? (.text "name") entries with
    | some (.leaf v) => return v.nonEmptyText?
    | _ => return none
  | _ => return none

def hasClientDefault (c : Cell) : Edit Bool := do
  return (← functionName? (← stored c "default")).any clientFunctions.contains

def openSeq (items : List Cell) : Edit Cell := allocRef (.seq false items)

def hasCompositeKey (c : Cell) : Edit Bool := do
  let key ← stored c "primary_key"
  if isNull key then return false
  return 0 < (← size (← stored key "fields"))

def namesIn (c : Cell) (name : String) : Edit (List Cell) := do
  (← elementsIn c name).mapM (stored · "name")

def totalFields (c : Cell) : Edit Nat := do
  let sizes ← (← elementsIn c "models").mapM fun m => do size (← stored m "fields")
  return sizes.foldr (· + ·) 0

def computedNames : RecordKind → List String
  | .schema =>
    ["is_frozen", "model_map", "enum_map", "reverse_relation_map", "model_names", "total_fields"]
  | .model => ["is_frozen", "field_names", "has_composite_primary_key"]
  | .field =>
    ["is_frozen", "is_relation", "owns_foreign_key", "is_implicit_relation", "blocks_insertion",
      "is_client_managed_default"]
  | .enum => ["is_frozen"]
  | .primaryKey => ["is_frozen"]
  | .function => ["is_frozen"]

def computed (kind : RecordKind) (c : Cell) (name : String) : Edit Cell := do
  match kind, name with
  | _, "is_frozen" => return flag (← isFrozen c)
  | .field, "is_relation" => return flag (← isOfKind c .object)
  | .field, "owns_foreign_key" => return flag (← ownsKey c)
  | .field, "is_implicit_relation" => return flag (← isImplicit c)
  | .field, "blocks_insertion" => return flag (← blocksInsertion c)
  | .field, "is_client_managed_default" => return flag (← hasClientDefault c)
  | .model, "field_names" => openSeq (← namesIn c "fields")
  | .model, "has_composite_primary_key" => return flag (← hasCompositeKey c)
  | .schema, "model_map" => stored c "_model_map"
  | .schema, "enum_map" => stored c "_enum_map"
  | .schema, "reverse_relation_map" => stored c "_reverse_relation_map"
  | .schema, "model_names" => openSeq (← namesIn c "models")
  | .schema, "total_fields" => return .leaf (.int (← totalFields c))
  | _, _ => throw .noAttribute

def getAttribute (c : Cell) (name : String) : Edit Cell := do
  match ← objectOf? c with
  | some (_, .record kind attributes inner) =>
    match attributes.lookup name <|> inner.lookup name with
    | some held => return held
    | none => computed kind c name
  | _ => throw .noAttribute

def ofKind {α : Type} (kind : RecordKind) (c : Cell) (read : Edit α) : Edit α := do
  match ← objectOf? c with
  | some (_, .record k _ _) => if k = kind then read else throw .noAttribute
  | _ => throw .noAttribute

/-- The field of a model under a name, by the lookup that was made when the model was built. -/
def fieldNamed? (model name : Cell) : Edit (Option Cell) :=
  ofKind .model model do lookUp (← stored model "_field_map") name

def modelNamed? (schema name : Cell) : Edit (Option Cell) :=
  ofKind .schema schema do lookUp (← stored schema "_model_map") name

def enumNamed? (schema name : Cell) : Edit (Option Cell) :=
  ofKind .schema schema do lookUp (← stored schema "_enum_map") name

end EntitySchema.Live
