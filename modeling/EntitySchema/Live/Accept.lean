import EntitySchema.Field.Attributes
import EntitySchema.Live.Attribute
import EntitySchema.Live.Plant

/-!
# What attributes take

Every attribute of a record takes cells of one type and keeps what it takes in its own form: bytes are
decoded, words for truth values are read, a mapping becomes the record that it describes. A cell that
already has the form is kept exactly. An open sequence stays open as long as everything in it is kept
exactly; else its copy is frozen.
-/

set_option autoImplicit false

namespace EntitySchema.Live

inductive AttributeType where
  /-- A text of at least one character. -/
  | name
  | text
  | optionalText
  /-- A text or nothing; the empty text counts as nothing. -/
  | keyName
  | flag
  | kind
  | defaultValue
  | items
  | names
  | optionalNames
  | nameGroups
  | records (kind : RecordKind)
  | optionalRecord (kind : RecordKind)

def declared : RecordKind → List (String × AttributeType)
  | .schema => [("models", .records .model), ("enums", .records .enum)]
  | .model =>
    [("name", .name), ("name_lower", .text), ("db_name", .optionalText),
      ("documentation", .optionalText), ("fields", .records .field),
      ("primary_key", .optionalRecord .primaryKey), ("unique_fields", .nameGroups),
      ("scalar_fields", .records .field), ("relation_fields", .records .field),
      ("create_fields", .records .field), ("update_fields", .records .field),
      ("read_fields", .records .field), ("reverse_relations", .records .field),
      ("id_field", .optionalRecord .field), ("has_self_relation", .flag),
      ("is_junction_table", .flag)]
  | .enum => [("name", .name), ("values", .names), ("documentation", .optionalText)]
  | .field =>
    [("name", .name), ("type", .name), ("kind", .kind), ("is_id", .flag), ("is_list", .flag),
      ("is_required", .flag), ("is_unique", .flag), ("is_nullable", .flag), ("is_optional", .flag),
      ("is_read_only", .flag), ("is_updated_at", .flag), ("has_default_value", .flag),
      ("has_db_default", .flag), ("default", .defaultValue),
      ("is_part_of_composite_primary_key", .flag), ("is_self_relation", .flag),
      ("relation_name", .optionalText), ("relation_from_fields", .optionalNames),
      ("relation_to_fields", .optionalNames), ("documentation", .optionalText)]
  | .primaryKey => [("name", .keyName), ("fields", .names)]
  | .function => [("name", .name), ("args", .items)]

def required : RecordKind → List String
  | .schema => []
  | .model => ["name", "name_lower"]
  | .enum => ["name"]
  | .field => Field.requiredAttributes
  | .primaryKey => ["fields"]
  | .function => ["name"]

def initiallySet : List String := ["is_nullable", "is_optional"]

def initial (name : String) : AttributeType → Edit Cell
  | .flag => return flag (initiallySet.contains name)
  | .items => openSeq []
  | .names => openSeq []
  | .nameGroups => openSeq []
  | .records _ => openSeq []
  | _ => return .leaf .null

/-- A cell in the form of an attribute, and whether it had that form before. -/
structure Taken where
  cell : Cell
  exact : Bool

def takeScalar (isExact : Value → Bool) (read : Value → Option Value) (c : Cell) :
    Edit (Option Taken) :=
  match c with
  | .leaf v => return (read v).map fun w => ⟨.leaf w, isExact v⟩
  | .ref _ => return none

def takeText (accepts : String → Bool) : Cell → Edit (Option Taken) :=
  takeScalar Value.isText fun v => (v.looseText?.filter accepts).map .text

def takeFlag : Cell → Edit (Option Taken) :=
  takeScalar (fun v => v.bool?.isSome) fun v => v.looseBool?.map .bool

def takeKind : Cell → Edit (Option Taken) :=
  takeScalar (fun _ => false) fun v => (Field.looseKind? v).map fun k => .text k.word

def takeOptional (take : Cell → Edit (Option Taken)) (c : Cell) : Edit (Option Taken) :=
  if isNull c then return some ⟨c, true⟩ else take c

/-- The elements of what counts as a sequence, and whether it is frozen: a sequence object, or a record
as the frozen sequence of its attributes. -/
def sequenceOf? (c : Cell) : Edit (Option (Bool × Bool × List Cell)) := do
  match ← objectOf? c with
  | some (_, .seq frozen items) => return some (frozen, true, items)
  | some (_, .record ..) => return some (true, false, ← elements c)
  | _ => return none

def takeSeq (take : Cell → Edit (Option Taken)) (c : Cell) : Edit (Option Taken) := do
  match ← sequenceOf? c with
  | none => return none
  | some (frozen, isSeq, items) =>
    let taken ← items.mapM take
    if taken.all (·.isSome) then
      let elements := taken.filterMap id
      let exact := isSeq && elements.all (·.exact)
      return some ⟨← allocRef (.seq (frozen || !exact) (elements.map (·.cell))), exact⟩
    else return none

def takeItems : Cell → Edit (Option Taken) := takeSeq fun c => return some ⟨c, true⟩

def takeNames : Cell → Edit (Option Taken) := takeSeq (takeText fun _ => true)

def freezeSeq (c : Cell) : Edit Cell := do
  match ← objectOf? c with
  | some (_, .seq _ items) => allocRef (.seq true items)
  | _ => return c

def isOpenSeq (c : Cell) : Edit Bool := do
  match ← objectOf? c with
  | some (_, .seq frozen _) => return !frozen
  | _ => return false

/-- A sequence of name groups is open or frozen at both levels; a mixture is frozen throughout. -/
def takeGroups (c : Cell) : Edit (Option Taken) := do
  match ← takeSeq takeNames c with
  | none => return none
  | some taken =>
    let groups ← elements taken.cell
    let areOpen ← groups.mapM isOpenSeq
    if ← isOpenSeq taken.cell then
      if areOpen.all id then return some taken
      else return some ⟨← allocRef (.seq true (← groups.mapM freezeSeq)), false⟩
    else
      let exact := taken.exact && !areOpen.any id
      return some ⟨← allocRef (.seq true (← groups.mapM freezeSeq)), exact⟩

def fieldLookup (fields : Cell) : Edit Cell := do
  let entries ← (← elements fields).mapM fun f => do return (← keyOf (← stored f "name"), f)
  allocRef (.map false (entries.foldl (fun found e => putEntry e.1 e.2 found) []))

def innerOf (kind : RecordKind) (attributes : List (String × Cell)) : Edit (List (String × Cell)) := do
  match kind, attributes.lookup "fields" with
  | .model, some fields => return mark false ++ [("_field_map", ← fieldLookup fields)]
  | _, _ => return mark false

/-- A new record from attributes: those that are not given have their initial content. A refusal names
every attribute that is missing, wrong or unknown. -/
def build (take : AttributeType → Cell → Edit (Option Taken)) (kind : RecordKind)
    (given : List (String × Cell)) : Edit (Except (List String) Taken) := do
  let outcomes ← (declared kind).mapM fun (name, type) => do
    match given.lookup name with
    | some c => return (name, ← take type c)
    | none =>
      if (required kind).contains name then return (name, none)
      else return (name, some ⟨← initial name type, true⟩)
  let wrong := (outcomes.filter (·.2.isNone)).map (·.1)
  let unknown := (given.map (·.1)).filter fun name => ((declared kind).lookup name).isNone
  if wrong.isEmpty && unknown.isEmpty then
    let attributes := outcomes.filterMap fun o => o.2.map fun t => (o.1, t.cell)
    let inner ← innerOf kind attributes
    return .ok ⟨← allocRef (.record kind attributes inner), outcomes.all (·.2.any (·.exact))⟩
  else return .error (wrong ++ unknown)

def takeRecord (take : AttributeType → Cell → Edit (Option Taken)) (kind : RecordKind) (c : Cell) :
    Edit (Option Taken) := do
  match ← objectOf? c with
  | some (_, .record k ..) => return if k = kind then some ⟨c, true⟩ else none
  | some (_, .map _ entries) =>
    match entries.mapM fun e => e.1.text?.map fun name => (name, e.2) with
    | some given => return (← build take kind given).toOption
    | none => return none
  | _ => return none

/-- A default: scalars and default functions as they are, bytes as the scalar they stand for, a mapping
as the default function it describes, and everything with elements as a sequence. -/
def takeDefault (take : AttributeType → Cell → Edit (Option Taken)) (c : Cell) :
    Edit (Option Taken) := do
  match c with
  | .leaf (.bytes bs) => return (Value.scalarOfBytes? bs).map fun v => ⟨.leaf v, false⟩
  | .leaf _ => return some ⟨c, true⟩
  | .ref id =>
    match ← fetch id with
    | .seq .. => takeItems c
    | .map .. => takeRecord take .function c
    | .record .function .. => return some ⟨c, true⟩
    | .record .. => takeItems c

def takeWithin : Nat → AttributeType → Cell → Edit (Option Taken)
  | _, .name => takeText (!·.isEmpty)
  | _, .text => takeText fun _ => true
  | _, .optionalText => takeOptional (takeText fun _ => true)
  | _, .keyName => takeOptional fun c => do
    match ← takeText (fun _ => true) c with
    | some taken => return some (if isText taken.cell "" then ⟨.leaf .null, taken.exact⟩ else taken)
    | none => return none
  | _, .flag => takeFlag
  | _, .kind => takeKind
  | _, .items => takeItems
  | _, .names => takeNames
  | _, .optionalNames => takeOptional takeNames
  | _, .nameGroups => takeGroups
  | 0, _ => fun _ => return none
  | depth + 1, .defaultValue => takeDefault (takeWithin depth)
  | depth + 1, .records kind => takeSeq (takeRecord (takeWithin depth) kind)
  | depth + 1, .optionalRecord kind => takeOptional (takeRecord (takeWithin depth) kind)

/-- How deep records nest: a schema holds models, a model fields, and a field a default function. -/
def recordDepth : Nat := 3

def takeFor : AttributeType → Cell → Edit (Option Taken) := takeWithin recordDepth

def newRecord (kind : RecordKind) (given : List (String × Cell)) : Edit Cell := do
  match ← build takeFor kind given with
  | .ok taken => return taken.cell
  | .error names => throw (.invalid names)

end EntitySchema.Live
