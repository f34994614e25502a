import EntitySchema.Value.Basic

/-!
# Live objects

A compiled schema in the hands of callers who may change it. Records and containers have an identity:
two views that hold the same field see each other's changes. The store keeps every object under a
number; cells hold immutable values or refer to objects. Nothing is ever removed from the store.
-/

set_option autoImplicit false

namespace EntitySchema.Live

abbrev Id := Nat

inductive Cell where
  | leaf (v : Value)
  | ref (id : Id)

instance : Inhabited Cell := ⟨.leaf .null⟩

inductive RecordKind where
  | schema
  | model
  | enum
  | field
  | primaryKey
  | function
  deriving DecidableEq, Repr

namespace RecordKind

def word : RecordKind → String
  | schema => "ParsedSchema"
  | model => "ParsedModel"
  | enum => "ParsedEnum"
  | field => "ParsedField"
  | primaryKey => "PrimaryKey"
  | function => "FunctionDefault"

end RecordKind

inductive Object where
  | seq (frozen : Bool) (items : List Cell)
  | map (frozen : Bool) (entries : List (Value × Cell))
  /-- A record: its attributes, and what it holds for itself under names that begin with an
  underscore, such as the mark that it is frozen. -/
  | record (kind : RecordKind) (attributes inner : List (String × Cell))

inductive Fault where
  | noAttribute
  | noKey
  | noIndex
  | wrongType
  /-- A value of the right kind that cannot be used. -/
  | wrongValue
  /-- A position beyond all that a sequence could ever have. -/
  | outOfRange
  | frozen (message : String)
  | invalid (names : List String)
  /-- A container that holds itself. -/
  | endless
  deriving DecidableEq, Repr

structure Store where
  objects : Array Object

namespace Store

def empty : Store := ⟨#[]⟩

end Store

/-- A computation on the store. A computation that fails leaves the store as it was. -/
abbrev Edit (α : Type) := StateT Store (Except Fault) α

def alloc (o : Object) : Edit Id := do
  let s ← get
  set (⟨s.objects.push o⟩ : Store)
  return s.objects.size

def allocRef (o : Object) : Edit Cell := Cell.ref <$> alloc o

def fetch (id : Id) : Edit Object := do
  match (← get).objects[id]? with
  | some o => return o
  | none => throw .noAttribute

def replace (id : Id) (o : Object) : Edit Unit := modify fun s => ⟨s.objects.setIfInBounds id o⟩

def objectOf? (c : Cell) : Edit (Option (Id × Object)) :=
  match c with
  | .leaf _ => return none
  | .ref id => do return some (id, ← fetch id)

def stored (c : Cell) (name : String) : Edit Cell := do
  match ← objectOf? c with
  | some (_, .record _ attributes inner) =>
    match attributes.lookup name <|> inner.lookup name with
    | some held => return held
    | none => throw .noAttribute
  | _ => throw .noAttribute

/-- What a record holds for itself under the mark that it is frozen. -/
def markName : String := "_frozen"

def mark (frozen : Bool) : List (String × Cell) := [(markName, .leaf (.bool frozen))]

mutual

def plant : Value → Edit Cell
  | .seq frozen items => do
    let cells ← plantItems items
    allocRef (.seq frozen cells)
  | .map views entries => do
    let cells ← plantEntries entries
    allocRef (.map (views != 0) cells)
  | .call frozen name argsFrozen args => do
    let cells ← plantItems args
    let held ← allocRef (.seq argsFrozen cells)
    allocRef (.record .function [("name", .leaf (.text name)), ("args", held)] (mark frozen))
  | .null => pure (.leaf .null)
  | .bool b => pure (.leaf (.bool b))
  | .int n => pure (.leaf (.int n))
  | .float x => pure (.leaf (.float x))
  | .text s => pure (.leaf (.text s))
  | .bytes bs => pure (.leaf (.bytes bs))
termination_by structural v => v

def plantItems : List Value → Edit (List Cell)
  | [] => pure []
  | v :: vs => do
    let c ← plant v
    let cs ← plantItems vs
    return c :: cs
termination_by structural vs => vs

def plantEntries : List (Value × Value) → Edit (List (Value × Cell))
  | [] => pure []
  | (k, v) :: es => do
    let c ← plant v
    let cs ← plantEntries es
    return (k, c) :: cs
termination_by structural es => es

end

def plantNames (names : Seq String) : Edit Cell :=
  allocRef (.seq names.frozen (names.items.map fun n => .leaf (.text n)))

def flag (b : Bool) : Cell := .leaf (.bool b)

def optionalText (s : Option String) : Cell :=
  match s with
  | some s => .leaf (.text s)
  | none => .leaf .null

end EntitySchema.Live
