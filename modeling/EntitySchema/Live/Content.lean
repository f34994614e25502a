import EntitySchema.Live.Store
import EntitySchema.Value.Key
import EntitySchema.Value.Readable

/-!
# What objects offer

The questions that every object answers or refuses, whatever it is: whether it counts as something,
how many elements it has, which they are, and whether it can be a key. Nothing promises what the
elements of a live list are, so the checks and analyses ask these questions as they go and fail where
an object has no answer.
-/

set_option autoImplicit false

namespace EntitySchema.Live

def Scalar.isPresent : Value → Bool
  | .null => false
  | .bool b => b
  | .int n => n != 0
  | .float x => !(x == 0)
  | .text s => !s.isEmpty
  | .bytes bs => !bs.isEmpty
  | .seq _ items => !items.isEmpty
  | .map _ entries => !entries.isEmpty
  | .call .. => true

/-- Whether an object counts as something: empty containers do not, records always do. -/
def isPresent (c : Cell) : Edit Bool := do
  match c with
  | .leaf v => return Scalar.isPresent v
  | .ref id =>
    match ← fetch id with
    | .seq _ items => return !items.isEmpty
    | .map _ entries => return !entries.isEmpty
    | .record .. => return true

def isNull : Cell → Bool
  | .leaf .null => true
  | _ => false

def isText (c : Cell) (s : String) : Bool :=
  match c with
  | .leaf (.text t) => t == s
  | _ => false

def size (c : Cell) : Edit Nat := do
  match c with
  | .leaf (.text s) => return s.length
  | .leaf (.bytes bs) => return bs.length
  | .leaf _ => throw .wrongType
  | .ref id =>
    match ← fetch id with
    | .seq _ items => return items.length
    | .map _ entries => return entries.length
    | .record .. => throw .wrongType

def pairOf (name : String) (c : Cell) : Edit Cell :=
  allocRef (.seq true [.leaf (.text name), c])

/-- The elements in order: the characters of a text, the keys of a mapping, the attributes of a record
with their names. -/
def elements (c : Cell) : Edit (List Cell) := do
  match c with
  | .leaf (.text s) => return s.toList.map fun ch => .leaf (.text (String.ofList [ch]))
  | .leaf (.bytes bs) => return bs.map fun b => .leaf (.int b.toNat)
  | .leaf _ => throw .wrongType
  | .ref id =>
    match ← fetch id with
    | .seq _ items => return items
    | .map _ entries => entries.mapM fun e => plant e.1
    | .record _ attributes _ => attributes.mapM fun a => pairOf a.1 a.2

/-- No chain of distinct objects is longer than the store, so a search that goes deeper than that goes
round in a circle. -/
def depthLimit : Edit Nat := do return (← get).objects.size + 1

/-- The key that a cell is; `depth` bounds the nesting. Only scalars and frozen sequences of keys are
keys. -/
def keyWithin : Nat → Cell → Edit Value
  | _, .leaf v => return v
  | 0, .ref _ => throw .endless
  | depth + 1, .ref id => do
    match ← fetch id with
    | .seq true items => return .seq true (← items.mapM (keyWithin depth))
    | _ => throw .wrongType

def keyOf (c : Cell) : Edit Value := do keyWithin (← depthLimit) c

def entryUnder? (key : Value) (entries : List (Value × Cell)) : Option Cell :=
  (entries.find? fun e => Value.sameKey e.1 key).map (·.2)

def putEntry (key : Value) (c : Cell) : List (Value × Cell) → List (Value × Cell)
  | [] => [(key, c)]
  | (k, d) :: rest =>
    if Value.sameKey k key then (k, c) :: rest else (k, d) :: putEntry key c rest

/-- What a mapping holds under a key; nothing if the key is absent or the entry is null. -/
def lookUp (mapping key : Cell) : Edit (Option Cell) := do
  match ← objectOf? mapping with
  | some (_, .map _ entries) => return (entryUnder? (← keyOf key) entries).filter (!isNull ·)
  | _ => throw .noAttribute

def wordsOf (c : Cell) : String :=
  match c with
  | .leaf v => v.plainText
  | .ref _ => ""

end EntitySchema.Live
