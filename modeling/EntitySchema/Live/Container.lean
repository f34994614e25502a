import EntitySchema.Live.Attribute

/-!
# Paths and containers

How a path leads from one object to another, and what can be done to a container in place. Only open
containers can be changed; a frozen one does not have the operations, and neither has a record.
-/

set_option autoImplicit false

namespace EntitySchema.Live

abbrev Path := List Value

def positionOf? : Value → Option Int
  | .int i => some i
  | .bool b => some (if b then 1 else 0)
  | _ => none

def place? (i : Int) (size : Nat) : Option Nat :=
  let p := if i < 0 then i + size else i
  if 0 ≤ p ∧ p < size then some p.toNat else none

def pick (i : Int) (items : List Cell) : Edit Cell :=
  match (place? i items.length).bind fun p => items[p]? with
  | some held => return held
  | none => throw .noIndex

def keyOfValue (v : Value) : Edit Value := do keyOf (← plant v)

def elementAt (c : Cell) (i : Int) : Edit Cell := do
  match c with
  | .leaf (.text _) => pick i (← elements c)
  | .leaf (.bytes _) => pick i (← elements c)
  | .leaf _ => throw .wrongType
  | .ref id =>
    match ← fetch id with
    | .seq _ items => pick i items
    | .map _ entries =>
      match entryUnder? (.int i) entries with
      | some held => return held
      | none => throw .noKey
    | .record .. => throw .wrongType

/-- What an object has under a key or a name: mappings have keys, all other objects names. -/
def memberOf (c : Cell) (name : Value) : Edit Cell := do
  match ← objectOf? c with
  | some (_, .map _ entries) =>
    match entryUnder? (← keyOfValue name) entries with
    | some held => return held
    | none => throw .noKey
  | _ =>
    match name with
    | .text s => getAttribute c s
    | _ => throw .wrongType

/-- One step of a path: a whole number is a position, everything else a key or a name. -/
def follow (c : Cell) (step : Value) : Edit Cell :=
  match positionOf? step with
  | some i => elementAt c i
  | none => memberOf c step

def resolve (root : Cell) (path : Path) : Edit Cell := path.foldlM follow root

def append (target c : Cell) : Edit Nat := do
  match ← objectOf? target with
  | some (id, .seq false items) => do
    replace id (.seq false (items ++ [c]))
    return items.length + 1
  | _ => throw .noAttribute

def clear (target : Cell) : Edit Nat := do
  match ← objectOf? target with
  | some (id, .seq false _) => do
    replace id (.seq false [])
    return 0
  | some (id, .map false _) => do
    replace id (.map false [])
    return 0
  | _ => throw .noAttribute

/-- Whether a position fits into a machine word of 64 bits. -/
def isInRange (i : Int) : Bool := decide (-Int.pow 2 63 ≤ i ∧ i < Int.pow 2 63)

def pop (target : Cell) (index : Value) : Edit Nat := do
  match ← objectOf? target with
  | some (id, .seq false items) =>
    match positionOf? index with
    | none => throw .wrongType
    | some i =>
      if !isInRange i then throw .outOfRange
      match place? i items.length with
      | some p => do
        replace id (.seq false (items.eraseIdx p))
        return items.length - 1
      | none => throw .noIndex
  | some (_, .map false []) => throw .noKey
  | some (id, .map false entries) => do
    let key ← keyOfValue index
    if (entryUnder? key entries).isSome then do
      replace id (.map false (entries.filter fun e => !Value.sameKey e.1 key))
      return entries.length - 1
    else throw .noKey
  | _ => throw .noAttribute

def setItem (target : Cell) (index : Value) (c : Cell) : Edit Nat := do
  match ← objectOf? target with
  | some (id, .seq false items) =>
    match positionOf? index with
    | none => throw .wrongType
    | some i =>
      match place? i items.length with
      | some p => do
        replace id (.seq false (items.set p c))
        return items.length
      | none => throw .noIndex
  | some (id, .map false entries) => do
    let stored := putEntry (← keyOfValue index) c entries
    replace id (.map false stored)
    return stored.length
  | _ => throw .wrongType

end EntitySchema.Live
