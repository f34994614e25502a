import EntitySchema.Live.Accept

/-!
# Changing attributes

How an attribute of a live record is set and removed. A frozen record takes no change at all, whatever
the attribute. A sequence that is set is copied and its elements are shared. An attribute that is
computed can be read and never set. Names that begin with an underscore belong to the record itself:
they hold whatever they are given.
-/

set_option autoImplicit false

namespace EntitySchema.Live

def putAttribute (name : String) (c : Cell) : List (String × Cell) → List (String × Cell)
  | [] => [(name, c)]
  | (n, d) :: rest => if n = name then (n, c) :: rest else (n, d) :: putAttribute name c rest

def isInner (name : String) : Bool := name.toList.head? == some '_'

/-- Names that every record keeps for itself although no underscore says so. -/
def reservedNames : List String := ["model_extra", "model_fields_set"]

def frozenWords (verb name : String) (kind : RecordKind) : String :=
  "Cannot " ++ verb ++ " '" ++ name ++ "' on frozen " ++ kind.word ++ "."

def setAttribute (target : Cell) (name : String) (c : Cell) : Edit Cell := do
  match ← objectOf? target with
  | some (id, .record kind attributes inner) =>
    if ← isMarked inner then throw (.frozen (frozenWords "assign" name kind))
    else if isInner name then
      replace id (.record kind attributes (putAttribute name c inner))
      return c
    else
      match (declared kind).lookup name with
      | some type =>
        match ← takeFor type c with
        | some taken =>
          replace id (.record kind (putAttribute name taken.cell attributes) inner)
          return taken.cell
        | none => throw (.invalid [name])
      | none =>
        if (computedNames kind).contains name || reservedNames.contains name then throw .noAttribute
        else throw (.invalid [name])
  | _ => throw .noAttribute

/-- Removes an attribute; it is missing until it is set again. -/
def removeAttribute (target : Cell) (name : String) : Edit Unit := do
  match ← objectOf? target with
  | some (id, .record kind attributes inner) =>
    if ← isMarked inner then throw (.frozen (frozenWords "delete" name kind))
    else if (attributes.lookup name).isSome then
      replace id (.record kind (attributes.filter (·.1 != name)) inner)
    else if (inner.lookup name).isSome then
      replace id (.record kind attributes (inner.filter (·.1 != name)))
    else throw .noAttribute
  | _ => throw .noAttribute

/-- Freezes one record, not what it holds. -/
def freezeRecord (target : Cell) : Edit Unit := do
  match ← objectOf? target with
  | some (id, .record kind attributes inner) =>
    replace id (.record kind attributes (putAttribute markName (flag true) inner))
  | _ => throw .noAttribute

def frozenIf (wanted : Bool) (c : Cell) : Edit Cell := do
  if wanted then freezeRecord c
  return c

end EntitySchema.Live
