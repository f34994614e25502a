import EntitySchema.Live.Assign
import EntitySchema.Live.Checks
import EntitySchema.Model.Views
import EntitySchema.Value.Copy

/-!
# Copies of live records

Copies of fields, the reverse index of a live schema, and models with fresh views. A copy is a new
record built from what the old one holds at the moment, so an attribute that was removed has its
initial content in the copy, and one that a record cannot be without makes the copy fail.
-/

set_option autoImplicit false

namespace EntitySchema.Live

def seqOf (frozen : Bool) (items : List Cell) : Edit Cell := allocRef (.seq frozen items)

def copySeq (frozen : Bool) (c : Cell) : Edit Cell := do seqOf frozen (← elements c)

/-- A copy of containers at every depth, with texts for keys; everything else is shared. `depth` bounds
the nesting. -/
def copyWithin (frozen : Bool) : Nat → Cell → Edit Cell
  | _, .leaf v => return .leaf v
  | 0, .ref _ => throw .endless
  | depth + 1, .ref id => do
    match ← fetch id with
    | .seq _ items => seqOf frozen (← items.mapM (copyWithin frozen depth))
    | .map _ entries =>
      let copies ← entries.mapM fun e => do
        return (Value.text e.1.plainText, ← copyWithin frozen depth e.2)
      allocRef (.map frozen (copies.foldl (fun found e => putEntry e.1 e.2 found) []))
    | .record .. => return .ref id

def copyDeep (frozen : Bool) (c : Cell) : Edit Cell := do copyWithin frozen (← depthLimit) c

def copyDefault (frozen : Bool) (c : Cell) : Edit Cell := do
  match ← objectOf? c with
  | some (_, .record .function ..) =>
    let name ← stored c "name"
    let args ← (← elementsIn c "args").mapM (copyDeep frozen)
    frozenIf frozen (← newRecord .function [("name", name), ("args", ← seqOf frozen args)])
  | _ => copyDeep frozen c

def copyNames (frozen : Bool) (c : Cell) : Edit Cell :=
  if isNull c then return c else copySeq frozen c

/-- Whether an element can be read as a key and what stands under it. -/
def checkPair (c : Cell) : Edit Unit := do
  match ← elements c with
  | [key, _] => let _ ← keyOf key
  | _ => throw .wrongValue

/-- The attributes that an object holds. Mappings and sequences of pairs hold entries instead, which
are none. -/
def heldAttributes (c : Cell) : Edit (List (String × Cell)) := do
  match ← objectOf? c with
  | some (_, .record _ attributes _) => return attributes
  | some (_, .map ..) => return []
  | _ => do
    let _ ← (← elements c).mapM checkPair
    return []

def withAttributes (held changed : List (String × Cell)) : List (String × Cell) :=
  changed.foldl (fun found a => putAttribute a.1 a.2 found) held

def copyField (frozen : Bool) (field : Cell) : Edit Cell := do
  let held ← heldAttributes field
  let fromNames ← copyNames frozen (← stored field "relation_from_fields")
  let toNames ← copyNames frozen (← stored field "relation_to_fields")
  let kept ← copyDefault frozen (← stored field "default")
  frozenIf frozen (← newRecord .field (withAttributes held
    [("relation_from_fields", fromNames), ("relation_to_fields", toNames), ("default", kept)]))

def keyCount (field : Cell) (name : String) : Edit Nat := do
  let c ← stored field name
  if ← isPresent c then size c else return 0

def edgeKey (model : String) (field : Cell) : Edit String := do
  let fromCount ← keyCount field "relation_from_fields"
  let toCount ← keyCount field "relation_to_fields"
  let name ← wordsIn field "name"
  let relation ← stored field "relation_name"
  let relationName := if ← isPresent relation then wordsOf relation else "implicit"
  let type ← wordsIn field "type"
  return model ++ "." ++ name ++ "." ++ relationName ++ "." ++ type ++ "." ++ toString fromCount
    ++ ":" ++ toString toCount

structure Edges where
  seen : List String
  copies : List (String × Cell)

def enterEdge (frozen : Bool) (known : List Cell) (model : Cell) (edges : Edges) (field : Cell) :
    Edit Edges := do
  if !(← isOfKind field .object) then return edges
  let type ← stored field "type"
  if !known.any (isText · (wordsOf type)) then return edges
  let key ← edgeKey (← wordsIn model "name") field
  if edges.seen.contains key then return edges
  return ⟨key :: edges.seen, edges.copies ++ [(wordsOf type, ← copyField frozen field)]⟩

def reverseIndex (frozen : Bool) (root : Cell) : Edit Cell := do
  let models ← elementsIn root "models"
  let names ← models.mapM (stored · "name")
  let edges ← models.foldlM (fun edges model => do
    (← elementsIn model "fields").foldlM (enterEdge frozen names model) edges) ⟨[], []⟩
  let entries ← names.mapM fun name => do
    let copies := edges.copies.filter fun e => isText name e.1
    return (← keyOf name, ← seqOf frozen (copies.map (·.2)))
  allocRef (.map frozen (entries.foldl (fun found e => putEntry e.1 e.2 found) []))

def isJunctionOf (fields : Cell) : Edit Bool := do
  let count ← size fields
  if 4 < count then return false
  let relations := (← (← elements fields).filterM (isOfKind · .object)).length
  return decide (2 ≤ relations) && decide (count - relations ≤ 2)

def isWritable (field : Cell) : Edit Bool := do
  let isPlain ← if ← isOfKind field .scalar then pure true else isOfKind field .enum
  if !isPlain then return false
  let isManaged ← if ← holds field "has_db_default" then do
    pure (timestampFields.contains (← wordsIn field "name")) else pure false
  if ← holds field "is_id" then return false
  if ← holds field "is_read_only" then return false
  if ← holds field "is_updated_at" then return false
  return !isManaged

structure Views where
  scalars : List Cell := []
  relations : List Cell := []
  writable : List Cell := []
  idField : Option Cell := none
  hasSelfRelation : Bool := false

def addToViews (v : Views) (field : Cell) : Edit Views := do
  let isId ← holds field "is_id"
  let isSelfRelation ← holds field "is_self_relation"
  let v : Views := { v with
    idField := if isId && v.idField.isNone then some field else v.idField
    hasSelfRelation := v.hasSelfRelation || isSelfRelation }
  if ← isOfKind field .object then return { v with relations := v.relations ++ [field] }
  if ← isOfKind field .unsupported then return v
  let v : Views := { v with scalars := v.scalars ++ [field] }
  if ← isWritable field then return { v with writable := v.writable ++ [field] } else return v

def reverseOf (index : Option Cell) (name : Cell) : Edit (List Cell) := do
  match index with
  | none => return []
  | some index =>
    match ← lookUp index name with
    | some copies => elements copies
    | none => return []

def withViews (frozen : Bool) (index : Option Cell) (model : Cell) : Edit Cell := do
  let isJunction ← isJunctionOf (← stored model "fields")
  let v ← (← elementsIn model "fields").foldlM addToViews {}
  let held ← heldAttributes model
  let fields ← copySeq frozen (← stored model "fields")
  let groups ← (← elementsIn model "unique_fields").mapM (copySeq frozen)
  let reverse ← reverseOf index (← stored model "name")
  let seq := seqOf frozen
  frozenIf frozen (← newRecord .model (withAttributes held
    [("fields", fields), ("unique_fields", ← seq groups), ("scalar_fields", ← seq v.scalars),
      ("relation_fields", ← seq v.relations), ("create_fields", ← seq v.writable),
      ("update_fields", ← seq v.writable), ("read_fields", ← seq v.scalars),
      ("reverse_relations", ← seq reverse), ("id_field", v.idField.getD (.leaf .null)),
      ("has_self_relation", flag v.hasSelfRelation), ("is_junction_table", flag isJunction)]))

end EntitySchema.Live
