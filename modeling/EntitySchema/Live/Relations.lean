import EntitySchema.Live.Attribute
import EntitySchema.Live.Checks
import EntitySchema.Live.Order
import EntitySchema.Relationship.Basic

/-!
# Relations of a live schema

Opposites, unique keys and cardinalities as they are decided on live objects, each from the attributes
that it takes to decide, in order.
-/

set_option autoImplicit false

namespace EntitySchema.Live

def isOpposite (field source target candidate : Cell) : Edit Bool := do
  let origin ← stored candidate "type"
  if !(← equal origin (← stored source "name")) then return false
  let isSame ← if ← equal (← stored source "name") (← stored target "name") then
    equal (← stored candidate "name") (← stored field "name") else pure false
  if isSame then return false
  equal (← stored candidate "relation_name") (← stored field "relation_name")

def firstThat (test : Cell → Edit Bool) : List Cell → Edit (Option Cell)
  | [] => return none
  | c :: cs => do
    if ← test c then return some c else firstThat test cs

def backReference? (field source target : Cell) : Edit (Option Cell) := do
  firstThat (isOpposite field source target) (← elementsIn target "relation_fields")

def isKey (field : Cell) : Edit Bool := do
  if ← holds field "is_unique" then return true else holds field "is_id"

def areUnique (model names : Cell) : Edit Bool := do
  let wanted ← sorted names
  let single ← match wanted with
    | [name] => match ← fieldNamed? model name with
      | some field => isKey field
      | none => pure false
    | _ => pure false
  if single then return true
  let key ← stored model "primary_key"
  let isPrimary ← if isNull key then pure false else do sortsTo wanted (← stored key "fields")
  if isPrimary then return true
  return (← firstThat (sortsTo wanted) (← elementsIn model "unique_fields")).isSome

def cardinalityOf (field source target : Cell) (back : Option Cell) : Edit Cardinality := do
  match back with
  | some b => return Cardinality.ofFlags (← holds field "is_list") (← holds b "is_list")
  | none =>
    let names ← stored field "relation_from_fields"
    if ← isPresent names then
      return if ← areUnique source names then .oneToOne else .manyToOne
    if !(← holds field "is_list") then return .oneToOne
    return if ← holds target "is_junction_table" then .manyToMany else .oneToMany

def relationshipOf (frozen : Bool) (model target field : Cell) : Edit Relationship := do
  let back ← backReference? field model target
  let cardinality ← cardinalityOf field model target back
  let m ← wordsIn model "name"
  let f ← wordsIn field "name"
  let t ← wordsIn target "name"
  let backReference ← back.mapM (wordsIn · "name")
  return {
    model := m, field := f, target := t, cardinality, backReference,
    shouldAutoInclude := cardinality == .manyToOne, frozen }

def relationOf (frozen : Bool) (root model field : Cell) : Edit (List (Relationship ⊕ String)) := do
  if !(← isOfKind field .object) then return []
  match ← modelNamed? root (← stored field "type") with
  | none => return [.inr (← wordsIn field "name")]
  | some target => return [.inl (← relationshipOf frozen model target field)]

def analysisOf (frozen : Bool) (root model : Cell) : Edit ModelAnalysis := do
  if ← holds model "is_junction_table" then
    return {
      model := ← wordsIn model "name", isJunctionTable := true, relationships := .empty,
      skipped := .empty, frozen }
  let found ← (← elementsIn model "fields").flatMapM (relationOf frozen root model)
  return {
    model := ← wordsIn model "name"
    isJunctionTable := false
    relationships := ⟨frozen, found.filterMap Sum.getLeft?⟩
    skipped := ⟨frozen, found.filterMap Sum.getRight?⟩
    frozen }

def analyses (frozen : Bool) (root : Cell) : Edit (List ModelAnalysis) := do
  let found ← (← elementsIn root "models").mapM (analysisOf frozen root)
  return (found.foldl (fun kept a => Schema.putNamed a.model a kept) []).map (·.2)

def targetName? (root field : Cell) : Edit (Option String) := do
  if !(← isOfKind field .object) then return none
  (← modelNamed? root (← stored field "type")).mapM (wordsIn · "name")

end EntitySchema.Live
