import EntitySchema.Live.Attribute
import EntitySchema.Live.Order
import EntitySchema.Validation.Check

/-!
# Checks of a live schema

The checks of a schema as they run on live objects. Each walks over the models and their fields and
asks for one attribute after the other, so a missing attribute, or an element that is no field, makes
a check fail exactly where it is asked for. Names in key lists may be anything that can be a key.
-/

set_option autoImplicit false

namespace EntitySchema.Live

/-- The issue of a finding, with a value itself in the place of its words. -/
def issueWith (key : String) (raw : Value) (f : Finding) : Issue :=
  let context := f.context.map fun c => if c.1 = key then (c.1, raw) else c
  { f.issue with context := context.map fun c => (.text c.1, c.2) }

def forFields {α : Type} (root : Cell) (look : Cell → Cell → Edit (List α)) : Edit (List α) := do
  (← elementsIn root "models").flatMapM fun model => do
    (← elementsIn model "fields").flatMapM (look model)

/-! Self-relations -/

def selfRelationIssues (model field : Cell) : Edit (List Issue) := do
  if !(← holds field "is_self_relation") then return []
  let m ← wordsIn model "name"
  let f ← wordsIn field "name"
  let blocking := if ← blocksInsertion field then [Finding.requiredSelfRelation m f] else []
  return (Finding.selfRelation m f :: blocking).map (·.issue)

/-! Insertion cycles -/

def waitingEdge (root model field : Cell) : Edit (List (String × String)) := do
  if !(← blocksInsertion field) then return []
  let target ← stored field "type"
  let m ← stored model "name"
  if ← equal target m then return []
  if (← modelNamed? root target).isNone then return []
  return [(wordsOf m, wordsOf target)]

def circularIssues (root : Cell) : Edit (List Issue) := do
  let edges ← forFields root (waitingEdge root)
  let names := (← namesIn root "models").filter (!isNull ·)
  let successors (name : String) : List String :=
    firstByKey id [] ((edges.filter (·.1 == name)).map (·.2))
  let cycles := Cycle.find successors (names.map wordsOf)
  return cycles.map fun cycle => (Finding.circularRelation cycle).issue

/-! Name collisions -/

/-- The text of a name; where every name has to be one, null is refused. -/
def lowered (name : Cell) (fault : Fault) : Edit String :=
  match name with
  | .leaf (.text s) => return lowerText s
  | _ => throw fault

def modelCollisionIssues (root : Cell) : Edit (List Issue) := do
  let names ← namesIn root "models"
  let _ ← names.mapM (lowered · .wrongType)
  return (Collision.all (names.map wordsOf) modelNameForms).map fun c =>
    (Finding.modelNameCollision c.first c.second c.form c.derived).issue

def enumCollisionIssues (root : Cell) : Edit (List Issue) := do
  let models ← (← elementsIn root "models").mapM fun m => do
    return (← wordsIn m "name_lower", ← wordsIn m "name")
  (← elementsIn root "enums").flatMapM fun e => do
    let name ← stored e "name"
    match findLast? (← lowered name .noAttribute) models with
    | some m => return [(Finding.enumModelNameCollision (wordsOf name) m).issue]
    | none => return []

def fieldCollisionIssues (model : Cell) : Edit (List Issue) := do
  let names ← ofKind .model model (namesIn model "fields")
  let collisions := Collision.all ((names.filter (!isNull ·)).map wordsOf) fieldNameForms
  collisions.mapM fun c => do
    let m ← wordsIn model "name"
    return (Finding.fieldNameCollision m c.first c.second c.form c.derived).issue

def collisionIssues (root : Cell) : Edit (List Issue) := do
  let models ← modelCollisionIssues root
  let enums ← enumCollisionIssues root
  let fields ← (← elementsIn root "models").flatMapM fieldCollisionIssues
  return models ++ enums ++ fields

/-! Keys -/

def countKeys (names : List Value) : List (Value × Nat) :=
  let distinct := names.foldl
    (fun found n => if found.any (Value.sameKey · n) then found else found ++ [n]) []
  distinct.map fun n => (n, names.countP (Value.sameKey n ·))

def keyListIssues (model : Cell) (m : String) (kind : KeyKind) (names : List Cell) :
    Edit (List Issue) := do
  let missing ← names.flatMapM fun name => do
    if (← fieldNamed? model name).isSome then return []
    let raw ← keyOf name
    return [issueWith "field" raw (.keyFieldNotFound kind m raw.plainText)]
  let raws ← names.mapM keyOf
  let repeated := (countKeys raws).filter fun n => decide (1 < n.2)
  return missing ++ repeated.map fun n =>
    issueWith "field" n.1 (.duplicateKeyField kind m n.1.plainText n.2)

def uniqueIssues (model : Cell) (m : String) (group : Cell) : Edit (List Issue) := do
  if !(← isPresent group) then return [(Finding.emptyUniqueConstraint m).issue]
  keyListIssues model m .unique (← elements group)

def keyIssues (model : Cell) : Edit (List Issue) := do
  let idFields ← (← elementsIn model "fields").filterM (holds · "is_id")
  let idNames ← idFields.mapM (wordsIn · "name")
  let m ← wordsIn model "name"
  let missing ← if idNames.isEmpty then do
    pure (if ← ofKind .model model (hasCompositeKey model) then [] else [Finding.missingPrimaryKey m])
  else pure []
  let several := if 1 < idNames.length then [Finding.multipleIdFields m idNames] else []
  let key ← stored model "primary_key"
  let primary ← if isNull key then pure []
    else do keyListIssues model m .primary (← elementsIn key "fields")
  let unique ← (← elementsIn model "unique_fields").flatMapM (uniqueIssues model m)
  return (missing ++ several).map (·.issue) ++ primary ++ unique

/-! Relation targets -/

def keyNames (field : Cell) (name : String) : Edit (List Cell) := do
  let c ← stored field name
  if ← isPresent c then elements c else return []

def keyCountFindings (m f : String) (fromCount toCount : Nat) : List Finding :=
  if fromCount != 0 && toCount == 0 then [.missingToFields m f]
  else if toCount != 0 && fromCount != toCount then [.fieldCountMismatch m f fromCount toCount]
  else []

def missingNames (model : Cell) (names : List Cell) (finding : String → Edit Finding) :
    Edit (List Issue) :=
  names.flatMapM fun name => do
    if (← fieldNamed? model name).isSome then return []
    let raw ← keyOf name
    return [issueWith "missing" raw (← finding raw.plainText)]

def relationIssues (root model field : Cell) : Edit (List Issue) := do
  if !(← isOfKind field .object) then return []
  let m ← wordsIn model "name"
  let f ← wordsIn field "name"
  let type ← stored field "type"
  let target ← modelNamed? root type
  let unknown := if target.isNone then [Finding.unknownRelationTarget m f (wordsOf type)] else []
  let fromNames ← keyNames field "relation_from_fields"
  let toNames ← keyNames field "relation_to_fields"
  let counts := keyCountFindings m f fromNames.length toNames.length
  let missingHere ← missingNames model fromNames fun n => return .localFieldNotFound m f n
  let missingThere ← match target with
    | some t => missingNames t toNames fun n => do
      return .referencedFieldNotFound m f (← wordsIn t "name") n
    | none => pure []
  return (unknown ++ counts).map (·.issue) ++ missingHere ++ missingThere

/-! Enums, kinds and default functions -/

def hasValues (e : Cell) : Edit Bool := do
  match ← objectOf? e with
  | some (_, .map ..) => return true
  | _ => holds e "values"

def emptyEnumIssues (e : Cell) : Edit (List Issue) := do
  if ← hasValues e then return [] else return [(Finding.emptyEnum (← wordsIn e "name")).issue]

/-- The values of an enum; a mapping has some, which cannot be listed. -/
def valuesOf (e : Cell) : Edit (List Cell) := do
  match ← objectOf? e with
  | some (_, .map ..) => throw .wrongType
  | _ => elementsIn e "values"

def enumFieldIssues (root model field : Cell) : Edit (List Issue) := do
  if !(← isOfKind field .enum) then return []
  let m ← wordsIn model "name"
  let f ← wordsIn field "name"
  let type ← stored field "type"
  match ← enumNamed? root type with
  | none => return [(Finding.unknownEnum m f (wordsOf type)).issue]
  | some e =>
    match ← stored field "default" with
    | .leaf (.text value) =>
      if (← valuesOf e).any (isText · value) then return []
      else return [(Finding.invalidEnumDefault m f (← wordsIn e "name") value).issue]
    | _ => return []

def enumIssues (root : Cell) : Edit (List Issue) := do
  let empty ← (← elementsIn root "enums").flatMapM emptyEnumIssues
  let fields ← forFields root (enumFieldIssues root)
  return empty ++ fields

def kindIssues (model field : Cell) : Edit (List Issue) := do
  if !(← isOfKind field .unsupported) then return []
  let m ← wordsIn model "name"
  let f ← wordsIn field "name"
  return [(Finding.unsupportedFieldKind m f (← wordsIn field "type")).issue]

def functionIssues (model field : Cell) : Edit (List Issue) := do
  match (← functionName? (← stored field "default")).filter (!isKnownFunction ·) with
  | some name =>
    let m ← wordsIn model "name"
    let f ← wordsIn field "name"
    return [(Finding.unknownDefaultFunction m f name).issue]
  | none => return []

def issuesOf (root : Cell) : Check → Edit (List Issue)
  | .selfRelations => forFields root selfRelationIssues
  | .circularDependencies => circularIssues root
  | .namingCollisions => collisionIssues root
  | .keys => do (← elementsIn root "models").flatMapM keyIssues
  | .relations => forFields root (relationIssues root)
  | .enums => enumIssues root
  | .fieldKinds => forFields root kindIssues
  | .defaultFunctions => forFields root functionIssues

def report (root : Cell) (checks : List Check) : Edit Report := do
  return ⟨← checks.flatMapM (issuesOf root)⟩

end EntitySchema.Live
