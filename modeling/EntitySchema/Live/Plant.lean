import EntitySchema.Live.Store
import EntitySchema.Schema.Basic

/-!
# Planting a schema

A compiled schema becomes live objects. The views of a model hold the very fields of the model, each
view in a list of its own; its reverse relations are copies; and the lookups of a schema hold the very
models, enums and reverse lists.
-/

set_option autoImplicit false

namespace EntitySchema.Live

def plantOptionalNames : Option (Seq String) → Edit Cell
  | some names => plantNames names
  | none => return .leaf .null

def plantField (f : Field) : Edit Cell := do
  let kept ← plant f.defaultValue
  let fromNames ← plantOptionalNames f.relationFrom
  let toNames ← plantOptionalNames f.relationTo
  allocRef (.record .field
    [("name", .leaf (.text f.name)), ("type", .leaf (.text f.typeName)),
      ("kind", .leaf (.text f.kind.word)), ("is_id", flag f.isId), ("is_list", flag f.isList),
      ("is_required", flag f.isRequired), ("is_unique", flag f.isUnique),
      ("is_nullable", flag f.isNullable), ("is_optional", flag f.isOptional),
      ("is_read_only", flag f.isReadOnly), ("is_updated_at", flag f.isUpdatedAt),
      ("has_default_value", flag f.hasDefaultValue), ("has_db_default", flag f.hasDbDefault),
      ("default", kept),
      ("is_part_of_composite_primary_key", flag f.isPartOfCompositePrimaryKey),
      ("is_self_relation", flag f.isSelfRelation), ("relation_name", optionalText f.relationName),
      ("relation_from_fields", fromNames), ("relation_to_fields", toNames),
      ("documentation", optionalText f.documentation)] (mark f.frozen))

def plantPrimaryKey (k : PrimaryKey) : Edit Cell := do
  let fields ← plantNames k.fields
  allocRef (.record .primaryKey [("name", optionalText k.name), ("fields", fields)] (mark k.frozen))

def plantEnum (e : EnumType) : Edit Cell := do
  let values ← plantNames e.values
  allocRef (.record .enum
    [("name", .leaf (.text e.name)), ("values", values),
      ("documentation", optionalText e.documentation)] (mark e.frozen))

def plantView (planted : List (String × Cell)) (view : Seq Field) : Edit Cell :=
  allocRef (.seq view.frozen (view.items.filterMap fun f => planted.lookup f.name))

def plantLookup (frozen : Bool) (entries : List (String × Cell)) : Edit Cell :=
  allocRef (.map frozen (entries.map fun e => (.text e.1, e.2)))

def plantModel (m : Model) : Edit Cell := do
  let cells ← m.fields.items.mapM plantField
  let planted := m.fieldNames.zip cells
  let fields ← allocRef (.seq m.fields.frozen cells)
  let key ← match m.primaryKey with
    | some k => plantPrimaryKey k
    | none => pure (.leaf .null)
  let groups ← m.uniqueFields.items.mapM plantNames
  let unique ← allocRef (.seq m.uniqueFields.frozen groups)
  let scalar ← plantView planted m.scalarFields
  let relation ← plantView planted m.relationFields
  let create ← plantView planted m.createFields
  let update ← plantView planted m.updateFields
  let read ← plantView planted m.readFields
  let copies ← m.reverseRelations.items.mapM plantField
  let reverse ← allocRef (.seq m.reverseRelations.frozen copies)
  let idField := (m.idField.bind fun f => planted.lookup f.name).getD (.leaf .null)
  let byName ← plantLookup false planted
  allocRef (.record .model
    [("name", .leaf (.text m.name)), ("name_lower", .leaf (.text m.nameLower)),
      ("db_name", optionalText m.dbName), ("documentation", optionalText m.documentation),
      ("fields", fields), ("primary_key", key), ("unique_fields", unique),
      ("scalar_fields", scalar), ("relation_fields", relation), ("create_fields", create),
      ("update_fields", update), ("read_fields", read), ("reverse_relations", reverse),
      ("id_field", idField), ("has_self_relation", flag m.hasSelfRelation),
      ("is_junction_table", flag m.isJunctionTable)]
    (mark m.frozen ++ [("_field_map", byName)]))

def plantSchema (s : Schema) : Edit Cell := do
  let models ← s.models.items.mapM plantModel
  let enums ← s.enums.items.mapM plantEnum
  let modelList ← allocRef (.seq s.models.frozen models)
  let enumList ← allocRef (.seq s.enums.frozen enums)
  let reverse ← models.mapM (stored · "reverse_relations")
  let modelMap ← plantLookup true (s.modelNames.zip models)
  let enumMap ← plantLookup true ((s.enums.items.map (·.name)).zip enums)
  let reverseMap ← plantLookup true (s.modelNames.zip reverse)
  allocRef (.record .schema [("models", modelList), ("enums", enumList)]
    (mark s.frozen
      ++ [("_model_map", modelMap), ("_enum_map", enumMap), ("_reverse_relation_map", reverseMap)]))

end EntitySchema.Live
