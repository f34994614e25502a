import EntitySchema.Validation.Issue

/-!
# Findings

Everything that the checks of a schema can find, as causes. `issue` gives the level, the code, the
words and the named values of a finding.
-/

set_option autoImplicit false

namespace EntitySchema

inductive KeyKind where
  | primary
  | unique
  deriving DecidableEq, Repr

namespace KeyKind

def phrase : KeyKind → String
  | primary => "primary key"
  | unique => "unique constraint"

end KeyKind

inductive Finding where
  | selfRelation (model field : String)
  | requiredSelfRelation (model field : String)
  | circularRelation (cycle : List String)
  | modelNameCollision (first second form derived : String)
  | enumModelNameCollision (enumName model : String)
  | fieldNameCollision (model first second form derived : String)
  | missingPrimaryKey (model : String)
  | multipleIdFields (model : String) (fields : List String)
  | keyFieldNotFound (kind : KeyKind) (model field : String)
  | duplicateKeyField (kind : KeyKind) (model field : String) (count : Nat)
  | emptyUniqueConstraint (model : String)
  | unknownRelationTarget (model field target : String)
  | missingToFields (model field : String)
  | fieldCountMismatch (model field : String) (fromCount toCount : Nat)
  | localFieldNotFound (model field missing : String)
  | referencedFieldNotFound (model field target missing : String)
  | emptyEnum (enumName : String)
  | unknownEnum (model field enumName : String)
  | invalidEnumDefault (model field enumName value : String)
  | unsupportedFieldKind (model field typeName : String)
  | unknownDefaultFunction (model field function : String)
  deriving DecidableEq, Repr

namespace Finding

def level : Finding → Level
  | selfRelation .. => .info
  | requiredSelfRelation .. => .error
  | circularRelation .. => .error
  | modelNameCollision .. => .warning
  | enumModelNameCollision .. => .warning
  | fieldNameCollision .. => .warning
  | missingPrimaryKey .. => .error
  | multipleIdFields .. => .warning
  | keyFieldNotFound .. => .error
  | duplicateKeyField .. => .warning
  | emptyUniqueConstraint .. => .warning
  | unknownRelationTarget .. => .error
  | missingToFields .. => .error
  | fieldCountMismatch .. => .error
  | localFieldNotFound .. => .error
  | referencedFieldNotFound .. => .error
  | emptyEnum .. => .error
  | unknownEnum .. => .error
  | invalidEnumDefault .. => .warning
  | unsupportedFieldKind .. => .warning
  | unknownDefaultFunction .. => .info

def code : Finding → String
  | selfRelation .. => "SELF_RELATION"
  | requiredSelfRelation .. => "REQUIRED_SELF_RELATION"
  | circularRelation .. => "CIRCULAR_RELATION"
  | modelNameCollision .. => "MODEL_NAME_COLLISION"
  | enumModelNameCollision .. => "ENUM_MODEL_NAME_COLLISION"
  | fieldNameCollision .. => "FIELD_NAME_COLLISION"
  | missingPrimaryKey .. => "MISSING_PRIMARY_KEY"
  | multipleIdFields .. => "MULTIPLE_ID_FIELDS"
  | keyFieldNotFound .primary .. => "PK_FIELD_NOT_FOUND"
  | keyFieldNotFound .unique .. => "UNIQUE_FIELD_NOT_FOUND"
  | duplicateKeyField .. => "DUPLICATE_KEY_FIELD"
  | emptyUniqueConstraint .. => "EMPTY_UNIQUE_CONSTRAINT"
  | unknownRelationTarget .. => "UNKNOWN_RELATION_TARGET"
  | missingToFields .. => "MISSING_RELATION_TO_FIELDS"
  | fieldCountMismatch .. => "RELATION_FIELD_COUNT_MISMATCH"
  | localFieldNotFound .. => "RELATION_FIELD_NOT_FOUND"
  | referencedFieldNotFound .. => "RELATION_FIELD_NOT_FOUND"
  | emptyEnum .. => "EMPTY_ENUM"
  | unknownEnum .. => "UNKNOWN_ENUM"
  | invalidEnumDefault .. => "INVALID_ENUM_DEFAULT"
  | unsupportedFieldKind .. => "UNSUPPORTED_FIELD_KIND"
  | unknownDefaultFunction .. => "UNKNOWN_DEFAULT_FUNCTION"

def arrows (cycle : List String) : String := " -> ".intercalate cycle

def message : Finding → String
  | selfRelation m f => "Model '" ++ m ++ "' has self-relation '" ++ m ++ "." ++ f ++ "'."
  | requiredSelfRelation m f =>
    "Self-relation '" ++ m ++ "." ++ f ++ "' is required and owns its foreign key, so the first '"
      ++ m ++ "' row can never be inserted. "
      ++ "Make it optional or add a default to allow a two-step insert."
  | circularRelation cycle =>
    "Circular relationship detected: " ++ arrows cycle
      ++ ". Make at least one relation in the cycle optional so rows can be inserted."
  | modelNameCollision first second form derived =>
    "Models '" ++ first ++ "' and '" ++ second ++ "' both map to " ++ form ++ " identifier '"
      ++ derived ++ "'."
  | enumModelNameCollision e m =>
    "Enum '" ++ e ++ "' and model '" ++ m ++ "' map to the same type name."
  | fieldNameCollision m first second form derived =>
    "Fields '" ++ m ++ "." ++ first ++ "' and '" ++ m ++ "." ++ second ++ "' both map to " ++ form
      ++ " identifier '" ++ derived ++ "'."
  | missingPrimaryKey m => "Model '" ++ m ++ "' has no @id field or @@id composite key."
  | multipleIdFields m fields =>
    "Model '" ++ m ++ "' marks " ++ toString fields.length ++ " fields as @id: "
      ++ ", ".intercalate fields ++ "."
  | keyFieldNotFound kind m f =>
    "Model '" ++ m ++ "' " ++ kind.phrase ++ " references non-existent field '" ++ f ++ "'."
  | duplicateKeyField kind m f count =>
    "Model '" ++ m ++ "' " ++ kind.phrase ++ " lists field '" ++ f ++ "' " ++ toString count
      ++ " times."
  | emptyUniqueConstraint m => "Model '" ++ m ++ "' declares an empty unique constraint."
  | unknownRelationTarget m f target =>
    "Relation '" ++ m ++ "." ++ f ++ "' references unknown model '" ++ target ++ "'."
  | missingToFields m f =>
    "Relation '" ++ m ++ "." ++ f ++ "' has relationFromFields but missing relationToFields."
  | fieldCountMismatch m f fromCount toCount =>
    "Relation '" ++ m ++ "." ++ f ++ "' has mismatched field counts: " ++ toString fromCount
      ++ " local vs " ++ toString toCount ++ " referenced."
  | localFieldNotFound m f missing =>
    "Relation '" ++ m ++ "." ++ f ++ "' uses non-existent local field '" ++ missing ++ "'."
  | referencedFieldNotFound m f target missing =>
    "Relation '" ++ m ++ "." ++ f ++ "' references non-existent field '" ++ target ++ "."
      ++ missing ++ "'."
  | emptyEnum e => "Enum '" ++ e ++ "' has no values."
  | unknownEnum m f e => "Field '" ++ m ++ "." ++ f ++ "' references unknown enum '" ++ e ++ "'."
  | invalidEnumDefault m f e value =>
    "Field '" ++ m ++ "." ++ f ++ "' defaults to '" ++ value ++ "', which is not a value of enum '"
      ++ e ++ "'."
  | unsupportedFieldKind m f _ =>
    "Field '" ++ m ++ "." ++ f ++ "' has an unsupported kind and "
      ++ "is left out of scalar, read and write views."
  | unknownDefaultFunction m f function =>
    "Field '" ++ m ++ "." ++ f ++ "' uses unrecognized default function '" ++ function
      ++ "()'; treating it as database-managed."

def texts (names : List String) : Value := .seq false (names.map .text)

def onModel (m : String) : List (String × Value) := [("model", .text m)]

def onField (m f : String) : List (String × Value) := [("model", .text m), ("field", .text f)]

def context : Finding → List (String × Value)
  | selfRelation m f => onField m f
  | requiredSelfRelation m f => onField m f
  | circularRelation cycle => [("cycle", texts cycle)]
  | modelNameCollision first second form _ =>
    [("models", texts [first, second]), ("form", .text form)]
  | enumModelNameCollision e m => [("enum", .text e), ("model", .text m)]
  | fieldNameCollision m first second form _ =>
    [("model", .text m), ("fields", texts [first, second]), ("form", .text form)]
  | missingPrimaryKey m => onModel m
  | multipleIdFields m _ => onModel m
  | keyFieldNotFound _ m f => onField m f
  | duplicateKeyField _ m f _ => onField m f
  | emptyUniqueConstraint m => onModel m
  | unknownRelationTarget m f _ => onField m f
  | missingToFields m f => onField m f
  | fieldCountMismatch m f _ _ => onField m f
  | localFieldNotFound m f missing => onField m f ++ [("missing", .text missing)]
  | referencedFieldNotFound m f _ missing => onField m f ++ [("missing", .text missing)]
  | emptyEnum e => [("enum", .text e)]
  | unknownEnum m f e => onField m f ++ [("enum", .text e)]
  | invalidEnumDefault m f e _ => onField m f ++ [("enum", .text e)]
  | unsupportedFieldKind m f typeName => onField m f ++ [("type", .text typeName)]
  | unknownDefaultFunction m f function => onField m f ++ [("function", .text function)]

def issue (f : Finding) : Issue :=
  ⟨f.level, f.code, f.message, f.context.map fun c => (.text c.1, c.2)⟩

def isError (f : Finding) : Bool := f.level == .error

theorem isError_issue (f : Finding) : f.issue.isError = f.isError := rfl

end Finding

end EntitySchema
