import EntitySchema.Field.Default
import EntitySchema.Schema.Basic
import EntitySchema.Validation.Finding

/-!
# Enums, kinds and default functions

An enum has values, an enum field names a declared enum, and the default of an enum field is one of
its values. Fields of an unsupported kind and default functions that nobody knows are pointed out.
-/

set_option autoImplicit false

namespace EntitySchema

namespace Schema

def enumFieldFindings (s : Schema) (model : String) (f : Field) : List Finding :=
  match s.enum? f.typeName with
  | none => [.unknownEnum model f.name f.typeName]
  | some e =>
    match f.defaultValue with
    | .text value =>
      if e.values.items.contains value then [] else [.invalidEnumDefault model f.name e.name value]
    | _ => []

def enumFindings (s : Schema) : List Finding :=
  ((s.enums.items.filter (·.values.isEmpty)).map fun e => .emptyEnum e.name)
    ++ s.models.items.flatMap fun m =>
      (m.fields.items.filter (·.kind == .enum)).flatMap (s.enumFieldFindings m.name)

def kindFindings (s : Schema) : List Finding :=
  s.models.items.flatMap fun m =>
    (m.fields.items.filter (·.kind == .unsupported)).map fun f =>
      .unsupportedFieldKind m.name f.name f.typeName

def unknownFunction? (f : Field) : Option String :=
  f.defaultValue.functionName?.filter (!isKnownFunction ·)

def functionFindings (s : Schema) : List Finding :=
  s.models.items.flatMap fun m =>
    m.fields.items.filterMap fun f =>
      (unknownFunction? f).map fun name => .unknownDefaultFunction m.name f.name name

end Schema

end EntitySchema
