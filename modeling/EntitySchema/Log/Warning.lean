import EntitySchema.Value.Preview

/-!
# Warnings

What is dropped or flagged while a document is read. A warning is a cause; `message` gives its words.
-/

set_option autoImplicit false

namespace EntitySchema

inductive Warning where
  | sectionNotASequence (name : String) (value : Value)
  | invalidEnum (node : Value)
  | duplicateEnum (name : String)
  | repeatedEnumValue (enumName value : String)
  | invalidModel (node : Value)
  | duplicateModel (name : String)
  | invalidField (model : String) (node : Value)
  | duplicateField (model name : String)
  | unsupportedKind (owner kind : String)
  /-- A default that is a mapping without a function name. -/
  | malformedDefault (owner : String) (value : Value)
  /-- A default of a kind that no field can have. -/
  | unsupportedDefault (owner : String) (value : Value)

namespace Warning

def message : Warning → String
  | sectionNotASequence name value =>
    "Expected '" ++ name ++ "' to be a list; ignoring " ++ value.preview
  | invalidEnum node => "Skipping invalid enum node: " ++ node.preview
  | duplicateEnum name => "Skipping duplicate enum '" ++ name ++ "'."
  | repeatedEnumValue enumName value =>
    "Enum '" ++ enumName ++ "' declares value '" ++ value ++ "' more than once; keeping the first."
  | invalidModel node => "Skipping invalid model node: " ++ node.preview
  | duplicateModel name => "Skipping duplicate model '" ++ name ++ "'."
  | invalidField model node =>
    "Skipping invalid field node on model '" ++ model ++ "': " ++ node.preview
  | duplicateField model name => "Skipping duplicate field '" ++ model ++ "." ++ name ++ "'."
  | unsupportedKind owner kind => "Field '" ++ owner ++ "' has unsupported kind '" ++ kind ++ "'."
  | malformedDefault owner value =>
    "Ignoring malformed default on '" ++ owner ++ "': " ++ value.preview
  | unsupportedDefault owner value =>
    "Ignoring unsupported default on '" ++ owner ++ "': " ++ value.preview

end Warning

end EntitySchema
