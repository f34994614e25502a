import EntitySchema.Compile.Options
import EntitySchema.Model.Reading
import EntitySchema.Model.Views
import EntitySchema.Relationship.Basic
import EntitySchema.Validation.Check

/-!
# Compiling a document

From a document to a validated schema: enums and models are read, the reverse index is made, every
model gets its views, and the schema is checked. What happens on the way is logged; a run that treats
errors as failures logs the first error last.
-/

set_option autoImplicit false

namespace EntitySchema

inductive LogLevel where
  | warning
  | error
  deriving DecidableEq, Repr

structure LogEntry where
  level : LogLevel
  message : String
  deriving DecidableEq, Repr

inductive CompileError where
  | invalidOptions (names : List String)
  | notAMapping (document : Value)
  | rejected (report : Report)

namespace CompileError

/-- Refused options have no words of their own: they are told by their names. -/
def message? : CompileError → Option String
  | invalidOptions _ => none
  | notAMapping document =>
    some ("DMMF document must be a mapping, got " ++ document.kindName ++ ".")
  | rejected report => some report.failureMessage

end CompileError

structure Compiled where
  schema : Schema
  report : Report

structure Outcome where
  sink : Option Sink
  log : List LogEntry
  result : Except CompileError Compiled

/-- The nodes of a section. An absent section is empty, and so is one that is not a sequence. -/
def sectionNodes (dataModel : Value) (name : String) : Logged (List Value) :=
  match dataModel.get name with
  | .null => pure []
  | .seq _ items => pure items
  | v => do
    Logged.warn (.sectionNotASequence name v)
    return []

def assemble (frozen : Bool) (enums : List EnumType) (models : List Model) : Schema :=
  let index := ReverseIndex.build frozen models
  Schema.build frozen (models.map (·.withViews frozen index)) enums

def readSchema (frozen : Bool) (dataModel : Value) : Logged Schema := do
  let enumNodes ← sectionNodes dataModel "enums"
  let enums ← EnumType.readAll frozen enumNodes
  let modelNodes ← sectionNodes dataModel "models"
  let models ← Model.readAll frozen modelNodes
  return assemble frozen enums models

def Warning.entry (w : Warning) : LogEntry := ⟨.warning, w.message⟩

def compileDataModel (options : Options) (dataModel : Value) : Outcome :=
  let schema := readSchema options.freeze dataModel
  let report := schema.value.validate
  let warnings := schema.warnings.map (·.entry)
  match options.throwOnError, report.firstError? with
  | true, some first =>
    ⟨options.sink, warnings ++ [⟨.error, first.message⟩], .error (.rejected report)⟩
  | _, _ => ⟨options.sink, warnings, .ok ⟨schema.value, report⟩⟩

/-- Compiles a document under options that are already valid and settings that override them. The
shape of the document is looked at before the settings. -/
def compile (document : Value) (base : Option Options) (overrides : Options.Settings) : Outcome :=
  match document.dataModel? with
  | none => ⟨none, [], .error (.notAMapping document)⟩
  | some dataModel =>
    match Options.override base overrides with
    | .error names => ⟨none, [], .error (.invalidOptions names)⟩
    | .ok options => compileDataModel options dataModel

/-- Compiles a document under settings of both kinds. Settings given as options are checked before
anything else. -/
def compileWith (document : Value) (options : Option Options.Settings)
    (overrides : Options.Settings) : Outcome :=
  match options with
  | none => compile document none overrides
  | some settings =>
    match Options.ofSettings settings with
    | .error names => ⟨none, [], .error (.invalidOptions names)⟩
    | .ok o => compile document (some o) overrides

end EntitySchema
