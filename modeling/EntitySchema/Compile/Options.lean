import EntitySchema.Value.Loose

/-!
# Options

How a document is to be compiled: where messages go, whether errors are failures, and whether the
result is frozen. Options are given by name and checked together, so that a refusal names every
option that is wrong or unknown.
-/

set_option autoImplicit false

namespace EntitySchema

structure SinkMethods where
  warning : Bool
  warn : Bool
  error : Bool
  deriving DecidableEq, Repr

/-- A sink for messages, as it is given or adapted. An adapted sink passes each warning to the `warn`
method of the one inside. -/
inductive Sink where
  | direct (methods : SinkMethods)
  | adapted (inner : Sink)
  deriving DecidableEq, Repr

namespace Sink

def methods : Sink → SinkMethods
  | direct m => m
  | adapted _ => { warning := true, warn := false, error := true }

/-- A sink that takes warnings and errors; one with a `warn` method of the older style is adapted. -/
def accept? (s : Sink) : Option Sink :=
  if s.methods.warning && s.methods.error then some s
  else if s.methods.warn && s.methods.error then some (adapted s)
  else none

theorem accept?_accept {s t : Sink} (h : s.accept? = some t) : t.accept? = some t := by
  unfold accept? at h
  split at h
  · next hm => cases h; rw [accept?, if_pos hm]
  · split at h
    · cases h; rfl
    · cases h

end Sink

inductive Setting where
  | value (v : Value)
  | sink (s : Sink)

structure Options where
  sink : Option Sink := none
  throwOnError : Bool := false
  freeze : Bool := true

namespace Setting

def sink? : Setting → Option (Option Sink)
  | sink s => s.accept?.map some
  | value .null => some none
  | value _ => none

def bool? : Setting → Option Bool
  | value v => v.looseBool?
  | sink _ => none

end Setting

namespace Options

/-- Settings by option name; of several with one name the last counts. -/
abbrev Settings := List (String × Setting)

def optionNames : List String := ["logger", "throw_on_error", "freeze"]

/-- The value of an option: `none` if it is set to something it cannot be. -/
def resolve {α : Type} (settings : Settings) (name : String) (read : Setting → Option α)
    (unset : α) : Option α :=
  match settings.reverse.lookup name with
  | none => some unset
  | some s => read s

def ofSettings (settings : Settings) : Except (List String) Options :=
  let sink := resolve settings "logger" Setting.sink? none
  let throwOnError := resolve settings "throw_on_error" Setting.bool? false
  let freeze := resolve settings "freeze" Setting.bool? true
  let unknown := (settings.map (·.1)).filter fun n => !optionNames.contains n
  match sink, throwOnError, freeze, unknown with
  | some sink, some throwOnError, some freeze, [] => .ok { sink, throwOnError, freeze }
  | _, _, _, _ =>
    .error ((if sink.isNone then ["logger"] else [])
      ++ (if throwOnError.isNone then ["throw_on_error"] else [])
      ++ (if freeze.isNone then ["freeze"] else []) ++ unknown)

def settings (o : Options) : Settings :=
  [("logger", match o.sink with
    | some s => .sink s
    | none => .value .null),
    ("throw_on_error", .value (.bool o.throwOnError)), ("freeze", .value (.bool o.freeze))]

/-- Options with overriding settings: what is given without overrides stays as it is. -/
def override (base : Option Options) (overrides : Settings) : Except (List String) Options :=
  match base with
  | none => ofSettings overrides
  | some o => if overrides.isEmpty then .ok o else ofSettings (o.settings ++ overrides)

end Options

end EntitySchema
