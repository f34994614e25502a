import Mathlib.Data.List.Basic
import EntitySchema.Proofs.Settings

/-!
# Runs that fail on errors

Whether errors are failures is one setting among others. A run that treats them as failures does
everything that the lenient run does and only then looks at the report: if it holds no error both runs
end alike, else the strict run logs the first error and is rejected with the report of the lenient one.
The first error is the same one wherever it is looked for: among the issues, among the messages of the
errors, and in the words of the rejection.
-/

set_option autoImplicit false

namespace EntitySchema

namespace Report

/-- An error with no error in front of it, and the one that every question for the first error gives. -/
structure IsFirstError (r : Report) (first : Issue) : Prop where
  isError : first.isError = true
  split : ∃ before after, r.issues = before ++ first :: after ∧ ∀ i ∈ before, i.isError = false
  found : r.firstError? = some first
  listed : r.errors.head? = some first.message
  told : r.failureMessage = "Schema validation failed with " ++ toString r.errorCount
    ++ " error(s); first: " ++ first.message

theorem isFirstError {r : Report} {first : Issue} (h : r.firstError? = some first) :
    r.IsFirstError first where
  isError := List.find?_some h
  split := by
    obtain ⟨-, before, after, hissues, hbefore⟩ := List.find?_eq_some_iff_append.mp h
    exact ⟨before, after, hissues, fun i hi => by simpa using hbefore i hi⟩
  found := h
  listed := by rw [head?_errors, h, Option.map_some]
  told := by
    unfold failureMessage
    rw [h]
    rfl

end Report

namespace Options

def failOnErrors (b : Bool) : String × Setting := ("throw_on_error", .value (.bool b))

def withThrowOnError (b : Bool) (o : Options) : Options := { o with throwOnError := b }

/-- Given last, the setting decides what it is about and nothing else. -/
theorem ofSettings_failOnErrors (settings : Settings) (b : Bool) :
    ofSettings (settings ++ [failOnErrors b]) =
      (ofSettings (settings ++ [failOnErrors false])).map (withThrowOnError b) := by
  have hsink : ∀ c, resolve (settings ++ [failOnErrors c]) "logger" Setting.sink? none =
      resolve settings "logger" Setting.sink? none :=
    fun c => resolve_concat_of_ne settings (by decide) _ _ _
  have hfreeze : ∀ c, resolve (settings ++ [failOnErrors c]) "freeze" Setting.bool? true =
      resolve settings "freeze" Setting.bool? true :=
    fun c => resolve_concat_of_ne settings (by decide) _ _ _
  have hthrow : ∀ c, resolve (settings ++ [failOnErrors c]) "throw_on_error" Setting.bool? false =
      some c :=
    fun c => resolve_concat_self settings _ _ _ _
  have hnames : ∀ c, (settings ++ [failOnErrors c]).map (·.1) =
      settings.map (·.1) ++ ["throw_on_error"] :=
    fun c => List.map_append
  unfold ofSettings
  dsimp only
  rw [hsink, hsink, hfreeze, hfreeze, hthrow, hthrow, hnames, hnames]
  generalize resolve settings "logger" Setting.sink? none = sink
  generalize resolve settings "freeze" Setting.bool? true = freeze
  generalize (settings.map (·.1) ++ ["throw_on_error"]).filter _ = unknown
  cases sink <;> cases freeze <;> cases unknown <;> rfl

theorem override_failOnErrors (base : Option Options) (overrides : Settings) (b : Bool) :
    override base (overrides ++ [failOnErrors b]) =
      (override base (overrides ++ [failOnErrors false])).map (withThrowOnError b) := by
  rw [override_concat, override_concat, ofSettings_failOnErrors]

theorem throwOnError_of_failOnErrors {base : Option Options} {overrides : Settings} {b : Bool}
    {o : Options} (h : override base (overrides ++ [failOnErrors b]) = .ok o) :
    o.throwOnError = b := by
  rw [override_failOnErrors] at h
  cases hlenient : override base (overrides ++ [failOnErrors false]) with
  | error names =>
    rw [hlenient] at h
    cases h
  | ok lenient =>
    rw [hlenient] at h
    cases h
    rfl

end Options

/-- What becomes of a lenient run if errors are failures: a run that was refused and a run without
errors stay as they are, and any other is rejected behind one more log entry. -/
inductive Outcome.FailsOnErrors (lenient strict : Outcome) : Prop
  | refused (e : CompileError) (hr : lenient.result = .error e) (he : ∀ r, e ≠ .rejected r)
      (same : strict = lenient)
  | accepted (c : Compiled) (hr : lenient.result = .ok c) (hc : c.report.hasErrors = false)
      (same : strict = lenient)
  | rejected (c : Compiled) (first : Issue) (hr : lenient.result = .ok c)
      (hfirst : c.report.IsFirstError first)
      (hstrict : strict = ⟨lenient.sink, lenient.log ++ [⟨.error, first.message⟩],
        .error (.rejected c.report)⟩)

theorem failsOnErrors_compileDataModel {o : Options} (ho : o.throwOnError = false)
    (dataModel : Value) :
    (compileDataModel o dataModel).FailsOnErrors
      (compileDataModel (o.withThrowOnError true) dataModel) := by
  have hlenient : compileDataModel o dataModel =
      ⟨o.sink, (readSchema o.freeze dataModel).warnings.map (·.entry),
        .ok ⟨(readSchema o.freeze dataModel).value,
          (readSchema o.freeze dataModel).value.validate⟩⟩ := by
    rw [compileDataModel, ho]
  have hstrict : (o.withThrowOnError true).throwOnError = true := rfl
  cases hfirst : (readSchema o.freeze dataModel).value.validate.firstError? with
  | none =>
    refine .accepted ⟨_, _⟩ (congrArg Outcome.result hlenient) ?_ ?_
    · rw [Report.hasErrors_eq_isSome, hfirst, Option.isSome_none]
    · rw [hlenient, compileDataModel, hstrict]
      dsimp only [Options.withThrowOnError]
      rw [hfirst]
  | some first =>
    refine .rejected ⟨_, _⟩ first (congrArg Outcome.result hlenient) (Report.isFirstError hfirst) ?_
    rw [hlenient, compileDataModel, hstrict]
    dsimp only [Options.withThrowOnError]
    rw [hfirst]

theorem failsOnErrors_compile (document : Value) (base : Option Options)
    (overrides : Options.Settings) :
    (compile document base (overrides ++ [Options.failOnErrors false])).FailsOnErrors
      (compile document base (overrides ++ [Options.failOnErrors true])) := by
  unfold compile
  cases document.dataModel? with
  | none => exact .refused _ rfl nofun rfl
  | some dataModel =>
    dsimp only
    rw [Options.override_failOnErrors base overrides true]
    cases hlenient : Options.override base (overrides ++ [Options.failOnErrors false]) with
    | error names => exact .refused _ rfl nofun rfl
    | ok o =>
      exact failsOnErrors_compileDataModel (Options.throwOnError_of_failOnErrors hlenient) dataModel

/-- A run under the setting that errors are failures is the run under the opposite setting, rejected
if its report holds an error. -/
theorem Outcome.strict_run_follows_lenient (document : Value) (options : Option Options.Settings)
    (overrides : Options.Settings) :
    (compileWith document options (overrides ++ [Options.failOnErrors false])).FailsOnErrors
      (compileWith document options (overrides ++ [Options.failOnErrors true])) := by
  unfold compileWith
  cases options with
  | none => exact failsOnErrors_compile document none overrides
  | some settings =>
    dsimp only
    cases Options.ofSettings settings with
    | error names => exact .refused _ rfl nofun rfl
    | ok o => exact failsOnErrors_compile document (some o) overrides

end EntitySchema
