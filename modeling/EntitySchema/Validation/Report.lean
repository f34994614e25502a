import EntitySchema.Validation.Issue
import EntitySchema.Value.Readable

/-!
# Reports

The issues found in a schema, in the order they were found. A report grows by single issues and by
the issues of another report; everything else is read off the list.
-/

set_option autoImplicit false

namespace EntitySchema

structure Report where
  issues : List Issue

namespace Report

def empty : Report := ⟨[]⟩

instance : Inhabited Report := ⟨empty⟩

def add (r : Report) (i : Issue) : Report := ⟨r.issues ++ [i]⟩

def merge (r other : Report) : Report := ⟨r.issues ++ other.issues⟩

@[simp] theorem issues_add (r : Report) (i : Issue) : (r.add i).issues = r.issues ++ [i] := rfl

@[simp] theorem issues_merge (r other : Report) :
    (r.merge other).issues = r.issues ++ other.issues := rfl

def errors (r : Report) : List String := (r.issues.filter (·.isError)).map (·.message)

def warnings (r : Report) : List String := (r.issues.filter (·.isWarning)).map (·.message)

def infos (r : Report) : List String := (r.issues.filter (·.isInfo)).map (·.message)

def firstError? (r : Report) : Option Issue := r.issues.find? (·.isError)

def byCode (r : Report) (code : String) : List Issue := r.issues.filter (·.code == code)

def hasErrors (r : Report) : Bool := r.issues.any (·.isError)

def hasWarnings (r : Report) : Bool := r.issues.any (·.isWarning)

def errorCount (r : Report) : Nat := r.issues.countP (·.isError)

def warningCount (r : Report) : Nat := r.issues.countP (·.isWarning)

def infoCount (r : Report) : Nat := r.issues.countP (·.isInfo)

def length (r : Report) : Nat := r.issues.length

def isValid (r : Report) : Bool := !r.hasErrors

def headlines (r : Report) : List String :=
  r.issues.map fun i => i.level.heading ++ ": " ++ i.message

def summary (r : Report) : String :=
  "Validation: " ++ toString r.errorCount ++ " error(s), " ++ toString r.warningCount
    ++ " warning(s), " ++ toString r.infoCount ++ " info(s)."

def label (r : Report) : String := "<ValidationResult " ++ r.summary ++ ">"

def issueLines (i : Issue) : List String :=
  ("  " ++ i.level.heading ++ " [" ++ i.code ++ "] " ++ i.message)
    :: i.context.map fun c => "       " ++ c.1.plainText ++ ": " ++ c.2.plainText

def format (r : Report) (includeInfo : Bool) : String :=
  let shown := r.issues.filter fun i => includeInfo || !i.isInfo
  "\n".intercalate (r.summary :: "" :: shown.flatMap issueLines)

def failureMessage (r : Report) : String :=
  "Schema validation failed with " ++ toString r.errorCount ++ " error(s); first: "
    ++ ((r.firstError?.map (·.message)).getD "unknown error")

theorem hasErrors_eq_isSome (r : Report) : r.hasErrors = r.firstError?.isSome := by
  rw [hasErrors, firstError?, List.isSome_find?]

theorem head?_errors (r : Report) : r.errors.head? = r.firstError?.map (·.message) := by
  rw [errors, firstError?, List.head?_map, List.head?_filter]

theorem byCode_merge (r other : Report) (code : String) :
    (r.merge other).byCode code = r.byCode code ++ other.byCode code := by
  simp [byCode]

end Report

end EntitySchema
