import EntitySchema.Validation.Report

/-!
# Pools of reports

Several reports under names, built up side by side. A step adds an issue to one report or appends a
whole report to another, perhaps to itself, and touches no other report. A name that was never used
stands for the empty report.
-/

set_option autoImplicit false

namespace EntitySchema

structure Pool where
  reports : List (String × Report)

namespace Pool

def empty : Pool := ⟨[]⟩

def get (p : Pool) (name : String) : Report := (p.reports.lookup name).getD Report.empty

def put (p : Pool) (name : String) (r : Report) : Pool := ⟨(name, r) :: p.reports⟩

inductive Step where
  | add (name : String) (issue : Issue)
  | merge (name other : String)

def Step.target : Step → String
  | add name _ => name
  | merge name _ => name

def Step.appended (p : Pool) : Step → List Issue
  | add _ issue => [issue]
  | merge _ other => (p.get other).issues

def apply (p : Pool) : Step → Pool
  | .add name issue => p.put name ((p.get name).add issue)
  | .merge name other => p.put name ((p.get name).merge (p.get other))

def run (p : Pool) (steps : List Step) : Pool := steps.foldl apply p

theorem get_put (p : Pool) (name other : String) (r : Report) :
    (p.put name r).get other = if other = name then r else p.get other := by
  by_cases h : other = name
  · subst h
    simp [get, put]
  · have h' : (other == name) = false := by simpa using h
    simp [get, put, List.lookup_cons, h', h]

/-- What every report holds after a step. -/
theorem issues_get_apply (p : Pool) (s : Step) (name : String) :
    ((p.apply s).get name).issues =
      (p.get name).issues ++ if name = s.target then s.appended p else [] := by
  cases s with
  | add target issue =>
    by_cases h : name = target
    · subst h
      simp [apply, get_put, Step.target, Step.appended]
    · simp [apply, get_put, Step.target, h]
  | merge target other =>
    by_cases h : name = target
    · subst h
      simp [apply, get_put, Step.target, Step.appended]
    · simp [apply, get_put, Step.target, h]

end Pool

end EntitySchema
