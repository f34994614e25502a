import EntitySchema.Validation.Collision
import EntitySchema.Validation.Cycle
import EntitySchema.Validation.Keys
import EntitySchema.Validation.Members
import EntitySchema.Validation.Report
import EntitySchema.Validation.SelfRelation
import EntitySchema.Validation.Targets

/-!
# Checks

The checks of a schema and their fixed order. Validation runs all of them, whatever they find.
-/

set_option autoImplicit false

namespace EntitySchema

inductive Check where
  | selfRelations
  | circularDependencies
  | namingCollisions
  | keys
  | relations
  | enums
  | fieldKinds
  | defaultFunctions
  deriving DecidableEq, Repr

namespace Check

def all : List Check :=
  [selfRelations, circularDependencies, namingCollisions, keys, relations, enums, fieldKinds,
    defaultFunctions]

theorem mem_all (c : Check) : c ∈ all := by cases c <;> simp [all]

end Check

namespace Schema

def findingsOf (s : Schema) : Check → List Finding
  | .selfRelations => s.selfRelationFindings
  | .circularDependencies => s.circularFindings
  | .namingCollisions => s.collisionFindings
  | .keys => s.keyFindings
  | .relations => s.targetFindings
  | .enums => s.enumFindings
  | .fieldKinds => s.kindFindings
  | .defaultFunctions => s.functionFindings

def findings (s : Schema) : List Finding := Check.all.flatMap s.findingsOf

def reportOf (s : Schema) (c : Check) : Report := ⟨(s.findingsOf c).map (·.issue)⟩

def validate (s : Schema) : Report := ⟨s.findings.map (·.issue)⟩

theorem mem_findings {s : Schema} {f : Finding} :
    f ∈ s.findings ↔ ∃ c : Check, f ∈ s.findingsOf c := by
  simp [findings, Check.mem_all]

end Schema

end EntitySchema
