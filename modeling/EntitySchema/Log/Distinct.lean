import EntitySchema.Log.Logged

/-!
# Reading named nodes

Every section of a document is read the same way: nodes of the wrong shape are skipped, of nodes with
the same name the first is kept, and each skipped node costs one warning.
-/

set_option autoImplicit false

namespace EntitySchema

structure NodeReader (ν α : Type) where
  shape? : Value → Option ν
  nameOf : ν → String
  read : ν → Logged α
  invalid : Value → Warning
  duplicate : String → Warning

namespace NodeReader

variable {ν α : Type}

def readFrom (r : NodeReader ν α) (seen : List String) : List Value → Logged (List α)
  | [] => pure []
  | node :: rest =>
    match r.shape? node with
    | none => do
      Logged.warn (r.invalid node)
      r.readFrom seen rest
    | some content =>
      if seen.contains (r.nameOf content) then do
        Logged.warn (r.duplicate (r.nameOf content))
        r.readFrom seen rest
      else do
        let first ← r.read content
        let others ← r.readFrom (r.nameOf content :: seen) rest
        return first :: others

def readAll (r : NodeReader ν α) (nodes : List Value) : Logged (List α) := r.readFrom [] nodes

def keptFrom (r : NodeReader ν α) (seen : List String) : List Value → List ν
  | [] => []
  | node :: rest =>
    match r.shape? node with
    | none => r.keptFrom seen rest
    | some content =>
      if seen.contains (r.nameOf content) then r.keptFrom seen rest
      else content :: r.keptFrom (r.nameOf content :: seen) rest

theorem value_readFrom (r : NodeReader ν α) (seen : List String) (nodes : List Value) :
    (r.readFrom seen nodes).value = (r.keptFrom seen nodes).map fun n => (r.read n).value := by
  induction nodes generalizing seen with
  | nil => rfl
  | cons node rest ih =>
    simp only [readFrom, keptFrom]
    split
    · simp [ih]
    · split <;> simp [ih]

end NodeReader

end EntitySchema
