import EntitySchema.Text.LetterCase
import EntitySchema.Value.Basic

/-!
# Issues

One diagnostic of a schema: its level, a code, a sentence, and the names it is about.
-/

set_option autoImplicit false

namespace EntitySchema

inductive Level where
  | error
  | warning
  | info
  /-- A level of a caller's own. -/
  | other (name : String)
  deriving DecidableEq, Repr

namespace Level

def word : Level → String
  | error => "error"
  | warning => "warning"
  | info => "info"
  | other name => name

def ofWord (s : String) : Level :=
  if s = "error" then error
  else if s = "warning" then warning
  else if s = "info" then info
  else other s

def heading (l : Level) : String := upperText l.word

theorem word_ofWord (s : String) : (ofWord s).word = s := by
  unfold ofWord
  split
  · next h => exact h.symm
  · split
    · next h => exact h.symm
    · split
      · next h => exact h.symm
      · rfl

end Level

structure Issue where
  level : Level
  code : String
  message : String
  /-- Values under keys, in order. The keys of a finding are names. -/
  context : List (Value × Value)

namespace Issue

def isError (i : Issue) : Bool := i.level == .error

def isWarning (i : Issue) : Bool := i.level == .warning

def isInfo (i : Issue) : Bool := i.level == .info

def label (i : Issue) : String := "[" ++ i.level.heading ++ "] " ++ i.code ++ ": " ++ i.message

end Issue

end EntitySchema
