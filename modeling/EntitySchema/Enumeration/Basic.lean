import EntitySchema.Log.Distinct
import EntitySchema.Node.Shape
import EntitySchema.Text.Documentation

/-!
# Enums

An enum is a named list of distinct value names. When a declaration repeats a value the first one
stays.
-/

set_option autoImplicit false

namespace EntitySchema

structure EnumType where
  name : String
  values : Seq String
  documentation : Option String
  frozen : Bool

namespace EnumType

instance : Inhabited EnumType := ⟨⟨"", .empty, none, false⟩⟩

def labelOf (name : String) (count : Nat) : String :=
  "<Enum " ++ name ++ " (" ++ toString count ++ " values)>"

def label (e : EnumType) : String := labelOf e.name e.values.length

def distinctValues (enumName : String) (seen : List String) : List String → Logged (List String)
  | [] => pure []
  | value :: rest =>
    if seen.contains value then do
      Logged.warn (.repeatedEnumValue enumName value)
      distinctValues enumName seen rest
    else do
      let others ← distinctValues enumName (value :: seen) rest
      return value :: others

def ofNode (frozen : Bool) (node : EnumNode) : Logged EnumType := do
  let values ← distinctValues node.name [] node.values
  return { name := node.name, values := ⟨frozen, values⟩,
           documentation := sanitizeDocumentation node.documentation, frozen }

def reader (frozen : Bool) : NodeReader EnumNode EnumType where
  shape? := Value.enumNode?
  nameOf := EnumNode.name
  read := ofNode frozen
  invalid := .invalidEnum
  duplicate := .duplicateEnum

def readAll (frozen : Bool) (nodes : List Value) : Logged (List EnumType) :=
  (reader frozen).readAll nodes

end EnumType

end EntitySchema
