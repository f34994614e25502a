import EntitySchema.Decimal.Layout
import EntitySchema.Text.Quoted
import EntitySchema.Value.Basic

/-!
# The readable form of a value

How a value is written in messages and reports: texts in quotes, lists in square brackets, frozen
sequences in round ones, mappings in braces in entry order, each read-only view named around them. On
its own a text stands without quotes and a mapping without its views.
-/

set_option autoImplicit false

namespace EntitySchema.Value

def boolWord (b : Bool) : String := if b then "True" else "False"

/-- Joins the items of a sequence; a frozen sequence of one item keeps a comma behind it. -/
def bracketed (frozen : Bool) (items : List String) : String :=
  if frozen then
    match items with
    | [item] => "(" ++ item ++ ",)"
    | _ => "(" ++ ", ".intercalate items ++ ")"
  else "[" ++ ", ".intercalate items ++ "]"

/-- Joins the entries of a mapping; every view over it is named around the braces. -/
def braced (entries : List String) : Nat → String
  | 0 => "\x7b" ++ ", ".intercalate entries ++ "\x7d"
  | views + 1 => "mappingproxy(" ++ braced entries views ++ ")"

mutual

def readable : Value → String
  | .null => "None"
  | .bool b => boolWord b
  | .int n => toString n
  | .float x => Decimal.plainLayout.render x
  | .text s => Text.quoted s
  | .bytes bs => Text.quotedBytes bs
  | .seq frozen items => bracketed frozen (readableItems items)
  | .map views entries => braced (readableEntries entries) views
  | .call _ name _ _ => "<FunctionDefault " ++ name ++ "()>"
termination_by structural v => v

def readableItems : List Value → List String
  | [] => []
  | v :: vs => readable v :: readableItems vs
termination_by structural vs => vs

def readableEntries : List (Value × Value) → List String
  | [] => []
  | (k, v) :: es => (readable k ++ ": " ++ readable v) :: readableEntries es
termination_by structural es => es

end

def plainText : Value → String
  | .text s => s
  | .map _ entries => braced (readableEntries entries) 0
  | .call _ name argsFrozen args =>
    "name=" ++ Text.quoted name ++ " args=" ++ bracketed argsFrozen (readableItems args)
  | v => readable v

end EntitySchema.Value
