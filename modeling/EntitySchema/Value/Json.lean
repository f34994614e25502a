import EntitySchema.Decimal.Layout
import EntitySchema.Sorting.Insertion
import EntitySchema.Text.Quoted
import EntitySchema.Value.Key
import EntitySchema.Value.Readable

/-!
# Sorted JSON text

A value as JSON in ASCII, the entries of every mapping sorted by key. Values that JSON has no form for
are written as the JSON string of their readable form. There is no text if the keys of a mapping have
no common order or cannot be written as JSON strings.
-/

set_option autoImplicit false

namespace EntitySchema.Value

def unitEscape (n : Nat) : List Char := '\\' :: 'u' :: Text.hexDigits 4 n

/-- One character of a JSON string: ASCII text stays, anything else is written in UTF-16 code units. -/
def jsonChar (c : Char) : List Char :=
  if c = '"' then ['\\', '"']
  else if c = '\\' then ['\\', '\\']
  else if c = '\n' then ['\\', 'n']
  else if c = '\r' then ['\\', 'r']
  else if c = '\t' then ['\\', 't']
  else if c = '\x08' then ['\\', 'b']
  else if c = '\x0c' then ['\\', 'f']
  else if 0x20 ≤ c.toNat ∧ c.toNat ≤ 0x7E then [c]
  else if c.toNat < 0x10000 then unitEscape c.toNat
  else
    let n := c.toNat - 0x10000
    unitEscape (0xD800 + n / 0x400) ++ unitEscape (0xDC00 + n % 0x400)

def jsonString (s : String) : String :=
  String.ofList ('"' :: s.toList.flatMap jsonChar ++ ['"'])

def jsonKey? : Value → Option String
  | .text s => some s
  | .float x => some (Decimal.jsonLayout.render x)
  | .bool b => some (if b then "true" else "false")
  | .null => some "null"
  | .int n => some (toString n)
  | _ => none

def keyed? {α β : Type} (read : Value → Option β) (entries : List (Value × α)) :
    Option (List (β × Value × α)) :=
  entries.mapM fun e => (read e.1).map fun k => (k, e)

/-- The entries in the order of their keys, if all keys have a common order: all are texts, or all are
numbers. A number without a place in the order makes the result depend on how numbers are sorted,
which is by insertion. -/
def sortEntries? {α : Type} (entries : List (Value × α)) : Option (List (Value × α)) :=
  match entries with
  | [] => some []
  | [e] => some [e]
  | entries =>
    match keyed? text? entries with
    | some keyed => some ((keyed.mergeSort fun a b => decide (a.1 ≤ b.1)).map (·.2))
    | none =>
      (keyed? number? entries).map fun keyed =>
        (Sorting.sort (fun a b => a.1.lt b.1) keyed).map (·.2)

def jsonObject? (members : List (Value × String)) : Option String := do
  let sorted ← sortEntries? members
  let texts ← sorted.mapM fun m => (jsonKey? m.1).map fun k => jsonString k ++ ": " ++ m.2
  return "\x7b" ++ ", ".intercalate texts ++ "\x7d"

mutual

def json? : Value → Option String
  | .null => some "null"
  | .bool b => some (if b then "true" else "false")
  | .int n => some (toString n)
  | .float x => some (Decimal.jsonLayout.render x)
  | .text s => some (jsonString s)
  | .seq _ items => do
    let texts ← jsonItems? items
    return "[" ++ ", ".intercalate texts ++ "]"
  | .map 0 entries => do
    let members ← jsonMembers? entries
    jsonObject? members
  | .map (views + 1) entries => some (jsonString (readable (.map (views + 1) entries)))
  | .bytes bs => some (jsonString (readable (.bytes bs)))
  | .call f name g args => some (jsonString (readable (.call f name g args)))
termination_by structural v => v

def jsonItems? : List Value → Option (List String)
  | [] => some []
  | v :: vs => do
    let t ← json? v
    let ts ← jsonItems? vs
    return t :: ts
termination_by structural vs => vs

def jsonMembers? : List (Value × Value) → Option (List (Value × String))
  | [] => some []
  | (k, v) :: es => do
    let t ← json? v
    let ts ← jsonMembers? es
    return (k, t) :: ts
termination_by structural es => es

end

end EntitySchema.Value
