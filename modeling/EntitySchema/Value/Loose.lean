import EntitySchema.Decimal.Numeral
import EntitySchema.Value.Basic

/-!
# Loose readings

What a caller may write for a truth value, a text, or a list of names when attributes and options are
set from outside. A reading either finds the one thing that is clearly meant or refuses.
-/

set_option autoImplicit false

namespace EntitySchema.Value

def falseWords : List String := ["0", "off", "f", "false", "n", "no"]

def trueWords : List String := ["1", "on", "t", "true", "y", "yes"]

/-- A truth value from a word, case ignored. The words are ASCII, so lowering ASCII is enough. -/
def boolOfWord? (s : String) : Option Bool :=
  let word := String.ofList (s.toList.map Char.toLower)
  if falseWords.contains word then some false
  else if trueWords.contains word then some true
  else none

def textOfBytes? (bs : List UInt8) : Option String := String.fromUTF8? ⟨bs.toArray⟩

def looseText? : Value → Option String
  | .text s => some s
  | .bytes bs => textOfBytes? bs
  | _ => none

def looseBool? : Value → Option Bool
  | .bool b => some b
  | .int n => if n = 0 then some false else if n = 1 then some true else none
  | .float x => if x == 0 then some false else if x == 1 then some true else none
  | .text s => boolOfWord? s
  | .bytes bs => (textOfBytes? bs).bind boolOfWord?
  | _ => none

def isText : Value → Bool
  | .text _ => true
  | _ => false

/-- A sequence of names. Names that had to be decoded from bytes freeze the sequence. -/
def looseNames? : Value → Option (Seq String)
  | .seq frozen items =>
    (items.mapM looseText?).map fun names => ⟨frozen || !items.all isText, names⟩
  | _ => none

/-- The scalar that a text stands for: a truth value, a whole number, a float or the text itself, the
first of these that it can be. -/
def scalarOfText (s : String) : Value :=
  match boolOfWord? s with
  | some b => .bool b
  | none =>
    match Decimal.intOfText? s.toList with
    | some n => .int n
    | none =>
      match Decimal.floatOfText? s.toList with
      | some x => .float x
      | none => .text s

def scalarOfBytes? (bs : List UInt8) : Option Value := (textOfBytes? bs).map scalarOfText

/-- The arguments of a default function: a sequence, or another default function as the frozen
sequence of its named attributes. -/
def looseArgs? : Value → Option (Bool × List Value)
  | .seq frozen items => some (frozen, items)
  | .call _ name argsFrozen args =>
    some (true, [.seq true [.text "name", .text name],
      .seq true [.text "args", .seq argsFrozen args]])
  | _ => none

def callOfAttributes (attributes : List (String × Value)) : Except (List String) Value :=
  let name := (attributes.lookup "name").bind fun v =>
    (looseText? v).filter (!·.isEmpty)
  let args := match attributes.lookup "args" with
    | none => some (false, [])
    | some v => looseArgs? v
  let unknown := (attributes.map (·.1)).filter fun n => n != "name" && n != "args"
  match name, args, unknown with
  | some name, some (frozen, items), [] => .ok (.call false name frozen items)
  | _, _, _ =>
    .error ((if name.isNone then ["name"] else []) ++ (if args.isNone then ["args"] else [])
      ++ unknown)

def namedEntries? (entries : List (Value × Value)) : Option (List (String × Value)) :=
  entries.mapM fun e => e.1.text?.map fun k => (k, e.2)

/-- What an attribute for a default keeps: scalars, sequences and default functions as they are, and
of a mapping the default function that it describes. -/
def looseDefault? : Value → Option Value
  | .map _ entries => do
    let named ← namedEntries? entries
    (callOfAttributes named).toOption
  | .bytes bs => scalarOfBytes? bs
  | v => some v

end EntitySchema.Value
