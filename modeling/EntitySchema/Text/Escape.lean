import EntitySchema.Text.Quoted

/-!
# Escaping for generated source

A text made safe for a quoted literal of generated source: quotes, backslashes, line separators and
control characters are escaped one by one, and then every closing tag of an embedded script or style
sheet is broken by a backslash behind its angle bracket.
-/

set_option autoImplicit false

namespace EntitySchema.Text

def isControl (c : Char) : Bool := decide (c.toNat < 0x20) || decide (c.toNat = 0x7F)

def controlEscape (c : Char) : List Char :=
  if c = '\n' then ['\\', 'n']
  else if c = '\r' then ['\\', 'r']
  else if c = '\t' then ['\\', 't']
  else '\\' :: 'x' :: hexDigits 2 c.toNat

/-- One character of escaped text; `raw` says which control characters stay as they are. -/
def escapeChar (raw : Char → Bool) (c : Char) : List Char :=
  if c = '\\' ∨ c = '"' ∨ c = '\'' then ['\\', c]
  else if c = '\u2028' ∨ c = '\u2029' then '\\' :: 'u' :: hexDigits 4 c.toNat
  else if isControl c && !raw c then controlEscape c
  else [c]

/-- The characters that stand for a letter when case is ignored: both cases, the long s, and the
dotless and the dotted i. -/
def matchesLetter (letter c : Char) : Bool :=
  c == letter || c == letter.toUpper
    || (letter == 's' && c == 'ſ')
    || (letter == 'i' && (c == 'ı' || c == 'İ'))

def beginsWithWord : List Char → List Char → Bool
  | [], _ => true
  | _ :: _, [] => false
  | letter :: word, c :: cs => matchesLetter letter c && beginsWithWord word cs

def embeddedElements : List (List Char) := [['s', 'c', 'r', 'i', 'p', 't'], ['s', 't', 'y', 'l', 'e']]

def closesElement : List Char → Bool
  | '/' :: rest => embeddedElements.any (beginsWithWord · rest)
  | _ => false

def breakClosingTags : List Char → List Char
  | [] => []
  | c :: rest =>
    if c = '<' ∧ closesElement rest then c :: '\\' :: breakClosingTags rest
    else c :: breakClosingTags rest

def escapeLeaving (raw : Char → Bool) (cs : List Char) : List Char :=
  breakClosingTags (cs.flatMap (escapeChar raw))

def escapeLiteral (cs : List Char) : List Char := escapeLeaving (fun _ => false) cs

end EntitySchema.Text

namespace EntitySchema

def escapeText (s : String) : String := String.ofList (Text.escapeLiteral s.toList)

end EntitySchema
