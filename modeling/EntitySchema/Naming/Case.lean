import EntitySchema.Naming.Pattern

/-!
# Identifier styles

The styles in which generated code spells a name. Snake case keeps digits attached to the letters
before them; the other styles make every run of digits a word.
-/

set_option autoImplicit false

namespace EntitySchema.Naming

def joinWith (separator : Char) (ws : List (List Char)) : List Char := [separator].intercalate ws

def capitalized : List Char → List Char
  | [] => []
  | c :: cs => c.toUpper :: cs

def lowered (cs : List Char) : List Char := cs.map Char.toLower

def isSeparator (c : Char) : Bool := !c.isAlphanum

def isUnderscore (c : Char) : Bool := c == '_'

/-! Snake case marks the places where a word ends and cleans up. -/

/-- A run of capitals and the word that begins with its last one. -/
def acronymPattern : Pattern := [[.run Char.isUpper, .one Char.isUpper, .one Char.isLower]]

def humpPattern : Pattern := [[.one fun c => c.isLower || c.isDigit, .one Char.isUpper]]

def separatorPattern : Pattern := [[.one isSeparator]]

def underscoresPattern : Pattern := [[.one isUnderscore, .run isUnderscore]]

def outerPattern : Pattern :=
  [[.place fun before _ => before.isNone, .run isUnderscore],
    [.run isUnderscore, .place fun _ left => left.isEmpty]]

def parted : List (List Char) → List Char
  | [] => []
  | piece :: pieces => piece ++ '_' :: pieces.flatten

def snake (cs : List Char) : List Char :=
  let marked := humpPattern.replace parted (acronymPattern.replace parted cs)
  let cleaned := separatorPattern.replace (fun _ => ['_']) marked
  let squeezed := underscoresPattern.replace (fun _ => ['_']) cleaned
  lowered (outerPattern.replace (fun _ => []) squeezed)

/-! The other styles look for words. -/

/-- Where a word of capitals may end: before a capital that a small letter follows, before a digit, and
between a character of a word and one of none. Words are looked for in a text of letters, digits and blanks
only. -/
def endsCapitals (before : Option Char) : List Char → Bool
  | [] => before.any Char.isAlphanum
  | c :: cs => (c.isUpper && cs.head?.any Char.isLower) || c.isDigit ||
      (before.any Char.isAlphanum != c.isAlphanum)

def wordPattern : Pattern :=
  [[.optional Char.isUpper, .run Char.isLower], [.run Char.isUpper, .place endsCapitals],
    [.one Char.isUpper], [.run Char.isDigit]]

def tokens (cs : List Char) : List (List Char) :=
  (wordPattern.findAll (separatorPattern.replace (fun _ => [' ']) cs)).map lowered

def kebab (cs : List Char) : List Char := joinWith '-' (tokens cs)

def camel (cs : List Char) : List Char :=
  match tokens cs with
  | [] => []
  | first :: rest => first ++ rest.flatMap capitalized

end EntitySchema.Naming

namespace EntitySchema

def snakeCase (s : String) : String := String.ofList (Naming.snake s.toList)

def kebabCase (s : String) : String := String.ofList (Naming.kebab s.toList)

def camelCase (s : String) : String := String.ofList (Naming.camel s.toList)

end EntitySchema
