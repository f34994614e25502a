import EntitySchema.Naming.Case
import EntitySchema.Text.LetterCase

/-!
# Plurals and route segments

The English plural of a name, good enough for routes and collections: a few irregular nouns, then the
ending decides. Endings are looked up in the lower-cased name and cut from the name as it is.
-/

set_option autoImplicit false

namespace EntitySchema.Naming

def irregularPlurals : List (List Char × List Char) :=
  [("person", "people"), ("child", "children"), ("man", "men"), ("woman", "women"),
    ("mouse", "mice"), ("datum", "data"), ("index", "indices"), ("matrix", "matrices"),
    ("vertex", "vertices"), ("axis", "axes"), ("analysis", "analyses"), ("status", "statuses"),
    ("address", "addresses")].map fun p => (p.1.toList, p.2.toList)

def isVowel (c : Char) : Bool := ['a', 'e', 'i', 'o', 'u'].contains c

def regularPlural (name lower : List Char) : List Char :=
  match lower.reverse with
  | 's' :: 's' :: _ => name ++ ['e', 's']
  | 's' :: _ => name
  | 'h' :: 's' :: _ => name ++ ['e', 's']
  | 'h' :: 'c' :: _ => name ++ ['e', 's']
  | 'x' :: _ => name ++ ['e', 's']
  | 'z' :: _ => name ++ ['e', 's']
  | 'y' :: before :: _ =>
    if 1 < name.length && !isVowel before then name.dropLast ++ ['i', 'e', 's'] else name ++ ['s']
  | 'e' :: 'f' :: _ => name.dropLast.dropLast ++ ['v', 'e', 's']
  | 'f' :: _ => name.dropLast ++ ['v', 'e', 's']
  | _ => name ++ ['s']

/-- The plural of a name. An irregular plural is capitalized if the name is. The lower-cased names of
the table are ASCII, so there the ASCII test for a capital is enough. -/
def plural (name : List Char) : List Char :=
  if name.isEmpty then []
  else
    let lower := Text.lower name
    match irregularPlurals.lookup lower with
    | some p => if name.head?.any Char.isUpper then capitalized p else p
    | none => regularPlural name lower

end EntitySchema.Naming

namespace EntitySchema

def pluralOf (s : String) : String := String.ofList (Naming.plural s.toList)

def routeSegment (s : String) : String := kebabCase (pluralOf s)

end EntitySchema
