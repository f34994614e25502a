/-!
# Words of an identifier

An identifier in any style is a sequence of words. Only ASCII letters and digits belong to words;
any other character separates them. Inside a run of letters and digits a word ends where a cut rule
says so: the rule sees the character before the cut, the one after it and the one after that.
-/

set_option autoImplicit false

namespace EntitySchema.Naming

def isWordChar (c : Char) : Bool := c.isAlphanum

/-- Decides from three characters in a row whether a word ends behind the first. -/
abbrev CutRule := Char → Char → Option Char → Bool

/-- A new word begins at a capital behind a small letter or a digit, and at the last capital of a run
if a small letter follows it. -/
def humpCut : CutRule := fun a b next =>
  (b.isUpper && (a.isLower || a.isDigit)) || (a.isUpper && b.isUpper && next.any Char.isLower)

/-- Like `humpCut`, with digits in words of their own. -/
def tokenCut : CutRule := fun a b next =>
  humpCut a b next || (a.isDigit != b.isDigit)

def extendFirst (c : Char) : List (List Char) → List (List Char)
  | [] => [[c]]
  | word :: words => (c :: word) :: words

def rawWords (cut : CutRule) : List Char → List (List Char)
  | [] => [[]]
  | [c] => if isWordChar c then [[c]] else [[], []]
  | a :: b :: rest =>
    let words := rawWords cut (b :: rest)
    if !isWordChar a then [] :: words
    else if isWordChar b && cut a b rest.head? then [a] :: words
    else extendFirst a words

def words (cut : CutRule) (cs : List Char) : List (List Char) :=
  ((rawWords cut cs).filter (!·.isEmpty)).map (·.map Char.toLower)

end EntitySchema.Naming
