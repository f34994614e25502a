import EntitySchema.Text.CaseTable

/-!
# Letter case

Lower and upper case of a whole text. Two rules go beyond the single character: a capital sigma that
ends a word is lowered to the final form, and some characters grow to two or three.
-/

set_option autoImplicit false

namespace EntitySchema.Text

def isCased (c : Char) : Bool := inRanges casedRanges c.toNat

def isCaseIgnorable (c : Char) : Bool := inRanges caseIgnorableRanges c.toNat

/-- Lower-case form of one character; the dotted capital I keeps its dot as a combining mark. -/
def lowerChar (c : Char) : List Char :=
  if c.toNat < 0x80 then [c.toLower]
  else if c.toNat = 0x130 then ['i', '\u0307']
  else match lowerRuns.findSome? (·.image? c.toNat) with
    | some n => [Char.ofNat n]
    | none => [c]

def upperChar (c : Char) : List Char :=
  if c.toNat < 0x80 then [c.toUpper]
  else match upperExpansions.lookup c.toNat with
    | some ns => ns.map Char.ofNat
    | none => match upperRuns.findSome? (·.image? c.toNat) with
      | some n => [Char.ofNat n]
      | none => [c]

def casedNearby (cs : List Char) : Bool :=
  match cs.dropWhile isCaseIgnorable with
  | [] => false
  | c :: _ => isCased c

/-- Lowers a text whose part before it, reversed, is `before`. A capital sigma becomes the final form
when a letter stands before it and none after it. -/
def lowerFrom (before : List Char) : List Char → List Char
  | [] => []
  | c :: rest =>
    (if c = 'Σ' then [if casedNearby before && !casedNearby rest then 'ς' else 'σ'] else lowerChar c)
      ++ lowerFrom (c :: before) rest

def lower (cs : List Char) : List Char := lowerFrom [] cs

def upper (cs : List Char) : List Char := cs.flatMap upperChar

end EntitySchema.Text

namespace EntitySchema

def lowerText (s : String) : String := String.ofList (Text.lower s.toList)

def upperText (s : String) : String := String.ofList (Text.upper s.toList)

end EntitySchema
