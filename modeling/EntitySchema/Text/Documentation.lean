import EntitySchema.Text.Blank
import EntitySchema.Text.Escape

/-!
# Documentation text

Documentation made safe for a block comment of generated source. Line ends are unified, the text is
escaped with newlines and tabs left raw, and comment terminators are broken everywhere but inside
code fences. Fences come in pairs: a marker without a partner is dropped.
-/

set_option autoImplicit false

namespace EntitySchema.Text

def unifyLineEnds : List Char → List Char
  | '\r' :: '\n' :: rest => '\n' :: unifyLineEnds rest
  | '\r' :: rest => '\n' :: unifyLineEnds rest
  | c :: rest => c :: unifyLineEnds rest
  | [] => []

def fenceMarker : List Char := ['\x60', '\x60', '\x60']

def prependToFirst (c : Char) : List (List Char) → List (List Char)
  | [] => [[c]]
  | segment :: segments => (c :: segment) :: segments

/-- The segments between fence markers, found from the left without overlap. -/
def splitAtFences : List Char → List (List Char)
  | '\x60' :: '\x60' :: '\x60' :: rest => [] :: splitAtFences rest
  | c :: rest => prependToFirst c (splitAtFences rest)
  | [] => [[]]

/-- Joins the last two segments of an even number of segments, which drops the marker between them. -/
def balanceFences (segments : List (List Char)) : List (List Char) :=
  if segments.length % 2 = 0 then
    match segments.reverse with
    | last :: previous :: rest => rest.reverse ++ [previous ++ last]
    | _ => segments
  else segments

def breakTerminators : List Char → List Char
  | [] => []
  | '*' :: '/' :: rest => '*' :: '\\' :: '/' :: breakTerminators rest
  | c :: rest => c :: breakTerminators rest

def breakOutside (outside : Bool) : List (List Char) → List (List Char)
  | [] => []
  | segment :: rest =>
    (if outside then breakTerminators segment else segment) :: breakOutside (!outside) rest

def joinAtFences (segments : List (List Char)) : List Char := fenceMarker.intercalate segments

def isLayout (c : Char) : Bool := c == '\n' || c == '\t'

def fencedDocumentation (cs : List Char) : List Char :=
  let escaped := escapeLeaving isLayout (unifyLineEnds cs)
  joinAtFences (breakOutside true (balanceFences (splitAtFences escaped)))

def documentation? (cs : List Char) : Option (List Char) :=
  if (trim cs).isEmpty then none
  else
    let text := trim (fencedDocumentation cs)
    if text.isEmpty then none else some text

end EntitySchema.Text

namespace EntitySchema

def sanitizeDocumentation (doc : Option String) : Option String :=
  doc.bind fun s => (Text.documentation? s.toList).map String.ofList

end EntitySchema
