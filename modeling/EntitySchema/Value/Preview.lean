import EntitySchema.Value.Json

/-!
# Previews

The text of a value for a message: its sorted JSON, or its readable form where JSON has none, cut
behind a number of characters. A cut preview says how many characters are missing.
-/

set_option autoImplicit false

namespace EntitySchema.Value

def previewLimit : Int := 200

def fullText (v : Value) : String := (json? v).getD (readable v)

/-- The characters before a position; a negative position counts from the end. -/
def takeUpTo (limit : Int) (cs : List Char) : List Char :=
  if 0 ≤ limit then cs.take limit.toNat else cs.take (cs.length - limit.natAbs)

def capped (limit : Int) (text : String) : String :=
  let cs := text.toList
  if limit < cs.length then
    String.ofList (takeUpTo limit cs) ++ "... (" ++ toString ((cs.length : Int) - limit)
      ++ " more chars)"
  else text

def previewTo (limit : Int) (v : Value) : String := capped limit (fullText v)

def preview (v : Value) : String := previewTo previewLimit v

end EntitySchema.Value
