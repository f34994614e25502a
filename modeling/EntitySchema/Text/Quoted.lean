import EntitySchema.Text.Printable

/-!
# Quoted text

The readable form of a text or of a byte string between quotes. A single quote opens and closes it
unless the text holds single quotes and no double quotes. Characters that are not printable are
written by their code.
-/

set_option autoImplicit false

namespace EntitySchema.Text

def hexDigit (n : Nat) : Char := (Nat.digitChar n)

def hexDigits : Nat → Nat → List Char
  | 0, _ => []
  | width + 1, n => hexDigits width (n / 16) ++ [hexDigit (n % 16)]

/-- The quote that encloses a text: the double quote only if it spares an escape. -/
def quoteFor (holdsSingle holdsDouble : Bool) : Char :=
  if holdsSingle && !holdsDouble then '"' else '\''

def codeEscape (n : Nat) : List Char :=
  if n < 0x100 then '\\' :: 'x' :: hexDigits 2 n
  else if n < 0x10000 then '\\' :: 'u' :: hexDigits 4 n
  else '\\' :: 'U' :: hexDigits 8 n

def quotedChar (quote c : Char) : List Char :=
  if c = quote ∨ c = '\\' then ['\\', c]
  else if c = '\n' then ['\\', 'n']
  else if c = '\r' then ['\\', 'r']
  else if c = '\t' then ['\\', 't']
  else if isPrintable c then [c]
  else codeEscape c.toNat

def quoted (s : String) : String :=
  let cs := s.toList
  let q := quoteFor (cs.contains '\'') (cs.contains '"')
  String.ofList (q :: cs.flatMap (quotedChar q) ++ [q])

def quotedByte (quote : Char) (b : UInt8) : List Char :=
  let c := Char.ofNat b.toNat
  if b.toNat < 0x80 then quotedChar quote c else codeEscape b.toNat

def quotedBytes (bs : List UInt8) : String :=
  let q := quoteFor (bs.contains 0x27) (bs.contains 0x22)
  String.ofList ('b' :: q :: bs.flatMap (quotedByte q) ++ [q])

end EntitySchema.Text
