import EntitySchema.Decimal.Shortest
import EntitySchema.Text.Blank

/-!
# Numerals

Numbers written as text. A whole number may have a sign, zeros in front, single underscores between
its digits and a fraction of zeros. A float may have a sign, a fraction and an exponent, or be one of
the words for the values without digits; if underscores stand between its characters it is read
without them.
-/

set_option autoImplicit false

namespace EntitySchema.Decimal

def natOfDigits (cs : List Char) : Nat := cs.foldl (fun n c => n * 10 + (c.toNat - 48)) 0

/-- The double nearest to `digits` times ten to the `power`. Powers that no double reaches are decided
before any arithmetic. -/
def nearest (digits : Nat) (power : Int) : Float :=
  let leading := power + (digitCount digits : Int)
  if digits = 0 ∨ leading < -400 then 0.0
  else if 400 < leading then 1.0 / 0.0
  else Float.ofScientific digits (decide (power < 0)) power.natAbs

def digits? (cs : List Char) : Option Nat :=
  if !cs.isEmpty && cs.all Char.isDigit then some (natOfDigits cs) else none

def splitSign : List Char → Bool × List Char
  | '-' :: cs => (true, cs)
  | '+' :: cs => (false, cs)
  | cs => (false, cs)

/-- The text without underscores, if they stand one by one and not at an end. -/
def withoutUnderscores? (cs : List Char) : Option (List Char) :=
  let doubled := (cs.zip (cs.drop 1)).contains ('_', '_')
  if cs.head? == some '_' || cs.getLast? == some '_' || doubled then none
  else some (cs.filter (· != '_'))

def mostDigits : Nat := 4300

/-- What follows the zeros in front; one zero stays if nothing else or a fraction follows. Zeros in
front may be mixed with underscores. -/
def withoutLeadingZeros? : List Char → Option (List Char)
  | '0' :: cs =>
    let skipped := cs.takeWhile fun c => c == '0' || c == '_'
    let endsInZero := (skipped.getLast?.getD '0') == '0'
    match cs.dropWhile fun c => c == '0' || c == '_' with
    | [] => if endsInZero then some ['0'] else none
    | '.' :: fraction => if endsInZero then some ('0' :: '.' :: fraction) else none
    | c :: rest => if c.isDigit then some (c :: rest) else none
  | c :: cs => if c.isDigit then some (c :: cs) else none
  | [] => none

def withoutZeroFraction (cs : List Char) : List Char :=
  match cs.dropWhile (· != '.') with
  | '.' :: fraction =>
    if !fraction.isEmpty && fraction.all (· == '0') then cs.takeWhile (· != '.') else cs
  | _ => cs

def natOfNumeral? (cs : List Char) : Option Nat := do
  let body ← withoutLeadingZeros? cs
  let digits ← withoutUnderscores? (withoutZeroFraction body)
  if mostDigits < digits.length then none else digits? digits

def intOfText? (text : List Char) : Option Int :=
  let (negative, body) := splitSign (Text.trimSpaces text)
  (natOfNumeral? body).map fun n => if negative then -(n : Int) else n

def exponent? : List Char → Option Int
  | [] => some 0
  | c :: cs =>
    if c == 'e' || c == 'E' then
      let (negative, body) := splitSign cs
      (digits? body).map fun n => if negative then -(n : Int) else n
    else none

def magnitudeOfNumeral? (cs : List Char) : Option Float :=
  let word := cs.map Char.toLower
  if word = "inf".toList ∨ word = "infinity".toList then some (1.0 / 0.0)
  else if word = "nan".toList then some (0.0 / 0.0)
  else
    let whole := cs.takeWhile Char.isDigit
    let (fraction, rest) := match cs.dropWhile Char.isDigit with
      | '.' :: after => (after.takeWhile Char.isDigit, after.dropWhile Char.isDigit)
      | after => ([], after)
    if whole.isEmpty && fraction.isEmpty then none
    else (exponent? rest).map fun e => nearest (natOfDigits (whole ++ fraction)) (e - fraction.length)

def floatOfNumeral? (cs : List Char) : Option Float :=
  let (negative, body) := splitSign cs
  (magnitudeOfNumeral? body).map fun x => if negative then -x else x

def floatOfText? (text : List Char) : Option Float :=
  match floatOfNumeral? (Text.trimSpaces text) with
  | some x => some x
  | none => (withoutUnderscores? text).bind floatOfNumeral?

end EntitySchema.Decimal
