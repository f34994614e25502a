import EntitySchema.Decimal.Shortest

/-!
# The text of a float

How the shortest digits are laid out: which powers of ten are written positionally, and how an
exponent looks. The choices of one format are gathered in a single record.
-/

set_option autoImplicit false

namespace EntitySchema.Decimal

structure Layout where
  /-- Least power of ten of the leading digit that is written positionally. -/
  positionalFrom : Int
  /-- First power of ten of the leading digit that takes an exponent again. -/
  positionalBelow : Int
  /-- Least number of exponent digits. -/
  exponentWidth : Nat
  infinity : String
  notANumber : String

/-- A number below ten thousandths or from ten to the sixteenth on has an exponent of at least two
digits; every other float shows a decimal point. -/
def plainLayout : Layout := ⟨-4, 16, 2, "inf", "nan"⟩

def jsonLayout : Layout := { plainLayout with infinity := "Infinity", notANumber := "NaN" }

namespace Layout

def exponentText (l : Layout) (e : Int) : String :=
  let digits := toString e.natAbs
  let zeros := String.ofList (List.replicate (l.exponentWidth - digits.length) '0')
  (if e < 0 then "e-" else "e+") ++ zeros ++ digits

/-- Digits without the zeros at the end; at least one digit stays. -/
def significant (digits : List Char) : List Char :=
  match (digits.reverse.dropWhile (· == '0')).reverse with
  | [] => ['0']
  | ds => ds

def positional (digits : List Char) (leading : Int) : List Char :=
  if leading < 0 then '0' :: '.' :: (List.replicate (-leading - 1).toNat '0' ++ digits)
  else
    let whole := leading.toNat + 1
    if digits.length ≤ whole then
      digits ++ List.replicate (whole - digits.length) '0' ++ ['.', '0']
    else digits.take whole ++ '.' :: digits.drop whole

def scientific (l : Layout) (digits : List Char) (leading : Int) : String :=
  let mantissa := match digits with
    | [] => []
    | [d] => [d]
    | d :: ds => d :: '.' :: ds
  String.ofList mantissa ++ l.exponentText leading

def magnitude (l : Layout) (d : Digits) : String :=
  let digits := significant (Nat.toDigits 10 d.digits)
  if l.positionalFrom ≤ d.leading ∧ d.leading < l.positionalBelow then
    String.ofList (positional digits d.leading)
  else l.scientific digits d.leading

def render (l : Layout) (x : Float) : String :=
  match Class.ofFloat x with
  | .notANumber => l.notANumber
  | .infinite negative => (if negative then "-" else "") ++ l.infinity
  | .finite b =>
    (if b.negative then "-" else "") ++
      (if b.significand = 0 then "0.0" else l.magnitude (shortest b.significand b.exponent))

end Layout

end EntitySchema.Decimal
