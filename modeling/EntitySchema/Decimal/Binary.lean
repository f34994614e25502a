/-!
# Binary floating point, exactly

A finite double is a signed integer times a power of two. Everything that has to be exact about
floats, their order among the integers and their decimal text, is computed from that integer and
that exponent.
-/

set_option autoImplicit false

namespace EntitySchema.Decimal

/-- The magnitude of a finite double: `significand` times two to the `exponent`. -/
structure Binary where
  negative : Bool
  significand : Nat
  exponent : Int
  deriving DecidableEq, Repr

inductive Class where
  | finite (b : Binary)
  | infinite (negative : Bool)
  | notANumber
  deriving DecidableEq, Repr

def Class.ofBits (bits : UInt64) : Class :=
  let n := bits.toNat
  let negative := decide (Nat.pow 2 63 ≤ n)
  let field : Nat := n / Nat.pow 2 52 % Nat.pow 2 11
  let fraction : Nat := n % Nat.pow 2 52
  if field = 2047 then
    if fraction = 0 then .infinite negative else .notANumber
  else if field = 0 then .finite ⟨negative, fraction, -1074⟩
  else .finite ⟨negative, Nat.pow 2 52 + fraction, (field : Int) - 1075⟩

def Class.ofFloat (x : Float) : Class := Class.ofBits x.toBits

namespace Binary

def signed (b : Binary) : Int := if b.negative then -(b.significand : Int) else b.significand

def compareScaled (m : Int) (e : Int) (m' : Int) (e' : Int) : Ordering :=
  let low := min e e'
  compare (m * Int.pow 2 (e - low).toNat) (m' * Int.pow 2 (e' - low).toNat)

def compareTo (a b : Binary) : Ordering := compareScaled a.signed a.exponent b.signed b.exponent

def compareInt (a : Binary) (n : Int) : Ordering := compareScaled a.signed a.exponent n 0

end Binary

inductive Number where
  | int (n : Int)
  | binary (b : Binary)
  | infinite (negative : Bool)
  | notANumber

namespace Number

def ofFloat (x : Float) : Number :=
  match Class.ofFloat x with
  | .finite b => .binary b
  | .infinite s => .infinite s
  | .notANumber => .notANumber

/-- Order of two numbers; there is none beside a value that is not a number. -/
def compare? : Number → Number → Option Ordering
  | .notANumber, _ => none
  | _, .notANumber => none
  | .infinite s, .infinite t => some (compare (!s).toNat (!t).toNat)
  | .infinite s, _ => some (if s then .lt else .gt)
  | _, .infinite s => some (if s then .gt else .lt)
  | .int m, .int n => some (compare m n)
  | .int m, .binary b => some (b.compareInt m).swap
  | .binary b, .int n => some (b.compareInt n)
  | .binary a, .binary b => some (a.compareTo b)

def lt (a b : Number) : Bool := a.compare? b == some .lt

def eq (a b : Number) : Bool := a.compare? b == some .eq

end Number

end EntitySchema.Decimal
