import EntitySchema.Decimal.Binary

/-!
# The shortest decimal that reads back

A double stands for every real number nearer to it than to its neighbours. Its shortest decimal is the
one with the fewest digits in that interval, and of several the one nearest to the double. The ends of
the interval belong to it exactly when the significand is even.

The search goes through the decimal grids of one, two, ... seventeen digits; on each grid only the two
points around the double can lie in the interval.
-/

set_option autoImplicit false

namespace EntitySchema.Decimal

/-- The decimal `d₁.d₂d₃... · 10 ^ leading`, its digits written as one integer of `count` digits. -/
structure Digits where
  digits : Nat
  count : Nat
  leading : Int
  deriving DecidableEq, Repr

structure Ratio where
  num : Nat
  den : Nat
  deriving DecidableEq, Repr

namespace Ratio

def ofBinary (m : Nat) (e : Int) : Ratio :=
  if 0 ≤ e then ⟨m * Nat.pow 2 e.toNat, 1⟩ else ⟨m, Nat.pow 2 (-e).toNat⟩

def ofDecimal (m : Nat) (e : Int) : Ratio :=
  if 0 ≤ e then ⟨m * Nat.pow 10 e.toNat, 1⟩ else ⟨m, Nat.pow 10 (-e).toNat⟩

def le (a b : Ratio) : Bool := decide (a.num * b.den ≤ b.num * a.den)

def lt (a b : Ratio) : Bool := decide (a.num * b.den < b.num * a.den)

def quotient (a b : Ratio) : Nat := a.num * b.den / (a.den * b.num)

def distance (a b : Ratio) : Ratio :=
  let x := a.num * b.den
  let y := b.num * a.den
  ⟨if x ≤ y then y - x else x - y, a.den * b.den⟩

end Ratio

def digitCount (n : Nat) : Nat := (Nat.toDigits 10 n).length

def leadingPower (r : Ratio) : Int :=
  let guess := (digitCount r.num : Int) - digitCount r.den
  if (Ratio.ofDecimal 1 guess).le r then guess else guess - 1

/-- The numbers that a reader rounds to one double. -/
structure Interval where
  low : Ratio
  high : Ratio
  closed : Bool

namespace Interval

/-- The interval of `m · 2 ^ e`. At the bottom of a binade the neighbour below is half as far. -/
def ofBinary (m : Nat) (e : Int) : Interval where
  low := Ratio.ofBinary (if m = Nat.pow 2 52 ∧ -1074 < e then 4 * m - 1 else 4 * m - 2) (e - 2)
  high := Ratio.ofBinary (4 * m + 2) (e - 2)
  closed := m % 2 = 0

def contains (i : Interval) (r : Ratio) : Bool :=
  if i.closed then i.low.le r && r.le i.high else i.low.lt r && r.lt i.high

end Interval

/-- The point of one decimal grid that reads back, the nearer one if both neighbours do; of two
equally near the even one. -/
def gridPoint? (i : Interval) (value step : Ratio) : Option Nat :=
  let below := value.quotient step
  let point (k : Nat) : Ratio := ⟨k * step.num, step.den⟩
  match i.contains (point below), i.contains (point (below + 1)) with
  | false, false => none
  | true, false => some below
  | false, true => some (below + 1)
  | true, true =>
    let down := value.distance (point below)
    let up := value.distance (point (below + 1))
    if down.lt up then some below
    else if up.lt down then some (below + 1)
    else some (if below % 2 = 0 then below else below + 1)

def searchGrids (i : Interval) (value : Ratio) (leading : Int) : Nat → Nat → Option Digits
  | 0, _ => none
  | tries + 1, count =>
    match gridPoint? i value (Ratio.ofDecimal 1 (leading - (count : Int) + 1)) with
    | some k =>
      if digitCount k = count + 1 then some ⟨k / 10, count, leading + 1⟩
      else some ⟨k, count, leading⟩
    | none => searchGrids i value leading tries (count + 1)

def shortest (m : Nat) (e : Int) : Digits :=
  let value := Ratio.ofBinary m e
  (searchGrids (Interval.ofBinary m e) value (leadingPower value) 17 1).getD ⟨0, 1, 0⟩

end EntitySchema.Decimal
