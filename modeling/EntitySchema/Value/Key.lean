import EntitySchema.Decimal.Binary
import EntitySchema.Value.Basic

/-!
# Keys of mappings

Which values can be keys, and when two of them are the same key. Numbers are compared by what they
measure, so that the integer one, the float one and the truth value true are one key; everything else is
the same key only if it has the same shape. Storing under a key that is present keeps the place of the
old entry.
-/

set_option autoImplicit false

namespace EntitySchema.Value

/-- The number that a key is compared as; a truth value counts as one or zero. -/
def number? : Value → Option Decimal.Number
  | .bool b => some (.int (if b then 1 else 0))
  | .int n => some (.int n)
  | .float x => some (.ofFloat x)
  | _ => none

def numbersAgree (a : Decimal.Number) (v : Value) : Bool :=
  match v.number? with
  | some b => a.eq b
  | none => false

mutual

def sameKey : Value → Value → Bool
  | .null, v => match v with
    | .null => true
    | _ => false
  | .text s, v => match v with
    | .text t => s == t
    | _ => false
  | .bytes s, v => match v with
    | .bytes t => s == t
    | _ => false
  | .seq f xs, v => match v with
    | .seq g ys => f == g && sameKeys xs ys
    | _ => false
  | .bool b, v => numbersAgree (.int (if b then 1 else 0)) v
  | .int n, v => numbersAgree (.int n) v
  | .float x, v => numbersAgree (.ofFloat x) v
  | _, _ => false
termination_by structural v => v

def sameKeys : List Value → List Value → Bool
  | [], ys => ys.isEmpty
  | x :: xs, ys => match ys with
    | [] => false
    | y :: ys => sameKey x y && sameKeys xs ys
termination_by structural xs => xs

end

mutual

/-- Whether a value can be a key: a scalar, or a frozen sequence of keys. -/
def isKey : Value → Bool
  | .seq frozen items => frozen && areKeys items
  | .map .. => false
  | .call .. => false
  | _ => true
termination_by structural v => v

def areKeys : List Value → Bool
  | [] => true
  | v :: vs => isKey v && areKeys vs
termination_by structural vs => vs

end

/-- Stores a value under a key: in the place of the entry with that key, else at the end. -/
def store (key value : Value) : List (Value × Value) → List (Value × Value)
  | [] => [(key, value)]
  | (k, v) :: rest => if sameKey k key then (k, value) :: rest else (k, v) :: store key value rest

def storeAll (pairs : List (Value × Value)) : List (Value × Value) :=
  pairs.foldl (fun entries p => store p.1 p.2 entries) []

end EntitySchema.Value
