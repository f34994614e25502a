import EntitySchema.Live.Content
import EntitySchema.Sorting.Insertion

/-!
# Equality and order of live objects

Containers are equal when their contents are, records when they are of one kind and hold the same.
Numbers, texts, bytes and sequences of one sort have an order among their like; for anything else the
comparison fails. Sequences are ordered by the first elements that differ, else by length.
-/

set_option autoImplicit false

namespace EntitySchema.Live

def agreeWithin (same : Cell → Cell → Edit Bool) (held : List (String × Cell)) :
    List (String × Cell) → Edit Bool
  | [] => return true
  | (name, c) :: rest =>
    match held.lookup name with
    | none => return false
    | some d => do
      if ← same c d then agreeWithin same held rest else return false

def entriesAgree (same : Cell → Cell → Edit Bool) (held : List (Value × Cell)) :
    List (Value × Cell) → Edit Bool
  | [] => return true
  | (key, c) :: rest =>
    match entryUnder? key held with
    | none => return false
    | some d => do
      if ← same c d then entriesAgree same held rest else return false

def itemsAgree (same : Cell → Cell → Edit Bool) : List Cell → List Cell → Edit Bool
  | [], [] => return true
  | c :: cs, d :: ds => do
    if ← same c d then itemsAgree same cs ds else return false
  | _, _ => return false

def equalWithin : Nat → Cell → Cell → Edit Bool
  | _, .leaf v, .leaf w => return Value.sameKey v w
  | 0, .ref _, .ref _ => throw .endless
  | depth + 1, .ref i, .ref j => do
    if i = j then return true
    match ← fetch i, ← fetch j with
    | .seq f xs, .seq g ys => if f = g then itemsAgree (equalWithin depth) xs ys else return false
    | .map _ xs, .map _ ys =>
      if xs.length = ys.length then entriesAgree (equalWithin depth) ys xs else return false
    | .record k xs us, .record l ys vs =>
      if k = l ∧ xs.length = ys.length ∧ us.length = vs.length then
        if ← agreeWithin (equalWithin depth) ys xs then agreeWithin (equalWithin depth) vs us
        else return false
      else return false
    | _, _ => return false
  | _, _, _ => return false

def equal (c d : Cell) : Edit Bool := do equalWithin (← depthLimit) c d

def Scalar.before : Value → Value → Edit Bool
  | .text s, .text t => return decide (s < t)
  | .bytes s, .bytes t => return decide (s < t)
  | v, w =>
    match v.number?, w.number? with
    | some a, some b => return a.lt b
    | _, _ => throw .wrongType

def listBefore (before : Cell → Cell → Edit Bool) : List Cell → List Cell → Edit Bool
  | [], ds => return !ds.isEmpty
  | _ :: _, [] => return false
  | c :: cs, d :: ds => do
    if ← equal c d then listBefore before cs ds else before c d

def beforeWithin : Nat → Cell → Cell → Edit Bool
  | _, .leaf v, .leaf w => Scalar.before v w
  | 0, .ref _, .ref _ => throw .endless
  | depth + 1, .ref i, .ref j => do
    match ← fetch i, ← fetch j with
    | .seq f xs, .seq g ys =>
      if f = g then listBefore (beforeWithin depth) xs ys else throw .wrongType
    | _, _ => throw .wrongType
  | _, _, _ => throw .wrongType

def before (c d : Cell) : Edit Bool := do beforeWithin (← depthLimit) c d

def sorted (c : Cell) : Edit (List Cell) := do Sorting.sortM before (← elements c)

def sortsTo (wanted : List Cell) (c : Cell) : Edit Bool := do itemsAgree equal (← sorted c) wanted

end EntitySchema.Live
