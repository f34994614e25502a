import EntitySchema.Value.Key
import EntitySchema.Value.Readable

/-!
# Copies of values

A copy has containers of its own at every depth, all frozen or all open; one read-only view freezes a
mapping. The keys of a copied mapping are texts; of keys with the same text the last value stays, in the
place of the first.
-/

set_option autoImplicit false

namespace EntitySchema.Value

mutual

def copy (frozen : Bool) : Value → Value
  | .seq _ items => .seq frozen (copyItems frozen items)
  | .map _ entries => .map frozen.toNat (storeAll (copyEntries frozen entries))
  | .null => .null
  | .bool b => .bool b
  | .int n => .int n
  | .float x => .float x
  | .text s => .text s
  | .bytes bs => .bytes bs
  | .call f name g args => .call f name g args
termination_by structural v => v

def copyItems (frozen : Bool) : List Value → List Value
  | [] => []
  | v :: vs => copy frozen v :: copyItems frozen vs
termination_by structural vs => vs

def copyEntries (frozen : Bool) : List (Value × Value) → List (Value × Value)
  | [] => []
  | (k, v) :: es => (.text (plainText k), copy frozen v) :: copyEntries frozen es
termination_by structural es => es

end

theorem copyItems_eq_map (frozen : Bool) (vs : List Value) :
    copyItems frozen vs = vs.map (copy frozen) := by
  induction vs with
  | nil => rfl
  | cons v vs ih => simp [copyItems, ih]

theorem copyEntries_eq_map (frozen : Bool) (es : List (Value × Value)) :
    copyEntries frozen es = es.map fun e => (.text (plainText e.1), copy frozen e.2) := by
  induction es with
  | nil => rfl
  | cons e es ih => obtain ⟨k, v⟩ := e; simp [copyEntries, ih]

end EntitySchema.Value
