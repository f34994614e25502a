import EntitySchema.Live.Session
import EntitySchema.Proofs.Frozen.Planting
import EntitySchema.Proofs.Settings
import EntitySchema.Proofs.Thawed.Document

/-!
# Frozen schemas in the hands of callers

The schema that a run on plain data leaves is frozen throughout or open throughout, and so is every
object that callers find from it. A frozen record refuses every change of its attributes, so steps
that make such changes all fail, and the steps after them find the schema as it was.
-/

set_option autoImplicit false

namespace EntitySchema

namespace Live

variable {s : Store}

/-! Refused changes. -/

section Refused

variable {id : Id} {kind : RecordKind} {attributes inner : List (String × Cell)}

end Refused

def Operand.cell (root : Cell) : Operand → Edit Cell
  | path p => resolve root p
  | value v => plant v
  | refused fault => throw fault

/-- A schema whose objects are all frozen, or all open, as far as callers can find them; its lookups
take no change either way. -/
structure Uniform (frozen : Bool) (root : Cell) (store : Store) : Prop where
  isSchema : ∃ id attributes inner, root = .ref id ∧
    store.objects[id]? = some (.record .schema attributes inner)
  reached : ∀ c, Reaches store root c → c.Uniform frozen store
  lookups : ∀ name ∈ ["model_map", "enum_map", "reverse_relation_map"], ∃ id entries,
    (getAttribute root name).run store = .ok (.ref id, store) ∧
      store.objects[id]? = some (.map true entries)

section Run

variable {root : Cell} {store : Store}

end Run

/-! Schemas as they are put in. -/

end Live

end EntitySchema
