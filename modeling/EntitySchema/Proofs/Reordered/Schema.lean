import EntitySchema.Proofs.Counterparts

/-!
# Schemas in another order

Schemas whose models, enums and fields differ in their order only. They are counterparts of each other,
so one is valid if the other is.
-/

set_option autoImplicit false

namespace EntitySchema

/-- Models that differ in the order of their fields, and perhaps in what is derived from it. -/
structure Model.Alike (m m' : Model) : Prop where
  name_eq : m.name = m'.name
  fields_perm : m.fields.items.Perm m'.fields.items
  primaryKey_eq : m.primaryKey = m'.primaryKey
  uniqueFields_eq : m.uniqueFields = m'.uniqueFields

structure Schema.Alike (s s' : Schema) : Prop where
  models : Rearranged Model.Alike s.models.items s'.models.items
  enums : s.enums.items.Perm s'.enums.items

theorem Model.Alike.counterpart {m m' : Model} (h : m.Alike m') : m.Counterpart m' where
  name_eq := h.name_eq
  fields := .of_perm Field.SameKey.refl h.fields_perm
  primaryKey := h.primaryKey_eq ▸ rel_self (fun k => .refl k.fields) m.primaryKey
  uniqueFields := h.uniqueFields_eq ▸ .of_perm Seq.Permuted.refl (.refl _)

namespace Schema.Alike

variable {s s' : Schema}

theorem counterpart (h : s.Alike s') : s.Counterpart s' :=
  ⟨h.models.imp fun _ _ => Model.Alike.counterpart, h.enums⟩

theorem isValid_validate (h : s.Alike s') (hs : s.WellFormed) (hs' : s'.WellFormed) :
    s.validate.isValid = s'.validate.isValid :=
  h.counterpart.isValid_validate hs hs'

end Schema.Alike

end EntitySchema
