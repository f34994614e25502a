import EntitySchema.Proofs.Frozen.Value
import EntitySchema.Proofs.Relation.ReverseIndex
import EntitySchema.Proofs.WellFormed

/-!
# Uniform records

Fields, models and schemas whose records and containers are all frozen, or all open: keys, views,
reverse relations, defaults, and whatever is found under a name. Reading a document of plain data gives
such a schema, and whether it is frozen is what the options say.
-/

set_option autoImplicit false

namespace EntitySchema

variable {α : Type} {frozen : Bool}

structure Seq.Uniform (frozen : Bool) (ofItem : α → Prop) (s : Seq α) : Prop where
  self : s.frozen = frozen
  items : ∀ a ∈ s.items, ofItem a

def Seq.UniformNames (frozen : Bool) (s : Seq String) : Prop := s.frozen = frozen

structure Field.Uniform (frozen : Bool) (f : Field) : Prop where
  self : f.frozen = frozen
  relationFrom : ∀ names ∈ f.relationFrom, names.UniformNames frozen
  relationTo : ∀ names ∈ f.relationTo, names.UniformNames frozen
  defaultValue : f.defaultValue.Uniform frozen

structure PrimaryKey.Uniform (frozen : Bool) (k : PrimaryKey) : Prop where
  self : k.frozen = frozen
  fields : k.fields.UniformNames frozen

structure EnumType.Uniform (frozen : Bool) (e : EnumType) : Prop where
  self : e.frozen = frozen
  values : e.values.UniformNames frozen

structure Model.Uniform (frozen : Bool) (m : Model) : Prop where
  self : m.frozen = frozen
  fields : m.fields.Uniform frozen (Field.Uniform frozen)
  primaryKey : ∀ k ∈ m.primaryKey, k.Uniform frozen
  uniqueFields : m.uniqueFields.Uniform frozen (Seq.UniformNames frozen)
  scalarFields : m.scalarFields.Uniform frozen (Field.Uniform frozen)
  relationFields : m.relationFields.Uniform frozen (Field.Uniform frozen)
  createFields : m.createFields.Uniform frozen (Field.Uniform frozen)
  updateFields : m.updateFields.Uniform frozen (Field.Uniform frozen)
  readFields : m.readFields.Uniform frozen (Field.Uniform frozen)
  reverseRelations : m.reverseRelations.Uniform frozen (Field.Uniform frozen)
  idField : ∀ f ∈ m.idField, f.Uniform frozen
  field? : ∀ name, ∀ f ∈ m.field? name, f.Uniform frozen

structure Schema.Uniform (frozen : Bool) (s : Schema) : Prop where
  self : s.frozen = frozen
  models : s.models.Uniform frozen (Model.Uniform frozen)
  enums : s.enums.Uniform frozen (EnumType.Uniform frozen)
  model? : ∀ name, ∀ m ∈ s.model? name, m.Uniform frozen
  enum? : ∀ name, ∀ e ∈ s.enum? name, e.Uniform frozen
  reverse? : ∀ name, ∀ fields ∈ s.reverse? name, fields.Uniform frozen (Field.Uniform frozen)

namespace Field

theorem uniform_ofNode {node : FieldNode} (h : node.defaultValue.Plain) (frozen : Bool)
    (model : String) (keyFields : List String) :
    (ofNode frozen model keyFields node).value.Uniform frozen := by
  have hnames : ∀ given : Option (List String), ∀ names ∈ given.map (Seq.mk frozen),
      names.UniformNames frozen := by
    intro given names hmem
    obtain ⟨_, -, rfl⟩ := Option.map_eq_some_iff.mp hmem
    rfl
  rw [value_ofNode]
  exact ⟨rfl, hnames node.relationFrom, hnames node.relationTo, Value.uniform_keptDefault h frozen _⟩

/-- A field that was read is its own copy. -/
theorem copy_ofNode (frozen : Bool) (model : String) (keyFields : List String) (node : FieldNode) :
    (ofNode frozen model keyFields node).value.copy frozen =
      (ofNode frozen model keyFields node).value := by
  have hnames : ∀ names : Option (List String), (names.map (Seq.mk frozen)).map
      (·.withFrozen frozen) = names.map (Seq.mk frozen) := by
    intro names
    cases names <;> rfl
  rw [value_ofNode]
  simp only [copy, ofParts, hnames, Value.copyDefault_keptDefault]

end Field

/-! Models as they are read, and with their views. -/

structure Model.UniformlyRead (frozen : Bool) (m : Model) : Prop where
  fields : ∀ f ∈ m.fields.items, f.Uniform frozen
  copies : ∀ f ∈ m.fields.items, f.copy frozen = f
  primaryKey : ∀ k ∈ m.primaryKey, k.Uniform frozen

namespace Model

theorem uniformlyRead_ofNode {node : ModelNode} (h : ∀ v ∈ node.fields, v.Plain) (frozen : Bool) :
    (ofNode frozen node).value.UniformlyRead frozen where
  fields := by
    intro f hf
    obtain ⟨v, hv, fieldNode, hnode, rfl⟩ := NodeReader.exists_node_of_mem_readAll _ _ hf
    exact Field.uniform_ofNode (Value.inherited_plain.defaultValue (h v hv) hnode) frozen _ _
  copies := by
    intro f hf
    obtain ⟨fieldNode, rfl⟩ := NodeReader.exists_read_of_mem_readAll _ _ hf
    exact Field.copy_ofNode frozen _ _ fieldNode
  primaryKey := by
    intro k hk
    obtain ⟨key, -, hkey⟩ := Option.bind_eq_some_iff.mp hk
    unfold PrimaryKey.ofNode? at hkey
    split at hkey
    · cases hkey
    · cases hkey
      exact ⟨rfl, rfl⟩

end Model

/-! Schemas. -/

end EntitySchema
