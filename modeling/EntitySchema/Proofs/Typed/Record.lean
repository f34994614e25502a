import EntitySchema.Proofs.FieldLaws
import EntitySchema.Proofs.Frozen.Record
import EntitySchema.Proofs.Typed.Carried

/-!
# Names and defaults of records

What a schema that is read from plain data has to offer to be put together from records: fields, types,
models, enums and default functions have names, a name of a key is not empty, and a default is neither a
mapping nor bytes.
-/

set_option autoImplicit false

namespace EntitySchema

/-- What a field can keep for a default: a scalar other than bytes, a sequence of plain data, or a
default function that has a name and plain arguments. -/
def Value.IsKept : Value → Prop
  | .map .. => False
  | .bytes _ => False
  | .call _ name _ args => name ≠ "" ∧ PlainItems args
  | v => v.Plain

structure Field.Named (f : Field) : Prop where
  name : f.name ≠ ""
  typeName : f.typeName ≠ ""
  defaultValue : f.defaultValue.IsKept

structure Model.Named (m : Model) : Prop where
  name : m.name ≠ ""
  fields : ∀ f ∈ m.fields.items, f.Named
  reverseRelations : ∀ f ∈ m.reverseRelations.items, f.Named
  keyName : ∀ k ∈ m.primaryKey, ∀ name ∈ k.name, name ≠ ""

structure Schema.Named (s : Schema) : Prop where
  models : ∀ m ∈ s.models.items, m.Named
  enums : ∀ e ∈ s.enums.items, e.name ≠ ""

/-! Copies of plain data. -/

namespace Value

theorem plainEntries_storeAll {pairs : List (Value × Value)} (h : PlainEntries pairs) :
    PlainEntries (storeAll pairs) := by
  have hkept : ∀ e ∈ storeAll pairs, True ∧ e.2.Plain :=
    forall_mem_storeAll (P := fun _ => True) fun p hp => ⟨trivial, plainEntries_iff.mp h p hp⟩
  exact plainEntries_iff.mpr fun e he => (hkept e he).2

mutual

theorem plain_copy (frozen : Bool) : ∀ {v : Value}, v.Plain → (copy frozen v).Plain
  | .seq _ _, h => plainItems_copyItems frozen h
  | .map _ _, h => plainEntries_storeAll (plainEntries_copyEntries frozen h)
  | .call .., h => h.elim
  | .null, _ => trivial
  | .bool _, _ => trivial
  | .int _, _ => trivial
  | .float _, _ => trivial
  | .text _, _ => trivial
  | .bytes _, _ => trivial

theorem plainItems_copyItems (frozen : Bool) : ∀ {vs : List Value}, PlainItems vs →
    PlainItems (copyItems frozen vs)
  | [], _ => trivial
  | _ :: _, h => ⟨plain_copy frozen h.1, plainItems_copyItems frozen h.2⟩

theorem plainEntries_copyEntries (frozen : Bool) : ∀ {es : List (Value × Value)}, PlainEntries es →
    PlainEntries (copyEntries frozen es)
  | [], _ => trivial
  | (_, _) :: _, h => ⟨plain_copy frozen h.1, plainEntries_copyEntries frozen h.2⟩

end

theorem isKept_keptDefault {raw : Value} (h : raw.Plain) (frozen : Bool) (owner : String) :
    (raw.keptDefault frozen owner).value.IsKept := by
  cases raw with
  | map views entries =>
    unfold keptDefault
    dsimp only
    split
    · next node hnode =>
      have hname := ((callNode?_eq_some_iff _ node).mp hnode).name.2
      have hargs : ∀ arg ∈ node.args, (copy frozen arg).Plain := fun arg harg =>
        plain_copy frozen (inherited_plain.args h hnode arg harg)
      exact ⟨hname, plainItems_iff.mpr (List.forall_mem_map.mpr hargs)⟩
    · trivial
  | seq f items => exact plain_copy frozen h
  | _ => trivial

end Value

/-! Records as they are read. -/

theorem Field.named_ofNode {v : Value} (hv : v.Plain) {node : FieldNode}
    (hnode : v.fieldNode? = some node) (frozen : Bool) (model : String) (keyFields : List String) :
    (ofNode frozen model keyFields node).value.Named := by
  have hcarried := (Value.fieldNode?_eq_some_iff v node).mp hnode
  have hdefault := Value.inherited_plain.defaultValue hv hnode
  rw [value_ofNode]
  exact ⟨hcarried.name.2, hcarried.typeName.2, Value.isKept_keptDefault hdefault frozen _⟩

theorem PrimaryKey.name_ne_of_ofNode? {frozen : Bool} {node : KeyNode} {k : PrimaryKey}
    (h : ofNode? frozen node = some k) : ∀ name ∈ k.name, name ≠ "" := by
  unfold ofNode? at h
  split at h
  · cases h
  · cases h
    intro name hname
    have hfilter := (Option.filter_eq_some_iff.mp hname).2
    simpa using hfilter

/-- A model before it has its views. -/
theorem Model.named_ofNode {v : Value} (hv : v.Plain) {node : ModelNode}
    (hnode : v.modelNode? = some node) (frozen : Bool) :
    (ofNode frozen node).value.Named where
  name := ((Value.modelNode?_eq_some_iff v node).mp hnode).name.2
  fields := by
    intro f hf
    obtain ⟨held, hheld, fieldNode, hfield, rfl⟩ := NodeReader.exists_node_of_mem_readAll _ _ hf
    exact Field.named_ofNode (Value.inherited_plain.fields hv hnode held hheld) hfield frozen _ _
  reverseRelations := fun _ hf => absurd hf List.not_mem_nil
  keyName := by
    intro k hk
    obtain ⟨key, -, hkey⟩ := Option.bind_eq_some_iff.mp hk
    exact PrimaryKey.name_ne_of_ofNode? hkey

theorem Schema.named_readSchema {dataModel : Value} (h : dataModel.Plain) (frozen : Bool) :
    (readSchema frozen dataModel).value.Named where
  models := by
    have hread : ∀ m ∈ (Model.readAll frozen (sectionNodes dataModel "models").value).value,
        m.Named ∧ ∀ f ∈ m.fields.items, f.copy frozen = f := by
      intro m hm
      obtain ⟨v, hv, node, hnode, rfl⟩ := NodeReader.exists_node_of_mem_readAll _ _ hm
      have hplain := Value.inherited_plain.sectionNodes h "models" v hv
      exact ⟨Model.named_ofNode hplain hnode frozen,
        (Model.uniformlyRead_ofNode (Value.inherited_plain.fields hplain hnode) frozen).copies⟩
    intro m hm
    have hreverse : ∀ f ∈ m.reverseRelations.items, f.Named := by
      intro f hf
      obtain ⟨declaring, hdeclaring, g, hg, rfl⟩ := exists_copy_of_mem_reverseRelations hm hf
      rw [(hread declaring hdeclaring).2 g hg]
      exact (hread declaring hdeclaring).1.fields g hg
    obtain ⟨read, hmem, rfl⟩ := List.mem_map.mp hm
    have hnamed := (hread read hmem).1
    exact ⟨hnamed.name, hnamed.fields, hreverse, hnamed.keyName⟩
  enums := by
    intro e he
    obtain ⟨v, -, node, hnode, rfl⟩ := NodeReader.exists_node_of_mem_readAll _ _ he
    exact ((Value.enumNode?_eq_some_iff v node).mp hnode).name.2

end EntitySchema
