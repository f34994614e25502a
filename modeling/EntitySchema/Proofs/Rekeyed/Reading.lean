import EntitySchema.Proofs.Rekeyed.Schema
import EntitySchema.Proofs.Reordered.Document
import EntitySchema.Proofs.Typed.Carried

/-!
# Reading declarations with keys in another order

Declarations of models that differ in the order of names in key lists are accepted or refused together,
and they are read as models that differ in the order of names within their keys. A field knows whether
it is in the composite key of its model and whether it has key names of its own; both are decided by
which names there are.
-/

set_option autoImplicit false

namespace EntitySchema

namespace Value

def MemberReordered (key : String) (v w : Value) : Prop :=
  v = w ∨ v.isMap = true ∧ AgreeOutside [key] v w ∧ ItemsRelated List.Perm (v.get key) (w.get key)

/-- Model declarations that differ in the order of names in the local key lists of relations, in the
primary key, and in unique groups. -/
structure KeysReordered (v w : Value) : Prop where
  outside : AgreeOutside ["fields", "primaryKey", "uniqueFields"] v w
  fields : ItemsRelated (List.Forall₂ (MemberReordered "relationFromFields"))
    (v.get "fields") (w.get "fields")
  primaryKey : MemberReordered "fields" (v.get "primaryKey") (w.get "primaryKey")
  uniqueFields : ItemsRelated (List.Forall₂ (ItemsRelated List.Perm))
    (v.get "uniqueFields") (w.get "uniqueFields")

end Value

def FieldNode.SameKey (n n' : FieldNode) : Prop :=
  ∃ names, n' = { n with relationFrom := names } ∧ Option.Rel List.Perm n.relationFrom names

structure ModelNode.SameKeys (n n' : ModelNode) : Prop where
  name_eq : n.name = n'.name
  fields : List.Forall₂ (Value.MemberReordered "relationFromFields") n.fields n'.fields
  primaryKey : Option.Rel (fun k k' => k.fields.Perm k'.fields) n.primaryKey n'.primaryKey
  uniqueFields : Option.Rel (List.Forall₂ List.Perm) n.uniqueFields n'.uniqueFields

/-! Nodes. -/

namespace Value

variable {v w : Value}

theorem ItemsRelated.refl {r : List Value → List Value → Prop} (v : Value) : ItemsRelated r v v :=
  .inl rfl

theorem ItemsRelated.eq_null_iff {r : List Value → List Value → Prop} (h : ItemsRelated r v w) :
    v = .null ↔ w = .null := by
  rcases h with rfl | ⟨xs, ys, hxs, hys, -⟩
  · exact Iff.rfl
  · refine iff_of_false ?_ ?_ <;> rintro rfl
    · cases hxs
    · cases hys

theorem MemberReordered.eq_null_iff {key : String} (h : MemberReordered key v w) :
    v = .null ↔ w = .null := by
  rcases h with rfl | ⟨hmap, houtside, -⟩
  · exact Iff.rfl
  · refine iff_of_false ?_ ?_ <;> rintro rfl
    · cases hmap
    · cases hmap.symm.trans houtside.isMap_eq

theorem rel_optional {α : Type} {r : α → α → Prop} {read : Value → Option α}
    (hnull : v = .null ↔ w = .null) (h : Option.Rel r (read v) (read w)) :
    Option.Rel (Option.Rel r) (optional read v) (optional read w) := by
  have hread : ∀ {v : Value}, v ≠ .null → optional read v = (read v).map some := by
    intro v hv
    cases v with
    | null => exact absurd rfl hv
    | _ => rfl
  by_cases hv : v = .null
  · rw [hnull.mp hv, hv]
    exact .some .none
  · rw [hread hv, hread (mt hnull.mpr hv)]
    exact rel_map h fun _ _ => .some

theorem exists_mapM_of_perm {α : Type} {read : Value → Option α} {xs ys : List Value}
    (h : xs.Perm ys) : ∀ as ∈ xs.mapM read, ∃ bs ∈ ys.mapM read, as.Perm bs := by
  intro as has
  have hall := (mapM_eq_some_iff fun _ _ => Iff.rfl).mp has
  obtain ⟨bs, hbs, hperm⟩ := List.perm_comp_forall₂ h.symm hall
  exact ⟨bs, (mapM_eq_some_iff fun _ _ => Iff.rfl).mpr hbs, hperm.symm⟩

theorem rel_texts? (h : ItemsRelated List.Perm v w) : Option.Rel List.Perm v.texts? w.texts? :=
  rel_bind (h.rel_items? List.Perm.refl) fun _ _ hperm =>
    rel_of_exists (exists_mapM_of_perm hperm) fun bs hbs => by
      obtain ⟨as, has, hback⟩ := exists_mapM_of_perm hperm.symm bs hbs
      exact ⟨as, has, hback.symm⟩

theorem rel_textGroups? (h : ItemsRelated (List.Forall₂ (ItemsRelated List.Perm)) v w) :
    Option.Rel (List.Forall₂ List.Perm) v.textGroups? w.textGroups? :=
  rel_bind (h.rel_items? fun _ => List.forall₂_same.mpr fun _ _ => .refl _) fun _ _ hgroups =>
    rel_mapM hgroups fun _ _ => rel_texts?

theorem rel_keyNode? (h : MemberReordered "fields" v w) :
    Option.Rel (fun k k' : KeyNode => k.fields.Perm k'.fields) v.keyNode? w.keyNode? := by
  rcases h with rfl | ⟨-, houtside, hfields⟩
  · exact rel_self (fun k => .refl _) v.keyNode?
  · have hget := houtside.symm.get_eq
    unfold keyNode? optionalText
    rw [← houtside.isMap_eq, hget "name" (by decide)]
    refine rel_bind_left _ fun _ => rel_bind_left _ fun name => ?_
    exact rel_bind (rel_texts? hfields) fun _ _ hperm => .some hperm

theorem rel_fieldNode? (h : MemberReordered "relationFromFields" v w) :
    Option.Rel FieldNode.SameKey v.fieldNode? w.fieldNode? := by
  rcases h with rfl | ⟨-, houtside, hnames⟩
  · exact rel_self (fun n => ⟨n.relationFrom, rfl, rel_self .refl _⟩) v.fieldNode?
  · have hget := houtside.symm.get_eq
    have hfrom : Option.Rel (Option.Rel List.Perm) (v.optionalTexts "relationFromFields")
        (w.optionalTexts "relationFromFields") :=
      rel_optional hnames.eq_null_iff (rel_texts? hnames)
    have hto : w.optionalTexts "relationToFields" = v.optionalTexts "relationToFields" := by
      rw [optionalTexts, optionalTexts, hget _ (by decide)]
    unfold fieldNode? optionalBool optionalText
    -- All members but the local key names are read alike.
    rw [← houtside.isMap_eq, hto, hget "name" (by decide), hget "type" (by decide),
      hget "kind" (by decide), hget "isRequired" (by decide), hget "isList" (by decide),
      hget "isId" (by decide), hget "isUnique" (by decide), hget "isReadOnly" (by decide),
      hget "isUpdatedAt" (by decide), hget "hasDefaultValue" (by decide),
      hget "isNullable" (by decide), hget "relationName" (by decide),
      hget "documentation" (by decide), hget "default" (by decide)]
    iterate 12 refine rel_bind_left _ fun _ => ?_
    refine rel_bind hfrom fun names names' hperm => ?_
    iterate 3 refine rel_bind_left _ fun _ => ?_
    exact .some ⟨names', rfl, hperm⟩

theorem KeysReordered.rel_modelNode? (h : v.KeysReordered w) :
    Option.Rel ModelNode.SameKeys v.modelNode? w.modelNode? := by
  have hget := h.outside.symm.get_eq
  have hfields := h.fields.rel_items? fun _ => List.forall₂_same.mpr fun _ _ => .inl rfl
  have hkey := rel_optional h.primaryKey.eq_null_iff (rel_keyNode? h.primaryKey)
  have hgroups := rel_optional h.uniqueFields.eq_null_iff (rel_textGroups? h.uniqueFields)
  unfold modelNode? optionalText
  rw [← h.outside.isMap_eq, hget "name" (by decide), hget "dbName" (by decide),
    hget "documentation" (by decide)]
  refine rel_bind_left _ fun _ => rel_bind_left _ fun name => ?_
  refine rel_bind hfields fun _ _ hfields => rel_bind hkey fun _ _ hkey => ?_
  refine rel_bind hgroups fun _ _ hgroups => ?_
  refine rel_bind_left _ fun dbName => rel_bind_left _ fun documentation => ?_
  exact .some ⟨rfl, hfields, hkey, hgroups⟩

end Value

/-! Fields. -/

theorem FieldNode.SameKey.sameKey_ofNode {n n' : FieldNode} (h : n.SameKey n')
    {keyFields keyFields' : List String} (hkey : keyFields.Perm keyFields') (frozen : Bool)
    (model : String) :
    (Field.ofNode frozen model keyFields n).value.SameKey
      (Field.ofNode frozen model keyFields' n').value := by
  obtain ⟨names, rfl, hnames⟩ := h
  have hperm : (n.relationFrom.getD []).Perm (names.getD []) := rel_getD hnames .nil
  rw [Field.value_ofNode, Field.value_ofNode]
  refine ⟨names.map (⟨frozen, ·⟩), ?_, ?_⟩
  · unfold Field.ofParts
    dsimp only
    rw [hkey.contains_eq, hperm.isEmpty_eq]
  · rw [Field.fromNames_ofParts, Field.fromNames_ofParts]
    exact hperm

theorem Field.forall₂_readAll {nodes nodes' : List Value}
    (h : List.Forall₂ (Value.MemberReordered "relationFromFields") nodes nodes')
    {keyFields keyFields' : List String} (hkey : keyFields.Perm keyFields') (frozen : Bool)
    (model : String) :
    List.Forall₂ Field.SameKey (readAll frozen model keyFields nodes).value
      (readAll frozen model keyFields' nodes').value := by
  have hnodes : List.Forall₂ FieldNode.SameKey (nodes.filterMap Value.fieldNode?)
      (nodes'.filterMap Value.fieldNode?) := by
    refine List.rel_filterMap ?_ h
    exact fun _ _ => Value.rel_fieldNode?
  refine NodeReader.forall₂_readAll hnodes ?_ fun _ _ hsame => hsame.sameKey_ofNode hkey frozen model
  rintro n _ ⟨names, rfl, -⟩
  rfl

/-! Models. -/

theorem Model.forall₂_indexOf {fields fields' : List Field}
    (h : List.Forall₂ Field.SameKey fields fields') :
    List.Forall₂ (SameEntry Field.SameKey) (indexOf fields) (indexOf fields') :=
  List.rel_map (fun _ _ hf => ⟨hf.name_eq, hf⟩) h

theorem isJunction_eq {fields fields' : List Field}
    (h : List.Forall₂ Field.SameKey fields fields') : isJunction fields = isJunction fields' := by
  have hrelations := (forall₂_filter h fun _ _ hf => hf.isRelation_eq).length_eq
  unfold isJunction
  rw [List.countP_eq_length_filter, List.countP_eq_length_filter, hrelations, h.length_eq]

theorem ModelNode.SameKeys.sameKeys_ofNode {n n' : ModelNode} (h : n.SameKeys n') (frozen : Bool) :
    (Model.ofNode frozen n).value.SameKeys (Model.ofNode frozen n').value := by
  have hkey : Option.Rel (fun k k' : PrimaryKey => k.fields.Permuted k'.fields)
      (n.primaryKey.bind (PrimaryKey.ofNode? frozen))
      (n'.primaryKey.bind (PrimaryKey.ofNode? frozen)) := by
    refine rel_bind h.primaryKey fun k k' hperm => ?_
    unfold PrimaryKey.ofNode?
    rw [hperm.isEmpty_eq]
    split
    · exact .none
    · exact .some hperm
  have hkeyFields : Option.Rel List.Perm
      ((n.primaryKey.bind (PrimaryKey.ofNode? frozen)).map (·.fields.items))
      ((n'.primaryKey.bind (PrimaryKey.ofNode? frozen)).map (·.fields.items)) :=
    rel_map hkey fun _ _ hperm => hperm
  have hfields : List.Forall₂ Field.SameKey (Model.ofNode frozen n).value.fields.items
      (Model.ofNode frozen n').value.fields.items := by
    change List.Forall₂ Field.SameKey (Field.readAll frozen n.name _ n.fields).value
      (Field.readAll frozen n'.name _ n'.fields).value
    rw [h.name_eq]
    exact Field.forall₂_readAll h.fields (rel_getD hkeyFields .nil) frozen _
  constructor
  case name_eq => exact h.name_eq
  case isJunctionTable_eq => rfl
  case fields => exact hfields
  case relationFields => exact .nil
  case fieldIndex => exact Model.forall₂_indexOf hfields
  case primaryKey => exact hkey
  case uniqueFields =>
    refine List.rel_map ?_ (rel_getD h.uniqueFields .nil)
    exact fun _ _ hperm => hperm

theorem Model.SameKeys.withViews {m m' : Model} (h : m.SameKeys m') (frozen : Bool)
    (index index' : ReverseIndex) :
    (m.withViews frozen index).SameKeys (m'.withViews frozen index') where
  name_eq := h.name_eq
  isJunctionTable_eq := isJunction_eq h.fields
  fields := h.fields
  relationFields := forall₂_filter h.fields fun _ _ hf => hf.isRelation_eq
  fieldIndex := forall₂_indexOf h.fields
  primaryKey := h.primaryKey
  uniqueFields := by
    refine List.rel_map ?_ h.uniqueFields
    exact fun _ _ hperm => hperm

end EntitySchema
