import EntitySchema.Proofs.FieldLaws

/-!
# Views of models

What the views of a model hold of its fields. Whether payloads hold a field is decided by a rule with
more reasons than the flags of the field need: for fields that are read from declarations, a field that is
kept out because the database fills it in or because it is an update time is read-only in any case.
Adding the views to a model that has them changes nothing.
-/

set_option autoImplicit false

namespace EntitySchema

/-- The views of a model divide its fields by kind and keep their order; payloads hold the scalar fields
that are neither ids nor read-only. -/
structure Model.ViewsExact (m : Model) : Prop where
  scalar : m.scalarFields.items = m.fields.items.filter fun f => f.kind = .scalar ∨ f.kind = .enum
  relation : m.relationFields.items = m.fields.items.filter fun f => f.kind = .object
  whole : (m.scalarFields.items ++ m.relationFields.items ++
    m.fields.items.filter fun f => f.kind = .unsupported).Perm m.fields.items
  read : m.readFields = m.scalarFields
  create : m.createFields.items = m.scalarFields.items.filter fun f => !f.isId && !f.isReadOnly
  update : m.updateFields = m.createFields
  id : m.idField = m.fields.items.find? (·.isId)

namespace Field

theorem isScalar_eq (f : Field) : f.isScalar = decide (f.kind = .scalar ∨ f.kind = .enum) := by
  unfold isScalar
  cases f.kind <;> rfl

/-- A field that obeys the laws is kept out of payloads for what it is or because it is read-only. -/
theorem Lawful.isWritable_eq {f : Field} (h : f.Lawful) :
    f.isWritable = (f.isScalar && (!f.isId && !f.isReadOnly)) := by
  have hscalar : (f.kind == .scalar || f.kind == .enum) = f.isScalar := by
    unfold isScalar
    cases f.kind <;> rfl
  rw [isWritable, hscalar]
  congr 1
  cases hreadOnly : f.isReadOnly with
  | true => simp
  | false =>
    have hupdated : f.isUpdatedAt = false := by
      rw [← Bool.not_eq_true]
      intro hset
      rw [h.updateTime hset] at hreadOnly
      cases hreadOnly
    have htimestamp : (f.hasDbDefault && timestampFields.contains f.name) = false := by
      rw [← Bool.not_eq_true, Bool.and_eq_true]
      rintro ⟨hdb, hname⟩
      rw [h.generated hdb (.inr (by simpa [timestampFields] using hname))] at hreadOnly
      cases hreadOnly
    rw [hupdated, htimestamp]
    simp

end Field

namespace Model

/-- A field is scalar, a relation, or of no kind that is supported. -/
theorem perm_fields_by_kind (fields : List Field) :
    (fields.filter (·.isScalar) ++ fields.filter (·.isRelation) ++
      fields.filter fun f => f.kind = .unsupported).Perm fields := by
  have hkind : ∀ f : Field, (f.isRelation && !f.isScalar) = f.isRelation ∧
      (!f.isRelation && !f.isScalar) = decide (f.kind = .unsupported) := by
    intro f
    unfold Field.isScalar Field.isRelation
    cases f.kind <;> exact ⟨rfl, rfl⟩
  have hothers := List.filter_append_perm (·.isRelation) (fields.filter fun f => !f.isScalar)
  simp only [List.filter_filter, hkind] at hothers
  rw [List.append_assoc]
  exact (hothers.append_left _).trans (List.filter_append_perm (·.isScalar) fields)

theorem viewsExact_withViews {m : Model} (h : ∀ f ∈ m.fields.items, f.Lawful) (frozen : Bool)
    (index : ReverseIndex) : (m.withViews frozen index).ViewsExact where
  scalar := List.filter_congr fun f _ => f.isScalar_eq
  relation := List.filter_congr fun f _ => by simp [Field.isRelation, beq_eq_decide]
  whole := perm_fields_by_kind m.fields.items
  read := rfl
  create := by
    refine List.filter_congr fun f hf => ?_
    obtain ⟨hdeclared, hscalar⟩ := List.mem_filter.mp hf
    rw [(h f hdeclared).isWritable_eq, hscalar, Bool.true_and]
  update := rfl
  id := rfl

theorem withViews_withViews (m : Model) (frozen : Bool) (index : ReverseIndex) :
    (m.withViews frozen index).withViews frozen index = m.withViews frozen index := by
  have hgroups : (m.uniqueFields.items.map (·.withFrozen frozen)).map (·.withFrozen frozen) =
      m.uniqueFields.items.map (·.withFrozen frozen) := by
    rw [List.map_map]
    rfl
  unfold withViews
  rw [hgroups]

end Model

/-- The models of a compiled schema are those that are read from the document, with views. Whichever
reverse relations they are given, the views of a model that is read divide its fields, and adding the
views once more gives the same model. -/
theorem Compiled.views_divide_fields {document : Value} {options : Option Options.Settings}
    {overrides : Options.Settings} {c : Compiled}
    (h : (compileWith document options overrides).result = .ok c) :
    ∃ o dataModel, Options.resolved options overrides = .ok o ∧ document.dataModel? = some dataModel ∧
      let read := (Model.readAll o.freeze (sectionNodes dataModel "models").value).value
      c.schema.models.items = read.map (·.withViews o.freeze (.build o.freeze read)) ∧
      ∀ m ∈ read, ∀ frozen index, (m.withViews frozen index).ViewsExact ∧
        (m.withViews frozen index).withViews frozen index = m.withViews frozen index := by
  obtain ⟨o, dataModel, ho, hd, hs, -⟩ := compileWith_eq_ok_of_resolved h
  refine ⟨o, dataModel, ho, hd, ?_, fun m hm frozen index => ⟨?_, ?_⟩⟩
  · rw [hs]
    rfl
  · exact Model.viewsExact_withViews (Model.lawful_of_mem_readAll hm) frozen index
  · exact m.withViews_withViews frozen index

/-! Parcels. The database stamps them, and their route is of a kind that is not supported. -/

def parcels : Value :=
  Declaration.document [
    Declaration.model "Parcel" [
      Declaration.field "sender" "Office" "object" [],
      Declaration.field "number" "Int" "scalar" [("isId", .bool true)],
      Declaration.field "route" "Path" "geometry" [],
      Declaration.field "state" "State" "enum" [],
      Declaration.field "code" "String" "scalar" [("isId", .bool true)],
      Declaration.field "createdAt" "DateTime" "scalar"
        [("default", Declaration.members [("name", .text "dbgenerated")])],
      Declaration.field "movedAt" "DateTime" "scalar" [("isUpdatedAt", .bool true)],
      Declaration.field "seal" "String" "scalar" [("isReadOnly", .bool true)],
      Declaration.field "weight" "Int" "scalar" []] [],
    Declaration.model "Office" [Declaration.field "id" "Int" "scalar" [("isId", .bool true)]] []]
    [Declaration.enum "State" ["LYING", "MOVING"]]

theorem Compiled.views_divide_fields_parcels :
    ∃ c, (compileWith parcels none []).result = .ok c ∧ ∃ m ∈ c.schema.models.items,
      m.ViewsExact ∧ m.createFields.items.map (·.name) = ["state", "weight"] ∧
      m.updateFields.items.map (·.name) = ["state", "weight"] ∧ m.idField.map (·.name) = some "number" ∧
      ∃ frozen index, m.withViews frozen index = m := by
  obtain ⟨c, hc, hs⟩ := exists_compiled (rfl : parcels.dataModel? = some parcels)
  obtain ⟨o, dataModel, -, -, hmodels, hviews⟩ := Compiled.views_divide_fields hc
  have hparcel : ∃ m ∈ c.schema.models.items, m.name = "Parcel" ∧
      ((m.fields.items.filter fun f => f.kind = .scalar ∨ f.kind = .enum).filter fun f =>
        !f.isId && !f.isReadOnly).map (·.name) = ["state", "weight"] ∧
      (m.fields.items.find? (·.isId)).map (·.name) = some "number" := by
    rw [hs]
    decide +kernel
  obtain ⟨m, hm, -, hwritten, hid⟩ := hparcel
  obtain ⟨read, hread, hm'⟩ := List.mem_map.mp (hmodels ▸ hm)
  obtain ⟨hexact, hagain⟩ := hviews read hread _ _
  rw [hm'] at hexact hagain
  have hcreate : m.createFields.items.map (·.name) = ["state", "weight"] := by
    rw [hexact.create, hexact.scalar]
    exact hwritten
  refine ⟨c, hc, m, hm, hexact, hcreate, ?_, ?_, _, _, hagain⟩
  · rw [hexact.update, hcreate]
  · rw [hexact.id, hid]

end EntitySchema
