import EntitySchema.Proofs.Declarations
import EntitySchema.Proofs.FirstDeclarations

/-!
# Unknown functions in write payloads

A default function that nobody knows belongs to the database. That makes a timestamp read-only, and an
id is never written; but no other field is kept out of the payloads for the sake of its default. So a
payload holds a field with an unknown default function just if the declaration of the field gives no
reason of its own against it.
-/

set_option autoImplicit false

namespace EntitySchema

def Field.HasUnknownDefault (f : Field) : Prop :=
  f.hasDefaultValue = true ∧ (Schema.unknownFunction? f).isSome = true

structure FieldNode.IsOrdinaryColumn (node : FieldNode) : Prop where
  kind : node.kind = "scalar" ∨ node.kind = "enum"
  notId : node.isId ≠ some true
  notReadOnly : node.isReadOnly ≠ some true
  notUpdatedAt : node.isUpdatedAt ≠ some true
  notTimestamp : node.name ≠ "createdAt" ∧ node.name ≠ "updatedAt"

/-- The first declaration of a field among those of a model is that of an ordinary column. -/
def ModelNode.DeclaresOrdinaryColumn (node : ModelNode) (name : String) : Prop :=
  ∃ fieldNode, node.fieldNodes.find? (·.name == name) = some fieldNode ∧ fieldNode.IsOrdinaryColumn

namespace Field

theorem isDatabaseDefault_of_hasUnknownDefault {f : Field} (h : f.HasUnknownDefault) :
    f.defaultValue.isDatabaseDefault = true := by
  obtain ⟨name, hname⟩ := Option.isSome_iff_exists.mp h.2
  obtain ⟨hfunction, hunknown⟩ := Option.filter_eq_some_iff.mp hname
  rw [Value.isDatabaseDefault, hfunction, Option.any_some]
  unfold isKnownFunction at hunknown
  simp at hunknown
  simp [hunknown]

/-- With a default from the database, the flags keep a field out for reasons that stand in its
declaration. -/
theorem isWritable_ofParts_iff {frozen : Bool} {model : String} {keyFields : List String}
    {node : FieldNode} {kept : Value}
    (hdefault : (ofParts frozen model keyFields node kept).hasDefaultValue = true)
    (hdatabase : kept.isDatabaseDefault = true) :
    (ofParts frozen model keyFields node kept).isWritable = true ↔ node.IsOrdinaryColumn := by
  have hdb : (ofParts frozen model keyFields node kept).hasDbDefault = true := by
    simp only [ofParts] at hdefault ⊢
    rw [hdefault, hdatabase, Bool.and_self]
  have hflags : (ofParts frozen model keyFields node kept).isWritable = true ↔
      (FieldKind.ofDeclared node.kind = .scalar ∨ FieldKind.ofDeclared node.kind = .enum) ∧
        node.isId.getD false = false ∧ node.isReadOnly.getD false = false ∧
        node.isUpdatedAt.getD false = false ∧ node.name ≠ "createdAt" ∧ node.name ≠ "updatedAt" := by
    simp only [ofParts] at hdb
    simp [isWritable, ofParts, hdb, timestampFields]
    tauto
  have hscalar : FieldKind.ofDeclared node.kind = .scalar ↔ node.kind = "scalar" :=
    FieldKind.ofDeclared_eq_iff (by decide) _
  have henum : FieldKind.ofDeclared node.kind = .enum ↔ node.kind = "enum" :=
    FieldKind.ofDeclared_eq_iff (by decide) _
  rw [hflags, hscalar, henum]
  simp only [not_set_iff]
  constructor
  · rintro ⟨hcolumn, hid, hreadOnly, hupdated, htime⟩
    exact ⟨hcolumn, hid, hreadOnly, hupdated, htime⟩
  · intro h
    exact ⟨h.kind, h.notId, h.notReadOnly, h.notUpdatedAt, h.notTimestamp⟩

/-- A field that payloads may hold has a scalar or an enum type. -/
theorem isScalar_of_isWritable {f : Field} (h : f.isWritable = true) : f.isScalar = true := by
  unfold isWritable at h
  unfold isScalar
  cases hkind : f.kind with
  | scalar => rfl
  | enum => rfl
  | object => simp [hkind] at h
  | unsupported => simp [hkind] at h

end Field

namespace Model

theorem mem_createFields_withViews (frozen : Bool) (index : ReverseIndex) (m : Model) (f : Field) :
    f ∈ (m.withViews frozen index).createFields.items ↔ f ∈ m.fields.items ∧ f.isWritable = true := by
  have hscalar : f.isWritable = true → f.isScalar = true := Field.isScalar_of_isWritable
  simp only [withViews, List.mem_filter]
  tauto

theorem updateFields_withViews (frozen : Bool) (index : ReverseIndex) (m : Model) :
    (m.withViews frozen index).updateFields = (m.withViews frozen index).createFields := rfl

/-- What a model holds of a field with an unknown default, before it has its views. -/
theorem isWritable_iff_declaresOrdinaryColumn {frozen : Bool} {node : ModelNode} {f : Field}
    (hf : f ∈ (ofNode frozen node).value.fields.items) (hunknown : f.HasUnknownDefault) :
    f.isWritable = true ↔ node.DeclaresOrdinaryColumn f.name := by
  obtain ⟨fieldNode, hfirst, kept, keyFields, hdeclared⟩ := exists_declaredBy hf
  have hdatabase := Field.isDatabaseDefault_of_hasUnknownDefault hunknown
  have hdefault := hunknown.1
  rw [Field.value_ofNode] at hdeclared
  rw [hdeclared] at hdatabase hdefault
  have hcolumn : f.isWritable = true ↔ fieldNode.IsOrdinaryColumn := by
    rw [hdeclared]
    exact Field.isWritable_ofParts_iff hdefault hdatabase
  rw [hcolumn, ModelNode.DeclaresOrdinaryColumn, hfirst]
  simp

end Model

/-- In a compiled schema, the payloads of a model hold a field with an unknown default function just if
the model declares the field as an ordinary column. -/
theorem Compiled.unknown_default_written_iff {document : Value} {options : Option Options.Settings}
    {overrides : Options.Settings} {c : Compiled}
    (h : (compileWith document options overrides).result = .ok c) :
    ∃ dataModel, document.dataModel? = some dataModel ∧ ∀ m ∈ c.schema.models.items,
      ∃ node, dataModel.modelNodes.find? (·.name == m.name) = some node ∧
        ∀ f, f.HasUnknownDefault →
          (f ∈ m.createFields.items ↔ f ∈ m.fields.items ∧ node.DeclaresOrdinaryColumn f.name) ∧
          (f ∈ m.updateFields.items ↔ f ∈ m.fields.items ∧ node.DeclaresOrdinaryColumn f.name) := by
  obtain ⟨frozen, dataModel, hd, hs, -⟩ := compileWith_eq_ok h
  refine ⟨dataModel, hd, fun m hm => ?_⟩
  rw [hs] at hm
  obtain ⟨read, hread, rfl⟩ := List.mem_map.mp hm
  obtain ⟨node, hfirst, rfl⟩ := NodeReader.exists_first_of_mem_readAll _ Model.name
    (Model.name_ofNode frozen) _ hread
  refine ⟨node, hfirst, fun f hunknown => ?_⟩
  rw [Model.updateFields_withViews, Model.mem_createFields_withViews]
  have hwritten : f ∈ (Model.ofNode frozen node).value.fields.items ∧ f.isWritable = true ↔
      f ∈ (Model.ofNode frozen node).value.fields.items ∧ node.DeclaresOrdinaryColumn f.name :=
    and_congr_right fun hf => Model.isWritable_iff_declaresOrdinaryColumn hf hunknown
  exact ⟨hwritten, hwritten⟩

/-! Tickets with a code that the database makes up, and a checksum that is declared read-only besides. -/

def ticketed : Value :=
  Declaration.document [
    Declaration.model "Ticket" [
      Declaration.field "id" "Int" "scalar" [("isId", .bool true)],
      Declaration.field "code" "String" "scalar" [("hasDefaultValue", .bool true),
        ("default", Declaration.members [("name", .text "nanoid"), ("args", .seq false [])])],
      Declaration.field "checksum" "String" "scalar" [("hasDefaultValue", .bool true),
        ("isReadOnly", .bool true),
        ("default", Declaration.members [("name", .text "nanoid"), ("args", .seq false [])])]] []] []

theorem Compiled.unknown_default_written_iff_ticketed :
    ∃ c, (compileWith ticketed none []).result = .ok c ∧ ∃ m ∈ c.schema.models.items,
      (∃ f ∈ m.createFields.items, f.HasUnknownDefault ∧ f.name = "code") ∧
      ∃ f ∈ m.fields.items, f.HasUnknownDefault ∧ f.name = "checksum" ∧ f ∉ m.updateFields.items := by
  obtain ⟨c, hc, hs⟩ := exists_compiled (rfl : ticketed.dataModel? = some ticketed)
  obtain ⟨dataModel, hd, hwritten⟩ := Compiled.unknown_default_written_iff hc
  cases hd
  have hfields : ∃ m ∈ c.schema.models.items, m.name = "Ticket" ∧
      (∃ f ∈ m.fields.items, f.name = "code" ∧ f.hasDefaultValue = true ∧
        (Schema.unknownFunction? f).isSome = true) ∧
      ∃ f ∈ m.fields.items, f.name = "checksum" ∧ f.hasDefaultValue = true ∧
        (Schema.unknownFunction? f).isSome = true := by
    rw [hs]
    decide +kernel
  obtain ⟨m, hm, hname, ⟨code, hcode, hcodeName, hcodeDefault⟩,
    checksum, hsum, hsumName, hsumDefault⟩ := hfields
  obtain ⟨node, hnode, hpayload⟩ := hwritten m hm
  rw [hname] at hnode
  have hordinary : node.DeclaresOrdinaryColumn code.name := by
    have hdeclared : ∀ node ∈ ticketed.modelNodes.find? (·.name == "Ticket"),
        ∃ fieldNode ∈ node.fieldNodes.find? (·.name == "code"),
          fieldNode.kind = "scalar" ∧ fieldNode.isId ≠ some true ∧ fieldNode.isReadOnly ≠ some true ∧
          fieldNode.isUpdatedAt ≠ some true ∧ fieldNode.name = "code" := by decide +kernel
    obtain ⟨fieldNode, hfirst, hkind, hid, hreadOnly, hupdated, hnamed⟩ := hdeclared node hnode
    rw [hcodeName]
    exact ⟨fieldNode, hfirst, .inl hkind, hid, hreadOnly, hupdated, by simp [hnamed]⟩
  have hguarded : ¬ node.DeclaresOrdinaryColumn checksum.name := by
    have hdeclared : ∀ node ∈ ticketed.modelNodes.find? (·.name == "Ticket"),
        ∀ fieldNode ∈ node.fieldNodes.find? (·.name == "checksum"),
          fieldNode.isReadOnly = some true := by decide +kernel
    rintro ⟨fieldNode, hfirst, hcolumn⟩
    rw [hsumName] at hfirst
    exact hcolumn.notReadOnly (hdeclared node hnode fieldNode hfirst)
  refine ⟨c, hc, m, hm, ⟨code, ?_, hcodeDefault, hcodeName⟩, checksum, hsum, hsumDefault, hsumName, ?_⟩
  · exact (hpayload code hcodeDefault).1.mpr ⟨hcode, hordinary⟩
  · exact fun hwrite => hguarded ((hpayload checksum hsumDefault).2.mp hwrite).2

/-- It is not so that unknown default functions are always kept out of the payloads. -/
theorem Compiled.unknown_defaults_may_be_written :
    ¬ ∀ (document : Value) (options : Option Options.Settings) (overrides : Options.Settings)
      (c : Compiled), (compileWith document options overrides).result = .ok c →
      ∀ m ∈ c.schema.models.items, ∀ f, f.HasUnknownDefault →
        f ∉ m.createFields.items ∧ f ∉ m.updateFields.items := by
  intro hkept
  obtain ⟨c, hc, hs⟩ := exists_compiled (rfl : ticketed.dataModel? = some ticketed)
  have hwritten : ∃ m ∈ c.schema.models.items, ∃ f ∈ m.createFields.items,
      f.hasDefaultValue = true ∧ (Schema.unknownFunction? f).isSome = true := by
    rw [hs]
    decide +kernel
  obtain ⟨m, hm, f, hf, hunknown⟩ := hwritten
  exact (hkept ticketed none [] c hc m hm f hunknown).1 hf

end EntitySchema
