import EntitySchema.Proofs.Declarations
import EntitySchema.Proofs.Relation.EdgeKeys

/-!
# Laws of fields

The flags of a field are set once, when its declaration is read, from members that may be absent and a
default that may have been dropped. Afterwards they answer for what is computed from the field: whether
a payload may omit it, who fills in its default, and who may write it. The laws hold of every field
that a model of a compiled schema holds, for a copy of a field obeys them as the field does.
-/

set_option autoImplicit false

namespace EntitySchema

def Value.isCall : Value → Bool
  | .call .. => true
  | _ => false

structure Field.Lawful (f : Field) : Prop where
  optional :
    f.isOptional = (f.isNullable || f.hasDefaultValue || f.isList || f.isImplicitRelation)
  dbDefault : f.hasDbDefault = true → f.hasDefaultValue = true ∧ f.defaultValue.isCall = true ∧
    f.defaultValue.isClientDefault = false
  oneOwner : f.defaultValue.isCall = true →
    (f.defaultValue.isClientDefault ^^ f.defaultValue.isDatabaseDefault) = true
  updateTime : f.isUpdatedAt = true → f.isReadOnly = true
  generated : f.hasDbDefault = true →
    f.isId = true ∨ f.name = "createdAt" ∨ f.name = "updatedAt" → f.isReadOnly = true

def Model.heldFields (m : Model) : List Field :=
  m.fields.items ++ m.scalarFields.items ++ m.relationFields.items ++ m.createFields.items ++
    m.updateFields.items ++ m.readFields.items ++ m.idField.toList ++ m.reverseRelations.items

structure Model.Lawful (m : Model) : Prop where
  held : ∀ f ∈ m.heldFields, f.Lawful
  selfRelation : ∀ f ∈ m.fields.items,
    (f.isSelfRelation = true ↔ f.isRelation = true ∧ f.typeName = m.name)
  hasSelfRelation :
    m.hasSelfRelation = true ↔ ∃ f ∈ m.fields.items, f.isRelation = true ∧ f.typeName = m.name
  compositeKey : ∀ f ∈ m.fields.items,
    (f.isPartOfCompositePrimaryKey = true ↔ ∃ k ∈ m.primaryKey, f.name ∈ k.fields.items)

/-! Defaults. -/

namespace Value

theorem functionName?_isSome_of_isCall {v : Value} (h : v.isCall = true) :
    v.functionName?.isSome = true := by
  cases v with
  | call => rfl
  | _ => cases h

/-- A mapping is not kept, so a function name comes from a default function. -/
theorem isCall_of_functionName?_keptDefault {frozen : Bool} {owner : String} {raw : Value}
    (h : (raw.keptDefault frozen owner).value.functionName?.isSome = true) :
    (raw.keptDefault frozen owner).value.isCall = true := by
  cases raw with
  | map views entries =>
    unfold keptDefault at h ⊢
    dsimp only at h ⊢
    split at h
    · rfl
    · cases h
  | _ => cases h

theorem functionName?_of_isDatabaseDefault {v : Value} (h : v.isDatabaseDefault = true) :
    v.functionName?.isSome = true := by
  unfold isDatabaseDefault at h
  cases hname : v.functionName? with
  | none => rw [hname] at h; cases h
  | some name => rfl

theorem isClientDefault_eq_false {v : Value} (h : v.isDatabaseDefault = true) :
    v.isClientDefault = false := by
  have howner := v.isClientDefault_xor_isDatabaseDefault
  rw [functionName?_of_isDatabaseDefault h, h] at howner
  simpa using howner

theorem isCall_copyDefault (frozen : Bool) (v : Value) :
    (v.copyDefault frozen).isCall = v.isCall := by
  cases v <;> rfl

theorem functionName?_copyDefault (frozen : Bool) {v : Value} (h : v.isCall = true) :
    (v.copyDefault frozen).functionName? = v.functionName? := by
  cases v with
  | call => rfl
  | _ => cases h

end Value

/-! Fields. -/

namespace Field

theorem lawful_ofParts (frozen : Bool) (model : String) (keyFields : List String) (node : FieldNode)
    {kept : Value} (h : kept.functionName?.isSome = true → kept.isCall = true) :
    (ofParts frozen model keyFields node kept).Lawful := by
  constructor
  case optional =>
    simp only [ofParts, isImplicitRelation, isRelation, fromNames]
    cases node.relationFrom <;> rfl
  case dbDefault =>
    intro hdb
    obtain ⟨hdefault, hdatabase⟩ := Bool.and_eq_true_iff.mp hdb
    exact ⟨hdefault, h (Value.functionName?_of_isDatabaseDefault hdatabase),
      Value.isClientDefault_eq_false hdatabase⟩
  case oneOwner =>
    intro hcall
    rw [Value.isClientDefault_xor_isDatabaseDefault]
    exact Value.functionName?_isSome_of_isCall hcall
  case updateTime =>
    intro hupdated
    simp only [ofParts] at hupdated ⊢
    rw [hupdated, Bool.or_true, Bool.true_or]
  case generated =>
    intro hdb hkind
    have hsystem : ((ofParts frozen model keyFields node kept).isId ||
        timestampFields.contains (ofParts frozen model keyFields node kept).name) = true := by
      simpa [timestampFields] using hkind
    simp only [ofParts] at hdb hsystem ⊢
    rw [hsystem, hdb, Bool.and_true, Bool.or_true]

theorem lawful_ofNode (frozen : Bool) (model : String) (keyFields : List String)
    (node : FieldNode) : (ofNode frozen model keyFields node).value.Lawful := by
  rw [value_ofNode]
  exact lawful_ofParts frozen model keyFields node Value.isCall_of_functionName?_keptDefault

theorem fromNames_copy (frozen : Bool) (f : Field) : (f.copy frozen).fromNames = f.fromNames := by
  simp [fromNames, copy, Function.comp_def]

theorem Lawful.copy {f : Field} (h : f.Lawful) (frozen : Bool) : (f.copy frozen).Lawful := by
  -- A copy keeps every flag; of the default and the key names it keeps what the laws look at.
  have hcall : (f.copy frozen).defaultValue.isCall = f.defaultValue.isCall :=
    Value.isCall_copyDefault frozen f.defaultValue
  constructor
  case optional =>
    rw [isImplicitRelation, fromNames_copy]
    exact h.optional
  case dbDefault =>
    intro hdb
    obtain ⟨hdefault, hfunction, hclient⟩ := h.dbDefault hdb
    refine ⟨hdefault, hcall.trans hfunction, ?_⟩
    rw [Value.isClientDefault, Field.copy, Value.functionName?_copyDefault frozen hfunction]
    exact hclient
  case oneOwner =>
    intro hfunction
    rw [Value.isClientDefault_xor_isDatabaseDefault]
    exact Value.functionName?_isSome_of_isCall hfunction
  case updateTime => exact h.updateTime
  case generated => exact h.generated

end Field

/-! Models. -/

namespace Model

/-- Apart from reverse relations, a model holds no field that it does not declare. -/
theorem mem_heldFields_withViews {frozen : Bool} {index : ReverseIndex} {m : Model} {f : Field}
    (h : f ∈ (m.withViews frozen index).heldFields) :
    f ∈ m.fields.items ∨ f ∈ (m.withViews frozen index).reverseRelations.items := by
  rw [heldFields, List.mem_append] at h
  apply h.imp_left
  have hscalar : ∀ g ∈ m.fields.items.filter (·.isScalar), g ∈ m.fields.items :=
    fun _ => List.mem_of_mem_filter
  simp only [withViews, List.mem_append, Option.mem_toList]
  rintro ((((((hf | hf) | hf) | hf) | hf) | hf) | hf)
  · exact hf
  · exact hscalar f hf
  · exact List.mem_of_mem_filter hf
  · exact hscalar f (List.mem_of_mem_filter hf)
  · exact hscalar f (List.mem_of_mem_filter hf)
  · exact hscalar f hf
  · exact List.mem_of_find?_eq_some hf

theorem hasSelfRelation_iff {frozen : Bool} {index : ReverseIndex} {m : Model} (h : m.WellFormed) :
    (m.withViews frozen index).hasSelfRelation = true ↔
      ∃ f ∈ m.fields.items, f.isRelation = true ∧ f.typeName = m.name := by
  simp only [withViews, List.any_eq_true]
  exact exists_congr fun f => and_congr_right fun hf => isSelfRelation_iff h hf

theorem isPartOfCompositePrimaryKey_iff {frozen : Bool} {node : ModelNode} {f : Field}
    (h : f ∈ (ofNode frozen node).value.fields.items) : f.isPartOfCompositePrimaryKey = true ↔
      ∃ k ∈ (ofNode frozen node).value.primaryKey, f.name ∈ k.fields.items := by
  have hkey : (ofNode frozen node).value.primaryKey =
      node.primaryKey.bind (PrimaryKey.ofNode? frozen) := rfl
  obtain ⟨fieldNode, kept, rfl⟩ := Field.exists_ofParts_of_mem_readAll h
  rw [hkey]
  cases node.primaryKey.bind (PrimaryKey.ofNode? frozen) with
  | none => simp [Field.ofParts]
  | some k => simp [Field.ofParts]

theorem lawful_of_mem_readAll {frozen : Bool} {nodes : List Value} {m : Model}
    (hm : m ∈ (readAll frozen nodes).value) : ∀ f ∈ m.fields.items, f.Lawful := by
  obtain ⟨node, rfl⟩ := NodeReader.exists_read_of_mem_readAll _ _ hm
  intro f hf
  obtain ⟨fieldNode, rfl⟩ := NodeReader.exists_read_of_mem_readAll _ _ hf
  exact Field.lawful_ofNode frozen _ _ fieldNode

theorem lawful_withViews {frozen : Bool} {index : ReverseIndex} {node : ModelNode}
    (hreverse : ∀ f ∈ ((ofNode frozen node).value.withViews frozen index).reverseRelations.items,
      f.Lawful) : ((ofNode frozen node).value.withViews frozen index).Lawful := by
  have hw := wellFormed_ofNode frozen node
  constructor
  case held =>
    intro f hf
    rcases mem_heldFields_withViews hf with hdeclared | hf
    · obtain ⟨fieldNode, rfl⟩ := NodeReader.exists_read_of_mem_readAll _ _ hdeclared
      exact Field.lawful_ofNode frozen _ _ fieldNode
    · exact hreverse f hf
  case selfRelation => exact fun f hf => isSelfRelation_iff hw hf
  case hasSelfRelation => exact hasSelfRelation_iff hw
  case compositeKey => exact fun f hf => isPartOfCompositePrimaryKey_iff hf

end Model

/-- A reverse relation is a copy of a field that some model declares. -/
theorem Schema.exists_copy_of_mem_reverseRelations {frozen : Bool} {enums : List EnumType}
    {models : List Model} {t : Model} (ht : t ∈ (assemble frozen enums models).models.items)
    {f : Field} (hf : f ∈ t.reverseRelations.items) :
    ∃ m ∈ models, ∃ g ∈ m.fields.items, g.copy frozen = f := by
  rw [reverseRelations_assemble frozen enums models ht, List.mem_map] at hf
  obtain ⟨g, hg, rfl⟩ := hf
  obtain ⟨viewed, hviewed, hdeclared⟩ :=
    ReverseIndex.exists_mem_of_mem_distinctEdges (List.mem_of_mem_filter hg)
  obtain ⟨m, hm, rfl⟩ := List.mem_map.mp hviewed
  exact ⟨m, hm, g, hdeclared, rfl⟩

theorem Schema.lawful_readSchema {frozen : Bool} {dataModel : Value} {m : Model}
    (hm : m ∈ (readSchema frozen dataModel).value.models.items) : m.Lawful := by
  have hreverse : ∀ f ∈ m.reverseRelations.items, f.Lawful := by
    intro f hf
    obtain ⟨declaring, hdeclaring, g, hg, rfl⟩ := exists_copy_of_mem_reverseRelations hm hf
    exact (Model.lawful_of_mem_readAll hdeclaring g hg).copy frozen
  obtain ⟨read, hread, rfl⟩ := List.mem_map.mp hm
  obtain ⟨node, rfl⟩ := NodeReader.exists_read_of_mem_readAll _ _ hread
  exact Model.lawful_withViews hreverse

/-- Wherever a field occurs in a compiled schema, it obeys the laws of fields, and a model tells
rightly which of its own fields lead to itself and which are in its composite key. -/
theorem Compiled.models_lawful {document : Value} {options : Option Options.Settings}
    {overrides : Options.Settings} {c : Compiled}
    (h : (compileWith document options overrides).result = .ok c) :
    ∀ m ∈ c.schema.models.items, m.Lawful := by
  obtain ⟨frozen, dataModel, -, hs, -⟩ := compileWith_eq_ok h
  rw [hs]
  exact fun m hm => Schema.lawful_readSchema hm

/-! Employees, with the branch in their key and a manager of their own kind. The database numbers them
and the client fills in when they started. -/

def staff : Value :=
  Declaration.document [
    Declaration.model "Employee" [
      Declaration.field "number" "Int" "scalar" [("isRequired", .bool true), ("isId", .bool true),
        ("default", Declaration.members [("name", .text "autoincrement")])],
      Declaration.field "branch" "Int" "scalar" [("isRequired", .bool true)],
      Declaration.field "createdAt" "DateTime" "scalar" [("hasDefaultValue", .null),
        ("default", Declaration.members [("name", .text "now")])],
      Declaration.field "managerNumber" "Int" "scalar" [],
      Declaration.field "manager" "Employee" "object"
        [("relationFromFields", .seq false [.text "managerNumber"])]]
      [("primaryKey", Declaration.members
        [("fields", .seq false [.text "number", .text "branch"])])]] []

theorem Compiled.models_lawful_staff :
    ∃ c, (compileWith staff none []).result = .ok c ∧ ∃ m ∈ c.schema.models.items,
      m.hasSelfRelation = true ∧ (∃ f ∈ m.reverseRelations.items, f.Lawful ∧ f.name = "manager") ∧
      (∃ f ∈ m.fields.items, f.name = "number" ∧ f.isPartOfCompositePrimaryKey = true ∧
        f.defaultValue.isClientDefault = false ∧ f.isReadOnly = true) ∧
      ∃ f ∈ m.fields.items, f.name = "createdAt" ∧ f.defaultValue.isDatabaseDefault = false := by
  obtain ⟨c, hc, hs⟩ := exists_compiled (rfl : staff.dataModel? = some staff)
  have hdata : ∃ m ∈ c.schema.models.items,
      (∃ f ∈ m.fields.items, f.isRelation = true ∧ f.typeName = m.name) ∧
      (∃ f ∈ m.reverseRelations.items, f.name = "manager") ∧
      (∃ f ∈ m.fields.items, f.name = "number" ∧ f.isId = true ∧ f.hasDbDefault = true ∧
        ∃ k ∈ m.primaryKey, f.name ∈ k.fields.items) ∧
      ∃ f ∈ m.fields.items, f.name = "createdAt" ∧ f.defaultValue.isCall = true ∧
        f.defaultValue.isClientDefault = true := by
    rw [hs]
    decide +kernel
  obtain ⟨m, hm, hself, ⟨manager, hmanager, hname⟩, ⟨number, hnumber, hnamed, hid, hdb, hkey⟩,
    created, hcreated, hcreatedAt, hcall, hclient⟩ := hdata
  have hlawful := Compiled.models_lawful hc m hm
  have hheld : ∀ f ∈ m.fields.items, f.Lawful := fun f hf =>
    hlawful.held f (by simp [Model.heldFields, hf])
  have hmanaged : manager.Lawful := hlawful.held manager (by simp [Model.heldFields, hmanager])
  have howner := (hheld created hcreated).oneOwner hcall
  refine ⟨c, hc, m, hm, hlawful.hasSelfRelation.mpr hself, ⟨manager, hmanager, hmanaged, hname⟩,
    ⟨number, hnumber, hnamed, (hlawful.compositeKey number hnumber).mpr hkey, ?_, ?_⟩,
    created, hcreated, hcreatedAt, ?_⟩
  · exact ((hheld number hnumber).dbDefault hdb).2.2
  · exact (hheld number hnumber).generated hdb (.inl hid)
  · rw [hclient] at howner
    simpa using howner

end EntitySchema
