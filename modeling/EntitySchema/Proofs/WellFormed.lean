import EntitySchema.Proofs.Lookup
import EntitySchema.Proofs.Settings

/-!
# Well-formed schemas

What reading a document guarantees of its schema, whatever the document holds: names are distinct, the
indexes are those of the models, enums and fields that the schema shows, a composite key is never
empty, and a self-relation is a relation to the model that declares it. Every schema that a compilation
returns is of this form, and its report is the one of the checks.
-/

set_option autoImplicit false

namespace EntitySchema

namespace Model

structure WellFormed (m : Model) : Prop where
  fieldNames_nodup : m.fieldNames.Nodup
  fieldIndex_eq : m.fieldIndex = indexOf m.fields.items
  primaryKey_ne_nil : ∀ k ∈ m.primaryKey, k.fields.items ≠ []
  isSelfRelation_eq :
    ∀ f ∈ m.fields.items, f.isSelfRelation = (f.isRelation && f.typeName == m.name)

def HasField (m : Model) (name : String) : Prop := ∃ f ∈ m.fields.items, f.name = name

theorem field?_isSome_iff {m : Model} (h : m.WellFormed) (name : String) :
    (m.field? name).isSome = true ↔ m.HasField name := by
  rw [field?, h.fieldIndex_eq, indexOf, findLast?_isSome_iff, List.mem_map, HasField]

theorem field?_eq_some_iff {m : Model} (h : m.WellFormed) (name : String) (f : Field) :
    m.field? name = some f ↔ f ∈ m.fields.items ∧ f.name = name := by
  rw [field?, h.fieldIndex_eq]
  exact findLast?_eq_some_iff h.fieldNames_nodup name f

theorem isSelfRelation_iff {m : Model} (h : m.WellFormed) {f : Field} (hf : f ∈ m.fields.items) :
    f.isSelfRelation = true ↔ f.isRelation = true ∧ f.typeName = m.name := by
  rw [h.isSelfRelation_eq f hf, Bool.and_eq_true, beq_iff_eq]

theorem hasCompositePrimaryKey_iff {m : Model} (h : m.WellFormed) :
    m.hasCompositePrimaryKey = true ↔ m.primaryKey.isSome = true := by
  have hk := h.primaryKey_ne_nil
  unfold hasCompositePrimaryKey
  cases hp : m.primaryKey with
  | none => simp
  | some k => simpa [Seq.isEmpty] using hk k (by simp [hp])

end Model

namespace Schema

structure WellFormed (s : Schema) : Prop where
  modelNames_nodup : s.modelNames.Nodup
  enumNames_nodup : (s.enums.items.map (·.name)).Nodup
  modelIndex_eq : s.modelIndex = s.models.items.map fun m => (m.name, m)
  enumIndex_eq : s.enumIndex = s.enums.items.map fun e => (e.name, e)
  models : ∀ m ∈ s.models.items, m.WellFormed

theorem model?_eq_some_iff {s : Schema} (h : s.WellFormed) (name : String) (m : Model) :
    s.model? name = some m ↔ m ∈ s.models.items ∧ m.name = name := by
  rw [model?, h.modelIndex_eq]
  exact findLast?_eq_some_iff h.modelNames_nodup name m

theorem model?_name {s : Schema} (h : s.WellFormed) {m : Model} (hm : m ∈ s.models.items) :
    s.model? m.name = some m :=
  (model?_eq_some_iff h m.name m).mpr ⟨hm, rfl⟩

theorem model?_isSome_iff {s : Schema} (h : s.WellFormed) (name : String) :
    (s.model? name).isSome = true ↔ name ∈ s.modelNames := by
  rw [model?, h.modelIndex_eq]
  exact findLast?_isSome_iff _ _ name

theorem enum?_eq_some_iff {s : Schema} (h : s.WellFormed) (name : String) (e : EnumType) :
    s.enum? name = some e ↔ e ∈ s.enums.items ∧ e.name = name := by
  rw [enum?, h.enumIndex_eq]
  exact findLast?_eq_some_iff h.enumNames_nodup name e

theorem enum?_isSome_iff {s : Schema} (h : s.WellFormed) (name : String) :
    (s.enum? name).isSome = true ↔ ∃ e ∈ s.enums.items, e.name = name := by
  rw [enum?, h.enumIndex_eq, findLast?_isSome_iff, List.mem_map]

/-- What is found as the reverse relations of a name is what the model of that name shows. -/
theorem reverse?_build (frozen : Bool) (models : List Model) (enums : List EnumType)
    (name : String) : (build frozen models enums).reverse? name =
      ((build frozen models enums).model? name).map (·.reverseRelations) := by
  rw [reverse?, model?, ← findLast?_map_snd]
  simp [build, Function.comp_def]

theorem models_nodup {s : Schema} (h : s.WellFormed) : s.models.items.Nodup :=
  List.Nodup.of_map Model.name h.modelNames_nodup

theorem model_eq_of_name_eq {s : Schema} (h : s.WellFormed) {a b : Model}
    (ha : a ∈ s.models.items) (hb : b ∈ s.models.items) (he : a.name = b.name) : a = b :=
  List.inj_on_of_nodup_map h.modelNames_nodup ha hb he

end Schema

/-! Fields and models as they are read. -/

namespace Field

theorem value_ofNode (frozen : Bool) (model : String) (keyFields : List String)
    (node : FieldNode) :
    (ofNode frozen model keyFields node).value = ofParts frozen model keyFields node
      (node.defaultValue.keptDefault frozen (model ++ "." ++ node.name)).value := by
  unfold ofNode
  dsimp only
  split <;> rfl

theorem name_ofNode (frozen : Bool) (model : String) (keyFields : List String) (node : FieldNode) :
    (ofNode frozen model keyFields node).value.name = node.name := by
  rw [value_ofNode]
  rfl

theorem fromNames_ofParts (frozen : Bool) (model : String) (keyFields : List String)
    (node : FieldNode) (kept : Value) :
    (ofParts frozen model keyFields node kept).fromNames = node.relationFrom.getD [] := by
  unfold ofParts fromNames
  cases node.relationFrom <;> rfl

/-- What is read of a field section, as parts. -/
theorem exists_ofParts_of_mem_readAll {frozen : Bool} {model : String} {keyFields : List String}
    {nodes : List Value} {f : Field} (h : f ∈ (readAll frozen model keyFields nodes).value) :
    ∃ node kept, f = ofParts frozen model keyFields node kept := by
  obtain ⟨node, hf⟩ := NodeReader.exists_read_of_mem_readAll _ _ h
  exact ⟨node, _, hf.trans (value_ofNode frozen model keyFields node)⟩

end Field

namespace Model

theorem name_ofNode (frozen : Bool) (node : ModelNode) :
    (ofNode frozen node).value.name = node.name := rfl

theorem wellFormed_ofNode (frozen : Bool) (node : ModelNode) :
    (ofNode frozen node).value.WellFormed where
  fieldNames_nodup :=
    NodeReader.nodup_names_readAll _ Field.name (Field.name_ofNode frozen node.name _) _
  fieldIndex_eq := rfl
  primaryKey_ne_nil := by
    intro k hk
    obtain ⟨key, -, hkey⟩ := Option.bind_eq_some_iff.mp hk
    unfold PrimaryKey.ofNode? at hkey
    split at hkey
    · cases hkey
    · next hne =>
      cases hkey
      simpa using hne
  isSelfRelation_eq := by
    intro f hf
    obtain ⟨fieldNode, kept, rfl⟩ := Field.exists_ofParts_of_mem_readAll hf
    rfl

theorem wellFormed_withViews {m : Model} (h : m.WellFormed) (frozen : Bool)
    (index : ReverseIndex) : (m.withViews frozen index).WellFormed where
  fieldNames_nodup := h.fieldNames_nodup
  fieldIndex_eq := rfl
  primaryKey_ne_nil := h.primaryKey_ne_nil
  isSelfRelation_eq := h.isSelfRelation_eq

end Model

/-! Schemas as they are read and compiled. -/

namespace Schema

theorem wellFormed_assemble (frozen : Bool) (enums : List EnumType) (models : List Model)
    (he : (enums.map (·.name)).Nodup) (hm : (models.map (·.name)).Nodup)
    (hw : ∀ m ∈ models, m.WellFormed) : (assemble frozen enums models).WellFormed where
  modelNames_nodup := by
    have hnames : (assemble frozen enums models).modelNames = models.map (·.name) := by
      simp [assemble, build, modelNames, Model.withViews]
    rw [hnames]
    exact hm
  enumNames_nodup := he
  modelIndex_eq := rfl
  enumIndex_eq := rfl
  models := by
    intro m hmem
    obtain ⟨read, hread, rfl⟩ := List.mem_map.mp hmem
    exact Model.wellFormed_withViews (hw read hread) frozen _

theorem wellFormed_readSchema (frozen : Bool) (dataModel : Value) :
    (readSchema frozen dataModel).value.WellFormed := by
  apply wellFormed_assemble
  · exact NodeReader.nodup_names_readAll _ EnumType.name (fun _ => rfl) _
  · exact NodeReader.nodup_names_readAll _ Model.name (Model.name_ofNode frozen) _
  · intro m hm
    obtain ⟨node, rfl⟩ := NodeReader.exists_read_of_mem_readAll _ _ hm
    exact Model.wellFormed_ofNode frozen node

end Schema

/-- A compilation that succeeds returns a schema that is read from the data model of the document,
and the report of all checks on it. -/
theorem compileWith_eq_ok {document : Value} {options : Option Options.Settings}
    {overrides : Options.Settings} {c : Compiled}
    (h : (compileWith document options overrides).result = .ok c) :
    ∃ frozen dataModel, document.dataModel? = some dataModel ∧
      c.schema = (readSchema frozen dataModel).value ∧ c.report = c.schema.validate := by
  obtain ⟨o, dataModel, -, hd, hc⟩ := compileWith_eq_ok_of_resolved h
  exact ⟨o.freeze, dataModel, hd, hc⟩

/-- Without settings every document with a data model is compiled. -/
theorem exists_compiled {document dataModel : Value} (h : document.dataModel? = some dataModel) :
    ∃ c, (compileWith document none []).result = .ok c ∧
      c.schema = (readSchema true dataModel).value := by
  rw [compileWith_eq_compileResolved h]
  exact ⟨_, rfl, rfl⟩

namespace Compiled

variable {document : Value} {options : Option Options.Settings} {overrides : Options.Settings}
  {c : Compiled} (h : (compileWith document options overrides).result = .ok c)
include h

theorem wellFormed : c.schema.WellFormed := by
  obtain ⟨frozen, dataModel, -, hs, -⟩ := compileWith_eq_ok h
  rw [hs]
  exact Schema.wellFormed_readSchema frozen dataModel

theorem reverse?_eq (name : String) :
    c.schema.reverse? name = (c.schema.model? name).map (·.reverseRelations) := by
  obtain ⟨frozen, dataModel, -, hs, -⟩ := compileWith_eq_ok h
  rw [hs]
  exact Schema.reverse?_build frozen _ _ name

theorem report_eq : c.report = c.schema.validate := by
  obtain ⟨_, _, -, -, hr⟩ := compileWith_eq_ok h
  exact hr

end Compiled

end EntitySchema
