import EntitySchema.Compile.Compile
import EntitySchema.Proofs.Lookup

/-!
# Retouched records

Records with other flags and other defaults, where the defaults still name the same functions and the
same texts. Making an index, adding views and assembling a schema do not look at more than that: done to
retouched records they give the retouched result. What the indexes find is retouched with the rest.
-/

set_option autoImplicit false

namespace EntitySchema

/-- A change of defaults and of what is frozen that leaves alone what is decided about a default. -/
structure Retouch where
  value : Value → Value
  flag : Bool → Bool
  functionName?_value : ∀ v, (value v).functionName? = v.functionName?
  text?_value : ∀ v, (value v).text? = v.text?

variable (r : Retouch)

def Seq.retouchedBy {α : Type} (flag : Bool → Bool) (h : α → α) (s : Seq α) : Seq α :=
  ⟨flag s.frozen, s.items.map h⟩

def Seq.reflagged {α : Type} (flag : Bool → Bool) (s : Seq α) : Seq α := s.withFrozen (flag s.frozen)

@[simp] theorem Seq.items_reflagged {α : Type} (flag : Bool → Bool) (s : Seq α) :
    (s.reflagged flag).items = s.items := rfl

def onIndex {α : Type} (h : α → α) (index : List (String × α)) : List (String × α) :=
  index.map fun e => (e.1, h e.2)

theorem onIndex_cons {α : Type} (h : α → α) (e : String × α) (index : List (String × α)) :
    onIndex h (e :: index) = (e.1, h e.2) :: onIndex h index := rfl

theorem lookup_onIndex {α : Type} (h : α → α) (index : List (String × α)) (name : String) :
    (onIndex h index).lookup name = (index.lookup name).map h := lookup_map_snd h index name

theorem findLast?_onIndex {α : Type} (h : α → α) (index : List (String × α)) (name : String) :
    findLast? name (onIndex h index) = (findLast? name index).map h := findLast?_map_snd h index name

/-! Fields. -/

namespace Field

def retouched (f : Field) : Field :=
  { f with
    relationFrom := f.relationFrom.map (Seq.reflagged r.flag)
    relationTo := f.relationTo.map (Seq.reflagged r.flag)
    defaultValue := r.value f.defaultValue
    frozen := r.flag f.frozen }

@[simp] theorem name_retouched (f : Field) : (f.retouched r).name = f.name := rfl

@[simp] theorem typeName_retouched (f : Field) : (f.retouched r).typeName = f.typeName := rfl

@[simp] theorem kind_retouched (f : Field) : (f.retouched r).kind = f.kind := rfl

@[simp] theorem isRelation_retouched (f : Field) : (f.retouched r).isRelation = f.isRelation := rfl

@[simp] theorem fromNames_retouched (f : Field) : (f.retouched r).fromNames = f.fromNames := by
  simp [fromNames, retouched, Function.comp_def]

@[simp] theorem toNames_retouched (f : Field) : (f.retouched r).toNames = f.toNames := by
  simp [toNames, retouched, Function.comp_def]

theorem edgeKey_retouched (f : Field) (model : String) :
    (f.retouched r).edgeKey model = f.edgeKey model := by
  rw [edgeKey, edgeKey, fromNames_retouched, toNames_retouched]
  rfl

/-- A retouched copy is a copy of the retouched field, if that is so for its default. -/
theorem retouched_copy {f : Field} {frozen : Bool}
    (h : r.value (f.defaultValue.copyDefault frozen) =
      (r.value f.defaultValue).copyDefault (r.flag frozen)) :
    (f.copy frozen).retouched r = (f.retouched r).copy (r.flag frozen) := by
  simp only [retouched, copy, h, Option.map_map]
  rfl

end Field

/-! The reverse index. -/

namespace ReverseIndex

def retouched (index : ReverseIndex) : ReverseIndex :=
  ⟨r.flag index.frozen, onIndex (Seq.retouchedBy r.flag (Field.retouched r)) index.entries⟩

theorem find?_retouched (index : ReverseIndex) (name : String) :
    (index.retouched r).find? name =
      (index.find? name).map (Seq.retouchedBy r.flag (Field.retouched r)) :=
  lookup_onIndex _ _ _

end ReverseIndex

/-! Models and their views. -/

def PrimaryKey.retouched (k : PrimaryKey) : PrimaryKey :=
  { k with fields := k.fields.reflagged r.flag, frozen := r.flag k.frozen }

namespace Model

def retouched (m : Model) : Model :=
  { m with
    fields := m.fields.retouchedBy r.flag (Field.retouched r)
    primaryKey := m.primaryKey.map (PrimaryKey.retouched r)
    uniqueFields := m.uniqueFields.retouchedBy r.flag (Seq.reflagged r.flag)
    scalarFields := m.scalarFields.retouchedBy r.flag (Field.retouched r)
    relationFields := m.relationFields.retouchedBy r.flag (Field.retouched r)
    createFields := m.createFields.retouchedBy r.flag (Field.retouched r)
    updateFields := m.updateFields.retouchedBy r.flag (Field.retouched r)
    readFields := m.readFields.retouchedBy r.flag (Field.retouched r)
    reverseRelations := m.reverseRelations.retouchedBy r.flag (Field.retouched r)
    idField := m.idField.map (Field.retouched r)
    frozen := r.flag m.frozen
    fieldIndex := onIndex (Field.retouched r) m.fieldIndex }

@[simp] theorem name_retouched (m : Model) : (m.retouched r).name = m.name := rfl

@[simp] theorem items_fields_retouched (m : Model) :
    (m.retouched r).fields.items = m.fields.items.map (Field.retouched r) := rfl

theorem field?_retouched (m : Model) (name : String) :
    (m.retouched r).field? name = (m.field? name).map (Field.retouched r) :=
  findLast?_onIndex _ _ _

theorem indexOf_map_retouched (fields : List Field) :
    indexOf (fields.map (Field.retouched r)) = onIndex (Field.retouched r) (indexOf fields) := by
  simp [indexOf, onIndex]

end Model

theorem ReverseIndex.edges_map_retouched (models : List Model) :
    edges (models.map (Model.retouched r)) = onIndex (Field.retouched r) (edges models) := by
  have hnames : (models.map (Model.retouched r)).map (·.name) = models.map (·.name) := by simp
  rw [edges, edges, onIndex, List.flatMap_map, List.map_flatMap, hnames]
  congr 1
  funext m
  simp only [Model.items_fields_retouched, Model.name_retouched, List.filter_map, List.map_map,
    Function.comp_def, Field.isRelation_retouched, Field.typeName_retouched, Field.edgeKey_retouched]

theorem ReverseIndex.retouched_build {frozen : Bool} {models : List Model}
    (h : ∀ f ∈ distinctEdges models,
      (f.copy frozen).retouched r = (f.retouched r).copy (r.flag frozen)) :
    (build frozen models).retouched r = build (r.flag frozen) (models.map (Model.retouched r)) := by
  have hnames : (models.map (Model.retouched r)).map (·.name) = models.map (·.name) := by simp
  have hfound : distinctEdges (models.map (Model.retouched r)) =
      (distinctEdges models).map (Field.retouched r) := by
    rw [distinctEdges, distinctEdges, edges_map_retouched, onIndex, firstByKey_map, List.map_map,
      List.map_map]
    rfl
  have hentries : ∀ name : String, (((distinctEdges models).filter (·.typeName == name)).map
      (Field.copy frozen)).map (Field.retouched r) =
        (((distinctEdges models).map (Field.retouched r)).filter (·.typeName == name)).map
          (Field.copy (r.flag frozen)) := by
    intro name
    rw [List.filter_map, List.map_map, List.map_map]
    exact List.map_congr_left fun f hf => h f (List.mem_filter.mp hf).1
  unfold retouched build
  rw [hnames, hfound]
  simp only [onIndex, List.map_map, Function.comp_def, Seq.retouchedBy, ← hentries]

theorem isJunction_map_retouched (fields : List Field) :
    isJunction (fields.map (Field.retouched r)) = isJunction fields := by
  simp [isJunction, List.countP_map, Function.comp_def]

namespace Model

theorem retouched_withViews (m : Model) (frozen : Bool) (index : ReverseIndex) :
    (m.withViews frozen index).retouched r =
      (m.retouched r).withViews (r.flag frozen) (index.retouched r) := by
  have hscalar : (m.fields.items.map (Field.retouched r)).filter (·.isScalar) =
      (m.fields.items.filter (·.isScalar)).map (Field.retouched r) := by
    simp [List.filter_map, Function.comp_def, Field.isScalar]
  have hwritable : ((m.fields.items.filter (·.isScalar)).map (Field.retouched r)).filter
      (·.isWritable) =
        ((m.fields.items.filter (·.isScalar)).filter (·.isWritable)).map (Field.retouched r) := by
    rw [List.filter_map]
    rfl
  have hrelation : (m.fields.items.map (Field.retouched r)).filter (·.isRelation) =
      (m.fields.items.filter (·.isRelation)).map (Field.retouched r) := by
    rw [List.filter_map]
    rfl
  have hreverse : (((index.retouched r).find? m.name).map (·.items)).getD [] =
      (((index.find? m.name).map (·.items)).getD []).map (Field.retouched r) := by
    rw [ReverseIndex.find?_retouched]
    cases index.find? m.name <;> rfl
  have hid : (m.fields.items.map (Field.retouched r)).find? (·.isId) =
      (m.fields.items.find? (·.isId)).map (Field.retouched r) := by
    rw [List.find?_map]
    rfl
  have hself : (m.fields.items.map (Field.retouched r)).any (·.isSelfRelation) =
      m.fields.items.any (·.isSelfRelation) := by
    rw [List.any_map]
    rfl
  have hunique : (m.retouched r).uniqueFields.items.map (·.withFrozen (r.flag frozen)) =
      (m.uniqueFields.items.map (·.withFrozen frozen)).map (Seq.reflagged r.flag) := by
    simp only [retouched, Seq.retouchedBy, List.map_map]
    rfl
  unfold withViews
  simp only [items_fields_retouched, name_retouched, hscalar, hwritable, hrelation, hreverse, hid,
    hself, hunique, isJunction_map_retouched, indexOf_map_retouched]
  rfl

end Model

/-! Schemas. -/

def EnumType.retouched (e : EnumType) : EnumType :=
  { e with values := e.values.reflagged r.flag, frozen := r.flag e.frozen }

namespace Schema

def retouched (s : Schema) : Schema where
  models := s.models.retouchedBy r.flag (Model.retouched r)
  enums := s.enums.retouchedBy r.flag (EnumType.retouched r)
  frozen := r.flag s.frozen
  modelIndex := onIndex (Model.retouched r) s.modelIndex
  enumIndex := onIndex (EnumType.retouched r) s.enumIndex
  reverseIndex := onIndex (Seq.retouchedBy r.flag (Field.retouched r)) s.reverseIndex

@[simp] theorem items_models_retouched (s : Schema) :
    (s.retouched r).models.items = s.models.items.map (Model.retouched r) := rfl

@[simp] theorem items_enums_retouched (s : Schema) :
    (s.retouched r).enums.items = s.enums.items.map (EnumType.retouched r) := rfl

theorem model?_retouched (s : Schema) (name : String) :
    (s.retouched r).model? name = (s.model? name).map (Model.retouched r) :=
  findLast?_onIndex _ _ _

theorem enum?_retouched (s : Schema) (name : String) :
    (s.retouched r).enum? name = (s.enum? name).map (EnumType.retouched r) :=
  findLast?_onIndex _ _ _

theorem retouched_build (frozen : Bool) (models : List Model) (enums : List EnumType) :
    (build frozen models enums).retouched r =
      build (r.flag frozen) (models.map (Model.retouched r)) (enums.map (EnumType.retouched r)) := by
  simp only [build, retouched, Seq.retouchedBy, onIndex, List.map_map]
  rfl

end Schema

theorem retouched_assemble {frozen : Bool} (enums : List EnumType) {models : List Model}
    (h : ∀ f ∈ ReverseIndex.distinctEdges models,
      (f.copy frozen).retouched r = (f.retouched r).copy (r.flag frozen)) :
    (assemble frozen enums models).retouched r =
      assemble (r.flag frozen) (enums.map (EnumType.retouched r))
        (models.map (Model.retouched r)) := by
  rw [assemble, assemble, Schema.retouched_build, ← ReverseIndex.retouched_build r h, List.map_map,
    List.map_map]
  simp only [Function.comp_def, Model.retouched_withViews]

end EntitySchema
