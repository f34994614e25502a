import EntitySchema.Proofs.Retouched.Checks
import EntitySchema.Proofs.Thawed.Value

/-!
# Thawed records

Fields, models and schemas that forget what is frozen. They are records retouched in one way: what holds
of retouched records holds of them.
-/

set_option autoImplicit false

namespace EntitySchema

def Seq.thawedBy {α : Type} (thaw : α → α) (s : Seq α) : Seq α := ⟨false, s.items.map thaw⟩

@[simp] theorem Seq.withFrozen_withFrozen {α : Type} (s : Seq α) (first frozen : Bool) :
    (s.withFrozen first).withFrozen frozen = s.withFrozen frozen := rfl

def thawedIndex {α : Type} (thaw : α → α) (index : List (String × α)) : List (String × α) :=
  index.map fun e => (e.1, thaw e.2)

def Retouch.thawing : Retouch where
  value := Value.thawed
  flag _ := false
  functionName?_value := Value.functionName?_thawed
  text?_value v := by cases v <;> rfl

/-! Fields. -/

namespace Field

def thawed (f : Field) : Field :=
  { f with
    relationFrom := f.relationFrom.map (·.withFrozen false)
    relationTo := f.relationTo.map (·.withFrozen false)
    defaultValue := f.defaultValue.thawed
    frozen := false }

@[simp] theorem name_thawed (f : Field) : f.thawed.name = f.name := rfl

@[simp] theorem typeName_thawed (f : Field) : f.thawed.typeName = f.typeName := rfl

@[simp] theorem isRelation_thawed (f : Field) : f.thawed.isRelation = f.isRelation := rfl

@[simp] theorem fromNames_thawed (f : Field) : f.thawed.fromNames = f.fromNames :=
  f.fromNames_retouched .thawing

theorem thawed_copy (f : Field) (frozen : Bool) : (f.copy frozen).thawed = f.thawed.copy false :=
  retouched_copy .thawing (Value.thawed_copyDefault frozen f.defaultValue)

end Field

/-! Models. -/

def PrimaryKey.thawed (k : PrimaryKey) : PrimaryKey :=
  { k with fields := k.fields.withFrozen false, frozen := false }

namespace Model

def thawed (m : Model) : Model :=
  { m with
    fields := m.fields.thawedBy Field.thawed
    primaryKey := m.primaryKey.map PrimaryKey.thawed
    uniqueFields := m.uniqueFields.thawedBy (·.withFrozen false)
    scalarFields := m.scalarFields.thawedBy Field.thawed
    relationFields := m.relationFields.thawedBy Field.thawed
    createFields := m.createFields.thawedBy Field.thawed
    updateFields := m.updateFields.thawedBy Field.thawed
    readFields := m.readFields.thawedBy Field.thawed
    reverseRelations := m.reverseRelations.thawedBy Field.thawed
    idField := m.idField.map Field.thawed
    frozen := false
    fieldIndex := thawedIndex Field.thawed m.fieldIndex }

@[simp] theorem name_thawed (m : Model) : m.thawed.name = m.name := rfl

@[simp] theorem items_fields_thawed (m : Model) :
    m.thawed.fields.items = m.fields.items.map Field.thawed := rfl

theorem field?_thawed (m : Model) (name : String) :
    m.thawed.field? name = (m.field? name).map Field.thawed := m.field?_retouched .thawing name

theorem indexOf_map_thawed (fields : List Field) :
    indexOf (fields.map Field.thawed) = thawedIndex Field.thawed (indexOf fields) :=
  indexOf_map_retouched .thawing fields

end Model

/-! Schemas. -/

def EnumType.thawed (e : EnumType) : EnumType :=
  { e with values := e.values.withFrozen false, frozen := false }

namespace Schema

def thawed (s : Schema) : Schema where
  models := s.models.thawedBy Model.thawed
  enums := s.enums.thawedBy EnumType.thawed
  frozen := false
  modelIndex := thawedIndex Model.thawed s.modelIndex
  enumIndex := thawedIndex EnumType.thawed s.enumIndex
  reverseIndex := thawedIndex (Seq.thawedBy Field.thawed) s.reverseIndex

@[simp] theorem items_models_thawed (s : Schema) :
    s.thawed.models.items = s.models.items.map Model.thawed := rfl

theorem model?_thawed (s : Schema) (name : String) :
    s.thawed.model? name = (s.model? name).map Model.thawed := s.model?_retouched .thawing name

/-- Thawed, a schema is validated as it is. -/
theorem validate_thawed (s : Schema) : s.thawed.validate = s.validate :=
  s.validate_retouched .thawing

end Schema

theorem thawed_assemble (frozen : Bool) (enums : List EnumType) (models : List Model) :
    (assemble frozen enums models).thawed =
      assemble false (enums.map EnumType.thawed) (models.map Model.thawed) :=
  retouched_assemble .thawing enums fun f _ => f.thawed_copy frozen

end EntitySchema
