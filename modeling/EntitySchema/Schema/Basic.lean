import EntitySchema.Enumeration.Basic
import EntitySchema.Model.Basic

/-!
# Schemas

All models and enums of a document, with three indexes by name: models, enums, and the reverse
relations of each model. The indexes are made from the models and enums a schema is built with.
-/

set_option autoImplicit false

namespace EntitySchema

structure Schema where
  models : Seq Model
  enums : Seq EnumType
  frozen : Bool
  modelIndex : List (String × Model)
  enumIndex : List (String × EnumType)
  reverseIndex : List (String × Seq Field)

namespace Schema

instance : Inhabited Schema := ⟨⟨.empty, .empty, false, [], [], []⟩⟩

def build (frozen : Bool) (models : List Model) (enums : List EnumType) : Schema where
  models := ⟨frozen, models⟩
  enums := ⟨frozen, enums⟩
  frozen := frozen
  modelIndex := models.map fun m => (m.name, m)
  enumIndex := enums.map fun e => (e.name, e)
  reverseIndex := models.map fun m => (m.name, m.reverseRelations)

def model? (s : Schema) (name : String) : Option Model := findLast? name s.modelIndex

def enum? (s : Schema) (name : String) : Option EnumType := findLast? name s.enumIndex

def reverse? (s : Schema) (name : String) : Option (Seq Field) := findLast? name s.reverseIndex

/-- The model a relation field points at; none for other fields and for unknown targets. -/
def target? (s : Schema) (f : Field) : Option Model :=
  if f.isRelation then s.model? f.typeName else none

def modelNames (s : Schema) : List String := s.models.items.map (·.name)

def totalFields (s : Schema) : Nat := (s.models.items.map (·.fields.length)).foldr (· + ·) 0

def labelOf (modelCount enumCount fieldCount : Nat) : String :=
  "<ParsedSchema " ++ toString modelCount ++ " models, " ++ toString enumCount ++ " enums, "
    ++ toString fieldCount ++ " fields>"

def label (s : Schema) : String := labelOf s.models.length s.enums.length s.totalFields

end Schema

end EntitySchema
