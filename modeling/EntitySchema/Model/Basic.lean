import EntitySchema.Field.Basic

/-!
# Models

An entity with its fields, its keys, and the views of its fields that generators consume. A model as
it is read holds the fields alone; the views are added when all models are known.

A model finds its fields by name in an index that is made from the fields it is built with.
-/

set_option autoImplicit false

namespace EntitySchema

structure PrimaryKey where
  name : Option String
  fields : Seq String
  frozen : Bool

instance : Inhabited PrimaryKey := ⟨⟨none, .empty, false⟩⟩

structure Model where
  name : String
  nameLower : String
  dbName : Option String
  documentation : Option String
  fields : Seq Field
  primaryKey : Option PrimaryKey
  uniqueFields : Seq (Seq String)
  scalarFields : Seq Field := .empty
  relationFields : Seq Field := .empty
  createFields : Seq Field := .empty
  updateFields : Seq Field := .empty
  readFields : Seq Field := .empty
  /-- The relation fields of all models that point here. -/
  reverseRelations : Seq Field := .empty
  idField : Option Field := none
  hasSelfRelation : Bool := false
  isJunctionTable : Bool := false
  frozen : Bool
  /-- The fields by name; of entries with one name the last counts. -/
  fieldIndex : List (String × Field)

def findLast? {α : Type} (name : String) (index : List (String × α)) : Option α :=
  index.reverse.lookup name

namespace Model

instance : Inhabited Model := ⟨{
  name := "", nameLower := "", dbName := none, documentation := none, fields := .empty,
  primaryKey := none, uniqueFields := .empty, frozen := false, fieldIndex := [] }⟩

def indexOf (fields : List Field) : List (String × Field) := fields.map fun f => (f.name, f)

def field? (m : Model) (name : String) : Option Field := findLast? name m.fieldIndex

def fieldNames (m : Model) : List String := m.fields.items.map (·.name)

def hasCompositePrimaryKey (m : Model) : Bool := m.primaryKey.any fun k => !k.fields.isEmpty

def labelOf (name : String) (fieldCount relationCount : Nat) : String :=
  "<Model " ++ name ++ " (" ++ toString fieldCount ++ " fields, " ++ toString relationCount
    ++ " relations)>"

def label (m : Model) : String := labelOf m.name m.fields.length m.relationFields.length

end Model

end EntitySchema
