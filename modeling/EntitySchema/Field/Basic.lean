import EntitySchema.Value.Basic

/-!
# Fields

One attribute or relation of a model. A field records what its declaration says and a few decisions
that are made once when it is read, such as whether a create payload may omit it. What follows from
those at any time is computed: whether the field is a relation, which side owns the key, and whether
a row has to wait for the related row.
-/

set_option autoImplicit false

namespace EntitySchema

inductive FieldKind where
  | scalar
  | enum
  | object
  | unsupported
  deriving DecidableEq, Repr

namespace FieldKind

def word : FieldKind → String
  | scalar => "scalar"
  | enum => "enum"
  | object => "object"
  | unsupported => "unsupported"

def ofWord? (s : String) : Option FieldKind :=
  if s = "scalar" then some scalar
  else if s = "enum" then some enum
  else if s = "object" then some object
  else if s = "unsupported" then some unsupported
  else none

def ofDeclared (s : String) : FieldKind := (ofWord? s).getD unsupported

theorem ofWord?_word (k : FieldKind) : ofWord? k.word = some k := by cases k <;> decide

theorem word_of_ofWord? {s : String} {k : FieldKind} (h : ofWord? s = some k) : k.word = s := by
  unfold ofWord? at h
  repeat' split at h
  all_goals cases h <;> simp [word, *]

/-- Every kind but the last is declared by its word alone. -/
theorem ofDeclared_eq_iff {k : FieldKind} (hk : k ≠ unsupported) (s : String) :
    ofDeclared s = k ↔ s = k.word := by
  constructor
  · intro h
    unfold ofDeclared at h
    cases hword : ofWord? s with
    | none =>
      rw [hword] at h
      exact absurd h.symm hk
    | some found =>
      rw [hword] at h
      cases h
      exact (word_of_ofWord? hword).symm
  · rintro rfl
    rw [ofDeclared, ofWord?_word]
    rfl

end FieldKind

structure Field where
  name : String
  typeName : String
  kind : FieldKind
  isId : Bool := false
  isList : Bool := false
  isRequired : Bool := false
  isUnique : Bool := false
  isNullable : Bool := true
  isOptional : Bool := true
  isReadOnly : Bool := false
  isUpdatedAt : Bool := false
  hasDefaultValue : Bool := false
  hasDbDefault : Bool := false
  defaultValue : Value := .null
  isPartOfCompositePrimaryKey : Bool := false
  isSelfRelation : Bool := false
  relationName : Option String := none
  relationFrom : Option (Seq String) := none
  relationTo : Option (Seq String) := none
  documentation : Option String := none
  frozen : Bool := false

namespace Field

instance : Inhabited Field := ⟨{ name := "", typeName := "", kind := .scalar }⟩

def isRelation (f : Field) : Bool := f.kind == .object

def fromNames (f : Field) : List String := (f.relationFrom.map (·.items)).getD []

def toNames (f : Field) : List String := (f.relationTo.map (·.items)).getD []

def ownsForeignKey (f : Field) : Bool := f.isRelation && !f.fromNames.isEmpty

/-- A relation without key columns of its own: the other side owns the key. -/
def isImplicitRelation (f : Field) : Bool := f.isRelation && f.fromNames.isEmpty

/-- Whether no row can be inserted before the related row exists: the field is required, not nullable,
single-valued and owns the key. -/
def blocksInsertion (f : Field) : Bool :=
  f.isRequired && !f.isNullable && !f.isList && f.ownsForeignKey

def label (f : Field) : String :=
  "<Field " ++ f.name ++ ": " ++ f.typeName ++ (if f.isList then "[]" else "")
    ++ (if f.isOptional then " ?" else "") ++ " (" ++ f.kind.word ++ ")>"

theorem isImplicitRelation_eq (f : Field) :
    f.isImplicitRelation = (f.isRelation && !f.ownsForeignKey) := by
  unfold isImplicitRelation ownsForeignKey
  cases f.isRelation <;> cases f.fromNames.isEmpty <;> rfl

end Field

end EntitySchema
