import EntitySchema.Field.Basic
import EntitySchema.Value.Loose

/-!
# Fields from attributes

A field built from named attributes. Name, type and kind are required; every other attribute has the
value of a record in which nothing was said. A refusal names every attribute that is missing, wrong or
unknown.
-/

set_option autoImplicit false

namespace EntitySchema.Field

def looseName? (v : Value) : Option String := v.looseText?.filter (!·.isEmpty)

def looseKind? (v : Value) : Option FieldKind := v.looseText?.bind FieldKind.ofWord?

structure Draft where
  field : Field
  refused : List String

def Draft.put {α : Type} (d : Draft) (name : String) (reading : Option α) (set : Field → α → Field) :
    Draft :=
  match reading with
  | some a => { d with field := set d.field a }
  | none => { d with refused := d.refused ++ [name] }

def Draft.set (d : Draft) (name : String) (v : Value) : Draft :=
  match name with
  | "name" => d.put name (looseName? v) fun f a => { f with name := a }
  | "type" => d.put name (looseName? v) fun f a => { f with typeName := a }
  | "kind" => d.put name (looseKind? v) fun f a => { f with kind := a }
  | "is_id" => d.put name v.looseBool? fun f a => { f with isId := a }
  | "is_list" => d.put name v.looseBool? fun f a => { f with isList := a }
  | "is_required" => d.put name v.looseBool? fun f a => { f with isRequired := a }
  | "is_unique" => d.put name v.looseBool? fun f a => { f with isUnique := a }
  | "is_nullable" => d.put name v.looseBool? fun f a => { f with isNullable := a }
  | "is_optional" => d.put name v.looseBool? fun f a => { f with isOptional := a }
  | "is_read_only" => d.put name v.looseBool? fun f a => { f with isReadOnly := a }
  | "is_updated_at" => d.put name v.looseBool? fun f a => { f with isUpdatedAt := a }
  | "has_default_value" => d.put name v.looseBool? fun f a => { f with hasDefaultValue := a }
  | "has_db_default" => d.put name v.looseBool? fun f a => { f with hasDbDefault := a }
  | "default" => d.put name v.looseDefault? fun f a => { f with defaultValue := a }
  | "is_part_of_composite_primary_key" =>
    d.put name v.looseBool? fun f a => { f with isPartOfCompositePrimaryKey := a }
  | "is_self_relation" => d.put name v.looseBool? fun f a => { f with isSelfRelation := a }
  | "relation_name" =>
    d.put name (Value.optional Value.looseText? v) fun f a => { f with relationName := a }
  | "relation_from_fields" =>
    d.put name (Value.optional Value.looseNames? v) fun f a => { f with relationFrom := a }
  | "relation_to_fields" =>
    d.put name (Value.optional Value.looseNames? v) fun f a => { f with relationTo := a }
  | "documentation" =>
    d.put name (Value.optional Value.looseText? v) fun f a => { f with documentation := a }
  | _ => { d with refused := d.refused ++ [name] }

def requiredAttributes : List String := ["name", "type", "kind"]

def ofAttributes (attributes : List (String × Value)) : Except (List String) Field :=
  let missing := requiredAttributes.filter fun n => (attributes.lookup n).isNone
  let draft := attributes.foldl (fun (d : Draft) a => d.set a.1 a.2) ⟨Inhabited.default, missing⟩
  if draft.refused.isEmpty then .ok draft.field else .error draft.refused

end EntitySchema.Field
