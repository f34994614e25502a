/-!
# Document values

The data a schema document is made of: scalars, sequences, mappings with arbitrary keys, and the
default functions a caller may have built beforehand. A sequence carries a flag that says whether it is
frozen, that is, whether its holder may change it in place. A frozen sequence is the tuple of the text
forms, an open one the list. A mapping is frozen by read-only views that lie over it, one over the
other; usually it is one or none.
-/

set_option autoImplicit false

namespace EntitySchema

/-- A value of a document. The entries of a mapping stand in insertion order. -/
inductive Value where
  | null
  | bool (b : Bool)
  | int (n : Int)
  | float (x : Float)
  | text (s : String)
  | bytes (bs : List UInt8)
  | seq (frozen : Bool) (items : List Value)
  /-- A mapping under a number of read-only views; it is open if there is none. -/
  | map (views : Nat) (entries : List (Value × Value))
  | call (frozen : Bool) (name : String) (argsFrozen : Bool) (args : List Value)

instance : Inhabited Value := ⟨.null⟩

structure Seq (α : Type) where
  frozen : Bool
  items : List α

namespace Seq

variable {α β : Type}

instance [DecidableEq α] : DecidableEq (Seq α) := fun a b =>
  match a, b with
  | ⟨f, xs⟩, ⟨g, ys⟩ =>
    if h : f = g ∧ xs = ys then .isTrue (by rw [h.1, h.2])
    else .isFalse (fun e => h (by cases e; exact ⟨rfl, rfl⟩))

def empty : Seq α := ⟨false, []⟩

instance : Inhabited (Seq α) := ⟨empty⟩

def isEmpty (s : Seq α) : Bool := s.items.isEmpty

def length (s : Seq α) : Nat := s.items.length

def map (f : α → β) (s : Seq α) : Seq β := ⟨s.frozen, s.items.map f⟩

def withFrozen (frozen : Bool) (s : Seq α) : Seq α := ⟨frozen, s.items⟩

@[simp] theorem items_withFrozen (f : Bool) (s : Seq α) : (s.withFrozen f).items = s.items := rfl

@[simp] theorem frozen_withFrozen (f : Bool) (s : Seq α) : (s.withFrozen f).frozen = f := rfl

@[simp] theorem items_map (f : α → β) (s : Seq α) : (s.map f).items = s.items.map f := rfl

end Seq

namespace Value

def isMap : Value → Bool
  | .map .. => true
  | _ => false

def items? : Value → Option (List Value)
  | .seq _ items => some items
  | _ => none

def text? : Value → Option String
  | .text s => some s
  | _ => none

def nonEmptyText? : Value → Option String
  | .text s => if s.isEmpty then none else some s
  | _ => none

def texts? (v : Value) : Option (List String) := v.items?.bind (·.mapM text?)

def lookup (key : String) : List (Value × Value) → Option Value
  | [] => none
  | (.text k, v) :: rest => if k = key then some v else lookup key rest
  | _ :: rest => lookup key rest

def get (v : Value) (key : String) : Value :=
  match v with
  | .map _ entries => (lookup key entries).getD .null
  | _ => .null

/-- An absent or null value reads as `none`, a value of the wanted kind as its content, and anything
else is refused. -/
def optional {α : Type} (read : Value → Option α) (v : Value) : Option (Option α) :=
  match v with
  | .null => some none
  | v => (read v).map some

def bool? : Value → Option Bool
  | .bool b => some b
  | _ => none

def kindName : Value → String
  | .null => "NoneType"
  | .bool _ => "bool"
  | .int _ => "int"
  | .float _ => "float"
  | .text _ => "str"
  | .bytes _ => "bytes"
  | .seq frozen _ => if frozen then "tuple" else "list"
  | .map views _ => if views = 0 then "dict" else "mappingproxy"
  | .call .. => "FunctionDefault"

end Value

end EntitySchema
