import EntitySchema.Node.Shape
import EntitySchema.Proofs.Arranged.Value

/-!
# Shapes of arranged nodes

Whether a node has the shape of a field, a model, an enum or a default function does not depend on the
order of its entries, and neither does what is read of it but for the values that are taken over as they
are: the default of a field, the fields of a model and the arguments of a function.
-/

set_option autoImplicit false

namespace EntitySchema

variable {α β γ : Type}

namespace Value

theorem optional_arranged {read : Value → Option α} (h : ∀ v : Value, read v.arranged = read v)
    (v : Value) : optional read v.arranged = optional read v := by
  have hread := h v
  cases v with
  | null => rfl
  | _ => exact congrArg (Option.map some) hread

theorem bind_eq_map_bind {o : Option α} {k : α → Option β} {k' : α → Option γ} {f : β → γ}
    (h : ∀ a, k' a = (k a).map f) : (o >>= k') = (o >>= k).map f := by
  cases o with
  | none => rfl
  | some a => exact h a

theorem items?_bind_arranged {read : Value → Option α}
    (h : ∀ v : Value, read v.arranged = read v) (v : Value) :
    (v.arranged.items?.bind fun items => items.mapM read) =
      v.items?.bind fun items => items.mapM read := by
  rw [items?_arranged, Option.bind_map]
  congr 1
  funext items
  have hread : read ∘ arranged = read := funext h
  rw [Function.comp_apply, List.mapM_map, hread]

theorem texts?_arranged (v : Value) : v.arranged.texts? = v.texts? :=
  items?_bind_arranged text?_arranged v

theorem textGroups?_arranged (v : Value) : v.arranged.textGroups? = v.textGroups? :=
  items?_bind_arranged texts?_arranged v

theorem optionalBool_arranged (v : Value) (key : String) :
    v.arranged.optionalBool key = v.optionalBool key := by
  rw [optionalBool, get_arranged, optional_arranged bool?_arranged, ← optionalBool]

theorem optionalText_arranged (v : Value) (key : String) :
    v.arranged.optionalText key = v.optionalText key := by
  rw [optionalText, get_arranged, optional_arranged text?_arranged, ← optionalText]

theorem optionalTexts_arranged (v : Value) (key : String) :
    v.arranged.optionalTexts key = v.optionalTexts key := by
  rw [optionalTexts, get_arranged, optional_arranged texts?_arranged, ← optionalTexts]

theorem name_arranged (v : Value) (key : String) :
    (v.arranged.get key).nonEmptyText? = (v.get key).nonEmptyText? := by
  rw [get_arranged, nonEmptyText?_arranged]

theorem keyNode?_arranged (v : Value) : v.arranged.keyNode? = v.keyNode? := by
  rw [keyNode?, keyNode?, isMap_arranged, optionalText_arranged, get_arranged, texts?_arranged]

theorem enumNode?_arranged (v : Value) : v.arranged.enumNode? = v.enumNode? := by
  have hname : ∀ v : Value, v.arranged.enumValueName? = v.enumValueName? :=
    fun v => name_arranged v "name"
  have hvalues := items?_bind_arranged hname (v.get "values")
  rw [enumNode?, enumNode?, isMap_arranged, name_arranged, get_arranged, hvalues,
    optionalText_arranged]

end Value

def FieldNode.arranged (node : FieldNode) : FieldNode :=
  { node with defaultValue := node.defaultValue.arranged }

def ModelNode.arranged (node : ModelNode) : ModelNode :=
  { node with fields := node.fields.map Value.arranged }

def CallNode.arranged (node : CallNode) : CallNode :=
  { node with args := node.args.map Value.arranged }

namespace Value

theorem fieldNode?_arranged (v : Value) :
    v.arranged.fieldNode? = v.fieldNode?.map FieldNode.arranged := by
  unfold fieldNode?
  rw [isMap_arranged, name_arranged, name_arranged, name_arranged]
  refine bind_eq_map_bind fun _ => ?_
  simp only [optionalBool_arranged, optionalTexts_arranged, optionalText_arranged]
  rw [get_arranged v "default"]
  -- The member of the default is the only one that is not the same, and it is never refused.
  repeat refine bind_eq_map_bind fun _ => ?_
  rfl

theorem modelNode?_arranged (v : Value) :
    v.arranged.modelNode? = v.modelNode?.map ModelNode.arranged := by
  unfold modelNode?
  rw [isMap_arranged, name_arranged, get_arranged v "fields", items?_arranged,
    get_arranged v "primaryKey", optional_arranged keyNode?_arranged,
    get_arranged v "uniqueFields", optional_arranged textGroups?_arranged, optionalText_arranged,
    optionalText_arranged]
  refine bind_eq_map_bind fun _ => bind_eq_map_bind fun name => ?_
  rw [Option.bind_eq_bind, Option.bind_map]
  repeat refine bind_eq_map_bind fun _ => ?_
  rfl

theorem callNode?_arranged (v : Value) :
    v.arranged.callNode? = v.callNode?.map CallNode.arranged := by
  have hargs : optional items? (v.arranged.get "args") =
      (optional items? (v.get "args")).map (Option.map (List.map arranged)) := by
    rw [get_arranged]
    cases v.get "args" with
    | seq frozen items => exact congrArg (some ∘ some) (arrangedItems_eq_map items)
    | _ => rfl
  unfold callNode?
  rw [isMap_arranged, name_arranged, hargs]
  refine bind_eq_map_bind fun _ => bind_eq_map_bind fun name => ?_
  rw [Option.bind_eq_bind, Option.bind_map]
  refine bind_eq_map_bind fun args => ?_
  cases args <;> rfl

end Value

end EntitySchema
