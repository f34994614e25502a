import EntitySchema.Compile.Compile

/-!
# Inherited properties of values

A property that passes from a value to everything in it passes from a document to all that is read of
it: to what stands under a key, to the nodes of a section, to the fields of a model, to a default and
to the arguments of a default function.
-/

set_option autoImplicit false

namespace EntitySchema

namespace Value

/-- What an index of entries finds is among them. -/
theorem exists_mem_of_lookup {key : String} {entries : List (Value × Value)} {v : Value}
    (h : lookup key entries = some v) : ∃ e ∈ entries, e.2 = v := by
  induction entries with
  | nil => cases h
  | cons e entries ih =>
    obtain ⟨k, value⟩ := e
    have hrest : lookup key entries = some v → ∃ e ∈ (k, value) :: entries, e.2 = v := by
      intro hl
      obtain ⟨e, he, hv⟩ := ih hl
      exact ⟨e, List.mem_cons_of_mem _ he, hv⟩
    cases k with
    | text name =>
      rw [lookup] at h
      split at h
      · exact ⟨_, List.mem_cons_self, Option.some.inj h⟩
      · exact hrest h
    | _ => exact hrest h

theorem value_sectionNodes (dataModel : Value) (name : String) :
    (sectionNodes dataModel name).value = (dataModel.get name).items?.getD [] := by
  unfold sectionNodes
  cases dataModel.get name <;> rfl

theorem of_bind_eq_some {α β : Type} {o : Option α} {k : α → Option β} {b : β} {p : Prop}
    (h : ∀ a, o = some a → k a = some b → p) (hb : (o >>= k) = some b) : p := by
  obtain ⟨a, ho, ha⟩ := Option.bind_eq_some_iff.mp hb
  exact h a ho ha

theorem defaultValue_fieldNode? {v : Value} {node : FieldNode} (h : v.fieldNode? = some node) :
    node.defaultValue = v.get "default" := by
  unfold fieldNode? at h
  -- Every member but the default may refuse the node, so all of them are gone through.
  revert h
  repeat refine of_bind_eq_some fun _ _ => ?_
  rintro ⟨⟩
  rfl

theorem fields_modelNode? {v : Value} {node : ModelNode} (h : v.modelNode? = some node) :
    (v.get "fields").items? = some node.fields := by
  unfold modelNode? at h
  revert h
  refine of_bind_eq_some fun _ _ => of_bind_eq_some fun name _ => ?_
  refine of_bind_eq_some fun fields hfields => ?_
  repeat refine of_bind_eq_some fun _ _ => ?_
  rintro ⟨⟩
  exact hfields

theorem args_callNode? {v : Value} {node : CallNode} (h : v.callNode? = some node) :
    node.args = ((v.get "args").items?).getD [] := by
  unfold callNode? at h
  revert h
  refine of_bind_eq_some fun _ _ => of_bind_eq_some fun name _ => ?_
  refine of_bind_eq_some fun args hargs => ?_
  rintro ⟨⟩
  unfold optional at hargs
  split at hargs
  · next hnull =>
    cases hargs
    rw [hnull]
    rfl
  · obtain ⟨items, hitems, rfl⟩ := Option.map_eq_some_iff.mp hargs
    rw [hitems]

/-- A property that passes to the items of a sequence and to what stands under the keys of a
mapping. -/
structure Inherited (P : Value → Prop) : Prop where
  null : P .null
  item : ∀ {frozen items}, P (.seq frozen items) → ∀ v ∈ items, P v
  entry : ∀ {views entries}, P (.map views entries) → ∀ e ∈ entries, P e.2

namespace Inherited

variable {P : Value → Prop} (hP : Inherited P) {v : Value} (h : P v)
include hP h

theorem get (key : String) : P (v.get key) := by
  cases v with
  | map views entries =>
    rw [Value.get]
    cases hl : lookup key entries with
    | none => exact hP.null
    | some found =>
      obtain ⟨e, he, rfl⟩ := exists_mem_of_lookup hl
      exact hP.entry h e he
  | _ => exact hP.null

theorem items? {items : List Value} (hi : v.items? = some items) : ∀ item ∈ items, P item := by
  cases v with
  | seq frozen held =>
    cases hi
    exact hP.item h
  | _ => cases hi

theorem getD_items? : ∀ item ∈ v.items?.getD [], P item := by
  cases hi : v.items? with
  | none => exact nofun
  | some items => exact hP.items? h hi

theorem dataModel? {dataModel : Value} (hd : v.dataModel? = some dataModel) : P dataModel := by
  unfold Value.dataModel? at hd
  split at hd
  · cases hd
    split
    · exact hP.get h "datamodel"
    · exact h
  · cases hd

theorem sectionNodes (name : String) : ∀ node ∈ (sectionNodes v name).value, P node := by
  rw [value_sectionNodes]
  exact hP.getD_items? (hP.get h name)

theorem fields {node : ModelNode} (hn : v.modelNode? = some node) : ∀ field ∈ node.fields, P field :=
  hP.items? (hP.get h "fields") (fields_modelNode? hn)

theorem defaultValue {node : FieldNode} (hn : v.fieldNode? = some node) : P node.defaultValue := by
  rw [defaultValue_fieldNode? hn]
  exact hP.get h "default"

theorem args {node : CallNode} (hn : v.callNode? = some node) : ∀ arg ∈ node.args, P arg := by
  rw [args_callNode? hn]
  exact hP.getD_items? (hP.get h "args")

end Inherited

end Value

end EntitySchema
