import EntitySchema.Proofs.Inherited
import Mathlib.Data.List.Forall2

/-!
# What accepted nodes carry

A node is accepted just if it is a mapping in which every member that is read without a question is
there, in the form in which it is read, and every other member is of its kind or null or absent. The
content of an accepted node is what it carries.
-/

set_option autoImplicit false

namespace EntitySchema.Value

variable {α : Type}

def at? (v : Value) (key : String) : Option Value :=
  match v with
  | .map _ entries => lookup key entries
  | _ => none

def Optionally (P : Value → α → Prop) (v : Value) : Option α → Prop
  | none => v = .null
  | some a => P v a

def IsFlag (v : Value) (b : Bool) : Prop := v = .bool b

def IsText (v : Value) (text : String) : Prop := v = .text text

def IsItems (v : Value) (items : List Value) : Prop := ∃ frozen, v = .seq frozen items

def IsTexts (v : Value) (texts : List String) : Prop := v.IsItems (texts.map .text)

def IsTextGroups (v : Value) (groups : List (List String)) : Prop :=
  ∃ items, v.IsItems items ∧ List.Forall₂ IsTexts items groups

def CarriesName (v : Value) (key name : String) : Prop := v.at? key = some (.text name) ∧ name ≠ ""

def CarriesItems (v : Value) (key : String) (items : List Value) : Prop :=
  ∃ found, v.at? key = some found ∧ found.IsItems items

def CarriesOptional (P : Value → α → Prop) (v : Value) (key : String) (content : Option α) : Prop :=
  (v.get key).Optionally P content

structure CarriesField (v : Value) (node : FieldNode) : Prop where
  isMap : v.isMap = true
  name : v.CarriesName "name" node.name
  typeName : v.CarriesName "type" node.typeName
  kind : v.CarriesName "kind" node.kind
  isRequired : v.CarriesOptional IsFlag "isRequired" node.isRequired
  isList : v.CarriesOptional IsFlag "isList" node.isList
  isId : v.CarriesOptional IsFlag "isId" node.isId
  isUnique : v.CarriesOptional IsFlag "isUnique" node.isUnique
  isReadOnly : v.CarriesOptional IsFlag "isReadOnly" node.isReadOnly
  isUpdatedAt : v.CarriesOptional IsFlag "isUpdatedAt" node.isUpdatedAt
  hasDefaultValue : v.CarriesOptional IsFlag "hasDefaultValue" node.hasDefaultValue
  isNullable : v.CarriesOptional IsFlag "isNullable" node.isNullable
  relationFrom : v.CarriesOptional IsTexts "relationFromFields" node.relationFrom
  relationTo : v.CarriesOptional IsTexts "relationToFields" node.relationTo
  relationName : v.CarriesOptional IsText "relationName" node.relationName
  documentation : v.CarriesOptional IsText "documentation" node.documentation
  defaultValue : v.get "default" = node.defaultValue

structure CarriesKey (v : Value) (node : KeyNode) : Prop where
  isMap : v.isMap = true
  name : v.CarriesOptional IsText "name" node.name
  fields : v.CarriesItems "fields" (node.fields.map .text)

structure CarriesModel (v : Value) (node : ModelNode) : Prop where
  isMap : v.isMap = true
  name : v.CarriesName "name" node.name
  fields : v.CarriesItems "fields" node.fields
  primaryKey : v.CarriesOptional CarriesKey "primaryKey" node.primaryKey
  uniqueFields : v.CarriesOptional IsTextGroups "uniqueFields" node.uniqueFields
  dbName : v.CarriesOptional IsText "dbName" node.dbName
  documentation : v.CarriesOptional IsText "documentation" node.documentation

structure CarriesEnum (v : Value) (node : EnumNode) : Prop where
  isMap : v.isMap = true
  name : v.CarriesName "name" node.name
  values : ∃ items, v.CarriesItems "values" items ∧
    List.Forall₂ (fun item value => item.CarriesName "name" value) items node.values
  documentation : v.CarriesOptional IsText "documentation" node.documentation

/-- Arguments that are null or absent count as none. -/
structure CarriesCall (v : Value) (node : CallNode) : Prop where
  isMap : v.isMap = true
  name : v.CarriesName "name" node.name
  args : ∃ args, v.CarriesOptional IsItems "args" args ∧ node.args = args.getD []

/-! Members. -/

theorem at?_eq_some_iff {v found : Value} {key : String} (h : found ≠ .null) :
    v.at? key = some found ↔ v.get key = found := by
  cases v with
  | map views entries =>
    rw [at?, get]
    cases lookup key entries with
    | none => simp [h.symm]
    | some held => simp
  | _ =>
    refine ⟨fun hnone => ?_, fun hnull => absurd hnull.symm h⟩
    cases hnone

theorem optional_eq_some_iff {read : Value → Option α} {P : Value → α → Prop}
    (h : ∀ v a, read v = some a ↔ P v a) (hnull : read .null = none) {v : Value}
    {content : Option α} : optional read v = some content ↔ v.Optionally P content := by
  cases v with
  | null =>
    cases content with
    | none => exact ⟨fun _ => rfl, fun _ => rfl⟩
    | some a => simp [optional, Optionally, ← h, hnull]
  | _ =>
    cases content with
    | none => simp [optional, Optionally]
    | some a => simp [optional, Optionally, ← h]

theorem bool?_eq_some_iff (v : Value) (b : Bool) : v.bool? = some b ↔ v.IsFlag b := by
  cases v <;> simp [bool?, IsFlag]

theorem text?_eq_some_iff (v : Value) (text : String) : v.text? = some text ↔ v.IsText text := by
  cases v <;> simp [text?, IsText]

theorem items?_eq_some_iff (v : Value) (items : List Value) :
    v.items? = some items ↔ v.IsItems items := by
  cases v <;> simp [items?, IsItems]

theorem nonEmptyText?_get_eq_some_iff {v : Value} {key name : String} :
    (v.get key).nonEmptyText? = some name ↔ v.CarriesName key name := by
  have hat : v.at? key = some (.text name) ↔ v.get key = .text name :=
    at?_eq_some_iff (Value.noConfusion : Value.text name = .null → False)
  rw [CarriesName, hat]
  cases v.get key with
  | text text =>
    rw [nonEmptyText?]
    split
    · next hempty =>
      have htext : text = "" := by simpa using hempty
      simp [htext, eq_comm]
    · next hempty =>
      have htext : text ≠ "" := by simpa using hempty
      constructor
      · rintro ⟨⟩
        exact ⟨rfl, htext⟩
      · rintro ⟨⟨⟩, -⟩
        rfl
  | _ => simp [nonEmptyText?]

theorem isItems_get_iff {v : Value} {key : String} {items : List Value} :
    (v.get key).IsItems items ↔ v.CarriesItems key items := by
  have hat : ∀ found : Value, found.IsItems items → (v.at? key = some found ↔ v.get key = found) := by
    rintro _ ⟨frozen, rfl⟩
    exact at?_eq_some_iff (Value.noConfusion : Value.seq frozen items = .null → False)
  constructor
  · intro hget
    exact ⟨v.get key, (hat _ hget).mpr rfl, hget⟩
  · rintro ⟨found, hfound, hitems⟩
    rwa [(hat found hitems).mp hfound]

theorem mapM_eq_some_iff {read : Value → Option α} {P : Value → α → Prop}
    (h : ∀ v a, read v = some a ↔ P v a) {items : List Value} {contents : List α} :
    items.mapM read = some contents ↔ List.Forall₂ P items contents := by
  induction items generalizing contents with
  | nil => simp [eq_comm]
  | cons item items ih =>
    simp only [List.mapM_cons, Option.pure_def, Option.bind_eq_bind, Option.bind_eq_some_iff]
    constructor
    · rintro ⟨content, hitem, rest, hrest, hcontents⟩
      cases hcontents
      exact .cons ((h item content).mp hitem) (ih.mp hrest)
    · intro hall
      cases hall with
      | cons hitem hrest => exact ⟨_, (h _ _).mpr hitem, _, ih.mpr hrest, rfl⟩

theorem texts?_eq_some_iff (v : Value) (texts : List String) :
    v.texts? = some texts ↔ v.IsTexts texts := by
  have hforall : ∀ items : List Value, items = texts.map .text ↔ List.Forall₂ IsText items texts := by
    intro items
    rw [← List.forall₂_eq_eq_eq, List.forall₂_map_right_iff]
    rfl
  simp only [texts?, Option.bind_eq_some_iff, items?_eq_some_iff, mapM_eq_some_iff text?_eq_some_iff,
    IsTexts, IsItems, ← hforall]
  constructor
  · rintro ⟨items, ⟨frozen, rfl⟩, rfl⟩
    exact ⟨frozen, rfl⟩
  · rintro ⟨frozen, rfl⟩
    exact ⟨_, ⟨frozen, rfl⟩, rfl⟩

theorem textGroups?_eq_some_iff (v : Value) (groups : List (List String)) :
    v.textGroups? = some groups ↔ v.IsTextGroups groups := by
  simp only [textGroups?, Option.bind_eq_some_iff, items?_eq_some_iff,
    mapM_eq_some_iff texts?_eq_some_iff, IsTextGroups]

/-! Nodes. -/

section Optional

variable {v : Value} {key : String}

theorem optionalBool_eq_some_iff {flag : Option Bool} :
    v.optionalBool key = some flag ↔ v.CarriesOptional IsFlag key flag :=
  optional_eq_some_iff bool?_eq_some_iff rfl

theorem optionalText_eq_some_iff {text : Option String} :
    v.optionalText key = some text ↔ v.CarriesOptional IsText key text :=
  optional_eq_some_iff text?_eq_some_iff rfl

theorem optionalTexts_eq_some_iff {texts : Option (List String)} :
    v.optionalTexts key = some texts ↔ v.CarriesOptional IsTexts key texts :=
  optional_eq_some_iff texts?_eq_some_iff rfl

end Optional

theorem guard_isMap_eq_some_iff {v : Value} :
    (guard (v.isMap = true) : Option Unit) = some () ↔ v.isMap = true := by
  unfold guard
  split
  · next hmap => exact ⟨fun _ => hmap, fun _ => rfl⟩
  · next hmap =>
    refine ⟨fun hnone => ?_, fun h => absurd h hmap⟩
    cases hnone

theorem bind_eq_some_of {β : Type} {o : Option α} {k : α → Option β} {a : α} {b : β}
    (h : o = some a) (hk : k a = some b) : (o >>= k) = some b := by
  rw [h]
  exact hk

/-- A node declares a field just if it carries one. -/
theorem fieldNode?_eq_some_iff (v : Value) (node : FieldNode) :
    v.fieldNode? = some node ↔ v.CarriesField node := by
  unfold fieldNode?
  constructor
  · refine of_bind_eq_some fun _ isMap => of_bind_eq_some fun _ name => ?_
    refine of_bind_eq_some fun _ typeName => of_bind_eq_some fun _ kind => ?_
    refine of_bind_eq_some fun _ isRequired => of_bind_eq_some fun _ isList => ?_
    refine of_bind_eq_some fun _ isId => of_bind_eq_some fun _ isUnique => ?_
    refine of_bind_eq_some fun _ isReadOnly => of_bind_eq_some fun _ isUpdatedAt => ?_
    refine of_bind_eq_some fun _ hasDefaultValue => of_bind_eq_some fun _ isNullable => ?_
    refine of_bind_eq_some fun _ relationFrom => of_bind_eq_some fun _ relationTo => ?_
    refine of_bind_eq_some fun _ relationName => of_bind_eq_some fun _ documentation => ?_
    rintro ⟨⟩
    exact {
      isMap := guard_isMap_eq_some_iff.mp isMap
      name := nonEmptyText?_get_eq_some_iff.mp name
      typeName := nonEmptyText?_get_eq_some_iff.mp typeName
      kind := nonEmptyText?_get_eq_some_iff.mp kind
      isRequired := optionalBool_eq_some_iff.mp isRequired
      isList := optionalBool_eq_some_iff.mp isList
      isId := optionalBool_eq_some_iff.mp isId
      isUnique := optionalBool_eq_some_iff.mp isUnique
      isReadOnly := optionalBool_eq_some_iff.mp isReadOnly
      isUpdatedAt := optionalBool_eq_some_iff.mp isUpdatedAt
      hasDefaultValue := optionalBool_eq_some_iff.mp hasDefaultValue
      isNullable := optionalBool_eq_some_iff.mp isNullable
      relationFrom := optionalTexts_eq_some_iff.mp relationFrom
      relationTo := optionalTexts_eq_some_iff.mp relationTo
      relationName := optionalText_eq_some_iff.mp relationName
      documentation := optionalText_eq_some_iff.mp documentation
      defaultValue := rfl }
  · intro h
    refine bind_eq_some_of (guard_isMap_eq_some_iff.mpr h.isMap) ?_
    refine bind_eq_some_of (nonEmptyText?_get_eq_some_iff.mpr h.name) ?_
    refine bind_eq_some_of (nonEmptyText?_get_eq_some_iff.mpr h.typeName) ?_
    refine bind_eq_some_of (nonEmptyText?_get_eq_some_iff.mpr h.kind) ?_
    refine bind_eq_some_of (optionalBool_eq_some_iff.mpr h.isRequired) ?_
    refine bind_eq_some_of (optionalBool_eq_some_iff.mpr h.isList) ?_
    refine bind_eq_some_of (optionalBool_eq_some_iff.mpr h.isId) ?_
    refine bind_eq_some_of (optionalBool_eq_some_iff.mpr h.isUnique) ?_
    refine bind_eq_some_of (optionalBool_eq_some_iff.mpr h.isReadOnly) ?_
    refine bind_eq_some_of (optionalBool_eq_some_iff.mpr h.isUpdatedAt) ?_
    refine bind_eq_some_of (optionalBool_eq_some_iff.mpr h.hasDefaultValue) ?_
    refine bind_eq_some_of (optionalBool_eq_some_iff.mpr h.isNullable) ?_
    refine bind_eq_some_of (optionalTexts_eq_some_iff.mpr h.relationFrom) ?_
    refine bind_eq_some_of (optionalTexts_eq_some_iff.mpr h.relationTo) ?_
    refine bind_eq_some_of (optionalText_eq_some_iff.mpr h.relationName) ?_
    refine bind_eq_some_of (optionalText_eq_some_iff.mpr h.documentation) ?_
    rw [h.defaultValue]
    rfl

theorem keyNode?_eq_some_iff (v : Value) (node : KeyNode) :
    v.keyNode? = some node ↔ v.CarriesKey node := by
  unfold keyNode?
  constructor
  · refine of_bind_eq_some fun _ isMap => of_bind_eq_some fun _ name => ?_
    refine of_bind_eq_some fun _ fields => ?_
    rintro ⟨⟩
    exact {
      isMap := guard_isMap_eq_some_iff.mp isMap
      name := optionalText_eq_some_iff.mp name
      fields := isItems_get_iff.mp ((texts?_eq_some_iff _ _).mp fields) }
  · intro h
    refine bind_eq_some_of (guard_isMap_eq_some_iff.mpr h.isMap) ?_
    refine bind_eq_some_of (optionalText_eq_some_iff.mpr h.name) ?_
    refine bind_eq_some_of ((texts?_eq_some_iff _ _).mpr (isItems_get_iff.mpr h.fields)) ?_
    rfl

theorem modelNode?_eq_some_iff (v : Value) (node : ModelNode) :
    v.modelNode? = some node ↔ v.CarriesModel node := by
  have hkey : ∀ content, optional keyNode? (v.get "primaryKey") = some content ↔
      v.CarriesOptional CarriesKey "primaryKey" content :=
    fun _ => optional_eq_some_iff keyNode?_eq_some_iff rfl
  have hgroups : ∀ content, optional textGroups? (v.get "uniqueFields") = some content ↔
      v.CarriesOptional IsTextGroups "uniqueFields" content :=
    fun _ => optional_eq_some_iff textGroups?_eq_some_iff rfl
  unfold modelNode?
  constructor
  · refine of_bind_eq_some fun _ isMap => of_bind_eq_some fun _ name => ?_
    refine of_bind_eq_some fun _ fields => of_bind_eq_some fun _ primaryKey => ?_
    refine of_bind_eq_some fun _ uniqueFields => of_bind_eq_some fun _ dbName => ?_
    refine of_bind_eq_some fun _ documentation => ?_
    rintro ⟨⟩
    exact {
      isMap := guard_isMap_eq_some_iff.mp isMap
      name := nonEmptyText?_get_eq_some_iff.mp name
      fields := isItems_get_iff.mp ((items?_eq_some_iff _ _).mp fields)
      primaryKey := (hkey _).mp primaryKey
      uniqueFields := (hgroups _).mp uniqueFields
      dbName := optionalText_eq_some_iff.mp dbName
      documentation := optionalText_eq_some_iff.mp documentation }
  · intro h
    refine bind_eq_some_of (guard_isMap_eq_some_iff.mpr h.isMap) ?_
    refine bind_eq_some_of (nonEmptyText?_get_eq_some_iff.mpr h.name) ?_
    refine bind_eq_some_of ((items?_eq_some_iff _ _).mpr (isItems_get_iff.mpr h.fields)) ?_
    refine bind_eq_some_of ((hkey _).mpr h.primaryKey) ?_
    refine bind_eq_some_of ((hgroups _).mpr h.uniqueFields) ?_
    refine bind_eq_some_of (optionalText_eq_some_iff.mpr h.dbName) ?_
    refine bind_eq_some_of (optionalText_eq_some_iff.mpr h.documentation) ?_
    rfl

theorem enumNode?_eq_some_iff (v : Value) (node : EnumNode) :
    v.enumNode? = some node ↔ v.CarriesEnum node := by
  have hnames : ∀ (items : List Value) (values : List String),
      items.mapM enumValueName? = some values ↔
        List.Forall₂ (fun item value => item.CarriesName "name" value) items values :=
    fun _ _ => mapM_eq_some_iff fun _ _ => nonEmptyText?_get_eq_some_iff
  have hvalues : ∀ values, (v.get "values").items?.bind (·.mapM enumValueName?) = some values ↔
      ∃ items, v.CarriesItems "values" items ∧
        List.Forall₂ (fun item value => item.CarriesName "name" value) items values := by
    intro values
    simp only [Option.bind_eq_some_iff, items?_eq_some_iff, isItems_get_iff, hnames]
  unfold enumNode?
  constructor
  · refine of_bind_eq_some fun _ isMap => of_bind_eq_some fun _ name => ?_
    refine of_bind_eq_some fun _ values => of_bind_eq_some fun _ documentation => ?_
    rintro ⟨⟩
    exact {
      isMap := guard_isMap_eq_some_iff.mp isMap
      name := nonEmptyText?_get_eq_some_iff.mp name
      values := (hvalues _).mp values
      documentation := optionalText_eq_some_iff.mp documentation }
  · intro h
    refine bind_eq_some_of (guard_isMap_eq_some_iff.mpr h.isMap) ?_
    refine bind_eq_some_of (nonEmptyText?_get_eq_some_iff.mpr h.name) ?_
    refine bind_eq_some_of ((hvalues _).mpr h.values) ?_
    refine bind_eq_some_of (optionalText_eq_some_iff.mpr h.documentation) ?_
    rfl

theorem callNode?_eq_some_iff (v : Value) (node : CallNode) :
    v.callNode? = some node ↔ v.CarriesCall node := by
  have hargs : ∀ content, optional items? (v.get "args") = some content ↔
      v.CarriesOptional IsItems "args" content :=
    fun _ => optional_eq_some_iff items?_eq_some_iff rfl
  unfold callNode?
  constructor
  · refine of_bind_eq_some fun _ isMap => of_bind_eq_some fun _ name => ?_
    refine of_bind_eq_some fun held args => ?_
    rintro ⟨⟩
    exact {
      isMap := guard_isMap_eq_some_iff.mp isMap
      name := nonEmptyText?_get_eq_some_iff.mp name
      args := ⟨held, (hargs held).mp args, rfl⟩ }
  · intro h
    obtain ⟨held, hheld, hnode⟩ := h.args
    refine bind_eq_some_of (guard_isMap_eq_some_iff.mpr h.isMap) ?_
    refine bind_eq_some_of (nonEmptyText?_get_eq_some_iff.mpr h.name) ?_
    refine bind_eq_some_of ((hargs held).mpr hheld) ?_
    rw [← hnode]
    rfl

end EntitySchema.Value
