import EntitySchema.Proofs.Declarations
import EntitySchema.Proofs.WellFormed

/-!
# First declarations

A section is read with the first declaration of each name, and a name is looked up as the last entry of
an index. The two agree because no name occurs twice at any level, so what is found under a name is the
only thing of that name, and it comes from the first declaration.
-/

set_option autoImplicit false

namespace EntitySchema

def Value.modelNodes (dataModel : Value) : List ModelNode :=
  (sectionNodes dataModel "models").value.filterMap modelNode?

def Value.enumNodes (dataModel : Value) : List EnumNode :=
  (sectionNodes dataModel "enums").value.filterMap enumNode?

def ModelNode.fieldNodes (node : ModelNode) : List FieldNode := node.fields.filterMap Value.fieldNode?

def Field.DeclaredBy (f : Field) (model : String) (node : FieldNode) : Prop :=
  ∃ frozen keyFields, f = (Field.ofNode frozen model keyFields node).value

/-- The names of a schema are the declared ones in order of their first occurrences. The fields of a
model are those of the first declaration of its name, each declared first among them; and the values of
an enum are those of the first declaration of its name. -/
structure Schema.DeclaredFirst (s : Schema) (dataModel : Value) : Prop where
  modelNames : s.modelNames = (dataModel.modelNodes.map (·.name)).eraseDups
  enumNames : s.enums.items.map (·.name) = (dataModel.enumNodes.map (·.name)).eraseDups
  fields : ∀ m ∈ s.models.items, ∃ node, dataModel.modelNodes.find? (·.name == m.name) = some node ∧
    m.fieldNames = (node.fieldNodes.map (·.name)).eraseDups ∧
    ∀ f ∈ m.fields.items, ∃ fieldNode, node.fieldNodes.find? (·.name == f.name) = some fieldNode ∧
      f.DeclaredBy m.name fieldNode
  values : ∀ e ∈ s.enums.items, ∃ node, dataModel.enumNodes.find? (·.name == e.name) = some node ∧
    e.values.items = node.values.eraseDups

structure Schema.NamesDistinct (s : Schema) : Prop where
  models : s.modelNames.Nodup
  enums : (s.enums.items.map (·.name)).Nodup
  fields : ∀ m ∈ s.models.items, m.fieldNames.Nodup
  values : ∀ e ∈ s.enums.items, e.values.items.Nodup

structure Schema.LookupsExact (s : Schema) : Prop where
  model? : ∀ name m, s.model? name = some m ↔ m ∈ s.models.items ∧ m.name = name
  enum? : ∀ name e, s.enum? name = some e ↔ e ∈ s.enums.items ∧ e.name = name
  field? : ∀ m ∈ s.models.items, ∀ name f, m.field? name = some f ↔ f ∈ m.fields.items ∧ f.name = name
  reverse? : ∀ name, s.reverse? name = (s.model? name).map (·.reverseRelations)

/-! Flags. -/

theorem Field.not_set_iff (flag : Option Bool) : flag.getD false = false ↔ flag ≠ some true := by
  cases flag with
  | none => simp
  | some b => simp

/-! Enums. -/

namespace EnumType

theorem value_distinctValues (enumName : String) (seen values : List String) :
    (distinctValues enumName seen values).value = firstByKey id seen values := by
  induction values generalizing seen with
  | nil => rfl
  | cons value values ih =>
    rw [distinctValues, firstByKey]
    by_cases hv : value ∈ seen
    · simp [hv, ih]
    · simp [hv, ih]

theorem values_ofNode (frozen : Bool) (node : EnumNode) :
    (ofNode frozen node).value.values.items = node.values.eraseDups := by
  rw [← distinct_eq_eraseDups, ← value_distinctValues node.name]
  rfl

end EnumType

/-! Models. -/

namespace Model

theorem fieldNames_ofNode (frozen : Bool) (node : ModelNode) :
    (ofNode frozen node).value.fieldNames = (node.fieldNodes.map (·.name)).eraseDups :=
  NodeReader.names_readAll _ Field.name (Field.name_ofNode frozen node.name _) node.fields

theorem exists_declaredBy {frozen : Bool} {node : ModelNode} {f : Field}
    (h : f ∈ (ofNode frozen node).value.fields.items) :
    ∃ fieldNode, node.fieldNodes.find? (·.name == f.name) = some fieldNode ∧
      f.DeclaredBy node.name fieldNode := by
  obtain ⟨fieldNode, hfirst, hf⟩ := NodeReader.exists_first_of_mem_readAll _ Field.name
    (Field.name_ofNode frozen node.name _) node.fields h
  exact ⟨fieldNode, hfirst, frozen, _, hf⟩

end Model

/-! Schemas. -/

namespace Schema

theorem declaredFirst_readSchema (frozen : Bool) (dataModel : Value) :
    (readSchema frozen dataModel).value.DeclaredFirst dataModel where
  modelNames := by
    have hnames : (readSchema frozen dataModel).value.modelNames =
        (Model.readAll frozen (sectionNodes dataModel "models").value).value.map (·.name) :=
      List.map_map
    rw [hnames]
    exact NodeReader.names_readAll _ Model.name (Model.name_ofNode frozen) _
  enumNames := NodeReader.names_readAll _ EnumType.name (fun _ => rfl) _
  fields := by
    intro m hm
    obtain ⟨read, hread, rfl⟩ := List.mem_map.mp hm
    obtain ⟨node, hfirst, rfl⟩ := NodeReader.exists_first_of_mem_readAll _ Model.name
      (Model.name_ofNode frozen) _ hread
    exact ⟨node, hfirst, Model.fieldNames_ofNode frozen node, fun f hf => Model.exists_declaredBy hf⟩
  values := by
    intro e he
    obtain ⟨node, hfirst, rfl⟩ := NodeReader.exists_first_of_mem_readAll _ EnumType.name
      (fun _ => rfl) _ he
    exact ⟨node, hfirst, EnumType.values_ofNode frozen node⟩

theorem DeclaredFirst.namesDistinct {s : Schema} {dataModel : Value} (h : s.DeclaredFirst dataModel) :
    s.NamesDistinct where
  models := h.modelNames ▸ nodup_eraseDups _
  enums := h.enumNames ▸ nodup_eraseDups _
  fields := by
    intro m hm
    obtain ⟨node, -, hnames, -⟩ := h.fields m hm
    exact hnames ▸ nodup_eraseDups _
  values := by
    intro e he
    obtain ⟨node, -, hvalues⟩ := h.values e he
    exact hvalues ▸ nodup_eraseDups _

end Schema

theorem Compiled.lookupsExact {document : Value} {options : Option Options.Settings}
    {overrides : Options.Settings} {c : Compiled}
    (h : (compileWith document options overrides).result = .ok c) : c.schema.LookupsExact := by
  have hw := Compiled.wellFormed h
  constructor
  case model? => exact Schema.model?_eq_some_iff hw
  case enum? => exact Schema.enum?_eq_some_iff hw
  case field? => exact fun m hm => Model.field?_eq_some_iff (hw.models m hm)
  case reverse? => exact Compiled.reverse?_eq h

/-- In a compiled schema every name is declared, occurs once, in the order of first declarations, and
finds what has the name. -/
theorem Compiled.first_declarations_found {document : Value} {options : Option Options.Settings}
    {overrides : Options.Settings} {c : Compiled}
    (h : (compileWith document options overrides).result = .ok c) :
    ∃ dataModel, document.dataModel? = some dataModel ∧ c.schema.DeclaredFirst dataModel ∧
      c.schema.NamesDistinct ∧ c.schema.LookupsExact := by
  obtain ⟨frozen, dataModel, hd, hs, -⟩ := compileWith_eq_ok h
  have hfirst : c.schema.DeclaredFirst dataModel := by
    rw [hs]
    exact Schema.declaredFirst_readSchema frozen dataModel
  exact ⟨dataModel, hd, hfirst, hfirst.namesDistinct, Compiled.lookupsExact h⟩

/-! Users and roles that are declared twice, and a draft whose first declaration has no fields. -/

def registry : Value :=
  Declaration.document [
    Declaration.members [("name", .text "Draft")],
    Declaration.model "User" [Declaration.field "id" "Int" "scalar" [],
      Declaration.members [("name", .text "role")], Declaration.field "name" "String" "scalar" [],
      Declaration.field "id" "String" "scalar" []] [],
    Declaration.model "Draft" [Declaration.field "text" "String" "scalar" []] [],
    Declaration.model "User" [Declaration.field "role" "Role" "enum" []] []]
    [Declaration.enum "Role" ["READER", "EDITOR", "READER"], Declaration.enum "Role" ["OWNER"]]

theorem Compiled.first_declarations_found_registry :
    ∃ c, (compileWith registry none []).result = .ok c ∧ c.schema.modelNames = ["User", "Draft"] ∧
      c.schema.model? "Role" = none ∧
      (∃ m, c.schema.model? "User" = some m ∧ m.fieldNames = ["id", "name"] ∧
        c.schema.reverse? "User" = some m.reverseRelations) ∧
      ∃ e, c.schema.enum? "Role" = some e ∧ e.values.items = ["READER", "EDITOR"] := by
  obtain ⟨c, hc, -⟩ := exists_compiled (rfl : registry.dataModel? = some registry)
  obtain ⟨dataModel, hd, hfirst, -, hfound⟩ := Compiled.first_declarations_found hc
  cases hd
  have hmodels : c.schema.modelNames = ["User", "Draft"] :=
    hfirst.modelNames.trans (by decide +kernel)
  have henums : c.schema.enums.items.map (·.name) = ["Role"] :=
    hfirst.enumNames.trans (by decide +kernel)
  have huser : "User" ∈ c.schema.modelNames := by simp [hmodels]
  have hrole : "Role" ∈ c.schema.enums.items.map (·.name) := by simp [henums]
  obtain ⟨m, hm, hname⟩ := List.mem_map.mp huser
  obtain ⟨e, he, hename⟩ := List.mem_map.mp hrole
  have hmodel := (hfound.model? "User" m).mpr ⟨hm, hname⟩
  have hfields : m.fieldNames = ["id", "name"] := by
    obtain ⟨node, hnode, hnames, -⟩ := hfirst.fields m hm
    have hdeclared : ∀ node ∈ registry.modelNodes.find? (·.name == "User"),
        (node.fieldNodes.map (·.name)).eraseDups = ["id", "name"] := by decide +kernel
    exact hnames.trans (hdeclared node (hname ▸ hnode))
  have hvalues : e.values.items = ["READER", "EDITOR"] := by
    obtain ⟨node, hnode, hdistinct⟩ := hfirst.values e he
    have hdeclared : ∀ node ∈ registry.enumNodes.find? (·.name == "Role"),
        node.values.eraseDups = ["READER", "EDITOR"] := by decide +kernel
    exact hdistinct.trans (hdeclared node (hename ▸ hnode))
  refine ⟨c, hc, hmodels, ?_, ⟨m, hmodel, hfields, ?_⟩,
    e, (hfound.enum? "Role" e).mpr ⟨he, hename⟩, hvalues⟩
  · rw [Option.eq_none_iff_forall_ne_some]
    intro r hr
    obtain ⟨hmem, hrname⟩ := (hfound.model? "Role" r).mp hr
    have hnamed : r.name ∈ c.schema.modelNames := List.mem_map_of_mem hmem
    simp [hmodels, hrname] at hnamed
  · rw [hfound.reverse?, hmodel, Option.map_some]

end EntitySchema
