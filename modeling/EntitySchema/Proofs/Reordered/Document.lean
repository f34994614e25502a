import EntitySchema.Proofs.FirstDeclarations
import EntitySchema.Proofs.Inherited
import EntitySchema.Proofs.Reordered.Schema

/-!
# Documents in another order

Models, enums and the fields of a model may be declared in any order, as long as no name is declared
twice: the document is valid in every order or in none. Where a name is declared twice the first
declaration counts, so there the order matters.
-/

set_option autoImplicit false

namespace EntitySchema

namespace Value

structure AgreeOutside (keys : List String) (v w : Value) : Prop where
  isMap_eq : v.isMap = w.isMap
  get_eq : ∀ key, key ∉ keys → v.get key = w.get key

def ItemsRelated (r : List Value → List Value → Prop) (v w : Value) : Prop :=
  v = w ∨ ∃ xs ys, v.items? = some xs ∧ w.items? = some ys ∧ r xs ys

structure FieldsReordered (v w : Value) : Prop where
  outside : AgreeOutside ["fields"] v w
  fields : ItemsRelated List.Perm (v.get "fields") (w.get "fields")

/-- Data models that differ in the order of their models and enums and of the fields of a model. -/
structure SectionsReordered (v w : Value) : Prop where
  models : ItemsRelated (Rearranged FieldsReordered) (v.get "models") (w.get "models")
  enums : ItemsRelated List.Perm (v.get "enums") (w.get "enums")

def Reordered (v w : Value) : Prop :=
  ∃ dataModel dataModel', v.dataModel? = some dataModel ∧ w.dataModel? = some dataModel' ∧
    dataModel.SectionsReordered dataModel'

end Value

structure Value.NamesDistinct (dataModel : Value) : Prop where
  models : (dataModel.modelNodes.map (·.name)).Nodup
  enums : (dataModel.enumNodes.map (·.name)).Nodup
  fields : ∀ m ∈ dataModel.modelNodes, (m.fieldNodes.map (·.name)).Nodup

def Outcome.isValid? (o : Outcome) : Option Bool := o.result.toOption.map (·.report.isValid)

/-! Corresponding documents are read as corresponding schemas. -/

namespace Value

theorem AgreeOutside.symm {keys : List String} {v w : Value} (h : AgreeOutside keys v w) :
    AgreeOutside keys w v :=
  ⟨h.isMap_eq.symm, fun key hkey => (h.get_eq key hkey).symm⟩

theorem FieldsReordered.refl (v : Value) : v.FieldsReordered v :=
  ⟨⟨rfl, fun _ _ => rfl⟩, .inl rfl⟩

theorem ItemsRelated.rel_items? {r : List Value → List Value → Prop} {v w : Value}
    (h : ItemsRelated r v w) (hr : ∀ xs, r xs xs) : Option.Rel r v.items? w.items? := by
  rcases h with rfl | ⟨xs, ys, hxs, hys, hrel⟩
  · exact rel_self hr v.items?
  · rw [hxs, hys]
    exact .some hrel

theorem ItemsRelated.value_sectionNodes {r : List Value → List Value → Prop} {v w : Value}
    {name : String} (h : ItemsRelated r (v.get name) (w.get name)) (hr : ∀ xs, r xs xs) :
    r (sectionNodes v name).value (sectionNodes w name).value := by
  rw [Value.value_sectionNodes, Value.value_sectionNodes]
  exact rel_getD (h.rel_items? hr) (hr [])

end Value

def ModelNode.Reordered (n n' : ModelNode) : Prop :=
  n.fields.Perm n'.fields ∧ n' = { n with fields := n'.fields }

theorem Value.FieldsReordered.rel_modelNode? {v w : Value} (h : v.FieldsReordered w) :
    Option.Rel ModelNode.Reordered v.modelNode? w.modelNode? := by
  have hget := h.outside.symm.get_eq
  unfold modelNode? optionalText
  -- Past the guard and the name only the members of the fields differ.
  rw [← h.outside.isMap_eq, hget "name" (by decide), hget "primaryKey" (by decide),
    hget "uniqueFields" (by decide), hget "dbName" (by decide), hget "documentation" (by decide)]
  refine rel_bind_left _ fun _ => rel_bind_left _ fun name => ?_
  refine rel_bind (h.fields.rel_items? List.Perm.refl) fun xs ys hp => ?_
  refine rel_bind_left _ fun key => rel_bind_left _ fun groups => ?_
  refine rel_bind_left _ fun dbName => rel_bind_left _ fun documentation => ?_
  exact .some ⟨hp, rfl⟩

theorem ModelNode.Reordered.alike_ofNode {n n' : ModelNode} (h : n.Reordered n')
    (hn : (n.fieldNodes.map (·.name)).Nodup) (frozen : Bool) :
    (Model.ofNode frozen n).value.Alike (Model.ofNode frozen n').value := by
  obtain ⟨hperm, heq⟩ := h
  rw [heq]
  exact ⟨rfl, NodeReader.perm_readAll _ hperm hn, rfl, rfl⟩

theorem Model.Alike.withViews {m m' : Model} (h : m.Alike m') (frozen : Bool)
    (index index' : ReverseIndex) :
    (m.withViews frozen index).Alike (m'.withViews frozen index') where
  name_eq := h.name_eq
  fields_perm := h.fields_perm
  primaryKey_eq := h.primaryKey_eq
  uniqueFields_eq := by
    change Seq.mk _ _ = Seq.mk _ _
    rw [h.uniqueFields_eq]

namespace Value.SectionsReordered

variable {dataModel dataModel' : Value}

theorem rearranged_modelNodes (h : dataModel.SectionsReordered dataModel') :
    Rearranged ModelNode.Reordered dataModel.modelNodes dataModel'.modelNodes :=
  (h.models.value_sectionNodes fun _ => .of_perm FieldsReordered.refl (.refl _)).filterMap
    fun _ _ => FieldsReordered.rel_modelNode?

/-- The models of the data models; those on the other side have different names as well. -/
theorem models_readAll (h : dataModel.SectionsReordered dataModel') (hn : dataModel.NamesDistinct)
    (frozen : Bool) :
    Rearranged Model.Alike (Model.readAll frozen (sectionNodes dataModel "models").value).value
      (Model.readAll frozen (sectionNodes dataModel' "models").value).value := by
  have hnames : (dataModel.modelNodes.map (·.name)).Perm (dataModel'.modelNodes.map (·.name)) :=
    (h.rearranged_modelNodes.map fun n _ n' hr => by rw [hr.2]).perm_of_eq
  have hleft := (Model.reader frozen).value_readAll hn.models
  have hright := (Model.reader frozen).value_readAll (hnames.nodup_iff.mp hn.models)
  rw [Model.readAll, Model.readAll, hleft, hright]
  exact h.rearranged_modelNodes.map fun n hmem n' hr => hr.alike_ofNode (hn.fields n hmem) frozen

theorem enums_readAll (h : dataModel.SectionsReordered dataModel') (hn : dataModel.NamesDistinct)
    (frozen : Bool) :
    (EnumType.readAll frozen (sectionNodes dataModel "enums").value).value.Perm
      (EnumType.readAll frozen (sectionNodes dataModel' "enums").value).value :=
  (EnumType.reader frozen).perm_readAll (h.enums.value_sectionNodes List.Perm.refl) hn.enums

theorem alike_readSchema (h : dataModel.SectionsReordered dataModel')
    (hn : dataModel.NamesDistinct) (frozen : Bool) :
    (readSchema frozen dataModel).value.Alike (readSchema frozen dataModel').value where
  models := (h.models_readAll hn frozen).map fun _ _ _ ha => ha.withViews frozen _ _
  enums := h.enums_readAll hn frozen

theorem isValid_readSchema (h : dataModel.SectionsReordered dataModel')
    (hn : dataModel.NamesDistinct) (frozen : Bool) :
    (readSchema frozen dataModel).value.validate.isValid =
      (readSchema frozen dataModel').value.validate.isValid :=
  (h.alike_readSchema hn frozen).isValid_validate (Schema.wellFormed_readSchema _ _)
    (Schema.wellFormed_readSchema _ _)

end Value.SectionsReordered

theorem Report.isValid_eq_isNone (r : Report) : r.isValid = r.firstError?.isNone := by
  rw [isValid, hasErrors_eq_isSome, Option.not_isSome]

/-- Whether a schema is returned depends on its validity only. -/
theorem isValid?_compileDataModel (options : Options) (dataModel : Value) :
    (compileDataModel options dataModel).isValid? =
      let valid := (readSchema options.freeze dataModel).value.validate.isValid
      if options.throwOnError && !valid then none else some valid := by
  rw [compileDataModel, Outcome.isValid?]
  cases hfirst : (readSchema options.freeze dataModel).value.validate.firstError? <;>
    cases options.throwOnError <;>
    simp [Report.isValid_eq_isNone, hfirst, Except.toOption]

theorem isValid?_compile {document document' : Value} (h : document.Reordered document')
    (hn : ∀ dataModel ∈ document.dataModel?, dataModel.NamesDistinct) (base : Option Options)
    (overrides : Options.Settings) :
    (compile document base overrides).isValid? = (compile document' base overrides).isValid? := by
  obtain ⟨dataModel, dataModel', hleft, hright, hsections⟩ := h
  have hnames : dataModel.NamesDistinct := hn dataModel hleft
  unfold compile
  rw [hleft, hright]
  cases Options.override base overrides with
  | error names => rfl
  | ok options =>
    dsimp only
    rw [isValid?_compileDataModel, isValid?_compileDataModel,
      hsections.isValid_readSchema hnames]

/-- Documents that differ in the order of declarations are both valid or both invalid, whichever way
they are compiled. -/
theorem Compiled.isValid_of_reordered {document document' : Value}
    (h : document.Reordered document')
    (hn : ∀ dataModel ∈ document.dataModel?, dataModel.NamesDistinct)
    (options : Option Options.Settings) (overrides : Options.Settings) :
    (compileWith document options overrides).isValid? =
      (compileWith document' options overrides).isValid? := by
  unfold compileWith
  cases options with
  | none => exact isValid?_compile h hn none overrides
  | some settings =>
    dsimp only
    cases Options.ofSettings settings with
    | error names => rfl
    | ok o => exact isValid?_compile h hn (some o) overrides

/-! The three models of a circle once more, with the model in front that two others wait for. -/

def turned : Value :=
  .map 0 [(.text "models", .seq false [modelDeclaration "B" ["A", "C"],
    modelDeclaration "C" ["A"], modelDeclaration "A" ["B"]])]

theorem find_turned : Cycle.find (readSchema true turned).value.successors
    (readSchema true turned).value.modelNames = [["B", "A", "B"]] := by
  rw [Cycle.find_eq_of_iterate_move (n := 8)] <;> decide +kernel

theorem isValid?_turned : (compileWith turned none []).isValid? = some false := by
  have hw := Schema.wellFormed_readSchema true turned
  have hinvalid : (readSchema true turned).value.validate.isValid = false := by
    by_contra hvalid
    have horder := ((Schema.isValid_iff hw).mp (Bool.not_eq_false _ ▸ hvalid)).1
    have hnone := ((Schema.exists_insertionOrder_iff hw).mp horder).1
    rw [find_turned] at hnone
    cases hnone
  have hcompile : compileWith turned none [] = compileDataModel {} turned := rfl
  rw [hcompile, isValid?_compileDataModel]
  exact congrArg some hinvalid

theorem fieldsReordered_modelDeclaration (name : String) {targets targets' : List String}
    (h : targets.Perm targets') :
    (modelDeclaration name targets).FieldsReordered (modelDeclaration name targets') where
  outside := by
    refine ⟨rfl, fun key hkey => ?_⟩
    have hne : ¬ "fields" = key := fun he => hkey (he ▸ List.mem_singleton_self _)
    simp [modelDeclaration, Value.get, Value.lookup, hne]
  fields := .inr ⟨_, _, rfl, rfl, h.map requiredRelation⟩

theorem entangled_reordered : entangled.Reordered turned := by
  refine ⟨entangled, turned, rfl, rfl, ?_, .inl rfl⟩
  have hturn : [modelDeclaration "A" ["B"], modelDeclaration "B" ["C", "A"],
      modelDeclaration "C" ["A"]].Perm [modelDeclaration "B" ["C", "A"],
      modelDeclaration "C" ["A"], modelDeclaration "A" ["B"]] :=
    (List.perm_append_singleton _ [_, _]).symm
  refine .inr ⟨_, _, rfl, rfl, _, hturn, ?_⟩
  have hswap : ["C", "A"].Perm ["A", "C"] := .swap _ _ _
  exact .cons (fieldsReordered_modelDeclaration "B" hswap)
    (.cons (.refl _) (.cons (.refl _) .nil))

theorem entangled_namesDistinct : entangled.NamesDistinct := by
  constructor <;> decide +kernel

/-- Two cycles are reported on one document and one on the other; neither is valid. -/
theorem Compiled.isValid_of_reordered_turned :
    entangled.Reordered turned ∧ (∀ dataModel ∈ entangled.dataModel?, dataModel.NamesDistinct) ∧
      ((readSchema true entangled).value.reportOf .circularDependencies).cycles =
        [["A", "B", "C", "A"], ["A", "B", "A"]] ∧
      ((readSchema true turned).value.reportOf .circularDependencies).cycles =
        [["B", "A", "B"]] ∧
      (compileWith entangled none []).isValid? = (compileWith turned none []).isValid? ∧
      (compileWith turned none []).isValid? = some false := by
  have hn : ∀ dataModel ∈ entangled.dataModel?, dataModel.NamesDistinct := by
    rintro _ ⟨⟩
    exact entangled_namesDistinct
  refine ⟨entangled_reordered, hn, ?_, ?_, ?_, isValid?_turned⟩
  · rw [Schema.cycles_reportOf]
    exact find_entangled
  · rw [Schema.cycles_reportOf, find_turned]
  · exact Compiled.isValid_of_reordered entangled_reordered hn none []

end EntitySchema
