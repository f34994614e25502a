import EntitySchema.Proofs.Reordered.Document
import EntitySchema.Proofs.Settings

/-!
# Refused nodes

A node of the wrong shape, and a node whose name an earlier node of the right shape has, cost one
warning each and do nothing else: not to the nodes behind them, not to the model they are declared in,
and not to the schema. A document with such a node anywhere is compiled to the same end as the document
without it.
-/

set_option autoImplicit false

namespace EntitySchema

variable {α β ν : Type}

/-! One more warning. -/

namespace Logged

/-- The same value with one more warning somewhere among the others. -/
structure OneMore (w : Warning) (x y : Logged α) : Prop where
  value_eq : y.value = x.value
  warnings : ∃ before after, x.warnings = before ++ after ∧ y.warnings = before ++ w :: after

namespace OneMore

variable {w : Warning} {x y : Logged α}

theorem warn (w : Warning) (x : Logged α) : OneMore w x (do Logged.warn w; x) :=
  ⟨rfl, [], x.warnings, rfl, rfl⟩

theorem bind (h : OneMore w x y) (f : α → Logged β) : OneMore w (x >>= f) (y >>= f) where
  value_eq := by rw [value_bind, value_bind, h.value_eq]
  warnings := by
    obtain ⟨before, after, hx, hy⟩ := h.warnings
    refine ⟨before, after ++ (f x.value).warnings, ?_, ?_⟩
    · rw [warnings_bind, hx, List.append_assoc]
    · rw [warnings_bind, hy, h.value_eq, List.append_assoc, List.cons_append]

theorem bind_left (x : Logged α) {f g : α → Logged β} (h : OneMore w (f x.value) (g x.value)) :
    OneMore w (x >>= f) (x >>= g) where
  value_eq := h.value_eq
  warnings := by
    obtain ⟨before, after, hf, hg⟩ := h.warnings
    refine ⟨x.warnings ++ before, after, ?_, ?_⟩
    · rw [warnings_bind, hf, List.append_assoc]
    · rw [warnings_bind, hg, List.append_assoc]

end OneMore

end Logged

/-! Nodes that are refused. -/

namespace NodeReader

variable (r : NodeReader ν α)

def Taken (seen : List String) (before : List Value) (name : String) : Prop :=
  name ∈ seen ∨ ∃ earlier ∈ before.filterMap r.shape?, r.nameOf earlier = name

def Refuses (before : List Value) (node : Value) (w : Warning) : Prop :=
  (r.shape? node = none ∧ w = r.invalid node) ∨
    ∃ content, r.shape? node = some content ∧ r.Taken [] before (r.nameOf content) ∧
      w = r.duplicate (r.nameOf content)

variable {r} {seen : List String} {before : List Value} {name : String}

/-- Whether a name is taken does not depend on what is made of the nodes that are kept. -/
theorem taken_with_read (read : ν → Logged α) :
    { r with read := read }.Taken seen before name ↔ r.Taken seen before name := Iff.rfl

theorem Refuses.with_read {node : Value} {w : Warning} (h : r.Refuses before node w)
    (read : ν → Logged α) : { r with read := read }.Refuses before node w := h

theorem taken_nil : r.Taken seen [] name ↔ name ∈ seen := by simp [Taken]

theorem taken_cons_of_shape?_eq_none {node : Value} (hs : r.shape? node = none) :
    r.Taken seen (node :: before) name ↔ r.Taken seen before name := by
  rw [Taken, Taken, List.filterMap_cons_none hs]

theorem taken_cons_of_mem_seen {node : Value} {content : ν} (hs : r.shape? node = some content)
    (hc : r.nameOf content ∈ seen) :
    r.Taken seen (node :: before) name ↔ r.Taken seen before name := by
  have hname : r.nameOf content = name → name ∈ seen := fun he => he ▸ hc
  rw [Taken, Taken, List.filterMap_cons_some hs, List.exists_mem_cons_iff]
  tauto

theorem taken_cons_of_shape?_eq_some {node : Value} {content : ν}
    (hs : r.shape? node = some content) : r.Taken seen (node :: before) name ↔
      r.Taken (r.nameOf content :: seen) before name := by
  rw [Taken, Taken, List.filterMap_cons_some hs, List.exists_mem_cons_iff, List.mem_cons]
  tauto

/-- What is read of a list with one node changed depends on what is read from that node on. -/
theorem oneMore_readFrom_append {w : Warning} {rest rest' : List Value}
    (h : ∀ taken : List String, (∀ n, n ∈ taken ↔ r.Taken seen before n) →
      (r.readFrom taken rest).OneMore w (r.readFrom taken rest')) :
    (r.readFrom seen (before ++ rest)).OneMore w (r.readFrom seen (before ++ rest')) := by
  -- The names that are taken join `seen` one by one, so both are general in the induction.
  induction before generalizing seen with
  | nil => exact h seen fun _ => taken_nil.symm
  | cons node before ih =>
    rw [List.cons_append, List.cons_append, readFrom, readFrom]
    cases hs : r.shape? node with
    | none =>
      refine .bind_left _ (ih fun taken ht => h taken fun n => ?_)
      rw [ht, taken_cons_of_shape?_eq_none hs]
    | some content =>
      dsimp only
      split
      · next hc =>
        refine .bind_left _ (ih fun taken ht => h taken fun n => ?_)
        rw [ht, taken_cons_of_mem_seen hs (by simpa using hc)]
      · refine .bind_left _ ((ih fun taken ht => h taken fun n => ?_).bind _)
        rw [ht, taken_cons_of_shape?_eq_some hs]

/-- A refused node costs its warning. -/
theorem Refuses.oneMore_readAll {node : Value} {w : Warning} (h : r.Refuses before node w)
    (after : List Value) :
    (r.readAll (before ++ after)).OneMore w (r.readAll (before ++ node :: after)) := by
  refine oneMore_readFrom_append fun taken ht => ?_
  rcases h with ⟨hs, rfl⟩ | ⟨content, hs, hname, rfl⟩
  · rw [readFrom.eq_2, hs]
    exact .warn _ _
  · have hcontains : taken.contains (r.nameOf content) = true := by
      rw [List.contains_iff_mem, ht]
      exact hname
    rw [readFrom.eq_2, hs]
    dsimp only
    rw [if_pos hcontains]
    exact .warn _ _

/-- A node that is kept passes on what reading it costs. -/
theorem oneMore_readAll_of_read {node node' : Value} {content content' : ν} {w : Warning}
    (hs : r.shape? node = some content) (hs' : r.shape? node' = some content')
    (hn : r.nameOf content' = r.nameOf content) (hkept : ¬ r.Taken [] before (r.nameOf content))
    (h : (r.read content).OneMore w (r.read content')) (after : List Value) :
    (r.readAll (before ++ node :: after)).OneMore w (r.readAll (before ++ node' :: after)) := by
  refine oneMore_readFrom_append fun taken ht => ?_
  have hcontains : ¬ taken.contains (r.nameOf content) = true := by
    rwa [List.contains_iff_mem, ht]
  rw [readFrom, readFrom, hs, hs']
  dsimp only
  rw [hn, if_neg hcontains, if_neg hcontains]
  exact h.bind _

end NodeReader

/-! Documents with one more node. -/

namespace Value

/-- Data models of which the second has one more node, which is refused with a warning: in a section,
or among the fields of a model that is kept. -/
inductive NodeInserted (w : Warning) (v v' : Value) : Prop
  | inEnums {frozen : Bool} {before after : List Value} {node : Value}
      (outside : AgreeOutside ["enums"] v v')
      (nodes : (v.get "enums").items? = some (before ++ after))
      (nodes' : (v'.get "enums").items? = some (before ++ node :: after))
      (refused : (EnumType.reader frozen).Refuses before node w)
  | inModels {frozen : Bool} {before after : List Value} {node : Value}
      (outside : AgreeOutside ["models"] v v')
      (nodes : (v.get "models").items? = some (before ++ after))
      (nodes' : (v'.get "models").items? = some (before ++ node :: after))
      (refused : (Model.reader frozen).Refuses before node w)
  | inFields {frozen : Bool} {before after : List Value} {model model' : Value}
      {content : ModelNode} {keyFields : List String} {fieldsBefore fieldsAfter : List Value}
      {node : Value} (outside : AgreeOutside ["models"] v v')
      (nodes : (v.get "models").items? = some (before ++ model :: after))
      (nodes' : (v'.get "models").items? = some (before ++ model' :: after))
      (shape : model.modelNode? = some content)
      (kept : ¬ (Model.reader frozen).Taken [] before content.name)
      (outsideFields : AgreeOutside ["fields"] model model')
      (fields : (model.get "fields").items? = some (fieldsBefore ++ fieldsAfter))
      (fields' : (model'.get "fields").items? = some (fieldsBefore ++ node :: fieldsAfter))
      (refused : (Field.reader frozen content.name keyFields).Refuses fieldsBefore node w)

end Value

structure Value.RefusedNodeAdded (w : Warning) (document document' : Value) : Prop where
  dataModels : ∃ dataModel dataModel', document.dataModel? = some dataModel ∧
    document'.dataModel? = some dataModel' ∧ dataModel.NodeInserted w dataModel'

theorem sectionNodes_of_items? {dataModel : Value} {name : String} {nodes : List Value}
    (h : (dataModel.get name).items? = some nodes) : sectionNodes dataModel name = pure nodes := by
  unfold sectionNodes
  cases hv : dataModel.get name with
  | seq frozen items =>
    rw [hv] at h
    cases h
    rfl
  | _ =>
    rw [hv] at h
    cases h

theorem Value.AgreeOutside.sectionNodes_eq {keys : List String} {v v' : Value}
    (h : AgreeOutside keys v v') {name : String} (hn : name ∉ keys) :
    sectionNodes v' name = sectionNodes v name := by
  rw [sectionNodes, sectionNodes, h.get_eq name hn]

/-- A model node with other fields has the same content otherwise. -/
theorem Value.AgreeOutside.modelNode?_eq {model model' : Value} {content : ModelNode}
    {nodes nodes' : List Value} (h : AgreeOutside ["fields"] model model')
    (shape : model.modelNode? = some content) (fields : (model.get "fields").items? = some nodes)
    (fields' : (model'.get "fields").items? = some nodes') :
    content.fields = nodes ∧ model'.modelNode? = some { content with fields := nodes' } := by
  have hget : ∀ key, key ∉ ["fields"] → model'.get key = model.get key :=
    fun key hkey => (h.get_eq key hkey).symm
  unfold modelNode? at shape ⊢
  unfold optionalText at shape ⊢
  rw [← h.isMap_eq, hget "name" (by decide), hget "primaryKey" (by decide),
    hget "uniqueFields" (by decide), hget "dbName" (by decide), hget "documentation" (by decide),
    fields']
  rw [fields] at shape
  revert shape
  refine of_bind_eq_some fun _ hmap => of_bind_eq_some fun name hname => ?_
  refine of_bind_eq_some fun _ hnodes => of_bind_eq_some fun key hkey => ?_
  refine of_bind_eq_some fun groups hgroups => of_bind_eq_some fun dbName hdbName => ?_
  refine of_bind_eq_some fun documentation hdocumentation => ?_
  rintro ⟨⟩
  cases hnodes
  refine ⟨rfl, ?_⟩
  rw [hmap, hname, hkey, hgroups, hdbName, hdocumentation]
  rfl

theorem Model.oneMore_ofNode {content : ModelNode} {before after : List Value} {node : Value}
    {w : Warning} {frozen : Bool} {keyFields : List String}
    (h : (Field.reader frozen content.name keyFields).Refuses before node w) (frozen' : Bool)
    (hfields : content.fields = before ++ after) :
    (ofNode frozen' content).OneMore w
      (ofNode frozen' { content with fields := before ++ node :: after }) := by
  unfold ofNode
  dsimp only
  rw [hfields]
  have hread : ∀ keyNames, (Field.readAll frozen' content.name keyNames (before ++ after)).OneMore w
      (Field.readAll frozen' content.name keyNames (before ++ node :: after)) :=
    fun keyNames => (h.with_read (Field.ofNode frozen' content.name keyNames)).oneMore_readAll after
  exact (hread _).bind _

/-- What reading the models costs is what reading the data model costs. -/
theorem oneMore_readSchema_of_models {w : Warning} {dataModel dataModel' : Value}
    {nodes nodes' : List Value} {frozen : Bool}
    (henums : sectionNodes dataModel' "enums" = sectionNodes dataModel "enums")
    (hnodes : (dataModel.get "models").items? = some nodes)
    (hnodes' : (dataModel'.get "models").items? = some nodes')
    (h : (Model.readAll frozen nodes).OneMore w (Model.readAll frozen nodes')) :
    (readSchema frozen dataModel).OneMore w (readSchema frozen dataModel') := by
  unfold readSchema
  rw [henums, sectionNodes_of_items? hnodes, sectionNodes_of_items? hnodes']
  refine .bind_left _ (.bind_left _ ?_)
  rw [Logged.pure_bind, Logged.pure_bind]
  exact h.bind _

/-- A data model with one more node that is refused is read with one more warning. -/
theorem Value.NodeInserted.oneMore_readSchema {w : Warning} {dataModel dataModel' : Value}
    (h : dataModel.NodeInserted w dataModel') (frozen : Bool) :
    (readSchema frozen dataModel).OneMore w (readSchema frozen dataModel') := by
  cases h with
  | @inEnums _ before after node outside nodes nodes' refused =>
    have henums : (EnumType.readAll frozen (before ++ after)).OneMore w
        (EnumType.readAll frozen (before ++ node :: after)) :=
      (refused.with_read (EnumType.ofNode frozen)).oneMore_readAll after
    unfold readSchema
    rw [sectionNodes_of_items? nodes, sectionNodes_of_items? nodes',
      outside.sectionNodes_eq (by decide), Logged.pure_bind, Logged.pure_bind]
    exact henums.bind _
  | inModels outside nodes nodes' refused =>
    exact oneMore_readSchema_of_models (outside.sectionNodes_eq (by decide)) nodes nodes'
      ((refused.with_read (Model.ofNode frozen)).oneMore_readAll _)
  | inFields outside nodes nodes' shape kept outsideFields fields fields' refused =>
    obtain ⟨hfields, shape'⟩ := outsideFields.modelNode?_eq shape fields fields'
    have hmodel := Model.oneMore_ofNode refused frozen hfields
    rw [← NodeReader.taken_with_read (Model.ofNode frozen)] at kept
    refine oneMore_readSchema_of_models (outside.sectionNodes_eq (by decide)) nodes nodes' ?_
    refine NodeReader.oneMore_readAll_of_read shape shape' ?_ kept hmodel _
    rfl

/-! Runs. -/

structure Outcome.OneMoreWarning (w : Warning) (a b : Outcome) : Prop where
  sink_eq : b.sink = a.sink
  result_eq : b.result = a.result
  log : ∃ before after, a.log = before ++ after ∧ b.log = before ++ w.entry :: after

theorem oneMoreWarning_compileDataModel {w : Warning} {dataModel dataModel' : Value}
    (h : dataModel.NodeInserted w dataModel') (o : Options) :
    (compileDataModel o dataModel).OneMoreWarning w (compileDataModel o dataModel') := by
  obtain ⟨hvalue, before, after, hw, hw'⟩ := h.oneMore_readSchema o.freeze
  unfold compileDataModel
  dsimp only
  rw [hvalue, hw, hw', List.map_append, List.map_append, List.map_cons]
  split
  · refine ⟨rfl, rfl, before.map (·.entry), after.map (·.entry) ++ [_], List.append_assoc .., ?_⟩
    rw [List.append_assoc, List.cons_append]
  · exact ⟨rfl, rfl, before.map (·.entry), after.map (·.entry), rfl, rfl⟩

/-- Whatever the settings, a document with one more node that is refused comes to the same end as the
document without it, and under valid settings its log has one more warning. -/
theorem Outcome.refused_node_costs_one_warning {w : Warning} {document document' : Value}
    (h : document.RefusedNodeAdded w document') (options : Option Options.Settings)
    (overrides : Options.Settings) :
    (compileWith document' options overrides).result =
        (compileWith document options overrides).result ∧
      ∀ o, Options.resolved options overrides = .ok o →
        (compileWith document options overrides).OneMoreWarning w
          (compileWith document' options overrides) := by
  obtain ⟨dataModel, dataModel', hd, hd', hinserted⟩ := h.dataModels
  rw [compileWith_eq_compileResolved hd, compileWith_eq_compileResolved hd']
  cases Options.resolved options overrides with
  | error names => exact ⟨rfl, nofun⟩
  | ok o =>
    have hone := oneMoreWarning_compileDataModel hinserted o
    refine ⟨hone.result_eq, ?_⟩
    rintro _ ⟨⟩
    exact hone

/-! The three models of a circle, with a second field of one name between the fields of one of them. Had it
been read it would have cost two warnings, for its kind and for its default. -/

def repeatedField : Value :=
  .map 0 [(.text "name", .text "C"), (.text "type", .text "A"), (.text "kind", .text "odd"),
    (.text "default", .bytes [1])]

def crowded : Value :=
  .map 0 [(.text "models", .seq false [modelDeclaration "A" ["B"],
    .map 0 [(.text "name", .text "B"), (.text "fields", .seq false
      [requiredRelation "C", repeatedField, requiredRelation "A"])],
    modelDeclaration "C" ["A"]])]

theorem entangled_crowded : entangled.RefusedNodeAdded (.duplicateField "B" "C") crowded := by
  refine ⟨entangled, crowded, rfl, rfl, ?_⟩
  refine @Value.NodeInserted.inFields _ _ _ true [_] [_] _ _ _ [] [_] [_] _ ⟨rfl, fun key hkey => ?_⟩
    rfl rfl rfl ?_ ⟨rfl, fun key hkey => ?_⟩ rfl rfl (.inr ⟨_, rfl, ?_, rfl⟩)
  · have hne : ¬ "models" = key := fun he => hkey (he ▸ List.mem_singleton_self _)
    simp [entangled, crowded, Value.get, Value.lookup, hne]
  · rintro (hseen | ⟨_, hmem, hname⟩)
    · cases hseen
    · cases List.mem_singleton.mp hmem
      exact absurd hname (by decide)
  · have hne : ¬ "fields" = key := fun he => hkey (he ▸ List.mem_singleton_self _)
    simp [modelDeclaration, Value.get, Value.lookup, hne]
  · exact .inr ⟨_, List.mem_singleton_self _, rfl⟩

theorem Outcome.refused_node_costs_one_warning_crowded :
    entangled.RefusedNodeAdded (.duplicateField "B" "C") crowded ∧
      Options.resolved none [] = .ok {} ∧
      (compileWith crowded none []).result = (compileWith entangled none []).result ∧
      (compileWith entangled none []).OneMoreWarning (.duplicateField "B" "C")
        (compileWith crowded none []) ∧
      (compileWith crowded none []).log = [⟨.warning, "Skipping duplicate field 'B.C'."⟩] := by
  have hrun := Outcome.refused_node_costs_one_warning entangled_crowded none []
  have hone := hrun.2 {} rfl
  -- The log without the node is empty, so the log with it holds the one warning.
  obtain ⟨before, after, hlog, hlog'⟩ := hone.log
  have hempty : (compileWith entangled none []).log = [] := rfl
  rw [hempty, List.nil_eq, List.append_eq_nil_iff] at hlog
  obtain ⟨rfl, rfl⟩ := hlog
  exact ⟨entangled_crowded, rfl, hrun.1, hone, hlog'⟩

end EntitySchema
