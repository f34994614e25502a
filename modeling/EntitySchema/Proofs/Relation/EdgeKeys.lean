import EntitySchema.Proofs.Cycle.Forms
import EntitySchema.Proofs.Relation.ReverseIndex

/-!
# Edges with one key

The parts of an edge key are joined by dots, and a name may contain dots. So two edges can have one
key, and then the reverse relations of their target lack one of them. They never hold what no edge
holds. They lack nothing exactly if the keys of all edges differ, and keys differ as long as no model
and no relation field has a dot in its name.
-/

set_option autoImplicit false

namespace EntitySchema

/-- A sublist with as many elements in each bin is the whole list. -/
theorem eq_of_sublist_of_length_filter {α : Type} {bin : α → String} {bins : List String}
    (hn : bins.Nodup) {xs ys : List α} (hs : xs.Sublist ys) (hb : ∀ y ∈ ys, bin y ∈ bins)
    (h : ∀ b ∈ bins, (xs.filter (bin · == b)).length = (ys.filter (bin · == b)).length) :
    xs = ys := by
  have hxs := perm_flatMap_filter hn fun x hx => hb x (hs.mem hx)
  have hys := perm_flatMap_filter hn hb
  apply hs.eq_of_length
  rw [← hxs.length_eq, ← hys.length_eq, List.length_flatMap, List.length_flatMap,
    List.map_congr_left h]

namespace Schema

def relationEdges (s : Schema) : List (Model × Field) :=
  s.models.items.flatMap fun m =>
    (m.fields.items.filter fun f => f.isRelation && s.modelNames.contains f.typeName).map (m, ·)

def incoming (s : Schema) (name : String) : List Field :=
  s.models.items.flatMap fun m =>
    m.fields.items.filter fun f => f.isRelation && f.typeName == name

def ReverseComplete (s : Schema) : Prop :=
  ∀ t ∈ s.models.items, t.reverseRelations.length = (s.incoming t.name).length

def EdgesTold (s : Schema) : Prop :=
  ∀ a ∈ s.relationEdges, ∀ b ∈ s.relationEdges,
    a.2.edgeKey a.1.name = b.2.edgeKey b.1.name → a.1.name = b.1.name ∧ a.2.name = b.2.name

def PlainNames (s : Schema) : Prop :=
  ∀ m ∈ s.models.items, '.' ∉ m.name.toList ∧
    ∀ f ∈ m.fields.items, f.isRelation = true → '.' ∉ f.name.toList

instance (s : Schema) : Decidable s.ReverseComplete :=
  inferInstanceAs (Decidable (∀ t ∈ s.models.items, _))

instance (s : Schema) : Decidable s.EdgesTold :=
  inferInstanceAs (Decidable (∀ a ∈ s.relationEdges, ∀ b ∈ s.relationEdges, _))

instance (s : Schema) : Decidable s.PlainNames :=
  inferInstanceAs (Decidable (∀ m ∈ s.models.items, _))

theorem mem_relationEdges {s : Schema} {e : Model × Field} : e ∈ s.relationEdges ↔
    e.1 ∈ s.models.items ∧ e.2 ∈ e.1.fields.items ∧ e.2.isRelation = true ∧
      e.2.typeName ∈ s.modelNames := by
  simp only [relationEdges, List.mem_flatMap, List.mem_map, List.mem_filter, Bool.and_eq_true,
    List.contains_iff_mem]
  constructor
  · rintro ⟨m, hm, f, ⟨hf, hr, hk⟩, rfl⟩
    exact ⟨hm, hf, hr, hk⟩
  · rintro ⟨hm, hf, hr, hk⟩
    exact ⟨e.1, hm, e.2, ⟨hf, hr, hk⟩, rfl⟩

/-! Keys that differ. -/

theorem edges_eq_relationEdges (s : Schema) : ReverseIndex.edges s.models.items =
    s.relationEdges.map fun e => (e.2.edgeKey e.1.name, e.2) := by
  rw [relationEdges, List.map_flatMap]
  simp only [List.map_map]
  rfl

theorem nodup_relationEdges {s : Schema} (h : s.WellFormed) : s.relationEdges.Nodup := by
  rw [relationEdges, List.nodup_flatMap]
  constructor
  · intro m hm
    have hfields : m.fields.items.Nodup := .of_map Field.name (h.models m hm).fieldNames_nodup
    exact (hfields.filter _).map fun _ _ he => (Prod.mk.inj he).2
  · refine (models_nodup h).pairwise_of_forall_ne fun m _ m' _ hne e he he' => ?_
    obtain ⟨f, -, rfl⟩ := List.mem_map.mp he
    obtain ⟨f', -, he'⟩ := List.mem_map.mp he'
    exact hne (Prod.mk.inj he').1.symm

theorem eq_of_names_eq {s : Schema} (h : s.WellFormed) {a b : Model × Field}
    (ha : a ∈ s.relationEdges) (hb : b ∈ s.relationEdges) (hm : a.1.name = b.1.name)
    (hf : a.2.name = b.2.name) : a = b := by
  obtain ⟨hma, hfa, -⟩ := mem_relationEdges.mp ha
  obtain ⟨hmb, hfb, -⟩ := mem_relationEdges.mp hb
  have hmodel : a.1 = b.1 := model_eq_of_name_eq h hma hmb hm
  rw [← hmodel] at hfb
  exact Prod.ext hmodel (List.inj_on_of_nodup_map (h.models _ hma).fieldNames_nodup hfa hfb hf)

theorem nodup_keys_iff_edgesTold {s : Schema} (h : s.WellFormed) :
    ((ReverseIndex.edges s.models.items).map (·.1)).Nodup ↔ s.EdgesTold := by
  rw [edges_eq_relationEdges, List.map_map, List.nodup_map_iff_inj_on (nodup_relationEdges h)]
  constructor
  · intro hinj a ha b hb hkey
    cases hinj a ha b hb hkey
    exact ⟨rfl, rfl⟩
  · intro htold a ha b hb hkey
    obtain ⟨hm, hf⟩ := htold a ha b hb hkey
    exact eq_of_names_eq h ha hb hm hf

/-! Names without dots. -/

theorem edgeKey_inj_of_plain {model model' : String} {f f' : Field} (hm : '.' ∉ model.toList)
    (hm' : '.' ∉ model'.toList) (hf : '.' ∉ f.name.toList) (hf' : '.' ∉ f'.name.toList)
    (h : f.edgeKey model = f'.edgeKey model') : model = model' ∧ f.name = f'.name := by
  have hchars := congrArg String.toList h
  simp only [Field.edgeKey, String.toList_append, List.append_assoc] at hchars
  have hdot : ∀ rest, ".".toList ++ rest = '.' :: rest := fun _ => rfl
  simp only [hdot] at hchars
  obtain ⟨hmodel, hrest⟩ := Cycle.eq_of_append_separator hm hm' hchars
  obtain ⟨hname, -⟩ := Cycle.eq_of_append_separator hf hf' hrest
  exact ⟨String.toList_inj.mp hmodel, String.toList_inj.mp hname⟩

theorem edgesTold_of_plainNames {s : Schema} (h : s.PlainNames) : s.EdgesTold := by
  intro a ha b hb hkey
  obtain ⟨hma, hfa, hra, -⟩ := mem_relationEdges.mp ha
  obtain ⟨hmb, hfb, hrb, -⟩ := mem_relationEdges.mp hb
  exact edgeKey_inj_of_plain (h _ hma).1 (h _ hmb).1 ((h _ hma).2 _ hfa hra)
    ((h _ hmb).2 _ hfb hrb) hkey

/-! Reverse relations. -/

theorem length_incoming {s : Schema} {name : String} (h : name ∈ s.modelNames) :
    (s.incoming name).length =
      ((ReverseIndex.edges s.models.items).filter (·.2.typeName == name)).length := by
  have hknown : ∀ f : Field, (f.isRelation && f.typeName == name) =
      (f.typeName == name && (f.isRelation && decide (f.typeName ∈ s.modelNames))) := by
    intro f
    by_cases hf : f.typeName = name
    · simp [hf, h]
    · have hb : (f.typeName == name) = false := by simpa using hf
      rw [hb, Bool.and_false, Bool.false_and]
  rw [edges_eq_relationEdges, relationEdges, incoming, List.map_flatMap, List.filter_flatMap,
    List.length_flatMap, List.length_flatMap]
  simp [List.filter_map, List.filter_filter, Function.comp_def, hknown]

theorem reverseRelations_assemble (frozen : Bool) (enums : List EnumType) (models : List Model)
    {t : Model} (h : t ∈ (assemble frozen enums models).models.items) :
    t.reverseRelations.items =
      ((ReverseIndex.distinctEdges (assemble frozen enums models).models.items).filter
        (·.typeName == t.name)).map (Field.copy frozen) := by
  have hedges : ∀ index, ReverseIndex.edges (models.map (·.withViews frozen index)) =
      ReverseIndex.edges models := by
    intro index
    rw [ReverseIndex.edges, List.map_map, List.flatMap_map]
    rfl
  obtain ⟨m, hm, rfl⟩ := List.mem_map.mp h
  have hname : m.name ∈ models.map (·.name) := List.mem_map_of_mem hm
  have hitems : (assemble frozen enums models).models.items = models.map
      (·.withViews frozen (ReverseIndex.build frozen models)) := rfl
  rw [hitems, ReverseIndex.distinctEdges, hedges, ← ReverseIndex.distinctEdges, Model.withViews,
    ReverseIndex.find?_build frozen models hname]
  rfl

theorem length_reverseRelations {frozen : Bool} {dataModel : Value} {t : Model}
    (h : t ∈ (readSchema frozen dataModel).value.models.items) : t.reverseRelations.length =
      ((firstByKey (·.1) [] (ReverseIndex.edges (readSchema frozen dataModel).value.models.items)
        ).filter (·.2.typeName == t.name)).length := by
  rw [Seq.length, reverseRelations_assemble frozen _ _ h, ReverseIndex.distinctEdges,
    List.length_map, List.filter_map, List.length_map]
  rfl

theorem reverseComplete_iff (frozen : Bool) (dataModel : Value) :
    (readSchema frozen dataModel).value.ReverseComplete ↔
      (readSchema frozen dataModel).value.EdgesTold := by
  have hw := wellFormed_readSchema frozen dataModel
  have hlength := @length_reverseRelations frozen dataModel
  rw [← nodup_keys_iff_edgesTold hw, ← firstByKey_eq_self_iff]
  generalize (readSchema frozen dataModel).value = s at hw hlength ⊢
  have hname : ∀ {t}, t ∈ s.models.items → t.name ∈ s.modelNames := List.mem_map_of_mem
  constructor
  · intro hcomplete
    apply eq_of_sublist_of_length_filter hw.modelNames_nodup (firstByKey_sublist _ _ _)
      (fun e => ReverseIndex.typeName_mem_names)
    rw [modelNames, List.forall_mem_map]
    intro t ht
    rw [← hlength ht, hcomplete t ht, length_incoming (hname ht)]
  · intro hall t ht
    rw [hlength ht, hall, length_incoming (hname ht)]

end Schema

/-- No reverse relation is made up: each of a compiled model holds what a relation field holds that
leads to the model. -/
theorem Compiled.reverse_relations_faithful {document : Value}
    {options : Option Options.Settings} {overrides : Options.Settings} {c : Compiled}
    (h : (compileWith document options overrides).result = .ok c) {t : Model}
    (ht : t ∈ c.schema.models.items) {f : Field} (hf : f ∈ t.reverseRelations.items) :
    ∃ g ∈ c.schema.incoming t.name, f.thawed = g.thawed := by
  obtain ⟨frozen, dataModel, -, hs, -⟩ := compileWith_eq_ok h
  rw [hs] at ht ⊢
  rw [Schema.reverseRelations_assemble frozen _ _ ht, List.mem_map] at hf
  obtain ⟨g, hg, rfl⟩ := hf
  obtain ⟨hdistinct, htarget⟩ := List.mem_filter.mp hg
  obtain ⟨e, he, rfl⟩ := List.mem_map.mp hdistinct
  obtain ⟨m, hm, g, hdeclared, hrelation, -, rfl⟩ :=
    ReverseIndex.mem_edges.mp ((firstByKey_sublist _ _ _).mem he)
  have hleads : (g.isRelation && g.typeName == t.name) = true := by
    rw [hrelation]
    exact htarget
  refine ⟨g, List.mem_flatMap.mpr ⟨m, hm, List.mem_filter.mpr ⟨hdeclared, hleads⟩⟩, ?_⟩
  exact (parsed_of_mem_readSchema hm).thawed_copy hdeclared frozen

/-- The reverse relations of a compiled schema are complete exactly if the keys tell all edges apart,
and they are if no name of a model or of a relation field contains a dot. -/
theorem Compiled.reverse_relations_complete_iff {document : Value}
    {options : Option Options.Settings} {overrides : Options.Settings} {c : Compiled}
    (h : (compileWith document options overrides).result = .ok c) :
    (c.schema.ReverseComplete ↔ c.schema.EdgesTold) ∧
      (c.schema.PlainNames → c.schema.ReverseComplete ∧ c.schema.EdgesTold) := by
  obtain ⟨frozen, dataModel, -, hs, -⟩ := compileWith_eq_ok h
  have hiff : c.schema.ReverseComplete ↔ c.schema.EdgesTold := by
    rw [hs]
    exact Schema.reverseComplete_iff frozen dataModel
  refine ⟨hiff, fun hplain => ?_⟩
  have htold := Schema.edgesTold_of_plainNames hplain
  exact ⟨hiff.mpr htold, htold⟩

/-! Two models that refer to a third, by a field of the given name and by `c`. -/

def referring (first field second : String) : Value :=
  .map 0 [(.text "models", .seq false [
    .map 0 [(.text "name", .text first),
      (.text "fields", .seq false [relationDeclaration field "Target" .null])],
    .map 0 [(.text "name", .text second),
      (.text "fields", .seq false [relationDeclaration "c" "Target" .null])],
    .map 0 [(.text "name", .text "Target"), (.text "fields", .seq false [])]])]

theorem compileWith_referring (first field second : String) :
    ∃ c, (compileWith (referring first field second) none []).result = .ok c ∧
      c.schema = (readSchema true (referring first field second)).value := exists_compiled rfl

theorem Compiled.reverse_relations_complete_iff_plain :
    ∃ c, (compileWith (referring "A" "b" "B") none []).result = .ok c ∧ c.schema.PlainNames ∧
      c.schema.ReverseComplete ∧ c.schema.EdgesTold := by
  obtain ⟨c, hc, hs⟩ := compileWith_referring "A" "b" "B"
  have hplain : c.schema.PlainNames := by
    rw [hs]
    decide +kernel
  exact ⟨c, hc, hplain, (Compiled.reverse_relations_complete_iff hc).2 hplain⟩

/-- The field `b.c` of `A` and the field `c` of `A.b` have one key, and one of them is lost. -/
theorem Compiled.reverse_relations_may_lack_edges :
    ∃ c, (compileWith (referring "A" "b.c" "A.b") none []).result = .ok c ∧
      ¬ c.schema.ReverseComplete ∧ ¬ c.schema.EdgesTold ∧
      (c.schema.incoming "Target").length = 2 ∧
      (c.schema.model? "Target").map (·.reverseRelations.length) = some 1 := by
  obtain ⟨c, hc, hs⟩ := compileWith_referring "A" "b.c" "A.b"
  refine ⟨c, hc, ?_⟩
  rw [hs]
  decide +kernel

end EntitySchema
