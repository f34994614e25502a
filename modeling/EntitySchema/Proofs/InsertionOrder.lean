import EntitySchema.Proofs.InsertionCycles

/-!
# Insertion orders

A schema is free of insertion errors exactly when its models can be filled one after the other, each
model after all the models that its rows have to refer to. The order is the one in which the search
for cycles leaves the models.
-/

set_option autoImplicit false

namespace EntitySchema

theorem Field.isRelation_of_blocksInsertion {f : Field} (h : f.blocksInsertion = true) :
    f.isRelation = true := by
  simp only [blocksInsertion, ownsForeignKey, Bool.and_eq_true] at h
  exact h.2.1

namespace Schema

def InsertionOrder (s : Schema) (order : List Model) : Prop :=
  order.Perm s.models.items ∧ ∀ i j (hi : i < order.length) (hj : j < order.length),
    order[i].DependsOn order[j] → j < i

theorem exists_models_of_names {s : Schema} (hs : s.WellFormed) {names : List String}
    (hn : names.Nodup) (hm : ∀ n, n ∈ names ↔ n ∈ s.modelNames) :
    ∃ order : List Model, order.map (·.name) = names ∧ order.Perm s.models.items := by
  have hnames : (names.filterMap s.model?).map (·.name) = names := by
    rw [List.map_filterMap]
    refine (List.filterMap_congr fun n hmem => ?_).trans List.filterMap_some
    obtain ⟨m, hsome⟩ := Option.isSome_iff_exists.mp
      ((model?_isSome_iff hs n).mpr ((hm n).mp hmem))
    rw [hsome, Option.map_some, ((model?_eq_some_iff hs n m).mp hsome).2]
  refine ⟨_, hnames, ?_⟩
  have hnodup : (names.filterMap s.model?).Nodup :=
    List.Nodup.of_map Model.name (hnames.symm ▸ hn)
  rw [List.perm_ext_iff_of_nodup hnodup (models_nodup hs)]
  intro m
  simp only [List.mem_filterMap, model?_eq_some_iff hs]
  constructor
  · rintro ⟨n, -, hmem, -⟩
    exact hmem
  · exact fun hmem => ⟨m.name, (hm _).mpr (List.mem_map_of_mem hmem), hmem, rfl⟩

theorem idxOf_name {order : List Model} (hn : (order.map (·.name)).Nodup) {i : Nat}
    (hi : i < order.length) : (order.map (·.name)).idxOf order[i].name = i := by
  have hget := hn.idxOf_getElem i (by simpa using hi)
  rwa [List.getElem_map] at hget

theorem find_eq_nil_of_insertionOrder {s : Schema} (hs : s.WellFormed) {order : List Model}
    (h : s.InsertionOrder order) : Cycle.find s.successors s.modelNames = [] := by
  obtain ⟨entered, left, hc⟩ := Cycle.exists_complete s.successors s.modelNames
  have hn : (order.map (·.name)).Nodup := (h.1.map _).nodup_iff.mpr hs.modelNames_nodup
  refine hc.cycles_eq_nil (order.map (·.name)).idxOf fun a b hab => ?_
  obtain ⟨-, x, hx, y, hy, rfl, rfl, hxy⟩ := blockedBy_of_edge hab
  obtain ⟨i, hi, rfl⟩ := List.getElem_of_mem (h.1.mem_iff.mpr hx)
  obtain ⟨j, hj, rfl⟩ := List.getElem_of_mem (h.1.mem_iff.mpr hy)
  rw [idxOf_name hn hi, idxOf_name hn hj]
  exact h.2 i j hi hj hxy

theorem exists_insertionOrder {s : Schema} (hs : s.WellFormed)
    (hf : Cycle.find s.successors s.modelNames = [])
    (hself : ∀ m ∈ s.models.items, ¬ m.DependsOn m) : ∃ order, s.InsertionOrder order := by
  obtain ⟨entered, left, hc⟩ := Cycle.exists_complete s.successors s.modelNames
  rw [hf] at hc
  obtain ⟨order, hnames, hperm⟩ := exists_models_of_names hs
    (List.nodup_reverse.mpr hc.left_nodup) fun n => List.mem_reverse.trans (hc.mem_left n)
  have hn : (order.map (·.name)).Nodup := (hperm.map _).nodup_iff.mpr hs.modelNames_nodup
  refine ⟨order, hperm, fun i j hi hj hij => ?_⟩
  have hx := hperm.mem_iff.mp (List.getElem_mem hi)
  have hy := hperm.mem_iff.mp (List.getElem_mem hj)
  have hne : order[i].name ≠ order[j].name := by
    intro he
    rw [model_eq_of_name_eq hs hx hy he] at hij
    exact hself _ hy hij
  have hedge := edge_of_blockedBy hs ⟨hne, _, hx, _, hy, rfl, rfl, hij⟩
  have hsub : [order[j].name, order[i].name].Sublist (order.map (·.name)) := by
    rw [hnames]
    exact (hc.sublist_left hedge).reverse
  have hlt := Cycle.idxOf_lt_of_sublist hn hsub
  rwa [idxOf_name hn hi, idxOf_name hn hj] at hlt

theorem requiredSelfRelation_mem_findings {s : Schema} {model field : String} :
    .requiredSelfRelation model field ∈ s.findings ↔ ∃ m ∈ s.models.items, ∃ f ∈ m.fields.items,
      f.isSelfRelation = true ∧ f.blocksInsertion = true ∧ m.name = model ∧ f.name = field := by
  rw [mem_findings_iff]
  change _ ∈ s.selfRelationFindings ↔ _
  simp only [selfRelationFindings, List.mem_flatMap, Field.selfRelationFindings]
  refine exists_congr fun m => and_congr_right fun _ => exists_congr fun f =>
    and_congr_right fun _ => ?_
  by_cases hself : f.isSelfRelation = true <;> by_cases hblocks : f.blocksInsertion = true <;>
    simp [hself, hblocks, eq_comm]

/-- A model that depends on itself is reported, because a relation to the declaring model is known as
a self-relation. -/
theorem no_requiredSelfRelation_iff {s : Schema} (hs : s.WellFormed) :
    (∀ i ∈ s.validate.issues, i.code ≠ "REQUIRED_SELF_RELATION") ↔
      ∀ m ∈ s.models.items, ¬ m.DependsOn m := by
  rw [forall_code_ne_iff]
  constructor
  · rintro h m hm ⟨f, hf, hblocks, htype⟩
    have hself : f.isSelfRelation = true := by
      rw [(hs.models m hm).isSelfRelation_eq f hf, htype]
      simp [Field.isRelation_of_blocksInsertion hblocks]
    exact h (.requiredSelfRelation m.name f.name) rfl
      (requiredSelfRelation_mem_findings.mpr ⟨m, hm, f, hf, hself, hblocks, rfl, rfl⟩)
  · intro h x hx hmem
    obtain ⟨model, field, rfl⟩ := Finding.code_eq_requiredSelfRelation.mp hx
    obtain ⟨m, hm, f, hf, hself, hblocks, -⟩ := requiredSelfRelation_mem_findings.mp hmem
    rw [(hs.models m hm).isSelfRelation_eq f hf, Bool.and_eq_true, beq_iff_eq] at hself
    exact h m hm ⟨f, hf, hblocks, hself.2⟩

theorem no_circularRelation_iff (s : Schema) :
    (∀ i ∈ s.validate.issues, i.code ≠ "CIRCULAR_RELATION") ↔
      Cycle.find s.successors s.modelNames = [] := by
  rw [forall_code_ne_iff, List.eq_nil_iff_forall_not_mem]
  constructor
  · exact fun h cycle hmem => h _ rfl (circularRelation_mem_findings.mpr hmem)
  · intro h x hx hmem
    obtain ⟨cycle, rfl⟩ := Finding.code_eq_circularRelation.mp hx
    exact h cycle (circularRelation_mem_findings.mp hmem)

end Schema

/-- The insertion checks find nothing exactly if the models can be filled one after the other. -/
theorem Compiled.insertion_order_exists_iff {document : Value} {options : Option Options.Settings}
    {overrides : Options.Settings} {c : Compiled}
    (h : (compileWith document options overrides).result = .ok c) :
    (∀ i ∈ c.report.issues, i.code ≠ "CIRCULAR_RELATION" ∧ i.code ≠ "REQUIRED_SELF_RELATION") ↔
      ∃ order, c.schema.InsertionOrder order := by
  have hs := Compiled.wellFormed h
  rw [Compiled.report_eq h]
  simp only [forall_and]
  rw [Schema.no_circularRelation_iff, Schema.no_requiredSelfRelation_iff hs]
  constructor
  · exact fun hnone => Schema.exists_insertionOrder hs hnone.1 hnone.2
  · rintro ⟨order, horder⟩
    refine ⟨Schema.find_eq_nil_of_insertionOrder hs horder, fun m hm hself => ?_⟩
    obtain ⟨i, hi, rfl⟩ := List.getElem_of_mem (horder.1.mem_iff.mpr hm)
    exact lt_irrefl i (horder.2 i i hi hi hself)

def waiting : Value :=
  .map 0 [(.text "models", .seq false [modelDeclaration "A" ["B"], modelDeclaration "B" []])]

theorem compileWith_waiting : ∃ c, (compileWith waiting none []).result = .ok c ∧
    c.schema = (readSchema true waiting).value ∧ c.report = c.schema.validate := ⟨_, rfl, rfl, rfl⟩

theorem Compiled.insertion_order_exists_iff_waiting :
    (∃ c, (compileWith waiting none []).result = .ok c ∧
      ∃ order, c.schema.InsertionOrder order) ∧
    ∃ c, (compileWith entangled none []).result = .ok c ∧
      ¬ ∃ order, c.schema.InsertionOrder order := by
  constructor
  · obtain ⟨c, hc, hs, hr⟩ := compileWith_waiting
    have hfind : Cycle.find c.schema.successors c.schema.modelNames = [] := by
      rw [hs, Cycle.find_eq_of_iterate_move (n := 5)] <;> decide +kernel
    have hself : ∀ m ∈ c.schema.models.items, ¬ m.DependsOn m := by
      rw [hs]
      unfold Model.DependsOn
      decide +kernel
    refine ⟨c, hc, (Compiled.insertion_order_exists_iff hc).mp fun i hi => ?_⟩
    rw [hr] at hi
    exact ⟨(Schema.no_circularRelation_iff _).mpr hfind i hi,
      (Schema.no_requiredSelfRelation_iff (Compiled.wellFormed hc)).mpr hself i hi⟩
  · obtain ⟨c, hc, -, hr⟩ := compileWith_entangled
    refine ⟨c, hc, fun horder => ?_⟩
    have hnone := (Compiled.insertion_order_exists_iff hc).mpr horder
    rw [hr] at hnone
    have hnil := (Schema.no_circularRelation_iff _).mp fun i hi => (hnone i hi).1
    rw [find_entangled] at hnil
    cases hnil

end EntitySchema
