import EntitySchema.Proofs.Cycle.Order
import EntitySchema.Proofs.Cycle.Walk
import EntitySchema.Proofs.Findings
import EntitySchema.Proofs.WellFormed

/-!
# Insertion cycles

The cycles that are reported on a schema are circles of models each of which has to wait for the next
one. Reported cycles are neither rotations nor reversals of each other, and without the last steps of
the reported cycles no model would have to wait for itself.
-/

set_option autoImplicit false

namespace EntitySchema

/-- Whether no row of `a` can be inserted before a row of `b`. -/
def Model.DependsOn (a b : Model) : Prop :=
  ∃ f ∈ a.fields.items, f.blocksInsertion = true ∧ f.typeName = b.name

def Issue.cycle? (i : Issue) : Option (List String) :=
  match i.context with
  | [(.text "cycle", v)] => v.texts?
  | _ => none

def Report.cycles (r : Report) : List (List String) := r.issues.filterMap Issue.cycle?

theorem Finding.texts?_texts (names : List String) : (texts names).texts? = some names := by
  rw [texts, Value.texts?, Value.items?, Option.bind_some]
  induction names with
  | nil => rfl
  | cons n names ih => simp [List.mapM_cons, ih, Value.text?]

namespace Schema

def BlockedBy (s : Schema) (a b : String) : Prop :=
  a ≠ b ∧ ∃ x ∈ s.models.items, ∃ y ∈ s.models.items, x.name = a ∧ y.name = b ∧ x.DependsOn y

theorem mem_waitsFor {s : Schema} {m : Model} {b : String} :
    b ∈ s.waitsFor m ↔ ∃ f ∈ m.fields.items, f.blocksInsertion = true ∧ f.typeName = b ∧
      b ≠ m.name ∧ (s.model? b).isSome = true := by
  simp only [waitsFor, List.mem_map, List.mem_filter, Bool.and_eq_true, bne_iff_ne]
  constructor
  · rintro ⟨f, ⟨hf, ⟨hblocks, hne⟩, hsome⟩, rfl⟩
    exact ⟨f, hf, hblocks, rfl, hne, hsome⟩
  · rintro ⟨f, hf, hblocks, rfl, hne, hsome⟩
    exact ⟨f, ⟨hf, ⟨hblocks, hne⟩, hsome⟩, rfl⟩

theorem mem_successors {s : Schema} {a b : String} :
    b ∈ s.successors a ↔ ∃ m ∈ s.models.items, m.name = a ∧ b ∈ s.waitsFor m := by
  rw [successors, mem_distinct, List.mem_flatMap]
  simp only [List.mem_filter, beq_iff_eq, and_assoc]

theorem blockedBy_of_edge {s : Schema} {a b : String}
    (h : Cycle.Edge s.successors s.modelNames a b) : s.BlockedBy a b := by
  obtain ⟨-, hb, hnext⟩ := h
  obtain ⟨x, hx, rfl, hwait⟩ := mem_successors.mp hnext
  obtain ⟨f, hf, hblocks, rfl, hne, -⟩ := mem_waitsFor.mp hwait
  obtain ⟨y, hy, hname⟩ := List.mem_map.mp hb
  exact ⟨hne.symm, x, hx, y, hy, rfl, hname, f, hf, hblocks, hname.symm⟩

theorem edge_of_blockedBy {s : Schema} (hs : s.WellFormed) {a b : String} (h : s.BlockedBy a b) :
    Cycle.Edge s.successors s.modelNames a b := by
  obtain ⟨hne, x, hx, y, hy, rfl, rfl, f, hf, hblocks, htype⟩ := h
  have hb : y.name ∈ s.modelNames := List.mem_map_of_mem hy
  refine ⟨List.mem_map_of_mem hx, hb, mem_successors.mpr ⟨x, hx, rfl, ?_⟩⟩
  exact mem_waitsFor.mpr ⟨f, hf, hblocks, htype, hne.symm, (model?_isSome_iff hs _).mpr hb⟩

theorem blockedBy_iff {s : Schema} (hs : s.WellFormed) {a b : String} :
    s.BlockedBy a b ↔ a ∈ s.modelNames ∧ b ∈ s.successors a := by
  constructor
  · intro h
    obtain ⟨ha, -, hnext⟩ := edge_of_blockedBy hs h
    exact ⟨ha, hnext⟩
  · rintro ⟨ha, hnext⟩
    obtain ⟨_, _, _, hwait⟩ := mem_successors.mp hnext
    obtain ⟨_, _, _, _, _, hsome⟩ := mem_waitsFor.mp hwait
    exact blockedBy_of_edge ⟨ha, (model?_isSome_iff hs b).mp hsome, hnext⟩

theorem circularRelation_mem_findings {s : Schema} {cycle : List String} :
    .circularRelation cycle ∈ s.findings ↔ cycle ∈ Cycle.find s.successors s.modelNames := by
  rw [mem_findings_iff]
  change _ ∈ s.circularFindings ↔ _
  simp [circularFindings]

theorem cycles_reportOf (s : Schema) :
    (s.reportOf .circularDependencies).cycles = Cycle.find s.successors s.modelNames := by
  have hcycle : ∀ cycle, (Finding.circularRelation cycle).issue.cycle? = some cycle :=
    Finding.texts?_texts
  rw [Report.cycles, reportOf, findingsOf, circularFindings, List.map_map, List.filterMap_map]
  exact (List.filterMap_congr fun cycle _ => hcycle cycle).trans List.filterMap_some

/-- A circle of at least two different models of the schema, each of which has to wait for the next
one, with its first model again at the end. -/
def SimpleCycle (s : Schema) (cycle : List String) : Prop :=
  ∃ first rest, cycle = first :: rest ++ [first] ∧ rest ≠ [] ∧ (first :: rest).Nodup ∧
    (∀ n ∈ first :: rest, n ∈ s.modelNames) ∧ cycle.IsChain s.BlockedBy

theorem simpleCycle_of_mem_find {s : Schema} {cycle : List String}
    (h : cycle ∈ Cycle.find s.successors s.modelNames) : s.SimpleCycle cycle := by
  obtain ⟨entered, left, hc⟩ := Cycle.exists_complete s.successors s.modelNames
  obtain ⟨ring, rfl, hring⟩ := hc.circles cycle h
  have hchain := (hc.isChain_edge hring).imp fun _ _ => blockedBy_of_edge
  have hnodup := hring.nodup hc.entered_nodup
  have hnodes := hc.mem_nodes hring
  obtain ⟨first, rest, rfl⟩ := List.exists_cons_of_ne_nil hring.ne_nil
  refine ⟨first, rest, rfl, ?_, hnodup, hnodes, hchain⟩
  rintro rfl
  exact (List.isChain_pair.mp hchain).1 rfl

end Schema

/-! Three models in a circle, two of which also need each other directly. -/

def requiredRelation (target : String) : Value :=
  .map 0 [(.text "name", .text target), (.text "type", .text target),
    (.text "kind", .text "object"), (.text "isRequired", .bool true),
    (.text "relationFromFields", .seq false [.text "id"])]

def modelDeclaration (name : String) (targets : List String) : Value :=
  .map 0 [(.text "name", .text name),
    (.text "fields", .seq false (targets.map requiredRelation))]

def entangled : Value :=
  .map 0 [(.text "models", .seq false [modelDeclaration "A" ["B"],
    modelDeclaration "B" ["C", "A"], modelDeclaration "C" ["A"]])]

def entangledSchema : Schema := (readSchema true entangled).value

theorem compileWith_entangled : ∃ c, (compileWith entangled none []).result = .ok c ∧
    c.schema = entangledSchema ∧ c.report = entangledSchema.validate := ⟨_, rfl, rfl, rfl⟩

theorem modelNames_entangled : entangledSchema.modelNames = ["A", "B", "C"] := by
  decide +kernel

theorem find_entangled : Cycle.find entangledSchema.successors entangledSchema.modelNames =
    [["A", "B", "C", "A"], ["A", "B", "A"]] := by
  rw [Cycle.find_eq_of_iterate_move (n := 8)] <;> decide +kernel

namespace Schema

/-- Every issue of the check lists a simple cycle. -/
theorem reported_cycles_simple (s : Schema) :
    ∀ i ∈ (s.reportOf .circularDependencies).issues, ∃ cycle,
      i.context = [(.text "cycle", Finding.texts cycle)] ∧ s.SimpleCycle cycle := by
  intro i hi
  obtain ⟨x, hx, rfl⟩ := List.mem_map.mp hi
  obtain ⟨cycle, hmem, rfl⟩ := List.mem_map.mp hx
  exact ⟨cycle, rfl, simpleCycle_of_mem_find hmem⟩

theorem reported_cycles_simple_entangled :
    ∃ i ∈ (entangledSchema.reportOf .circularDependencies).issues,
      i.message = "Circular relationship detected: A -> B -> A. "
        ++ "Make at least one relation in the cycle optional so rows can be inserted." ∧
      ∃ cycle, i.context = [(.text "cycle", Finding.texts cycle)] ∧
        entangledSchema.SimpleCycle cycle := by
  have hmem : (Finding.circularRelation ["A", "B", "A"]).issue ∈
      (entangledSchema.reportOf .circularDependencies).issues := by
    apply List.mem_map_of_mem
    apply List.mem_map_of_mem
    rw [find_entangled]
    simp
  exact ⟨_, hmem, by decide +kernel, reported_cycles_simple entangledSchema _ hmem⟩

end Schema

/-- Reported cycles are neither rotations nor reversals of each other, and the last steps of all of
them together break every circle of waiting models. -/
theorem Compiled.last_steps_break_cycles {document : Value} {options : Option Options.Settings}
    {overrides : Options.Settings} {c : Compiled}
    (h : (compileWith document options overrides).result = .ok c)
    (hs : ∀ n ∈ c.schema.modelNames, ' ' ∉ n.toList) :
    let cycles := (c.schema.reportOf .circularDependencies).cycles
    cycles.Pairwise (fun p q => ¬ p.dropLast ~r q.dropLast ∧ ¬ p.dropLast.reverse ~r q.dropLast) ∧
      ∀ a, ¬ Relation.TransGen
        (fun a b => c.schema.BlockedBy a b ∧ ∀ cycle ∈ cycles, ¬ [a, b] <:+ cycle) a a := by
  intro cycles
  obtain ⟨entered, left, hc⟩ := Cycle.exists_complete c.schema.successors c.schema.modelNames
  rw [← Schema.cycles_reportOf] at hc
  refine ⟨hc.pairwise_not_rotated, fun a hcycle => hc.acyclic hs a ?_⟩
  refine Relation.TransGen.mono (fun a b hab => ?_) a a hcycle
  exact ⟨Schema.edge_of_blockedBy (Compiled.wellFormed h) hab.1, hab.2⟩

theorem Compiled.last_steps_break_cycles_entangled :
    ∃ c, (compileWith entangled none []).result = .ok c ∧
      (∀ n ∈ c.schema.modelNames, ' ' ∉ n.toList) ∧
      let cycles := (c.schema.reportOf .circularDependencies).cycles
      cycles = [["A", "B", "C", "A"], ["A", "B", "A"]] ∧
      cycles.Pairwise
        (fun p q => ¬ p.dropLast ~r q.dropLast ∧ ¬ p.dropLast.reverse ~r q.dropLast) ∧
      ∀ a, ¬ Relation.TransGen
        (fun a b => c.schema.BlockedBy a b ∧ ∀ cycle ∈ cycles, ¬ [a, b] <:+ cycle) a a := by
  obtain ⟨c, hc, hs, -⟩ := compileWith_entangled
  have hspaces : ∀ n ∈ c.schema.modelNames, ' ' ∉ n.toList := by
    rw [hs, modelNames_entangled]
    decide
  have hcycles : (c.schema.reportOf .circularDependencies).cycles =
      [["A", "B", "C", "A"], ["A", "B", "A"]] := by
    rw [hs, Schema.cycles_reportOf, find_entangled]
  exact ⟨c, hc, hspaces, hcycles, Compiled.last_steps_break_cycles hc hspaces⟩

/-- The search for cycles comes to its end, and on the way it enters each model once and reads each
insertion-blocking relation once. So it moves on a path as many times as there are models and such
relations. -/
theorem Compiled.cycle_search_single_pass {document : Value} {options : Option Options.Settings}
    {overrides : Options.Settings} {c : Compiled}
    (h : (compileWith document options overrides).result = .ok c) :
    let next := c.schema.successors
    let start := Cycle.Search.start c.schema.modelNames
    (∃ states last, Cycle.Walk next start states last) ∧
      ∀ states last, Cycle.Walk next start states last →
        last.cycles = (c.schema.reportOf .circularDependencies).cycles ∧
        Cycle.ListsOnce (states.filterMap (·.entered? next)) (· ∈ c.schema.modelNames) ∧
        Cycle.ListsOnce (states.filterMap (·.taken?)) (fun e => c.schema.BlockedBy e.1 e.2) ∧
        states.countP (·.isUnderway) = c.schema.models.length +
          {e : String × String | c.schema.BlockedBy e.1 e.2}.ncard := by
  intro next start
  have hs : c.schema.WellFormed := Compiled.wellFormed h
  obtain ⟨walked, hwalked⟩ := Cycle.exists_walk next start
  refine ⟨⟨walked, _, hwalked⟩, fun states last w => ?_⟩
  obtain ⟨hentered, htaken, hmoves⟩ := w.from_start fun a _ => nodup_distinct _
  have hblocked : Cycle.ListsOnce (states.filterMap (·.taken?))
      fun e => c.schema.BlockedBy e.1 e.2 := htaken.congr fun _ => (Schema.blockedBy_iff hs).symm
  have hnames : Cycle.ListsOnce c.schema.modelNames (· ∈ c.schema.modelNames) :=
    ⟨hs.modelNames_nodup, fun _ => Iff.rfl⟩
  refine ⟨?_, hentered, hblocked, ?_⟩
  · rw [Schema.cycles_reportOf, Cycle.find, w.eq_run]
  · rw [hmoves, hentered.length_eq hnames, hblocked.ncard_eq, Schema.modelNames, List.length_map]
    rfl

theorem Compiled.cycle_search_single_pass_entangled :
    ∃ c, (compileWith entangled none []).result = .ok c ∧
      ∃ states last, Cycle.Walk c.schema.successors (Cycle.Search.start c.schema.modelNames)
          states last ∧
        last.cycles = (c.schema.reportOf .circularDependencies).cycles ∧
        Cycle.ListsOnce (states.filterMap (·.entered? c.schema.successors))
          (· ∈ c.schema.modelNames) ∧
        Cycle.ListsOnce (states.filterMap (·.taken?)) (fun e => c.schema.BlockedBy e.1 e.2) ∧
        states.countP (·.isUnderway) = 3 + 4 := by
  obtain ⟨c, hc, hs, -⟩ := compileWith_entangled
  obtain ⟨⟨states, last, w⟩, hall⟩ := Compiled.cycle_search_single_pass hc
  obtain ⟨hcycles, hentered, htaken, hmoves⟩ := hall states last w
  have hmodels : c.schema.models.length = 3 := by
    rw [hs]
    decide +kernel
  have hedges : ((Cycle.Search.start c.schema.modelNames).ahead c.schema.successors).length = 4 := by
    rw [hs]
    decide +kernel
  have hblocked : {e : String × String | c.schema.BlockedBy e.1 e.2}.ncard = 4 := by
    rw [← hedges]
    apply Cycle.ListsOnce.ncard_eq
    apply (Cycle.listsOnce_ahead_start fun a _ => nodup_distinct _).congr
    exact fun _ => (Schema.blockedBy_iff (Compiled.wellFormed hc)).symm
  exact ⟨c, hc, states, last, w, hcycles, hentered, htaken, by rw [hmoves, hmodels, hblocked]⟩

end EntitySchema
