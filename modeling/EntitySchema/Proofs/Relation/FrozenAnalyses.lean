import EntitySchema.Proofs.Declarations
import EntitySchema.Proofs.Relation.Analyses

/-!
# Frozen analyses

When a schema is analyzed into frozen records, so is every relationship. The lists of an analysis are frozen
as they are filled, and those of a junction table, which stay empty, are not: they are the open lists that
every record starts with.
-/

set_option autoImplicit false

namespace EntitySchema

structure ModelAnalysis.DeeplyFrozen (a : ModelAnalysis) : Prop where
  record : a.frozen = true
  relationships : a.relationships.frozen = true
  each : ∀ r ∈ a.relationships.items, r.frozen = true
  skipped : a.skipped.frozen = true

/-- The analysis of a model into frozen records. Only the lists of a junction table are open in it. -/
structure ModelAnalysis.FrozenFor (a : ModelAnalysis) (m : Model) : Prop where
  model : a.model = m.name
  record : a.frozen = true
  each : ∀ r ∈ a.relationships.items, r.frozen = true
  deep : a.DeeplyFrozen ↔ isJunction m.fields.items = false
  lists : isJunction m.fields.items = true → a.relationships = .empty ∧ a.skipped = .empty

namespace Model

variable {s : Schema} {m : Model} (frozen : Bool)

theorem frozen_analyze : (m.analyze frozen s).frozen = frozen := by
  unfold analyze
  split <;> rfl

theorem lists_analyze_of_junction (hj : m.isJunctionTable = true) :
    (m.analyze frozen s).relationships = .empty ∧ (m.analyze frozen s).skipped = .empty := by
  rw [analyze, if_pos hj]
  exact ⟨rfl, rfl⟩

theorem lists_analyze (hj : m.isJunctionTable = false) :
    (m.analyze frozen s).relationships.frozen = frozen ∧
      (m.analyze frozen s).skipped.frozen = frozen := by
  rw [analyze, hj]
  exact ⟨rfl, rfl⟩

theorem frozen_of_mem_relationships {r : Relationship}
    (hr : r ∈ (m.analyze frozen s).relationships.items) : r.frozen = frozen := by
  cases hj : m.isJunctionTable with
  | true =>
    rw [(lists_analyze_of_junction frozen hj).1] at hr
    cases hr
  | false =>
    obtain ⟨f, -, t, -, rfl⟩ := (mem_relationships_analyze frozen hj).mp hr
    rfl

theorem deeplyFrozen_analyze_iff :
    (m.analyze true s).DeeplyFrozen ↔ m.isJunctionTable = false := by
  constructor
  · intro h
    rw [← Bool.not_eq_true]
    intro hj
    have hopen := h.relationships
    rw [(lists_analyze_of_junction true hj).1] at hopen
    cases hopen
  · intro hj
    obtain ⟨hrelationships, hskipped⟩ := lists_analyze (s := s) true hj
    exact ⟨frozen_analyze true, hrelationships, fun _ => frozen_of_mem_relationships true, hskipped⟩

end Model

namespace Compiled

variable {document : Value} {options : Option Options.Settings} {overrides : Options.Settings}
  {c : Compiled}

/-- Whether a model of a compiled schema is a junction table depends on the fields that it shows. -/
theorem isJunctionTable_eq (h : (compileWith document options overrides).result = .ok c) {m : Model}
    (hm : m ∈ c.schema.models.items) : m.isJunctionTable = isJunction m.fields.items := by
  obtain ⟨frozen, dataModel, -, hs, -⟩ := compileWith_eq_ok h
  rw [hs] at hm
  obtain ⟨read, -, rfl⟩ := List.mem_map.mp hm
  rfl

/-- Analyzed into frozen records, a compiled schema gives a frozen analysis for each model, in order, with
frozen relationships. It is deeply frozen just if the fields of the model do not make it a junction table:
the lists of a junction table are empty and open. -/
theorem analyses_deeply_frozen_iff (h : (compileWith document options overrides).result = .ok c) :
    List.Forall₂ (fun m a => a.FrozenFor m) c.schema.models.items (c.schema.analyze true) := by
  rw [Schema.analyze_eq (wellFormed h), List.forall₂_map_right_iff, List.forall₂_same]
  intro m hm
  have hjunction := isJunctionTable_eq h hm
  exact {
    model := Model.model_analyze true
    record := Model.frozen_analyze true
    each := fun _ => Model.frozen_of_mem_relationships true
    deep := hjunction ▸ Model.deeplyFrozen_analyze_iff
    lists := hjunction ▸ Model.lists_analyze_of_junction true }

end Compiled

/-! Tagged posts. The table that links posts and tags is a junction table. -/

def tagging : Value :=
  Declaration.document [
    Declaration.model "Post" [
      Declaration.field "id" "Int" "scalar" [("isId", .bool true)],
      Declaration.field "tags" "PostTag" "object" [("isList", .bool true)]] [],
    Declaration.model "Tag" [
      Declaration.field "id" "Int" "scalar" [("isId", .bool true)],
      Declaration.field "posts" "PostTag" "object" [("isList", .bool true)]] [],
    Declaration.model "PostTag" [
      Declaration.field "postId" "Int" "scalar" [], Declaration.field "tagId" "Int" "scalar" [],
      Declaration.field "post" "Post" "object" [], Declaration.field "tag" "Tag" "object" []] []] []

theorem Compiled.analyses_deeply_frozen_iff_tagging :
    ∃ c, (compileWith tagging none []).result = .ok c ∧ ∃ post tag link,
      c.schema.analyze true = [post, tag, link] ∧ post.DeeplyFrozen ∧ tag.DeeplyFrozen ∧
      link.model = "PostTag" ∧ link.frozen = true ∧ link.relationships = .empty ∧
      ¬ link.DeeplyFrozen := by
  obtain ⟨c, hc, hs⟩ := exists_compiled (rfl : tagging.dataModel? = some tagging)
  have hmodels : ∃ post tag link, c.schema.models.items = [post, tag, link] ∧
      isJunction post.fields.items = false ∧ isJunction tag.fields.items = false ∧
      isJunction link.fields.items = true ∧ link.name = "PostTag" := by
    rw [hs]
    exact ⟨_, _, _, rfl, by decide +kernel, by decide +kernel, by decide +kernel, by decide +kernel⟩
  obtain ⟨post, tag, link, hitems, hpost, htag, hlink, hname⟩ := hmodels
  have hanalyses := Compiled.analyses_deeply_frozen_iff hc
  rw [hitems] at hanalyses
  obtain ⟨a, rest, hfirst, hrest, hlist⟩ := List.forall₂_cons_left_iff.mp hanalyses
  obtain ⟨b, rest', hsecond, hrest', rfl⟩ := List.forall₂_cons_left_iff.mp hrest
  obtain ⟨d, rest'', hthird, hend, rfl⟩ := List.forall₂_cons_left_iff.mp hrest'
  cases List.forall₂_nil_left_iff.mp hend
  refine ⟨c, hc, a, b, d, hlist, hfirst.deep.mpr hpost, hsecond.deep.mpr htag,
    hthird.model.trans hname, hthird.record, (hthird.lists hlink).1, ?_⟩
  rw [hthird.deep, hlink]
  exact Bool.noConfusion

/-- It is not so that all analyses are deeply frozen whenever they are asked for as frozen records. -/
theorem Compiled.frozen_analyses_may_hold_open_lists :
    ¬ ∀ (document : Value) (options : Option Options.Settings) (overrides : Options.Settings)
      (c : Compiled), (compileWith document options overrides).result = .ok c →
      ∀ a ∈ c.schema.analyze true, a.DeeplyFrozen := by
  intro hdeep
  obtain ⟨c, hc, hs⟩ := exists_compiled (rfl : tagging.dataModel? = some tagging)
  have hlink : ∃ m ∈ c.schema.models.items, m.isJunctionTable = true := by
    rw [hs]
    decide +kernel
  obtain ⟨m, hm, hj⟩ := hlink
  have hmem : m.analyze true c.schema ∈ c.schema.analyze true := by
    rw [Schema.analyze_eq (Compiled.wellFormed hc)]
    exact List.mem_map_of_mem hm
  have hclosed := Model.deeplyFrozen_analyze_iff.mp (hdeep tagging none [] c hc _ hmem)
  exact Bool.false_ne_true (hclosed.symm.trans hj)

end EntitySchema
