import EntitySchema.Proofs.WellFormed

/-!
# Analyses of relations

The analyses of a well-formed schema are those of its models, in their order, one under each name. The
analysis of a model that is no junction table divides the relation fields of the model: it lists every
one of them once, with its relationship or as skipped, and both lists keep the order of the fields.
-/

set_option autoImplicit false

namespace EntitySchema

def ModelAnalysis.related (a : ModelAnalysis) : List String := a.relationships.items.map (·.field)

structure ModelAnalysis.Divides (a : ModelAnalysis) (names : List String) : Prop where
  once : ∀ name ∈ names, (a.related ++ a.skipped.items).count name = 1
  related : a.related.Sublist names
  skipped : a.skipped.items.Sublist names

namespace Model

def relations (m : Model) : List Field := m.fields.items.filter (·.isRelation)

def relationNames (m : Model) : List String := m.relations.map (·.name)

theorem mem_relations {m : Model} {f : Field} :
    f ∈ m.relations ↔ f ∈ m.fields.items ∧ f.isRelation = true := List.mem_filter

theorem relationNames_nodup {m : Model} (h : m.WellFormed) : m.relationNames.Nodup :=
  h.fieldNames_nodup.sublist (List.filter_sublist.map _)

variable {s : Schema} {m : Model} (frozen : Bool)

theorem model_analyze : (m.analyze frozen s).model = m.name := by
  unfold analyze
  split <;> rfl

theorem mem_relationships_analyze (hj : m.isJunctionTable = false) {r : Relationship} :
    r ∈ (m.analyze frozen s).relationships.items ↔ ∃ f ∈ m.relations, ∃ t,
      s.model? f.typeName = some t ∧ m.relationship frozen t f = r := by
  simp only [analyze, hj, Bool.false_eq_true, if_false, List.mem_filterMap,
    Option.map_eq_some_iff, relations]

@[simp] theorem field_relationship (target : Model) (f : Field) :
    (m.relationship frozen target f).field = f.name := rfl

theorem related_analyze (hj : m.isJunctionTable = false) : (m.analyze frozen s).related =
    (m.relations.filter fun f => (s.model? f.typeName).isSome).map (·.name) := by
  simp only [ModelAnalysis.related, analyze, hj, Bool.false_eq_true, if_false, relations]
  induction m.fields.items.filter (·.isRelation) with
  | nil => rfl
  | cons f rest ih =>
    cases hf : s.model? f.typeName with
    | none => simp [hf, ih]
    | some t => simp [hf, ih]

theorem skipped_analyze (hj : m.isJunctionTable = false) : (m.analyze frozen s).skipped.items =
    (m.relations.filter fun f => !(s.model? f.typeName).isSome).map (·.name) := by
  simp only [analyze, hj, Bool.false_eq_true, if_false, relations, Option.not_isSome]

theorem divides_analyze (hm : m.WellFormed) (hj : m.isJunctionTable = false) :
    (m.analyze frozen s).Divides m.relationNames where
  once := by
    intro name hname
    rw [related_analyze frozen hj, skipped_analyze frozen hj, ← List.map_append,
      ((List.filter_append_perm _ m.relations).map _).count_eq]
    exact List.count_eq_one_of_mem (relationNames_nodup hm) hname
  related := by
    rw [related_analyze frozen hj]
    exact List.filter_sublist.map _
  skipped := by
    rw [skipped_analyze frozen hj]
    exact List.filter_sublist.map _

end Model

namespace Schema

theorem putNamed_of_not_mem {α : Type} {name : String} {found : List (String × α)}
    (h : name ∉ found.map (·.1)) (a : α) : putNamed name a found = found ++ [(name, a)] := by
  induction found with
  | nil => rfl
  | cons e found ih =>
    obtain ⟨n, b⟩ := e
    rw [List.map_cons, List.mem_cons, not_or] at h
    rw [putNamed, if_neg (Ne.symm h.1), ih h.2, List.cons_append]

/-- Models of different names are analyzed one after the other. -/
theorem analyze_eq {s : Schema} (h : s.WellFormed) (frozen : Bool) :
    s.analyze frozen = s.models.items.map (·.analyze frozen s) := by
  have hfold : ∀ (models : List Model) (found : List (String × ModelAnalysis)),
      (found.map (·.1) ++ models.map (·.name)).Nodup →
      models.foldl (fun found m => putNamed m.name (m.analyze frozen s) found) found =
        found ++ models.map fun m => (m.name, m.analyze frozen s) := by
    intro models
    induction models with
    | nil => simp
    | cons m models ih =>
      intro found hn
      have hm : m.name ∉ found.map (·.1) := by
        intro hmem
        exact (List.disjoint_of_nodup_append hn) hmem (by simp)
      rw [List.foldl_cons, putNamed_of_not_mem hm, ih _ (by simpa using hn)]
      simp
  rw [analyze, hfold _ [] h.modelNames_nodup, List.nil_append, List.map_map]
  rfl

def analysis? (frozen : Bool) (s : Schema) (name : String) : Option ModelAnalysis :=
  (s.analyze frozen).find? (·.model == name)

theorem analysis?_eq_some {s : Schema} (h : s.WellFormed) (frozen : Bool) {m : Model}
    (hm : m ∈ s.models.items) : s.analysis? frozen m.name = some (m.analyze frozen s) := by
  have hfind : s.models.items.find? (·.name == m.name) = some m := by
    refine find?_eq_some_of_unique hm (beq_self_eq_true m.name) fun m' hm' hname => ?_
    exact model_eq_of_name_eq h hm' hm (beq_iff_eq.mp hname)
  rw [analysis?, analyze_eq h, List.find?_map]
  simp only [Function.comp_def, Model.model_analyze, hfind, Option.map_some]

end Schema

end EntitySchema
