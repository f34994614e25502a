import EntitySchema.Proofs.Declarations
import EntitySchema.Proofs.Findings
import EntitySchema.Proofs.Relation.Analyses

/-!
# Dangling relations

Whether a relation field leads to a known model is asked in four places: by the lookup of its target,
by the index of reverse relations, by the check of relation targets, and by the analysis of the model
that declares it. Of a compiled schema all four say the same of every relation field. An analysis lists
a field that dangles among the skipped ones, and any other with its relationship.
-/

set_option autoImplicit false

namespace EntitySchema

def Report.Blames (r : Report) (code model field : String) : Prop :=
  ∃ i ∈ r.issues, i.code = code ∧
    i.context = (Finding.onField model field).map fun c => (.text c.1, c.2)

structure Schema.AgreeOnTarget (s : Schema) (m : Model) (f : Field) : Prop where
  reverse : s.target? f = none ↔ s.reverse? f.typeName = none
  reported : s.target? f = none ↔
    (s.reportOf .relations).Blames "UNKNOWN_RELATION_TARGET" m.name f.name
  analyzed : m.isJunctionTable = false → ∀ frozen, ∃ a, s.analysis? frozen m.name = some a ∧
    (s.target? f = none ↔ f.name ∈ a.skipped.items ∧ f.name ∉ a.related)

namespace Schema

theorem target?_of_isRelation {s : Schema} {f : Field} (h : f.isRelation = true) :
    s.target? f = s.model? f.typeName := if_pos h

/-! The check of relation targets. -/

theorem unknownRelationTarget_mem_relationFindings {s : Schema} {m : Model} {f : Field}
    {model field target : String} :
    .unknownRelationTarget model field target ∈ s.relationFindings m f ↔
      s.model? f.typeName = none ∧ m.name = model ∧ f.name = field ∧ f.typeName = target := by
  have hcount : Finding.unknownRelationTarget model field target ∉ f.keyCountFindings m.name := by
    unfold Field.keyCountFindings
    split
    · simp
    · split <;> simp
  simp only [relationFindings, List.mem_append, hcount, or_false]
  cases s.model? f.typeName with
  | none => simp [eq_comm (a := model), eq_comm (a := field), eq_comm (a := target)]
  | some t => simp

theorem unknownRelationTarget_mem_findingsOf {s : Schema} {model field target : String} :
    .unknownRelationTarget model field target ∈ s.findingsOf .relations ↔
      ∃ m ∈ s.models.items, ∃ f ∈ m.relations, s.model? f.typeName = none ∧ m.name = model ∧
        f.name = field ∧ f.typeName = target := by
  simp only [findingsOf, targetFindings, List.mem_flatMap,
    unknownRelationTarget_mem_relationFindings, Model.relations]

theorem blames_unknownRelationTarget_iff {s : Schema} {model field : String} :
    (s.reportOf .relations).Blames "UNKNOWN_RELATION_TARGET" model field ↔
      ∃ target, .unknownRelationTarget model field target ∈ s.findingsOf .relations := by
  constructor
  · rintro ⟨i, hi, hcode, hcontext⟩
    obtain ⟨x, hx, rfl⟩ := List.mem_map.mp hi
    obtain ⟨m, f, target, rfl⟩ := Finding.code_eq_unknownRelationTarget.mp hcode
    obtain ⟨rfl, rfl⟩ : m = model ∧ f = field := by
      simpa [Finding.issue, Finding.context, Finding.onField] using hcontext
    exact ⟨target, hx⟩
  · rintro ⟨target, hx⟩
    exact ⟨_, List.mem_map_of_mem hx, rfl, rfl⟩

/-- Models and fields are known by their names, so a report blames no other field. -/
theorem blames_iff_model?_eq_none {s : Schema} (h : s.WellFormed) {m : Model}
    (hm : m ∈ s.models.items) {f : Field} (hf : f ∈ m.relations) :
    (s.reportOf .relations).Blames "UNKNOWN_RELATION_TARGET" m.name f.name ↔
      s.model? f.typeName = none := by
  rw [blames_unknownRelationTarget_iff]
  simp only [unknownRelationTarget_mem_findingsOf]
  constructor
  · rintro ⟨target, m', hm', f', hf', hnone, hmodel, hfield, -⟩
    cases model_eq_of_name_eq h hm' hm hmodel
    have hinj := List.inj_on_of_nodup_map (Model.relationNames_nodup (h.models m hm))
    rwa [← hinj hf' hf hfield]
  · intro hnone
    exact ⟨f.typeName, m, hm, f, hf, hnone, rfl, rfl, rfl⟩

/-! The analysis of the declaring model. -/

theorem skipped_iff_model?_eq_none {s : Schema} (frozen : Bool) {m : Model} (hm : m.WellFormed)
    (hj : m.isJunctionTable = false) {f : Field} (hf : f ∈ m.relations) :
    f.name ∈ (m.analyze frozen s).skipped.items ∧ f.name ∉ (m.analyze frozen s).related ↔
      s.model? f.typeName = none := by
  have hlisted : ∀ p : Field → Bool, f.name ∈ (m.relations.filter p).map (·.name) ↔ p f = true := by
    intro p
    constructor
    · intro hmem
      obtain ⟨g, hg, hname⟩ := List.mem_map.mp hmem
      obtain ⟨hg, hp⟩ := List.mem_filter.mp hg
      rwa [← List.inj_on_of_nodup_map (Model.relationNames_nodup hm) hg hf hname]
    · exact fun hp => List.mem_map_of_mem (List.mem_filter.mpr ⟨hf, hp⟩)
  rw [Model.skipped_analyze frozen hj, Model.related_analyze frozen hj, hlisted, hlisted]
  simp

theorem agreeOnTarget {s : Schema} (h : s.WellFormed)
    (hreverse : ∀ name, s.reverse? name = (s.model? name).map (·.reverseRelations)) {m : Model}
    (hm : m ∈ s.models.items) {f : Field} (hf : f ∈ m.relations) : s.AgreeOnTarget m f := by
  have htarget := target?_of_isRelation (s := s) (Model.mem_relations.mp hf).2
  constructor
  case reverse => rw [htarget, hreverse, Option.map_eq_none_iff]
  case reported => rw [htarget, blames_iff_model?_eq_none h hm hf]
  case analyzed =>
    intro hj frozen
    refine ⟨_, analysis?_eq_some h frozen hm, ?_⟩
    rw [htarget, skipped_iff_model?_eq_none frozen (h.models m hm) hj hf]

end Schema

/-- On a compiled schema all parts agree on every relation field of every model whether it dangles, and
the analysis of a model that is no junction table lists each of its relation fields once. -/
theorem Compiled.dangling_relations_agree {document : Value} {options : Option Options.Settings}
    {overrides : Options.Settings} {c : Compiled}
    (h : (compileWith document options overrides).result = .ok c) :
    ∀ m ∈ c.schema.models.items,
      (∀ f ∈ m.fields.items, f.isRelation = true → c.schema.AgreeOnTarget m f) ∧
      (m.isJunctionTable = false → ∀ frozen, ∃ a,
        c.schema.analysis? frozen m.name = some a ∧ a.Divides m.relationNames) := by
  have hw := Compiled.wellFormed h
  intro m hm
  constructor
  · intro f hf hr
    exact Schema.agreeOnTarget hw (Compiled.reverse?_eq h) hm (Model.mem_relations.mpr ⟨hf, hr⟩)
  · intro hj frozen
    exact ⟨_, Schema.analysis?_eq_some hw frozen hm, Model.divides_analyze frozen (hw.models m hm) hj⟩

/-! An author with a mentor of her own kind and with an agent. The agency is declared without fields and
so refused, and the second declaration of the author is passed over. -/

def publishing : Value :=
  Declaration.document [
    Declaration.members [("name", .text "Agency")],
    Declaration.model "Author" [Declaration.field "id" "Int" "scalar" [],
      Declaration.field "name" "String" "scalar" [], Declaration.field "born" "Int" "scalar" [],
      Declaration.field "agent" "Agency" "object" [],
      Declaration.field "mentor" "Author" "object" []] [],
    Declaration.model "Author" [Declaration.field "agent" "Author" "object" []] []] []

theorem Compiled.dangling_relations_agree_publishing :
    ∃ c, (compileWith publishing none []).result = .ok c ∧ ∃ m ∈ c.schema.models.items,
      m.isJunctionTable = false ∧ m.relationNames = ["agent", "mentor"] ∧
      (c.schema.reportOf .relations).Blames "UNKNOWN_RELATION_TARGET" m.name "agent" ∧
      ¬ (c.schema.reportOf .relations).Blames "UNKNOWN_RELATION_TARGET" m.name "mentor" ∧
      ∃ a, c.schema.analysis? true m.name = some a ∧ a.Divides ["agent", "mentor"] ∧
        "agent" ∈ a.skipped.items ∧ "agent" ∉ a.related := by
  obtain ⟨c, hc, hs⟩ := exists_compiled (rfl : publishing.dataModel? = some publishing)
  have hdata : ∃ m ∈ c.schema.models.items, m.isJunctionTable = false ∧
      m.relationNames = ["agent", "mentor"] ∧
      (∃ f ∈ m.fields.items, f.isRelation = true ∧ f.name = "agent" ∧
        (c.schema.target? f).isNone = true) ∧
      ∃ f ∈ m.fields.items, f.isRelation = true ∧ f.name = "mentor" ∧
        (c.schema.target? f).isNone = false := by
    rw [hs]
    decide +kernel
  obtain ⟨m, hm, hj, hnames, ⟨agent, hagent, hr, hname, hnone⟩, mentor, hmentor, hr', hname', hsome⟩ :=
    hdata
  obtain ⟨hagree, hdivides⟩ := Compiled.dangling_relations_agree hc m hm
  have hdangles := hagree agent hagent hr
  have hleads := hagree mentor hmentor hr'
  obtain ⟨a, ha, hdivided⟩ := hdivides hj true
  obtain ⟨a', ha', hskipped⟩ := hdangles.analyzed hj true
  cases ha.symm.trans ha'
  rw [Option.isNone_iff_eq_none] at hnone
  refine ⟨c, hc, m, hm, hj, hnames, ?_, ?_, a, ha, hnames ▸ hdivided, ?_⟩
  · exact hname ▸ hdangles.reported.mp hnone
  · intro hblamed
    rw [← hname', ← hleads.reported] at hblamed
    simp [hblamed] at hsome
  · exact hname ▸ hskipped.mp hnone

end EntitySchema
