import EntitySchema.Proofs.Declarations
import EntitySchema.Proofs.Relation.Analyses

/-!
# Back references

Relations are paired if no two fields of a model lead to the same other model under one relation name,
and no three to the model itself. Then an opposite is the only one there is: the search for the back
reference of a back reference comes back to the field it started from, and the two fields have converse
cardinalities. A schema whose relations are not paired can break this, because each search stops at the
first field that fits.
-/

set_option autoImplicit false

namespace EntitySchema

namespace Model

def relationsTo (m : Model) (target : String) (relationName : Option String) : List Field :=
  m.relations.filter fun f => f.typeName == target && f.relationName == relationName

theorem mem_relationsTo {m : Model} {target : String} {relationName : Option String} {f : Field} :
    f ∈ m.relationsTo target relationName ↔
      f ∈ m.relations ∧ f.typeName = target ∧ f.relationName = relationName := by
  rw [relationsTo, List.mem_filter, Bool.and_eq_true, beq_iff_eq, beq_iff_eq]

end Model

namespace Schema

/-- For each model, target and relation name there is at most one relation field, or at most two if
the target is the model itself. Fields without a relation name count as fields of one more name. -/
def Paired (s : Schema) : Prop :=
  ∀ m ∈ s.models.items, ∀ t ∈ s.models.items, ∀ relationName,
    (m.relationsTo t.name relationName).length ≤ if t.name = m.name then 2 else 1

theorem paired_iff {s : Schema} :
    s.Paired ↔ ∀ m ∈ s.models.items, ∀ t ∈ s.models.items, ∀ f ∈ m.relations,
      (m.relationsTo t.name f.relationName).length ≤ if t.name = m.name then 2 else 1 := by
  constructor
  · exact fun h m hm t ht f _ => h m hm t ht f.relationName
  · intro h m hm t ht relationName
    cases hfound : m.relationsTo t.name relationName with
    | nil => exact Nat.zero_le _
    | cons f rest =>
      have hmem : f ∈ m.relationsTo t.name relationName := hfound ▸ List.mem_cons_self
      obtain ⟨hf, -, rfl⟩ := Model.mem_relationsTo.mp hmem
      exact hfound ▸ h m hm t ht f hf

instance (s : Schema) : Decidable s.Paired := decidable_of_iff' _ paired_iff

end Schema

def Schema.RelationsViewed (s : Schema) : Prop :=
  ∀ m ∈ s.models.items, m.relationFields.items = m.relations

/-! Opposites. -/

namespace Field

variable {f g : Field} {a b : Model}

theorem isOppositeOf_iff : g.isOppositeOf f a b = true ↔ g.typeName = a.name ∧
    (a.name = b.name → g.name ≠ f.name) ∧ g.relationName = f.relationName := by
  simp [isOppositeOf, and_assoc, imp_iff_not_or]

theorem isOppositeOf_symm (ht : f.typeName = b.name) (h : g.isOppositeOf f a b = true) :
    f.isOppositeOf g b a = true := by
  obtain ⟨-, hne, hname⟩ := isOppositeOf_iff.mp h
  exact isOppositeOf_iff.mpr ⟨ht, fun hab => (hne hab.symm).symm, hname.symm⟩

end Field

namespace Schema

variable {s : Schema} {a b : Model} {f g x : Field}

/-- Between two models there is no second field that fits, and on one model a second field that fits
would be a third one of its name. -/
theorem Paired.opposite_unique (hp : s.Paired) (hs : s.WellFormed) (ha : a ∈ s.models.items)
    (hb : b ∈ s.models.items) (hf : f ∈ a.relations) (hg : g ∈ b.relations) (hx : x ∈ a.relations)
    (hgf : g.isOppositeOf f a b = true) (hfg : f.isOppositeOf g b a = true)
    (hxg : x.isOppositeOf g b a = true) : x = f := by
  obtain ⟨hga, -, -⟩ := Field.isOppositeOf_iff.mp hgf
  obtain ⟨hfb, hfne, hfname⟩ := Field.isOppositeOf_iff.mp hfg
  obtain ⟨hxb, hxne, hxname⟩ := Field.isOppositeOf_iff.mp hxg
  have hfto := Model.mem_relationsTo.mpr ⟨hf, hfb, hfname⟩
  have hxto := Model.mem_relationsTo.mpr ⟨hx, hxb, hxname⟩
  have hlength := hp a ha b hb g.relationName
  by_contra hne
  by_cases hab : b.name = a.name
  · obtain rfl := model_eq_of_name_eq hs hb ha hab
    have hgto : g ∈ b.relationsTo b.name g.relationName := Model.mem_relationsTo.mpr ⟨hg, hga, rfl⟩
    have hxg : x ≠ g := fun he => hxne rfl (he ▸ rfl)
    have hfg : f ≠ g := fun he => hfne rfl (he ▸ rfl)
    have hthree : [x, f, g].Subperm (b.relationsTo b.name g.relationName) :=
      List.subperm_of_subset (by simp [hne, hxg, hfg]) (by simp [hxto, hfto, hgto])
    rw [if_pos rfl] at hlength
    exact absurd (Nat.le_trans hthree.length_le hlength) (by simp)
  · have htwo : [x, f].Subperm (a.relationsTo b.name g.relationName) :=
      List.subperm_of_subset (by simp [hne]) (by simp [hxto, hfto])
    rw [if_neg hab] at hlength
    exact absurd (Nat.le_trans htwo.length_le hlength) (by simp)

theorem Paired.backReference?_symm (hp : s.Paired) (hs : s.WellFormed) (hviews : s.RelationsViewed)
    (ha : a ∈ s.models.items) (hb : b ∈ s.models.items) (hf : f ∈ a.relations)
    (ht : f.typeName = b.name) (h : f.backReference? a b = some g) :
    g ∈ b.relations ∧ g.typeName = a.name ∧ g.backReference? b a = some f := by
  rw [Field.backReference?, hviews b hb] at h
  have hg := List.mem_of_find?_eq_some h
  have hgf : g.isOppositeOf f a b = true := by simpa using List.find?_some h
  have hfg := Field.isOppositeOf_symm ht hgf
  refine ⟨hg, (Field.isOppositeOf_iff.mp hgf).1, ?_⟩
  rw [Field.backReference?, hviews a ha]
  apply find?_eq_some_of_unique hf hfg
  exact fun x hx hxg => hp.opposite_unique hs ha hb hf hg hx hgf hfg hxg

end Schema

/-! Relationships. -/

/-- Every back reference of one analysis to a field of another one leads to a relationship that comes
back, with the cardinality seen from the other side. -/
structure ModelAnalysis.AnsweredBy (a b : ModelAnalysis) : Prop where
  listed : ∀ r ∈ a.relationships.items, r.target = b.model → ∀ name ∈ r.backReference,
    ∃ q ∈ b.relationships.items, q.field = name
  answered : ∀ r ∈ a.relationships.items, r.target = b.model → ∀ q ∈ b.relationships.items,
    r.backReference = some q.field → q.target = a.model ∧ q.backReference = some r.field ∧
      q.cardinality = r.cardinality.converse

def ModelAnalysis.IncludesOwners (a : ModelAnalysis) : Prop :=
  ∀ r ∈ a.relationships.items, r.shouldAutoInclude = true ↔ r.cardinality = .manyToOne

namespace Schema

variable {s : Schema} {a b : Model} {f g : Field} {frozen : Bool}

theorem cardinality_relationship_of_back (hback : f.backReference? a b = some g) :
    (a.relationship frozen b f).cardinality = Cardinality.ofFlags f.isList g.isList := by
  rw [Model.relationship, hback]
  rfl

theorem includesOwners_analyze (m : Model) : (m.analyze frozen s).IncludesOwners := by
  intro r hr
  cases hj : m.isJunctionTable with
  | true =>
    rw [Model.analyze, if_pos hj] at hr
    cases hr
  | false =>
    obtain ⟨f, -, t, -, rfl⟩ := (Model.mem_relationships_analyze frozen hj).mp hr
    exact beq_iff_eq

/-- The relationship of a field whose back reference is known to come back. -/
theorem relationship_of_back (frozen : Bool) (hfg : f.backReference? a b = some g)
    (hgf : g.backReference? b a = some f) :
    (a.relationship frozen b f).backReference = some g.name ∧
      (b.relationship frozen a g).backReference = some f.name ∧
      (b.relationship frozen a g).cardinality = (a.relationship frozen b f).cardinality.converse := by
  rw [cardinality_relationship_of_back hfg, cardinality_relationship_of_back hgf,
    Cardinality.ofFlags_swap]
  refine ⟨?_, ?_, rfl⟩
  · rw [Model.relationship, hfg]
    rfl
  · rw [Model.relationship, hgf]
    rfl

theorem Paired.answeredBy_analyze (hp : s.Paired) (hs : s.WellFormed) (hviews : s.RelationsViewed)
    (ha : a ∈ s.models.items) (hb : b ∈ s.models.items) (hja : a.isJunctionTable = false)
    (hjb : b.isJunctionTable = false) :
    (a.analyze frozen s).AnsweredBy (b.analyze frozen s) := by
  -- A relationship with a back reference comes from a field and its opposite, which lead to each other.
  have hpair : ∀ r ∈ (a.analyze frozen s).relationships.items,
      r.target = (b.analyze frozen s).model → ∀ name ∈ r.backReference,
      ∃ f g, a.relationship frozen b f = r ∧ g ∈ b.relations ∧ g.typeName = a.name ∧
        g.name = name ∧ f.backReference? a b = some g ∧ g.backReference? b a = some f := by
    intro r hr htarget name hname
    obtain ⟨f, hf, t, ht, rfl⟩ := (Model.mem_relationships_analyze frozen hja).mp hr
    obtain ⟨htmem, htname⟩ := (model?_eq_some_iff hs _ t).mp ht
    have htb : t = b := model_eq_of_name_eq hs htmem hb (htarget.trans (Model.model_analyze frozen))
    cases htb
    obtain ⟨g, hfg, rfl⟩ := Option.map_eq_some_iff.mp hname
    obtain ⟨hg, hga, hgf⟩ := hp.backReference?_symm hs hviews ha hb hf htname.symm hfg
    exact ⟨f, g, rfl, hg, hga, rfl, hfg, hgf⟩
  constructor
  case listed =>
    intro r hr htarget name hname
    obtain ⟨f, g, -, hg, hga, rfl, -, -⟩ := hpair r hr htarget name hname
    refine ⟨b.relationship frozen a g, ?_, rfl⟩
    exact (Model.mem_relationships_analyze frozen hjb).mpr ⟨g, hg, a, hga ▸ model?_name hs ha, rfl⟩
  case answered =>
    intro r hr htarget q hq hback
    obtain ⟨f, g, rfl, hg, hga, hname, hfg, hgf⟩ := hpair r hr htarget q.field hback
    obtain ⟨g', hg', t, ht, rfl⟩ := (Model.mem_relationships_analyze frozen hjb).mp hq
    have hgg : g = g' :=
      List.inj_on_of_nodup_map (Model.relationNames_nodup (hs.models b hb)) hg hg' hname
    cases hgg
    have hta : t = a := Option.some.inj (ht.symm.trans (hga ▸ model?_name hs ha))
    cases hta
    obtain ⟨-, hqback, hconverse⟩ := relationship_of_back frozen hfg hgf
    exact ⟨(Model.model_analyze frozen).symm, hqback, hconverse⟩

theorem relationsViewed_readSchema (frozen : Bool) (dataModel : Value) :
    (readSchema frozen dataModel).value.RelationsViewed := by
  intro m hm
  obtain ⟨read, -, rfl⟩ := List.mem_map.mp hm
  rfl

end Schema

/-- In a compiled schema with paired relations, what the analysis of one model says of a back reference
is answered by the analysis of the other model; and in any compiled schema relationships are loaded
with their owner exactly if they are many-to-one. -/
theorem Compiled.back_references_symmetric {document : Value} {options : Option Options.Settings}
    {overrides : Options.Settings} {c : Compiled}
    (h : (compileWith document options overrides).result = .ok c) (hp : c.schema.Paired)
    (frozen : Bool) :
    ∀ m ∈ c.schema.models.items, ∀ n ∈ c.schema.models.items, m.isJunctionTable = false →
      n.isJunctionTable = false → ∃ a b, c.schema.analysis? frozen m.name = some a ∧
        c.schema.analysis? frozen n.name = some b ∧ a.AnsweredBy b ∧ a.IncludesOwners := by
  have hs := Compiled.wellFormed h
  have hviews : c.schema.RelationsViewed := by
    obtain ⟨frozen, dataModel, -, hread, -⟩ := compileWith_eq_ok h
    rw [hread]
    exact Schema.relationsViewed_readSchema frozen dataModel
  intro m hm n hn hjm hjn
  exact ⟨_, _, Schema.analysis?_eq_some hs frozen hm, Schema.analysis?_eq_some hs frozen hn,
    hp.answeredBy_analyze hs hviews hm hn hjm hjn, Schema.includesOwners_analyze m⟩

/-! Writers with their teachers, pupils and letters. Two relations of one name lead from a writer to
writers, and that of the letters has no name. -/

def correspondence : Value :=
  Declaration.document [
    Declaration.model "Writer" [Declaration.field "id" "Int" "scalar" [],
      Declaration.field "name" "String" "scalar" [], Declaration.field "born" "Int" "scalar" [],
      Declaration.field "teacher" "Writer" "object" [("relationName", .text "Teaching")],
      Declaration.field "pupils" "Writer" "object"
        [("relationName", .text "Teaching"), ("isList", .bool true)],
      Declaration.field "letters" "Letter" "object" [("isList", .bool true)]] [],
    Declaration.model "Letter" [Declaration.field "id" "Int" "scalar" [],
      Declaration.field "writer" "Writer" "object" []] []] []

theorem Compiled.back_references_symmetric_correspondence :
    ∃ c, (compileWith correspondence none []).result = .ok c ∧ c.schema.Paired ∧
      ∃ a b, c.schema.analysis? true "Writer" = some a ∧ c.schema.analysis? true "Letter" = some b ∧
        a.relationships.items.map (·.backReference) = [some "pupils", some "teacher", some "writer"] ∧
        a.AnsweredBy a ∧ a.AnsweredBy b ∧ b.AnsweredBy a ∧ b.IncludesOwners := by
  obtain ⟨c, hc, hs⟩ := exists_compiled (rfl : correspondence.dataModel? = some correspondence)
  have hp : c.schema.Paired := by
    rw [hs]
    decide +kernel
  have hmodels : (∃ m ∈ c.schema.models.items, m.name = "Writer" ∧ m.isJunctionTable = false) ∧
      ∃ m ∈ c.schema.models.items, m.name = "Letter" ∧ m.isJunctionTable = false := by
    rw [hs]
    decide +kernel
  have hbacks : (c.schema.analysis? true "Writer").map (·.relationships.items.map (·.backReference)) =
      some [some "pupils", some "teacher", some "writer"] := by
    rw [hs]
    decide +kernel
  obtain ⟨⟨m, hm, hwriter, hjm⟩, n, hn, hletter, hjn⟩ := hmodels
  have hsymmetric := Compiled.back_references_symmetric hc hp true
  obtain ⟨a, b, ha, hb, hab, -⟩ := hsymmetric m hm n hn hjm hjn
  obtain ⟨b', a', hb', ha', hba, hincludes⟩ := hsymmetric n hn m hm hjn hjm
  obtain ⟨x, y, hx, hy, haa, -⟩ := hsymmetric m hm m hm hjm hjm
  cases ha.symm.trans ha'
  cases hb.symm.trans hb'
  cases ha.symm.trans hx
  cases ha.symm.trans hy
  rw [hwriter] at ha
  rw [hletter] at hb
  rw [ha] at hbacks
  exact ⟨c, hc, hp, a, b, ha, hb, Option.some.inj hbacks, haa, hab, hba, hincludes⟩

end EntitySchema
