import EntitySchema.Proofs.WellFormed
import EntitySchema.Validation.Check

/-!
# Referential soundness

The checks of keys, relations and enums together decide whether every name that a schema refers to is
declared where it is looked for. Each function of a check is read as the condition under which it finds
no error; warnings do not matter. The conditions of the three checks are put together in the end.
-/

set_option autoImplicit false

namespace EntitySchema

structure Model.KeysResolve (m : Model) : Prop where
  identified : (∃ f ∈ m.fields.items, f.isId = true) ∨ m.primaryKey.isSome = true
  primaryKey : ∀ key ∈ m.primaryKey, ∀ n ∈ key.fields.items, m.HasField n
  uniqueFields : ∀ group ∈ m.uniqueFields.items, ∀ n ∈ group.items, m.HasField n

structure Schema.RelationResolves (s : Schema) (m : Model) (f : Field) : Prop where
  length_eq : f.fromNames.length = f.toNames.length
  fromNames : ∀ n ∈ f.fromNames, m.HasField n
  target : ∃ t ∈ s.models.items, t.name = f.typeName ∧ ∀ n ∈ f.toNames, t.HasField n

structure Schema.ReferentiallySound (s : Schema) : Prop where
  keys : ∀ m ∈ s.models.items, m.KeysResolve
  relations : ∀ m ∈ s.models.items, ∀ f ∈ m.fields.items, f.isRelation = true →
    s.RelationResolves m f
  enumValues : ∀ e ∈ s.enums.items, e.values.items ≠ []
  enumFields : ∀ m ∈ s.models.items, ∀ f ∈ m.fields.items, f.kind = .enum →
    ∃ e ∈ s.enums.items, e.name = f.typeName

namespace Finding

def Harmless (findings : List Finding) : Prop := ∀ x ∈ findings, x.isError = false

theorem harmless_nil : Harmless [] := by
  intro x hx
  cases hx

theorem harmless_singleton (x : Finding) : Harmless [x] ↔ x.isError = false :=
  List.forall_mem_singleton

theorem harmless_append (xs ys : List Finding) :
    Harmless (xs ++ ys) ↔ Harmless xs ∧ Harmless ys := List.forall_mem_append

theorem harmless_flatMap {α : Type} (items : List α) (found : α → List Finding) :
    Harmless (items.flatMap found) ↔ ∀ a ∈ items, Harmless (found a) :=
  List.forall_mem_flatMap

theorem harmless_map_of_warning {α : Type} (items : List α) {found : α → Finding}
    (h : ∀ a, (found a).isError = false) : Harmless (items.map found) :=
  List.forall_mem_map.mpr fun a _ => h a

/-- Errors about the elements with some defect mean that there are such elements. -/
theorem harmless_map_of_error {α : Type} (items : List α) {found : α → Finding}
    (defect : α → Bool) (h : ∀ a, (found a).isError = true) :
    Harmless ((items.filter defect).map found) ↔ ∀ a ∈ items, defect a = false := by
  rw [Harmless, List.forall_mem_map]
  constructor
  · intro hall a ha
    rw [← Bool.not_eq_true]
    intro hdefect
    have hfound := hall a (List.mem_filter.mpr ⟨ha, hdefect⟩)
    rw [h a] at hfound
    cases hfound
  · intro hall a ha
    obtain ⟨hmem, hdefect⟩ := List.mem_filter.mp ha
    rw [hall a hmem] at hdefect
    cases hdefect

end Finding

open Finding

theorem Schema.hasErrors_reportOf (s : Schema) (c : Check) :
    (s.reportOf c).hasErrors = false ↔ Harmless (s.findingsOf c) := by
  rw [Report.hasErrors, reportOf, List.any_map, List.any_eq_false]
  simp only [Function.comp_apply, isError_issue, Bool.not_eq_true]
  rfl

theorem Report.hasErrors_merge (r other : Report) :
    (r.merge other).hasErrors = (r.hasErrors || other.hasErrors) := by
  rw [hasErrors, issues_merge, List.any_append]
  rfl

/-! Keys. -/

namespace Model

theorem field?_isNone_eq_false_iff {m : Model} (h : m.WellFormed) (name : String) :
    (m.field? name).isNone = false ↔ m.HasField name := by
  rw [← field?_isSome_iff h, Option.isNone_eq_false_iff]

theorem harmless_keyListFindings {m : Model} (h : m.WellFormed) (kind : KeyKind)
    (names : List String) :
    Harmless (m.keyListFindings kind names) ↔ ∀ n ∈ names, m.HasField n := by
  rw [keyListFindings, harmless_append, harmless_map_of_error _ _ fun _ => rfl]
  simp only [field?_isNone_eq_false_iff h]
  exact and_iff_left (harmless_map_of_warning _ fun _ => rfl)

theorem harmless_uniqueFindings {m : Model} (h : m.WellFormed) (names : List String) :
    Harmless (m.uniqueFindings names) ↔ ∀ n ∈ names, m.HasField n := by
  unfold uniqueFindings
  split
  · next hempty =>
    rw [harmless_singleton, List.isEmpty_iff.mp hempty]
    exact iff_of_true rfl fun n hn => nomatch hn
  · exact harmless_keyListFindings h .unique names

theorem idFieldNames_isEmpty_iff (m : Model) :
    m.idFieldNames.isEmpty = true ↔ ¬ ∃ f ∈ m.fields.items, f.isId = true := by
  rw [idFieldNames, List.isEmpty_iff, List.map_eq_nil_iff, List.filter_eq_nil_iff]
  simp only [not_exists, not_and]

theorem harmless_missingPrimaryKey {m : Model} (h : m.WellFormed) :
    Harmless (if m.idFieldNames.isEmpty && !m.hasCompositePrimaryKey
        then [.missingPrimaryKey m.name] else []) ↔
      (∃ f ∈ m.fields.items, f.isId = true) ∨ m.primaryKey.isSome = true := by
  rw [← hasCompositePrimaryKey_iff h]
  split
  · next hmissing =>
    rw [Bool.and_eq_true, idFieldNames_isEmpty_iff, Bool.not_eq_true'] at hmissing
    rw [harmless_singleton, hmissing.2]
    exact iff_of_false Bool.noConfusion (not_or.mpr ⟨hmissing.1, Bool.noConfusion⟩)
  · next hkept =>
    rw [Bool.and_eq_true, idFieldNames_isEmpty_iff, Bool.not_eq_true', ← Bool.not_eq_true,
      not_and_or, not_not, not_not] at hkept
    exact iff_of_true harmless_nil hkept

theorem harmless_keyFindings {m : Model} (h : m.WellFormed) :
    Harmless m.keyFindings ↔ m.KeysResolve := by
  have hmultiple : Harmless (if 1 < m.idFieldNames.length
      then [.multipleIdFields m.name m.idFieldNames] else []) := by
    split
    · exact (harmless_singleton _).mpr rfl
    · exact harmless_nil
  rw [keyFindings, harmless_append, harmless_append, harmless_append, harmless_flatMap,
    harmless_missingPrimaryKey h]
  simp only [harmless_uniqueFindings h]
  constructor
  · rintro ⟨⟨⟨hid, -⟩, hkey⟩, hunique⟩
    refine ⟨hid, fun key hsome n hn => ?_, hunique⟩
    rw [Option.mem_def.mp hsome] at hkey
    exact (harmless_keyListFindings h .primary _).mp hkey n hn
  · rintro ⟨hid, hkey, hunique⟩
    refine ⟨⟨⟨hid, hmultiple⟩, ?_⟩, hunique⟩
    split
    · next key hsome => exact (harmless_keyListFindings h .primary _).mpr (hkey key hsome)
    · exact harmless_nil

end Model

/-! Relations. -/

/-- A list that is missing on one side only is a mismatch of lengths, too. -/
theorem Field.harmless_keyCountFindings (model : String) (f : Field) :
    Harmless (f.keyCountFindings model) ↔ f.fromNames.length = f.toNames.length := by
  unfold keyCountFindings
  split
  · next hmissing =>
    rw [Bool.and_eq_true, Bool.not_eq_true', List.isEmpty_eq_false_iff, List.isEmpty_iff]
      at hmissing
    rw [harmless_singleton, hmissing.2, List.length_nil, List.length_eq_zero_iff]
    exact iff_of_false Bool.noConfusion hmissing.1
  · split
    · next hmismatch =>
      rw [Bool.and_eq_true, bne_iff_ne] at hmismatch
      rw [harmless_singleton]
      exact iff_of_false Bool.noConfusion hmismatch.2
    · next hfrom hto =>
      refine iff_of_true harmless_nil ?_
      cases hf : f.fromNames <;> cases ht : f.toNames <;> simp_all

namespace Schema

theorem model?_isNone_iff {s : Schema} (h : s.WellFormed) (name : String) :
    (s.model? name).isNone = true ↔ ¬ ∃ t ∈ s.models.items, t.name = name := by
  rw [Option.isNone_iff_eq_none, ← Option.not_isSome_iff_eq_none, model?_isSome_iff h, modelNames,
    List.mem_map]

theorem harmless_relationFindings {s : Schema} (h : s.WellFormed) {m : Model} (hm : m.WellFormed)
    (f : Field) : Harmless (s.relationFindings m f) ↔ s.RelationResolves m f := by
  rw [relationFindings, harmless_append, harmless_append, harmless_append,
    Field.harmless_keyCountFindings, harmless_map_of_error _ _ fun _ => rfl]
  simp only [Model.field?_isNone_eq_false_iff hm]
  cases htarget : s.model? f.typeName with
  | none =>
    have hunknown := (model?_isNone_iff h f.typeName).mp (by rw [htarget]; rfl)
    refine iff_of_false (fun hharmless => ?_) fun hr => ?_
    · exact Bool.noConfusion ((harmless_singleton _).mp hharmless.1.1.1)
    · obtain ⟨t, ht, hname, -⟩ := hr.target
      exact hunknown ⟨t, ht, hname⟩
  | some t =>
    obtain ⟨ht, hname⟩ := (model?_eq_some_iff h _ t).mp htarget
    dsimp only
    rw [harmless_map_of_error _ _ fun _ => rfl]
    simp only [Model.field?_isNone_eq_false_iff (h.models t ht)]
    constructor
    · rintro ⟨⟨⟨-, hlength⟩, hfrom⟩, hto⟩
      exact ⟨hlength, hfrom, t, ht, hname, hto⟩
    · rintro ⟨hlength, hfrom, u, hu, huname, hto⟩
      have htu := model_eq_of_name_eq h ht hu (hname.trans huname.symm)
      exact ⟨⟨⟨harmless_nil, hlength⟩, hfrom⟩, htu ▸ hto⟩

/-! Enums. -/

theorem harmless_enumFieldFindings {s : Schema} (h : s.WellFormed) (model : String) (f : Field) :
    Harmless (s.enumFieldFindings model f) ↔ ∃ e ∈ s.enums.items, e.name = f.typeName := by
  rw [← enum?_isSome_iff h]
  unfold enumFieldFindings
  split
  · next hnone =>
    rw [harmless_singleton, hnone]
    exact iff_of_false Bool.noConfusion Bool.noConfusion
  · next e hsome =>
    rw [hsome]
    refine iff_of_true ?_ rfl
    split
    · split
      · exact harmless_nil
      · exact (harmless_singleton _).mpr rfl
    · exact harmless_nil

/-! The three checks. -/

theorem harmless_keys {s : Schema} (h : s.WellFormed) :
    Harmless (s.findingsOf .keys) ↔ ∀ m ∈ s.models.items, m.KeysResolve := by
  rw [findingsOf, keyFindings, harmless_flatMap]
  exact forall₂_congr fun m hm => Model.harmless_keyFindings (h.models m hm)

theorem harmless_relations {s : Schema} (h : s.WellFormed) :
    Harmless (s.findingsOf .relations) ↔ ∀ m ∈ s.models.items, ∀ f ∈ m.fields.items,
      f.isRelation = true → s.RelationResolves m f := by
  rw [findingsOf, targetFindings, harmless_flatMap]
  refine forall₂_congr fun m hm => ?_
  rw [harmless_flatMap]
  simp only [List.mem_filter, and_imp, harmless_relationFindings h (h.models m hm)]

theorem harmless_enums {s : Schema} (h : s.WellFormed) :
    Harmless (s.findingsOf .enums) ↔ (∀ e ∈ s.enums.items, e.values.items ≠ []) ∧
      ∀ m ∈ s.models.items, ∀ f ∈ m.fields.items, f.kind = .enum →
        ∃ e ∈ s.enums.items, e.name = f.typeName := by
  rw [findingsOf, enumFindings, harmless_append, harmless_map_of_error _ _ fun _ => rfl,
    harmless_flatMap]
  simp only [harmless_flatMap, List.mem_filter, and_imp, beq_iff_eq,
    harmless_enumFieldFindings h, Seq.isEmpty, List.isEmpty_eq_false_iff, ne_eq]

theorem hasErrors_eq_false_iff {s : Schema} (h : s.WellFormed) :
    (((s.reportOf .keys).merge (s.reportOf .relations)).merge (s.reportOf .enums)).hasErrors
      = false ↔ s.ReferentiallySound := by
  rw [Report.hasErrors_merge, Report.hasErrors_merge, Bool.or_eq_false_iff, Bool.or_eq_false_iff,
    hasErrors_reportOf, hasErrors_reportOf, hasErrors_reportOf, harmless_keys h,
    harmless_relations h, harmless_enums h]
  constructor
  · rintro ⟨⟨hkeys, hrelations⟩, hvalues, hfields⟩
    exact ⟨hkeys, hrelations, hvalues, hfields⟩
  · rintro ⟨hkeys, hrelations, hvalues, hfields⟩
    exact ⟨⟨hkeys, hrelations⟩, hvalues, hfields⟩

end Schema

/-- The checks of keys, relations and enums find no error exactly if all references resolve. -/
theorem Compiled.no_reference_errors_iff {document : Value} {options : Option Options.Settings}
    {overrides : Options.Settings} {c : Compiled}
    (h : (compileWith document options overrides).result = .ok c) :
    (((c.schema.reportOf .keys).merge (c.schema.reportOf .relations)).merge
      (c.schema.reportOf .enums)).hasErrors = false ↔ c.schema.ReferentiallySound :=
  Schema.hasErrors_eq_false_iff (Compiled.wellFormed h)

/-! Books of an author, with a reference that resolves or dangles. -/

def idDeclaration : Value :=
  .map 0 [(.text "name", .text "id"), (.text "type", .text "Int"), (.text "kind", .text "scalar"),
    (.text "isId", .bool true), (.text "isRequired", .bool true)]

def library (referenced : String) : Value :=
  .map 0 [
    (.text "models", .seq false [
      .map 0 [(.text "name", .text "Author"), (.text "fields", .seq false [idDeclaration])],
      .map 0 [(.text "name", .text "Book"), (.text "fields", .seq false [idDeclaration,
        .map 0 [(.text "name", .text "author"), (.text "type", .text "Author"),
          (.text "kind", .text "object"),
          (.text "relationFromFields", .seq false [.text "id"]),
          (.text "relationToFields", .seq false [.text referenced])],
        .map 0 [(.text "name", .text "genre"), (.text "type", .text "Genre"),
          (.text "kind", .text "enum")]])]]),
    (.text "enums", .seq false [
      .map 0 [(.text "name", .text "Genre"),
        (.text "values", .seq false [.map 0 [(.text "name", .text "NOVEL")]])]])]

theorem compileWith_library (referenced : String) :
    ∃ c, (compileWith (library referenced) none []).result = .ok c ∧
      c.schema = (readSchema true (library referenced)).value := exists_compiled rfl

theorem Compiled.no_reference_errors_iff_library :
    (∃ c, (compileWith (library "id") none []).result = .ok c ∧ c.schema.ReferentiallySound) ∧
      ∃ c, (compileWith (library "isbn") none []).result = .ok c ∧
        ¬ c.schema.ReferentiallySound := by
  constructor
  · obtain ⟨c, hc, hs⟩ := compileWith_library "id"
    refine ⟨c, hc, (Compiled.no_reference_errors_iff hc).mp ?_⟩
    rw [hs]
    decide +kernel
  · obtain ⟨c, hc, hs⟩ := compileWith_library "isbn"
    refine ⟨c, hc, fun hsound => ?_⟩
    have hnone := (Compiled.no_reference_errors_iff hc).mpr hsound
    rw [hs] at hnone
    revert hnone
    decide +kernel

end EntitySchema
