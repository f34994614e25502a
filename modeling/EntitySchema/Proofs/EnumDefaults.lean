import EntitySchema.Proofs.Declarations
import EntitySchema.Proofs.Findings
import EntitySchema.Proofs.WellFormed

/-!
# Defaults of enum fields

The check of enums looks up the default of an enum field among the values of the enum if the default is a
text. A list of texts, which is what an enum field of several values has for a default, is not looked at,
so nothing is said of the values in it.
-/

set_option autoImplicit false

namespace EntitySchema

def Value.namedValues? : Value → Option (List String)
  | .text value => some [value]
  | v => v.texts?

def Report.DoubtsDefault (r : Report) (model field : String) : Prop :=
  ∃ i ∈ r.issues, i.code = "INVALID_ENUM_DEFAULT" ∧
    (.text "model", .text model) ∈ i.context ∧ (.text "field", .text field) ∈ i.context

namespace Schema

variable {s : Schema}

theorem invalidEnumDefault_mem_enumFieldFindings {m : String} {f : Field}
    {model field enumName value : String} :
    .invalidEnumDefault model field enumName value ∈ s.enumFieldFindings m f ↔
      ∃ e, s.enum? f.typeName = some e ∧ f.defaultValue = .text value ∧ value ∉ e.values.items ∧
        model = m ∧ field = f.name ∧ enumName = e.name := by
  constructor
  · intro h
    unfold enumFieldFindings at h
    split at h
    · simp at h
    · next e he =>
      split at h
      · next v hdefault =>
        split at h
        · cases h
        · next hv =>
          cases List.mem_singleton.mp h
          exact ⟨e, he, hdefault, by simpa using hv, rfl, rfl, rfl⟩
      · cases h
  · rintro ⟨e, he, hdefault, hv, rfl, rfl, rfl⟩
    simp [enumFieldFindings, he, hdefault, hv]

theorem invalidEnumDefault_mem_findingsOf {model field enumName value : String} :
    .invalidEnumDefault model field enumName value ∈ s.findingsOf .enums ↔
      ∃ m ∈ s.models.items, ∃ f ∈ m.fields.items, f.kind = .enum ∧
        .invalidEnumDefault model field enumName value ∈ s.enumFieldFindings m.name f := by
  simp only [findingsOf, enumFindings, List.mem_append, List.mem_map, List.mem_flatMap,
    List.mem_filter, beq_iff_eq, and_assoc, reduceCtorEq, and_false, exists_false, false_or]

/-- A doubt is a finding on the field with the names that the report gives. -/
theorem doubtsDefault_iff {model field : String} :
    (s.reportOf .enums).DoubtsDefault model field ↔ ∃ enumName value,
      .invalidEnumDefault model field enumName value ∈ s.findingsOf .enums := by
  constructor
  · rintro ⟨i, hi, hcode, hmodel, hfield⟩
    obtain ⟨x, hx, rfl⟩ := List.mem_map.mp hi
    obtain ⟨m, f, enumName, value, rfl⟩ := Finding.code_eq_invalidEnumDefault.mp hcode
    have hm : model = m := by simpa [Finding.issue, Finding.context, Finding.onField] using hmodel
    have hf : field = f := by simpa [Finding.issue, Finding.context, Finding.onField] using hfield
    rw [hm, hf]
    exact ⟨enumName, value, hx⟩
  · rintro ⟨enumName, value, hx⟩
    refine ⟨_, List.mem_map_of_mem hx, rfl, ?_, ?_⟩
    · simp [Finding.issue, Finding.context, Finding.onField]
    · simp [Finding.issue, Finding.context, Finding.onField]

/-- Models, fields and enums are known by their names, so the doubt is about the default of this field
and the values of this enum. -/
theorem doubtsDefault_iff_of_enum (hs : s.WellFormed) {m : Model} (hm : m ∈ s.models.items) {f : Field}
    (hf : f ∈ m.fields.items) (hkind : f.kind = .enum) {e : EnumType} (he : e ∈ s.enums.items)
    (hname : e.name = f.typeName) :
    (s.reportOf .enums).DoubtsDefault m.name f.name ↔
      ∃ value, f.defaultValue = .text value ∧ value ∉ e.values.items := by
  have hfound : s.enum? f.typeName = some e := (enum?_eq_some_iff hs _ e).mpr ⟨he, hname⟩
  simp only [doubtsDefault_iff, invalidEnumDefault_mem_findingsOf,
    invalidEnumDefault_mem_enumFieldFindings]
  constructor
  · rintro ⟨enumName, value, m', hm', f', hf', -, e', he', hdefault, hvalue, hmodel, hfield, -⟩
    cases model_eq_of_name_eq hs hm hm' hmodel
    cases List.inj_on_of_nodup_map (hs.models m hm).fieldNames_nodup hf hf' hfield
    cases hfound.symm.trans he'
    exact ⟨value, hdefault, hvalue⟩
  · rintro ⟨value, hdefault, hvalue⟩
    exact ⟨e.name, value, m, hm, f, hf, hkind, e, hfound, hdefault, hvalue, rfl, rfl, rfl⟩

end Schema

/-- In a compiled schema, the default of a field of a declared enum is doubted just if it is a single text
and names something else than a value of the enum; a default that is a list is never doubted, whatever it
names. -/
theorem Compiled.enum_default_doubted_iff {document : Value} {options : Option Options.Settings}
    {overrides : Options.Settings} {c : Compiled}
    (h : (compileWith document options overrides).result = .ok c) :
    ∀ m ∈ c.schema.models.items, ∀ f ∈ m.fields.items, f.kind = .enum →
      ∀ e ∈ c.schema.enums.items, e.name = f.typeName →
      ∀ values, f.defaultValue.namedValues? = some values →
        ((c.schema.reportOf .enums).DoubtsDefault m.name f.name ↔
          f.defaultValue.text?.isSome = true ∧ ∃ value ∈ values, value ∉ e.values.items) := by
  intro m hm f hf hkind e he hname values hvalues
  rw [Schema.doubtsDefault_iff_of_enum (Compiled.wellFormed h) hm hf hkind he hname]
  cases hdefault : f.defaultValue with
  | text value =>
    have hsingle : values = [value] := by simpa [hdefault, Value.namedValues?, eq_comm] using hvalues
    simp [hsingle, Value.text?]
  | _ => simp [Value.text?]

/-! Accounts with a role of their own and a list of granted roles, both with a default that is no role. -/

def accounts : Value :=
  Declaration.document [
    Declaration.model "Account" [
      Declaration.field "id" "Int" "scalar" [("isId", .bool true)],
      Declaration.field "role" "Role" "enum" [("hasDefaultValue", .bool true),
        ("default", .text "ROOT")],
      Declaration.field "granted" "Role" "enum" [("isList", .bool true),
        ("hasDefaultValue", .bool true), ("default", .seq false [.text "USER", .text "ROOT"])]] []]
    [Declaration.enum "Role" ["USER", "EDITOR"]]

theorem Compiled.enum_default_doubted_iff_accounts :
    ∃ c, (compileWith accounts none []).result = .ok c ∧ ∃ m ∈ c.schema.models.items,
      (∃ f ∈ m.fields.items, f.defaultValue.namedValues? = some ["ROOT"] ∧
        (c.schema.reportOf .enums).DoubtsDefault m.name f.name) ∧
      ∃ f ∈ m.fields.items, f.defaultValue.namedValues? = some ["USER", "ROOT"] ∧
        ¬ (c.schema.reportOf .enums).DoubtsDefault m.name f.name := by
  obtain ⟨c, hc, hs⟩ := exists_compiled (rfl : accounts.dataModel? = some accounts)
  have hdata : ∃ m ∈ c.schema.models.items, ∃ e ∈ c.schema.enums.items, "ROOT" ∉ e.values.items ∧
      (∃ f ∈ m.fields.items, f.kind = .enum ∧ e.name = f.typeName ∧
        f.defaultValue.namedValues? = some ["ROOT"] ∧ f.defaultValue.text?.isSome = true) ∧
      ∃ f ∈ m.fields.items, f.kind = .enum ∧ e.name = f.typeName ∧
        f.defaultValue.namedValues? = some ["USER", "ROOT"] ∧
        f.defaultValue.text?.isSome = false := by
    rw [hs]
    decide +kernel
  obtain ⟨m, hm, e, he, hroot, ⟨role, hrole, hkind, htype, hvalue, hsingle⟩,
    granted, hgranted, hkind', htype', hvalues, hlist⟩ := hdata
  have hdoubted := Compiled.enum_default_doubted_iff hc m hm
  refine ⟨c, hc, m, hm, ⟨role, hrole, hvalue, ?_⟩, granted, hgranted, hvalues, ?_⟩
  · rw [hdoubted role hrole hkind e he htype _ hvalue]
    exact ⟨hsingle, "ROOT", List.mem_singleton_self _, hroot⟩
  · rw [hdoubted granted hgranted hkind' e he htype' _ hvalues, hlist]
    exact fun h => Bool.noConfusion h.1

/-- It is not so that the default of a field of a declared enum is doubted just if it names something else
than a value of the enum. -/
theorem Compiled.enum_lists_may_name_anything :
    ¬ ∀ (document : Value) (options : Option Options.Settings) (overrides : Options.Settings)
      (c : Compiled), (compileWith document options overrides).result = .ok c →
      ∀ m ∈ c.schema.models.items, ∀ f ∈ m.fields.items, f.kind = .enum →
        ∀ e ∈ c.schema.enums.items, e.name = f.typeName →
        ∀ values, f.defaultValue.namedValues? = some values →
          ((c.schema.reportOf .enums).DoubtsDefault m.name f.name ↔
            ∃ value ∈ values, value ∉ e.values.items) := by
  intro hdoubted
  obtain ⟨c, hc, hs⟩ := exists_compiled (rfl : accounts.dataModel? = some accounts)
  have hdata : ∃ m ∈ c.schema.models.items, ∃ e ∈ c.schema.enums.items, "ROOT" ∉ e.values.items ∧
      ∃ f ∈ m.fields.items, f.kind = .enum ∧ e.name = f.typeName ∧
        f.defaultValue.namedValues? = some ["USER", "ROOT"] ∧
        f.defaultValue.text?.isSome = false := by
    rw [hs]
    decide +kernel
  obtain ⟨m, hm, e, he, hroot, f, hf, hkind, htype, hvalues, hlist⟩ := hdata
  have hreported := (hdoubted accounts none [] c hc m hm f hf hkind e he htype _ hvalues).mpr
    ⟨"ROOT", by simp, hroot⟩
  obtain ⟨value, hdefault, -⟩ :=
    (Schema.doubtsDefault_iff_of_enum (Compiled.wellFormed hc) hm hf hkind he htype).mp hreported
  rw [hdefault] at hlist
  cases hlist

end EntitySchema
