import EntitySchema.Proofs.InsertionOrder
import EntitySchema.Proofs.ReferentialSoundness

/-!
# Validity

Whether the report of all checks holds an error, said without the checks: the models can be filled one
after the other, and all references resolve. The other checks give warnings and notes only.
-/

set_option autoImplicit false

namespace EntitySchema

/-- The findings that are errors come from the two insertion checks and the three reference checks. -/
theorem Finding.of_isError {x : Finding} (h : x.isError = true) :
    x.code = "REQUIRED_SELF_RELATION" ∨ x.code = "CIRCULAR_RELATION" ∨
      x.check = .keys ∨ x.check = .relations ∨ x.check = .enums := by
  cases x <;> simp_all [isError, level, code, check]

namespace Schema

theorem InsertionOrder.not_dependsOn {s : Schema} {order : List Model} (h : s.InsertionOrder order) :
    ∀ m ∈ s.models.items, ¬ m.DependsOn m := by
  intro m hm hself
  obtain ⟨i, hi, rfl⟩ := List.getElem_of_mem (h.1.mem_iff.mpr hm)
  exact lt_irrefl i (h.2 i i hi hi hself)

theorem exists_insertionOrder_iff {s : Schema} (hs : s.WellFormed) :
    (∃ order, s.InsertionOrder order) ↔
      Cycle.find s.successors s.modelNames = [] ∧ ∀ m ∈ s.models.items, ¬ m.DependsOn m := by
  constructor
  · rintro ⟨order, h⟩
    exact ⟨find_eq_nil_of_insertionOrder hs h, h.not_dependsOn⟩
  · exact fun h => exists_insertionOrder hs h.1 h.2

theorem referentiallySound_iff {s : Schema} (hs : s.WellFormed) :
    s.ReferentiallySound ↔ Finding.Harmless (s.findingsOf .keys) ∧
      Finding.Harmless (s.findingsOf .relations) ∧ Finding.Harmless (s.findingsOf .enums) := by
  rw [← hasErrors_eq_false_iff hs, Report.hasErrors_merge, Report.hasErrors_merge,
    Bool.or_eq_false_iff, Bool.or_eq_false_iff, hasErrors_reportOf, hasErrors_reportOf,
    hasErrors_reportOf, and_assoc]

/-- Without errors no finding has a code that belongs to errors only. -/
theorem code_ne_of_harmless {s : Schema} (h : Finding.Harmless s.findings) {code : String}
    (hcode : ∀ x : Finding, x.code = code → x.isError = true) :
    ∀ i ∈ s.validate.issues, i.code ≠ code := by
  refine (forall_code_ne_iff s code).mpr fun x hx hmem => ?_
  have herror := hcode x hx
  rw [h x hmem] at herror
  cases herror

theorem harmless_findings_iff {s : Schema} (hs : s.WellFormed) :
    Finding.Harmless s.findings ↔ (∃ order, s.InsertionOrder order) ∧ s.ReferentiallySound := by
  rw [exists_insertionOrder_iff hs, referentiallySound_iff hs]
  constructor
  · intro h
    have hcheck : ∀ c, Finding.Harmless (s.findingsOf c) :=
      fun c x hx => h x (mem_findings.mpr ⟨c, hx⟩)
    refine ⟨⟨?_, ?_⟩, hcheck .keys, hcheck .relations, hcheck .enums⟩
    · refine (no_circularRelation_iff s).mp (code_ne_of_harmless h fun x hx => ?_)
      obtain ⟨cycle, rfl⟩ := Finding.code_eq_circularRelation.mp hx
      rfl
    · refine (no_requiredSelfRelation_iff hs).mp (code_ne_of_harmless h fun x hx => ?_)
      obtain ⟨model, field, rfl⟩ := Finding.code_eq_requiredSelfRelation.mp hx
      rfl
  · rintro ⟨⟨hcircular, hself⟩, hkeys, hrelations, henums⟩ x hx
    by_contra herror
    have hfound := mem_findings_iff.mp hx
    rcases Finding.of_isError (Bool.not_eq_false _ ▸ herror) with h | h | h | h | h
    · exact (forall_code_ne_iff s _).mp ((no_requiredSelfRelation_iff hs).mpr hself) x h hx
    · exact (forall_code_ne_iff s _).mp ((no_circularRelation_iff s).mpr hcircular) x h hx
    · exact herror (hkeys x (h ▸ hfound))
    · exact herror (hrelations x (h ▸ hfound))
    · exact herror (henums x (h ▸ hfound))

theorem isValid_iff {s : Schema} (hs : s.WellFormed) :
    s.validate.isValid = true ↔ (∃ order, s.InsertionOrder order) ∧ s.ReferentiallySound := by
  rw [← harmless_findings_iff hs, Report.isValid, Bool.not_eq_true', Report.hasErrors, validate,
    List.any_map, List.any_eq_false]
  simp only [Function.comp_apply, Finding.isError_issue, Bool.not_eq_true]
  rfl

end Schema

end EntitySchema
