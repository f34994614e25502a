import EntitySchema.Validation.Check

/-!
# Findings and their checks

Every finding comes from one check alone, so whether a report of all checks holds a finding can be
seen from that check, and whether it holds an issue of some code can be seen from the findings that
have the code.
-/

set_option autoImplicit false

namespace EntitySchema

namespace Finding

def check : Finding → Check
  | selfRelation .. => .selfRelations
  | requiredSelfRelation .. => .selfRelations
  | circularRelation .. => .circularDependencies
  | modelNameCollision .. => .namingCollisions
  | enumModelNameCollision .. => .namingCollisions
  | fieldNameCollision .. => .namingCollisions
  | missingPrimaryKey .. => .keys
  | multipleIdFields .. => .keys
  | keyFieldNotFound .. => .keys
  | duplicateKeyField .. => .keys
  | emptyUniqueConstraint .. => .keys
  | unknownRelationTarget .. => .relations
  | missingToFields .. => .relations
  | fieldCountMismatch .. => .relations
  | localFieldNotFound .. => .relations
  | referencedFieldNotFound .. => .relations
  | emptyEnum .. => .enums
  | unknownEnum .. => .enums
  | invalidEnumDefault .. => .enums
  | unsupportedFieldKind .. => .fieldKinds
  | unknownDefaultFunction .. => .defaultFunctions

theorem code_eq_circularRelation {f : Finding} :
    f.code = "CIRCULAR_RELATION" ↔ ∃ cycle, f = .circularRelation cycle := by
  cases f with
  | keyFieldNotFound kind => cases kind <;> simp [code]
  | _ => simp [code]

theorem code_eq_requiredSelfRelation {f : Finding} :
    f.code = "REQUIRED_SELF_RELATION" ↔ ∃ model field, f = .requiredSelfRelation model field := by
  cases f with
  | keyFieldNotFound kind => cases kind <;> simp [code]
  | _ => simp [code]

theorem code_eq_unknownRelationTarget {f : Finding} : f.code = "UNKNOWN_RELATION_TARGET" ↔
    ∃ model field target, f = .unknownRelationTarget model field target := by
  cases f with
  | keyFieldNotFound kind => cases kind <;> simp [code]
  | _ => simp [code]

theorem code_eq_invalidEnumDefault {f : Finding} : f.code = "INVALID_ENUM_DEFAULT" ↔
    ∃ model field enumName value, f = .invalidEnumDefault model field enumName value := by
  cases f with
  | keyFieldNotFound kind => cases kind <;> simp [code]
  | _ => simp [code]

theorem code_eq_modelNameCollision {f : Finding} : f.code = "MODEL_NAME_COLLISION" ↔
    ∃ first second form derived, f = .modelNameCollision first second form derived := by
  cases f with
  | keyFieldNotFound kind => cases kind <;> simp [code]
  | _ => simp [code]

theorem code_eq_fieldNameCollision {f : Finding} : f.code = "FIELD_NAME_COLLISION" ↔
    ∃ model first second form derived, f = .fieldNameCollision model first second form derived := by
  cases f with
  | keyFieldNotFound kind => cases kind <;> simp [code]
  | _ => simp [code]

end Finding

theorem Field.check_of_mem_selfRelationFindings {model : String} {f : Field} {x : Finding}
    (h : x ∈ f.selfRelationFindings model) : x.check = .selfRelations := by
  unfold selfRelationFindings at h
  split at h
  · rcases List.mem_cons.mp h with rfl | h
    · rfl
    · split at h
      · rw [List.mem_singleton.mp h]; rfl
      · cases h
  · cases h

theorem Model.check_of_mem_keyListFindings {m : Model} {kind : KeyKind} {names : List String}
    {x : Finding} (h : x ∈ m.keyListFindings kind names) : x.check = .keys := by
  rcases List.mem_append.mp h with h | h
  · obtain ⟨n, -, rfl⟩ := List.mem_map.mp h
    rfl
  · obtain ⟨n, -, rfl⟩ := List.mem_map.mp h
    rfl

theorem Model.check_of_mem_keyFindings {m : Model} {x : Finding} (h : x ∈ m.keyFindings) :
    x.check = .keys := by
  simp only [keyFindings, List.mem_append, List.mem_flatMap] at h
  rcases h with ((h | h) | h) | ⟨group, -, h⟩
  · split at h
    · rw [List.mem_singleton.mp h]; rfl
    · cases h
  · split at h
    · rw [List.mem_singleton.mp h]; rfl
    · cases h
  · split at h
    · exact check_of_mem_keyListFindings h
    · cases h
  · unfold uniqueFindings at h
    split at h
    · rw [List.mem_singleton.mp h]; rfl
    · exact check_of_mem_keyListFindings h

theorem Field.check_of_mem_keyCountFindings {model : String} {f : Field} {x : Finding}
    (h : x ∈ f.keyCountFindings model) : x.check = .relations := by
  unfold keyCountFindings at h
  split at h
  · rw [List.mem_singleton.mp h]; rfl
  · split at h
    · rw [List.mem_singleton.mp h]; rfl
    · cases h

namespace Schema

theorem check_of_mem_relationFindings {s : Schema} {m : Model} {f : Field} {x : Finding}
    (h : x ∈ s.relationFindings m f) : x.check = .relations := by
  simp only [relationFindings, List.mem_append] at h
  rcases h with ((h | h) | h) | h
  · split at h
    · rw [List.mem_singleton.mp h]; rfl
    · cases h
  · exact Field.check_of_mem_keyCountFindings h
  · obtain ⟨n, -, rfl⟩ := List.mem_map.mp h
    rfl
  · split at h
    · obtain ⟨n, -, rfl⟩ := List.mem_map.mp h
      rfl
    · cases h

theorem check_of_mem_enumFieldFindings {s : Schema} {model : String} {f : Field} {x : Finding}
    (h : x ∈ s.enumFieldFindings model f) : x.check = .enums := by
  unfold enumFieldFindings at h
  split at h
  · rw [List.mem_singleton.mp h]; rfl
  · split at h
    · split at h
      · cases h
      · rw [List.mem_singleton.mp h]; rfl
    · cases h

theorem check_of_mem_collisionFindings {s : Schema} {x : Finding}
    (h : x ∈ s.collisionFindings) : x.check = .namingCollisions := by
  simp only [collisionFindings, modelCollisionFindings, enumCollisionFindings,
    fieldCollisionFindings, List.mem_append, List.mem_map, List.mem_filterMap, List.mem_flatMap,
    Option.map_eq_some_iff] at h
  rcases h with (⟨c, -, rfl⟩ | ⟨e, -, m, -, rfl⟩) | ⟨m, -, c, -, rfl⟩ <;> rfl

theorem check_of_mem_findingsOf {s : Schema} {c : Check} {x : Finding}
    (h : x ∈ s.findingsOf c) : x.check = c := by
  cases c with
  | selfRelations =>
    simp only [findingsOf, selfRelationFindings, List.mem_flatMap] at h
    obtain ⟨m, -, f, -, hx⟩ := h
    exact Field.check_of_mem_selfRelationFindings hx
  | circularDependencies =>
    obtain ⟨cycle, -, rfl⟩ := List.mem_map.mp h
    rfl
  | namingCollisions => exact check_of_mem_collisionFindings h
  | keys =>
    obtain ⟨m, -, hx⟩ := List.mem_flatMap.mp h
    exact Model.check_of_mem_keyFindings hx
  | relations =>
    simp only [findingsOf, targetFindings, List.mem_flatMap] at h
    obtain ⟨m, -, f, -, hx⟩ := h
    exact check_of_mem_relationFindings hx
  | enums =>
    simp only [findingsOf, enumFindings, List.mem_append, List.mem_map, List.mem_flatMap] at h
    rcases h with ⟨e, -, rfl⟩ | ⟨m, -, f, -, hx⟩
    · rfl
    · exact check_of_mem_enumFieldFindings hx
  | fieldKinds =>
    simp only [findingsOf, kindFindings, List.mem_flatMap, List.mem_map] at h
    obtain ⟨m, -, f, -, rfl⟩ := h
    rfl
  | defaultFunctions =>
    simp only [findingsOf, functionFindings, List.mem_flatMap, List.mem_filterMap,
      Option.map_eq_some_iff] at h
    obtain ⟨m, -, f, -, name, -, rfl⟩ := h
    rfl

theorem mem_findings_iff {s : Schema} {x : Finding} :
    x ∈ s.findings ↔ x ∈ s.findingsOf x.check := by
  rw [mem_findings]
  constructor
  · rintro ⟨c, h⟩
    exact check_of_mem_findingsOf h ▸ h
  · exact fun h => ⟨_, h⟩

theorem mem_issues_validate {s : Schema} {i : Issue} :
    i ∈ s.validate.issues ↔ ∃ x ∈ s.findings, x.issue = i := List.mem_map

/-- The codes of a report are those of its findings. -/
theorem forall_code_ne_iff (s : Schema) (code : String) :
    (∀ i ∈ s.validate.issues, i.code ≠ code) ↔ ∀ x : Finding, x.code = code → x ∉ s.findings := by
  constructor
  · exact fun h x hx hmem => h x.issue (mem_issues_validate.mpr ⟨x, hmem, rfl⟩) hx
  · intro h i hi hcode
    obtain ⟨x, hx, rfl⟩ := mem_issues_validate.mp hi
    exact h x hcode hx

end Schema

end EntitySchema
