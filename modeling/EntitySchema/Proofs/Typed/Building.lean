import EntitySchema.Proofs.Typed.Taking

/-!
# Building typed records

A record is built anew from typed attributes: none of them is missing, wrong or unknown, and what the
record holds for itself can be made of them.
-/

set_option autoImplicit false

namespace EntitySchema.Live

variable {s t : Store} {kind : RecordKind} {attributes : List (String × Cell)}

theorem TypedAttributes.map_fst (h : TypedAttributes kind s attributes) :
    attributes.map (·.1) = (declared kind).map (·.1) := by
  unfold TypedAttributes at h
  generalize declared kind = types at h
  induction h with
  | nil => rfl
  | cons hd _ ih => rw [List.map_cons, List.map_cons, ih, hd.1]

/-- No kind of record declares an attribute twice. -/
theorem lookup_declared {d : String × AttributeType} (h : d ∈ declared kind) :
    (declared kind).lookup d.1 = some d.2 := by
  revert d
  cases kind <;> simp [declared, List.lookup_cons]

/-- No attribute is unknown. -/
theorem TypedAttributes.known (h : TypedAttributes kind s attributes) :
    (attributes.map (·.1)).filter (fun name => ((declared kind).lookup name).isNone) = [] := by
  rw [h.map_fst, List.filter_eq_nil_iff]
  intro name hname hunknown
  obtain ⟨d, hd, rfl⟩ := List.mem_map.mp hname
  have hmissing := List.lookup_eq_none_iff.mp (Option.isNone_iff_eq_none.mp hunknown) d hd
  simp at hmissing

def IsTaken (s : Store) (d : String × AttributeType) (outcome : String × Option Taken) : Prop :=
  ∃ taken, outcome = (d.1, some taken) ∧ d.2.Admits s taken.cell

theorem lasts_isTaken (d : String × AttributeType) : Lasts fun t outcome => IsTaken t d outcome :=
  fun _ _ _ hst ⟨taken, houtcome, hcell⟩ => ⟨taken, houtcome, d.2.lasts_admits hst hcell⟩

section Outcomes

variable {types : List (String × AttributeType)} {outcomes : List (String × Option Taken)}
  (h : List.Forall₂ (IsTaken s) types outcomes)
include h

theorem filter_isNone_of_isTaken : outcomes.filter (·.2.isNone) = [] := by
  rw [List.filter_eq_nil_iff]
  intro o ho
  obtain ⟨_, -, taken, rfl, -⟩ := exists_left_of_forall₂ h ho
  simp

theorem typed_filterMap_of_isTaken :
    List.Forall₂ (fun (d : String × AttributeType) a => d.1 = a.1 ∧ d.2.Admits s a.2) types
      (outcomes.filterMap fun o => o.2.map fun k => (o.1, k.cell)) := by
  induction h with
  | nil => exact .nil
  | cons ho _ ih =>
    obtain ⟨taken, rfl, hcell⟩ := ho
    exact .cons ⟨rfl, hcell⟩ ih

end Outcomes

/-! The lookup of a model. -/

theorem run_keyOf_leaf (v : Value) : (keyOf (.leaf v)).run s = .ok (v, s) := rfl

theorem gains_fieldName (hs : s.Typed) {f : Cell} (h : f.IsRecordOf .field s) :
    Gains s (do return (← keyOf (← stored f "name"), f)) fun _ _ => True := by
  obtain ⟨id, held, inner, rfl, ho⟩ := h
  obtain ⟨c, hc, text, rfl, -⟩ := TypedAttributes.exists_lookup (hs id _ ho)
    (rfl : (declared .field).lookup "name" = some .name)
  refine Gains.bind_read (run_stored ho hc) ?_
  refine Gains.bind_read (run_keyOf_leaf _) ?_
  exact gains_pure trivial

theorem gains_fieldLookup (hs : s.Typed) {fields : Cell}
    (h : fields.IsSeqOf (Cell.IsRecordOf .field) s) :
    Gains s (fieldLookup fields) fun _ _ => True := by
  obtain ⟨id, frozen, items, rfl, ho, hitems⟩ := h
  refine Gains.bind_read (run_elements ho) ?_
  refine (gains_mapM_all (Q := fun _ _ => True) (lasts_of_const _) fun f hf t hst =>
    gains_fieldName (hst.typed hs) (lasts_isRecordOf _ hst.extended (hitems f hf))).bind
      fun entries t _ _ => ?_
  exact gains_allocRef (fun _ => trivial) fun _ _ _ _ => trivial

theorem gains_innerOf (hs : s.Typed) (h : TypedAttributes kind s attributes) :
    Gains s (innerOf kind attributes) fun _ _ => True := by
  unfold innerOf
  split
  · next fields hfields =>
    obtain ⟨c, hc, hadmits⟩ := h.exists_lookup
      (rfl : (declared .model).lookup "fields" = some (.records .field))
    cases hc.symm.trans hfields
    exact (gains_fieldLookup hs hadmits).bind fun byName t _ _ => gains_pure trivial
  · exact gains_pure trivial

/-- A new record is built of typed attributes, and all that is added to the store is typed. -/
theorem gains_build (hs : s.Typed) (h : TypedAttributes kind s attributes) :
    Gains s (build takeFor kind attributes) fun t result =>
      ∃ taken, result = .ok taken ∧ taken.cell.IsRecordOf kind t := by
  unfold build
  refine (gains_mapM lasts_isTaken ?taken).bind fun outcomes t hst hall => ?rest
  case taken =>
    rintro ⟨name, type⟩ hd t hst
    have hdeclared := lookup_declared hd
    obtain ⟨c, hc, hadmits⟩ := h.exists_lookup hdeclared
    dsimp only
    rw [hc]
    refine (takes_takeFor (type.lasts_admits hst.extended hadmits)).bind fun result u _ hresult => ?_
    obtain ⟨taken, rfl, hcell⟩ := hresult
    exact gains_pure ⟨taken, rfl, hcell⟩
  case rest =>
    dsimp only
    rw [filter_isNone_of_isTaken hall, h.known]
    have ht := hst.typed hs
    have hattributes : TypedAttributes kind t _ := typed_filterMap_of_isTaken hall
    refine (gains_innerOf ht hattributes).bind fun inner u htu _ => ?_
    have hrecord : Object.Typed u (.record kind _ inner) := hattributes.mono htu.extended
    have hstored : Gains u (allocRef (.record kind _ inner)) (Cell.IsRecordOf kind) :=
      gains_allocRef (fun _ => hrecord) fun v id _ hid => ⟨id, _, inner, rfl, hid⟩
    exact hstored.bind fun c v _ hc => gains_pure ⟨_, rfl, hc⟩

end EntitySchema.Live
