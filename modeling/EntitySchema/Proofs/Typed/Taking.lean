import EntitySchema.Proofs.Typed.Attribute

/-!
# Taking what is admitted

An attribute takes every cell that its type admits, and what it keeps of the cell is admitted again. So
a record whose attributes are typed can be built anew from them, in the store that holds them and in any
store that has grown from it by typed objects.
-/

set_option autoImplicit false

namespace EntitySchema.Live

variable {α : Type} {s t : Store}

def Takes (s : Store) (P : Store → Cell → Prop) (m : Edit (Option Taken)) : Prop :=
  Gains s m fun t result => ∃ taken, result = some taken ∧ P t taken.cell

theorem takes_some {P : Store → Cell → Prop} {taken : Taken} (h : P s taken.cell) :
    Takes s P (pure (some taken)) := gains_pure ⟨taken, rfl, h⟩

/-! Scalars. -/

theorem takes_takeText {accepts : String → Bool} {text : String} (h : accepts text = true) :
    Takes s (fun _ c => c = .leaf (.text text)) (takeText accepts (.leaf (.text text))) := by
  have htaken : takeText accepts (.leaf (.text text)) = pure (some ⟨.leaf (.text text), true⟩) := by
    simp [takeText, takeScalar, Value.looseText?, Value.isText, Option.filter, h]
  rw [htaken]
  exact takes_some rfl

theorem takes_takeText_of_isName {c : Cell} (h : c.IsName) :
    Takes s (fun _ c => c.IsName) (takeText (!·.isEmpty) c) := by
  obtain ⟨text, rfl, hne⟩ := h
  have haccepted : (!text.isEmpty) = true := by simpa using hne
  exact (takes_takeText haccepted).imp fun _ _ _ ⟨taken, hresult, hcell⟩ =>
    ⟨taken, hresult, text, hcell, hne⟩

theorem takes_takeText_of_isText {c : Cell} (h : c.IsText) :
    Takes s (fun _ c => c.IsText) (takeText (fun _ => true) c) := by
  obtain ⟨text, rfl⟩ := h
  have htaken : Takes s _ (takeText (fun _ => true) (.leaf (.text text))) := takes_takeText rfl
  exact htaken.imp fun _ _ _ ⟨taken, hresult, hcell⟩ => ⟨taken, hresult, text, hcell⟩

theorem takes_takeFlag (b : Bool) : Takes s (fun _ c => ∃ b, c = flag b) (takeFlag (flag b)) :=
  takes_some ⟨b, rfl⟩

theorem takes_takeKind (kind : FieldKind) :
    Takes s (fun _ c => ∃ kind : FieldKind, c = .leaf (.text kind.word))
      (takeKind (.leaf (.text kind.word))) := by
  have htaken : takeKind (.leaf (.text kind.word)) =
      pure (some ⟨.leaf (.text kind.word), false⟩) := by
    simp [takeKind, takeScalar, Field.looseKind?, Value.looseText?, FieldKind.ofWord?_word]
  rw [htaken]
  exact takes_some ⟨kind, rfl⟩

theorem takes_takeOptional {take : Cell → Edit (Option Taken)} {P : Store → Cell → Prop} {c : Cell}
    (h : c.IsOptional P s) (htake : P s c → Takes s P (take c)) :
    Takes s (Cell.IsOptional P) (takeOptional take c) := by
  unfold takeOptional
  split
  · next hnull =>
    have hcell : c = .leaf .null := by
      unfold isNull at hnull
      split at hnull
      · rfl
      · cases hnull
    exact takes_some (.inl hcell)
  · next hnull =>
    rcases h with rfl | h
    · exact absurd rfl hnull
    · exact (htake h).imp fun _ _ _ ⟨taken, hresult, hcell⟩ => ⟨taken, hresult, .inr hcell⟩

/-- An empty name of a key counts as none, any other is kept. -/
theorem takes_keyName {c : Cell} (h : c.IsName) : Takes s (fun _ => Cell.IsName) (do
    match ← takeText (fun _ => true) c with
    | some taken => return some (if isText taken.cell "" then ⟨.leaf .null, taken.exact⟩ else taken)
    | none => return none) := by
  obtain ⟨text, rfl, hne⟩ := h
  have htext : Takes s _ (takeText (fun _ => true) (.leaf (.text text))) := takes_takeText rfl
  refine htext.bind fun result t _ htaken => ?_
  obtain ⟨⟨c, exact⟩, rfl, rfl⟩ := htaken
  have hkept : isText (.leaf (.text text)) "" = false := by simpa [isText] using hne
  dsimp only
  rw [hkept]
  exact takes_some ⟨text, rfl, hne⟩

/-! Sequences. -/

theorem run_sequenceOf? {id : Id} {frozen : Bool} {items : List Cell}
    (h : s.objects[id]? = some (.seq frozen items)) :
    (sequenceOf? (.ref id)).run s = .ok (some (frozen, true, items), s) :=
  run_bind_eq_ok.mpr ⟨_, s, run_objectOf? h, rfl⟩

/-- A sequence is taken if its elements are. -/
theorem takes_takeSeq {take : Cell → Edit (Option Taken)} {P : Store → Cell → Prop} {c : Cell}
    (hlasts : Lasts P) (h : c.IsSeqOf P s) (htake : ∀ t item, P t item → Takes t P (take item)) :
    Takes s (Cell.IsSeqOf P) (takeSeq take c) := by
  obtain ⟨number, frozen, items, rfl, ho, hitems⟩ := h
  refine Gains.bind_read (run_sequenceOf? ho) ?_
  have hlasts' : Lasts fun t result => ∃ taken : Taken, result = some taken ∧ P t taken.cell :=
    fun _ _ _ hst ⟨taken, hresult, hcell⟩ => ⟨taken, hresult, hlasts hst hcell⟩
  refine (gains_mapM_all hlasts' fun item hitem t hst =>
    htake t item (hlasts hst.extended (hitems item hitem))).bind fun results t _ hall => ?_
  have hsome : results.all (·.isSome) = true := by
    refine List.all_eq_true.mpr fun result hresult => ?_
    obtain ⟨taken, rfl, -⟩ := hall result hresult
    rfl
  have hcells : ∀ taken ∈ results.filterMap id, P t taken.cell := by
    intro taken htaken
    obtain ⟨result, hresult, rfl⟩ := List.mem_filterMap.mp htaken
    obtain ⟨held, hheld, hcell⟩ := hall _ hresult
    cases hheld
    exact hcell
  dsimp only
  rw [if_pos hsome]
  refine (gains_allocSeq hlasts (List.forall_mem_map.mpr hcells)).bind fun c u _ hc => ?_
  exact takes_some hc

theorem takes_takeItems {c : Cell} (h : c.IsSeq s) : Takes s Cell.IsSeq (takeItems c) :=
  takes_takeSeq (lasts_of_const _) h fun _ _ _ => takes_some trivial

theorem takes_takeNames {c : Cell} (h : c.IsTexts s) : Takes s Cell.IsTexts (takeNames c) :=
  takes_takeSeq (lasts_of_const _) h fun _ _ => takes_takeText_of_isText

/-! Groups of names. -/

theorem run_isOpenSeq {id : Id} {frozen : Bool} {items : List Cell}
    (h : s.objects[id]? = some (.seq frozen items)) :
    (isOpenSeq (.ref id)).run s = .ok (!frozen, s) :=
  run_bind_eq_ok.mpr ⟨_, s, run_objectOf? h, rfl⟩

theorem run_elements {id : Id} {frozen : Bool} {items : List Cell}
    (h : s.objects[id]? = some (.seq frozen items)) :
    (elements (.ref id)).run s = .ok (items, s) :=
  run_bind_eq_ok.mpr ⟨_, s, run_fetch h, rfl⟩

theorem gains_isOpenSeq {c : Cell} (h : c.IsTexts s) : Gains s (isOpenSeq c) fun _ _ => True := by
  obtain ⟨number, frozen, items, rfl, ho, -⟩ := h
  exact ⟨_, s, run_isOpenSeq ho, .refl s, trivial⟩

theorem gains_freezeSeq {c : Cell} (h : c.IsTexts s) : Gains s (freezeSeq c) Cell.IsTexts := by
  obtain ⟨number, frozen, items, rfl, ho, hitems⟩ := h
  refine Gains.bind_read (run_objectOf? ho) ?_
  exact gains_allocSeq (lasts_of_const _) hitems

/-- The copy with frozen groups, whichever way it comes about. -/
theorem takes_frozenGroups {groups : List Cell} (h : ∀ c ∈ groups, c.IsTexts s) (exact : Bool) :
    Takes s (Cell.IsSeqOf Cell.IsTexts) (do
      return some ⟨← allocRef (.seq true (← groups.mapM freezeSeq)), exact⟩) := by
  refine (gains_mapM_all lasts_isTexts fun group hgroup t hst =>
    gains_freezeSeq (lasts_isTexts hst.extended (h group hgroup))).bind fun copies t _ hcopies => ?_
  refine (gains_allocSeq lasts_isTexts hcopies).bind fun c u _ hc => ?_
  exact takes_some hc

theorem takes_takeGroups {c : Cell} (h : c.IsSeqOf Cell.IsTexts s) :
    Takes s (Cell.IsSeqOf Cell.IsTexts) (takeGroups c) := by
  refine (takes_takeSeq lasts_isTexts h fun _ _ => takes_takeNames).bind fun result t _ htaken => ?_
  obtain ⟨⟨c, exact⟩, rfl, number, frozen, groups, rfl, ho, hgroups⟩ := htaken
  refine Gains.bind_read (run_elements ho) ?_
  refine (gains_mapM_all (Q := fun _ _ => True) (lasts_of_const _) fun group hgroup u htu =>
    gains_isOpenSeq (lasts_isTexts htu.extended (hgroups group hgroup))).bind fun areOpen u htu _ => ?_
  have ho' := htu.extended number _ ho
  have hgroups' : ∀ c ∈ groups, c.IsTexts u :=
    fun c hc => lasts_isTexts htu.extended (hgroups c hc)
  refine Gains.bind_read (run_isOpenSeq ho') ?_
  cases frozen with
  | true => exact takes_frozenGroups hgroups' _
  | false =>
    rw [if_pos Bool.not_false]
    split
    · exact takes_some ⟨number, false, groups, rfl, ho', hgroups'⟩
    · exact takes_frozenGroups hgroups' _

/-! Records and defaults. -/

theorem takes_takeRecord {take : AttributeType → Cell → Edit (Option Taken)} {kind : RecordKind}
    {c : Cell} (h : c.IsRecordOf kind s) :
    Takes s (Cell.IsRecordOf kind) (takeRecord take kind c) := by
  obtain ⟨number, attributes, inner, rfl, ho⟩ := h
  refine Gains.bind_read (run_objectOf? ho) ?_
  dsimp only
  rw [if_pos rfl]
  exact takes_some ⟨number, attributes, inner, rfl, ho⟩

theorem takes_takeDefault {take : AttributeType → Cell → Edit (Option Taken)} {c : Cell}
    (h : AttributeType.defaultValue.Admits s c) :
    Takes s AttributeType.defaultValue.Admits (takeDefault take c) := by
  rcases h with ⟨v, rfl, hv⟩ | hseq | ⟨number, attributes, inner, rfl, ho⟩
  · cases v with
    | bytes bs => exact hv.elim
    | seq frozen items => exact hv.elim
    | map views entries => exact hv.elim
    | call frozen name argsFrozen args => exact hv.elim
    | _ => exact takes_some (.inl ⟨_, rfl, hv⟩)
  · have hitems : Takes s Cell.IsSeq (takeItems c) := takes_takeItems hseq
    obtain ⟨number, frozen, items, rfl, ho, -⟩ := hseq
    refine Gains.bind_read (run_fetch ho) ?_
    exact hitems.imp fun _ _ _ ⟨taken, hresult, hcell⟩ => ⟨taken, hresult, .inr (.inl hcell)⟩
  · refine Gains.bind_read (run_fetch ho) ?_
    exact takes_some (.inr (.inr ⟨number, attributes, inner, rfl, ho⟩))

/-- What a type admits is taken, and what is kept of it is admitted. -/
theorem takes_takeFor {type : AttributeType} {c : Cell} (h : type.Admits s c) :
    Takes s type.Admits (takeFor type c) := by
  cases type with
  | name => exact takes_takeText_of_isName h
  | text => exact takes_takeText_of_isText h
  | optionalText => exact takes_takeOptional h takes_takeText_of_isText
  | keyName =>
    rw [takeFor, takeWithin]
    refine takes_takeOptional (P := fun _ => Cell.IsName) h fun hname => ?_
    exact takes_keyName hname
  | flag =>
    obtain ⟨b, rfl⟩ := h
    exact takes_takeFlag b
  | kind =>
    obtain ⟨kind, rfl⟩ := h
    exact takes_takeKind kind
  | defaultValue => exact takes_takeDefault h
  | items => exact takes_takeItems h
  | names => exact takes_takeNames h
  | optionalNames => exact takes_takeOptional h takes_takeNames
  | nameGroups => exact takes_takeGroups h
  | records kind => exact takes_takeSeq (lasts_isRecordOf kind) h fun _ _ => takes_takeRecord
  | optionalRecord kind => exact takes_takeOptional h takes_takeRecord

end EntitySchema.Live
