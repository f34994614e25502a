import EntitySchema.Live.Plant
import EntitySchema.Proofs.Typed.Attribute
import EntitySchema.Proofs.Typed.Record

/-!
# Planting typed schemas

A schema whose records have names and defaults that can be kept becomes live objects that are all typed.
Planting adds one object after the other, and what is known of an object when it is added is known of it
from then on; so what is known is carried along as one condition on the store.
-/

set_option autoImplicit false

namespace EntitySchema.Live

variable {α β : Type} {s t : Store} {known : Store → Prop}

/-- A computation that adds typed objects wherever something lasting is known, and what it tells of its
result lasts as well. -/
def Yields (known : Store → Prop) (m : Edit α) (told : Store → α → Prop) : Prop :=
  Lasts told ∧ ((∀ ⦃s t⦄, Store.ExtendedBy s t → known s → known t) →
    ∀ s : Store, s.Typed → known s → Gains s m told)

theorem Gains.yields {m : Edit α} {told : Store → α → Prop} (hlasts : Lasts told)
    (h : ∀ s : Store, s.Typed → known s → Gains s m told) : Yields known m told :=
  ⟨hlasts, fun _ => h⟩

theorem Yields.bind {m : Edit α} {k : α → Edit β} {told : Store → α → Prop}
    {told' : Store → β → Prop} (hm : Yields known m told) (hlasts : Lasts told')
    (hk : ∀ a, Yields (fun t => told t a ∧ known t) (k a) told') : Yields known (m >>= k) told' := by
  refine ⟨hlasts, fun hknown s hs hk₀ => ?_⟩
  refine (hm.2 hknown s hs hk₀).bind fun a t hst ha => ?_
  refine (hk a).2 (fun u v huv h => ⟨hm.1 huv h.1, hknown huv h.2⟩) t (hst.typed hs) ?_
  exact ⟨ha, hknown hst.extended hk₀⟩

theorem Yields.mapM {f : α → Edit β} {told : Store → β → Prop} {as : List α} (hlasts : Lasts told)
    (h : ∀ a ∈ as, Yields known (f a) told) :
    Yields known (as.mapM f) fun t bs => ∀ b ∈ bs, told t b := by
  refine ⟨fun s t bs hst hbs b hb => hlasts hst (hbs b hb), fun hknown s hs hk₀ => ?_⟩
  exact gains_mapM_all hlasts fun a ha t hst =>
    (h a ha).2 hknown t (hst.typed hs) (hknown hst.extended hk₀)

theorem Yields.imp {m : Edit α} {told told' : Store → α → Prop} (h : Yields known m told)
    (hlasts : Lasts told') (himp : ∀ t a, told t a → told' t a) : Yields known m told' :=
  ⟨hlasts, fun hknown s hs hk => (h.2 hknown s hs hk).imp fun t a _ ha => himp t a ha⟩

theorem yields_record {kind : RecordKind} {attributes inner : List (String × Cell)}
    (h : ∀ s : Store, known s → TypedAttributes kind s attributes) :
    Yields known (allocRef (.record kind attributes inner)) (Cell.IsRecordOf kind) :=
  Gains.yields (lasts_isRecordOf kind) fun s _ hk =>
    gains_allocRef (fun _ => h s hk) fun _ id _ hid => ⟨id, attributes, inner, rfl, hid⟩

theorem yields_seq {frozen : Bool} {items : List Cell} {P : Store → Cell → Prop} (hlasts : Lasts P)
    (h : ∀ s : Store, known s → ∀ item ∈ items, P s item) :
    Yields known (allocRef (.seq frozen items)) (Cell.IsSeqOf P) :=
  Gains.yields hlasts.isSeqOf fun s _ hk => gains_allocSeq hlasts (h s hk)

/-! Cells that are admitted. -/

section Admitted

@[simp] theorem admits_name {text : String} :
    AttributeType.name.Admits s (.leaf (.text text)) ↔ text ≠ "" := by
  simp [AttributeType.Admits, Cell.IsName]

@[simp] theorem admits_text (text : String) : AttributeType.text.Admits s (.leaf (.text text)) :=
  ⟨text, rfl⟩

@[simp] theorem admits_flag (b : Bool) : AttributeType.flag.Admits s (flag b) := ⟨b, rfl⟩

@[simp] theorem admits_kind (kind : FieldKind) :
    AttributeType.kind.Admits s (.leaf (.text kind.word)) := ⟨kind, rfl⟩

@[simp] theorem admits_optionalText (text : Option String) :
    AttributeType.optionalText.Admits s (optionalText text) := by
  cases text with
  | none => exact .inl rfl
  | some text => exact .inr ⟨text, rfl⟩

theorem admits_keyName {name : Option String} (h : ∀ text ∈ name, text ≠ "") :
    AttributeType.keyName.Admits s (optionalText name) := by
  cases name with
  | none => exact .inl rfl
  | some text => exact .inr ⟨text, rfl, h text rfl⟩

end Admitted

/-! Values. -/

mutual

theorem gains_plant : ∀ {v : Value} {s : Store}, v.Plain → Gains s (plant v) fun _ _ => True
  | .seq _ _, _, h => (gains_plantItems h).bind fun _ _ _ _ =>
    gains_allocRef (fun _ => trivial) fun _ _ _ _ => trivial
  | .map _ _, _, h => (gains_plantEntries h).bind fun _ _ _ _ =>
    gains_allocRef (fun _ => trivial) fun _ _ _ _ => trivial
  | .call .., _, h => h.elim
  | .null, _, _ => gains_pure trivial
  | .bool _, _, _ => gains_pure trivial
  | .int _, _, _ => gains_pure trivial
  | .float _, _, _ => gains_pure trivial
  | .text _, _, _ => gains_pure trivial
  | .bytes _, _, _ => gains_pure trivial

theorem gains_plantItems : ∀ {vs : List Value} {s : Store}, Value.PlainItems vs →
    Gains s (plantItems vs) fun _ _ => True
  | [], _, _ => gains_pure trivial
  | _ :: _, _, h => (gains_plant h.1).bind fun _ _ _ _ => (gains_plantItems h.2).bind fun _ _ _ _ =>
    gains_pure trivial

theorem gains_plantEntries : ∀ {es : List (Value × Value)} {s : Store}, Value.PlainEntries es →
    Gains s (plantEntries es) fun _ _ => True
  | [], _, _ => gains_pure trivial
  | (_, _) :: _, _, h => (gains_plant h.1).bind fun _ _ _ _ =>
    (gains_plantEntries h.2).bind fun _ _ _ _ => gains_pure trivial

end

theorem gains_plantArgs {frozen : Bool} {vs : List Value} (h : Value.PlainItems vs) :
    Gains s (plantItems vs >>= fun cells => allocRef (.seq frozen cells)) Cell.IsSeq :=
  (gains_plantItems h).bind fun _ _ _ _ => gains_allocSeq (lasts_of_const _) fun _ _ => trivial

/-- What a field can keep for a default becomes a cell that can be a default. -/
theorem gains_plantDefault {v : Value} (h : v.IsKept) :
    Gains s (plant v) AttributeType.defaultValue.Admits := by
  cases v with
  | map views entries => exact h.elim
  | bytes bs => exact h.elim
  | seq frozen items => exact (gains_plantArgs h).imp fun _ _ _ hc => .inr (.inl hc)
  | call frozen name argsFrozen args =>
    have hfunction : ∀ (u : Store) (held : Cell), held.IsSeq u → Gains u (allocRef (.record .function
        [("name", .leaf (.text name)), ("args", held)] (mark frozen))) (Cell.IsRecordOf .function) := by
      intro u held hheld
      have htyped : TypedAttributes .function u [("name", .leaf (.text name)), ("args", held)] :=
        .cons ⟨rfl, name, rfl, h.1⟩ (.cons ⟨rfl, hheld⟩ .nil)
      exact gains_allocRef (fun _ => htyped) fun _ id _ hid => ⟨id, _, _, rfl, hid⟩
    refine (gains_plantItems h.2).bind fun cells t _ _ => ?_
    refine (gains_allocSeq (P := fun _ _ => True) (lasts_of_const _) fun _ _ => trivial).bind
      fun held u _ hheld => ?_
    exact (hfunction u held hheld).imp fun _ _ _ hc => .inr (.inr hc)
  | _ => exact gains_pure (.inl ⟨_, rfl, trivial⟩)

/-! Records. -/

theorem yields_plantNames (names : Seq String) : Yields known (plantNames names) Cell.IsTexts :=
  yields_seq (lasts_of_const _) fun _ _ => List.forall_mem_map.mpr fun name _ => ⟨name, rfl⟩

theorem yields_plantOptionalNames (names : Option (Seq String)) :
    Yields known (plantOptionalNames names) (Cell.IsOptional Cell.IsTexts) := by
  cases names with
  | none => exact Gains.yields lasts_isTexts.isOptional fun _ _ _ => gains_pure (.inl rfl)
  | some given =>
    exact ⟨lasts_isTexts.isOptional, fun hknown s hs hk =>
      ((yields_plantNames given).2 hknown s hs hk).imp fun _ _ _ hc => .inr hc⟩

theorem yields_plantField {f : Field} (h : f.Named) :
    Yields known (plantField f) (Cell.IsRecordOf .field) := by
  have hlasts := lasts_isRecordOf .field
  refine (Gains.yields (AttributeType.lasts_admits .defaultValue) fun _ _ _ =>
    gains_plantDefault h.defaultValue).bind hlasts fun kept => ?_
  refine (yields_plantOptionalNames f.relationFrom).bind hlasts fun fromNames => ?_
  refine (yields_plantOptionalNames f.relationTo).bind hlasts fun toNames => ?_
  refine yields_record ?_
  rintro s ⟨hto, hfrom, hkept, -⟩
  have hfrom' : AttributeType.optionalNames.Admits s fromNames := hfrom
  have hto' : AttributeType.optionalNames.Admits s toNames := hto
  simp [TypedAttributes, declared, h.name, h.typeName, hkept, hfrom', hto']

theorem yields_plantPrimaryKey {k : PrimaryKey} (h : ∀ name ∈ k.name, name ≠ "") :
    Yields known (plantPrimaryKey k) (Cell.IsRecordOf .primaryKey) := by
  refine (yields_plantNames k.fields).bind (lasts_isRecordOf _) fun fields => yields_record ?_
  rintro s ⟨hfields, -⟩
  exact .cons ⟨rfl, admits_keyName h⟩ (.cons ⟨rfl, hfields⟩ .nil)

theorem yields_plantEnum {e : EnumType} (h : e.name ≠ "") :
    Yields known (plantEnum e) (Cell.IsRecordOf .enum) := by
  refine (yields_plantNames e.values).bind (lasts_isRecordOf _) fun values => yields_record ?_
  rintro s ⟨hvalues, -⟩
  exact .cons ⟨rfl, e.name, rfl, h⟩ (.cons ⟨rfl, hvalues⟩ (.cons ⟨rfl, admits_optionalText _⟩ .nil))

/-- A view holds cells of fields that were put in before. -/
theorem yields_plantView {planted : List (String × Cell)} {view : Seq Field}
    (h : ∀ s : Store, known s → ∀ e ∈ planted, e.2.IsRecordOf .field s) :
    Yields known (plantView planted view) (Cell.IsSeqOf (Cell.IsRecordOf .field)) := by
  refine yields_seq (lasts_isRecordOf .field) fun s hk c hc => ?_
  obtain ⟨f, -, hlookup⟩ := List.mem_filterMap.mp hc
  exact h s hk (f.name, c) (mem_of_lookup hlookup)

theorem yields_plantLookup (readOnly : Bool) (entries : List (String × Cell)) :
    Yields known (plantLookup readOnly entries) fun _ _ => True :=
  Gains.yields (lasts_of_const _) fun _ _ _ =>
    gains_allocRef (fun _ => trivial) fun _ _ _ _ => trivial

theorem yields_plantModel {m : Model} (h : m.Named) :
    Yields known (plantModel m) (Cell.IsRecordOf .model) := by
  have hlasts := lasts_isRecordOf .model
  refine (Yields.mapM (lasts_isRecordOf .field) fun f hf => yields_plantField (h.fields f hf)).bind
    hlasts fun cells => ?_
  have hplanted : ∀ e ∈ m.fieldNames.zip cells, e.2 ∈ cells :=
    fun e he => (List.of_mem_zip he).2
  refine (yields_seq (lasts_isRecordOf .field) fun s hk => hk.1).bind hlasts fun fields => ?_
  -- The key is put in on either branch, and the rest is the same for both.
  lift_lets
  intro idField withKey
  suffices hrest : ∀ key, Yields (fun t => (AttributeType.optionalRecord .primaryKey).Admits t key ∧
      fields.IsSeqOf (Cell.IsRecordOf .field) t ∧ (∀ c ∈ cells, c.IsRecordOf .field t) ∧ known t)
      (withKey key) (Cell.IsRecordOf .model) by
    have hkeyLasts := AttributeType.lasts_admits (.optionalRecord .primaryKey)
    cases hkey : m.primaryKey with
    | none =>
      exact (Gains.yields hkeyLasts fun _ _ _ => gains_pure (.inl rfl)).bind hlasts hrest
    | some k =>
      exact ((yields_plantPrimaryKey (h.keyName k hkey)).imp hkeyLasts fun _ _ hc => .inr hc).bind
        hlasts hrest
  intro key
  refine (Yields.mapM lasts_isTexts fun names _ => yields_plantNames names).bind hlasts
    fun groups => ?_
  refine (yields_seq lasts_isTexts fun s hk => hk.1).bind hlasts fun unique => ?_
  have hview : ∀ {known : Store → Prop} (view : Seq Field),
      (∀ s, known s → ∀ c ∈ cells, c.IsRecordOf .field s) →
      Yields known (plantView (m.fieldNames.zip cells) view) (Cell.IsSeqOf (Cell.IsRecordOf .field)) :=
    fun view hk => yields_plantView fun s hs e he => hk s hs e.2 (hplanted e he)
  refine (hview m.scalarFields fun _ ⟨_, _, _, _, hk, _⟩ => hk).bind hlasts fun scalar => ?_
  refine (hview m.relationFields fun _ ⟨_, _, _, _, _, hk, _⟩ => hk).bind hlasts fun relation => ?_
  refine (hview m.createFields fun _ ⟨_, _, _, _, _, _, hk, _⟩ => hk).bind hlasts fun create => ?_
  refine (hview m.updateFields fun _ ⟨_, _, _, _, _, _, _, hk, _⟩ => hk).bind hlasts fun update => ?_
  refine (hview m.readFields fun _ ⟨_, _, _, _, _, _, _, _, hk, _⟩ => hk).bind hlasts fun read => ?_
  refine (Yields.mapM (lasts_isRecordOf .field) fun f hf =>
    yields_plantField (h.reverseRelations f hf)).bind hlasts fun copies => ?_
  refine (yields_seq (lasts_isRecordOf .field) fun s hk => hk.1).bind hlasts fun reverse => ?_
  refine (yields_plantLookup false _).bind hlasts fun byName => yields_record ?_
  rintro s ⟨-, hreverse, -, hread, hupdate, hcreate, hrelation, hscalar, hunique, -, hkey, hfields,
    hcells, -⟩
  have hidField : (AttributeType.optionalRecord .field).Admits s idField :=
    getD_lookup_of_forall (P := Cell.IsOptional (Cell.IsRecordOf .field) s) (.inl rfl)
      (fun e he => .inr (hcells e.2 (hplanted e he))) m.idField
  have hfieldList : ∀ {c : Cell}, c.IsSeqOf (Cell.IsRecordOf .field) s →
      (AttributeType.records .field).Admits s c := id
  have hgroups : AttributeType.nameGroups.Admits s unique := hunique
  simp [TypedAttributes, declared, h.name, hkey, hidField, hgroups, hfieldList, hfields, hscalar,
    hrelation, hcreate, hupdate, hread, hreverse]

/-- A typed model holds its reverse relations. -/
theorem yields_storedReverse {c : Cell} (h : ∀ s : Store, known s → c.IsRecordOf .model s) :
    Yields known (stored c "reverse_relations") fun _ _ => True :=
  Gains.yields (lasts_of_const _) fun s hs hk => by
    obtain ⟨id, attributes, inner, rfl, ho⟩ := h s hk
    obtain ⟨held, hheld, -⟩ := TypedAttributes.exists_lookup (hs id _ ho)
      (rfl : (declared .model).lookup "reverse_relations" = some (.records .field))
    exact ⟨held, s, run_stored ho hheld, .refl s, trivial⟩

theorem yields_plantSchema {schema : Schema} (h : schema.Named) :
    Yields known (plantSchema schema) (Cell.IsRecordOf .schema) := by
  have hlasts := lasts_isRecordOf .schema
  refine (Yields.mapM (lasts_isRecordOf .model) fun m hm => yields_plantModel (h.models m hm)).bind
    hlasts fun models => ?_
  refine (Yields.mapM (lasts_isRecordOf .enum) fun e he => yields_plantEnum (h.enums e he)).bind
    hlasts fun enums => ?_
  refine (yields_seq (lasts_isRecordOf .model) fun _ ⟨_, hmodels, _⟩ => hmodels).bind hlasts
    fun modelList => ?_
  refine (yields_seq (lasts_isRecordOf .enum) fun _ ⟨_, henums, _⟩ => henums).bind hlasts
    fun enumList => ?_
  refine (Yields.mapM (lasts_of_const _) fun c hc => yields_storedReverse
    fun _ ⟨_, _, _, hmodels, _⟩ => hmodels c hc).bind hlasts fun reverse => ?_
  refine (yields_plantLookup true _).bind hlasts fun modelMap => ?_
  refine (yields_plantLookup true _).bind hlasts fun enumMap => ?_
  refine (yields_plantLookup true _).bind hlasts fun reverseMap => yields_record ?_
  rintro s ⟨-, -, -, -, henumList, hmodelList, -⟩
  exact .cons ⟨rfl, hmodelList⟩ (.cons ⟨rfl, henumList⟩ .nil)

/-- In an empty store. -/
theorem exists_typed_store {schema : Schema} (h : schema.Named) :
    ∃ root store, (plantSchema schema).run Store.empty = .ok (root, store) ∧ store.Typed ∧
      root.IsRecordOf .schema store := by
  have hyields : Yields (fun _ => True) (plantSchema schema) (Cell.IsRecordOf .schema) :=
    yields_plantSchema h
  obtain ⟨root, store, hrun, hgrown, hroot⟩ :=
    hyields.2 (fun _ _ _ => id) Store.empty Store.typed_empty trivial
  exact ⟨root, store, hrun, hgrown.typed Store.typed_empty, hroot⟩

end EntitySchema.Live
