import EntitySchema.Proofs.Rekeyed.Reading

/-!
# Documents with keys in another order

The names in a local key list, in a primary key or in a unique group may be written in any order. Such
documents compile alike, to schemas that differ in the order of names within their keys, and no relation
is reported with another cardinality.
-/

set_option autoImplicit false

namespace EntitySchema

namespace Value

structure SectionsRekeyed (v w : Value) : Prop where
  models : ItemsRelated (List.Forall₂ KeysReordered) (v.get "models") (w.get "models")
  enums : v.get "enums" = w.get "enums"

def Rekeyed (v w : Value) : Prop :=
  ∃ dataModel dataModel', v.dataModel? = some dataModel ∧ w.dataModel? = some dataModel' ∧
    dataModel.SectionsRekeyed dataModel'

theorem KeysReordered.refl (v : Value) : v.KeysReordered v :=
  ⟨⟨rfl, fun _ _ => rfl⟩, .refl _, .inl rfl, .refl _⟩

namespace SectionsRekeyed

variable {dataModel dataModel' : Value}

theorem forall₂_readAll (h : dataModel.SectionsRekeyed dataModel') (frozen : Bool) :
    List.Forall₂ Model.SameKeys
      (Model.readAll frozen (sectionNodes dataModel "models").value).value
      (Model.readAll frozen (sectionNodes dataModel' "models").value).value := by
  have hsections := h.models.value_sectionNodes fun _ => List.forall₂_same.mpr fun v _ => .refl v
  have hnodes : List.Forall₂ ModelNode.SameKeys dataModel.modelNodes dataModel'.modelNodes := by
    refine List.rel_filterMap ?_ hsections
    exact fun _ _ => KeysReordered.rel_modelNode?
  exact NodeReader.forall₂_readAll hnodes (fun _ _ hn => hn.name_eq) fun _ _ hn =>
    hn.sameKeys_ofNode frozen

theorem sameKeys_readSchema (h : dataModel.SectionsRekeyed dataModel') (frozen : Bool) :
    (readSchema frozen dataModel).value.SameKeys (readSchema frozen dataModel').value := by
  have hmodels : List.Forall₂ Model.SameKeys (readSchema frozen dataModel).value.models.items
      (readSchema frozen dataModel').value.models.items := by
    refine List.rel_map ?_ (h.forall₂_readAll frozen)
    exact fun _ _ hm => hm.withViews frozen _ _
  constructor
  case models => exact hmodels
  case modelIndex =>
    refine List.rel_map ?_ hmodels
    exact fun _ _ hm => ⟨hm.name_eq, hm⟩
  case enums =>
    change (EnumType.readAll frozen (sectionNodes dataModel "enums").value).value =
      (EnumType.readAll frozen (sectionNodes dataModel' "enums").value).value
    rw [value_sectionNodes, value_sectionNodes, h.enums]

theorem isValid_readSchema (h : dataModel.SectionsRekeyed dataModel') (frozen : Bool) :
    (readSchema frozen dataModel).value.validate.isValid =
      (readSchema frozen dataModel').value.validate.isValid :=
  (h.sameKeys_readSchema frozen).counterpart.isValid_validate (Schema.wellFormed_readSchema _ _)
    (Schema.wellFormed_readSchema _ _)

end SectionsRekeyed

end Value

theorem Outcome.exists_ok_of_isValid?_eq {o o' : Outcome} (h : o.isValid? = o'.isValid?)
    {c : Compiled} (hc : o.result = .ok c) : ∃ c', o'.result = .ok c' := by
  unfold isValid? at h
  rw [hc] at h
  cases hr : o'.result with
  | error e =>
    rw [hr] at h
    cases h
  | ok c' => exact ⟨c', rfl⟩

/-- A document with keys in another order compiles under the same options. -/
theorem Compiled.exists_compiled_of_rekeyed {document document' : Value}
    {options : Option Options.Settings} {overrides : Options.Settings} {c : Compiled}
    (h : (compileWith document options overrides).result = .ok c)
    (hr : document.Rekeyed document') :
    ∃ c', (compileWith document' options overrides).result = .ok c' ∧
      c.schema.SameKeys c'.schema := by
  obtain ⟨dataModel, dataModel', hleft, hright, hsections⟩ := hr
  obtain ⟨o, read, ho, hread, hschema, -⟩ := compileWith_eq_ok_of_resolved h
  cases hleft.symm.trans hread
  have hvalid : (compileWith document options overrides).isValid? =
      (compileWith document' options overrides).isValid? := by
    rw [compileWith_eq_compileResolved hleft, compileWith_eq_compileResolved hright, ho]
    change (compileDataModel o dataModel).isValid? = (compileDataModel o dataModel').isValid?
    rw [isValid?_compileDataModel, isValid?_compileDataModel, hsections.isValid_readSchema]
  obtain ⟨c', hc'⟩ := Outcome.exists_ok_of_isValid?_eq hvalid h
  obtain ⟨o', read', ho', hread', hschema', -⟩ := compileWith_eq_ok_of_resolved hc'
  cases hright.symm.trans hread'
  cases ho.symm.trans ho'
  exact ⟨c', hc', hschema ▸ hschema' ▸ hsections.sameKeys_readSchema o.freeze⟩

/-- In a compiled schema names are unique exactly if they are the names of a declared key in some order.
No order of names within keys makes a difference to the relationships that are reported, be it changed
in the schema or in the document. -/
theorem Compiled.keys_unordered {document : Value} {options : Option Options.Settings}
    {overrides : Options.Settings} {c : Compiled}
    (h : (compileWith document options overrides).result = .ok c) :
    (∀ m ∈ c.schema.models.items, ∀ names,
      (m.areUnique names = true ↔ ∃ key, m.DeclaresKey key ∧ names.Perm key)) ∧
    (∀ s, c.schema.SameKeys s → ∀ frozen, s.analyze frozen = c.schema.analyze frozen) ∧
    ∀ document', document.Rekeyed document' →
      ∃ c', (compileWith document' options overrides).result = .ok c' ∧
        c.schema.SameKeys c'.schema ∧
        ∀ frozen, c'.schema.analyze frozen = c.schema.analyze frozen := by
  have hanalyze : ∀ s, c.schema.SameKeys s →
      ∀ frozen, s.analyze frozen = c.schema.analyze frozen :=
    fun s hs frozen => (hs.analyze_eq frozen).symm
  refine ⟨fun m hm names => ?_, hanalyze, fun document' hr => ?_⟩
  · exact Model.areUnique_iff ((Compiled.wellFormed h).models m hm) names
  · obtain ⟨c', hc', hsame⟩ := Compiled.exists_compiled_of_rekeyed h hr
    exact ⟨c', hc', hsame, hanalyze c'.schema hsame⟩

/-! Bookings of seats, with one booking for a seat. The seat is known by its hall and its row, which the
relation, the primary key and a unique group name in orders of their own. -/

def bookings (names key group : List String) : Value :=
  Declaration.document [
    Declaration.model "Seat" [Declaration.field "hall" "Int" "scalar" [],
      Declaration.field "row" "Int" "scalar" []]
      [("primaryKey", Declaration.members [("fields", Finding.texts ["hall", "row"])])],
    Declaration.model "Booking" [Declaration.field "hall" "Int" "scalar" [],
      Declaration.field "row" "Int" "scalar" [],
      Declaration.field "guest" "String" "scalar" [],
      Declaration.field "seat" "Seat" "object" [("relationFromFields", Finding.texts names),
        ("relationToFields", Finding.texts ["hall", "row"])]]
      [("primaryKey", Declaration.members [("fields", Finding.texts key)]),
        ("uniqueFields", .seq false [Finding.texts group])]] []

theorem Finding.itemsRelated_texts {names names' : List String} (h : names.Perm names') :
    Value.ItemsRelated List.Perm (texts names) (texts names') :=
  .inr ⟨_, _, rfl, rfl, h.map _⟩

theorem Declaration.agreeOutside_members {keys : List String} {entries entries' : List (String × Value)}
    (h : List.Forall₂ (fun e e' => e.1 = e'.1 ∧ (e.1 ∈ keys ∨ e.2 = e'.2)) entries entries') :
    Value.AgreeOutside keys (members entries) (members entries') := by
  refine ⟨rfl, fun key hkey => ?_⟩
  unfold members Value.get
  dsimp only
  congr 1
  induction h with
  | nil => rfl
  | @cons e e' _ _ he _ ih =>
    rw [List.map_cons, List.map_cons, Value.lookup, Value.lookup, ih, ← he.1]
    by_cases hfound : e.1 = key
    · rw [if_pos hfound, if_pos hfound, he.2.resolve_left (hfound ▸ hkey)]
    · rw [if_neg hfound, if_neg hfound]

theorem rekeyed_bookings {names names' key key' group group' : List String}
    (hnames : names.Perm names') (hkey : key.Perm key') (hgroup : group.Perm group') :
    (bookings names key group).Rekeyed (bookings names' key' group') := by
  refine ⟨_, _, rfl, rfl, .inr ⟨_, _, rfl, rfl, .cons (.refl _) (.cons ?_ .nil)⟩, rfl⟩
  constructor
  case outside => exact Declaration.agreeOutside_members (by simp)
  case fields =>
    refine .inr ⟨_, _, rfl, rfl, .cons (.inl rfl) (.cons (.inl rfl) (.cons (.inl rfl)
      (.cons (.inr ⟨rfl, ?_, Finding.itemsRelated_texts hnames⟩) .nil)))⟩
    exact Declaration.agreeOutside_members (by simp)
  case primaryKey =>
    refine .inr ⟨rfl, ?_, Finding.itemsRelated_texts hkey⟩
    exact Declaration.agreeOutside_members (by simp)
  case uniqueFields =>
    exact .inr ⟨_, _, rfl, rfl, .cons (Finding.itemsRelated_texts hgroup) .nil⟩

def bookingsByHall : Value := bookings ["hall", "row"] ["row", "hall"] ["guest", "row"]

def bookingsByRow : Value := bookings ["row", "hall"] ["hall", "row"] ["row", "guest"]

theorem bookingsByHall_rekeyed : bookingsByHall.Rekeyed bookingsByRow :=
  rekeyed_bookings (.swap _ _ _) (.swap _ _ _) (.swap _ _ _)

/-- The relation names the primary key in another order, so a seat has one booking. A part of a key is not
unique, and neither is a key with a name twice. -/
theorem Compiled.keys_unordered_bookings : bookingsByHall.Rekeyed bookingsByRow ∧ ∃ c c',
    (compileWith bookingsByHall none []).result = .ok c ∧
      (compileWith bookingsByRow none []).result = .ok c' ∧
      (∀ frozen, c'.schema.analyze frozen = c.schema.analyze frozen) ∧
      ∃ m ∈ c.schema.models.items, m.name = "Booking" ∧ m.areUnique ["row", "guest"] = true ∧
        m.areUnique ["row"] = false ∧ m.areUnique ["hall", "row", "row"] = false ∧
        ∃ f ∈ m.fields.items, f.fromNames = ["hall", "row"] ∧
          ∃ t ∈ c.schema.models.items, t.name = "Seat" ∧
            (m.relationship true t f).cardinality = .oneToOne := by
  obtain ⟨c, hc, hs⟩ := exists_compiled (rfl : bookingsByHall.dataModel? = some bookingsByHall)
  obtain ⟨hunique, -, hdocument⟩ := Compiled.keys_unordered hc
  obtain ⟨c', hc', -, hanalyze⟩ := hdocument _ bookingsByHall_rekeyed
  have hdata : ∃ m ∈ c.schema.models.items, m.name = "Booking" ∧
      m.primaryKey.map (·.fields.items) = some ["row", "hall"] ∧
      m.uniqueFields.items.map (·.items) = [["guest", "row"]] ∧
      (∀ f ∈ m.fields.items, ¬ (f.isId = true ∨ f.isUnique = true)) ∧
      ∃ f ∈ m.fields.items, f.fromNames = ["hall", "row"] ∧
        ∃ t ∈ c.schema.models.items, t.name = "Seat" ∧ (f.backReference? m t).isNone = true := by
    rw [hs]
    decide +kernel
  obtain ⟨m, hm, hname, hprimary, hgroups, hfields, f, hf, hfrom, t, ht, htarget, hback⟩ := hdata
  have hkeys : ∀ key, m.DeclaresKey key ↔ key = ["row", "hall"] ∨ key = ["guest", "row"] := by
    obtain ⟨k, hk, hkey⟩ := Option.map_eq_some_iff.mp hprimary
    obtain ⟨group, hgroup, hitems⟩ := List.map_eq_singleton_iff.mp hgroups
    intro key
    constructor
    · rintro (⟨f, hf, hflag⟩ | ⟨k', hk'⟩ | ⟨group', hgroup'⟩)
      · exact absurd hflag (hfields f hf)
      · cases hk.symm.trans hk'
        exact .inl hkey
      · rw [hgroup, List.mem_singleton] at hgroup'
        exact .inr (hgroup' ▸ hitems)
    · rintro (rfl | rfl)
      · exact hkey ▸ .primary k hk
      · exact hitems ▸ .unique group (hgroup ▸ List.mem_singleton_self group)
  have hperm : ∀ names, m.areUnique names = true ↔
      names.Perm ["row", "hall"] ∨ names.Perm ["guest", "row"] := by
    intro names
    rw [hunique m hm]
    simp only [hkeys, or_and_right, exists_or, exists_eq_left]
  have hown : m.areUnique f.fromNames = true :=
    (hperm _).mpr (.inl (hfrom ▸ .swap _ _ _))
  have hone : (m.relationship true t f).cardinality = .oneToOne := by
    unfold Model.relationship Cardinality.ofRelation
    dsimp only
    rw [Option.isNone_iff_eq_none.mp hback, hown, hfrom]
    rfl
  refine ⟨bookingsByHall_rekeyed, c, c', hc, hc', hanalyze, m, hm, hname,
    (hperm _).mpr (.inr (.swap _ _ _)), ?_, ?_, f, hf, hfrom, t, ht, htarget, hone⟩
  · rw [← Bool.not_eq_true, hperm]
    decide
  · rw [← Bool.not_eq_true, hperm]
    decide

end EntitySchema
