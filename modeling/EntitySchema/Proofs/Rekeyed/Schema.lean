import EntitySchema.Proofs.Counterparts
import EntitySchema.Proofs.UniqueKeys

/-!
# Schemas with keys in another order

Schemas that differ in the order of names within their keys: the local key names of relations, primary
keys and unique groups. A relation is classified by the list flags of its two sides, or by whether its
key names are unique, and none of these looks at the order of names. So the schemas are analyzed alike.
-/

set_option autoImplicit false

namespace EntitySchema

def SameEntry {α : Type} (r : α → α → Prop) (e e' : String × α) : Prop := e.1 = e'.1 ∧ r e.2 e'.2

theorem rel_findLast? {α : Type} {r : α → α → Prop} {index index' : List (String × α)}
    (h : List.Forall₂ (SameEntry r) index index') (name : String) :
    Option.Rel r (findLast? name index) (findLast? name index') := by
  have hreverse := List.rel_reverse h
  unfold findLast?
  generalize index.reverse = entries, index'.reverse = entries' at hreverse
  induction hreverse with
  | nil => exact .none
  | cons hentry _ ih =>
    rw [List.lookup_cons, List.lookup_cons, hentry.1]
    split
    · exact .some hentry.2
    · exact ih

structure Model.SameKeys (m m' : Model) : Prop where
  name_eq : m.name = m'.name
  isJunctionTable_eq : m.isJunctionTable = m'.isJunctionTable
  fields : List.Forall₂ Field.SameKey m.fields.items m'.fields.items
  relationFields : List.Forall₂ Field.SameKey m.relationFields.items m'.relationFields.items
  fieldIndex : List.Forall₂ (SameEntry Field.SameKey) m.fieldIndex m'.fieldIndex
  primaryKey : Option.Rel (fun k k' => k.fields.Permuted k'.fields) m.primaryKey m'.primaryKey
  uniqueFields : List.Forall₂ Seq.Permuted m.uniqueFields.items m'.uniqueFields.items

structure Schema.SameKeys (s s' : Schema) : Prop where
  models : List.Forall₂ Model.SameKeys s.models.items s'.models.items
  modelIndex : List.Forall₂ (SameEntry Model.SameKeys) s.modelIndex s'.modelIndex
  enums : s.enums.items = s'.enums.items

/-! Relations. -/

namespace Field.SameKey

variable {f f' g g' : Field}

theorem isOppositeOf_eq (hg : g.SameKey g') (hf : f.SameKey f') {m m' t t' : Model}
    (hm : m.name = m'.name) (ht : t.name = t'.name) :
    g.isOppositeOf f m t = g'.isOppositeOf f' m' t' := by
  obtain ⟨names, rfl, -⟩ := hg
  obtain ⟨others, rfl, -⟩ := hf
  unfold isOppositeOf
  rw [hm, ht]

theorem backReference? (h : f.SameKey f') {m m' t t' : Model} (hm : m.name = m'.name)
    (ht : t.SameKeys t') :
    Option.Rel SameKey (f.backReference? m t) (f'.backReference? m' t') :=
  rel_find? ht.relationFields fun _ _ hg => hg.isOppositeOf_eq h hm ht.name_eq

end Field.SameKey

namespace Model.SameKeys

variable {m m' t t' : Model}

theorem symm (h : m.SameKeys m') : m'.SameKeys m where
  name_eq := h.name_eq.symm
  isJunctionTable_eq := h.isJunctionTable_eq.symm
  fields := (h.fields.imp fun _ _ => Field.SameKey.symm).flip
  relationFields := (h.relationFields.imp fun _ _ => Field.SameKey.symm).flip
  fieldIndex := (h.fieldIndex.imp fun _ _ he => ⟨he.1.symm, he.2.symm⟩).flip
  primaryKey := rel_swap h.primaryKey fun _ _ => Seq.Permuted.symm
  uniqueFields := (h.uniqueFields.imp fun _ _ => Seq.Permuted.symm).flip

theorem counterpart (h : m.SameKeys m') : m.Counterpart m' where
  name_eq := h.name_eq
  fields := .of_forall₂ h.fields
  primaryKey := h.primaryKey
  uniqueFields := .of_forall₂ h.uniqueFields

theorem areUnique (h : m.SameKeys m') {names names' : List String} (hp : names.Perm names')
    (hu : m.areUnique names = true) : m'.areUnique names' = true := by
  rw [areUnique_eq_true_iff, isSingleKey_iff] at hu ⊢
  rcases hu with ⟨name, f, rfl, hf, hkey⟩ | ⟨k, hk, hperm⟩ | ⟨group, hgroup, hperm⟩
  · obtain ⟨f', hf', hsame⟩ := exists_right_of_rel (rel_findLast? h.fieldIndex name) hf
    obtain ⟨others, rfl, -⟩ := hsame
    exact .inl ⟨name, _, (List.singleton_perm.mp hp).symm, hf', hkey⟩
  · obtain ⟨k', hk', hsame⟩ := exists_right_of_rel h.primaryKey hk
    exact .inr (.inl ⟨k', hk', hp.symm.trans (hperm.trans hsame)⟩)
  · obtain ⟨group', hgroup', hsame⟩ := (Rearranged.of_forall₂ h.uniqueFields).exists_right hgroup
    exact .inr (.inr ⟨group', hgroup', hp.symm.trans (hperm.trans hsame)⟩)

theorem areUnique_eq (h : m.SameKeys m') {names names' : List String} (hp : names.Perm names') :
    m.areUnique names = m'.areUnique names' :=
  Bool.eq_iff_iff.mpr ⟨h.areUnique hp, h.symm.areUnique hp.symm⟩

theorem ofRelation_eq (h : m.SameKeys m') (ht : t.SameKeys t') {f f' : Field} (hf : f.SameKey f')
    {back back' : Option Field} (hb : Option.Rel Field.SameKey back back') :
    Cardinality.ofRelation f m t back = Cardinality.ofRelation f' m' t' back' := by
  unfold Cardinality.ofRelation
  rw [hf.isList_eq]
  cases hb with
  | some hsame =>
    dsimp only
    rw [hsame.isList_eq]
  | none =>
    obtain ⟨names, -, hperm⟩ := hf
    dsimp only
    rw [h.areUnique_eq hperm, ht.isJunctionTable_eq, hperm.isEmpty_eq]

theorem relationship_eq (h : m.SameKeys m') (ht : t.SameKeys t') {f f' : Field}
    (hf : f.SameKey f') (frozen : Bool) :
    m.relationship frozen t f = m'.relationship frozen t' f' := by
  have hback := hf.backReference? h.name_eq ht
  have hname : (f.backReference? m t).map (·.name) = (f'.backReference? m' t').map (·.name) :=
    map_eq_of_rel hback fun _ _ hsame => hsame.name_eq
  unfold relationship
  dsimp only
  rw [h.ofRelation_eq ht hf hback, hname, h.name_eq, ht.name_eq, hf.name_eq]

end Model.SameKeys

/-! Analyses. -/

namespace Schema

/-- Every model is analyzed by itself before the analyses are stored under the names. -/
theorem analyze_eq_foldl (s : Schema) (frozen : Bool) : s.analyze frozen =
    ((s.models.items.map fun m => (m.name, m.analyze frozen s)).foldl
      (fun found e => putNamed e.1 e.2 found) []).map (·.2) := by
  rw [List.foldl_map]
  rfl

namespace SameKeys

variable {s s' : Schema}

theorem counterpart (h : s.SameKeys s') : s.Counterpart s' where
  models := .of_forall₂ (h.models.imp fun _ _ => Model.SameKeys.counterpart)
  enums := h.enums ▸ .refl _

theorem rel_model? (h : s.SameKeys s') {f f' : Field} (hf : f.SameKey f') :
    Option.Rel Model.SameKeys (s.model? f.typeName) (s'.model? f'.typeName) :=
  hf.typeName_eq ▸ rel_findLast? h.modelIndex f.typeName

theorem analyze_model_eq (h : s.SameKeys s') {m m' : Model} (hm : m.SameKeys m') (frozen : Bool) :
    m.analyze frozen s = m'.analyze frozen s' := by
  have hrelations : List.Forall₂ Field.SameKey (m.fields.items.filter (·.isRelation))
      (m'.fields.items.filter (·.isRelation)) :=
    forall₂_filter hm.fields fun _ _ hf => hf.isRelation_eq
  have hfound := filterMap_eq_of_forall₂
    (f := fun f => (s.model? f.typeName).map fun t => m.relationship frozen t f)
    (g := fun f' => (s'.model? f'.typeName).map fun t' => m'.relationship frozen t' f')
    hrelations fun _ _ hf => map_eq_of_rel (h.rel_model? hf) fun _ _ ht =>
      hm.relationship_eq ht hf frozen
  have hmissing := forall₂_filter (p := fun f => (s.model? f.typeName).isNone)
    (q := fun f' => (s'.model? f'.typeName).isNone) hrelations fun _ _ hf =>
      isNone_eq_of_rel (h.rel_model? hf)
  have hskipped := map_eq_of_forall₂ (f := Field.name) (g := Field.name) hmissing
    fun _ _ hf => hf.name_eq
  unfold Model.analyze
  dsimp only
  rw [hm.isJunctionTable_eq, hm.name_eq, hfound, hskipped]

theorem analyze_eq (h : s.SameKeys s') (frozen : Bool) : s.analyze frozen = s'.analyze frozen := by
  have hmodels := map_eq_of_forall₂ (f := fun m => (m.name, m.analyze frozen s))
    (g := fun m' => (m'.name, m'.analyze frozen s')) h.models fun m m' hm => by
      rw [hm.name_eq, h.analyze_model_eq hm]
  rw [analyze_eq_foldl, analyze_eq_foldl, hmodels]

end SameKeys

end Schema

end EntitySchema
