import EntitySchema.Proofs.Correspondence
import EntitySchema.Proofs.Validity

/-!
# Counterpart schemas

Schemas that differ only in orders that no check looks at: the order of models, enums and fields, and
the order of the names in a key. The checks may report other issues on them, but whether there is an
error depends on what is in a schema alone: an insertion order of one schema is one of the other, and so
does every reference resolve in both or in none.
-/

set_option autoImplicit false

namespace EntitySchema

def Seq.Permuted {α : Type} (s t : Seq α) : Prop := s.items.Perm t.items

theorem Seq.Permuted.refl {α : Type} (s : Seq α) : s.Permuted s := List.Perm.refl _

theorem Seq.Permuted.symm {α : Type} {s t : Seq α} (h : s.Permuted t) : t.Permuted s :=
  List.Perm.symm h

def Field.SameKey (f f' : Field) : Prop :=
  ∃ names, f' = { f with relationFrom := names } ∧ f.fromNames.Perm f'.fromNames

structure Model.Counterpart (m m' : Model) : Prop where
  name_eq : m.name = m'.name
  fields : Rearranged Field.SameKey m.fields.items m'.fields.items
  primaryKey : Option.Rel (fun k k' => k.fields.Permuted k'.fields) m.primaryKey m'.primaryKey
  uniqueFields : Rearranged Seq.Permuted m.uniqueFields.items m'.uniqueFields.items

namespace Field.SameKey

variable {f f' : Field}

theorem refl (f : Field) : f.SameKey f := ⟨f.relationFrom, rfl, .refl _⟩

theorem symm (h : f.SameKey f') : f'.SameKey f := by
  obtain ⟨names, rfl, hperm⟩ := h
  exact ⟨f.relationFrom, rfl, hperm.symm⟩

theorem name_eq (h : f.SameKey f') : f.name = f'.name := by
  obtain ⟨names, rfl, -⟩ := h
  rfl

theorem typeName_eq (h : f.SameKey f') : f.typeName = f'.typeName := by
  obtain ⟨names, rfl, -⟩ := h
  rfl

theorem isRelation_eq (h : f.SameKey f') : f.isRelation = f'.isRelation := by
  obtain ⟨names, rfl, -⟩ := h
  rfl

theorem isList_eq (h : f.SameKey f') : f.isList = f'.isList := by
  obtain ⟨names, rfl, -⟩ := h
  rfl

theorem blocksInsertion_eq (h : f.SameKey f') : f.blocksInsertion = f'.blocksInsertion := by
  obtain ⟨names, rfl, hperm⟩ := h
  unfold blocksInsertion ownsForeignKey
  rw [hperm.isEmpty_eq]
  rfl

end Field.SameKey

namespace Model.Counterpart

variable {a a' b b' m m' : Model}

theorem symm (h : m.Counterpart m') : m'.Counterpart m where
  name_eq := h.name_eq.symm
  fields := h.fields.symm fun _ _ => Field.SameKey.symm
  primaryKey := rel_swap h.primaryKey fun _ _ => Seq.Permuted.symm
  uniqueFields := h.uniqueFields.symm fun _ _ => Seq.Permuted.symm

theorem hasField (h : m.Counterpart m') {name : String} (hf : m.HasField name) :
    m'.HasField name := by
  obtain ⟨f, hmem, hname⟩ := hf
  obtain ⟨f', hmem', hsame⟩ := h.fields.exists_right hmem
  exact ⟨f', hmem', hsame.name_eq ▸ hname⟩

theorem dependsOn (ha : a.Counterpart a') (hb : b.Counterpart b') (h : a.DependsOn b) :
    a'.DependsOn b' := by
  obtain ⟨f, hf, hblocks, htype⟩ := h
  obtain ⟨f', hf', hsame⟩ := ha.fields.exists_right hf
  exact ⟨f', hf', hsame.blocksInsertion_eq ▸ hblocks,
    hsame.typeName_eq.symm.trans (htype.trans hb.name_eq)⟩

theorem keysResolve (h : m.Counterpart m') (hk : m.KeysResolve) : m'.KeysResolve where
  identified := by
    rcases hk.identified with ⟨f, hf, hid⟩ | hkey
    · obtain ⟨f', hf', names, rfl, -⟩ := h.fields.exists_right hf
      exact .inl ⟨_, hf', hid⟩
    · obtain ⟨k, hk⟩ := Option.isSome_iff_exists.mp hkey
      obtain ⟨k', hk', -⟩ := exists_right_of_rel h.primaryKey hk
      exact .inr (Option.isSome_of_mem hk')
  primaryKey := by
    intro k' hk' n hn
    obtain ⟨k, hmem, hperm⟩ := exists_left_of_rel h.primaryKey hk'
    exact h.hasField (hk.primaryKey k hmem n (hperm.mem_iff.mpr hn))
  uniqueFields := by
    intro group' hgroup' n hn
    obtain ⟨group, hgroup, hperm⟩ := h.uniqueFields.exists_left hgroup'
    exact h.hasField (hk.uniqueFields group hgroup n (hperm.mem_iff.mpr hn))

end Model.Counterpart

namespace Schema

structure Counterpart (s s' : Schema) : Prop where
  models : Rearranged Model.Counterpart s.models.items s'.models.items
  enums : s.enums.items.Perm s'.enums.items

namespace Counterpart

variable {s s' : Schema}

theorem symm (h : s.Counterpart s') : s'.Counterpart s :=
  ⟨h.models.symm fun _ _ => Model.Counterpart.symm, h.enums.symm⟩

theorem relationResolves (h : s.Counterpart s') {m m' : Model} (hm : m.Counterpart m')
    {f f' : Field} (hf : f.SameKey f') (hr : s.RelationResolves m f) :
    s'.RelationResolves m' f' := by
  obtain ⟨names, rfl, hperm⟩ := hf
  constructor
  case length_eq => exact hperm.length_eq.symm.trans hr.length_eq
  case fromNames => exact fun n hn => hm.hasField (hr.fromNames n (hperm.mem_iff.mpr hn))
  case target =>
    obtain ⟨t, ht, hname, hto⟩ := hr.target
    obtain ⟨t', ht', hcounterpart⟩ := h.models.exists_right ht
    exact ⟨t', ht', hcounterpart.name_eq ▸ hname, fun n hn => hcounterpart.hasField (hto n hn)⟩

theorem referentiallySound (h : s.Counterpart s') (hs : s.ReferentiallySound) :
    s'.ReferentiallySound where
  keys := by
    intro m' hm'
    obtain ⟨m, hm, hcounterpart⟩ := h.models.exists_left hm'
    exact hcounterpart.keysResolve (hs.keys m hm)
  relations := by
    intro m' hm' f' hf' hrelation
    obtain ⟨m, hm, hcounterpart⟩ := h.models.exists_left hm'
    obtain ⟨f, hf, hsame⟩ := hcounterpart.fields.exists_left hf'
    exact h.relationResolves hcounterpart hsame
      (hs.relations m hm f hf (hsame.isRelation_eq.trans hrelation))
  enumValues := fun e he => hs.enumValues e (h.enums.mem_iff.mpr he)
  enumFields := by
    intro m' hm' f' hf' hkind
    obtain ⟨m, hm, hcounterpart⟩ := h.models.exists_left hm'
    obtain ⟨f, hf, names, rfl, -⟩ := hcounterpart.fields.exists_left hf'
    obtain ⟨e, he, hname⟩ := hs.enumFields m hm f hf hkind
    exact ⟨e, h.enums.mem_iff.mp he, hname⟩

theorem exists_insertionOrder (h : s.Counterpart s') (ho : ∃ order, s.InsertionOrder order) :
    ∃ order, s'.InsertionOrder order := by
  obtain ⟨order, hperm, hbefore⟩ := ho
  obtain ⟨order', hcounterpart, hperm'⟩ := (h.models.perm_left hperm).exists_forall₂
  refine ⟨order', hperm', fun i j hi hj hdepends => ?_⟩
  have hi' : i < order.length := hcounterpart.length_eq ▸ hi
  have hj' : j < order.length := hcounterpart.length_eq ▸ hj
  have hci : order[i].Counterpart order'[i] := hcounterpart.get hi' hi
  have hcj : order[j].Counterpart order'[j] := hcounterpart.get hj' hj
  exact hbefore i j hi' hj' (hci.symm.dependsOn hcj.symm hdepends)

theorem isValid_validate (h : s.Counterpart s') (hs : s.WellFormed) (hs' : s'.WellFormed) :
    s.validate.isValid = s'.validate.isValid := by
  rw [Bool.eq_iff_iff, isValid_iff hs, isValid_iff hs']
  constructor
  · exact fun hv => ⟨h.exists_insertionOrder hv.1, h.referentiallySound hv.2⟩
  · exact fun hv => ⟨h.symm.exists_insertionOrder hv.1, h.symm.referentiallySound hv.2⟩

end Counterpart

end Schema

end EntitySchema
