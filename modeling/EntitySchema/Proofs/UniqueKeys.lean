import EntitySchema.Proofs.WellFormed
import EntitySchema.Relationship.Basic

/-!
# Unique keys

Names are unique in a model if they are, in some order, the names of a key that the model declares. The
names and each key are sorted and compared as lists; sorted lists are equal exactly if the lists are
permutations of each other, with the same repetitions.
-/

set_option autoImplicit false

namespace EntitySchema

/-- The keys of a model as lists of names: each single field that is an id or unique, the composite
primary key, and each unique group. -/
inductive Model.DeclaresKey (m : Model) : List String → Prop where
  | field (f : Field) (hf : f ∈ m.fields.items) (h : f.isId = true ∨ f.isUnique = true) :
      m.DeclaresKey [f.name]
  | primary (k : PrimaryKey) (hk : k ∈ m.primaryKey) : m.DeclaresKey k.fields.items
  | unique (group : Seq String) (hg : group ∈ m.uniqueFields.items) : m.DeclaresKey group.items

theorem pairwise_sortedNames (names : List String) :
    (sortedNames names).Pairwise fun a b => decide (a ≤ b) = true := by
  apply List.pairwise_mergeSort
  · intro a b c hab hbc
    rw [decide_eq_true_eq] at hab hbc ⊢
    exact String.le_trans hab hbc
  · intro a b
    rw [Bool.or_eq_true, decide_eq_true_eq, decide_eq_true_eq]
    exact String.le_total a b

theorem sortedNames_eq_iff (names key : List String) :
    sortedNames names = sortedNames key ↔ names.Perm key := by
  have hnames : (sortedNames names).Perm names := List.mergeSort_perm _ _
  have hkey : (sortedNames key).Perm key := List.mergeSort_perm _ _
  constructor
  · intro h
    exact hnames.symm.trans (h ▸ hkey)
  · intro h
    refine List.Perm.eq_of_pairwise ?_ (pairwise_sortedNames names) (pairwise_sortedNames key)
      (hnames.trans (h.trans hkey.symm))
    intro a b _ _ hab hba
    rw [decide_eq_true_eq] at hab hba
    exact String.le_antisymm hab hba

theorem sortedNames_eq_singleton_iff (names : List String) (name : String) :
    sortedNames names = [name] ↔ names = [name] := by
  have hsorted : sortedNames [name] = [name] := List.mergeSort_singleton _
  rw [← List.perm_singleton (l := names), ← sortedNames_eq_iff names, hsorted]

namespace Model

theorem isSingleKey_iff (m : Model) (names : List String) : m.isSingleKey names = true ↔
    ∃ name f, names = [name] ∧ m.field? name = some f ∧ (f.isUnique || f.isId) = true := by
  unfold isSingleKey
  split
  · next name =>
    rw [Option.any_eq_true]
    constructor
    · rintro ⟨f, hf, hkey⟩
      exact ⟨name, f, rfl, hf, hkey⟩
    · rintro ⟨_, f, ⟨⟩, hf, hkey⟩
      exact ⟨f, hf, hkey⟩
  · next hmany =>
    refine iff_of_false Bool.noConfusion ?_
    rintro ⟨name, -, hname, -⟩
    exact hmany name hname

/-- The three kinds of key as they are looked for. -/
theorem areUnique_eq_true_iff (m : Model) (names : List String) : m.areUnique names = true ↔
    m.isSingleKey names = true ∨ (∃ k ∈ m.primaryKey, names.Perm k.fields.items) ∨
      ∃ group ∈ m.uniqueFields.items, names.Perm group.items := by
  have hsingle : m.isSingleKey (sortedNames names) = true ↔ m.isSingleKey names = true := by
    simp only [isSingleKey_iff, sortedNames_eq_singleton_iff]
  have hsorted : ∀ key, (sortedNames key == sortedNames names) = true ↔ names.Perm key := by
    intro key
    rw [beq_iff_eq, sortedNames_eq_iff, List.perm_comm]
  unfold areUnique
  dsimp only
  rw [Bool.or_eq_true, Bool.or_eq_true, hsingle, or_assoc, Option.any_eq_true, List.any_eq_true]
  simp only [hsorted]
  rfl

theorem areUnique_iff {m : Model} (h : m.WellFormed) (names : List String) :
    m.areUnique names = true ↔ ∃ key, m.DeclaresKey key ∧ names.Perm key := by
  rw [areUnique_eq_true_iff, isSingleKey_iff]
  constructor
  · rintro (⟨name, f, rfl, hf, hkey⟩ | ⟨k, hk, hperm⟩ | ⟨group, hgroup, hperm⟩)
    · obtain ⟨hmem, rfl⟩ := (field?_eq_some_iff h name f).mp hf
      rw [Bool.or_eq_true, or_comm] at hkey
      exact ⟨_, .field f hmem hkey, .refl _⟩
    · exact ⟨_, .primary k hk, hperm⟩
    · exact ⟨_, .unique group hgroup, hperm⟩
  · rintro ⟨key, hkey, hperm⟩
    cases hkey with
    | field f hf hkey =>
      rw [or_comm, ← Bool.or_eq_true] at hkey
      exact .inl ⟨f.name, f, List.perm_singleton.mp hperm,
        (field?_eq_some_iff h f.name f).mpr ⟨hf, rfl⟩, hkey⟩
    | primary k hk => exact .inr (.inl ⟨k, hk, hperm⟩)
    | unique group hgroup => exact .inr (.inr ⟨group, hgroup, hperm⟩)

end Model

end EntitySchema
