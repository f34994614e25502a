import EntitySchema.Field.Reading
import EntitySchema.Proofs.Inherited
import EntitySchema.Proofs.Thawed.Value

/-!
# Uniform values

A value is uniform if all containers and default functions in it are frozen, at any depth, or all are
open. A copy of plain data is uniform whatever the data were, and so is the default that a field keeps
of it. A default function inside the data would be taken over as it is, so plain data hold none.
-/

set_option autoImplicit false

namespace EntitySchema

namespace Value

mutual

def Plain : Value → Prop
  | .seq _ items => PlainItems items
  | .map _ entries => PlainEntries entries
  | .call .. => False
  | _ => True
termination_by structural v => v

def PlainItems : List Value → Prop
  | [] => True
  | v :: vs => Plain v ∧ PlainItems vs
termination_by structural vs => vs

/-- Only what stands under the keys counts: a default function is no key. -/
def PlainEntries : List (Value × Value) → Prop
  | [] => True
  | (_, v) :: es => Plain v ∧ PlainEntries es
termination_by structural es => es

end

mutual

def Uniform (frozen : Bool) : Value → Prop
  | .seq f items => f = frozen ∧ UniformItems frozen items
  | .map views entries => (views != 0) = frozen ∧ UniformEntries frozen entries
  | .call f _ g args => f = frozen ∧ g = frozen ∧ UniformItems frozen args
  | _ => True
termination_by structural v => v

def UniformItems (frozen : Bool) : List Value → Prop
  | [] => True
  | v :: vs => Uniform frozen v ∧ UniformItems frozen vs
termination_by structural vs => vs

def UniformEntries (frozen : Bool) : List (Value × Value) → Prop
  | [] => True
  | (k, v) :: es => (Uniform frozen k ∧ Uniform frozen v) ∧ UniformEntries frozen es
termination_by structural es => es

end

theorem plainItems_iff {vs : List Value} : PlainItems vs ↔ ∀ v ∈ vs, v.Plain := by
  induction vs with
  | nil => simp [PlainItems]
  | cons v vs ih => rw [PlainItems, ih, List.forall_mem_cons]

theorem plainEntries_iff {es : List (Value × Value)} : PlainEntries es ↔ ∀ e ∈ es, e.2.Plain := by
  induction es with
  | nil => simp [PlainEntries]
  | cons e es ih => rw [PlainEntries, ih, List.forall_mem_cons]

theorem uniformItems_iff {frozen : Bool} {vs : List Value} :
    UniformItems frozen vs ↔ ∀ v ∈ vs, v.Uniform frozen := by
  induction vs with
  | nil => simp [UniformItems]
  | cons v vs ih => rw [UniformItems, ih, List.forall_mem_cons]

theorem uniformEntries_iff {frozen : Bool} {es : List (Value × Value)} :
    UniformEntries frozen es ↔ ∀ e ∈ es, e.1.Uniform frozen ∧ e.2.Uniform frozen := by
  induction es with
  | nil => simp [UniformEntries]
  | cons e es ih => rw [UniformEntries, ih, List.forall_mem_cons]

theorem inherited_plain : Inherited Plain where
  null := trivial
  item h := plainItems_iff.mp h
  entry h := plainEntries_iff.mp h

/-! Copies. Storing mixes keys and values of several entries, so what is known of them is known apart. -/

section Stored

variable {P Q : Value → Prop}

theorem forall_mem_store {key value : Value} {entries : List (Value × Value)} (hk : P key)
    (hv : Q value) (h : ∀ e ∈ entries, P e.1 ∧ Q e.2) :
    ∀ e ∈ store key value entries, P e.1 ∧ Q e.2 := by
  induction entries with
  | nil =>
    rw [store, List.forall_mem_singleton]
    exact ⟨hk, hv⟩
  | cons e entries ih =>
    obtain ⟨hfirst, hrest⟩ := List.forall_mem_cons.mp h
    rw [store]
    split
    · exact List.forall_mem_cons.mpr ⟨⟨hfirst.1, hv⟩, hrest⟩
    · exact List.forall_mem_cons.mpr ⟨hfirst, ih hrest⟩

theorem forall_mem_storeAll {pairs : List (Value × Value)} (h : ∀ p ∈ pairs, P p.1 ∧ Q p.2) :
    ∀ e ∈ storeAll pairs, P e.1 ∧ Q e.2 := by
  have hfold : ∀ entries : List (Value × Value), (∀ e ∈ entries, P e.1 ∧ Q e.2) →
      ∀ e ∈ pairs.foldl (fun found p => store p.1 p.2 found) entries, P e.1 ∧ Q e.2 := by
    induction pairs with
    | nil => exact fun _ he => he
    | cons p pairs ih =>
      intro entries he
      obtain ⟨hp, hrest⟩ := List.forall_mem_cons.mp h
      exact ih hrest _ (forall_mem_store hp.1 hp.2 he)
  exact hfold [] nofun

end Stored

theorem uniformEntries_storeAll {frozen : Bool} {pairs : List (Value × Value)}
    (h : UniformEntries frozen pairs) : UniformEntries frozen (storeAll pairs) :=
  uniformEntries_iff.mpr (forall_mem_storeAll (uniformEntries_iff.mp h))

theorem toNat_bne_zero (b : Bool) : (b.toNat != 0) = b := by cases b <;> rfl

mutual

/-- A copy of plain data is frozen throughout or open throughout. -/
theorem uniform_copy (frozen : Bool) : ∀ {v : Value}, v.Plain → (copy frozen v).Uniform frozen
  | .seq _ _, h => ⟨rfl, uniformItems_copyItems frozen h⟩
  | .map _ _, h =>
    ⟨toNat_bne_zero frozen, uniformEntries_storeAll (uniformEntries_copyEntries frozen h)⟩
  | .call .., h => h.elim
  | .null, _ => trivial
  | .bool _, _ => trivial
  | .int _, _ => trivial
  | .float _, _ => trivial
  | .text _, _ => trivial
  | .bytes _, _ => trivial

theorem uniformItems_copyItems (frozen : Bool) : ∀ {vs : List Value}, PlainItems vs →
    UniformItems frozen (copyItems frozen vs)
  | [], _ => trivial
  | _ :: _, h => ⟨uniform_copy frozen h.1, uniformItems_copyItems frozen h.2⟩

theorem uniformEntries_copyEntries (frozen : Bool) : ∀ {es : List (Value × Value)},
    PlainEntries es → UniformEntries frozen (copyEntries frozen es)
  | [], _ => trivial
  | (_, _) :: _, h => ⟨⟨trivial, uniform_copy frozen h.1⟩, uniformEntries_copyEntries frozen h.2⟩

end

theorem uniformItems_map_copy {frozen : Bool} {vs : List Value} (h : ∀ v ∈ vs, v.Plain) :
    UniformItems frozen (vs.map (copy frozen)) :=
  uniformItems_iff.mpr (List.forall_mem_map.mpr fun v hv => uniform_copy frozen (h v hv))

/-! Defaults. -/

theorem uniform_keptDefault {raw : Value} (h : raw.Plain) (frozen : Bool) (owner : String) :
    (raw.keptDefault frozen owner).value.Uniform frozen := by
  cases raw with
  | map views entries =>
    unfold keptDefault
    dsimp only
    split
    · next node hnode => exact ⟨rfl, rfl, uniformItems_map_copy (inherited_plain.args h hnode)⟩
    · trivial
  | seq f items => exact uniform_copy frozen h
  | _ => trivial

/-- A kept default is its own copy. -/
theorem copyDefault_keptDefault (frozen : Bool) (owner : String) (raw : Value) :
    (raw.keptDefault frozen owner).value.copyDefault frozen =
      (raw.keptDefault frozen owner).value := by
  cases raw with
  | map views entries =>
    unfold keptDefault
    dsimp only
    split
    · rw [Logged.value_pure, copyDefault, ← copyItems_eq_map, ← copyItems_eq_map,
        copyItems_copyItems]
    · rfl
  | seq f items => exact copy_copy frozen frozen (.seq f items)
  | _ => rfl

end Value

end EntitySchema
