import Mathlib.Data.List.Sort
import EntitySchema.Proofs.Thawed.Value

/-!
# Arranged values

An arranged value has the entries of every mapping in the order of their keys, at every depth. Values
that differ in nothing but the order of entries are the same once they are arranged, so what is asked
of a value in any order can be asked of the arranged one.
-/

set_option autoImplicit false

namespace EntitySchema

namespace Value

/-! Entries in the order of their keys. -/

section Sorting

variable {α : Type}

def KeyLE (a b : Value × α) : Prop := a.1.plainText ≤ b.1.plainText

instance : DecidableRel (KeyLE (α := α)) := fun a b =>
  inferInstanceAs (Decidable (a.1.plainText ≤ b.1.plainText))

instance : IsTrans (Value × α) KeyLE := ⟨fun _ _ _ h h' => String.le_trans h h'⟩

instance : Std.Total (KeyLE (α := α)) := ⟨fun _ _ => String.le_total _ _⟩

def sortByKey (entries : List (Value × α)) : List (Value × α) := entries.insertionSort KeyLE

theorem sortByKey_perm (entries : List (Value × α)) : (sortByKey entries).Perm entries :=
  List.perm_insertionSort KeyLE entries

def DistinctTexts (entries : List (Value × α)) : Prop :=
  (entries.map (·.1.plainText)).Nodup ∧ ∀ e ∈ entries, e.1 = .text e.1.plainText

namespace DistinctTexts

variable {entries entries' : List (Value × α)}

theorem perm (h : DistinctTexts entries) (hp : entries.Perm entries') : DistinctTexts entries' :=
  ⟨(hp.map _).nodup_iff.mp h.1, fun e he => h.2 e (hp.mem_iff.mpr he)⟩

/-- There is one way only to put entries with distinct keys in order. -/
theorem eq_sortByKey (h : DistinctTexts entries) (hp : entries'.Perm entries)
    (hs : entries'.Pairwise KeyLE) : entries' = sortByKey entries := by
  refine List.Perm.eq_of_pairwise ?_ hs (List.pairwise_insertionSort KeyLE entries)
    (hp.trans (sortByKey_perm entries).symm)
  intro a b ha hb hab hba
  exact List.inj_on_of_nodup_map h.1 (hp.mem_iff.mp ha) ((sortByKey_perm entries).mem_iff.mp hb)
    (String.le_antisymm hab hba)

theorem sortByKey_eq (h : DistinctTexts entries) (hp : entries.Perm entries') :
    sortByKey entries = sortByKey entries' :=
  (h.perm hp).eq_sortByKey ((sortByKey_perm entries).trans hp)
    (List.pairwise_insertionSort KeyLE entries)

end DistinctTexts

end Sorting

theorem sortByKey_onValues (h : Value → Value) (entries : List (Value × Value)) :
    sortByKey (onValues h entries) = onValues h (sortByKey entries) :=
  (List.map_insertionSort KeyLE KeyLE (fun e => (e.1, h e.2)) entries fun _ _ _ _ => Iff.rfl).symm

theorem lookup_cons_of_ne {key : String} {e : Value × Value} (h : e.1 ≠ .text key)
    (entries : List (Value × Value)) : lookup key (e :: entries) = lookup key entries := by
  obtain ⟨k, v⟩ := e
  cases k with
  | text name => rw [lookup, if_neg fun hk => h (congrArg text hk)]
  | _ => rfl

/-- An entry only moves past entries with other keys. -/
theorem lookup_orderedInsert (key : String) (e : Value × Value) (entries : List (Value × Value)) :
    lookup key (entries.orderedInsert KeyLE e) = lookup key (e :: entries) := by
  induction entries with
  | nil => rfl
  | cons b entries ih =>
    rw [List.orderedInsert_cons]
    split
    · rfl
    · next hlt =>
      by_cases hb : b.1 = .text key
      · have he : e.1 ≠ .text key := by
          intro he
          have hkeys : e.1 = b.1 := he.trans hb.symm
          have hle : e.1.plainText ≤ b.1.plainText := hkeys ▸ String.le_refl _
          exact hlt hle
        obtain ⟨k, v⟩ := b
        dsimp only at hb
        rw [lookup_cons_of_ne he, hb, lookup, lookup, if_pos rfl, if_pos rfl]
      · have hskip : ∀ rest, lookup key (b :: rest) = lookup key rest := lookup_cons_of_ne hb
        rw [hskip, ih]
        obtain ⟨k, v⟩ := e
        cases k with
        | text name => rw [lookup, lookup, hskip]
        | _ => exact (hskip entries).symm

theorem lookup_sortByKey (key : String) (entries : List (Value × Value)) :
    lookup key (sortByKey entries) = lookup key entries := by
  induction entries with
  | nil => rfl
  | cons e entries ih =>
    have hcons : sortByKey (e :: entries) = (sortByKey entries).orderedInsert KeyLE e := rfl
    rw [hcons, lookup_orderedInsert]
    obtain ⟨k, v⟩ := e
    cases k with
    | text name => rw [lookup, lookup, ih]
    | _ => exact ih

/-! Entries with distinct text keys. -/

theorem textKeyed_iff {entries : List (Value × Value)} :
    TextKeyed entries ↔ DistinctTexts entries := by
  constructor
  · rintro ⟨names, hn, he⟩
    have hnames : entries.map (·.1.plainText) = names := by
      have htexts := congrArg (List.map plainText) he
      simpa [List.map_map, Function.comp_def, plainText] using htexts
    refine ⟨hnames ▸ hn, fun e hmem => ?_⟩
    have hkey : e.1 ∈ names.map Value.text := he ▸ List.mem_map_of_mem hmem
    obtain ⟨name, -, hname⟩ := List.mem_map.mp hkey
    rw [← hname]
    rfl
  · rintro ⟨hn, he⟩
    refine ⟨_, hn, ?_⟩
    rw [List.map_map]
    exact List.map_congr_left he

namespace TextKeyed

variable {entries entries' : List (Value × Value)}

theorem perm (h : TextKeyed entries) (hp : entries.Perm entries') : TextKeyed entries' :=
  textKeyed_iff.mpr ((textKeyed_iff.mp h).perm hp)

theorem onValues (h : TextKeyed entries) (f : Value → Value) : TextKeyed (onValues f entries) := by
  obtain ⟨names, hn, he⟩ := h
  refine ⟨names, hn, ?_⟩
  rw [← he, Value.onValues, List.map_map]
  rfl

theorem sortByKey (h : TextKeyed entries) : TextKeyed (sortByKey entries) :=
  h.perm (sortByKey_perm entries).symm

end TextKeyed

/-! Arranged values. -/

mutual

def arranged : Value → Value
  | .seq frozen items => .seq frozen (arrangedItems items)
  | .map views entries => .map views (sortByKey (arrangedEntries entries))
  | .call frozen name argsFrozen args => .call frozen name argsFrozen (arrangedItems args)
  | .null => .null
  | .bool b => .bool b
  | .int n => .int n
  | .float x => .float x
  | .text s => .text s
  | .bytes bs => .bytes bs
termination_by structural v => v

def arrangedItems : List Value → List Value
  | [] => []
  | v :: vs => arranged v :: arrangedItems vs
termination_by structural vs => vs

def arrangedEntries : List (Value × Value) → List (Value × Value)
  | [] => []
  | (k, v) :: es => (k, arranged v) :: arrangedEntries es
termination_by structural es => es

end

theorem arrangedItems_eq_map (vs : List Value) : arrangedItems vs = vs.map arranged := by
  induction vs with
  | nil => rfl
  | cons v vs ih => rw [arrangedItems, ih, List.map_cons]

theorem arrangedEntries_eq (es : List (Value × Value)) :
    arrangedEntries es = onValues arranged es := by
  induction es with
  | nil => rfl
  | cons e es ih => rw [arrangedEntries, ih]; rfl

theorem arranged_map (views : Nat) (entries : List (Value × Value)) :
    (Value.map views entries).arranged = .map views (sortByKey (onValues arranged entries)) := by
  rw [arranged, arrangedEntries_eq]

/-! What an arranged value says about itself. -/

theorem text?_arranged (v : Value) : v.arranged.text? = v.text? := by cases v <;> rfl

theorem bool?_arranged (v : Value) : v.arranged.bool? = v.bool? := by cases v <;> rfl

theorem nonEmptyText?_arranged (v : Value) : v.arranged.nonEmptyText? = v.nonEmptyText? := by
  cases v <;> rfl

theorem isMap_arranged (v : Value) : v.arranged.isMap = v.isMap := by cases v <;> rfl

theorem isNull_arranged (v : Value) : v.arranged.isNull = v.isNull := by cases v <;> rfl

theorem items?_arranged (v : Value) : v.arranged.items? = v.items?.map (List.map arranged) := by
  cases v with
  | seq frozen items => exact congrArg some (arrangedItems_eq_map items)
  | _ => rfl

/-- What stands under a key is found whatever the order. -/
theorem get_arranged (v : Value) (key : String) : v.arranged.get key = (v.get key).arranged := by
  cases v with
  | map views entries =>
    rw [arranged_map, get, get, lookup_sortByKey, lookup_onValues]
    cases lookup key entries <;> rfl
  | _ => rfl

theorem functionName?_arranged (v : Value) : v.arranged.functionName? = v.functionName? := by
  cases v with
  | map views entries =>
    have hget := get_arranged (.map views entries) "name"
    rw [arranged_map] at hget ⊢
    rw [functionName?, functionName?, hget, nonEmptyText?_arranged]
  | _ => rfl

/-! Documents and the order of entries. -/

mutual

/-- Whether all mappings in a value are plain ones with distinct texts as keys. -/
def JsonLike : Value → Prop
  | .seq _ items => JsonLikeItems items
  | .map views entries => views = 0 ∧ TextKeyed entries ∧ JsonLikeEntries entries
  | .call .. => False
  | _ => True
termination_by structural v => v

def JsonLikeItems : List Value → Prop
  | [] => True
  | v :: vs => JsonLike v ∧ JsonLikeItems vs
termination_by structural vs => vs

def JsonLikeEntries : List (Value × Value) → Prop
  | [] => True
  | (_, v) :: es => JsonLike v ∧ JsonLikeEntries es
termination_by structural es => es

end

theorem jsonLikeItems_iff {vs : List Value} : JsonLikeItems vs ↔ ∀ v ∈ vs, v.JsonLike := by
  induction vs with
  | nil => simp [JsonLikeItems]
  | cons v vs ih => rw [JsonLikeItems, ih, List.forall_mem_cons]

theorem jsonLikeEntries_iff {es : List (Value × Value)} :
    JsonLikeEntries es ↔ ∀ e ∈ es, e.2.JsonLike := by
  induction es with
  | nil => simp [JsonLikeEntries]
  | cons e es ih => rw [JsonLikeEntries, ih, List.forall_mem_cons]

mutual

theorem jsonLike_arranged : ∀ {v : Value}, v.JsonLike → v.arranged.JsonLike
  | .seq _ _, h => jsonLikeItems_arranged h
  | .map _ entries, h => by
    have hentries := jsonLikeEntries_iff.mp (jsonLikeEntries_arranged h.2.2)
    rw [arranged_map, JsonLike]
    refine ⟨h.1, (h.2.1.onValues arranged).sortByKey, jsonLikeEntries_iff.mpr fun e he => ?_⟩
    exact hentries e (arrangedEntries_eq entries ▸ (sortByKey_perm _).mem_iff.mp he)
  | .call .., h => h.elim
  | .null, _ => trivial
  | .bool _, _ => trivial
  | .int _, _ => trivial
  | .float _, _ => trivial
  | .text _, _ => trivial
  | .bytes _, _ => trivial

theorem jsonLikeItems_arranged : ∀ {vs : List Value}, JsonLikeItems vs →
    JsonLikeItems (arrangedItems vs)
  | [], _ => trivial
  | _ :: _, h => ⟨jsonLike_arranged h.1, jsonLikeItems_arranged h.2⟩

theorem jsonLikeEntries_arranged : ∀ {es : List (Value × Value)}, JsonLikeEntries es →
    JsonLikeEntries (arrangedEntries es)
  | [], _ => trivial
  | (_, _) :: _, h => ⟨jsonLike_arranged h.1, jsonLikeEntries_arranged h.2⟩

end

/-! Copies. -/

mutual

/-- A copy of an arranged value is the arranged copy. -/
theorem copy_arranged (frozen : Bool) : ∀ {v : Value}, v.JsonLike →
    copy frozen v.arranged = (copy frozen v).arranged
  | .seq _ _, h => by
    rw [arranged, copy, copy, arranged, copyItems_arranged frozen h]
  | .map _ entries, h => by
    have hkeyed := (h.2.1.onValues arranged).sortByKey
    rw [arranged_map, copy, copy, arranged_map, copyEntries_of_textKeyed hkeyed,
      storeAll_of_textKeyed (hkeyed.onValues _), copyEntries_of_textKeyed h.2.1,
      storeAll_of_textKeyed (h.2.1.onValues _), ← sortByKey_onValues,
      onValues_copy_arranged frozen h.2.2]
  | .call .., h => h.elim
  | .null, _ => rfl
  | .bool _, _ => rfl
  | .int _, _ => rfl
  | .float _, _ => rfl
  | .text _, _ => rfl
  | .bytes _, _ => rfl

theorem copyItems_arranged (frozen : Bool) : ∀ {vs : List Value}, JsonLikeItems vs →
    copyItems frozen (arrangedItems vs) = arrangedItems (copyItems frozen vs)
  | [], _ => rfl
  | _ :: _, h => by
    rw [arrangedItems, copyItems, copyItems, arrangedItems, copy_arranged frozen h.1,
      copyItems_arranged frozen h.2]

theorem onValues_copy_arranged (frozen : Bool) : ∀ {es : List (Value × Value)},
    JsonLikeEntries es →
    onValues (copy frozen) (onValues arranged es) = onValues arranged (onValues (copy frozen) es)
  | [], _ => rfl
  | (_, _) :: _, h => by
    rw [onValues, onValues, onValues, onValues, List.map_cons, List.map_cons, List.map_cons,
      List.map_cons, ← onValues, ← onValues, ← onValues, ← onValues, copy_arranged frozen h.1,
      onValues_copy_arranged frozen h.2]

end

end Value

end EntitySchema
