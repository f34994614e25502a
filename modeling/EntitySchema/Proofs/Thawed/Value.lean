import Mathlib.Data.List.Nodup
import EntitySchema.Field.Reading
import EntitySchema.Relation.Edge

/-!
# Thawed values

A thawed value is a value that forgets which of its containers are frozen. Copies of a value differ in
nothing else: thawed, they are the open copy of the thawed value. The keys of a copy are distinct texts,
so a copy of a copy is a copy of the value itself, and the default that a field keeps is not altered
when it is copied once more.
-/

set_option autoImplicit false

namespace EntitySchema

namespace Value

mutual

def thawed : Value → Value
  | .seq _ items => .seq false (thawedItems items)
  | .map _ entries => .map 0 (thawedEntries entries)
  | .call _ name _ args => .call false name false (thawedItems args)
  | .null => .null
  | .bool b => .bool b
  | .int n => .int n
  | .float x => .float x
  | .text s => .text s
  | .bytes bs => .bytes bs
termination_by structural v => v

def thawedItems : List Value → List Value
  | [] => []
  | v :: vs => thawed v :: thawedItems vs
termination_by structural vs => vs

def thawedEntries : List (Value × Value) → List (Value × Value)
  | [] => []
  | (k, v) :: es => (k, thawed v) :: thawedEntries es
termination_by structural es => es

end

def onValues (h : Value → Value) (entries : List (Value × Value)) : List (Value × Value) :=
  entries.map fun e => (e.1, h e.2)

theorem thawedEntries_eq (es : List (Value × Value)) : thawedEntries es = onValues thawed es := by
  induction es with
  | nil => rfl
  | cons e es ih => rw [thawedEntries, ih]; rfl

/-! What a thawed default says about itself. -/

theorem isNull_thawed (v : Value) : v.thawed.isNull = v.isNull := by cases v <;> rfl

theorem lookup_onValues (h : Value → Value) (key : String) (entries : List (Value × Value)) :
    lookup key (onValues h entries) = (lookup key entries).map h := by
  induction entries with
  | nil => rfl
  | cons e entries ih =>
    obtain ⟨k, v⟩ := e
    cases k with
    | text name =>
      rw [onValues, List.map_cons, lookup, lookup, ← onValues, ih]
      split <;> rfl
    | _ => exact ih

theorem nonEmptyText?_thawed (v : Value) : v.thawed.nonEmptyText? = v.nonEmptyText? := by
  cases v <;> rfl

theorem functionName?_thawed (v : Value) : v.thawed.functionName? = v.functionName? := by
  cases v with
  | map views entries =>
    rw [thawed, functionName?, functionName?, get, get, thawedEntries_eq, lookup_onValues]
    cases lookup "name" entries with
    | none => rfl
    | some value => exact nonEmptyText?_thawed value
  | _ => rfl

theorem isDatabaseDefault_thawed (v : Value) : v.thawed.isDatabaseDefault = v.isDatabaseDefault := by
  rw [isDatabaseDefault, isDatabaseDefault, functionName?_thawed]

/-! What is stored, and under which keys. -/

theorem store_onValues (h : Value → Value) (key value : Value) (entries : List (Value × Value)) :
    store key (h value) (onValues h entries) = onValues h (store key value entries) := by
  induction entries with
  | nil => rfl
  | cons e entries ih =>
    rw [store, onValues, List.map_cons, store]
    split
    · rfl
    · rw [← onValues, ih]
      rfl

theorem storeAll_onValues (h : Value → Value) (pairs : List (Value × Value)) :
    storeAll (onValues h pairs) = onValues h (storeAll pairs) := by
  have hfold : ∀ entries, (onValues h pairs).foldl (fun found p => store p.1 p.2 found)
      (onValues h entries) =
        onValues h (pairs.foldl (fun found p => store p.1 p.2 found) entries) := by
    induction pairs with
    | nil => exact fun _ => rfl
    | cons p pairs ih =>
      intro entries
      have hcons : onValues h (p :: pairs) = (p.1, h p.2) :: onValues h pairs := rfl
      rw [hcons, List.foldl_cons, store_onValues, ih]
      rfl
  exact hfold []

def TextKeyed (entries : List (Value × Value)) : Prop :=
  ∃ names : List String, names.Nodup ∧ entries.map (·.1) = names.map .text

theorem sameKey_text (s t : String) : sameKey (.text s) (.text t) = (s == t) := rfl

theorem keys_store (key : String) (value : Value) {entries : List (Value × Value)}
    {names : List String} (h : entries.map (·.1) = names.map .text) :
    (store (.text key) value entries).map (·.1) =
      (if key ∈ names then names else names ++ [key]).map .text := by
  induction entries generalizing names with
  | nil =>
    cases names with
    | nil => rfl
    | cons name names => cases h
  | cons e entries ih =>
    cases names with
    | nil => cases h
    | cons name names =>
      obtain ⟨k, v⟩ := e
      rw [List.map_cons, List.map_cons, List.cons.injEq] at h
      obtain ⟨hk, hrest⟩ := h
      dsimp only at hk
      subst hk
      rw [store, sameKey_text]
      by_cases hname : name = key
      · subst hname
        simp [hrest]
      · rw [if_neg (by simpa using hname), List.map_cons, ih hrest]
        have hmem : key ∈ name :: names ↔ key ∈ names := by simp [Ne.symm hname]
        by_cases hin : key ∈ names <;> simp [hmem, hin]

theorem TextKeyed.store {entries : List (Value × Value)} (h : TextKeyed entries) (key : String)
    (value : Value) : TextKeyed (store (.text key) value entries) := by
  obtain ⟨names, hn, he⟩ := h
  refine ⟨_, ?_, keys_store key value he⟩
  split
  · exact hn
  · next hnew =>
    rw [List.nodup_append]
    exact ⟨hn, List.nodup_singleton _, by
      rintro a ha b hb rfl
      exact hnew (List.mem_singleton.mp hb ▸ ha)⟩

theorem textKeyed_storeAll {pairs : List (Value × Value)}
    (h : ∀ p ∈ pairs, ∃ name, p.1 = .text name) : TextKeyed (storeAll pairs) := by
  have hfold : ∀ entries, TextKeyed entries →
      TextKeyed (pairs.foldl (fun found p => store p.1 p.2 found) entries) := by
    induction pairs with
    | nil => exact fun _ he => he
    | cons p pairs ih =>
      intro entries he
      rw [List.forall_mem_cons] at h
      obtain ⟨⟨name, hname⟩, hrest⟩ := h
      rw [List.foldl_cons, hname]
      exact ih hrest _ (he.store name p.2)
  exact hfold [] ⟨[], List.nodup_nil, rfl⟩

theorem store_of_not_mem {key : String} {entries : List (Value × Value)} {names : List String}
    (h : entries.map (·.1) = names.map .text) (hk : key ∉ names) (value : Value) :
    store (.text key) value entries = entries ++ [(.text key, value)] := by
  induction entries generalizing names with
  | nil => rfl
  | cons e entries ih =>
    cases names with
    | nil => cases h
    | cons name names =>
      obtain ⟨k, v⟩ := e
      rw [List.map_cons, List.map_cons, List.cons.injEq] at h
      obtain ⟨hname, hrest⟩ := h
      dsimp only at hname
      subst hname
      rw [List.mem_cons, not_or] at hk
      rw [store, sameKey_text, if_neg (by simpa using Ne.symm hk.1), ih hrest hk.2]
      rfl

/-- Entries with distinct keys are stored as they stand. -/
theorem storeAll_of_textKeyed {entries : List (Value × Value)} (h : TextKeyed entries) :
    storeAll entries = entries := by
  obtain ⟨names, hn, he⟩ := h
  -- What is stored already has other keys than what is left, so each entry is put behind it.
  have hfold : ∀ front : List (Value × Value), ∀ before : List String,
      front.map (·.1) = before.map .text → (before ++ names).Nodup →
        entries.foldl (fun found p => store p.1 p.2 found) front = front ++ entries := by
    induction entries generalizing names with
    | nil => intro front before _ _; simp
    | cons e entries ih =>
      intro front before hfront hnodup
      cases names with
      | nil => cases he
      | cons name names =>
        obtain ⟨k, v⟩ := e
        rw [List.map_cons, List.map_cons, List.cons.injEq] at he
        obtain ⟨hname, hrest⟩ := he
        dsimp only at hname
        subst hname
        have hnew : name ∉ before := by
          intro hin
          exact (List.nodup_append.mp hnodup).2.2 name hin name List.mem_cons_self rfl
        rw [List.foldl_cons, store_of_not_mem hfront hnew,
          ih names (List.nodup_cons.mp hn).2 hrest _ (before ++ [name]) (by simp [hfront])
            (by simpa using hnodup)]
        simp
  exact hfold [] [] rfl hn

/-! Copies. -/

theorem textKeyed_storeAll_copyEntries (frozen : Bool) (es : List (Value × Value)) :
    TextKeyed (storeAll (copyEntries frozen es)) := by
  apply textKeyed_storeAll
  rw [copyEntries_eq_map]
  exact List.forall_mem_map.mpr fun e _ => ⟨_, rfl⟩

theorem copyEntries_of_textKeyed {entries : List (Value × Value)} (h : TextKeyed entries)
    (frozen : Bool) : copyEntries frozen entries = onValues (copy frozen) entries := by
  obtain ⟨names, -, he⟩ := h
  rw [copyEntries_eq_map, onValues]
  refine List.map_congr_left fun e hmem => ?_
  have hkey : e.1 ∈ names.map Value.text := he ▸ List.mem_map_of_mem hmem
  obtain ⟨name, -, hname⟩ := List.mem_map.mp hkey
  rw [← hname]
  rfl

mutual

/-- Thawed copies are open copies of the thawed value. -/
theorem thawed_copy (frozen : Bool) : ∀ v : Value, (copy frozen v).thawed = copy false v.thawed
  | .seq _ items => by
    rw [copy, thawed, thawed, copy, thawedItems_copyItems]
  | .map _ entries => by
    rw [copy, thawed, thawed, copy, thawedEntries_eq, ← storeAll_onValues,
      onValues_thawed_copyEntries]
    rfl
  | .call _ _ _ args => by
    rw [copy, thawed, copy]
  | .null => rfl
  | .bool _ => rfl
  | .int _ => rfl
  | .float _ => rfl
  | .text _ => rfl
  | .bytes _ => rfl

theorem thawedItems_copyItems (frozen : Bool) : ∀ vs : List Value,
    thawedItems (copyItems frozen vs) = copyItems false (thawedItems vs)
  | [] => rfl
  | v :: vs => by
    rw [copyItems, thawedItems, thawedItems, copyItems, thawed_copy frozen v,
      thawedItems_copyItems frozen vs]

theorem onValues_thawed_copyEntries (frozen : Bool) : ∀ es : List (Value × Value),
    onValues thawed (copyEntries frozen es) = copyEntries false (thawedEntries es)
  | [] => rfl
  | (k, v) :: es => by
    rw [copyEntries, thawedEntries, copyEntries, ← onValues_thawed_copyEntries frozen es,
      ← thawed_copy frozen v]
    rfl

end

mutual

theorem copy_copy (first frozen : Bool) : ∀ v : Value, copy frozen (copy first v) = copy frozen v
  | .seq _ items => by
    rw [copy, copy, copy, copyItems_copyItems]
  | .map _ entries => by
    -- The first copy has text keys, which the second keeps, and no two that it would merge.
    rw [copy, copy, copy, copyEntries_of_textKeyed (textKeyed_storeAll_copyEntries first entries),
      ← storeAll_onValues, onValues_copy_copyEntries,
      storeAll_of_textKeyed (textKeyed_storeAll_copyEntries frozen entries)]
  | .call _ _ _ _ => rfl
  | .null => rfl
  | .bool _ => rfl
  | .int _ => rfl
  | .float _ => rfl
  | .text _ => rfl
  | .bytes _ => rfl

theorem copyItems_copyItems (first frozen : Bool) : ∀ vs : List Value,
    copyItems frozen (copyItems first vs) = copyItems frozen vs
  | [] => rfl
  | v :: vs => by
    rw [copyItems, copyItems, copyItems, copy_copy first frozen v,
      copyItems_copyItems first frozen vs]

theorem onValues_copy_copyEntries (first frozen : Bool) : ∀ es : List (Value × Value),
    onValues (copy frozen) (copyEntries first es) = copyEntries frozen es
  | [] => rfl
  | (k, v) :: es => by
    rw [copyEntries, copyEntries, ← onValues_copy_copyEntries first frozen es,
      ← copy_copy first frozen v]
    rfl

end

/-- Whatever is frozen, copies of one value hold the same. -/
theorem thawed_copy_eq (frozen frozen' : Bool) (v : Value) :
    (copy frozen v).thawed = (copy frozen' v).thawed :=
  (thawed_copy frozen v).trans (thawed_copy frozen' v).symm

/-! Defaults. -/

theorem thawedItems_map_copy (frozen : Bool) (vs : List Value) :
    thawedItems (vs.map (copy frozen)) = (thawedItems vs).map (copy false) := by
  rw [← copyItems_eq_map, thawedItems_copyItems, copyItems_eq_map]

theorem thawed_copyDefault (frozen : Bool) (v : Value) :
    (v.copyDefault frozen).thawed = v.thawed.copyDefault false := by
  cases v with
  | call f name g args =>
    rw [copyDefault, thawed, thawed, copyDefault, thawedItems_map_copy]
  | seq => exact thawed_copy frozen _
  | map => exact thawed_copy frozen _
  | _ => rfl

/-- Copying a kept default changes nothing but what is frozen. -/
theorem thawed_copyDefault_keptDefault (frozen kept : Bool) (owner : String) (raw : Value) :
    ((raw.keptDefault kept owner).value.copyDefault frozen).thawed =
      (raw.keptDefault kept owner).value.thawed := by
  cases raw with
  | map views entries =>
    unfold keptDefault
    dsimp only
    split
    · next node _ =>
      have hargs : (node.args.map (copy kept)).map (copy frozen) = node.args.map (copy frozen) := by
        rw [List.map_map]
        exact List.map_congr_left fun v _ => copy_copy kept frozen v
      rw [Logged.value_pure, copyDefault, hargs, thawed, thawed, thawedItems_map_copy,
        thawedItems_map_copy]
    · rfl
  | seq f items =>
    have hcopy : copy frozen (copy kept (.seq f items)) = copy frozen (.seq f items) :=
      copy_copy kept frozen _
    exact (congrArg thawed hcopy).trans (thawed_copy_eq frozen kept _)
  | _ => rfl

end Value

end EntitySchema
