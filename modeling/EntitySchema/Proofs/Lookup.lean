import Mathlib.Data.List.Forall2
import Mathlib.Data.List.Nodup
import Mathlib.Data.List.Perm.Basic
import EntitySchema.Log.Distinct
import EntitySchema.Model.Basic
import EntitySchema.Relation.Reverse

/-!
# Lookups by name

An index that lists elements under their own names finds exactly the elements it was made from, once
the names are distinct. Names are distinct wherever a section is read, because of the nodes with one
name only the first is kept. If the names of the nodes are distinct to begin with, all of them are kept
and their order makes no difference but to the order of what is read.
-/

set_option autoImplicit false

namespace EntitySchema

variable {α ν : Type}

theorem findLast?_eq_some_iff {key : α → String} {xs : List α} (hn : (xs.map key).Nodup)
    (name : String) (a : α) :
    findLast? name (xs.map fun x => (key x, x)) = some a ↔ a ∈ xs ∧ key a = name := by
  unfold findLast?
  rw [← List.map_reverse, ← List.mem_reverse]
  rw [← List.nodup_reverse, ← List.map_reverse] at hn
  generalize xs.reverse = ys at hn ⊢
  induction ys with
  | nil => simp
  | cons y ys ih =>
    rw [List.map_cons, List.nodup_cons] at hn
    by_cases hy : name = key y
    · have hlast : a ∈ ys → key a ≠ name := fun ha he => hn.1 (hy ▸ he ▸ List.mem_map_of_mem ha)
      have hfirst : y = a → key a = name := fun he => by rw [← he, hy]
      have hb : (name == key y) = true := by simpa using hy
      simp only [List.map_cons, List.lookup_cons, hb, Option.some.injEq, List.mem_cons]
      constructor
      · exact fun h => ⟨Or.inl h.symm, hfirst h⟩
      · rintro ⟨h | h, he⟩
        · exact h.symm
        · exact absurd he (hlast h)
    · have hb : (name == key y) = false := by simpa using hy
      simp only [List.map_cons, List.lookup_cons, hb, ih hn.2, List.mem_cons]
      constructor
      · exact fun h => ⟨Or.inr h.1, h.2⟩
      · rintro ⟨rfl | h, he⟩
        · exact absurd he.symm hy
        · exact ⟨h, he⟩

theorem findLast?_isSome_iff (key : α → String) (xs : List α) (name : String) :
    (findLast? name (xs.map fun x => (key x, x))).isSome = true ↔ name ∈ xs.map key := by
  rw [findLast?, List.lookup_isSome_iff, List.mem_map]
  simp only [List.mem_reverse, List.mem_map, beq_iff_eq]
  constructor
  · rintro ⟨_, ⟨x, hx, rfl⟩, he⟩
    exact ⟨x, hx, he.symm⟩
  · rintro ⟨x, hx, he⟩
    exact ⟨(key x, x), ⟨x, hx, rfl⟩, he.symm⟩

theorem find?_eq_some_of_unique {p : α → Bool} {xs : List α} {a : α} (ha : a ∈ xs)
    (hp : p a = true) (hu : ∀ x ∈ xs, p x = true → x = a) : xs.find? p = some a := by
  obtain ⟨x, hx⟩ := Option.isSome_iff_exists.mp (List.find?_isSome.mpr ⟨a, ha, hp⟩)
  rw [hx, hu x (List.mem_of_find?_eq_some hx) (List.find?_some hx)]

theorem lookup_map_snd {β : Type} (h : α → β) (index : List (String × α)) (name : String) :
    (index.map fun e => (e.1, h e.2)).lookup name = (index.lookup name).map h := by
  induction index with
  | nil => rfl
  | cons e index ih =>
    rw [List.map_cons, List.lookup_cons, List.lookup_cons, ih]
    cases name == e.1 <;> rfl

/-- What is made of every entry is made of the entry that is found. -/
theorem findLast?_map_snd {β : Type} (h : α → β) (index : List (String × α)) (name : String) :
    findLast? name (index.map fun e => (e.1, h e.2)) = (findLast? name index).map h := by
  rw [findLast?, findLast?, ← List.map_reverse, lookup_map_snd]

/-! The first element with each key. -/

theorem mem_keys_firstByKey (key : α → String) (seen : List String) (xs : List α) (k : String) :
    k ∈ (firstByKey key seen xs).map key ↔ k ∈ xs.map key ∧ k ∉ seen := by
  induction xs generalizing seen with
  | nil => simp [firstByKey]
  | cons x xs ih =>
    rw [firstByKey]
    by_cases hx : key x ∈ seen
    · have hk : k = key x → k ∈ seen := fun h => h ▸ hx
      rw [if_pos (by simpa using hx), ih]
      simp only [List.map_cons, List.mem_cons]
      tauto
    · have hk : k = key x → k ∉ seen := fun h => h ▸ hx
      rw [if_neg (by simpa using hx), List.map_cons, List.mem_cons, ih]
      simp only [List.map_cons, List.mem_cons]
      tauto

theorem nodup_keys_firstByKey (key : α → String) (seen : List String) (xs : List α) :
    ((firstByKey key seen xs).map key).Nodup := by
  induction xs generalizing seen with
  | nil => exact List.nodup_nil
  | cons x xs ih =>
    rw [firstByKey]
    split
    · exact ih seen
    · rw [List.map_cons, List.nodup_cons]
      refine ⟨fun h => ?_, ih _⟩
      exact ((mem_keys_firstByKey key _ xs _).mp h).2 (by simp)

theorem mem_distinct (names : List String) (name : String) :
    name ∈ firstByKey id [] names ↔ name ∈ names := by
  simpa using mem_keys_firstByKey id [] names name

theorem nodup_distinct (names : List String) : (firstByKey id [] names).Nodup := by
  simpa using nodup_keys_firstByKey id [] names

section FirstByKey

variable {key : α → String} {seen : List String} {xs : List α}

theorem key_not_mem_of_mem_firstByKey {a : α} (h : a ∈ firstByKey key seen xs) : key a ∉ seen :=
  ((mem_keys_firstByKey key seen xs (key a)).mp (List.mem_map_of_mem h)).2

theorem firstByKey_sublist (key : α → String) (seen : List String) (xs : List α) :
    (firstByKey key seen xs).Sublist xs := by
  induction xs generalizing seen with
  | nil => exact .slnil
  | cons x xs ih =>
    rw [firstByKey]
    split
    · exact (ih seen).cons x
    · exact (ih (key x :: seen)).cons_cons x

theorem firstByKey_eq_self (hn : (xs.map key).Nodup) (hs : ∀ x ∈ xs, key x ∉ seen) :
    firstByKey key seen xs = xs := by
  induction xs generalizing seen with
  | nil => rfl
  | cons x xs ih =>
    rw [List.map_cons, List.nodup_cons] at hn
    rw [List.forall_mem_cons] at hs
    rw [firstByKey, if_neg (by simpa using hs.1)]
    congr 1
    apply ih hn.2
    intro y hy hmem
    rcases List.mem_cons.mp hmem with he | hseen
    · exact hn.1 (he ▸ List.mem_map_of_mem hy)
    · exact hs.2 y hy hseen

theorem find?_of_mem_firstByKey {a : α} (h : a ∈ firstByKey key seen xs) :
    xs.find? (fun x => key x == key a) = some a := by
  induction xs generalizing seen with
  | nil => cases h
  | cons x xs ih =>
    have hlater : ∀ {taken}, key x ∈ taken → a ∈ firstByKey key taken xs →
        (x :: xs).find? (fun x => key x == key a) = some a := by
      intro taken hx ha
      have hne : key x ≠ key a := fun he => key_not_mem_of_mem_firstByKey ha (he ▸ hx)
      rw [List.find?_cons_of_neg (by simpa using hne)]
      exact ih ha
    rw [firstByKey] at h
    split at h
    · next hx => exact hlater (by simpa using hx) h
    · rcases List.mem_cons.mp h with rfl | ha
      · exact List.find?_cons_of_pos (beq_self_eq_true _)
      · exact hlater List.mem_cons_self ha

end FirstByKey

theorem firstByKey_map {α β : Type} (key : β → String) (h : α → β) (seen : List String)
    (xs : List α) :
    firstByKey key seen (xs.map h) = (firstByKey (fun x => key (h x)) seen xs).map h := by
  induction xs generalizing seen with
  | nil => rfl
  | cons x xs ih =>
    rw [List.map_cons, firstByKey, firstByKey]
    split
    · exact ih seen
    · rw [ih, List.map_cons]

theorem firstByKey_id (seen xs : List String) :
    firstByKey id seen xs = (xs.filter fun x => !seen.contains x).eraseDups := by
  induction xs generalizing seen with
  | nil => rfl
  | cons x xs ih =>
    rw [firstByKey, ih, ih]
    by_cases hx : x ∈ seen
    · simp [hx]
    · have htaken : xs.filter (fun y => !(x :: seen).contains y) =
          (xs.filter fun y => !seen.contains y).filter fun y => !y == x := by
        rw [List.filter_filter]
        refine List.filter_congr fun y _ => ?_
        by_cases hy : y = x <;> simp [hy]
      rw [if_neg (by simpa using hx), List.filter_cons_of_pos (by simpa using hx),
        List.eraseDups_cons, id_eq, htaken]

theorem distinct_eq_eraseDups (names : List String) : firstByKey id [] names = names.eraseDups := by
  simpa using firstByKey_id [] names

theorem nodup_eraseDups (names : List String) : names.eraseDups.Nodup :=
  distinct_eq_eraseDups names ▸ nodup_distinct names

/-- The keys at which an element is kept are all keys, each where it occurs first. -/
theorem keys_firstByKey (key : α → String) (xs : List α) :
    (firstByKey key [] xs).map key = (xs.map key).eraseDups := by
  rw [← distinct_eq_eraseDups]
  exact (firstByKey_map id key [] xs).symm

theorem forall₂_firstByKey {β : Type} {r : α → β → Prop} {key : α → String} {key' : β → String}
    {xs : List α} {ys : List β} (h : List.Forall₂ r xs ys) (hkey : ∀ x y, r x y → key x = key' y)
    (seen : List String) : List.Forall₂ r (firstByKey key seen xs) (firstByKey key' seen ys) := by
  induction h generalizing seen with
  | nil => exact .nil
  | @cons x y _ _ hxy _ ih =>
    rw [firstByKey, firstByKey, hkey x y hxy]
    split
    · exact ih seen
    · exact .cons hxy (ih _)

/-! Sections. -/

namespace NodeReader

theorem keptFrom_eq_firstByKey (r : NodeReader ν α) (seen : List String) (nodes : List Value) :
    r.keptFrom seen nodes = firstByKey r.nameOf seen (nodes.filterMap r.shape?) := by
  induction nodes generalizing seen with
  | nil => rfl
  | cons node rest ih =>
    rw [keptFrom]
    cases hnode : r.shape? node with
    | none => rw [List.filterMap_cons_none hnode, ← ih]
    | some content =>
      rw [List.filterMap_cons_some hnode, firstByKey, ← ih, ← ih]

/-- Reading a section keeps the first node of each name, of those that have the right shape. -/
theorem readAll_eq_firstByKey (r : NodeReader ν α) (nodes : List Value) : (r.readAll nodes).value =
    (firstByKey r.nameOf [] (nodes.filterMap r.shape?)).map fun n => (r.read n).value := by
  rw [readAll, value_readFrom, keptFrom_eq_firstByKey]

section Names

variable (r : NodeReader ν α) (name : α → String) (h : ∀ n, name (r.read n).value = r.nameOf n)
  (nodes : List Value)
include h

theorem names_readAll : (r.readAll nodes).value.map name =
    ((nodes.filterMap r.shape?).map r.nameOf).eraseDups := by
  rw [readAll_eq_firstByKey, List.map_map, ← keys_firstByKey]
  exact List.map_congr_left fun n _ => h n

theorem nodup_names_readAll : ((r.readAll nodes).value.map name).Nodup := by
  rw [names_readAll r name h]
  exact nodup_eraseDups _

/-- What is read is read from the first node of its name. -/
theorem exists_first_of_mem_readAll {a : α} (ha : a ∈ (r.readAll nodes).value) :
    ∃ n, (nodes.filterMap r.shape?).find? (r.nameOf · == name a) = some n ∧
      a = (r.read n).value := by
  rw [readAll_eq_firstByKey] at ha
  obtain ⟨n, hn, rfl⟩ := List.mem_map.mp ha
  rw [h n]
  exact ⟨n, find?_of_mem_firstByKey hn, rfl⟩

end Names

/-- What is read comes from a node of the right shape. -/
theorem exists_node_of_mem_readAll (r : NodeReader ν α) (nodes : List Value) {a : α}
    (h : a ∈ (r.readAll nodes).value) :
    ∃ node ∈ nodes, ∃ n, r.shape? node = some n ∧ a = (r.read n).value := by
  rw [readAll_eq_firstByKey] at h
  obtain ⟨n, hn, rfl⟩ := List.mem_map.mp h
  obtain ⟨node, hmem, hshape⟩ := List.mem_filterMap.mp ((firstByKey_sublist _ _ _).mem hn)
  exact ⟨node, hmem, n, hshape, rfl⟩

theorem exists_read_of_mem_readAll (r : NodeReader ν α) (nodes : List Value) {a : α}
    (h : a ∈ (r.readAll nodes).value) : ∃ n, a = (r.read n).value := by
  obtain ⟨-, -, n, -, ha⟩ := exists_node_of_mem_readAll r nodes h
  exact ⟨n, ha⟩

/-- Nodes with different names are all kept. -/
theorem value_readAll (r : NodeReader ν α) {nodes : List Value}
    (hn : ((nodes.filterMap r.shape?).map r.nameOf).Nodup) :
    (r.readAll nodes).value = (nodes.filterMap r.shape?).map fun n => (r.read n).value := by
  rw [readAll_eq_firstByKey, firstByKey_eq_self hn fun _ _ => List.not_mem_nil]

theorem perm_readAll (r : NodeReader ν α) {nodes nodes' : List Value} (hp : nodes.Perm nodes')
    (hn : ((nodes.filterMap r.shape?).map r.nameOf).Nodup) :
    (r.readAll nodes).value.Perm (r.readAll nodes').value := by
  have hkept : (nodes.filterMap r.shape?).Perm (nodes'.filterMap r.shape?) := hp.filterMap _
  rw [value_readAll r hn, value_readAll r ((hkept.map _).nodup_iff.mp hn)]
  exact hkept.map _

/-- Nodes that correspond to each other under the same names are read as elements that do. -/
theorem forall₂_readAll {r r' : NodeReader ν α} {t : ν → ν → Prop} {u : α → α → Prop}
    {nodes nodes' : List Value}
    (h : List.Forall₂ t (nodes.filterMap r.shape?) (nodes'.filterMap r'.shape?))
    (hname : ∀ n n', t n n' → r.nameOf n = r'.nameOf n')
    (hread : ∀ n n', t n n' → u (r.read n).value (r'.read n').value) :
    List.Forall₂ u (r.readAll nodes).value (r'.readAll nodes').value := by
  rw [readAll_eq_firstByKey, readAll_eq_firstByKey]
  exact List.rel_map hread (forall₂_firstByKey h hname [])

end NodeReader

end EntitySchema
