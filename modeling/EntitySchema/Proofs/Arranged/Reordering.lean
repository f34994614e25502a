import Mathlib.Logic.Relation
import EntitySchema.Proofs.Arranged.Value

/-!
# Reordered entries

What it means that values differ in nothing but the order of entries: one is made of the other by moving
the entries of one mapping after another. Reordered documents are arranged alike; and since every value
can be put in arranged order this way, values that are arranged alike differ in nothing else.
-/

set_option autoImplicit false

namespace EntitySchema.Value

/-- Whether two values differ in the order of the entries of one mapping, which may lie at any
depth. -/
inductive EntriesMoved : Value → Value → Prop
  | here {views : Nat} {entries entries' : List (Value × Value)} (h : entries.Perm entries') :
    EntriesMoved (.map views entries) (.map views entries')
  | inItem {frozen : Bool} {v w : Value} (before after : List Value) (h : EntriesMoved v w) :
    EntriesMoved (.seq frozen (before ++ v :: after)) (.seq frozen (before ++ w :: after))
  | underKey {views : Nat} {key v w : Value} (before after : List (Value × Value))
    (h : EntriesMoved v w) :
    EntriesMoved (.map views (before ++ (key, v) :: after)) (.map views (before ++ (key, w) :: after))
  | inArgument {frozen argsFrozen : Bool} {name : String} {v w : Value} (before after : List Value)
    (h : EntriesMoved v w) : EntriesMoved (.call frozen name argsFrozen (before ++ v :: after))
      (.call frozen name argsFrozen (before ++ w :: after))

def EntriesReordered : Value → Value → Prop := Relation.ReflTransGen EntriesMoved

/-- Moving the entries of one mapping leaves a value what it is and how it is arranged. -/
theorem EntriesMoved.arranged_eq {v w : Value} (hm : EntriesMoved v w) (hv : v.JsonLike) :
    w.JsonLike ∧ v.arranged = w.arranged := by
  induction hm with
  | here hp =>
    obtain ⟨hviews, hkeyed, hentries⟩ := hv
    rw [jsonLikeEntries_iff] at hentries
    refine ⟨⟨hviews, hkeyed.perm hp,
      jsonLikeEntries_iff.mpr fun e he => hentries e (hp.mem_iff.mpr he)⟩, ?_⟩
    have hsorted := (textKeyed_iff.mp (hkeyed.onValues arranged)).sortByKey_eq (hp.map _)
    rw [arranged_map, arranged_map, hsorted]
    rfl
  | inItem before after _ ih =>
    have hitems := jsonLikeItems_iff.mp hv
    obtain ⟨hw, hvw⟩ := ih (hitems _ (by simp))
    refine ⟨jsonLikeItems_iff.mpr ?_, ?_⟩
    · simp only [List.forall_mem_append, List.forall_mem_cons] at hitems ⊢
      exact ⟨hitems.1, hw, hitems.2.2⟩
    · simp only [arranged, arrangedItems_eq_map, List.map_append, List.map_cons, hvw]
  | @underKey _ key v w before after _ ih =>
    obtain ⟨hviews, ⟨names, hn, hkeys⟩, hentries⟩ := hv
    rw [jsonLikeEntries_iff] at hentries
    obtain ⟨hw, hvw⟩ := ih (hentries (key, v) (by simp))
    refine ⟨⟨hviews, ⟨names, hn, by simpa using hkeys⟩, jsonLikeEntries_iff.mpr ?_⟩, ?_⟩
    · simp only [List.forall_mem_append, List.forall_mem_cons] at hentries ⊢
      exact ⟨hentries.1, hw, hentries.2.2⟩
    · simp only [arranged_map, onValues, List.map_append, List.map_cons, hvw]
  | inArgument => exact hv.elim

/-- However the entries are reordered, the arranged value is the same. -/
theorem EntriesReordered.arranged_eq {v w : Value} (h : v.EntriesReordered w) (hv : v.JsonLike) :
    w.JsonLike ∧ v.arranged = w.arranged := by
  induction h with
  | refl => exact ⟨hv, rfl⟩
  | tail _ hm ih =>
    obtain ⟨hmiddle, heq⟩ := ih
    obtain ⟨hw, hlast⟩ := hm.arranged_eq hmiddle
    exact ⟨hw, heq.trans hlast⟩

/-! Arranging as reordering. -/

theorem EntriesMoved.symm {v w : Value} (h : EntriesMoved v w) : EntriesMoved w v := by
  induction h with
  | here hp => exact .here hp.symm
  | inItem before after _ ih => exact .inItem before after ih
  | underKey before after _ ih => exact .underKey before after ih
  | inArgument before after _ ih => exact .inArgument before after ih

instance : Std.Symm EntriesMoved := ⟨fun _ _ => EntriesMoved.symm⟩

namespace EntriesReordered

theorem symm {v w : Value} (h : v.EntriesReordered w) : w.EntriesReordered v :=
  Std.Symm.symm (r := Relation.ReflTransGen EntriesMoved) _ _ h

/-- What is reordered part by part is reordered as a whole. -/
theorem of_parts {α : Type} {moved : α → α → Prop} {whole : List α → Value}
    (hwhole : ∀ before after a b, moved a b →
      EntriesMoved (whole (before ++ a :: after)) (whole (before ++ b :: after)))
    {parts parts' : List α} (h : List.Forall₂ (Relation.ReflTransGen moved) parts parts')
    (before : List α) :
    (whole (before ++ parts)).EntriesReordered (whole (before ++ parts')) := by
  -- The parts are reordered from the front; those that are done already stand before the others.
  induction h generalizing before with
  | nil => exact .refl
  | @cons a b rest rest' hab _ ih =>
    have hfirst : (whole (before ++ a :: rest)).EntriesReordered (whole (before ++ b :: rest)) :=
      hab.lift (fun part => whole (before ++ part :: rest)) (hwhole before rest)
    have hrest := ih (before ++ [b])
    rw [List.append_assoc, List.append_assoc] at hrest
    exact hfirst.trans hrest

end EntriesReordered

def EntryMoved (a b : Value × Value) : Prop := a.1 = b.1 ∧ EntriesMoved a.2 b.2

mutual

/-- A value is put in arranged order by reordering entries. -/
theorem entriesReordered_arranged : ∀ v : Value, v.EntriesReordered v.arranged
  | .seq _ items =>
    .of_parts (fun before after _ _ h => .inItem before after h) (forall₂_arrangedItems items) []
  | .call _ _ _ args =>
    .of_parts (fun before after _ _ h => .inArgument before after h) (forall₂_arrangedItems args) []
  | .map views entries => by
    have hvalues : (Value.map views entries).EntriesReordered
        (.map views (arrangedEntries entries)) := by
      refine .of_parts (fun before after a b h => ?_) (forall₂_arrangedEntries entries) []
      obtain ⟨k, v⟩ := a
      obtain ⟨_, w⟩ := b
      obtain ⟨rfl, hvw⟩ := h
      exact .underKey before after hvw
    exact hvalues.tail (.here (sortByKey_perm _).symm)
  | .null => .refl
  | .bool _ => .refl
  | .int _ => .refl
  | .float _ => .refl
  | .text _ => .refl
  | .bytes _ => .refl

theorem forall₂_arrangedItems : ∀ vs : List Value,
    List.Forall₂ EntriesReordered vs (arrangedItems vs)
  | [] => .nil
  | v :: vs => .cons (entriesReordered_arranged v) (forall₂_arrangedItems vs)

theorem forall₂_arrangedEntries : ∀ es : List (Value × Value),
    List.Forall₂ (Relation.ReflTransGen EntryMoved) es (arrangedEntries es)
  | [] => .nil
  | (k, v) :: es =>
    .cons ((entriesReordered_arranged v).lift (Prod.mk k) fun _ _ h => ⟨rfl, h⟩)
      (forall₂_arrangedEntries es)

end

/-- Values that are arranged alike differ in nothing but the order of entries. -/
theorem entriesReordered_of_arranged_eq {v w : Value} (h : v.arranged = w.arranged) :
    v.EntriesReordered w := by
  have hw := (entriesReordered_arranged w).symm
  rw [← h] at hw
  exact (entriesReordered_arranged v).trans hw

end EntitySchema.Value
