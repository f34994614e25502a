import EntitySchema.Proofs.Thawed.Value

/-!
# Copies of copies

A copy may be taken of a value or of a copy of it, with the same result. Where all keys are texts there is
nothing for a copy to change: it holds what the value holds, in the same order at every depth.
-/

set_option autoImplicit false

namespace EntitySchema

namespace Value

mutual

def TextKeyedThroughout : Value → Prop
  | .seq _ items => TextKeyedItems items
  | .map _ entries => TextKeyed entries ∧ TextKeyedValues entries
  | _ => True
termination_by structural v => v

def TextKeyedItems : List Value → Prop
  | [] => True
  | v :: vs => TextKeyedThroughout v ∧ TextKeyedItems vs
termination_by structural vs => vs

def TextKeyedValues : List (Value × Value) → Prop
  | [] => True
  | (_, v) :: es => TextKeyedThroughout v ∧ TextKeyedValues es
termination_by structural es => es

end

/-- No two entries are merged if the keys are distinct texts. -/
theorem storeAll_copyEntries {entries : List (Value × Value)} (h : TextKeyed entries) (frozen : Bool) :
    storeAll (copyEntries frozen entries) = onValues (copy frozen) entries := by
  rw [copyEntries_of_textKeyed h, storeAll_onValues, storeAll_of_textKeyed h]

mutual

/-- A copy of a value with text keys differs from it in nothing but what is frozen. -/
theorem thawed_copy_of_textKeyed (frozen : Bool) : ∀ {v : Value}, v.TextKeyedThroughout →
    (copy frozen v).thawed = v.thawed
  | .seq _ items, h => by
    rw [copy, thawed, thawed, thawedItems_copyItems_of_textKeyed frozen h]
  | .map _ entries, h => by
    -- The keys are distinct texts, so storing puts every entry where it was.
    rw [copy, thawed, thawed, storeAll_copyEntries h.1, thawedEntries_onValues_copy frozen h.2]
  | .call _ _ _ _, _ => rfl
  | .null, _ => rfl
  | .bool _, _ => rfl
  | .int _, _ => rfl
  | .float _, _ => rfl
  | .text _, _ => rfl
  | .bytes _, _ => rfl

theorem thawedItems_copyItems_of_textKeyed (frozen : Bool) : ∀ {vs : List Value}, TextKeyedItems vs →
    thawedItems (copyItems frozen vs) = thawedItems vs
  | [], _ => rfl
  | v :: vs, h => by
    rw [copyItems, thawedItems, thawedItems, thawed_copy_of_textKeyed frozen h.1,
      thawedItems_copyItems_of_textKeyed frozen h.2]

theorem thawedEntries_onValues_copy (frozen : Bool) : ∀ {es : List (Value × Value)},
    TextKeyedValues es → thawedEntries (onValues (copy frozen) es) = thawedEntries es
  | [], _ => rfl
  | (k, v) :: es, h => by
    rw [onValues, List.map_cons, ← onValues, thawedEntries, thawedEntries,
      thawed_copy_of_textKeyed frozen h.1, thawedEntries_onValues_copy frozen h.2]

end

/-- A copy of a copy is a copy of the value itself, also where several keys have one text. And a copy of a
value whose keys are all texts is the value again, but for what is frozen in it. -/
theorem copies_lossless :
    (∀ (first frozen : Bool) (v : Value), copy frozen (copy first v) = copy frozen v) ∧
    ∀ v : Value, v.TextKeyedThroughout → ∀ frozen, (copy frozen v).thawed = v.thawed :=
  ⟨copy_copy, fun _ h frozen => thawed_copy_of_textKeyed frozen h⟩

def drawer : Value :=
  .map 0 [(.int 1, .seq true [.text "a"]), (.text "x", .null),
    (.text "1", .map 2 [(.bool true, .null)])]

def labelled : Value :=
  .map 2 [(.text "z", .seq true [.map 0 [(.text "deep", .seq false [.int 1])]]), (.text "a", .null)]

theorem copies_lossless_drawers :
    copy false (copy true drawer) =
      .map 0 [(.text "1", .map 0 [(.text "True", .null)]), (.text "x", .null)] ∧
    labelled.TextKeyedThroughout ∧ (copy true labelled).thawed = labelled.thawed ∧
    copy true labelled = .map 1
      [(.text "z", .seq true [.map 1 [(.text "deep", .seq true [.int 1])]]), (.text "a", .null)] := by
  have hkeyed : labelled.TextKeyedThroughout :=
    ⟨⟨["z", "a"], by decide, rfl⟩,
      ⟨⟨⟨⟨["deep"], by decide, rfl⟩, ⟨⟨trivial, trivial⟩, trivial⟩⟩, trivial⟩, trivial, trivial⟩⟩
  obtain ⟨hcopies, hkept⟩ := copies_lossless
  refine ⟨?_, hkeyed, hkept labelled hkeyed true, rfl⟩
  rw [hcopies]
  rfl

end Value

end EntitySchema
