import EntitySchema.Proofs.Arranged.Value
import EntitySchema.Value.Preview

/-!
# Previews of arranged values

The preview of a value does not depend on the order of its entries: the JSON text of a mapping lists
them by key, at every depth, and a JSON-like value always has such a text. The text is the same at full
length, so it is cut at the same place.
-/

set_option autoImplicit false

namespace EntitySchema.Value

variable {α β : Type}

theorem mapM_of_forall_eq_some {f : α → Option β} {g : α → β} {as : List α}
    (h : ∀ a ∈ as, f a = some (g a)) : as.mapM f = some (as.map g) := by
  induction as with
  | nil => rfl
  | cons a as ih =>
    rw [List.forall_mem_cons] at h
    rw [List.mapM_cons, h.1, ih h.2]
    rfl

/-! Members. -/

/-- Sorting by texts that are taken along is sorting by key. -/
theorem sortEntries?_of_distinctTexts {members : List (Value × α)} (h : DistinctTexts members) :
    sortEntries? members = some (sortByKey members) := by
  have hkeyed : keyed? text? members = some (members.map fun m => (m.1.plainText, m)) := by
    refine mapM_of_forall_eq_some fun m hm => ?_
    rw [h.2 m hm]
    rfl
  have hsorted : ((members.map fun m => (m.1.plainText, m)).mergeSort
      fun a b => decide (a.1 ≤ b.1)).map (·.2) = sortByKey members := by
    have hperm := List.mergeSort_perm (members.map fun m => (m.1.plainText, m))
      fun a b => decide (a.1 ≤ b.1)
    have hpairwise : ((members.map fun m => (m.1.plainText, m)).mergeSort
        fun a b => decide (a.1 ≤ b.1)).Pairwise fun a b => decide (a.1 ≤ b.1) = true := by
      apply List.pairwise_mergeSort
      · intro a b c hab hbc
        exact decide_eq_true (String.le_trans (of_decide_eq_true hab) (of_decide_eq_true hbc))
      · intro a b
        simpa using String.le_total a.1 b.1
    refine h.eq_sortByKey ?_ (List.pairwise_map.mpr ?_)
    · have hmembers := hperm.map (·.2)
      rw [List.map_map] at hmembers
      exact hmembers.trans (.of_eq (List.map_id members))
    · refine hpairwise.imp_of_mem fun {a b} ha hb hab => ?_
      obtain ⟨m, -, rfl⟩ := List.mem_map.mp (hperm.mem_iff.mp ha)
      obtain ⟨n, -, rfl⟩ := List.mem_map.mp (hperm.mem_iff.mp hb)
      exact of_decide_eq_true hab
  unfold sortEntries?
  split
  · rfl
  · rfl
  · rw [hkeyed, ← hsorted]

/-- The order of distinct keys is all that there is to the order of members. -/
theorem jsonObject?_eq_of_perm {members members' : List (Value × String)}
    (h : DistinctTexts members) (hp : members.Perm members') :
    jsonObject? members = jsonObject? members' := by
  rw [jsonObject?, jsonObject?, sortEntries?_of_distinctTexts h,
    sortEntries?_of_distinctTexts (h.perm hp), h.sortByKey_eq hp]

theorem exists_jsonObject? {members : List (Value × String)} (h : DistinctTexts members) :
    ∃ text, jsonObject? members = some text := by
  have htexts : (sortByKey members).mapM (fun m => (jsonKey? m.1).map fun k =>
      jsonString k ++ ": " ++ m.2) =
        some ((sortByKey members).map fun m => jsonString m.1.plainText ++ ": " ++ m.2) := by
    refine mapM_of_forall_eq_some fun m hm => ?_
    rw [h.2 m ((sortByKey_perm members).mem_iff.mp hm)]
    rfl
  rw [jsonObject?, sortEntries?_of_distinctTexts h, Option.bind_eq_bind, Option.bind_some, htexts]
  exact ⟨_, rfl⟩

/-! The JSON text of a JSON-like value. -/

theorem keys_jsonMembers? {entries : List (Value × Value)} {members : List (Value × String)}
    (h : jsonMembers? entries = some members) : members.map (·.1) = entries.map (·.1) := by
  induction entries generalizing members with
  | nil => cases h; rfl
  | cons e entries ih =>
    obtain ⟨k, v⟩ := e
    simp only [jsonMembers?, Option.bind_eq_bind, Option.bind_eq_some_iff] at h
    obtain ⟨_, -, rest, hrest, hmembers⟩ := h
    cases hmembers
    rw [List.map_cons, List.map_cons, ih hrest]

theorem DistinctTexts.of_keys {members : List (Value × α)} {entries : List (Value × β)}
    (hkeys : members.map (·.1) = entries.map (·.1)) (h : DistinctTexts entries) :
    DistinctTexts members := by
  constructor
  · have hnames : members.map (·.1.plainText) = entries.map (·.1.plainText) := by
      simpa [List.map_map, Function.comp_def] using congrArg (List.map plainText) hkeys
    exact hnames ▸ h.1
  · intro m hm
    have hkey : m.1 ∈ entries.map (·.1) := hkeys ▸ List.mem_map_of_mem hm
    obtain ⟨e, he, hme⟩ := List.mem_map.mp hkey
    rw [← hme]
    exact h.2 e he

mutual

theorem exists_json? : ∀ {v : Value}, v.JsonLike → ∃ text, json? v = some text
  | .seq _ _, h => by
    obtain ⟨texts, htexts⟩ := exists_jsonItems? h
    rw [json?, htexts]
    exact ⟨_, rfl⟩
  | .map _ _, h => by
    obtain ⟨rfl, hkeyed, hentries⟩ := h
    obtain ⟨members, hmembers⟩ := exists_jsonMembers? hentries
    rw [json?, hmembers]
    exact exists_jsonObject? ((textKeyed_iff.mp hkeyed).of_keys (keys_jsonMembers? hmembers))
  | .call .., h => h.elim
  | .null, _ => ⟨_, rfl⟩
  | .bool _, _ => ⟨_, rfl⟩
  | .int _, _ => ⟨_, rfl⟩
  | .float _, _ => ⟨_, rfl⟩
  | .text _, _ => ⟨_, rfl⟩
  | .bytes _, _ => ⟨_, rfl⟩

theorem exists_jsonItems? : ∀ {vs : List Value}, JsonLikeItems vs →
    ∃ texts, jsonItems? vs = some texts
  | [], _ => ⟨[], rfl⟩
  | _ :: _, h => by
    obtain ⟨text, htext⟩ := exists_json? h.1
    obtain ⟨texts, htexts⟩ := exists_jsonItems? h.2
    rw [jsonItems?, htext, htexts]
    exact ⟨_, rfl⟩

theorem exists_jsonMembers? : ∀ {es : List (Value × Value)}, JsonLikeEntries es →
    ∃ members, jsonMembers? es = some members
  | [], _ => ⟨[], rfl⟩
  | (_, _) :: _, h => by
    obtain ⟨text, htext⟩ := exists_json? h.1
    obtain ⟨members, hmembers⟩ := exists_jsonMembers? h.2
    rw [jsonMembers?, htext, hmembers]
    exact ⟨_, rfl⟩

end

theorem json?_eq_fullText {v : Value} (h : v.JsonLike) : json? v = some v.fullText := by
  obtain ⟨text, htext⟩ := exists_json? h
  rw [fullText, htext, Option.getD_some]

theorem fullText_eq_of_json?_eq {v w : Value} (h : w.JsonLike) (hvw : json? v = json? w) :
    v.fullText = w.fullText := by
  rw [fullText, fullText, hvw, json?_eq_fullText h, Option.getD_some, Option.getD_some]

theorem jsonMembers?_eq {es : List (Value × Value)} (h : JsonLikeEntries es) :
    jsonMembers? es = some (es.map fun e => (e.1, e.2.fullText)) := by
  induction es with
  | nil => rfl
  | cons e es ih =>
    obtain ⟨k, v⟩ := e
    rw [jsonMembers?, json?_eq_fullText h.1, ih h.2]
    rfl

theorem jsonItems?_eq {vs : List Value} (h : JsonLikeItems vs) :
    jsonItems? vs = some (vs.map fullText) := by
  induction vs with
  | nil => rfl
  | cons v vs ih =>
    rw [jsonItems?, json?_eq_fullText h.1, ih h.2]
    rfl

/-! The text of an arranged value. -/

mutual

theorem json?_arranged : ∀ {v : Value}, v.JsonLike → json? v.arranged = json? v
  | .seq _ items, h => by
    rw [arranged, json?, json?, jsonItems?_eq (jsonLikeItems_arranged h), jsonItems?_eq h,
      map_fullText_arrangedItems h]
  | .map _ entries, h => by
    obtain ⟨rfl, hkeyed, hentries⟩ := h
    have harranged : (Value.map 0 entries).arranged.JsonLike :=
      jsonLike_arranged ⟨rfl, hkeyed, hentries⟩
    rw [arranged_map] at harranged ⊢
    rw [json?, json?, jsonMembers?_eq harranged.2.2, jsonMembers?_eq hentries]
    have hperm : (entries.map fun e => (e.1, e.2.fullText)).Perm
        ((sortByKey (onValues arranged entries)).map fun e => (e.1, e.2.fullText)) := by
      rw [← map_fullText_arrangedEntries hentries, arrangedEntries_eq]
      exact (sortByKey_perm _).symm.map _
    exact (jsonObject?_eq_of_perm ((textKeyed_iff.mp hkeyed).of_keys (by simp)) hperm).symm
  | .call .., h => h.elim
  | .null, _ => rfl
  | .bool _, _ => rfl
  | .int _, _ => rfl
  | .float _, _ => rfl
  | .text _, _ => rfl
  | .bytes _, _ => rfl

theorem map_fullText_arrangedItems : ∀ {vs : List Value}, JsonLikeItems vs →
    (arrangedItems vs).map fullText = vs.map fullText
  | [], _ => rfl
  | _ :: _, h => by
    rw [arrangedItems, List.map_cons, List.map_cons, fullText_eq_of_json?_eq h.1 (json?_arranged h.1),
      map_fullText_arrangedItems h.2]

theorem map_fullText_arrangedEntries : ∀ {es : List (Value × Value)}, JsonLikeEntries es →
    ((arrangedEntries es).map fun e => (e.1, e.2.fullText)) = es.map fun e => (e.1, e.2.fullText)
  | [], _ => rfl
  | (_, _) :: _, h => by
    rw [arrangedEntries, List.map_cons, List.map_cons,
      fullText_eq_of_json?_eq h.1 (json?_arranged h.1), map_fullText_arrangedEntries h.2]

end

/-- The preview of a JSON-like value does not depend on the order of entries. -/
theorem preview_arranged {v : Value} (h : v.JsonLike) : v.arranged.preview = v.preview := by
  rw [preview, preview, previewTo, previewTo, fullText_eq_of_json?_eq h (json?_arranged h)]

end EntitySchema.Value
