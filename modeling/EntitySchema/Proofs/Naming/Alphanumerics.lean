import Mathlib
import EntitySchema.Proofs.NameCollisions
import EntitySchema.Proofs.Naming.Snake
import EntitySchema.Proofs.Naming.Tokens

/-!
# Letters and digits of a name

Taking a name apart into words drops its separators and nothing else, whichever cut rule ends the words.
So every style keeps the letters and digits of a name in their order and may only change their case, and
names with one spelling have the same letters and digits.
-/

set_option autoImplicit false

namespace EntitySchema

namespace Naming

def alphanumerics (cs : List Char) : List Char := lowered (cs.filter Char.isAlphanum)

section Keeping

variable {s : Char} {ws : List (List Char)}

theorem flatten_extendFirst (c : Char) (ws : List (List Char)) :
    (extendFirst c ws).flatten = c :: ws.flatten := by
  cases ws with
  | nil => rfl
  | cons w ws => rfl

/-- A character of a word ends it or goes in front of the next one, and no other character is kept. -/
theorem flatten_solidWords (cut : CutRule) (cs : List Char) :
    (solidWords cut cs).flatten = cs.filter Char.isAlphanum := by
  induction cs with
  | nil => rfl
  | cons a cs ih =>
    by_cases ha : a.isAlphanum = true
    · rw [List.filter_cons_of_pos ha, ← ih]
      by_cases hends : wordEnds cut a cs = true
      · rw [solidWords_end ha hends, List.flatten_cons]
        rfl
      · rw [Bool.not_eq_true] at hends
        rw [solidWords_extend ha hends, flatten_extendFirst]
    · rw [List.filter_cons_of_neg ha, ← ih, solidWords_separator (by simpa [isWordChar] using ha)]

theorem flatten_words (cut : CutRule) (cs : List Char) :
    (words cut cs).flatten = alphanumerics cs := by
  rw [alphanumerics, ← flatten_solidWords cut, lowered, List.map_flatten]
  rfl

/-- Without separators the joined words are their characters. -/
theorem filter_joinWith (h : ∀ w ∈ ws, s ∉ w) : (joinWith s ws).filter (· != s) = ws.flatten := by
  induction ws with
  | nil => rfl
  | cons w ws ih =>
    obtain ⟨hw, hrest⟩ := List.forall_mem_cons.mp h
    have hkept : w.filter (· != s) = w := by
      refine List.filter_eq_self.mpr fun c hc => bne_iff_ne.mpr ?_
      rintro rfl
      exact hw hc
    rcases eq_or_ne ws [] with rfl | hws
    · simpa using hkept
    · rw [joinWith_cons hws, List.filter_append, hkept, List.filter_cons_of_neg (by simp), ih hrest,
        List.flatten_cons]

theorem filter_joinWith_words (hs : isWordChar s = false) (cut : CutRule) (cs : List Char) :
    (joinWith s (words cut cs)).filter (· != s) = alphanumerics cs := by
  rw [filter_joinWith, flatten_words]
  intro w hw hmem
  exact Bool.false_ne_true (hs.symm.trans (isWordChar_of_mem_words hw hmem))

end Keeping

/-! Camel case has no separators, and what it changes is the case of letters. -/

theorem lowered_lowered (cs : List Char) : lowered (lowered cs) = lowered cs := by
  simp [lowered]

theorem lowered_append (as bs : List Char) : lowered (as ++ bs) = lowered as ++ lowered bs :=
  List.map_append

theorem lowered_capitalized (w : List Char) : lowered (capitalized w) = lowered w := by
  cases w with
  | nil => rfl
  | cons c w => simp [lowered, capitalized]

theorem lowered_flatMap_capitalized (ws : List (List Char)) :
    lowered (ws.flatMap capitalized) = lowered ws.flatten := by
  induction ws with
  | nil => rfl
  | cons w ws ih =>
    rw [List.flatMap_cons, List.flatten_cons, lowered_append, lowered_append, lowered_capitalized, ih]

theorem lowered_camel (cs : List Char) : lowered (camel cs) = alphanumerics cs := by
  have hcase : lowered (camel cs) = lowered (tokens cs).flatten := by
    rw [camel]
    cases tokens cs with
    | nil => rfl
    | cons first rest =>
      rw [List.flatten_cons, lowered_append, lowered_append, lowered_flatMap_capitalized]
  rw [hcase, tokens_eq, flatten_words, alphanumerics, lowered_lowered]

theorem isAlphanum_of_mem_camel {cs : List Char} {c : Char} (h : c ∈ camel cs) :
    c.isAlphanum = true := by
  -- Lower-cased it is one of the letters and digits, and if it is no capital it was lower-cased before.
  have hmem : c.toLower ∈ alphanumerics cs := by
    rw [← lowered_camel]
    exact List.mem_map_of_mem h
  obtain ⟨d, hd, hcase⟩ := List.mem_map.mp hmem
  by_cases hc : c.isUpper = true
  · exact isWordChar_of_isUpper hc
  · rw [Bool.not_eq_true] at hc
    rw [← toLower_of_not_isUpper hc, ← hcase]
    exact isAlphanum_toLower (List.mem_filter.mp hd).2

theorem toNat_lt_of_isAlphanum {c : Char} (h : c.isAlphanum = true) : c.toNat < 0x80 := by
  rw [isAlphanum_iff, isUpper_iff, isLower_iff, isDigit_iff] at h
  omega

end Naming

open Naming

namespace Text

/-- The rules for single letters of other scripts do not apply to ASCII. -/
theorem lower_eq_of_ascii {cs : List Char} (h : ∀ c ∈ cs, c.toNat < 0x80) : lower cs = lowered cs := by
  suffices hfrom : ∀ before, lowerFrom before cs = lowered cs from hfrom []
  induction cs with
  | nil => exact fun _ => rfl
  | cons c cs ih =>
    obtain ⟨hc, hcs⟩ := List.forall_mem_cons.mp h
    have hsigma : c ≠ 'Σ' := by
      rintro rfl
      exact absurd hc (by decide)
    intro before
    rw [lowerFrom, if_neg hsigma, lowerChar, if_pos hc, ih hcs]
    rfl

end Text

def Report.PairsFields (r : Report) (first second : String) : Prop :=
  ∃ i ∈ r.issues, i.code = "FIELD_NAME_COLLISION" ∧
    (.text "fields", Finding.texts [first, second]) ∈ i.context

theorem filter_snakeCase (name : String) :
    (snakeCase name).toList.filter (· != '_') = alphanumerics name.toList := by
  rw [snakeCase, String.toList_ofList, snake_eq, filter_joinWith_words rfl]

theorem filter_kebabCase (name : String) :
    (kebabCase name).toList.filter (· != '-') = alphanumerics name.toList := by
  rw [kebabCase, String.toList_ofList, kebab_eq, filter_joinWith_words rfl]

theorem lowerText_camelCase (name : String) :
    (lowerText (camelCase name)).toList = alphanumerics name.toList := by
  rw [lowerText, camelCase, String.toList_ofList, String.toList_ofList, Text.lower_eq_of_ascii,
    lowered_camel]
  exact fun c hc => toNat_lt_of_isAlphanum (isAlphanum_of_mem_camel hc)

/-- No form of field names joins names with other letters and digits. -/
theorem NameForm.alphanumerics_eq {form : NameForm} (hform : form ∈ fieldNameForms) {a b : String}
    (h : form.apply a = form.apply b) : alphanumerics a.toList = alphanumerics b.toList := by
  rcases List.mem_pair.mp hform with rfl | rfl
  · calc alphanumerics a.toList = (lowerText (camelCase a)).toList := (lowerText_camelCase a).symm
      _ = (lowerText (camelCase b)).toList := congrArg (fun s => (lowerText s).toList) h
      _ = alphanumerics b.toList := lowerText_camelCase b
  · calc alphanumerics a.toList = (snakeCase a).toList.filter (· != '_') := (filter_snakeCase a).symm
      _ = (snakeCase b).toList.filter (· != '_') :=
        congrArg (fun s : String => s.toList.filter (· != '_')) h
      _ = alphanumerics b.toList := filter_snakeCase b

theorem Schema.pairsFields_iff {s : Schema} {first second : String} :
    s.validate.PairsFields first second ↔ ∃ m ∈ s.models.items,
      ∃ x ∈ Collision.all m.fieldNames fieldNameForms, x.first = first ∧ x.second = second := by
  have hreported : s.validate.PairsFields first second ↔
      ∃ i ∈ s.validate.byCode "FIELD_NAME_COLLISION",
        (.text "fields", Finding.texts [first, second]) ∈ i.context := by
    simp only [Report.PairsFields, Report.byCode, List.mem_filter, beq_iff_eq, and_assoc]
  rw [hreported, byCode_fieldNameCollision]
  constructor
  · rintro ⟨i, hi, hfields⟩
    obtain ⟨m, hm, hi⟩ := List.mem_flatMap.mp hi
    obtain ⟨x, hx, rfl⟩ := List.mem_map.mp hi
    refine ⟨m, hm, x, hx, ?_⟩
    simpa [Collision.fieldIssue, Finding.issue, Finding.context, Finding.texts, eq_comm] using hfields
  · rintro ⟨m, hm, x, hx, rfl, rfl⟩
    refine ⟨_, List.mem_flatMap.mpr ⟨m, hm, List.mem_map_of_mem hx⟩, ?_⟩
    simp [Collision.fieldIssue, Finding.issue, Finding.context]

/-- Every style keeps the letters and digits of a name in their order: snake case and kebab case add
separators only, camel case changes nothing but case. So no two fields are reported for their names unless
these have the same letters and digits, case ignored. -/
theorem identifiers_keep_alphanumerics :
    (∀ name : String,
      (snakeCase name).toList.filter (· != '_') = alphanumerics name.toList ∧
      (kebabCase name).toList.filter (· != '-') = alphanumerics name.toList ∧
      (lowerText (camelCase name)).toList = alphanumerics name.toList) ∧
    ∀ (s : Schema) (first second : String), s.validate.PairsFields first second →
      alphanumerics first.toList = alphanumerics second.toList := by
  refine ⟨fun name => ⟨filter_snakeCase name, filter_kebabCase name, lowerText_camelCase name⟩, ?_⟩
  intro s first second h
  obtain ⟨m, -, x, hx, rfl, rfl⟩ := Schema.pairsFields_iff.mp h
  obtain ⟨-, -, -, form, hform, -, hfirst, hsecond⟩ := (Collision.covers_all _ _).sound x hx
  exact NameForm.alphanumerics_eq hform (hfirst.trans hsecond.symm)

def gateway : Value :=
  Declaration.document [
    Declaration.model "Gateway" [
      Declaration.field "HTTPServer2" "String" "scalar" [],
      Declaration.field "größe" "Int" "scalar" [],
      Declaration.field "http-Server_2" "String" "scalar" []] []] []

theorem identifiers_keep_alphanumerics_gateway :
    ∃ c, (compileWith gateway none []).result = .ok c ∧
      c.schema.validate.PairsFields "HTTPServer2" "http-Server_2" ∧
      alphanumerics "HTTPServer2".toList = alphanumerics "http-Server_2".toList ∧
      (snakeCase "HTTPServer2").toList.filter (· != '_') = "httpserver2".toList := by
  obtain ⟨c, hc, hs⟩ := exists_compiled (rfl : gateway.dataModel? = some gateway)
  have hpaired : c.schema.validate.PairsFields "HTTPServer2" "http-Server_2" := by
    rw [Schema.pairsFields_iff, hs]
    decide +kernel
  obtain ⟨hstyles, hpairs⟩ := identifiers_keep_alphanumerics
  refine ⟨c, hc, hpaired, hpairs _ _ _ hpaired, ?_⟩
  rw [(hstyles "HTTPServer2").1]
  decide +kernel

end EntitySchema
