import Mathlib
import EntitySchema.Naming.Plural
import EntitySchema.Proofs.Naming.Snake
import EntitySchema.Proofs.Naming.Tokens

/-!
# Normal forms of identifiers

A text of blocks that are joined by single separators is taken apart into the same blocks again if its cut
rule cuts at the ends of their kind of characters and nowhere inside. Snake case gives blocks of small
letters and digits, kebab case blocks of small letters and blocks of digits, and so each of them leaves
alone what it has given.
-/

set_option autoImplicit false

namespace EntitySchema

namespace Naming

def isSmallOrDigit (c : Char) : Bool := c.isLower || c.isDigit

/-- Non-empty blocks, each of one of some kinds of characters, joined by single separators. Without blocks
the text is empty. -/
def Normal (s : Char) (kinds : List (Char → Bool)) (cs : List Char) : Prop :=
  ∃ blocks, cs = joinWith s blocks ∧ ∀ b ∈ blocks, b ≠ [] ∧ ∃ p ∈ kinds, ∀ c ∈ b, p c = true

/-- A kind of lower-cased characters of words that a rule cuts from all others, and only there. -/
structure CutRule.Bounds (cut : CutRule) (p : Char → Bool) : Prop where
  small : ∀ a, p a = true → a.isUpper = false
  word : ∀ a, p a = true → isWordChar a = true
  cut : ∀ a b next, p a = true → isWordChar b = true → cut a b next = !p b

theorem humpCut_bounds : humpCut.Bounds isSmallOrDigit where
  small a ha := by
    rcases Bool.or_eq_true_iff.mp ha with h | h
    · exact (isLower_disjoint h).1
    · exact (isDigit_disjoint h).1
  word a ha := isAlphanum_iff.mpr (.inr (Bool.or_eq_true_iff.mp ha))
  cut a b next ha hb := by
    rcases isAlphanum_iff.mp hb with h | h | h
    · have hab : (a.isLower || a.isDigit) = true := ha
      simp [humpCut, isSmallOrDigit, h, hab, isUpper_disjoint h]
    · simp [humpCut, isSmallOrDigit, h, isLower_disjoint h]
    · simp [humpCut, isSmallOrDigit, h, isDigit_disjoint h]

theorem tokenCut_bounds_lower : tokenCut.Bounds Char.isLower where
  small _ ha := (isLower_disjoint ha).1
  word _ := isWordChar_of_isLower
  cut _ _ _ := tokenCut_lower

theorem tokenCut_bounds_digit : tokenCut.Bounds Char.isDigit where
  small _ ha := (isDigit_disjoint ha).1
  word _ := isWordChar_of_isDigit
  cut _ _ _ := tokenCut_digit

section Blocks

variable {cut : CutRule} {p : Char → Bool} {s : Char} {kinds : List (Char → Bool)}

/-- A block in front of other characters is the first word. -/
theorem solidWords_append (hp : cut.Bounds p) {b rest : List Char} (hne : b ≠ [])
    (hb : ∀ c ∈ b, p c = true) (hrest : rest.takeWhile p = []) :
    solidWords cut (b ++ rest) = b :: solidWords cut rest := by
  obtain ⟨c, cs, rfl⟩ := List.exists_cons_of_ne_nil hne
  obtain ⟨hc, hcs⟩ := List.forall_mem_cons.mp hb
  have hdrop : rest.dropWhile p = rest := by
    have happend := List.takeWhile_append_dropWhile (p := p) (l := rest)
    rwa [hrest] at happend
  rw [List.cons_append, solidWords_run hp.word hp.cut hc, List.takeWhile_append_of_pos hcs, hrest,
    List.append_nil, List.dropWhile_append_of_pos hcs, hdrop]

/-- The words of joined blocks are the blocks. -/
theorem solidWords_joinWith (hs : isWordChar s = false) (hkinds : ∀ p ∈ kinds, cut.Bounds p)
    {blocks : List (List Char)} (h : ∀ b ∈ blocks, b ≠ [] ∧ ∃ p ∈ kinds, ∀ c ∈ b, p c = true) :
    solidWords cut (joinWith s blocks) = blocks := by
  induction blocks with
  | nil => rfl
  | cons b blocks ih =>
    obtain ⟨⟨hne, p, hp, hb⟩, hrest⟩ := List.forall_mem_cons.mp h
    rcases eq_or_ne blocks [] with rfl | hblocks
    · have hword := solidWords_append (hkinds p hp) hne hb (List.takeWhile_nil (p := p))
      rw [List.append_nil] at hword
      rw [joinWith_singleton, hword]
      rfl
    · have hends : p s = false := by
        rw [← Bool.not_eq_true]
        exact fun hkind => Bool.false_ne_true (hs.symm.trans ((hkinds p hp).word s hkind))
      rw [joinWith_cons hblocks, solidWords_append (hkinds p hp) hne hb
        (List.takeWhile_cons_of_neg (by simp [hends])), solidWords_separator hs, ih hrest]

theorem lowered_of_small {w : List Char} (h : ∀ c ∈ w, c.isUpper = false) : lowered w = w := by
  rw [lowered, List.map_congr_left fun c hc => toLower_of_not_isUpper (h c hc), List.map_id']

/-- Joining the words of a normal form gives it back. -/
theorem Normal.joinWith_words (hs : isWordChar s = false) (hkinds : ∀ p ∈ kinds, cut.Bounds p)
    {cs : List Char} (h : Normal s kinds cs) : joinWith s (words cut cs) = cs := by
  obtain ⟨blocks, rfl, hblocks⟩ := h
  have hsmall : ∀ b ∈ blocks, lowered b = id b := by
    intro b hb
    obtain ⟨-, p, hp, hchars⟩ := hblocks b hb
    exact lowered_of_small fun c hc => (hkinds p hp).small c (hchars c hc)
  rw [words_eq, solidWords_joinWith hs hkinds hblocks, List.map_congr_left hsmall, List.map_id]

end Blocks

/-! Words are such blocks. -/

section Words

variable {cut : CutRule} {w cs : List Char} {c : Char}

theorem exists_solidWords_cons (cut : CutRule) (hc : isWordChar c = true) (cs : List Char) :
    ∃ w ws, solidWords cut (c :: cs) = (c :: w) :: ws := by
  obtain ⟨w, ws, hwords⟩ := exists_rawWords_cons cut hc cs
  exact ⟨w, ws.filter (!·.isEmpty), by rw [solidWords, hwords, List.filter_cons_of_pos rfl]⟩

theorem ne_nil_of_mem_words (h : w ∈ words cut cs) : w ≠ [] := by
  obtain ⟨v, hv, rfl⟩ := List.mem_map.mp h
  have hne : v ≠ [] := by simpa using (List.mem_filter.mp hv).2
  simpa using hne

theorem isLower_toLower (hc : isWordChar c = true) (hd : c.isDigit = false) :
    c.toLower.isLower = true := by
  have halpha : c.isAlpha = true := by simpa [isWordChar, Char.isAlphanum, hd] using hc
  rw [Char.isLower_toLower_eq_isAlpha, halpha]

theorem isDigit_toLower (h : c.isDigit = true) : c.toLower.isDigit = true := by
  rwa [toLower_of_not_isUpper (isDigit_disjoint h).1]

theorem isSmallOrDigit_of_mem_words (hw : w ∈ words cut cs) (hc : c ∈ w) :
    isSmallOrDigit c = true := by
  obtain ⟨v, hv, rfl⟩ := List.mem_map.mp hw
  obtain ⟨d, hd, rfl⟩ := List.mem_map.mp hc
  have hword : isWordChar d = true := isWordChar_of_mem_rawWords (List.mem_of_mem_filter hv) hd
  rw [isSmallOrDigit, Bool.or_eq_true]
  cases hdigit : d.isDigit with
  | true => exact .inr (isDigit_toLower hdigit)
  | false => exact .inl (isLower_toLower hword hdigit)

theorem isDigit_eq_of_tokenCut {a b : Char} {next : Option Char} (h : tokenCut a b next = false) :
    a.isDigit = b.isDigit := by
  simpa using (Bool.or_eq_false_iff.mp h).2

/-- A token is cut where digits begin or end. -/
theorem exists_isDigit_eq (hw : w ∈ solidWords tokenCut cs) :
    ∃ digits, ∀ c ∈ w, c.isDigit = digits := by
  induction cs generalizing w with
  | nil => cases hw
  | cons a cs ih =>
    by_cases ha : isWordChar a = true
    · by_cases hends : wordEnds tokenCut a cs = true
      · rw [solidWords_end ha hends] at hw
        rcases List.mem_cons.mp hw with rfl | hw
        · exact ⟨a.isDigit, by simp⟩
        · exact ih hw
      · rw [Bool.not_eq_true] at hends
        match cs with
        | b :: cs =>
          obtain ⟨hb, hcut⟩ : isWordChar b = true ∧ tokenCut a b cs.head? = false := by
            simpa [wordEnds] using hends
          obtain ⟨v, vs, hwords⟩ := exists_solidWords_cons tokenCut hb cs
          rw [hwords] at ih
          rw [solidWords_extend ha hends, hwords] at hw
          rcases List.mem_cons.mp hw with rfl | hw
          · -- No cut is between `a` and the rest of its word, so `a` is of the kind of the rest.
            obtain ⟨digits, hdigits⟩ := ih List.mem_cons_self
            have hfirst : a.isDigit = digits :=
              (isDigit_eq_of_tokenCut hcut).trans (hdigits b List.mem_cons_self)
            exact ⟨digits, List.forall_mem_cons.mpr ⟨hfirst, hdigits⟩⟩
          · exact ih (List.mem_cons_of_mem _ hw)
    · rw [solidWords_separator (by simpa using ha)] at hw
      exact ih hw

theorem exists_kind_of_mem_tokens (hw : w ∈ words tokenCut cs) :
    ∃ p ∈ [Char.isLower, Char.isDigit], ∀ c ∈ w, p c = true := by
  obtain ⟨v, hv, rfl⟩ := List.mem_map.mp hw
  obtain ⟨digits, hdigits⟩ := exists_isDigit_eq hv
  cases digits with
  | true => exact ⟨Char.isDigit, by simp, List.forall_mem_map.mpr fun d hd =>
      isDigit_toLower (hdigits d hd)⟩
  | false => exact ⟨Char.isLower, by simp, List.forall_mem_map.mpr fun d hd => isLower_toLower
      (isWordChar_of_mem_rawWords (List.mem_of_mem_filter hv) hd) (hdigits d hd)⟩

end Words

theorem normal_snake (cs : List Char) : Normal '_' [isSmallOrDigit] (snake cs) :=
  ⟨words humpCut cs, snake_eq cs, fun _ hw => ⟨ne_nil_of_mem_words hw, isSmallOrDigit,
    List.mem_singleton_self _, fun _ => isSmallOrDigit_of_mem_words hw⟩⟩

theorem normal_kebab (cs : List Char) : Normal '-' [Char.isLower, Char.isDigit] (kebab cs) :=
  ⟨words tokenCut cs, kebab_eq cs, fun _ hw => ⟨ne_nil_of_mem_words hw, exists_kind_of_mem_tokens hw⟩⟩

/-- The normal forms are the texts that are spelled in the style already. -/
theorem snake_eq_self_iff {cs : List Char} : snake cs = cs ↔ Normal '_' [isSmallOrDigit] cs := by
  refine ⟨fun h => h ▸ normal_snake cs, fun h => ?_⟩
  rw [snake_eq, h.joinWith_words rfl (by simpa using humpCut_bounds)]

theorem kebab_eq_self_iff {cs : List Char} :
    kebab cs = cs ↔ Normal '-' [Char.isLower, Char.isDigit] cs := by
  refine ⟨fun h => h ▸ normal_kebab cs, fun h => ?_⟩
  rw [kebab_eq, h.joinWith_words rfl (by simpa using ⟨tokenCut_bounds_lower, tokenCut_bounds_digit⟩)]

end Naming

open Naming

/-- Snake case gives blocks of small letters and digits, joined by single underscores; kebab case and
routes give blocks of small letters and blocks of digits, joined by single hyphens. What has been spelled in
one of the two styles stays as it is when it is spelled in it once more. -/
theorem identifiers_normal (name : String) :
    Normal '_' [fun c => c.isLower || c.isDigit] (snakeCase name).toList ∧
    Normal '-' [Char.isLower, Char.isDigit] (kebabCase name).toList ∧
    Normal '-' [Char.isLower, Char.isDigit] (routeSegment name).toList ∧
    snakeCase (snakeCase name) = snakeCase name ∧ kebabCase (kebabCase name) = kebabCase name := by
  have hkebab (s : String) : Normal '-' [Char.isLower, Char.isDigit] (kebabCase s).toList := by
    rw [kebabCase, String.toList_ofList]
    exact normal_kebab s.toList
  refine ⟨?_, hkebab name, hkebab (pluralOf name), ?_, ?_⟩
  · rw [snakeCase, String.toList_ofList]
    exact normal_snake name.toList
  · rw [snakeCase, snakeCase, String.toList_ofList, snake_eq_self_iff.mpr (normal_snake _)]
  · rw [kebabCase, kebabCase, String.toList_ofList, kebab_eq_self_iff.mpr (normal_kebab _)]

/-- The ending of a plural is a block of its own behind digits. -/
example : routeSegment "HTTPStatus2" = "http-status-2-s" := by decide +kernel

end EntitySchema
