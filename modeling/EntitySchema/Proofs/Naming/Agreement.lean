import EntitySchema.Proofs.Naming.Snake
import EntitySchema.Proofs.Naming.Tokens

/-!
# Snake case and kebab case

The two cut rules differ at digits only. So the two styles find the same words in a name without digits,
one by substitutions and the other by a pattern, and join them with different characters.
-/

set_option autoImplicit false

namespace EntitySchema

namespace Naming

/-- Cut rules that agree on the characters of a text find the same words in it. -/
theorem solidWords_congr {cut cut' : CutRule} {cs : List Char}
    (h : ∀ a ∈ cs, ∀ b ∈ cs, ∀ next, cut a b next = cut' a b next) :
    solidWords cut cs = solidWords cut' cs := by
  induction cs with
  | nil => rfl
  | cons a cs ih =>
    have hends : wordEnds cut a cs = wordEnds cut' a cs := by
      match cs with
      | [] => rfl
      | b :: cs => rw [wordEnds, wordEnds, h a (by simp) b (by simp)]
    have hrest : solidWords cut cs = solidWords cut' cs :=
      ih fun b hb c hc => h b (List.mem_cons_of_mem a hb) c (List.mem_cons_of_mem a hc)
    by_cases ha : isWordChar a = true
    · by_cases he : wordEnds cut' a cs = true
      · rw [solidWords_end ha (hends.trans he), solidWords_end ha he, hrest]
      · rw [Bool.not_eq_true] at he
        rw [solidWords_extend ha (hends.trans he), solidWords_extend ha he, hrest]
    · rw [Bool.not_eq_true] at ha
      rw [solidWords_separator ha, solidWords_separator ha, hrest]

/-- Joined words are told apart from their separator, so it can be exchanged for another one. -/
theorem map_joinWith_words {s : Char} (hs : isWordChar s = false) (d : Char) (cut : CutRule)
    (cs : List Char) : (joinWith s (words cut cs)).map (fun c => if c = s then d else c) =
      joinWith d (words cut cs) := by
  have hkept : ∀ w ∈ words cut cs, w.map (fun c => if c = s then d else c) = w := by
    intro w hw
    have hchars : ∀ c ∈ w, (if c = s then d else c) = id c := by
      intro c hc
      refine if_neg ?_
      rintro rfl
      exact Bool.false_ne_true (hs.symm.trans (isWordChar_of_mem_words hw hc))
    rw [List.map_congr_left hchars, List.map_id]
  rw [map_joinWith, if_pos rfl, List.map_congr_left hkept, List.map_id']

/-- The rules differ at digits only. -/
theorem tokenCut_eq_humpCut {a b : Char} (ha : a.isDigit = false) (hb : b.isDigit = false)
    (next : Option Char) : tokenCut a b next = humpCut a b next := by
  rw [tokenCut, ha, hb]
  exact Bool.or_false _

end Naming

open Naming

/-- A name without digits is spelled in snake case as in kebab case, with underscores for hyphens. -/
theorem snakeCase_eq_map_kebabCase {name : String} (h : ∀ c ∈ name.toList, c.isDigit = false) :
    snakeCase name = (kebabCase name).map fun c => if c = '-' then '_' else c := by
  have hwords : words humpCut name.toList = words tokenCut name.toList := by
    rw [words_eq, words_eq]
    refine congrArg _ (solidWords_congr fun a ha b hb next => ?_)
    exact (tokenCut_eq_humpCut (h a ha) (h b hb) next).symm
  rw [← String.toList_inj, String.toList_map]
  calc (snakeCase name).toList
      = joinWith '_' (words humpCut name.toList) := by
        rw [snakeCase, String.toList_ofList, snake_eq]
    _ = (joinWith '-' (words tokenCut name.toList)).map (fun c => if c = '-' then '_' else c) := by
        rw [hwords, map_joinWith_words rfl]
    _ = (kebabCase name).toList.map (fun c => if c = '-' then '_' else c) := by
        rw [kebabCase, String.toList_ofList, kebab_eq]

theorem snakeCase_eq_map_kebabCase_acronyms :
    snakeCase "getHTTPResponse--öfter URL" =
        (kebabCase "getHTTPResponse--öfter URL").map (fun c => if c = '-' then '_' else c) ∧
      kebabCase "getHTTPResponse--öfter URL" = "get-http-response-fter-url" := by
  refine ⟨snakeCase_eq_map_kebabCase (by simp), ?_⟩
  rw [kebabCase, kebab_eq, String.toList]
  rfl

/-- Digits are words of their own in kebab case only. -/
example : snakeCase "line2B" = "line2_b" ∧ kebabCase "line2B" = "line-2-b" := by decide +kernel

end EntitySchema
