import Mathlib.Data.List.Basic
import EntitySchema.Naming.Case
import EntitySchema.Naming.Words

/-!
# Words of a text

The words of a text follow from its first character: a separator is dropped, and a character of a word
either is a word that ends behind it or belongs to the word that the next character begins.
-/

set_option autoImplicit false

namespace EntitySchema.Naming

/-! A character of a word is of one of three kinds. -/

section Characters

variable {c : Char}

theorem isUpper_iff : c.isUpper = true ↔ 65 ≤ c.toNat ∧ c.toNat ≤ 90 := decide_eq_true_iff

theorem isLower_iff : c.isLower = true ↔ 97 ≤ c.toNat ∧ c.toNat ≤ 122 := by
  have hlower : c.isLower = (decide ('a' ≤ c) && decide (c ≤ 'z')) := rfl
  rw [hlower, Bool.and_eq_true, decide_eq_true_iff, decide_eq_true_iff]
  exact Iff.rfl

theorem isDigit_iff : c.isDigit = true ↔ 48 ≤ c.toNat ∧ c.toNat ≤ 57 := by
  have hdigit : c.isDigit = (decide ('0' ≤ c) && decide (c ≤ '9')) := rfl
  rw [hdigit, Bool.and_eq_true, decide_eq_true_iff, decide_eq_true_iff]
  exact Iff.rfl

theorem isAlphanum_eq (c : Char) : c.isAlphanum = (c.isUpper || c.isLower || c.isDigit) := rfl

theorem isAlphanum_iff :
    c.isAlphanum = true ↔ c.isUpper = true ∨ c.isLower = true ∨ c.isDigit = true := by
  rw [isAlphanum_eq, Bool.or_eq_true, Bool.or_eq_true, or_assoc]

theorem isUpper_disjoint (h : c.isUpper = true) : c.isLower = false ∧ c.isDigit = false := by
  rw [isUpper_iff] at h
  rw [← Bool.not_eq_true, ← Bool.not_eq_true, isLower_iff, isDigit_iff]
  omega

theorem isLower_disjoint (h : c.isLower = true) : c.isUpper = false ∧ c.isDigit = false := by
  rw [isLower_iff] at h
  rw [← Bool.not_eq_true, ← Bool.not_eq_true, isUpper_iff, isDigit_iff]
  omega

theorem isDigit_disjoint (h : c.isDigit = true) : c.isUpper = false ∧ c.isLower = false := by
  rw [isDigit_iff] at h
  rw [← Bool.not_eq_true, ← Bool.not_eq_true, isUpper_iff, isLower_iff]
  omega

/-- A character of no word is of none of the kinds. -/
theorem separator_disjoint (h : c.isAlphanum = false) :
    c.isUpper = false ∧ c.isLower = false ∧ c.isDigit = false := by
  rwa [isAlphanum_eq, Bool.or_eq_false_iff, Bool.or_eq_false_iff, and_assoc] at h

theorem toLower_of_not_isUpper (h : c.isUpper = false) : c.toLower = c := by
  rw [← Bool.not_eq_true, isUpper_iff] at h
  exact dif_neg h

theorem toNat_toLower (h : c.isUpper = true) : c.toLower.toNat = c.toNat + 32 := by
  rw [isUpper_iff] at h
  have hval : c.toLower.toNat = (c.val + 32).toNat := congrArg Char.toNat (dif_pos h)
  rw [hval, UInt32.toNat_add]
  exact Nat.mod_eq_of_lt (show c.toNat + 32 < 2 ^ 32 by omega)

theorem isAlphanum_toLower (h : c.isAlphanum = true) : c.toLower.isAlphanum = true := by
  by_cases hc : c.isUpper = true
  · have hlower : c.toLower.isLower = true := by
      rw [isLower_iff, toNat_toLower hc]
      rw [isUpper_iff] at hc
      omega
    exact isAlphanum_iff.mpr (.inr (.inl hlower))
  · rwa [toLower_of_not_isUpper (by simpa using hc)]

end Characters

section Joining

variable {s c : Char} {w : List Char} {ws : List (List Char)}

theorem joinWith_cons (h : ws ≠ []) : joinWith s (w :: ws) = w ++ s :: joinWith s ws := by
  rw [joinWith, List.intercalate_cons_of_ne_nil h, List.append_assoc]
  rfl

@[simp] theorem joinWith_singleton : joinWith s [w] = w := List.intercalate_singleton

/-- Each word behind the first one follows a separator. -/
theorem joinWith_eq_append : joinWith s (w :: ws) = w ++ ws.flatMap (s :: ·) := by
  induction ws generalizing w with
  | nil => simp
  | cons v ws ih => rw [joinWith_cons (List.cons_ne_nil v ws), ih, List.flatMap_cons]; rfl

theorem cons_joinWith (h : ws ≠ []) : s :: joinWith s ws = ws.flatMap (s :: ·) := by
  obtain ⟨w, ws, rfl⟩ := List.exists_cons_of_ne_nil h
  rw [joinWith_eq_append, List.flatMap_cons]
  rfl

theorem joinWith_eq_drop (s : Char) (ws : List (List Char)) :
    joinWith s ws = (ws.flatMap (s :: ·)).drop 1 := by
  cases ws with
  | nil => rfl
  | cons w ws => rw [← cons_joinWith (List.cons_ne_nil w ws), List.drop_one, List.tail_cons]

theorem joinWith_extendFirst : joinWith s (extendFirst c ws) = c :: joinWith s ws := by
  match ws with
  | [] => rfl
  | [w] => simp [extendFirst]
  | w :: v :: ws =>
    have hne : v :: ws ≠ [] := List.cons_ne_nil v ws
    rw [extendFirst, joinWith_cons hne, joinWith_cons hne, List.cons_append]

theorem map_joinWith (f : Char → Char) :
    (joinWith s ws).map f = joinWith (f s) (ws.map (·.map f)) := by
  induction ws with
  | nil => rfl
  | cons w ws ih =>
    rcases eq_or_ne ws [] with rfl | hws
    · simp
    · rw [joinWith_cons hws, List.map_cons, joinWith_cons (by simpa using hws), ← ih, List.map_append,
        List.map_cons]

end Joining

section RawWords

variable {cut : CutRule} {a b : Char} {cs : List Char}

theorem rawWords_ne_nil (cut : CutRule) (cs : List Char) : rawWords cut cs ≠ [] := by
  fun_induction rawWords cut cs with
  | case1 => exact List.cons_ne_nil _ _
  | case2 => exact List.cons_ne_nil _ _
  | case3 => exact List.cons_ne_nil _ _
  | case4 => exact List.cons_ne_nil _ _
  | case5 => exact List.cons_ne_nil _ _
  | case6 a b rest words =>
    rcases hwords : words with _ | ⟨w, ws⟩
    · exact List.cons_ne_nil _ _
    · exact List.cons_ne_nil _ _

theorem mem_of_mem_extendFirst {w : List Char} {ws : List (List Char)}
    (h : w ∈ extendFirst a ws) : w ∈ ws ∨ ∃ v, w = a :: v ∧ (v = [] ∨ v ∈ ws) := by
  cases ws with
  | nil => exact .inr ⟨[], List.mem_singleton.mp h, .inl rfl⟩
  | cons v ws =>
    rcases List.mem_cons.mp h with rfl | hw
    · exact .inr ⟨v, rfl, .inr List.mem_cons_self⟩
    · exact .inl (List.mem_cons_of_mem _ hw)

theorem mem_rawWords_cons {w : List Char} (h : w ∈ rawWords cut (a :: cs)) :
    w = [] ∨ w ∈ rawWords cut cs ∨
      isWordChar a = true ∧ ∃ v, w = a :: v ∧ (v = [] ∨ v ∈ rawWords cut cs) := by
  cases cs with
  | nil =>
    rw [rawWords] at h
    split at h
    · next ha => exact .inr (.inr ⟨ha, [], List.mem_singleton.mp h, .inl rfl⟩)
    · exact .inl (by simpa using h)
  | cons b cs =>
    rw [rawWords] at h
    split at h
    · exact (List.mem_cons.mp h).imp_right .inl
    · next ha =>
      have hword : isWordChar a = true := by simpa using ha
      split at h
      · rcases List.mem_cons.mp h with rfl | h
        · exact .inr (.inr ⟨hword, [], rfl, .inl rfl⟩)
        · exact .inr (.inl h)
      · exact .inr ((mem_of_mem_extendFirst h).imp_right fun hv => ⟨hword, hv⟩)

/-- Words hold no separators. -/
theorem isWordChar_of_mem_rawWords {w : List Char} (hw : w ∈ rawWords cut cs) {c : Char}
    (hc : c ∈ w) : isWordChar c = true := by
  induction cs generalizing w with
  | nil =>
    cases List.mem_singleton.mp hw
    cases hc
  | cons a cs ih =>
    rcases mem_rawWords_cons hw with rfl | hw | ⟨ha, v, rfl, hv⟩
    · cases hc
    · exact ih hw hc
    · rcases List.mem_cons.mp hc with rfl | hc
      · exact ha
      · rcases hv with rfl | hv
        · cases hc
        · exact ih hv hc

theorem isWordChar_of_mem_words {w : List Char} (hw : w ∈ words cut cs) {c : Char} (hc : c ∈ w) :
    isWordChar c = true := by
  obtain ⟨v, hv, rfl⟩ := List.mem_map.mp hw
  obtain ⟨d, hd, rfl⟩ := List.mem_map.mp hc
  exact isAlphanum_toLower (isWordChar_of_mem_rawWords (List.mem_of_mem_filter hv) hd)

theorem exists_rawWords_cons (cut : CutRule) (hb : isWordChar b = true) (cs : List Char) :
    ∃ w ws, rawWords cut (b :: cs) = (b :: w) :: ws := by
  cases cs with
  | nil => exact ⟨[], [], by rw [rawWords, if_pos hb]⟩
  | cons d cs =>
    rw [rawWords, if_neg (by simp [hb])]
    split
    · exact ⟨[], _, rfl⟩
    · rcases rawWords cut (d :: cs) with _ | ⟨w, ws⟩
      · exact ⟨[], [], rfl⟩
      · exact ⟨w, ws, rfl⟩

end RawWords

/-! Words without the empty ones. -/

def solidWords (cut : CutRule) (cs : List Char) : List (List Char) :=
  (rawWords cut cs).filter (!·.isEmpty)

theorem words_eq (cut : CutRule) (cs : List Char) :
    words cut cs = (solidWords cut cs).map lowered := rfl

def wordEnds (cut : CutRule) (a : Char) : List Char → Bool
  | [] => true
  | b :: cs => !isWordChar b || cut a b cs.head?

section SolidWords

variable {cut : CutRule} {a : Char} {cs : List Char}

theorem solidWords_separator (ha : isWordChar a = false) :
    solidWords cut (a :: cs) = solidWords cut cs := by
  cases cs with
  | nil => simp [solidWords, rawWords, ha]
  | cons b cs => simp [solidWords, rawWords, ha]

theorem solidWords_end (ha : isWordChar a = true) (h : wordEnds cut a cs = true) :
    solidWords cut (a :: cs) = [a] :: solidWords cut cs := by
  cases cs with
  | nil => simp [solidWords, rawWords, ha]
  | cons b cs =>
    by_cases hb : isWordChar b = true
    · have hcut : cut a b cs.head? = true := by simpa [wordEnds, hb] using h
      simp [solidWords, rawWords, ha, hb, hcut]
    · have hseparated : rawWords cut (b :: cs) = [] :: (rawWords cut (b :: cs)).tail := by
        cases cs with
        | nil => simp [rawWords, hb]
        | cons d cs => simp [rawWords, hb]
      rw [solidWords, rawWords, hseparated]
      simp only [ha, Bool.not_true, Bool.false_eq_true, reduceIte, hb, Bool.false_and, extendFirst]
      rw [solidWords, hseparated]
      rfl

theorem solidWords_extend (ha : isWordChar a = true) (h : wordEnds cut a cs = false) :
    solidWords cut (a :: cs) = extendFirst a (solidWords cut cs) := by
  cases cs with
  | nil => cases h
  | cons b cs =>
    obtain ⟨hb, hcut⟩ : isWordChar b = true ∧ cut a b cs.head? = false := by
      simpa [wordEnds] using h
    obtain ⟨w, ws, hwords⟩ := exists_rawWords_cons cut hb cs
    rw [solidWords, rawWords, solidWords, hwords]
    simp [ha, hb, hcut, extendFirst]

end SolidWords

end EntitySchema.Naming
