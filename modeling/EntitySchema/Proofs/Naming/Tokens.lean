import EntitySchema.Proofs.Naming.Scan
import EntitySchema.Proofs.Naming.Words

/-!
# Words by a pattern

At a character of a word the pattern takes the rest of that word: the first of its alternatives that
matches ends where the cut rule for tokens does. Where it matches nothing there is a separator.
-/

set_option autoImplicit false

namespace EntitySchema.Naming

/-! Cuts behind the three kinds of characters. -/

section Cuts

variable {a b c : Char} {next : Option Char} {cs : List Char}

theorem isWordChar_of_isUpper (h : c.isUpper = true) : isWordChar c = true :=
  isAlphanum_iff.mpr (.inl h)

theorem isWordChar_of_isLower (h : c.isLower = true) : isWordChar c = true :=
  isAlphanum_iff.mpr (.inr (.inl h))

theorem isWordChar_of_isDigit (h : c.isDigit = true) : isWordChar c = true :=
  isAlphanum_iff.mpr (.inr (.inr h))

theorem tokenCut_lower (ha : a.isLower = true) (hb : isWordChar b = true) :
    tokenCut a b next = !b.isLower := by
  rcases isAlphanum_iff.mp hb with hb | hb | hb
  · simp [tokenCut, humpCut, ha, hb, isUpper_disjoint hb]
  · simp [tokenCut, humpCut, hb, isLower_disjoint ha, isLower_disjoint hb]
  · simp [tokenCut, humpCut, hb, isLower_disjoint ha, isDigit_disjoint hb]

theorem tokenCut_digit (ha : a.isDigit = true) (hb : isWordChar b = true) :
    tokenCut a b next = !b.isDigit := by
  rcases isAlphanum_iff.mp hb with hb | hb | hb
  · simp [tokenCut, humpCut, ha, hb, isUpper_disjoint hb]
  · simp [tokenCut, humpCut, ha, isDigit_disjoint ha, isLower_disjoint hb]
  · simp [tokenCut, humpCut, ha, hb, isDigit_disjoint ha, isDigit_disjoint hb]

theorem wordEnds_capital_lower (ha : a.isUpper = true) (hb : b.isLower = true) (cs : List Char) :
    wordEnds tokenCut a (b :: cs) = false := by
  simp [wordEnds, isWordChar_of_isLower hb, tokenCut, humpCut, isUpper_disjoint ha,
    isLower_disjoint hb]

/-- Where the pattern may end a word of capitals, the word ends. -/
theorem endsCapitals_eq (hc : c.isUpper = true) (cs : List Char) :
    endsCapitals (some c) cs = wordEnds tokenCut c cs := by
  have hword : c.isAlphanum = true := isWordChar_of_isUpper hc
  cases cs with
  | nil => simp [endsCapitals, wordEnds, hword]
  | cons b cs =>
    by_cases hb : b.isAlphanum = true
    · rcases isAlphanum_iff.mp hb with hkind | hkind | hkind
      · simp [endsCapitals, wordEnds, isWordChar, tokenCut, humpCut, hword, hb, hc, hkind,
          isUpper_disjoint hc, isUpper_disjoint hkind]
      · simp [endsCapitals, wordEnds, isWordChar, tokenCut, humpCut, hword, hb,
          isUpper_disjoint hc, isLower_disjoint hkind]
      · simp [endsCapitals, wordEnds, isWordChar, tokenCut, humpCut, hb, hkind, isUpper_disjoint hc]
    · simp [endsCapitals, wordEnds, isWordChar, hword, hb]

end Cuts

/-- A run of one kind is a word if cuts are where it ends. -/
theorem solidWords_run {cut : CutRule} {p : Char → Bool} (hword : ∀ a, p a = true → isWordChar a = true)
    (hcut : ∀ a b next, p a = true → isWordChar b = true → cut a b next = !p b) {c : Char}
    (hc : p c = true) (cs : List Char) :
    solidWords cut (c :: cs) = (c :: cs.takeWhile p) :: solidWords cut (cs.dropWhile p) := by
  induction cs generalizing c with
  | nil => exact solidWords_end (hword c hc) rfl
  | cons b cs ih =>
    by_cases hb : p b = true
    · have hends : wordEnds cut c (b :: cs) = false := by
        simp [wordEnds, hword b hb, hcut c b _ hc (hword b hb), hb]
      rw [solidWords_extend (hword c hc) hends, ih hb, List.takeWhile_cons_of_pos hb,
        List.dropWhile_cons_of_pos hb]
      rfl
    · have hends : wordEnds cut c (b :: cs) = true := by
        by_cases hbw : isWordChar b = true
        · simp [wordEnds, hcut c b _ hc hbw, hb]
        · simp [wordEnds, hbw]
      rw [solidWords_end (hword c hc) hends, List.takeWhile_cons_of_neg hb,
        List.dropWhile_cons_of_neg hb]

/-! The alternatives of the pattern. -/

section Alternatives

variable {before : Option Char} {c : Char} {cs : List Char}

def capitals? (before : Option Char) (cs : List Char) : Option (List (List Char)) :=
  (Part.piecewise [.run Char.isUpper, .place endsCapitals] before cs).head?

theorem capitals?_eq_none (h : cs.head?.any Char.isUpper = false) : capitals? before cs = none :=
  Part.head?_piecewise_run_eq_none h

theorem capitals?_cons (hc : c.isUpper = true) (cs : List Char) : capitals? before (c :: cs) =
    ((capitals? (some c) cs).map (extendFirst c)).or
      (if wordEnds tokenCut c cs then some [[c], []] else none) := by
  rw [capitals?, Part.head?_piecewise_run hc, Part.head?_piecewise_place, endsCapitals_eq hc,
    ← capitals?]
  cases wordEnds tokenCut c cs with
  | true => rfl
  | false => rfl

/-- The last capital of a run belongs to the small letters behind it. -/
theorem capitals?_eq_none_of_lower (h : cs.head?.any Char.isLower = true) :
    capitals? before (c :: cs) = none := by
  by_cases hc : c.isUpper = true
  · match cs with
    | b :: cs =>
      have hb : b.isLower = true := h
      rw [capitals?_cons hc, capitals?_eq_none (by simp [isLower_disjoint hb]),
        wordEnds_capital_lower hc hb]
      rfl
  · exact capitals?_eq_none (by simpa using hc)

/-- A capital that no small letter follows begins a word of capitals. -/
theorem exists_capitals (hc : c.isUpper = true) (h : cs.head?.any Char.isLower = false)
    (before : Option Char) : ∃ run rest, cs = run ++ rest ∧
      capitals? before (c :: cs) = some [c :: run, []] ∧
      solidWords tokenCut (c :: cs) = (c :: run) :: solidWords tokenCut rest := by
  induction cs generalizing c before with
  | nil =>
    refine ⟨[], [], rfl, ?_, solidWords_end (isWordChar_of_isUpper hc) rfl⟩
    rw [capitals?_cons hc]
    rfl
  | cons b cs ih =>
    have hlower : b.isLower = false := h
    by_cases hends : wordEnds tokenCut c (b :: cs) = true
    · refine ⟨[], b :: cs, rfl, ?_, solidWords_end (isWordChar_of_isUpper hc) hends⟩
      have hlonger : capitals? (some c) (b :: cs) = none := by
        by_cases hb : b.isUpper = true
        · refine capitals?_eq_none_of_lower ?_
          simpa [wordEnds, isWordChar_of_isUpper hb, tokenCut, humpCut, hb, hc, isUpper_disjoint hc,
            isUpper_disjoint hb] using hends
        · exact capitals?_eq_none (by simpa using hb)
      rw [capitals?_cons hc, hlonger, if_pos hends]
      rfl
    · obtain ⟨hword, hcut⟩ : isWordChar b = true ∧ tokenCut c b cs.head? = false := by
        simpa [wordEnds] using hends
      have hb : b.isUpper = true := by
        rcases isAlphanum_iff.mp hword with hb | hb | hb
        · exact hb
        · exact absurd hb (by simp [hlower])
        · simp [tokenCut, isUpper_disjoint hc, hb] at hcut
      have hnext : cs.head?.any Char.isLower = false := by
        simpa [tokenCut, humpCut, hb, hc, isUpper_disjoint hc, isUpper_disjoint hb] using hcut
      obtain ⟨run, rest, rfl, hrun, hwords⟩ := ih hb hnext (some c)
      refine ⟨b :: run, rest, rfl, ?_, ?_⟩
      · rw [capitals?_cons hc, hrun]
        rfl
      · rw [solidWords_extend (isWordChar_of_isUpper hc) (by simpa using hends), hwords]
        rfl

theorem first?_wordPattern (before : Option Char) (cs : List Char) :
    wordPattern.first? before cs =
      ((Part.piecewise [.optional Char.isUpper, .run Char.isLower] before cs).head?.or
        ((capitals? before cs).or ((Part.piecewise [.one Char.isUpper] before cs).head?.or
          (Part.piecewise [.run Char.isDigit] before cs).head?))) := by
  rw [wordPattern, Pattern.first?_cons, Pattern.first?_cons, Pattern.first?_cons, Pattern.first?_row]
  rfl

/-- What the pattern takes at a character of a word is the word that begins with it. -/
theorem exists_first?_wordPattern (hc : isWordChar c = true) (before : Option Char) (cs : List Char) :
    ∃ pieces run rest, cs = run ++ rest ∧ wordPattern.first? before (c :: cs) = some pieces ∧
      pieces.flatten = c :: run ∧
      solidWords tokenCut (c :: cs) = (c :: run) :: solidWords tokenCut rest := by
  rw [first?_wordPattern, Part.head?_piecewise_optional]
  rcases isAlphanum_iff.mp hc with hkind | hkind | hkind
  · have hown : (Part.piecewise [.run Char.isLower] before (c :: cs)).head? = none :=
      Part.head?_piecewise_run_eq_none (by simp [isUpper_disjoint hkind])
    rw [Part.head?_piecewise_one hkind, hown]
    by_cases hnext : cs.head?.any Char.isLower = true
    · match cs with
      | b :: cs =>
        have hb : b.isLower = true := hnext
        rw [Part.head?_piecewise_last_run hb]
        refine ⟨_, b :: cs.takeWhile Char.isLower, cs.dropWhile Char.isLower, ?_, rfl, by simp, ?_⟩
        · rw [List.cons_append, List.takeWhile_append_dropWhile]
        · rw [solidWords_extend hc (wordEnds_capital_lower hkind hb cs),
            solidWords_run (fun _ => isWordChar_of_isLower) (fun _ _ _ => tokenCut_lower) hb]
          rfl
    · rw [Bool.not_eq_true] at hnext
      obtain ⟨run, rest, rfl, hrun, hwords⟩ := exists_capitals hkind hnext before
      rw [Part.head?_piecewise_run_eq_none hnext, hrun]
      exact ⟨_, run, rest, rfl, rfl, by simp, hwords⟩
  · rw [Part.head?_piecewise_one_eq_none (by simp [isLower_disjoint hkind]),
      Part.head?_piecewise_last_run hkind]
    refine ⟨_, cs.takeWhile Char.isLower, cs.dropWhile Char.isLower,
      List.takeWhile_append_dropWhile.symm, rfl, by simp, ?_⟩
    exact solidWords_run (fun _ => isWordChar_of_isLower) (fun _ _ _ => tokenCut_lower) hkind cs
  · have hupper : (c :: cs).head?.any Char.isUpper = false := by simp [isDigit_disjoint hkind]
    have hlower : (c :: cs).head?.any Char.isLower = false := by simp [isDigit_disjoint hkind]
    rw [Part.head?_piecewise_one_eq_none hupper, Part.head?_piecewise_one_eq_none hupper,
      Part.head?_piecewise_run_eq_none hlower, capitals?_eq_none hupper,
      Part.head?_piecewise_last_run hkind]
    refine ⟨_, cs.takeWhile Char.isDigit, cs.dropWhile Char.isDigit,
      List.takeWhile_append_dropWhile.symm, rfl, by simp, ?_⟩
    exact solidWords_run (fun _ => isWordChar_of_isDigit) (fun _ _ _ => tokenCut_digit) hkind cs

theorem first?_wordPattern_eq_none (hc : isWordChar c = false) :
    wordPattern.first? before (c :: cs) = none := by
  obtain ⟨hupper, hlower, hdigit⟩ := separator_disjoint hc
  have hone (parts : List Part) :
      (Part.piecewise (.one Char.isUpper :: parts) before (c :: cs)).head? = none :=
    Part.head?_piecewise_one_eq_none (by simpa using hupper)
  rw [first?_wordPattern, Part.head?_piecewise_optional, hone, hone,
    Part.head?_piecewise_run_eq_none (by simpa using hlower), capitals?_eq_none (by simpa using hupper),
    Part.head?_piecewise_run_eq_none (by simpa using hdigit)]
  rfl

end Alternatives

/-- The pattern finds the words of a text. -/
theorem findFrom_wordPattern (before : Option Char) (cs : List Char) :
    wordPattern.findFrom before cs = solidWords tokenCut cs := by
  induction hn : cs.length using Nat.strongRecOn generalizing before cs with
  | _ n ih =>
    cases cs with
    | nil => rfl
    | cons c cs =>
      rw [List.length_cons] at hn
      by_cases hc : isWordChar c = true
      · obtain ⟨pieces, run, rest, rfl, hfirst, htaken, hwords⟩ :=
          exists_first?_wordPattern hc before cs
        rw [List.length_append] at hn
        rw [Pattern.findFrom_hit run rest hfirst htaken, hwords, ih rest.length (by omega) _ rest rfl]
      · rw [Bool.not_eq_true] at hc
        rw [Pattern.findFrom_miss (first?_wordPattern_eq_none hc), solidWords_separator hc,
          ih cs.length (by omega) _ cs rfl]

/-! Separators are blanks for the pattern. -/

def blanked (c : Char) : Char := if isSeparator c then ' ' else c

section Blanked

variable {c : Char}

theorem blanked_of_isWordChar (hc : isWordChar c = true) : blanked c = c := by
  rw [blanked, isSeparator, ← isWordChar, hc]
  rfl

theorem blanked_of_separator (hc : isWordChar c = false) : blanked c = ' ' := by
  rw [blanked, isSeparator, ← isWordChar, hc]
  rfl

theorem isWordChar_blanked (c : Char) : isWordChar (blanked c) = isWordChar c := by
  by_cases hc : isWordChar c = true
  · rw [blanked_of_isWordChar hc]
  · rw [Bool.not_eq_true] at hc
    rw [blanked_of_separator hc, hc]
    rfl

theorem isLower_blanked (c : Char) : (blanked c).isLower = c.isLower := by
  by_cases hc : isWordChar c = true
  · rw [blanked_of_isWordChar hc]
  · rw [Bool.not_eq_true] at hc
    rw [blanked_of_separator hc, (separator_disjoint hc).2.1]
    rfl

theorem wordEnds_blanked (a : Char) (cs : List Char) :
    wordEnds tokenCut a (cs.map blanked) = wordEnds tokenCut a cs := by
  match cs with
  | [] => rfl
  | b :: cs =>
    rw [List.map_cons, wordEnds, wordEnds, isWordChar_blanked]
    by_cases hb : isWordChar b = true
    · rw [blanked_of_isWordChar hb]
      cases cs with
      | nil => rfl
      | cons d cs =>
        simp only [List.map_cons, List.head?_cons, tokenCut, humpCut, Option.any_some, isLower_blanked]
    · simp [hb]

theorem solidWords_blanked (cs : List Char) :
    solidWords tokenCut (cs.map blanked) = solidWords tokenCut cs := by
  induction cs with
  | nil => rfl
  | cons a cs ih =>
    rw [List.map_cons]
    by_cases ha : isWordChar a = true
    · rw [blanked_of_isWordChar ha]
      by_cases hends : wordEnds tokenCut a cs = true
      · rw [solidWords_end ha ((wordEnds_blanked a cs).trans hends), solidWords_end ha hends, ih]
      · rw [Bool.not_eq_true] at hends
        rw [solidWords_extend ha ((wordEnds_blanked a cs).trans hends), solidWords_extend ha hends, ih]
    · rw [Bool.not_eq_true] at ha
      rw [solidWords_separator ((isWordChar_blanked a).trans ha), solidWords_separator ha, ih]

end Blanked

theorem tokens_eq (cs : List Char) : tokens cs = words tokenCut cs := by
  rw [tokens, separatorPattern, Pattern.replace_one, words_eq, ← solidWords_blanked]
  exact congrArg (·.map lowered) (findFrom_wordPattern none (cs.map blanked))

theorem kebab_eq (cs : List Char) : kebab cs = joinWith '-' (words tokenCut cs) := by
  rw [kebab, tokens_eq]

end EntitySchema.Naming
