import EntitySchema.Proofs.Naming.Marking

/-!
# Words in snake case

What the first three substitutions leave is the text of all raw words, with underscores between them. The
last two drop the empty ones.
-/

set_option autoImplicit false

namespace EntitySchema.Naming

/-! Underscores between words. -/

def squeezed (cs : List Char) : List Char := underscoresPattern.replace (fun _ => ['_']) cs

section Squeezing

variable {before : Option Char} {c : Char} {cs : List Char}

theorem first?_underscoresPattern_of_not (h : isUnderscore c = false) :
    underscoresPattern.first? before (c :: cs) = none := by
  rw [underscoresPattern, Pattern.first?_row, Part.head?_piecewise_one_eq_none (by simpa using h)]

theorem replaceFrom_underscoresPattern (before : Option Char) (cs : List Char) :
    underscoresPattern.replaceFrom (fun _ => ['_']) before cs = squeezed cs := by
  refine Pattern.replaceFrom_congr ?_
  rw [underscoresPattern, Pattern.first?_row, Pattern.first?_row]
  cases cs with
  | nil => rfl
  | cons c cs =>
    by_cases hc : isUnderscore c = true
    · rw [Part.head?_piecewise_one hc, Part.head?_piecewise_one hc]
    · rw [Part.head?_piecewise_one_eq_none (by simpa using hc),
        Part.head?_piecewise_one_eq_none (by simpa using hc)]

/-- Of a run of underscores one stays. -/
theorem squeezed_cons (cs : List Char) :
    squeezed ('_' :: cs) = '_' :: squeezed (cs.dropWhile isUnderscore) := by
  have hfirst : underscoresPattern.first? none ('_' :: cs) =
      (Part.piecewise [.run isUnderscore] (some '_') cs).head?.map (['_'] :: ·) := by
    rw [underscoresPattern, Pattern.first?_row, Part.head?_piecewise_one rfl]
  cases cs with
  | nil => exact Pattern.replaceFrom_miss hfirst
  | cons c cs =>
    by_cases hc : isUnderscore c = true
    · rw [Part.head?_piecewise_last_run hc] at hfirst
      have hcs : c :: cs = c :: cs.takeWhile isUnderscore ++ cs.dropWhile isUnderscore := by
        rw [List.cons_append, List.takeWhile_append_dropWhile]
      rw [hcs] at hfirst
      rw [List.dropWhile_cons_of_pos hc, squeezed, Pattern.replace, ← Pattern.replaceFrom, hcs,
        Pattern.replaceFrom_hit _ _ hfirst (by simp), replaceFrom_underscoresPattern]
      rfl
    · rw [Part.head?_piecewise_run_eq_none (by simpa using hc)] at hfirst
      rw [List.dropWhile_cons_of_neg hc, ← replaceFrom_underscoresPattern (some '_')]
      exact Pattern.replaceFrom_miss hfirst

theorem squeezed_append {w : List Char} (h : ∀ c ∈ w, isUnderscore c = false) (cs : List Char) :
    squeezed (w ++ cs) = w ++ squeezed cs := by
  rw [squeezed, Pattern.replace, ← Pattern.replaceFrom, Pattern.replaceFrom_append,
    replaceFrom_underscoresPattern]
  exact fun c hc _ _ => first?_underscoresPattern_of_not (h c hc)

end Squeezing

/-! Underscores around words. -/

def trimmedFrom (before : Option Char) (cs : List Char) : List Char :=
  outerPattern.replaceFrom (fun _ => []) before cs

section Trimming

variable {before : Option Char} {c : Char} {cs : List Char}

theorem head?_piecewise_ending (before : Option Char) (cs : List Char) :
    (Part.piecewise [.run isUnderscore, .place fun _ left => left.isEmpty] before cs).head? =
      if cs ≠ [] ∧ cs.all isUnderscore then some [cs, []] else none := by
  induction cs generalizing before with
  | nil => rfl
  | cons c cs ih =>
    by_cases hc : isUnderscore c = true
    · rw [Part.head?_piecewise_run hc, ih, Part.head?_piecewise_place]
      cases cs with
      | nil => simp [Part.piecewise, hc]
      | cons d cs =>
        have hsame : (c :: d :: cs).all isUnderscore = (d :: cs).all isUnderscore := by
          rw [List.all_cons, hc, Bool.true_and]
        rw [hsame]
        cases (d :: cs).all isUnderscore with
        | true => rfl
        | false => rfl
    · rw [Part.head?_piecewise_run_eq_none (by simpa using hc), if_neg (by simp [hc])]

theorem first?_outerPattern_some (d : Char) (cs : List Char) : outerPattern.first? (some d) cs =
    if cs ≠ [] ∧ cs.all isUnderscore then some [cs, []] else none := by
  rw [outerPattern, Pattern.first?_cons, Pattern.first?_row, head?_piecewise_ending,
    Part.head?_piecewise_place]
  rfl

theorem first?_outerPattern_none (cs : List Char) :
    outerPattern.first? none ('_' :: cs) = some [[], '_' :: cs.takeWhile isUnderscore] := by
  rw [outerPattern, Pattern.first?_cons, Part.head?_piecewise_place, Part.head?_piecewise_last_run rfl]
  rfl

theorem first?_outerPattern_of_not (h : isUnderscore c = false) :
    outerPattern.first? before (c :: cs) = none := by
  have hrun : (Part.piecewise [.run isUnderscore] before (c :: cs)).head? = none :=
    Part.head?_piecewise_run_eq_none (by simpa using h)
  have hending : ¬ (c :: cs ≠ [] ∧ (c :: cs).all isUnderscore = true) := by simp [h]
  rw [outerPattern, Pattern.first?_cons, Pattern.first?_row, head?_piecewise_ending, if_neg hending,
    Part.head?_piecewise_place, hrun, Option.map_none, ite_self, Option.or_none]

theorem trimmedFrom_append {w : List Char} (h : ∀ c ∈ w, isUnderscore c = false)
    (before : Option Char) (cs : List Char) :
    trimmedFrom before (w ++ cs) = w ++ trimmedFrom (w.getLast?.or before) cs := by
  rw [trimmedFrom, Pattern.replaceFrom_append]
  · rfl
  · exact fun c hc _ _ => first?_outerPattern_of_not (h c hc)

theorem trimmedFrom_underscore (before : Option Char) : trimmedFrom before ['_'] = [] := by
  have hfirst : ∃ pieces, outerPattern.first? before ('_' :: ([] ++ [])) = some pieces ∧
      pieces.flatten = ['_'] := by
    cases before with
    | none => exact ⟨_, first?_outerPattern_none [], rfl⟩
    | some d => exact ⟨_, first?_outerPattern_some d _, rfl⟩
  obtain ⟨pieces, hpieces, htaken⟩ := hfirst
  exact Pattern.replaceFrom_hit [] [] hpieces htaken

/-- An underscore before a word stays behind another character and goes at the beginning. -/
theorem trimmedFrom_cons (h : isUnderscore c = false) (before : Option Char) (cs : List Char) :
    trimmedFrom before ('_' :: c :: cs) =
      (if before.isNone then [] else ['_']) ++ trimmedFrom (some '_') (c :: cs) := by
  cases before with
  | none =>
    have hfirst : outerPattern.first? none ('_' :: c :: cs) = some [[], ['_']] := by
      rw [first?_outerPattern_none, List.takeWhile_cons_of_neg (by simp [h])]
    exact Pattern.replaceFrom_hit [] (c :: cs) hfirst rfl
  | some d =>
    have hfirst : outerPattern.first? (some d) ('_' :: c :: cs) = none := by
      rw [first?_outerPattern_some, if_neg (by simp [h])]
    exact Pattern.replaceFrom_miss hfirst

/-- What stays of words that each follow an underscore. The first underscore goes if no character is
before it. -/
theorem trimmedFrom_squeezed {raws : List (List Char)}
    (h : ∀ w ∈ raws, ∀ c ∈ w, isUnderscore c = false) (before : Option Char) :
    trimmedFrom before (squeezed (raws.flatMap ('_' :: ·))) =
      ((raws.filter (!·.isEmpty)).flatMap ('_' :: ·)).drop (if before.isNone then 1 else 0) := by
  induction raws generalizing before with
  | nil => exact (List.drop_nil).symm
  | cons w raws ih =>
    have hraws : ∀ v ∈ raws, ∀ c ∈ v, isUnderscore c = false := fun v hv =>
      h v (List.mem_cons_of_mem w hv)
    cases w with
    | nil =>
      rw [List.filter_cons_of_neg (by simp), ← ih hraws before]
      cases raws with
      | nil => exact trimmedFrom_underscore before
      | cons v raws =>
        have hunderscore : isUnderscore '_' = true := rfl
        simp only [List.flatMap_cons, List.nil_append, List.cons_append]
        rw [squeezed_cons, List.dropWhile_cons_of_pos hunderscore, ← squeezed_cons]
    | cons c w =>
      have hw : ∀ d ∈ c :: w, isUnderscore d = false := h _ List.mem_cons_self
      have hc : isUnderscore c = false := hw c List.mem_cons_self
      obtain ⟨last, hlast⟩ : ∃ last, (c :: w).getLast?.or (some '_') = some last := by
        rw [List.getLast?_cons]
        exact ⟨_, rfl⟩
      calc trimmedFrom before (squeezed ('_' :: (c :: w) ++ raws.flatMap ('_' :: ·)))
          = trimmedFrom before ('_' :: c :: (w ++ squeezed (raws.flatMap ('_' :: ·)))) := by
            rw [List.cons_append, squeezed_cons, List.cons_append,
              List.dropWhile_cons_of_neg (by simp [hc]), ← List.cons_append, squeezed_append hw]
            rfl
        _ = (if before.isNone then [] else ['_']) ++ (c :: w) ++
            (raws.filter (!·.isEmpty)).flatMap ('_' :: ·) := by
            rw [trimmedFrom_cons hc, ← List.cons_append, trimmedFrom_append hw, hlast, ih hraws]
            simp
        _ = _ := by
            rw [List.filter_cons_of_pos (by simp), List.flatMap_cons]
            cases before with
            | none => rfl
            | some d => rfl

/-- An underscore more at the beginning makes no difference. -/
theorem trimmedFrom_squeezed_cons (cs : List Char) :
    trimmedFrom none (squeezed ('_' :: cs)) = trimmedFrom none (squeezed cs) := by
  rw [squeezed_cons]
  cases cs with
  | nil => exact trimmedFrom_underscore none
  | cons c cs =>
    by_cases hc : isUnderscore c = true
    · rw [beq_iff_eq.mp hc, List.dropWhile_cons_of_pos rfl, ← squeezed_cons]
    · rw [Bool.not_eq_true] at hc
      have hkept : squeezed (c :: cs) = c :: squeezed cs :=
        squeezed_append (w := [c]) (by simpa using hc) cs
      rw [List.dropWhile_cons_of_neg (by simp [hc]), hkept, trimmedFrom_cons hc]
      refine Pattern.replaceFrom_congr ?_
      rw [first?_outerPattern_of_not hc, first?_outerPattern_of_not hc]

end Trimming

/-- Snake case joins the words that the cut rule finds. -/
theorem snake_eq (cs : List Char) : snake cs = joinWith '_' (words humpCut cs) := by
  have hmarked : humpPattern.replace parted (acronymPattern.replace parted cs) = marked humpCut cs := by
    calc humpPattern.replace parted (acronymPattern.replace parted cs)
        = marked capitalCut (marked acronymCut cs) :=
          (replaceFrom_humpPattern none _).trans (congrArg _ (replaceFrom_acronymPattern none cs))
      _ = marked humpCut cs := marked_marked cs
  have hcleaned : separatorPattern.replace (fun _ => ['_']) (marked humpCut cs) =
      joinWith '_' (rawWords humpCut cs) := by
    rw [separatorPattern, Pattern.replace_one, map_marked fun _ _ _ => humpCut_alphanum]
  have hplain : ∀ w ∈ rawWords humpCut cs, ∀ c ∈ w, isUnderscore c = false := by
    intro w hw c hc
    refine beq_eq_false_iff_ne.mpr ?_
    rintro rfl
    cases isWordChar_of_mem_rawWords hw hc
  have htidied : trimmedFrom none (squeezed (joinWith '_' (rawWords humpCut cs))) =
      joinWith '_' (solidWords humpCut cs) := by
    rw [← trimmedFrom_squeezed_cons, cons_joinWith (rawWords_ne_nil humpCut cs),
      trimmedFrom_squeezed hplain, joinWith_eq_drop]
    rfl
  calc snake cs
      = lowered (trimmedFrom none (squeezed (joinWith '_' (rawWords humpCut cs)))) := by
        rw [← hcleaned, ← hmarked]
        rfl
    _ = joinWith '_' (words humpCut cs) := by
        rw [htidied, lowered, map_joinWith]
        rfl

end EntitySchema.Naming
