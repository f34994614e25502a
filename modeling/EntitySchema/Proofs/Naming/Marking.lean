import Mathlib.Data.List.Basic
import EntitySchema.Proofs.Naming.Scan
import EntitySchema.Proofs.Naming.Words

/-!
# Marked words

The first two substitutions of snake case put an underscore wherever its cut rule ends a word: the one for
capitals with a small letter behind them, the other for capitals behind small letters and digits. With the
separators replaced too, the text is that of all raw words.
-/

set_option autoImplicit false

namespace EntitySchema.Naming

def marked (cut : CutRule) : List Char → List Char
  | [] => []
  | [c] => [c]
  | a :: b :: rest =>
    if cut a b rest.head? then a :: '_' :: marked cut (b :: rest) else a :: marked cut (b :: rest)

def acronymCut : CutRule := fun a b next => a.isUpper && b.isUpper && next.any Char.isLower

def capitalCut : CutRule := fun a b _ => b.isUpper && (a.isLower || a.isDigit)

section Marking

variable {cut : CutRule} {a b : Char} {cs : List Char}

theorem marked_cut (h : cut a b cs.head? = true) :
    marked cut (a :: b :: cs) = a :: '_' :: marked cut (b :: cs) := by
  rw [marked, if_pos h]

theorem marked_uncut (h : cut a b cs.head? = false) :
    marked cut (a :: b :: cs) = a :: marked cut (b :: cs) := by
  rw [marked, h]
  rfl

theorem exists_marked_cons (cut : CutRule) (a : Char) (cs : List Char) :
    ∃ t, marked cut (a :: cs) = a :: t := by
  cases cs with
  | nil => exact ⟨[], rfl⟩
  | cons b cs =>
    rw [marked]
    split
    · exact ⟨_, rfl⟩
    · exact ⟨_, rfl⟩

/-- No capital begins a word behind a character that is neither small nor a digit. -/
theorem marked_capitalCut_cons (h : a.isLower = false ∧ a.isDigit = false) (cs : List Char) :
    marked capitalCut (a :: cs) = a :: marked capitalCut cs := by
  cases cs with
  | nil => rfl
  | cons b cs => exact marked_uncut (by simp [capitalCut, h])

/-- No word of capitals ends behind a character that is none. -/
theorem marked_acronymCut_cons (h : a.isUpper = false) (cs : List Char) :
    marked acronymCut (a :: cs) = a :: marked acronymCut cs := by
  cases cs with
  | nil => rfl
  | cons b cs => exact marked_uncut (by simp [acronymCut, h])

/-- The cuts of both rules may be marked one rule after the other. -/
theorem marked_marked (cs : List Char) :
    marked capitalCut (marked acronymCut cs) = marked humpCut cs := by
  induction cs with
  | nil => rfl
  | cons a cs ih =>
    cases cs with
    | nil => rfl
    | cons b cs =>
      have hunderscore : ('_' : Char).isLower = false ∧ ('_' : Char).isDigit = false := by decide
      obtain ⟨t, ht⟩ := exists_marked_cons acronymCut b cs
      by_cases hacronym : acronymCut a b cs.head? = true
      · have hupper : a.isUpper = true := by
          simp only [acronymCut, Bool.and_eq_true] at hacronym
          exact hacronym.1.1
        have hhump : humpCut a b cs.head? = true := by
          rw [humpCut, Bool.or_eq_true]
          exact .inr hacronym
        rw [marked_cut hacronym, marked_cut hhump, marked_capitalCut_cons (isUpper_disjoint hupper),
          marked_capitalCut_cons hunderscore, ih]
      · rw [Bool.not_eq_true] at hacronym
        have hhump : ∀ next, humpCut a b cs.head? = capitalCut a b next := by
          intro next
          rw [humpCut, ← acronymCut, hacronym, Bool.or_false]
          rfl
        rw [marked_uncut hacronym, ht]
        by_cases hcapital : capitalCut a b t.head? = true
        · rw [marked_cut hcapital, ← ht, ih, marked_cut ((hhump _).trans hcapital)]
        · rw [Bool.not_eq_true] at hcapital
          rw [marked_uncut hcapital, ← ht, ih, marked_uncut ((hhump _).trans hcapital)]

end Marking

/-! A match is rewritten as if the search had gone on behind its first piece: it ends where no other one
begins. -/

section Capitals

variable {before : Option Char} {a b : Char} {cs : List Char}

theorem first?_humpPattern (h : capitalCut a b cs.head? = true) :
    humpPattern.first? before (a :: b :: cs) = some [[a], [b]] := by
  simp only [capitalCut, Bool.and_eq_true] at h
  rw [humpPattern, Pattern.first?_row, Part.head?_piecewise_one h.2, Part.head?_piecewise_one h.1]
  rfl

theorem first?_humpPattern_eq_none (h : ∀ b ∈ cs.head?, capitalCut a b none = false) :
    humpPattern.first? before (a :: cs) = none := by
  rw [humpPattern, Pattern.first?_row]
  by_cases ha : (a.isLower || a.isDigit) = true
  · have hnext : cs.head?.any Char.isUpper = false := by
      cases cs with
      | nil => rfl
      | cons b cs => simpa [capitalCut, ha] using h b rfl
    rw [Part.head?_piecewise_one ha, Part.head?_piecewise_one_eq_none hnext]
    rfl
  · rw [Part.head?_piecewise_one_eq_none (by simpa using ha)]

theorem replaceFrom_humpPattern (before : Option Char) (cs : List Char) :
    humpPattern.replaceFrom parted before cs = marked capitalCut cs := by
  induction cs generalizing before with
  | nil => rfl
  | cons a cs ih =>
    cases cs with
    | nil => exact Pattern.replaceFrom_miss (first?_humpPattern_eq_none (by simp))
    | cons b cs =>
      by_cases hcut : capitalCut a b cs.head? = true
      · have hupper : b.isUpper = true := by
          simp only [capitalCut, Bool.and_eq_true] at hcut
          exact hcut.1
        have hmiss : humpPattern.first? (some a) (b :: cs) = none :=
          first?_humpPattern_eq_none fun c _ => by simp [capitalCut, isUpper_disjoint hupper]
        calc humpPattern.replaceFrom parted before (a :: b :: cs)
            = a :: '_' :: b :: humpPattern.replaceFrom parted (some b) cs :=
              Pattern.replaceFrom_hit [b] cs (first?_humpPattern hcut) rfl
          _ = a :: '_' :: humpPattern.replaceFrom parted (some a) (b :: cs) := by
              rw [Pattern.replaceFrom_miss hmiss]
          _ = marked capitalCut (a :: b :: cs) := by rw [ih, marked_cut hcut]
      · rw [Bool.not_eq_true] at hcut
        have hmiss : humpPattern.first? before (a :: b :: cs) = none :=
          first?_humpPattern_eq_none fun c hc => by
            rw [← Option.some.inj hc]
            exact hcut
        rw [Pattern.replaceFrom_miss hmiss, ih, marked_uncut hcut]

end Capitals

section Acronyms

variable {before : Option Char} {a : Char} {cs : List Char}

theorem first?_acronymPattern_of_not (h : a.isUpper = false) :
    acronymPattern.first? before (a :: cs) = none := by
  rw [acronymPattern, Pattern.first?_row, Part.head?_piecewise_run_eq_none (by simp [h])]

def acronymTail? : List Char → Option (List (List Char))
  | b :: c :: _ => if b.isUpper && c.isLower then some [[b], [c]] else none
  | _ => none

theorem head?_piecewise_acronymTail (before : Option Char) (cs : List Char) :
    (Part.piecewise [.one Char.isUpper, .one Char.isLower] before cs).head? = acronymTail? cs := by
  match cs with
  | [] => rfl
  | b :: cs =>
    by_cases hb : b.isUpper = true
    · rw [Part.head?_piecewise_one hb]
      match cs with
      | [] => rfl
      | c :: cs =>
        by_cases hc : c.isLower = true
        · rw [Part.head?_piecewise_one hc, acronymTail?, hb, hc]
          rfl
        · rw [Part.head?_piecewise_one_eq_none (by simpa using hc), acronymTail?, if_neg (by simp [hc])]
          rfl
    · rw [Part.head?_piecewise_one_eq_none (by simpa using hb)]
      match cs with
      | [] => rfl
      | c :: cs => rw [acronymTail?, if_neg (by simp [hb])]

/-- A longer run is tried before a shorter one. -/
theorem first?_acronymPattern (h : a.isUpper = true) : acronymPattern.first? before (a :: cs) =
    ((acronymPattern.first? (some a) cs).map (extendFirst a)).or
      ((acronymTail? cs).map ([a] :: ·)) := by
  rw [acronymPattern, Pattern.first?_row, Part.head?_piecewise_run h, head?_piecewise_acronymTail,
    Pattern.first?_row]

/-- A match takes a run of capitals, one more, and a small letter. -/
theorem exists_of_first?_acronymPattern {pieces : List (List Char)}
    (h : acronymPattern.first? before cs = some pieces) :
    ∃ d run b c rest, pieces = [d :: run, [b], [c]] ∧ cs = d :: (run ++ b :: c :: rest) ∧
      d.isUpper = true ∧ (run ++ b :: c :: rest).head?.any Char.isUpper = true := by
  induction cs generalizing before pieces with
  | nil => cases h
  | cons a cs ih =>
    by_cases ha : a.isUpper = true
    · rw [first?_acronymPattern ha] at h
      rcases Option.or_eq_some_iff.mp h with hlonger | ⟨-, hhere⟩
      · obtain ⟨pieces, hpieces, rfl⟩ := Option.map_eq_some_iff.mp hlonger
        obtain ⟨d, run, b, c, rest, rfl, rfl, hd, -⟩ := ih hpieces
        exact ⟨a, d :: run, b, c, rest, rfl, rfl, ha, hd⟩
      · obtain ⟨pieces, hpieces, rfl⟩ := Option.map_eq_some_iff.mp hhere
        match cs with
        | b :: c :: rest =>
          rw [acronymTail?] at hpieces
          split at hpieces
          · next hbc =>
            cases hpieces
            exact ⟨a, [], b, c, rest, rfl, rfl, ha, (Bool.and_eq_true _ _ ▸ hbc).1⟩
          · cases hpieces
    · rw [first?_acronymPattern_of_not (by simpa using ha)] at h
      cases h

theorem replaceFrom_acronymPattern_hit {d b c : Char} (run rest : List Char)
    (h : acronymPattern.first? before (d :: (run ++ b :: c :: rest)) = some [d :: run, [b], [c]]) :
    acronymPattern.replaceFrom parted before (d :: (run ++ b :: c :: rest)) =
      d :: run ++ '_' :: b :: c :: acronymPattern.replaceFrom parted (some c) rest := by
  have htaken : run ++ b :: c :: rest = run ++ [b, c] ++ rest := by simp
  rw [htaken] at h ⊢
  rw [Pattern.replaceFrom_hit _ _ h (by simp)]
  simp [parted]

/-- With one capital more in front a match ends where it did. -/
theorem replaceFrom_acronymPattern_longer {pieces : List (List Char)} (ha : a.isUpper = true)
    (h : acronymPattern.first? (some a) cs = some pieces) (before : Option Char) :
    acronymPattern.replaceFrom parted before (a :: cs) =
      a :: acronymPattern.replaceFrom parted (some a) cs := by
  obtain ⟨d, run, b, c, rest, rfl, rfl, -⟩ := exists_of_first?_acronymPattern h
  have hlonger : acronymPattern.first? before (a :: d :: (run ++ b :: c :: rest)) =
      some [a :: d :: run, [b], [c]] := by
    rw [first?_acronymPattern ha, h]
    rfl
  rw [replaceFrom_acronymPattern_hit run rest h]
  exact replaceFrom_acronymPattern_hit (d :: run) rest hlonger

/-- A word of capitals goes on behind a capital with a match behind it. -/
theorem marked_acronymCut_longer {pieces : List (List Char)}
    (h : acronymPattern.first? before cs = some pieces) (a : Char) :
    marked acronymCut (a :: cs) = a :: marked acronymCut cs := by
  obtain ⟨d, run, b, c, rest, rfl, rfl, -, hnext⟩ := exists_of_first?_acronymPattern h
  refine marked_uncut ?_
  cases hhead : (run ++ b :: c :: rest).head? with
  | none => simp [acronymCut]
  | some e =>
    rw [hhead] at hnext
    simp [acronymCut, isUpper_disjoint hnext]

theorem replaceFrom_acronymPattern (before : Option Char) (cs : List Char) :
    acronymPattern.replaceFrom parted before cs = marked acronymCut cs := by
  induction cs generalizing before with
  | nil => rfl
  | cons a cs ih =>
    by_cases ha : a.isUpper = true
    · cases hlonger : acronymPattern.first? (some a) cs with
      | some pieces =>
        rw [replaceFrom_acronymPattern_longer ha hlonger, ih, marked_acronymCut_longer hlonger]
      | none =>
        have hfirst : acronymPattern.first? before (a :: cs) = (acronymTail? cs).map ([a] :: ·) := by
          rw [first?_acronymPattern ha, hlonger]
          rfl
        match cs with
        | [] => exact Pattern.replaceFrom_miss hfirst
        | [b] => rw [Pattern.replaceFrom_miss hfirst, ih, marked_uncut (by simp [acronymCut])]
        | b :: c :: rest =>
          have hcut : acronymCut a b (c :: rest).head? = (b.isUpper && c.isLower) := by
            simp [acronymCut, ha]
          by_cases htail : (b.isUpper && c.isLower) = true
          · have hc : c.isUpper = false :=
              (isLower_disjoint (Bool.and_eq_true _ _ ▸ htail).2).1
            rw [acronymTail?, if_pos htail] at hfirst
            rw [marked_cut (hcut.trans htail), ← ih (some a), Pattern.replaceFrom_miss hlonger,
              Pattern.replaceFrom_miss (first?_acronymPattern_of_not hc)]
            exact Pattern.replaceFrom_hit [b, c] rest hfirst rfl
          · rw [Bool.not_eq_true] at htail
            rw [acronymTail?, htail] at hfirst
            rw [marked_uncut (hcut.trans htail), ← ih (some a)]
            exact Pattern.replaceFrom_miss hfirst
    · rw [Bool.not_eq_true] at ha
      rw [Pattern.replaceFrom_miss (first?_acronymPattern_of_not ha), ih, marked_acronymCut_cons ha]

end Acronyms

/-! With the separators replaced the text is that of all raw words. -/

theorem map_marked {cut : CutRule}
    (hcut : ∀ a b next, cut a b next = true → a.isAlphanum = true ∧ b.isAlphanum = true)
    (cs : List Char) :
    (marked cut cs).map (fun c => if isSeparator c then '_' else c) =
      joinWith '_' (rawWords cut cs) := by
  induction cs with
  | nil => rfl
  | cons a cs ih =>
    cases cs with
    | nil =>
      by_cases ha : a.isAlphanum = true
      · simp [marked, rawWords, isSeparator, isWordChar, ha]
      · simp [marked, rawWords, isSeparator, isWordChar, ha, joinWith_eq_append]
    | cons b cs =>
      have hwords : rawWords cut (b :: cs) ≠ [] := rawWords_ne_nil cut (b :: cs)
      by_cases ha : a.isAlphanum = true
      · by_cases hends : cut a b cs.head? = true
        · have hb : b.isAlphanum = true := (hcut _ _ _ hends).2
          rw [marked_cut hends, List.map_cons, List.map_cons, ih, rawWords]
          simp [isSeparator, isWordChar, ha, hb, hends, joinWith_cons hwords]
        · rw [marked_uncut (by simpa using hends), List.map_cons, ih, rawWords]
          simp [isSeparator, isWordChar, ha, hends, joinWith_extendFirst]
      · have huncut : cut a b cs.head? = false := by
          rw [← Bool.not_eq_true]
          exact fun h => ha (hcut _ _ _ h).1
        rw [marked_uncut huncut, List.map_cons, ih, rawWords]
        simp [isSeparator, isWordChar, ha, joinWith_cons hwords]

theorem humpCut_alphanum {a b : Char} {next : Option Char} (h : humpCut a b next = true) :
    a.isAlphanum = true ∧ b.isAlphanum = true := by
  rw [isAlphanum_iff, isAlphanum_iff]
  simp only [humpCut, Bool.or_eq_true, Bool.and_eq_true] at h
  tauto

end EntitySchema.Naming
