import Mathlib.Data.List.Basic
import EntitySchema.Naming.Pattern
import EntitySchema.Naming.Words

/-!
# One search from left to right

What follows from a match at the place where the search is, and from none. After a match the search goes
on behind it, and all that it keeps of what it has passed is the last character.
-/

set_option autoImplicit false

namespace EntitySchema.Naming

section Runs

variable {p : Char → Bool} {c : Char} {cs : List Char}

theorem single_cons (h : p c = true) : single p (c :: cs) = [([c], cs)] := by
  rw [single, if_pos h]

theorem single_eq_nil (h : p c = false) : single p (c :: cs) = [] := by
  rw [single, h]
  rfl

theorem runs_cons (h : p c = true) :
    runs p (c :: cs) = (runs p cs).map (fun way => (c :: way.1, way.2)) ++ [([c], cs)] := by
  rw [runs, if_pos h]

theorem runs_eq_nil (h : p c = false) : runs p (c :: cs) = [] := by
  rw [runs, h]
  rfl

/-- The first way to take a run is to take all of it. -/
theorem head?_runs (h : p c = true) :
    (runs p (c :: cs)).head? = some (c :: cs.takeWhile p, cs.dropWhile p) := by
  induction cs generalizing c with
  | nil =>
    rw [runs_cons h]
    rfl
  | cons b cs ih =>
    rw [runs_cons h, List.head?_append, List.head?_map]
    by_cases hb : p b = true
    · rw [ih hb, List.takeWhile_cons_of_pos hb, List.dropWhile_cons_of_pos hb]
      rfl
    · rw [runs_eq_nil (Bool.not_eq_true _ ▸ hb), List.takeWhile_cons_of_neg hb,
        List.dropWhile_cons_of_neg hb]
      rfl

end Runs

namespace Part

variable {part : Part} {parts : List Part} {p : Char → Bool} {before : Option Char} {c : Char}
  {cs : List Char}

theorem head?_piecewise_cons : (piecewise (part :: parts) before cs).head? =
    (part.ways before cs).findSome? fun way =>
      (piecewise parts (way.1.getLast?.or before) way.2).head?.map (way.1 :: ·) := by
  simp only [piecewise, List.head?_flatMap, List.head?_map]

theorem head?_piecewise_one (h : p c = true) : (piecewise (one p :: parts) before (c :: cs)).head? =
    (piecewise parts (some c) cs).head?.map ([c] :: ·) := by
  rw [head?_piecewise_cons, ways, single_cons h, List.findSome?_singleton]
  rfl

theorem head?_piecewise_one_eq_none (h : cs.head?.any p = false) :
    (piecewise (one p :: parts) before cs).head? = none := by
  cases cs with
  | nil => rfl
  | cons c cs => rw [head?_piecewise_cons, ways, single_eq_nil h, List.findSome?_nil]

theorem head?_piecewise_optional (p : Char → Bool) :
    (piecewise (optional p :: parts) before cs).head? =
      (piecewise (one p :: parts) before cs).head?.or
        ((piecewise parts before cs).head?.map ([] :: ·)) := by
  rw [head?_piecewise_cons, head?_piecewise_cons, ways, ways, List.findSome?_append,
    List.findSome?_singleton]
  rfl

/-- A run takes one character more if the rest of the parts match behind the longer run. -/
theorem head?_piecewise_run (h : p c = true) : (piecewise (run p :: parts) before (c :: cs)).head? =
    ((piecewise (run p :: parts) (some c) cs).head?.map (extendFirst c)).or
      ((piecewise parts (some c) cs).head?.map ([c] :: ·)) := by
  rw [head?_piecewise_cons, head?_piecewise_cons, ways, ways, runs_cons h, List.findSome?_append,
    List.findSome?_map, List.findSome?_singleton, List.map_findSome?]
  congr 2
  funext way
  simp only [Function.comp_apply, List.getLast?_cons, Option.map_map]
  cases way.1.getLast? with
  | none => rfl
  | some d => rfl

theorem head?_piecewise_run_eq_none (h : cs.head?.any p = false) :
    (piecewise (run p :: parts) before cs).head? = none := by
  cases cs with
  | nil => rfl
  | cons c cs => rw [head?_piecewise_cons, ways, runs_eq_nil h, List.findSome?_nil]

theorem head?_piecewise_place (holds : Option Char → List Char → Bool) :
    (piecewise (place holds :: parts) before cs).head? =
      if holds before cs then (piecewise parts before cs).head?.map ([] :: ·) else none := by
  rw [head?_piecewise_cons, ways]
  split
  · rw [List.findSome?_singleton]
    rfl
  · rfl

/-- The last part of a row takes all of a run. -/
theorem head?_piecewise_last_run (h : p c = true) :
    (piecewise [run p] before (c :: cs)).head? = some [c :: cs.takeWhile p] := by
  have hall : (runs p (c :: cs)).head? = some (c :: cs.takeWhile p, cs.dropWhile p) := head?_runs h
  obtain ⟨ways, hways⟩ := List.head?_eq_some_iff.mp hall
  rw [head?_piecewise_cons, Part.ways, hways, List.findSome?_cons]
  rfl

end Part

namespace Pattern

variable {pattern : Pattern} {before : Option Char} {c : Char} {cs : List Char}

/-- The alternatives are tried in their order. -/
theorem first?_cons (parts : List Part) (pattern : Pattern) :
    Pattern.first? (parts :: pattern) before cs =
      (Part.piecewise parts before cs).head?.or (pattern.first? before cs) := by
  rw [first?, List.findSome?_cons, first?]
  cases (Part.piecewise parts before cs).head? with
  | none => rfl
  | some pieces => rfl

theorem first?_row (parts : List Part) :
    Pattern.first? [parts] before cs = (Part.piecewise parts before cs).head? := by
  rw [first?, List.findSome?_singleton]

theorem segments_append (before : Option Char) (passed rest : List Char) :
    pattern.segments passed.length before (passed ++ rest) =
      pattern.segments 0 (passed.getLast?.or before) rest := by
  induction passed generalizing before with
  | nil => rfl
  | cons c passed ih =>
    rw [List.length_cons, List.cons_append, segments, ih, List.getLast?_cons]
    cases passed.getLast? with
    | none => rfl
    | some d => rfl

theorem segments_hit {pieces : List (List Char)} (passed rest : List Char)
    (h : pattern.first? before (c :: (passed ++ rest)) = some pieces)
    (htaken : pieces.flatten = c :: passed) :
    pattern.segments 0 before (c :: (passed ++ rest)) =
      .hit pieces :: pattern.segments 0 (passed.getLast?.or (some c)) rest := by
  rw [segments, h]
  simp only [htaken, List.length_cons, Nat.add_sub_cancel]
  rw [segments_append]

theorem segments_miss (h : pattern.first? before (c :: cs) = none) :
    pattern.segments 0 before (c :: cs) = .miss c :: pattern.segments 0 (some c) cs := by
  rw [segments, h]

def replaceFrom (pattern : Pattern) (other : List (List Char) → List Char) (before : Option Char)
    (cs : List Char) : List Char :=
  (pattern.segments 0 before cs).flatMap (·.rewritten other)

def findFrom (pattern : Pattern) (before : Option Char) (cs : List Char) : List (List Char) :=
  (pattern.segments 0 before cs).filterMap (·.matched?)

section Rewriting

variable {other : List (List Char) → List Char}

theorem replaceFrom_hit {pieces : List (List Char)} (passed rest : List Char)
    (h : pattern.first? before (c :: (passed ++ rest)) = some pieces)
    (htaken : pieces.flatten = c :: passed) :
    pattern.replaceFrom other before (c :: (passed ++ rest)) =
      other pieces ++ pattern.replaceFrom other (passed.getLast?.or (some c)) rest := by
  rw [replaceFrom, segments_hit passed rest h htaken, List.flatMap_cons]
  rfl

theorem replaceFrom_miss (h : pattern.first? before (c :: cs) = none) :
    pattern.replaceFrom other before (c :: cs) = c :: pattern.replaceFrom other (some c) cs := by
  rw [replaceFrom, segments_miss h, List.flatMap_cons]
  rfl

/-- The character before a text counts only for a match at its beginning. -/
theorem replaceFrom_congr {before' : Option Char}
    (h : pattern.first? before cs = pattern.first? before' cs) :
    pattern.replaceFrom other before cs = pattern.replaceFrom other before' cs := by
  cases cs with
  | nil => rfl
  | cons c cs => rw [replaceFrom, segments, h, replaceFrom, segments]

/-- Characters at which nothing matches are left as they are. -/
theorem replaceFrom_append {passed : List Char}
    (h : ∀ c ∈ passed, ∀ before cs, pattern.first? before (c :: cs) = none) (before : Option Char)
    (rest : List Char) : pattern.replaceFrom other before (passed ++ rest) =
      passed ++ pattern.replaceFrom other (passed.getLast?.or before) rest := by
  induction passed generalizing before with
  | nil => rfl
  | cons c passed ih =>
    rw [List.cons_append, replaceFrom_miss (h c List.mem_cons_self _ _),
      ih fun d hd => h d (List.mem_cons_of_mem c hd), List.cons_append, List.getLast?_cons]
    cases passed.getLast? with
    | none => rfl
    | some d => rfl

end Rewriting

section Finding

theorem findFrom_hit {pieces : List (List Char)} (passed rest : List Char)
    (h : pattern.first? before (c :: (passed ++ rest)) = some pieces)
    (htaken : pieces.flatten = c :: passed) :
    pattern.findFrom before (c :: (passed ++ rest)) =
      (c :: passed) :: pattern.findFrom (passed.getLast?.or (some c)) rest := by
  rw [findFrom, segments_hit passed rest h htaken, ← htaken]
  rfl

theorem findFrom_miss (h : pattern.first? before (c :: cs) = none) :
    pattern.findFrom before (c :: cs) = pattern.findFrom (some c) cs := by
  rw [findFrom, segments_miss h]
  rfl

end Finding

/-- A pattern of one character rewrites each character by itself. -/
theorem replace_one (p : Char → Bool) (d : Char) (cs : List Char) :
    Pattern.replace [[.one p]] (fun _ => [d]) cs = cs.map fun c => if p c then d else c := by
  suffices h : ∀ before, Pattern.replaceFrom [[.one p]] (fun _ => [d]) before cs =
      cs.map fun c => if p c then d else c from h none
  induction cs with
  | nil => exact fun _ => rfl
  | cons c cs ih =>
    intro before
    rw [List.map_cons, ← ih (some c)]
    by_cases hc : p c = true
    · have hfirst : Pattern.first? [[.one p]] before (c :: cs) = some [[c]] := by
        rw [first?_row, Part.head?_piecewise_one hc]
        rfl
      rw [if_pos hc]
      exact replaceFrom_hit [] cs hfirst rfl
    · have hfirst : Pattern.first? [[.one p]] before (c :: cs) = none := by
        rw [first?_row, Part.head?_piecewise_one_eq_none (by simpa using hc)]
      rw [if_neg hc]
      exact replaceFrom_miss hfirst

end Pattern

end EntitySchema.Naming
