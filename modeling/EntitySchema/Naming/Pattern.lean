/-!
# Patterns in a text

A pattern is looked for from left to right, and a place where it matches is passed as a whole. Of the ways
to match at a place the first one counts: alternatives in their order, and longer runs before shorter ones
as far as the rest of the pattern matches behind them.
-/

set_option autoImplicit false

namespace EntitySchema.Naming

/-- Some way of beginning a text, with what is left behind it. -/
abbrev Way := List Char × List Char

/-- A part of a pattern: a character, one that may be missing, a run of one or more, or a condition on the
character before a place and the text behind it. -/
inductive Part where
  | one (p : Char → Bool)
  | optional (p : Char → Bool)
  | run (p : Char → Bool)
  | place (holds : Option Char → List Char → Bool)

/-- Alternatives, each of them parts in a row. -/
abbrev Pattern := List (List Part)

def single (p : Char → Bool) : List Char → List Way
  | [] => []
  | c :: cs => if p c then [([c], cs)] else []

def runs (p : Char → Bool) : List Char → List Way
  | [] => []
  | c :: cs => if p c then (runs p cs).map (fun way => (c :: way.1, way.2)) ++ [([c], cs)] else []

namespace Part

def ways (before : Option Char) (cs : List Char) : Part → List Way
  | one p => single p cs
  | optional p => single p cs ++ [([], cs)]
  | run p => runs p cs
  | place holds => if holds before cs then [([], cs)] else []

def piecewise : List Part → Option Char → List Char → List (List (List Char))
  | [], _, _ => [[]]
  | part :: parts, before, cs => (part.ways before cs).flatMap fun way =>
      (piecewise parts (way.1.getLast?.or before) way.2).map (way.1 :: ·)

end Part

inductive Segment where
  | hit (pieces : List (List Char))
  | miss (c : Char)

namespace Segment

def rewritten (other : List (List Char) → List Char) : Segment → List Char
  | hit pieces => other pieces
  | miss c => [c]

def matched? : Segment → Option (List Char)
  | hit pieces => some pieces.flatten
  | miss _ => none

end Segment

namespace Pattern

def first? (pattern : Pattern) (before : Option Char) (cs : List Char) : Option (List (List Char)) :=
  pattern.findSome? fun parts => (Part.piecewise parts before cs).head?

/-- The segments of a text, the first characters of which may belong to a match before them. No pattern in
use matches an empty text, and a match is taken to have one character at least. -/
def segments (pattern : Pattern) : Nat → Option Char → List Char → List Segment
  | _, _, [] => []
  | passed + 1, _, c :: cs => pattern.segments passed (some c) cs
  | 0, before, c :: cs =>
    match pattern.first? before (c :: cs) with
    | some pieces => .hit pieces :: pattern.segments (pieces.flatten.length - 1) (some c) cs
    | none => .miss c :: pattern.segments 0 (some c) cs

def replace (pattern : Pattern) (other : List (List Char) → List Char) (cs : List Char) : List Char :=
  (pattern.segments 0 none cs).flatMap (·.rewritten other)

def findAll (pattern : Pattern) (cs : List Char) : List (List Char) :=
  (pattern.segments 0 none cs).filterMap (·.matched?)

end Pattern

end EntitySchema.Naming
