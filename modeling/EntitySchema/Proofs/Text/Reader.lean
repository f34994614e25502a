import Mathlib.Algebra.Group.Nat.Defs
import Mathlib.Tactic.SplitIfs
import Mathlib.Tactic.Tauto
import EntitySchema.Text.Escape

/-!
# A strict reader

A strict reader of escaped text, which goes from left to right and refuses what no escaped text may
hold: a quote, a raw separator or control character, and an escape that is unknown or cut off. Dialects
of it differ in the control characters they take raw and in the escapes they know by name. Every escaped
character reads as itself.
-/

set_option autoImplicit false

namespace EntitySchema.Text

def hexValue? (c : Char) : Option Nat :=
  if '0' ≤ c ∧ c ≤ '9' then some (c.toNat - 0x30)
  else if 'a' ≤ c ∧ c ≤ 'f' then some (c.toNat - 0x57)
  else if 'A' ≤ c ∧ c ≤ 'F' then some (c.toNat - 0x37)
  else none

def hexNumber? (before : Nat) : List Char → Option Nat
  | [] => some before
  | c :: cs => (hexValue? c).bind fun d => hexNumber? (16 * before + d) cs

def charOfHex? (digits : List Char) : Option Char :=
  (hexNumber? 0 digits).bind fun n => if n.isValidChar then some (Char.ofNat n) else none

/-- What a notation for texts leaves open: the control characters with an escape of one letter, and
those that may stand for themselves. -/
structure Dialect where
  named? : Char → Option Char
  raw : Char → Bool

namespace Dialect

def short? (d : Dialect) (c : Char) : Option Char :=
  if c = '\\' ∨ c = '"' ∨ c = '\'' ∨ c = '/' then some c else d.named? c

def isPlain (d : Dialect) (c : Char) : Bool :=
  c != '\\' && c != '"' && c != '\'' && c != '\u2028' && c != '\u2029' && (!isControl c || d.raw c)

def readBefore (c : Option Char) (rest : Option (List Char)) : Option (List Char) :=
  c.bind fun c => rest.map (c :: ·)

def read? (d : Dialect) : List Char → Option (List Char)
  | [] => some []
  | '\\' :: 'x' :: a :: b :: rest => readBefore (charOfHex? [a, b]) (d.read? rest)
  | '\\' :: 'u' :: a :: b :: a' :: b' :: rest => readBefore (charOfHex? [a, b, a', b']) (d.read? rest)
  | '\\' :: c :: rest => readBefore (d.short? c) (d.read? rest)
  | c :: rest => readBefore (Option.guard d.isPlain c) (d.read? rest)

def literal : Dialect where
  named? c := if c = 'n' then some '\n' else if c = 'r' then some '\r'
    else if c = 't' then some '\t' else none
  raw _ := false

end Dialect

/-! Hexadecimal digits. -/

theorem hexValue?_hexDigit : ∀ n < 16, hexValue? (hexDigit n) = some n := by decide

theorem hexNumber?_append (before : Nat) (xs ys : List Char) :
    hexNumber? before (xs ++ ys) = (hexNumber? before xs).bind (hexNumber? · ys) := by
  induction xs generalizing before with
  | nil => rfl
  | cons x xs ih =>
    rw [List.cons_append, hexNumber?, hexNumber?, Option.bind_assoc]
    congr
    funext d
    exact ih _

theorem hexNumber?_hexDigits (before width n : Nat) :
    hexNumber? before (hexDigits width n) = some (16 ^ width * before + n % 16 ^ width) := by
  induction width generalizing n with
  | zero => simp [hexDigits, hexNumber?, Nat.mod_one]
  | succ width ih =>
    have hdigit : n % 16 < 16 := Nat.mod_lt n (by decide)
    have hmod : n % 16 ^ (width + 1) = n % 16 + 16 * (n / 16 % 16 ^ width) := by
      rw [Nat.pow_succ', Nat.mod_mul]
    rw [hexDigits, hexNumber?_append, ih, Option.bind_some, hexNumber?, hexValue?_hexDigit _ hdigit,
      Option.bind_some, hexNumber?, hmod, Nat.pow_succ']
    congr 1
    rw [Nat.mul_add, Nat.mul_assoc]
    omega

theorem length_hexDigits (width n : Nat) : (hexDigits width n).length = width := by
  induction width generalizing n with
  | zero => rfl
  | succ width ih => rw [hexDigits, List.length_append, ih]; rfl

theorem charOfHex?_hexDigits {width : Nat} {c : Char} (h : c.toNat < 16 ^ width) :
    charOfHex? (hexDigits width c.toNat) = some c := by
  have hvalid : c.toNat.isValidChar := c.valid
  rw [charOfHex?, hexNumber?_hexDigits, Nat.mul_zero, Nat.zero_add, Nat.mod_eq_of_lt h,
    Option.bind_some, if_pos hvalid, Char.ofNat_toNat]

theorem mem_hexDigits {width n : Nat} {c : Char} (h : c ∈ hexDigits width n) :
    ∃ d < 16, c = hexDigit d := by
  induction width generalizing n with
  | zero => cases h
  | succ width ih =>
    rcases List.mem_append.mp h with h | h
    · exact ih h
    · exact ⟨_, Nat.mod_lt n (by decide), List.mem_singleton.mp h⟩

/-! What the reader makes of the escapes. -/

namespace Dialect

variable {d : Dialect} {rest : List Char}

theorem read?_hexEscape {c : Char} (h : c.toNat < 16 ^ 2) :
    d.read? ('\\' :: 'x' :: (hexDigits 2 c.toNat ++ rest)) = (d.read? rest).map (c :: ·) := by
  have hread : ∀ digits, digits.length = 2 → charOfHex? digits = some c →
      d.read? ('\\' :: 'x' :: (digits ++ rest)) = (d.read? rest).map (c :: ·) := by
    intro digits hlength hdigits
    match digits, hlength with
    | [a, b], _ => rw [List.cons_append, List.cons_append, List.nil_append, read?, hdigits]; rfl
  exact hread _ (length_hexDigits 2 _) (charOfHex?_hexDigits h)

theorem read?_codeEscape {c : Char} (h : c.toNat < 16 ^ 4) :
    d.read? ('\\' :: 'u' :: (hexDigits 4 c.toNat ++ rest)) = (d.read? rest).map (c :: ·) := by
  have hread : ∀ digits, digits.length = 4 → charOfHex? digits = some c →
      d.read? ('\\' :: 'u' :: (digits ++ rest)) = (d.read? rest).map (c :: ·) := by
    intro digits hlength hdigits
    match digits, hlength with
    | [a, b, a', b'], _ =>
      simp only [List.cons_append, List.nil_append]
      rw [read?, hdigits]
      rfl
  exact hread _ (length_hexDigits 4 _) (charOfHex?_hexDigits h)

theorem read?_shortEscape {e c : Char} (hx : e ≠ 'x') (hu : e ≠ 'u') (h : d.short? e = some c) :
    d.read? ('\\' :: e :: rest) = (d.read? rest).map (c :: ·) := by
  rw [read?, h]
  · rfl
  · rintro a b rest' he -
    exact hx he
  · rintro a b a' b' rest' he -
    exact hu he

theorem read?_plain {c : Char} (h : d.isPlain c = true) :
    d.read? (c :: rest) = (d.read? rest).map (c :: ·) := by
  have hc : c ≠ '\\' := by
    rintro rfl
    cases h
  have hguard : Option.guard d.isPlain c = some c := if_pos h
  rw [read?, hguard]
  · rfl
  all_goals simp [hc]

def Names (d : Dialect) (c : Char) : Prop :=
  isControl c = true → d.raw c = false →
    (c = '\n' → d.named? 'n' = some c) ∧ (c = '\r' → d.named? 'r' = some c) ∧
      (c = '\t' → d.named? 't' = some c)

theorem names_literal (c : Char) : literal.Names c := by
  intro _ _
  refine ⟨?_, ?_, ?_⟩ <;> rintro rfl <;> rfl

theorem read?_controlEscape {c : Char} (hc : isControl c = true) (hr : d.raw c = false)
    (hn : d.Names c) : d.read? (controlEscape c ++ rest) = (d.read? rest).map (c :: ·) := by
  obtain ⟨hline, hreturn, htab⟩ := hn hc hr
  have hsize : c.toNat < 16 ^ 2 := by
    simp only [isControl, Bool.or_eq_true, decide_eq_true_eq] at hc
    omega
  unfold controlEscape
  split
  · next h => exact read?_shortEscape (by decide) (by decide) (by simp [short?, hline h])
  · split
    · next h => exact read?_shortEscape (by decide) (by decide) (by simp [short?, hreturn h])
    · split
      · next h => exact read?_shortEscape (by decide) (by decide) (by simp [short?, htab h])
      · exact read?_hexEscape hsize

/-- Every escaped character reads as itself. -/
theorem read?_escapeChar {c : Char} (hn : d.Names c) :
    d.read? (escapeChar d.raw c ++ rest) = (d.read? rest).map (c :: ·) := by
  unfold escapeChar
  split
  · next h =>
    have hshort : d.short? c = some c := by rw [short?, if_pos (by tauto)]
    apply read?_shortEscape _ _ hshort <;> rcases h with rfl | rfl | rfl <;> decide
  · next hquote =>
    split
    · next h =>
      apply read?_codeEscape
      rcases h with rfl | rfl <;> decide
    · next hseparator =>
      split
      · next h =>
        rw [Bool.and_eq_true, Bool.not_eq_true'] at h
        exact read?_controlEscape h.1 h.2 hn
      · next h =>
        simp only [not_or] at hquote hseparator
        apply read?_plain
        cases hcontrol : isControl c <;> simp_all [isPlain]

end Dialect

/-! Closing tags are broken where no escape begins or ends. -/

theorem lt_not_mem_escapeChar (raw : Char → Bool) {c : Char} (h : c ≠ '<') :
    '<' ∉ escapeChar raw c := by
  have hdigits : ∀ width n, '<' ∉ hexDigits width n := by
    intro width n hmem
    obtain ⟨digit, hdigit, he⟩ := mem_hexDigits hmem
    revert digit
    decide
  unfold escapeChar controlEscape
  split_ifs <;> simp [hdigits, h.symm]

theorem breakClosingTags_append {front : List Char} (h : '<' ∉ front) (text : List Char) :
    breakClosingTags (front ++ text) = front ++ breakClosingTags text := by
  induction front with
  | nil => rfl
  | cons c front ih =>
    rw [List.mem_cons, not_or] at h
    rw [List.cons_append, breakClosingTags, if_neg fun hc => h.1 hc.1.symm, ih h.2]
    rfl

theorem exists_of_closesElement {text : List Char} (h : closesElement text = true) :
    ∃ rest, text = '/' :: rest := by
  unfold closesElement at h
  split at h
  · exact ⟨_, rfl⟩
  · cases h

end EntitySchema.Text
