import EntitySchema.Field.Default
import EntitySchema.Proofs.Text.Written

/-!
# Reading literals

The strict reader reads back every escaped text. So a text default between double quotes is one literal:
the first quote that is not escaped closes it, and what it encloses reads as the default.
-/

set_option autoImplicit false

namespace EntitySchema.Text

/-! The end of a literal between double quotes. -/

/-- The text in front of the first double quote that no backslash escapes, and what follows the
quote. -/
def untilQuote? : List Char → Option (List Char × List Char)
  | [] => none
  | '\\' :: c :: rest => (untilQuote? rest).map fun p => ('\\' :: c :: p.1, p.2)
  | '"' :: rest => some ([], rest)
  | c :: rest => (untilQuote? rest).map fun p => (c :: p.1, p.2)

theorem untilQuote?_cons {c : Char} {rest body after : List Char} (hb : c ≠ '\\') (hq : c ≠ '"')
    (h : untilQuote? rest = some (body, after)) :
    untilQuote? (c :: rest) = some (c :: body, after) := by
  rw [untilQuote?, h]
  · rfl
  all_goals simp [hb, hq]

theorem untilQuote?_append {front rest body after : List Char}
    (hf : ∀ c ∈ front, c ≠ '\\' ∧ c ≠ '"') (h : untilQuote? rest = some (body, after)) :
    untilQuote? (front ++ rest) = some (front ++ body, after) := by
  induction front with
  | nil => exact h
  | cons c front ih =>
    rw [List.forall_mem_cons] at hf
    exact untilQuote?_cons hf.1.1 hf.1.2 (ih hf.2)

theorem not_quote_of_hexNumber? {before n : Nat} {digits : List Char}
    (h : hexNumber? before digits = some n) : ∀ c ∈ digits, c ≠ '\\' ∧ c ≠ '"' := by
  induction digits generalizing before with
  | nil => simp
  | cons c digits ih =>
    obtain ⟨value, hvalue, hrest⟩ := Option.bind_eq_some_iff.mp h
    refine List.forall_mem_cons.mpr ⟨⟨?_, ?_⟩, ih hrest⟩ <;> rintro rfl <;> cases hvalue

namespace Dialect

theorem readBefore_eq_some {c : Option Char} {rest : Option (List Char)} {text : List Char}
    (h : readBefore c rest = some text) :
    ∃ first others, c = some first ∧ rest = some others ∧ text = first :: others := by
  obtain ⟨first, hfirst, hothers⟩ := Option.bind_eq_some_iff.mp h
  obtain ⟨others, hrest, he⟩ := Option.map_eq_some_iff.mp hothers
  exact ⟨first, others, hfirst, hrest, he.symm⟩

theorem untilQuote?_codeEscape {e : Char} {digits rest body after : List Char} {c : Char}
    (hc : charOfHex? digits = some c) (h : untilQuote? rest = some (body, after)) :
    untilQuote? ('\\' :: e :: (digits ++ rest)) = some ('\\' :: e :: (digits ++ body), after) := by
  obtain ⟨n, hn, -⟩ := Option.bind_eq_some_iff.mp hc
  rw [untilQuote?, untilQuote?_append (not_quote_of_hexNumber? hn) h]
  rfl

/-- A text that can be read holds no open quote. -/
theorem untilQuote?_of_read? {d : Dialect} {body text after : List Char}
    (h : d.read? body = some text) : untilQuote? (body ++ '"' :: after) = some (body, after) := by
  fun_induction read? d body generalizing text with
  | case1 => rfl
  | case2 a b rest ih =>
    obtain ⟨c, others, hc, hrest, -⟩ := readBefore_eq_some h
    exact untilQuote?_codeEscape hc (ih hrest)
  | case3 a b a' b' rest ih =>
    obtain ⟨c, others, hc, hrest, -⟩ := readBefore_eq_some h
    exact untilQuote?_codeEscape hc (ih hrest)
  | case4 e rest hx hu ih =>
    obtain ⟨c, others, -, hrest, -⟩ := readBefore_eq_some h
    rw [List.cons_append, List.cons_append, untilQuote?, ih hrest]
    rfl
  | case5 c rest hx hu hs ih =>
    obtain ⟨first, others, hplain, hrest, -⟩ := readBefore_eq_some h
    have hc := (Option.guard_eq_some_iff.mp hplain).2
    simp only [isPlain, Bool.and_eq_true, bne_iff_ne] at hc
    exact untilQuote?_cons hc.1.1.1.1.1 hc.1.1.1.1.2 (ih hrest)

end Dialect

theorem read?_escapeLiteral (cs : List Char) :
    Dialect.literal.read? (escapeLiteral cs) = some cs :=
  (written_escapeLeaving fun c _ => Dialect.names_literal c).read?

theorem toList_escapeText (s : String) : (escapeText s).toList = escapeLiteral s.toList :=
  String.toList_ofList

/-- Escaped text reads as the text that was escaped, and a text default is written as one literal,
which the first open quote closes and which reads as the default. -/
theorem escaped_text_reads_back :
    (∀ s : String, Dialect.literal.read? (escapeText s).toList = some s.toList) ∧
    ∀ (f : Field) (s : String), f.hasDefaultValue = true → f.kind ≠ .enum →
      f.defaultValue = .text s →
      ∃ written enclosed body, f.defaultLiteral? = some written ∧
        written.toList = '"' :: enclosed ∧ untilQuote? enclosed = some (body, []) ∧
        Dialect.literal.read? body = some s.toList := by
  have hread : ∀ s : String, Dialect.literal.read? (escapeText s).toList = some s.toList := by
    intro s
    rw [toList_escapeText]
    exact read?_escapeLiteral _
  refine ⟨hread, fun f s hdefault hkind hvalue => ?_⟩
  have hwritten : f.defaultLiteral? = some ("\"" ++ escapeText s ++ "\"") := by
    simp [Field.defaultLiteral?, hdefault, hkind, hvalue]
  refine ⟨_, (escapeText s).toList ++ ['"'], _, hwritten, ?_, ?_, hread s⟩
  · rw [String.toList_append, String.toList_append]
    rfl
  · exact Dialect.untilQuote?_of_read? (hread s)

def awkwardDefault : String := "\\\"it's\n\x01\u2028</Script>\\"

def awkwardField : Field where
  name := "note"
  typeName := "String"
  kind := .scalar
  hasDefaultValue := true
  defaultValue := .text awkwardDefault

theorem escaped_text_reads_back_awkward :
    awkwardField.hasDefaultValue = true ∧ awkwardField.kind ≠ .enum ∧
      awkwardField.defaultValue = .text awkwardDefault ∧
      awkwardField.defaultLiteral? =
        some "\"\\\\\\\"it\\'s\\n\\x01\\u2028<\\/Script>\\\\\"" ∧
      ∃ written enclosed body, awkwardField.defaultLiteral? = some written ∧
        written.toList = '"' :: enclosed ∧ untilQuote? enclosed = some (body, []) ∧
        Dialect.literal.read? body = some awkwardDefault.toList := by
  refine ⟨rfl, by decide, rfl, by decide +kernel, ?_⟩
  exact escaped_text_reads_back.2 awkwardField awkwardDefault rfl (by decide) rfl

end EntitySchema.Text
