import EntitySchema.Proofs.Text.Literal

/-!
# References to enum values

The default of an enum field is referred to behind a dot if its name is plain, else as escaped text in
brackets. A plain name with a newline at its end passes for a plain one: that is the only way for a
control character to get behind the name of the enum.
-/

set_option autoImplicit false

namespace EntitySchema

namespace Text

def IsDigit (c : Char) : Prop := '0' ≤ c ∧ c ≤ '9'

def IsLetter (c : Char) : Prop := 'A' ≤ c ∧ c ≤ 'Z' ∨ 'a' ≤ c ∧ c ≤ 'z'

structure IsPlainName (cs : List Char) : Prop where
  ne_nil : cs ≠ []
  chars : ∀ c ∈ cs, IsLetter c ∨ IsDigit c ∨ c = '_' ∨ c = '$'
  start : ∀ c ∈ cs.head?, ¬ IsDigit c

def IsPlainLine (cs : List Char) : Prop := ∃ name, IsPlainName name ∧ cs = name ++ ['\n']

theorem not_isDigit_of_isLetter {c : Char} (h : IsLetter c) : ¬ IsDigit c := by
  rintro ⟨-, hdigit⟩
  rcases h with h | h
  · exact absurd (Char.le_trans h.1 hdigit) (by decide)
  · exact absurd (Char.le_trans h.1 hdigit) (by decide)

/-! Control characters. -/

theorem isControl_of_between {a b c : Char} (h : a ≤ c ∧ c ≤ b) (ha : 0x20 ≤ a.toNat)
    (hb : b.toNat < 0x7F) : isControl c = false := by
  have hlow : a.toNat ≤ c.toNat := h.1
  have hhigh : c.toNat ≤ b.toNat := h.2
  rw [isControl, Bool.or_eq_false_iff, decide_eq_false_iff_not, decide_eq_false_iff_not]
  omega

theorem isControl_of_mem_plainName {cs : List Char} (h : IsPlainName cs) {c : Char} (hc : c ∈ cs) :
    isControl c = false := by
  rcases h.chars c hc with (hupper | hlower) | hdigit | rfl | rfl
  · exact isControl_of_between hupper (by decide) (by decide)
  · exact isControl_of_between hlower (by decide) (by decide)
  · exact isControl_of_between hdigit (by decide) (by decide)
  · decide
  · decide

/-- The newline at its end keeps a line from being a plain name itself. -/
theorem IsPlainLine.not_isPlainName {cs : List Char} (h : IsPlainLine cs) : ¬ IsPlainName cs := by
  obtain ⟨name, -, rfl⟩ := h
  intro hplain
  have hnewline := isControl_of_mem_plainName hplain (c := '\n') (by simp)
  cases hnewline

theorem mem_of_mem_breakClosingTags {c : Char} {text : List Char} (h : c ∈ breakClosingTags text) :
    c = '\\' ∨ c ∈ text := by
  induction text with
  | nil => exact .inr h
  | cons b text ih =>
    rw [breakClosingTags] at h
    split at h
    · simp only [List.mem_cons] at h ⊢
      tauto
    · simp only [List.mem_cons] at h ⊢
      tauto

/-- A control character is not left as it is. -/
theorem exists_escapeChar_of_isControl {c : Char} (h : isControl c = true) :
    ∃ e rest, escapeChar (fun _ => false) c = '\\' :: e :: rest := by
  unfold escapeChar controlEscape
  rw [h]
  split_ifs with _ _ hraw
  iterate 6 exact ⟨_, _, rfl⟩
  exact absurd rfl hraw

theorem isControl_of_mem_escapeChar {a c : Char} (h : c ∈ escapeChar (fun _ => false) a) :
    isControl c = false := by
  have halphabet : escapeAlphabet.all (!isControl ·) = true := by decide
  simp only [List.all_eq_true, Bool.not_eq_true'] at halphabet
  rcases escapeChar_cases (fun _ => false) a with he | ⟨rest, he, hrest⟩
  · rw [he, List.mem_singleton] at h
    subst h
    rw [← Bool.not_eq_true]
    intro hcontrol
    obtain ⟨e, rest, hescaped⟩ := exists_escapeChar_of_isControl hcontrol
    rw [he] at hescaped
    cases hescaped
  · rw [he] at h
    rcases List.mem_cons.mp h with rfl | h
    · decide
    · exact halphabet c (hrest h)

theorem isControl_of_mem_escapeLiteral {cs : List Char} {c : Char} (h : c ∈ escapeLiteral cs) :
    isControl c = false := by
  rcases mem_of_mem_breakClosingTags h with rfl | h
  · decide
  · obtain ⟨a, -, hc⟩ := List.mem_flatMap.mp h
    exact isControl_of_mem_escapeChar hc

end Text

namespace Field

open Text

theorem isAlpha_iff (c : Char) : c.isAlpha = true ↔ IsLetter c := by
  have halpha : c.isAlpha =
      (decide ('A' ≤ c ∧ c ≤ 'Z') || decide ('a' ≤ c) && decide (c ≤ 'z')) := rfl
  simp only [halpha, IsLetter, Bool.or_eq_true, Bool.and_eq_true, decide_eq_true_eq]

theorem isDigit_iff (c : Char) : c.isDigit = true ↔ IsDigit c := by
  simp only [Char.isDigit, Bool.and_eq_true, decide_eq_true_eq, ge_iff_le]
  exact Iff.rfl

theorem isIdentifierChar_iff (c : Char) :
    isIdentifierChar c = true ↔ IsLetter c ∨ IsDigit c ∨ c = '_' ∨ c = '$' := by
  simp only [isIdentifierChar, Char.isAlphanum, Bool.or_eq_true, beq_iff_eq, isAlpha_iff, isDigit_iff]
  tauto

theorem isIdentifierStart_iff (c : Char) :
    isIdentifierStart c = true ↔ (IsLetter c ∨ IsDigit c ∨ c = '_' ∨ c = '$') ∧ ¬ IsDigit c := by
  have hletter : IsLetter c → ¬ IsDigit c := not_isDigit_of_isLetter
  have hunderscore : c = '_' → ¬ IsDigit c := by
    rintro rfl
    unfold IsDigit
    decide
  have hdollar : c = '$' → ¬ IsDigit c := by
    rintro rfl
    unfold IsDigit
    decide
  simp only [isIdentifierStart, Bool.or_eq_true, beq_iff_eq, isAlpha_iff]
  tauto

theorem isIdentifier_iff (cs : List Char) : isIdentifier cs = true ↔ IsPlainName cs := by
  cases cs with
  | nil => exact ⟨nofun, fun h => absurd rfl h.ne_nil⟩
  | cons c cs =>
    simp only [isIdentifier, Bool.and_eq_true, List.all_eq_true, isIdentifierStart_iff,
      isIdentifierChar_iff]
    constructor
    · rintro ⟨⟨hc, hdigit⟩, hcs⟩
      exact ⟨List.cons_ne_nil c cs, List.forall_mem_cons.mpr ⟨hc, hcs⟩, by simpa using hdigit⟩
    · intro h
      obtain ⟨hc, hcs⟩ := List.forall_mem_cons.mp h.chars
      exact ⟨⟨hc, h.start c rfl⟩, hcs⟩

/-- What passes for a plain name. -/
theorem isDotted_iff (cs : List Char) : isDotted cs = true ↔
    IsPlainName cs ∨ IsPlainLine cs := by
  simp only [isDotted, Bool.or_eq_true, Bool.and_eq_true, beq_iff_eq, isIdentifier_iff]
  refine or_congr_right ?_
  constructor
  · rintro ⟨hlast, hname⟩
    obtain ⟨name, rfl⟩ := List.getLast?_eq_some_iff.mp hlast
    rw [List.dropLast_concat] at hname
    exact ⟨name, hname, rfl⟩
  · rintro ⟨name, hname, rfl⟩
    exact ⟨List.getLast?_concat, by rwa [List.dropLast_concat]⟩

/-- Of the names that may follow a dot, only a line holds a control character. -/
theorem exists_isControl_dotted_iff {v : String} (h : IsPlainName v.toList ∨ IsPlainLine v.toList) :
    (∃ c ∈ ("." ++ v).toList, isControl c = true) ↔ IsPlainLine v.toList := by
  constructor
  · rintro ⟨c, hc, hcontrol⟩
    refine h.resolve_left fun hplain => ?_
    rw [String.toList_append] at hc
    rcases List.mem_append.mp hc with hc | hc
    · cases List.mem_singleton.mp hc
      cases hcontrol
    · rw [isControl_of_mem_plainName hplain hc] at hcontrol
      cases hcontrol
  · rintro ⟨name, -, he⟩
    exact ⟨'\n', by simp [he], rfl⟩

theorem isControl_of_mem_bracketed {v : String} {c : Char}
    (h : c ∈ ("[\"" ++ escapeText v ++ "\"]").toList) : isControl c = false := by
  have hbrackets : ("[\"".toList ++ "\"]".toList).all (!isControl ·) = true := by decide
  simp only [List.all_eq_true, Bool.not_eq_true', List.forall_mem_append] at hbrackets
  simp only [String.toList_append, List.mem_append, toList_escapeText] at h
  rcases h with (h | h) | h
  · exact hbrackets.1 c h
  · exact isControl_of_mem_escapeLiteral h
  · exact hbrackets.2 c h

theorem bracketed_ne_dotted (v : String) : "[\"" ++ escapeText v ++ "\"]" ≠ "." ++ v := by
  intro he
  have hhead := congrArg String.toList he
  simp [String.toList_append] at hhead

/-- The default of an enum field is referred to behind a dot exactly if it is a plain name or a plain
name on a line of its own, and else as escaped text in brackets. Only in the second case does a control
character follow the name of the enum. -/
theorem enum_reference_dotted_iff {f : Field} {v : String} (hkind : f.kind = .enum)
    (hdefault : f.hasDefaultValue = true) (hvalue : f.defaultValue = .text v) :
    ∃ tail, f.enumReference? = some (f.typeName ++ tail) ∧
      (tail = "." ++ v ∨ tail = "[\"" ++ escapeText v ++ "\"]") ∧
      (tail = "." ++ v ↔ IsPlainName v.toList ∨ IsPlainLine v.toList) ∧
      ((∃ c ∈ tail.toList, isControl c = true) ↔ IsPlainLine v.toList) := by
  have hdotted := isDotted_iff v.toList
  cases hd : isDotted v.toList with
  | true =>
    have hname := hdotted.mp hd
    refine ⟨"." ++ v, ?_, .inl rfl, iff_of_true rfl hname, exists_isControl_dotted_iff hname⟩
    simp [enumReference?, hkind, hdefault, hvalue, hd, String.append_assoc]
  | false =>
    have hname : ¬ (IsPlainName v.toList ∨ IsPlainLine v.toList) := by
      rw [← hdotted, hd]
      exact Bool.false_ne_true
    have hcontrol : ¬ ∃ c ∈ ("[\"" ++ escapeText v ++ "\"]").toList, isControl c = true := by
      rintro ⟨c, hc, hcontrol⟩
      rw [isControl_of_mem_bracketed hc] at hcontrol
      cases hcontrol
    refine ⟨"[\"" ++ escapeText v ++ "\"]", ?_, .inr rfl, iff_of_false (bracketed_ne_dotted v) hname,
      iff_of_false hcontrol fun hline => hname (.inr hline)⟩
    simp [enumReference?, hkind, hdefault, hvalue, hd, String.append_assoc]

def linedRole : Field where
  name := "role"
  typeName := "Role"
  kind := .enum
  hasDefaultValue := true
  defaultValue := .text "USER\n"

theorem isPlainLine_linedRole : IsPlainLine "USER\n".toList :=
  ⟨"USER".toList, (isIdentifier_iff _).mp (by decide), rfl⟩

theorem enum_reference_dotted_iff_linedRole :
    linedRole.kind = .enum ∧ linedRole.hasDefaultValue = true ∧
      linedRole.defaultValue = .text "USER\n" ∧
      ∃ tail, linedRole.enumReference? = some ("Role" ++ tail) ∧ tail = "." ++ "USER\n" ∧
        ∃ c ∈ tail.toList, isControl c = true := by
  obtain ⟨tail, hwritten, -, hdotted, hcontrol⟩ :=
    enum_reference_dotted_iff (f := linedRole) (v := "USER\n") rfl rfl rfl
  exact ⟨rfl, rfl, rfl, tail, hwritten, hdotted.mpr (.inr isPlainLine_linedRole),
    hcontrol.mpr isPlainLine_linedRole⟩

/-- The reference to a default that is no plain name can stand behind a dot, newline and all. -/
theorem dotted_references_may_hold_newlines :
    linedRole.kind = .enum ∧ linedRole.hasDefaultValue = true ∧
      linedRole.defaultValue = .text "USER\n" ∧ ¬ IsPlainName "USER\n".toList ∧
      linedRole.enumReference? = some ("Role" ++ ".USER\n") ∧
      '\n' ∈ ".USER\n".toList ∧ isControl '\n' = true :=
  ⟨rfl, rfl, rfl, isPlainLine_linedRole.not_isPlainName, by decide +kernel, by decide, rfl⟩

end Field

end EntitySchema
