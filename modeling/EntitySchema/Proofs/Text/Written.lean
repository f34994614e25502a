import EntitySchema.Proofs.Text.Reader

/-!
# Written forms

A text is written character by character, each one as its escape; a slash may have a backslash in
front, which is how closing tags and comment terminators are broken. Escaped text is a written form of
the text, and every written form reads as the text.
-/

set_option autoImplicit false

namespace EntitySchema.Text

def escapeAlphabet : List Char :=
  ['\\', '"', '\x27', '/', 'n', 'r', 't', 'x', 'u', '0', '1', '2', '3', '4', '5', '6', '7', '8', '9',
    'a', 'b', 'c', 'd', 'e', 'f']

theorem mem_escapeAlphabet_of_mem_hexDigits {width n : Nat} {x : Char} (h : x ∈ hexDigits width n) :
    x ∈ escapeAlphabet := by
  obtain ⟨digit, hdigit, rfl⟩ := mem_hexDigits h
  clear h
  revert digit
  decide

/-- A character stays as it is, or it is written behind a backslash. -/
theorem escapeChar_cases (raw : Char → Bool) (c : Char) : escapeChar raw c = [c] ∨
    ∃ rest, escapeChar raw c = '\\' :: rest ∧ rest ⊆ escapeAlphabet := by
  unfold escapeChar
  split
  · next h =>
    refine .inr ⟨[c], rfl, ?_⟩
    rcases h with rfl | rfl | rfl <;> decide
  · split
    · refine .inr ⟨_, rfl, List.cons_subset.mpr ⟨by decide, fun x hx => ?_⟩⟩
      exact mem_escapeAlphabet_of_mem_hexDigits hx
    · split
      · right
        unfold controlEscape
        split_ifs
        iterate 3 exact ⟨_, rfl, by decide⟩
        refine ⟨_, rfl, List.cons_subset.mpr ⟨by decide, fun x hx => ?_⟩⟩
        exact mem_escapeAlphabet_of_mem_hexDigits hx
      · exact .inl rfl

inductive Writes (d : Dialect) : Char → List Char → Prop
  | escape (c : Char) (hn : d.Names c) : Writes d c (escapeChar d.raw c)
  | slash : Writes d '/' ['\\', '/']

inductive Written (d : Dialect) : List Char → List Char → Prop
  | nil : Written d [] []
  | cons {c : Char} {w source text : List Char} (hw : Writes d c w) (h : Written d source text) :
    Written d (c :: source) (w ++ text)

namespace Writes

variable {d : Dialect} {c x : Char} {w : List Char}

theorem eq_or_escape (h : Writes d c w) :
    w = [c] ∨ ∃ rest, w = '\\' :: rest ∧ rest ⊆ escapeAlphabet := by
  cases h with
  | escape c hn => exact escapeChar_cases d.raw c
  | slash => exact .inr ⟨_, rfl, by decide⟩

/-- A character outside of escapes is found where it is written. -/
theorem eq_of_mem (h : Writes d c w) (hx : x ∉ escapeAlphabet) (hm : x ∈ w) : c = x ∧ w = [x] := by
  rcases h.eq_or_escape with rfl | ⟨rest, rfl, hrest⟩
  · rw [List.mem_singleton.mp hm]
    exact ⟨rfl, rfl⟩
  · rcases List.mem_cons.mp hm with rfl | hm
    · exact absurd (by decide) hx
    · exact absurd (hrest hm) hx

theorem eq_of_head (h : Writes d c w) {rest : List Char} (hx : x ≠ '\\') (he : w = x :: rest) :
    c = x ∧ w = [x] := by
  rcases h.eq_or_escape with rfl | ⟨others, rfl, -⟩
  · cases he
    exact ⟨rfl, rfl⟩
  · cases he
    exact absurd rfl hx

theorem ne_nil (h : Writes d c w) : w ≠ [] := by
  rcases h.eq_or_escape with rfl | ⟨rest, rfl, -⟩ <;> exact List.cons_ne_nil _ _

theorem read? (h : Writes d c w) (rest : List Char) :
    d.read? (w ++ rest) = (d.read? rest).map (c :: ·) := by
  cases h with
  | escape c hn => exact Dialect.read?_escapeChar hn
  | slash =>
    exact Dialect.read?_shortEscape (by decide) (by decide)
      (by simp [Dialect.short?] : d.short? '/' = some '/')

end Writes

/-- A character that escaping leaves as it is and that no dialect has to name. -/
theorem writes_plain (d : Dialect) {c : Char} (hc : c = '\x60' ∨ c = '*' ∨ c = '/' ∨ c = '<') :
    Writes d c [c] := by
  have hn : d.Names c := by
    intro hcontrol
    rcases hc with rfl | rfl | rfl | rfl <;> cases hcontrol
  have he : escapeChar d.raw c = [c] := by rcases hc with rfl | rfl | rfl | rfl <;> rfl
  exact he ▸ Writes.escape c hn

namespace Written

variable {d : Dialect} {source text : List Char}

theorem read? (h : Written d source text) : d.read? text = some source := by
  induction h with
  | nil => rfl
  | cons hw _ ih => rw [hw.read?, ih]; rfl

theorem append (h : Written d source text) {source' text' : List Char}
    (h' : Written d source' text') : Written d (source ++ source') (text ++ text') := by
  induction h with
  | nil => exact h'
  | cons hw _ ih =>
    rw [List.append_assoc]
    exact .cons hw ih

theorem singleton {c : Char} {w : List Char} (hw : Writes d c w) : Written d [c] w := by
  simpa using Written.cons hw Written.nil

theorem exists_of_concat {c : Char} (h : Written d (source ++ [c]) text) :
    ∃ front w, text = front ++ w ∧ Written d source front ∧ Writes d c w := by
  induction source generalizing text with
  | nil =>
    cases h with
    | cons hw hnil =>
      cases hnil
      exact ⟨[], _, by simp, .nil, hw⟩
  | cons b source ih =>
    cases h with
    | cons hb hrest =>
      obtain ⟨front, w, rfl, hfront, hw⟩ := ih hrest
      exact ⟨_, w, (List.append_assoc _ _ _).symm, .cons hb hfront, hw⟩

/-- A written form that does not begin with an escape begins as the text does. -/
theorem exists_of_head {x : Char} (hx : x ≠ '\\') (h : Written d source (x :: text)) :
    ∃ others, source = x :: others ∧ Written d others text := by
  generalize ht : x :: text = whole at h
  cases h with
  | nil => cases ht
  | @cons c w source rest hw hrest =>
    obtain ⟨y, w', rfl⟩ := List.exists_cons_of_ne_nil hw.ne_nil
    rw [List.cons_append, List.cons.injEq] at ht
    obtain ⟨rfl, ht⟩ := ht
    obtain ⟨rfl, hsingle⟩ := hw.eq_of_head hx rfl
    cases hsingle
    rw [List.nil_append] at ht
    exact ⟨source, rfl, ht ▸ hrest⟩

end Written

/-! Escaping. -/

theorem written_escapeLeaving {d : Dialect} {cs : List Char} (h : ∀ c ∈ cs, d.Names c) :
    Written d cs (escapeLeaving d.raw cs) := by
  unfold escapeLeaving
  induction cs with
  | nil => exact .nil
  | cons c cs ih =>
    rw [List.forall_mem_cons] at h
    rw [List.flatMap_cons]
    by_cases hc : c = '<'
    · subst hc
      have hlt : escapeChar d.raw '<' = ['<'] := rfl
      rw [hlt, List.singleton_append, breakClosingTags]
      split
      · next hclose =>
        obtain ⟨rest, hrest⟩ := exists_of_closesElement hclose.2
        rw [hrest] at ih ⊢
        have hslash : breakClosingTags ('/' :: rest) = '/' :: breakClosingTags rest := rfl
        rw [hslash] at ih ⊢
        obtain ⟨others, rfl, hothers⟩ := (ih h.2).exists_of_head (by decide)
        exact .cons (writes_plain d (by simp)) (.cons .slash hothers)
      · exact .cons (writes_plain d (by simp)) (ih h.2)
    · rw [breakClosingTags_append (lt_not_mem_escapeChar _ hc)]
      exact .cons (.escape c h.1) (ih h.2)

end EntitySchema.Text
