import EntitySchema.Proofs.Correspondence
import EntitySchema.Proofs.Text.Fences

/-!
# Closing tags

Escaping leaves no closing tag of an embedded element in a text. Documentation may hold one all the
same: its fence markers are paired after it is escaped, and where a dangling marker is dropped the text
before it and the text behind it may form a tag. That is the only way for a tag to arise.
-/

set_option autoImplicit false

namespace EntitySchema.Text

def IsClosingTag (tag : List Char) : Prop :=
  ∃ element ∈ embeddedElements, ∃ name,
    List.Forall₂ (fun letter c => matchesLetter letter c = true) element name ∧
      tag = '<' :: '/' :: name

def HasClosingTag (text : List Char) : Prop := ∃ tag, IsClosingTag tag ∧ tag <:+: text

theorem beginsWithWord_iff (word text : List Char) : beginsWithWord word text = true ↔
    ∃ name, List.Forall₂ (fun letter c => matchesLetter letter c = true) word name ∧
      name <+: text := by
  induction word generalizing text with
  | nil => simp [beginsWithWord]
  | cons letter word ih =>
    cases text with
    | nil => simp [beginsWithWord, List.forall₂_cons_left_iff]
    | cons c text =>
      rw [beginsWithWord, Bool.and_eq_true, ih]
      constructor
      · rintro ⟨hc, name, hname, hbegin⟩
        exact ⟨c :: name, List.Forall₂.cons hc hname, List.cons_prefix_cons.mpr ⟨rfl, hbegin⟩⟩
      · rintro ⟨name, hname, hbegin⟩
        cases hname with
        | cons hd hname =>
          obtain ⟨rfl, hrest⟩ := List.cons_prefix_cons.mp hbegin
          exact ⟨hd, _, hname, hrest⟩

theorem closesElement_of_isClosingTag {tag : List Char} (h : IsClosingTag ('<' :: tag))
    {text : List Char} (ht : tag <+: text) : closesElement text = true := by
  obtain ⟨element, helement, name, hname, he⟩ := h
  cases he
  obtain ⟨others, rfl⟩ := ht
  rw [List.cons_append, closesElement, List.any_eq_true]
  exact ⟨element, helement, (beginsWithWord_iff _ _).mpr ⟨name, hname, List.prefix_append _ _⟩⟩

theorem hasClosingTag_of_closesElement (front : List Char) {text : List Char}
    (h : closesElement text = true) : HasClosingTag (front ++ '<' :: text) := by
  unfold closesElement at h
  split at h
  · next rest =>
    obtain ⟨element, helement, hbegin⟩ := List.any_eq_true.mp h
    obtain ⟨name, hname, others, rfl⟩ := (beginsWithWord_iff _ _).mp hbegin
    exact ⟨_, ⟨element, helement, name, hname, rfl⟩, front, others, by simp⟩
  · cases h

/-- Letters of an element name, whatever stands for them. -/
theorem mem_of_matchesLetter {letter c : Char} (h : matchesLetter letter c = true) :
    c ∈ [letter, letter.toUpper, 'ſ', 'ı', 'İ'] := by
  simp only [matchesLetter, Bool.or_eq_true, Bool.and_eq_true, beq_iff_eq] at h
  simp only [List.mem_cons, List.not_mem_nil, or_false]
  tauto

/-- Whether a character is left alone by whatever is done to escaped text. -/
def isTagLetter (c : Char) : Bool :=
  !isBlank c && c != '<' && c != '*' && c != '/' && c != '\\' && c != '\x60'

theorem isTagLetter_of_matchesLetter {element : List Char} (h : element ∈ embeddedElements)
    {letter c : Char} (hl : letter ∈ element) (hc : matchesLetter letter c = true) :
    isTagLetter c = true := by
  have hall : (embeddedElements.all fun element => element.all fun letter =>
      [letter, letter.toUpper, 'ſ', 'ı', 'İ'].all isTagLetter) = true := by decide
  simp only [List.all_eq_true] at hall
  exact hall element h letter hl c (mem_of_matchesLetter hc)

theorem IsClosingTag.exists_name {tag : List Char} (h : IsClosingTag tag) :
    ∃ name, tag = '<' :: '/' :: name ∧ ∀ c ∈ name, isTagLetter c = true := by
  obtain ⟨element, helement, name, hname, rfl⟩ := h
  refine ⟨name, rfl, fun c hc => ?_⟩
  obtain ⟨letter, hletter, hmatch⟩ := exists_left_of_forall₂ hname hc
  exact isTagLetter_of_matchesLetter helement hletter hmatch

theorem IsClosingTag.not_mem {tag : List Char} (h : IsClosingTag tag) {c : Char}
    (hc : isTagLetter c = false) (hlt : c ≠ '<') (hslash : c ≠ '/') : c ∉ tag := by
  obtain ⟨name, rfl, hname⟩ := h.exists_name
  intro hmem
  simp only [List.mem_cons, hlt, hslash, false_or] at hmem
  rw [hname c hmem] at hc
  cases hc

theorem IsClosingTag.isBlank_eq_false {tag : List Char} (h : IsClosingTag tag) :
    ∀ c ∈ tag, isBlank c = false := by
  intro c hc
  by_contra hblank
  rw [Bool.not_eq_false] at hblank
  refine h.not_mem ?_ ?_ ?_ hc
  · simp [isTagLetter, hblank]
  · rintro rfl
    revert hblank
    decide
  · rintro rfl
    revert hblank
    decide

/-! Breaking closing tags leaves none. -/

theorem prefix_breakClosingTags {w : List Char} (hw : '<' ∉ w) (text : List Char)
    (h : w <+: breakClosingTags text) : w <+: text := by
  induction text generalizing w with
  | nil => exact h
  | cons c text ih =>
    cases w with
    | nil => exact List.nil_prefix
    | cons a w =>
      rw [List.mem_cons, not_or] at hw
      rw [breakClosingTags] at h
      split at h
      · next hc => exact absurd (List.cons_prefix_cons.mp h).1 (hc.1 ▸ Ne.symm hw.1)
      · obtain ⟨rfl, hrest⟩ := List.cons_prefix_cons.mp h
        exact List.cons_prefix_cons.mpr ⟨rfl, ih hw.2 hrest⟩

theorem not_hasClosingTag_breakClosingTags (text : List Char) :
    ¬ HasClosingTag (breakClosingTags text) := by
  rintro ⟨tag, htag, hfound⟩
  obtain ⟨name, rfl, hname⟩ := htag.exists_name
  have hlt : '<' ∉ '/' :: name := by
    rw [List.mem_cons, not_or]
    exact ⟨by decide, fun h => absurd (hname _ h) (by decide)⟩
  induction text with
  | nil => cases List.eq_nil_of_infix_nil hfound
  | cons c text ih =>
    rw [breakClosingTags] at hfound
    split at hfound
    · simp only [List.infix_cons_iff, List.cons_prefix_cons] at hfound
      rcases hfound with ⟨-, h, -⟩ | ⟨h, -⟩ | h
      · cases h
      · cases h
      · exact ih h
    · next hkept =>
      rcases List.infix_cons_iff.mp hfound with h | h
      · obtain ⟨rfl, hrest⟩ := List.cons_prefix_cons.mp h
        exact hkept ⟨rfl, closesElement_of_isClosingTag htag (prefix_breakClosingTags hlt _ hrest)⟩
      · exact ih h

/-! Words that are found in a text and in what is made of it. -/

theorem infix_trimStart {w : List Char} (hw : ∀ c ∈ w, isBlank c = false) (text : List Char) :
    w <:+: trimStart text ↔ w <:+: text := by
  induction text with
  | nil => rfl
  | cons c text ih =>
    by_cases hc : isBlank c = true
    · rw [trimStart, List.dropWhile_cons_of_pos hc, ← trimStart, ih, List.infix_cons_iff]
      refine ⟨Or.inr, fun h => h.elim (fun hbegin => ?_) id⟩
      cases w with
      | nil => exact List.nil_infix
      | cons a w =>
        obtain ⟨rfl, -⟩ := List.cons_prefix_cons.mp hbegin
        rw [hw a List.mem_cons_self] at hc
        cases hc
    · rw [trimStart, List.dropWhile_cons_of_neg hc]

theorem infix_trim {w : List Char} (hw : ∀ c ∈ w, isBlank c = false) (text : List Char) :
    w <:+: trim text ↔ w <:+: text := by
  have hend : ∀ t : List Char, w <:+: trimEnd t ↔ w <:+: t := by
    intro t
    rw [← List.reverse_infix, trimEnd, List.reverse_reverse, ← trimStart,
      infix_trimStart (by simpa using hw), List.reverse_infix]
  rw [trim, hend, infix_trimStart hw]

theorem infix_append_marker {a : Char} {w : List Char} (hw : '\x60' ∉ a :: w) (s t : List Char) :
    a :: w <:+: s ++ fenceMarker ++ t ↔ a :: w <:+: s ∨ a :: w <:+: t := by
  have ha : a ≠ '\x60' := fun h => hw (h ▸ List.mem_cons_self)
  have hmarker : a :: w <:+: fenceMarker ++ t ↔ a :: w <:+: t := by
    simp [fenceMarker, List.infix_cons_iff, List.cons_prefix_cons, ha]
  rw [List.append_assoc, List.infix_append_iff, hmarker]
  refine ⟨?_, fun h => h.imp_right Or.inl⟩
  rintro (h | h | ⟨left, right, he, hleft, hright⟩)
  · exact Or.inl h
  · exact Or.inr h
  · cases right with
    | nil =>
      rw [List.append_nil] at he
      exact Or.inl (he ▸ hleft.isInfix)
    | cons b right =>
      obtain ⟨rfl, -⟩ := List.cons_prefix_cons.mp hright
      exact absurd (by simp [he]) hw

theorem infix_joinAtFences {a : Char} {w : List Char} (hw : '\x60' ∉ a :: w)
    (segments : List (List Char)) :
    a :: w <:+: joinAtFences segments ↔ ∃ s ∈ segments, a :: w <:+: s := by
  induction segments with
  | nil => simp [joinAtFences]
  | cons s rest ih =>
    by_cases hr : rest = []
    · rw [hr, joinAtFences_singleton]
      simp
    · rw [joinAtFences_cons _ hr, infix_append_marker hw, ih]
      simp

theorem infix_breakOutside {a : Char} {w : List Char} (hw : '*' ∉ a :: w) (hb : a ≠ '\\')
    (hs : a ≠ '/') (outside : Bool) (segments : List (List Char)) :
    (∃ s ∈ breakOutside outside segments, a :: w <:+: s) ↔ ∃ s ∈ segments, a :: w <:+: s := by
  induction segments generalizing outside with
  | nil => rfl
  | cons s rest ih =>
    rw [breakOutside]
    simp only [List.exists_mem_cons_iff, ih]
    cases outside
    · rfl
    · exact or_congr_left (infix_breakTerminators hw hb hs s)

/-! Where documentation may hold a closing tag. -/

theorem IsClosingTag.infix_joinAtFences {tag : List Char} (h : IsClosingTag tag)
    (segments : List (List Char)) :
    tag <:+: joinAtFences segments ↔ ∃ s ∈ segments, tag <:+: s := by
  have hgrave : '\x60' ∉ tag := h.not_mem (by decide) (by decide) (by decide)
  obtain ⟨name, rfl, -⟩ := h.exists_name
  exact Text.infix_joinAtFences hgrave segments

theorem IsClosingTag.infix_breakOutside {tag : List Char} (h : IsClosingTag tag)
    (segments : List (List Char)) :
    (∃ s ∈ breakOutside true segments, tag <:+: s) ↔ ∃ s ∈ segments, tag <:+: s := by
  have hstar : '*' ∉ tag := h.not_mem (by decide) (by decide) (by decide)
  obtain ⟨name, rfl, -⟩ := h.exists_name
  exact Text.infix_breakOutside hstar (by decide) (by decide) true segments

theorem hasClosingTag_documentation?_iff {cs r : List Char} (h : documentation? cs = some r) :
    HasClosingTag r ↔
      ∃ s ∈ balanceFences (splitAtFences (escapeLeaving isLayout (unifyLineEnds cs))),
        HasClosingTag s := by
  have htag : ∀ tag, IsClosingTag tag → (tag <:+: r ↔
      ∃ s ∈ balanceFences (splitAtFences (escapeLeaving isLayout (unifyLineEnds cs))),
        tag <:+: s) := by
    intro tag ht
    rw [documentation?_eq_some h, infix_trim ht.isBlank_eq_false, ht.infix_joinAtFences,
      documentSegments, ht.infix_breakOutside]
  constructor
  · rintro ⟨tag, ht, hfound⟩
    obtain ⟨s, hs, hin⟩ := (htag tag ht).mp hfound
    exact ⟨s, hs, tag, ht, hin⟩
  · rintro ⟨s, hs, tag, ht, hin⟩
    exact ⟨tag, ht, (htag tag ht).mpr ⟨s, hs, hin⟩⟩

theorem not_hasClosingTag_of_mem_splitAtFences {raw : Char → Bool} {cs s : List Char}
    (h : s ∈ splitAtFences (escapeLeaving raw cs)) : ¬ HasClosingTag s := by
  rintro ⟨tag, ht, hfound⟩
  have hwhole : tag <:+: joinAtFences (splitAtFences (escapeLeaving raw cs)) :=
    (ht.infix_joinAtFences _).mpr ⟨s, h, hfound⟩
  rw [joinAtFences_splitAtFences] at hwhole
  exact not_hasClosingTag_breakClosingTags _ ⟨tag, ht, hwhole⟩

/-- A dangling marker stands between two texts of escaped text: the markers before it are paired. -/
def Dangling (text before after : List Char) : Prop :=
  ∃ front, splitAtFences text = front ++ [before, after] ∧ front.length % 2 = 0

def ClosingTagAcross (before after : List Char) : Prop :=
  ∃ left right, left ≠ [] ∧ right ≠ [] ∧ IsClosingTag (left ++ right) ∧ left <:+ before ∧
    right <+: after

theorem hasClosingTag_append_iff {before after : List Char} (hb : ¬ HasClosingTag before)
    (ha : ¬ HasClosingTag after) :
    HasClosingTag (before ++ after) ↔ ClosingTagAcross before after := by
  constructor
  · rintro ⟨tag, htag, hfound⟩
    rcases List.infix_append_iff.mp hfound with h | h | ⟨left, right, rfl, hleft, hright⟩
    · exact absurd ⟨tag, htag, h⟩ hb
    · exact absurd ⟨tag, htag, h⟩ ha
    · refine ⟨left, right, ?_, ?_, htag, hleft, hright⟩
      · rintro rfl
        exact ha ⟨_, htag, hright.isInfix⟩
      · rintro rfl
        rw [List.append_nil] at htag
        exact hb ⟨_, htag, hleft.isInfix⟩
  · rintro ⟨left, right, -, -, htag, hleft, hright⟩
    exact ⟨_, htag, List.infix_append_iff.mpr (Or.inr (Or.inr ⟨left, right, rfl, hleft, hright⟩))⟩

theorem Dangling.balanceFences_eq {text before after : List Char}
    (h : Dangling text before after) :
    ∃ front, balanceFences (splitAtFences text) = front ++ [before ++ after] := by
  obtain ⟨front, hsplit, hfront⟩ := h
  rcases balanceFences_cases (splitAtFences_ne_nil text) with
    ⟨hodd, -⟩ | ⟨front', before', after', hsplit', -, he⟩
  · rw [hsplit, List.length_append, List.length_cons, List.length_singleton] at hodd
    omega
  · have hlast : front' ++ [before', after'] = front ++ [before, after] :=
      hsplit'.symm.trans hsplit
    obtain ⟨rfl, hpair⟩ := List.append_inj' hlast rfl
    cases hpair
    exact ⟨front', he⟩

/-- Pairing the markers brings a closing tag only where it joins two segments. -/
theorem exists_hasClosingTag_balanceFences_iff {text : List Char}
    (h : ∀ s ∈ splitAtFences text, ¬ HasClosingTag s) :
    (∃ s ∈ balanceFences (splitAtFences text), HasClosingTag s) ↔
      ∃ before after, Dangling text before after ∧ ClosingTagAcross before after := by
  have hacross : ∀ before after, Dangling text before after →
      (HasClosingTag (before ++ after) ↔ ClosingTagAcross before after) := by
    rintro before after ⟨front, hsplit, -⟩
    exact hasClosingTag_append_iff (h before (by simp [hsplit])) (h after (by simp [hsplit]))
  constructor
  · rintro ⟨s, hs, htag⟩
    rcases balanceFences_cases (splitAtFences_ne_nil text) with
      ⟨-, he⟩ | ⟨front, before, after, hsplit, hfront, he⟩
    · exact absurd htag (h s (he ▸ hs))
    · rw [he, List.mem_append, List.mem_singleton] at hs
      rcases hs with hs | rfl
      · exact absurd htag (h s (by simp [hsplit, hs]))
      · have hdangling : Dangling text before after := ⟨front, hsplit, hfront⟩
        exact ⟨before, after, hdangling, (hacross _ _ hdangling).mp htag⟩
  · rintro ⟨before, after, hdangling, hfound⟩
    obtain ⟨front, he⟩ := hdangling.balanceFences_eq
    exact ⟨before ++ after, by simp [he], (hacross _ _ hdangling).mpr hfound⟩

/-- Documentation holds a closing tag exactly if a dangling marker stood inside of one. -/
theorem closing_tag_in_documentation_iff {doc r : String}
    (h : sanitizeDocumentation (some doc) = some r) :
    HasClosingTag r.toList ↔ ∃ before after,
      Dangling (escapeLeaving isLayout (unifyLineEnds doc.toList)) before after ∧
        ClosingTagAcross before after := by
  rw [hasClosingTag_documentation?_iff (sanitizeDocumentation_eq_some h)]
  exact exists_hasClosingTag_balanceFences_iff fun s => not_hasClosingTag_of_mem_splitAtFences

theorem closing_tag_in_documentation_iff_style :
    sanitizeDocumentation (some "in ```x``` a </STY```le>") = some "in ```x``` a </STYle>" ∧
      HasClosingTag "in ```x``` a </STYle>".toList ∧
      ∃ before after,
        Dangling (escapeLeaving isLayout (unifyLineEnds "in ```x``` a </STY```le>".toList))
          before after ∧ ClosingTagAcross before after := by
  have h : sanitizeDocumentation (some "in ```x``` a </STY```le>") =
      some "in ```x``` a </STYle>" := by decide +kernel
  have hclose : closesElement "/STYle>".toList = true := by decide
  have htag : HasClosingTag "in ```x``` a </STYle>".toList :=
    hasClosingTag_of_closesElement "in ```x``` a ".toList hclose
  exact ⟨h, htag, (closing_tag_in_documentation_iff h).mp htag⟩

/-- A marker between the angle bracket and the slash of a tag keeps the tag from being broken. -/
theorem documentation_may_hold_closing_tag :
    sanitizeDocumentation (some "<```/script>") = some "</script>" ∧
      HasClosingTag "</script>".toList := by
  have hclose : closesElement "/script>".toList = true := by decide
  exact ⟨by decide +kernel, hasClosingTag_of_closesElement [] hclose⟩

end EntitySchema.Text
