import EntitySchema.Proofs.Text.Fences
import EntitySchema.Proofs.Text.Written

/-!
# Reading documentation

Whatever is done to escaped documentation leaves a written form of the raw text to which the same is
done: splitting at fences, joining, breaking and trimming never cut an escape. So documentation reads as
the raw text with its line ends unified, without a dangling marker and without the blank characters
around it.
-/

set_option autoImplicit false

namespace EntitySchema.Text

/-! Breaking terminators. -/

theorem breakTerminators_append {front : List Char} (h : '*' ∉ front) (text : List Char) :
    breakTerminators (front ++ text) = front ++ breakTerminators text := by
  induction front with
  | nil => rfl
  | cons c front ih =>
    rw [List.mem_cons, not_or] at h
    rw [List.cons_append, breakTerminators, ih h.2]
    · rfl
    · rintro rest rfl
      exact absurd rfl h.1

theorem Written.breakTerminators {d : Dialect} {source text : List Char}
    (h : Written d source text) : Written d source (breakTerminators text) := by
  induction h with
  | nil => exact .nil
  | @cons c w source text hw hrest ih =>
    by_cases hstar : '*' ∈ w
    · obtain ⟨rfl, rfl⟩ := hw.eq_of_mem (by decide) hstar
      by_cases hslash : ∃ rest, text = '/' :: rest
      · obtain ⟨rest, rfl⟩ := hslash
        have hbreak : Text.breakTerminators ('/' :: rest) = '/' :: Text.breakTerminators rest := rfl
        obtain ⟨others, rfl, hothers⟩ := (hbreak ▸ ih).exists_of_head (by decide)
        exact .cons hw (.cons .slash hothers)
      · have hbreak : Text.breakTerminators ('*' :: text) = '*' :: Text.breakTerminators text := by
          rw [Text.breakTerminators]
          rintro rest - rfl
          exact hslash ⟨rest, rfl⟩
        rw [List.singleton_append, hbreak]
        exact .cons hw ih
    · rw [breakTerminators_append hstar]
      exact .cons hw ih

theorem forall₂_breakOutside {d : Dialect} {sources segments : List (List Char)}
    (h : List.Forall₂ (Written d) sources segments) (outside : Bool) :
    List.Forall₂ (Written d) sources (breakOutside outside segments) := by
  induction h generalizing outside with
  | nil => exact .nil
  | cons hs _ ih =>
    refine .cons ?_ (ih _)
    cases outside
    · exact hs
    · exact hs.breakTerminators

/-! Splitting, pairing and joining. -/

theorem splitAtFences_append {front : List Char} (h : '\x60' ∉ front) {text segment : List Char}
    {segments : List (List Char)} (hs : splitAtFences text = segment :: segments) :
    splitAtFences (front ++ text) = (front ++ segment) :: segments := by
  induction front with
  | nil => exact hs
  | cons c front ih =>
    rw [List.mem_cons, not_or] at h
    have hstart : ¬ fenceMarker <+: c :: (front ++ text) := by
      rw [fenceMarker, List.cons_prefix_cons]
      exact fun hbegin => h.1 hbegin.1
    rw [List.cons_append, splitAtFences_cons hstart, ih h.2]
    rfl

/-- No marker begins in front of a written form unless one begins in front of the text. -/
theorem Written.prefix_source {d : Dialect} {source text : List Char} (h : Written d source text)
    {marks : List Char} (hm : '\\' ∉ marks) (hp : marks <+: text) : marks <+: source := by
  induction marks generalizing source text with
  | nil => exact List.nil_prefix
  | cons x marks ih =>
    rw [List.mem_cons, not_or] at hm
    obtain ⟨rest, rfl⟩ := hp
    obtain ⟨others, rfl, hothers⟩ := h.exists_of_head (Ne.symm hm.1)
    exact List.cons_prefix_cons.mpr ⟨rfl, ih hothers hm.2 (List.prefix_append _ _)⟩

theorem Written.forall₂_splitAtFences {d : Dialect} {source text : List Char}
    (h : Written d source text) :
    List.Forall₂ (Written d) (splitAtFences source) (splitAtFences text) := by
  fun_induction splitAtFences source generalizing text with
  | case1 rest ih =>
    have hgrave : ∀ w, Writes d '\x60' w → w = ['\x60'] := by
      intro w hw
      cases hw
      rfl
    cases h with | cons ha h
    cases h with | cons hb h
    cases h with | cons hc h
    rw [hgrave _ ha, hgrave _ hb, hgrave _ hc]
    exact .cons .nil (ih h)
  | case2 c rest hmark ih =>
    cases h with | @cons _ w _ text hw hrest
    have hsegments := ih hrest
    obtain ⟨segment, segments, hsplit⟩ := List.exists_cons_of_ne_nil (splitAtFences_ne_nil text)
    have hwhole : splitAtFences (w ++ text) = (w ++ segment) :: segments := by
      by_cases hgrave : '\x60' ∈ w
      · obtain ⟨rfl, rfl⟩ := hw.eq_of_mem (by decide) hgrave
        have hstart : ¬ fenceMarker <+: '\x60' :: text := by
          intro hbegin
          obtain ⟨others, he⟩ := (Written.cons hw hrest).prefix_source (by decide) hbegin
          cases he
          exact hmark _ rfl rfl
        rw [List.singleton_append, splitAtFences_cons hstart, hsplit]
        rfl
      · exact splitAtFences_append hgrave hsplit
    rw [hsplit] at hsegments
    rw [hwhole]
    cases hs : splitAtFences rest with
    | nil => exact absurd hs (splitAtFences_ne_nil rest)
    | cons first others =>
      rw [hs] at hsegments
      cases hsegments with
      | cons hfirst hothers => exact .cons (.cons hw hfirst) hothers
  | case3 =>
    cases h
    exact .cons .nil .nil

theorem balanceFences_concat {front : List (List Char)} (h : front.length % 2 = 0)
    (before after : List Char) :
    balanceFences (front ++ [before, after]) = front ++ [before ++ after] := by
  have heven : (front ++ [before, after]).length % 2 = 0 := by simp [h]
  rw [balanceFences, if_pos heven, List.reverse_append]
  simp

theorem forall₂_balanceFences {d : Dialect} {sources segments : List (List Char)}
    (h : List.Forall₂ (Written d) sources segments) :
    List.Forall₂ (Written d) (balanceFences sources) (balanceFences segments) := by
  by_cases hne : sources = []
  · subst hne
    cases h
    exact .nil
  · rcases balanceFences_cases hne with ⟨hodd, he⟩ | ⟨front, before, after, rfl, heven, he⟩
    · have hsame : balanceFences segments = segments :=
        if_neg (by rw [← h.length_eq]; omega)
      rw [he, hsame]
      exact h
    · have hrev := List.forall₂_reverse_iff.mpr h
      rw [List.reverse_append] at hrev
      generalize hs : segments.reverse = reversed at hrev
      cases hrev with | @cons _ after' _ _ hafter hrev
      cases hrev with | @cons _ before' _ front' hbefore hfront
      have hsegments : segments = front'.reverse ++ [before', after'] := by
        rw [← List.reverse_reverse segments, hs]
        simp
      have hfront' : List.Forall₂ (Written d) front front'.reverse :=
        List.forall₂_reverse_iff.mp (by rwa [List.reverse_reverse])
      have heven' : front'.reverse.length % 2 = 0 := by rwa [← hfront'.length_eq]
      rw [he, hsegments, balanceFences_concat heven']
      exact List.rel_append hfront' (.cons (hbefore.append hafter) .nil)

theorem Written.joinAtFences {d : Dialect} {sources segments : List (List Char)}
    (h : List.Forall₂ (Written d) sources segments) :
    Written d (joinAtFences sources) (joinAtFences segments) := by
  have hmarker : Written d fenceMarker fenceMarker := by
    have hgrave : Writes d '\x60' ['\x60'] := writes_plain d (by simp)
    exact .cons hgrave (.cons hgrave (.cons hgrave .nil))
  induction h with
  | nil => exact .nil
  | @cons source segment sources segments hs hrest ih =>
    by_cases hr : sources = []
    · subst hr
      cases hrest
      rwa [joinAtFences_singleton, joinAtFences_singleton]
    · have hr' : segments ≠ [] := fun he => hr (by subst he; cases hrest; rfl)
      rw [joinAtFences_cons _ hr, joinAtFences_cons _ hr']
      exact (hs.append hmarker).append ih

/-! Trimming. -/

def staysBlank (raw : Char → Bool) (c : Char) : Bool := isBlank c && escapeChar raw c == [c]

def trimWhere (p : Char → Bool) (cs : List Char) : List Char :=
  ((cs.dropWhile p).reverse.dropWhile p).reverse

/-- A character is written without blank characters, unless it is a blank that stays. -/
theorem Writes.isBlank_eq_false {d : Dialect} {c : Char} {w : List Char} (h : Writes d c w)
    (hc : staysBlank d.raw c = false) : ∀ x ∈ w, isBlank x = false := by
  have hall : (escapeAlphabet.all fun x => !isBlank x) = true := by decide
  have halphabet : ∀ x ∈ escapeAlphabet, isBlank x = false := by simpa using hall
  have hslash : ['\\', '/'] ⊆ escapeAlphabet := by decide
  cases h with
  | escape c hn =>
    rcases escapeChar_cases d.raw c with he | ⟨rest, he, hrest⟩
    · rw [he]
      simpa [staysBlank, he] using hc
    · rw [he]
      exact List.forall_mem_cons.mpr ⟨by decide, fun x hx => halphabet x (hrest hx)⟩
  | slash => exact fun x hx => halphabet x (hslash hx)

theorem Writes.eq_of_staysBlank {d : Dialect} {c : Char} {w : List Char} (h : Writes d c w)
    (hc : staysBlank d.raw c = true) : w = [c] ∧ isBlank c = true := by
  cases h with
  | escape c hn =>
    rw [staysBlank, Bool.and_eq_true, beq_iff_eq] at hc
    exact ⟨hc.2, hc.1⟩
  | slash =>
    rw [staysBlank, Bool.and_eq_true] at hc
    exact absurd hc.1 (by decide)

theorem Written.trimStart {d : Dialect} {source text : List Char} (h : Written d source text) :
    Written d (source.dropWhile (staysBlank d.raw)) (trimStart text) := by
  induction h with
  | nil => exact .nil
  | @cons c w source text hw hrest ih =>
    cases hc : staysBlank d.raw c with
    | true =>
      obtain ⟨rfl, hblank⟩ := hw.eq_of_staysBlank hc
      rw [List.dropWhile_cons_of_pos hc, Text.trimStart, List.singleton_append,
        List.dropWhile_cons_of_pos hblank]
      exact ih
    | false =>
      obtain ⟨x, w', rfl⟩ := List.exists_cons_of_ne_nil hw.ne_nil
      have hx := hw.isBlank_eq_false hc x List.mem_cons_self
      rw [List.dropWhile_cons_of_neg (by simp [hc]), Text.trimStart, List.cons_append,
        List.dropWhile_cons_of_neg (by simp [hx]), ← List.cons_append]
      exact .cons hw hrest

theorem Written.trimEnd {d : Dialect} {source text : List Char} (h : Written d source text) :
    Written d (source.reverse.dropWhile (staysBlank d.raw)).reverse (trimEnd text) := by
  -- From the end: the last character either is dropped with its written form or stops both trims.
  induction source using List.reverseRecOn generalizing text with
  | nil =>
    cases h
    exact .nil
  | append_singleton source c ih =>
    obtain ⟨front, w, rfl, hfront, hw⟩ := h.exists_of_concat
    rw [List.reverse_concat]
    cases hc : staysBlank d.raw c with
    | true =>
      obtain ⟨rfl, hblank⟩ := hw.eq_of_staysBlank hc
      have hend : Text.trimEnd (front ++ [c]) = Text.trimEnd front := by
        rw [Text.trimEnd, List.reverse_concat, List.dropWhile_cons_of_pos hblank]
        rfl
      rw [List.dropWhile_cons_of_pos hc, hend]
      exact ih hfront
    | false =>
      have hlast : ∀ x ∈ (front ++ w).getLast?, isBlank x = false := by
        intro x hx
        rw [List.getLast?_append_of_ne_nil _ hw.ne_nil] at hx
        exact hw.isBlank_eq_false hc x (List.mem_of_getLast? hx)
      have hend : Text.trimEnd (front ++ w) = front ++ w := by
        simpa [Text.trimEnd] using trimEnd_append (t := []) hlast
      rw [List.dropWhile_cons_of_neg (by simp [hc]), List.reverse_cons, List.reverse_reverse, hend]
      exact hfront.append (.singleton hw)

theorem Written.trim {d : Dialect} {source text : List Char} (h : Written d source text) :
    Written d (trimWhere (staysBlank d.raw) source) (trim text) :=
  h.trimStart.trimEnd

/-! The raw text that documentation stands for. -/

def markerCount : List Char → Nat
  | '\x60' :: '\x60' :: '\x60' :: rest => markerCount rest + 1
  | _ :: rest => markerCount rest
  | [] => 0

def dropLastMarker : List Char → List Char
  | '\x60' :: '\x60' :: '\x60' :: rest =>
    if markerCount rest = 0 then rest else fenceMarker ++ dropLastMarker rest
  | c :: rest => c :: dropLastMarker rest
  | [] => []

def withoutDangling (cs : List Char) : List Char :=
  if markerCount cs % 2 = 1 then dropLastMarker cs else cs

theorem length_splitAtFences (cs : List Char) : (splitAtFences cs).length = markerCount cs + 1 := by
  fun_induction markerCount cs with
  | case1 rest ih => rw [splitAtFences, List.length_cons, ih]
  | case2 c rest h ih =>
    rw [splitAtFences, ← ih]
    · cases hs : splitAtFences rest with
      | nil => exact absurd hs (splitAtFences_ne_nil rest)
      | cons first others => rfl
    · exact h
  | case3 => rfl

theorem prependToFirst_append (c : Char) (front : List (List Char)) (before after : List Char) :
    ∃ front' before', prependToFirst c (front ++ [before, after]) = front' ++ [before', after] ∧
      prependToFirst c (front ++ [before ++ after]) = front' ++ [before' ++ after] := by
  cases front with
  | nil => exact ⟨[], c :: before, rfl, rfl⟩
  | cons first others => exact ⟨(c :: first) :: others, before, rfl, rfl⟩

/-- The last marker stands between the last two segments. -/
theorem exists_of_markerCount_ne_zero {cs : List Char} (h : markerCount cs ≠ 0) :
    ∃ front before after, splitAtFences cs = front ++ [before, after] ∧
      dropLastMarker cs = joinAtFences (front ++ [before ++ after]) := by
  fun_induction dropLastMarker cs with
  | case1 rest hnone =>
    have hlength := length_splitAtFences rest
    rw [hnone, List.length_eq_one_iff] at hlength
    obtain ⟨after, hafter⟩ := hlength
    have hrest := joinAtFences_splitAtFences rest
    rw [hafter, joinAtFences_singleton] at hrest
    refine ⟨[], [], after, ?_, ?_⟩
    · rw [splitAtFences, hafter]
      rfl
    · rw [List.nil_append, List.nil_append, joinAtFences_singleton, hrest]
  | case2 rest hsome ih =>
    obtain ⟨front, before, after, hsplit, hdrop⟩ := ih hsome
    refine ⟨[] :: front, before, after, ?_, ?_⟩
    · rw [splitAtFences, hsplit]
      rfl
    · rw [List.cons_append, joinAtFences_cons _ (by simp), hdrop]
      rfl
  | case3 c rest hmark ih =>
    have hrest : markerCount rest ≠ 0 := by
      rwa [markerCount] at h
      exact hmark
    obtain ⟨front, before, after, hsplit, hdrop⟩ := ih hrest
    obtain ⟨front', before', hprepend, hjoined⟩ := prependToFirst_append c front before after
    refine ⟨front', before', after, ?_, ?_⟩
    · rw [splitAtFences, hsplit, hprepend]
      exact hmark
    · rw [← hjoined, joinAtFences_prependToFirst, hdrop]
  | case4 => exact absurd rfl h

/-- Pairing the segments of a text drops the marker that has no partner. -/
theorem joinAtFences_balanceFences (cs : List Char) :
    joinAtFences (balanceFences (splitAtFences cs)) = withoutDangling cs := by
  have hlength := length_splitAtFences cs
  unfold withoutDangling
  split
  · next hodd =>
    have hsome : markerCount cs ≠ 0 := by omega
    obtain ⟨front, before, after, hsplit, hdrop⟩ := exists_of_markerCount_ne_zero hsome
    have heven : front.length % 2 = 0 := by
      rw [hsplit, List.length_append, List.length_cons, List.length_singleton] at hlength
      omega
    rw [hsplit, balanceFences_concat heven, hdrop]
  · next heven =>
    rw [balanceFences, if_neg (by omega), joinAtFences_splitAtFences]

/-! Documentation. -/

/-- Documentation of generated source: newlines and tabs stand for themselves, and no control character
has an escape of its own. -/
def Dialect.documentation : Dialect where
  named? _ := none
  raw := isLayout

theorem return_not_mem_unifyLineEnds (cs : List Char) : '\r' ∉ unifyLineEnds cs := by
  fun_induction unifyLineEnds cs with
  | case1 rest ih => simpa using ih
  | case2 rest h ih => simpa using ih
  | case3 c rest h h' ih =>
    rw [List.mem_cons, not_or]
    exact ⟨fun he => h' he.symm, ih⟩
  | case4 => exact List.not_mem_nil

theorem names_documentation {c : Char} (h : c ≠ '\r') : Dialect.documentation.Names c := by
  intro _ hraw
  refine ⟨?_, fun he => absurd he h, ?_⟩ <;> rintro rfl <;> cases hraw

theorem written_documentSegments (cs : List Char) :
    Written .documentation (withoutDangling (unifyLineEnds cs))
      (joinAtFences (documentSegments cs)) := by
  have hescaped : Written .documentation (unifyLineEnds cs)
      (escapeLeaving isLayout (unifyLineEnds cs)) :=
    written_escapeLeaving fun c hc => names_documentation fun he =>
      return_not_mem_unifyLineEnds cs (he ▸ hc)
  rw [← joinAtFences_balanceFences]
  exact .joinAtFences (forall₂_breakOutside (forall₂_balanceFences
    hescaped.forall₂_splitAtFences) true)

/-- No text of documentation is lost or altered but for line ends, a marker that has no partner, and
blank characters around the text. -/
theorem documentation_reads_back {doc r : String} (h : sanitizeDocumentation (some doc) = some r) :
    Dialect.documentation.read? r.toList =
      some (trimWhere (staysBlank isLayout) (withoutDangling (unifyLineEnds doc.toList))) := by
  rw [documentation?_eq_some (sanitizeDocumentation_eq_some h)]
  exact (written_documentSegments doc.toList).trim.read?

/-- Blank characters that stay and others that are escaped, around quotes, a closing tag, a terminator
across a dangling marker, and a fence that keeps its terminator. -/
theorem documentation_reads_back_awkward :
    sanitizeDocumentation (some "\u00a0\x0b\\\"\r\n```*/```\r</Style>*```/\u2028\u3000") =
        some "\\x0b\\\\\\\"\n```*/```\n<\\/Style>*\\/\\u2028" ∧
      Dialect.documentation.read?
          "\\x0b\\\\\\\"\n```*/```\n<\\/Style>*\\/\\u2028".toList =
        some "\x0b\\\"\n```*/```\n</Style>*/\u2028".toList := by
  have h : sanitizeDocumentation
      (some "\u00a0\x0b\\\"\r\n```*/```\r</Style>*```/\u2028\u3000") =
        some "\\x0b\\\\\\\"\n```*/```\n<\\/Style>*\\/\\u2028" := by decide +kernel
  refine ⟨h, (documentation_reads_back h).trans ?_⟩
  decide +kernel

end EntitySchema.Text
