import Mathlib.Data.List.Infix
import Mathlib.Data.List.Forall2
import Mathlib.Tactic.Tauto
import EntitySchema.Text.Documentation

/-!
# Code fences

Splitting a text at its fence markers and joining the segments are inverse to each other on the lists
of segments that no marker crosses: no segment holds a marker, and none but the last ends with a grave
accent, which would shift the marker behind it.
-/

set_option autoImplicit false

namespace EntitySchema.Text

/-- Segments whose markers are found again when they are joined. -/
structure Segmented (segments : List (List Char)) : Prop where
  ne_nil : segments ≠ []
  markerFree : ∀ s ∈ segments, ¬ fenceMarker <:+: s
  closed : ∀ s ∈ segments.dropLast, s.getLast? ≠ some '\x60'

/-! One step of splitting and of joining. -/

theorem splitAtFences_cons {c : Char} {rest : List Char} (h : ¬ fenceMarker <+: c :: rest) :
    splitAtFences (c :: rest) = prependToFirst c (splitAtFences rest) := by
  rw [splitAtFences]
  rintro others rfl rfl
  exact h ⟨others, rfl⟩

theorem joinAtFences_singleton (s : List Char) : joinAtFences [s] = s := by
  simp [joinAtFences]

theorem joinAtFences_cons (s : List Char) {rest : List (List Char)} (h : rest ≠ []) :
    joinAtFences (s :: rest) = s ++ fenceMarker ++ joinAtFences rest := by
  obtain ⟨t, others, rfl⟩ := List.exists_cons_of_ne_nil h
  simp [joinAtFences, List.intercalate, List.intersperse]

theorem joinAtFences_prependToFirst (c : Char) (segments : List (List Char)) :
    joinAtFences (prependToFirst c segments) = c :: joinAtFences segments := by
  match segments with
  | [] => rfl
  | [s] => simp [prependToFirst, joinAtFences_singleton]
  | s :: t :: rest =>
    rw [prependToFirst, joinAtFences_cons _ (List.cons_ne_nil _ _),
      joinAtFences_cons _ (List.cons_ne_nil _ _)]
    rfl

theorem splitAtFences_ne_nil (cs : List Char) : splitAtFences cs ≠ [] := by
  fun_induction splitAtFences cs with
  | case1 rest ih => simp
  | case2 c rest h ih => cases hs : splitAtFences rest <;> simp [prependToFirst]
  | case3 => simp

/-- Joining puts back what splitting takes apart. -/
theorem joinAtFences_splitAtFences (cs : List Char) : joinAtFences (splitAtFences cs) = cs := by
  fun_induction splitAtFences cs with
  | case1 rest ih =>
    rw [joinAtFences_cons _ (splitAtFences_ne_nil rest), ih]
    rfl
  | case2 c rest h ih => rw [joinAtFences_prependToFirst, ih]
  | case3 => rfl

/-! Segments that come from splitting, and splitting of what such segments are joined to. -/

theorem Segmented.cons {s : List Char} {rest : List (List Char)} (h : Segmented rest)
    (hs : ¬ fenceMarker <:+: s) (hlast : s.getLast? ≠ some '\x60') : Segmented (s :: rest) where
  ne_nil := List.cons_ne_nil _ _
  markerFree := List.forall_mem_cons.mpr ⟨hs, h.markerFree⟩
  closed := by
    rw [List.dropLast_cons_of_ne_nil h.ne_nil]
    exact List.forall_mem_cons.mpr ⟨hlast, h.closed⟩

theorem Segmented.tail {s : List Char} {rest : List (List Char)} (h : Segmented (s :: rest))
    (hr : rest ≠ []) : Segmented rest where
  ne_nil := hr
  markerFree := (List.forall_mem_cons.mp h.markerFree).2
  closed := by
    have hclosed := h.closed
    rw [List.dropLast_cons_of_ne_nil hr] at hclosed
    exact (List.forall_mem_cons.mp hclosed).2

theorem segmented_singleton {s : List Char} (h : ¬ fenceMarker <:+: s) : Segmented [s] where
  ne_nil := List.cons_ne_nil _ _
  markerFree := List.forall_mem_singleton.mpr h
  closed := by simp

theorem Segmented.last_ne {s : List Char} {rest : List (List Char)} (h : Segmented (s :: rest))
    (hr : rest ≠ []) : s.getLast? ≠ some '\x60' := by
  have hclosed := h.closed
  rw [List.dropLast_cons_of_ne_nil hr] at hclosed
  exact hclosed s List.mem_cons_self

theorem prefix_joinAtFences (s : List Char) (rest : List (List Char)) :
    s <+: joinAtFences (s :: rest) := by
  cases rest with
  | nil => rw [joinAtFences_singleton]
  | cons t rest =>
    rw [joinAtFences_cons _ (List.cons_ne_nil t rest), List.append_assoc]
    exact List.prefix_append _ _

/-- The first segment takes a character in front, unless a marker would begin there. -/
theorem Segmented.prependToFirst {c : Char} {segments : List (List Char)} (h : Segmented segments)
    (hc : ¬ fenceMarker <+: c :: joinAtFences segments) :
    Segmented (prependToFirst c segments) := by
  match segments, h with
  | [], h => exact absurd rfl h.ne_nil
  | s :: rest, h =>
    have hfree : ¬ fenceMarker <:+: c :: s := by
      rw [List.infix_cons_iff, not_or]
      refine ⟨fun hbegin => hc (hbegin.trans ?_), h.markerFree s List.mem_cons_self⟩
      exact List.cons_prefix_cons.mpr ⟨rfl, prefix_joinAtFences s rest⟩
    by_cases hr : rest = []
    · subst hr
      exact segmented_singleton hfree
    · refine (h.tail hr).cons hfree ?_
      cases s with
      | nil =>
        rintro hlast
        have hgrave : c = '\x60' := by simpa using hlast
        rw [joinAtFences_cons _ hr, hgrave] at hc
        exact hc ⟨_, rfl⟩
      | cons d s =>
        rw [List.getLast?_cons_cons]
        exact h.last_ne hr

/-- Splitting finds the markers from the left. -/
theorem segmented_splitAtFences (cs : List Char) : Segmented (splitAtFences cs) := by
  fun_induction splitAtFences cs with
  | case1 rest ih => exact ih.cons (by decide) (by simp)
  | case2 c rest h ih =>
    apply ih.prependToFirst
    rw [joinAtFences_splitAtFences]
    rintro ⟨others, he⟩
    cases he
    exact h _ rfl rfl
  | case3 => exact segmented_singleton (by decide)

theorem splitAtFences_of_markerFree {s : List Char} (h : ¬ fenceMarker <:+: s) :
    splitAtFences s = [s] := by
  induction s with
  | nil => rfl
  | cons c s ih =>
    rw [List.infix_cons_iff, not_or] at h
    rw [splitAtFences_cons h.1, ih h.2]
    rfl

/-- A marker behind a text that does not end with a grave accent ends the first segment. -/
theorem splitAtFences_append_marker {s : List Char} (h : ¬ fenceMarker <:+: s)
    (hlast : s.getLast? ≠ some '\x60') (rest : List Char) :
    splitAtFences (s ++ fenceMarker ++ rest) = s :: splitAtFences rest := by
  induction s with
  | nil => rfl
  | cons c s ih =>
    rw [List.infix_cons_iff, not_or] at h
    have hlast' : s.getLast? ≠ some '\x60' := by
      cases s with
      | nil => simp
      | cons d s => rwa [List.getLast?_cons_cons] at hlast
    -- A marker at the start would need the grave accents of the marker behind the text.
    have hstart : ¬ fenceMarker <+: c :: (s ++ fenceMarker ++ rest) := by
      rintro ⟨others, he⟩
      match s with
      | [] =>
        simp only [fenceMarker, List.cons_append, List.nil_append, List.cons.injEq] at he
        obtain ⟨rfl, -⟩ := he
        exact hlast rfl
      | [d] =>
        simp only [fenceMarker, List.cons_append, List.nil_append, List.cons.injEq] at he
        obtain ⟨-, rfl, -⟩ := he
        exact hlast rfl
      | d :: e :: s =>
        simp only [fenceMarker, List.cons_append, List.nil_append, List.cons.injEq] at he
        obtain ⟨rfl, rfl, rfl, -⟩ := he
        exact h.1 ⟨s, rfl⟩
    rw [List.cons_append, List.cons_append, splitAtFences_cons hstart, ih h.2 hlast']
    rfl

/-- Splitting finds the segments that were joined. -/
theorem splitAtFences_joinAtFences {segments : List (List Char)} (h : Segmented segments) :
    splitAtFences (joinAtFences segments) = segments := by
  induction segments with
  | nil => exact absurd rfl h.ne_nil
  | cons s rest ih =>
    have hs := h.markerFree s List.mem_cons_self
    by_cases hr : rest = []
    · rw [hr, joinAtFences_singleton, splitAtFences_of_markerFree hs]
    · rw [joinAtFences_cons _ hr, splitAtFences_append_marker hs (h.last_ne hr), ih (h.tail hr)]

/-! What is done to the segments keeps the markers between them in place. -/

/-- A change of a segment that brings no marker and no grave accent at the end. -/
def KeepsMarkers (s t : List Char) : Prop :=
  (fenceMarker <:+: t → fenceMarker <:+: s) ∧ (t.getLast? = some '\x60' → s.getLast? = some '\x60')

theorem keepsMarkers_refl (s : List Char) : KeepsMarkers s s := ⟨id, id⟩

theorem Segmented.of_forall₂ {segments segments' : List (List Char)} (h : Segmented segments)
    (hk : List.Forall₂ KeepsMarkers segments segments') : Segmented segments' := by
  induction hk with
  | nil => exact h
  | @cons s t rest rest' hst hrest ih =>
    have hfree : ¬ fenceMarker <:+: t := fun ht => h.markerFree s List.mem_cons_self (hst.1 ht)
    by_cases hr : rest = []
    · subst hr
      cases hrest
      exact segmented_singleton hfree
    · exact (ih (h.tail hr)).cons hfree fun ht => h.last_ne hr (hst.2 ht)

/-- The last segment may end as it likes. -/
theorem Segmented.replaceLast {front : List (List Char)} {s t : List Char}
    (h : Segmented (front ++ [s])) (ht : ¬ fenceMarker <:+: t) : Segmented (front ++ [t]) where
  ne_nil := by simp
  markerFree := by
    have hfree := h.markerFree
    rw [List.forall_mem_append] at hfree ⊢
    exact ⟨hfree.1, List.forall_mem_singleton.mpr ht⟩
  closed := by
    have hclosed := h.closed
    rwa [List.dropLast_concat] at hclosed ⊢

/-- Either the markers are paired, or the last one is dropped. -/
theorem balanceFences_cases {segments : List (List Char)} (h : segments ≠ []) :
    (segments.length % 2 = 1 ∧ balanceFences segments = segments) ∨
      ∃ front before after, segments = front ++ [before, after] ∧ front.length % 2 = 0 ∧
        balanceFences segments = front ++ [before ++ after] := by
  unfold balanceFences
  split
  · next heven =>
    split
    · next last previous rest hrev =>
      have hs : segments = rest.reverse ++ [previous, last] := by
        simpa using congrArg List.reverse hrev
      refine Or.inr ⟨_, previous, last, hs, ?_, rfl⟩
      rw [hs, List.length_append, List.length_cons, List.length_singleton] at heven
      omega
    · next hshort =>
      match hrev : segments.reverse with
      | [] => exact absurd (List.reverse_eq_nil_iff.mp hrev) h
      | [last] =>
        rw [← List.length_reverse, hrev] at heven
        cases heven
      | last :: previous :: rest => exact absurd hrev (hshort last previous rest)
  · next hodd => exact Or.inl ⟨by omega, rfl⟩

theorem Segmented.init {front : List (List Char)} {s t : List Char}
    (h : Segmented (front ++ [s, t])) : Segmented (front ++ [s]) where
  ne_nil := by simp
  markerFree := by
    intro u hu
    apply h.markerFree
    simp only [List.mem_append, List.mem_cons] at hu ⊢
    tauto
  closed := by
    intro u hu
    rw [List.dropLast_concat] at hu
    apply h.closed
    simp [List.dropLast_append_of_ne_nil, hu]

/-- No marker arises where a text that does not end with a grave accent is joined with another. -/
theorem markerFree_append {s t : List Char} (hs : ¬ fenceMarker <:+: s)
    (hlast : s.getLast? ≠ some '\x60') (ht : ¬ fenceMarker <:+: t) :
    ¬ fenceMarker <:+: s ++ t := by
  rw [List.infix_append_iff]
  rintro (h | h | ⟨left, right, he, ⟨front, rfl⟩, hright⟩)
  · exact hs h
  · exact ht h
  · rcases List.eq_nil_or_concat' left with rfl | ⟨init, last, rfl⟩
    · rw [List.nil_append] at he
      exact ht (he ▸ hright.isInfix)
    · have hmem : last ∈ fenceMarker := by simp [he]
      have hgrave : last = '\x60' := by simpa [fenceMarker] using hmem
      exact hlast (by rw [← List.append_assoc, List.getLast?_concat, hgrave])

theorem Segmented.balanceFences {segments : List (List Char)} (h : Segmented segments) :
    Segmented (balanceFences segments) := by
  rcases balanceFences_cases h.ne_nil with ⟨-, he⟩ | ⟨front, before, after, rfl, -, he⟩
  · rw [he]
    exact h
  · rw [he]
    apply h.init.replaceLast
    apply markerFree_append
    · exact h.markerFree before (by simp)
    · exact h.closed before (by simp [List.dropLast_append_of_ne_nil])
    · exact h.markerFree after (by simp)

theorem length_balanceFences {segments : List (List Char)} (h : segments ≠ []) :
    (balanceFences segments).length % 2 = 1 := by
  rcases balanceFences_cases h with ⟨hodd, he⟩ | ⟨front, before, after, -, hfront, he⟩
  · rw [he]
    exact hodd
  · rw [he, List.length_append, List.length_singleton]
    omega

/-! Breaking terminators. -/

/-- A word without an asterisk begins a text with broken terminators if it begins the text. -/
theorem prefix_breakTerminators {w : List Char} (hw : '*' ∉ w) (s : List Char) :
    w <+: breakTerminators s ↔ w <+: s := by
  fun_induction breakTerminators s generalizing w with
  | case1 => rfl
  | case2 rest ih =>
    cases w with
    | nil => simp
    | cons a w =>
      rw [List.mem_cons, not_or] at hw
      rw [List.cons_prefix_cons, List.cons_prefix_cons]
      exact iff_of_false (fun h => hw.1 h.1.symm) fun h => hw.1 h.1.symm
  | case3 c rest h ih =>
    cases w with
    | nil => simp
    | cons a w =>
      rw [List.mem_cons, not_or] at hw
      rw [List.cons_prefix_cons, List.cons_prefix_cons, ih hw.2]

/-- Such a word is found in the text with broken terminators where it is found in the text, unless it
could begin between the parts of a terminator. -/
theorem infix_breakTerminators {a : Char} {w : List Char} (hw : '*' ∉ a :: w) (hb : a ≠ '\\')
    (hs : a ≠ '/') (s : List Char) : a :: w <:+: breakTerminators s ↔ a :: w <:+: s := by
  have hstar : a ≠ '*' := fun h => hw (h ▸ List.mem_cons_self)
  fun_induction breakTerminators s with
  | case1 => rfl
  | case2 rest ih => simp [List.infix_cons_iff, List.cons_prefix_cons, hstar, hb, hs, ih]
  | case3 c rest h ih =>
    have hw' : '*' ∉ w := fun h => hw (List.mem_cons_of_mem _ h)
    rw [List.infix_cons_iff, List.infix_cons_iff, List.cons_prefix_cons, List.cons_prefix_cons,
      prefix_breakTerminators hw']
    exact or_congr_right ih

theorem getLast?_breakTerminators (s : List Char) :
    (breakTerminators s).getLast? = s.getLast? := by
  fun_induction breakTerminators s with
  | case1 => rfl
  | case2 rest ih => simp [List.getLast?_cons, ih]
  | case3 c rest h ih => simp [List.getLast?_cons, ih]

theorem keepsMarkers_breakTerminators (s : List Char) : KeepsMarkers s (breakTerminators s) := by
  refine ⟨(infix_breakTerminators (by decide) (by decide) (by decide) s).mp, ?_⟩
  rw [getLast?_breakTerminators]
  exact id

theorem terminatorFree_breakTerminators (s : List Char) :
    ¬ ['*', '/'] <:+: breakTerminators s := by
  fun_induction breakTerminators s with
  | case1 => decide
  | case2 rest ih => simp [List.infix_cons_iff, List.cons_prefix_cons, ih]
  | case3 c rest h ih =>
    rw [List.infix_cons_iff, not_or, List.cons_prefix_cons,
      prefix_breakTerminators (by decide) rest]
    refine ⟨?_, ih⟩
    rintro ⟨rfl, others, rfl⟩
    exact h others rfl rfl

theorem forall₂_keepsMarkers_breakOutside (outside : Bool) (segments : List (List Char)) :
    List.Forall₂ KeepsMarkers segments (breakOutside outside segments) := by
  induction segments generalizing outside with
  | nil => exact List.Forall₂.nil
  | cons s rest ih =>
    refine List.Forall₂.cons ?_ (ih _)
    cases outside
    · exact keepsMarkers_refl s
    · exact keepsMarkers_breakTerminators s

theorem length_breakOutside (outside : Bool) (segments : List (List Char)) :
    (breakOutside outside segments).length = segments.length := by
  induction segments generalizing outside with
  | nil => rfl
  | cons s rest ih => rw [breakOutside, List.length_cons, List.length_cons, ih]

/-- Every second segment has its terminators broken, the first one if `outside`. -/
theorem terminatorFree_breakOutside {outside : Bool} {segments : List (List Char)} {i : Nat}
    (hi : i < (breakOutside outside segments).length) (h : outside = decide (i % 2 = 0)) :
    ¬ ['*', '/'] <:+: (breakOutside outside segments)[i] := by
  induction segments generalizing outside i with
  | nil => cases hi
  | cons s rest ih =>
    cases i with
    | zero =>
      subst h
      exact terminatorFree_breakTerminators s
    | succ i =>
      refine ih (Nat.lt_of_succ_lt_succ hi) ?_
      rw [h, ← decide_not]
      exact decide_eq_decide.mpr (by omega)

/-! Trimming. -/

theorem isBlank_grave : isBlank '\x60' = false := by decide

theorem trimStart_append {s t : List Char} (h : ∀ c ∈ t.head?, isBlank c = false) :
    trimStart (s ++ t) = trimStart s ++ t := by
  have ht : t.dropWhile isBlank = t := by
    cases t with
    | nil => rfl
    | cons c t => rw [List.dropWhile_cons_of_neg (by simp [h c rfl])]
  simp only [trimStart, List.dropWhile_append]
  split
  · next hs => rw [ht, List.isEmpty_iff.mp hs, List.nil_append]
  · rfl

theorem trimEnd_append {s t : List Char} (h : ∀ c ∈ s.getLast?, isBlank c = false) :
    trimEnd (s ++ t) = s ++ trimEnd t := by
  have hstart : trimStart (t.reverse ++ s.reverse) = trimStart t.reverse ++ s.reverse := by
    apply trimStart_append
    rwa [List.head?_reverse]
  rw [trimEnd, List.reverse_append, ← trimStart, hstart, List.reverse_append, List.reverse_reverse]
  rfl

theorem trimEnd_isPrefix (s : List Char) : trimEnd s <+: s := by
  rw [← List.reverse_suffix, trimEnd, List.reverse_reverse]
  exact trimStart_isSuffix s.reverse

theorem joinAtFences_concat {front : List (List Char)} (h : front ≠ []) (s : List Char) :
    joinAtFences (front ++ [s]) = joinAtFences front ++ fenceMarker ++ s := by
  induction front with
  | nil => exact absurd rfl h
  | cons t rest ih =>
    by_cases hr : rest = []
    · subst hr
      rw [List.singleton_append, joinAtFences_cons _ (List.cons_ne_nil _ _),
        joinAtFences_singleton, joinAtFences_singleton]
    · rw [List.cons_append, joinAtFences_cons _ (by simp), ih hr, joinAtFences_cons _ hr]
      simp only [List.append_assoc]

theorem trimStart_joinAtFences (s : List Char) (rest : List (List Char)) :
    trimStart (joinAtFences (s :: rest)) = joinAtFences (trimStart s :: rest) := by
  by_cases hr : rest = []
  · rw [hr, joinAtFences_singleton, joinAtFences_singleton]
  · rw [joinAtFences_cons _ hr, joinAtFences_cons _ hr, List.append_assoc, List.append_assoc]
    exact trimStart_append (by simp [fenceMarker, isBlank_grave])

theorem trimEnd_joinAtFences (front : List (List Char)) (s : List Char) :
    trimEnd (joinAtFences (front ++ [s])) = joinAtFences (front ++ [trimEnd s]) := by
  by_cases hf : front = []
  · rw [hf, List.nil_append, List.nil_append, joinAtFences_singleton, joinAtFences_singleton]
  · rw [joinAtFences_concat hf, joinAtFences_concat hf]
    exact trimEnd_append (by simp [fenceMarker, isBlank_grave])

theorem keepsMarkers_trimStart (s : List Char) : KeepsMarkers s (trimStart s) := by
  obtain ⟨front, hs⟩ := trimStart_isSuffix s
  refine ⟨fun h => h.trans (trimStart_isSuffix s).isInfix, fun h => ?_⟩
  rw [← hs, List.getLast?_append, h]
  rfl

abbrev PartsOf : List (List Char) → List (List Char) → Prop := List.Forall₂ (· <:+: ·)

theorem partsOf_refl (segments : List (List Char)) : PartsOf segments segments :=
  List.forall₂_same.mpr fun s _ => List.infix_refl s

theorem PartsOf.trans {xs ys zs : List (List Char)} (h : PartsOf xs ys) (h' : PartsOf ys zs) :
    PartsOf xs zs := by
  induction h generalizing zs with
  | nil => exact h'
  | cons hxy _ ih =>
    cases h' with
    | cons hyz hrest => exact List.Forall₂.cons (hxy.trans hyz) (ih hrest)

theorem Segmented.exists_trimStart {segments : List (List Char)} (h : Segmented segments) :
    ∃ trimmed, Segmented trimmed ∧ joinAtFences trimmed = trimStart (joinAtFences segments) ∧
      PartsOf trimmed segments := by
  obtain ⟨first, rest, rfl⟩ := List.exists_cons_of_ne_nil h.ne_nil
  refine ⟨trimStart first :: rest, ?_, (trimStart_joinAtFences first rest).symm, ?_⟩
  · apply h.of_forall₂
    exact List.Forall₂.cons (keepsMarkers_trimStart first)
      (List.forall₂_same.mpr fun s _ => keepsMarkers_refl s)
  · exact List.Forall₂.cons (trimStart_isSuffix first).isInfix (partsOf_refl rest)

theorem Segmented.exists_trimEnd {segments : List (List Char)} (h : Segmented segments) :
    ∃ trimmed, Segmented trimmed ∧ joinAtFences trimmed = trimEnd (joinAtFences segments) ∧
      PartsOf trimmed segments := by
  obtain ⟨front, last, rfl⟩ := (List.eq_nil_or_concat' segments).resolve_left h.ne_nil
  refine ⟨front ++ [trimEnd last], ?_, (trimEnd_joinAtFences front last).symm, ?_⟩
  · apply h.replaceLast
    exact fun hmarker => h.markerFree last (by simp)
      (hmarker.trans (trimEnd_isPrefix last).isInfix)
  · exact List.rel_append (partsOf_refl front)
      (List.Forall₂.cons (trimEnd_isPrefix last).isInfix List.Forall₂.nil)

/-- Trimming a text shortens its first and its last segment. -/
theorem Segmented.exists_trim {segments : List (List Char)} (h : Segmented segments) :
    ∃ trimmed, Segmented trimmed ∧ joinAtFences trimmed = trim (joinAtFences segments) ∧
      PartsOf trimmed segments := by
  obtain ⟨started, hstarted, hstart, hparts⟩ := h.exists_trimStart
  obtain ⟨trimmed, htrimmed, hend, hparts'⟩ := hstarted.exists_trimEnd
  exact ⟨trimmed, htrimmed, by rw [hend, hstart, trim], hparts'.trans hparts⟩

/-! Documentation. -/

def documentSegments (cs : List Char) : List (List Char) :=
  breakOutside true (balanceFences (splitAtFences (escapeLeaving isLayout (unifyLineEnds cs))))

theorem segmented_documentSegments (cs : List Char) : Segmented (documentSegments cs) :=
  (segmented_splitAtFences _).balanceFences.of_forall₂ (forall₂_keepsMarkers_breakOutside _ _)

theorem length_documentSegments (cs : List Char) : (documentSegments cs).length % 2 = 1 := by
  rw [documentSegments, length_breakOutside]
  exact length_balanceFences (splitAtFences_ne_nil _)

theorem documentation?_eq_some {cs r : List Char} (h : documentation? cs = some r) :
    r = trim (joinAtFences (documentSegments cs)) := by
  unfold documentation? at h
  dsimp only at h
  split at h
  · cases h
  · split at h
    · cases h
    · exact (Option.some.inj h).symm

/-- The fences of documentation are the ones that its making left in place. -/
theorem partsOf_documentSegments {cs r : List Char} (h : documentation? cs = some r) :
    PartsOf (splitAtFences r) (documentSegments cs) := by
  obtain ⟨trimmed, htrimmed, hjoin, hparts⟩ := (segmented_documentSegments cs).exists_trim
  rw [documentation?_eq_some h, ← hjoin, splitAtFences_joinAtFences htrimmed]
  exact hparts

theorem sanitizeDocumentation_eq_some {doc r : String}
    (h : sanitizeDocumentation (some doc) = some r) : documentation? doc.toList = some r.toList := by
  obtain ⟨text, htext, rfl⟩ := Option.map_eq_some_iff.mp h
  rw [String.toList_ofList]
  exact htext

/-- Fences come in pairs, and outside of them no comment terminator is left. -/
theorem documentation_fences_paired {doc r : String}
    (h : sanitizeDocumentation (some doc) = some r) :
    (splitAtFences r.toList).length % 2 = 1 ∧
      ∀ i (hi : i < (splitAtFences r.toList).length), i % 2 = 0 →
        ¬ ['*', '/'] <:+: (splitAtFences r.toList)[i] := by
  have hparts := partsOf_documentSegments (sanitizeDocumentation_eq_some h)
  refine ⟨?_, fun i hi heven hterminator => ?_⟩
  · rw [hparts.length_eq]
    exact length_documentSegments _
  · have hi' : i < (documentSegments doc.toList).length := hparts.length_eq ▸ hi
    have hinfix : (splitAtFences r.toList)[i] <:+: (documentSegments doc.toList)[i] :=
      hparts.get hi hi'
    exact terminatorFree_breakOutside hi' (by simp [heven]) (hterminator.trans hinfix)

/-- A marker with a fourth grave accent, and a dangling one inside a terminator. -/
theorem documentation_fences_paired_dangling :
    sanitizeDocumentation (some "x */ ```` */ ``` *```/ ") = some "x *\\/ ```` */ ``` *\\/" ∧
      (splitAtFences "x *\\/ ```` */ ``` *\\/".toList).length % 2 = 1 ∧
      ∀ i (hi : i < (splitAtFences "x *\\/ ```` */ ``` *\\/".toList).length), i % 2 = 0 →
        ¬ ['*', '/'] <:+: (splitAtFences "x *\\/ ```` */ ``` *\\/".toList)[i] := by
  have h : sanitizeDocumentation (some "x */ ```` */ ``` *```/ ") =
      some "x *\\/ ```` */ ``` *\\/" := by decide +kernel
  exact ⟨h, documentation_fences_paired h⟩

end EntitySchema.Text
