import Mathlib.Data.List.Rotate
import EntitySchema.Validation.Cycle

/-!
# Forms of a circle

The forms of a circle write down exactly its rotations and the rotations of its reversal. Written
down with arrows, circles of names without a space can be told apart, so that for such names a circle
with a known form is a rotation of a known circle or of its reversal.
-/

set_option autoImplicit false

namespace EntitySchema.Cycle

theorem dropLast_close {ring : List String} (h : ring ≠ []) : (close ring).dropLast = ring := by
  obtain ⟨a, rest, rfl⟩ := List.exists_cons_of_ne_nil h
  exact List.dropLast_concat

theorem close_ne_nil {ring : List String} (h : ring ≠ []) : close ring ≠ [] := by
  simp [close, h]

theorem mem_close {ring : List String} {a : String} : a ∈ close ring ↔ a ∈ ring := by
  rw [close, List.mem_append]
  exact ⟨fun h => h.elim id List.mem_of_mem_take, Or.inl⟩

theorem mem_rotations {ring r : List String} (h : ring ≠ []) :
    r ∈ rotations ring ↔ ring ~r r := by
  simp only [rotations, List.mem_map, List.mem_range]
  constructor
  · rintro ⟨i, hi, rfl⟩
    exact ⟨i, List.rotate_eq_drop_append_take hi.le⟩
  · rintro ⟨i, rfl⟩
    have hpos := List.length_pos_iff.mpr h
    exact ⟨i % ring.length, Nat.mod_lt i hpos, List.rotate_eq_drop_append_take_mod.symm⟩

theorem mem_forms {ring : List String} (h : ring ≠ []) {text : String} :
    text ∈ forms (close ring) ↔
      ∃ r, (ring ~r r ∨ ring.reverse ~r r) ∧ Finding.arrows (close r) = text := by
  have hr : ring.reverse ≠ [] := by simpa using h
  simp only [forms, dropLast_close h, List.mem_map, List.mem_append, mem_rotations h,
    mem_rotations hr]

theorem arrows_mem_forms {ring : List String} (h : ring ≠ []) :
    Finding.arrows (close ring) ∈ forms (close ring) :=
  (mem_forms h).mpr ⟨ring, Or.inl (List.IsRotated.refl ring), rfl⟩

/-- A name up to the first separator and what follows it are determined by the text. -/
theorem eq_of_append_separator {c : Char} {a b x y : List Char} (ha : c ∉ a) (hb : c ∉ b)
    (h : a ++ c :: x = b ++ c :: y) : a = b ∧ x = y := by
  induction a generalizing b with
  | nil =>
    cases b with
    | nil => simpa using h
    | cons d b =>
      obtain ⟨rfl, -⟩ := List.cons.inj h
      simp at hb
  | cons d a ih =>
    cases b with
    | nil =>
      obtain ⟨rfl, -⟩ := List.cons.inj h
      simp at ha
    | cons e b =>
      obtain ⟨rfl, ht⟩ := List.cons.inj h
      obtain ⟨rfl, rfl⟩ := ih (fun hm => ha (List.mem_cons_of_mem _ hm))
        (fun hm => hb (List.mem_cons_of_mem _ hm)) ht
      exact ⟨rfl, rfl⟩

def SpaceFree (names : List String) : Prop := ∀ n ∈ names, ' ' ∉ n.toList

theorem arrows_singleton (a : String) : Finding.arrows [a] = a := String.intercalate_singleton

theorem toList_arrows_cons_cons (a b : String) (names : List String) :
    (Finding.arrows (a :: b :: names)).toList =
      a.toList ++ ' ' :: ('-' :: '>' :: ' ' :: (Finding.arrows (b :: names)).toList) := by
  rw [Finding.arrows, String.intercalate_cons_cons, ← Finding.arrows, String.toList_append,
    String.toList_append, List.append_assoc]
  rfl

theorem arrows_injective {c d : List String} (hc : c ≠ []) (hd : d ≠ []) (hcs : SpaceFree c)
    (hds : SpaceFree d) (h : Finding.arrows c = Finding.arrows d) : c = d := by
  induction c generalizing d with
  | nil => exact absurd rfl hc
  | cons a c ih =>
    obtain ⟨b, d, rfl⟩ := List.exists_cons_of_ne_nil hd
    have ha := hcs a List.mem_cons_self
    have hb := hds b List.mem_cons_self
    have ht := congrArg String.toList h
    cases c with
    | nil =>
      cases d with
      | nil => rw [← arrows_singleton a, h, arrows_singleton]
      | cons b' d =>
        rw [toList_arrows_cons_cons, arrows_singleton] at ht
        simp [ht] at ha
    | cons a' c =>
      cases d with
      | nil =>
        rw [toList_arrows_cons_cons, arrows_singleton] at ht
        simp [← ht] at hb
      | cons b' d =>
        rw [toList_arrows_cons_cons, toList_arrows_cons_cons] at ht
        obtain ⟨hab, hrest⟩ := eq_of_append_separator ha hb ht
        simp only [List.cons.injEq, true_and] at hrest
        have htail := ih (List.cons_ne_nil _ _) (List.cons_ne_nil _ _)
          (fun n hn => hcs n (List.mem_cons_of_mem _ hn))
          (fun n hn => hds n (List.mem_cons_of_mem _ hn)) (String.toList_injective hrest)
        rw [String.toList_injective hab, htail]

theorem close_injective {r s : List String} (hr : r ≠ []) (hs : s ≠ [])
    (h : close r = close s) : r = s := by
  rw [← dropLast_close hr, h, dropLast_close hs]

/-- A circle one of whose forms is that of another circle has the same models. -/
theorem perm_of_arrows_mem_forms {r s : List String} (hr : r ≠ []) (hs : s ≠ [])
    (hrs : SpaceFree r) (hss : SpaceFree s) (h : Finding.arrows (close r) ∈ forms (close s)) :
    r.Perm s := by
  obtain ⟨r', hrot, harrows⟩ := (mem_forms hs).mp h
  have hperm : r'.Perm s := by
    rcases hrot with hrot | hrot
    · exact hrot.perm.symm
    · exact hrot.perm.symm.trans (List.reverse_perm s)
  have hr' : r' ≠ [] := by
    rintro rfl
    exact hs hperm.nil_eq.symm
  have heq : close r' = close r := by
    apply arrows_injective (close_ne_nil hr') (close_ne_nil hr) _ _ harrows
    · exact fun n hn => hss n (hperm.mem_iff.mp (mem_close.mp hn))
    · exact fun n hn => hrs n (mem_close.mp hn)
  exact close_injective hr' hr heq ▸ hperm

end EntitySchema.Cycle
