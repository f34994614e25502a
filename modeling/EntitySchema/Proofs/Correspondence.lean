import Mathlib.Data.List.Perm.Basic
import Mathlib.Data.List.Forall2

/-!
# Corresponding lists

Lists whose elements correspond to each other one by one, in the same order or in some other order.
Where order does not matter, a property of the elements carries over from one list to the other.
-/

set_option autoImplicit false

namespace EntitySchema

variable {α β γ δ : Type} {r : α → β → Prop}

/-! In the same order. -/

theorem exists_left_of_forall₂ {xs : List α} {ys : List β} (h : List.Forall₂ r xs ys) {y : β}
    (hy : y ∈ ys) : ∃ x ∈ xs, r x y := by
  induction h with
  | nil => cases hy
  | cons hxy _ ih =>
    rcases List.mem_cons.mp hy with rfl | hy
    · exact ⟨_, List.mem_cons_self, hxy⟩
    · obtain ⟨x, hx, hr⟩ := ih hy
      exact ⟨x, List.mem_cons_of_mem _ hx, hr⟩

theorem map_eq_of_forall₂ {f : α → γ} {g : β → γ} {xs : List α} {ys : List β}
    (h : List.Forall₂ r xs ys) (hf : ∀ x y, r x y → f x = g y) : xs.map f = ys.map g := by
  rw [← List.forall₂_eq_eq_eq]
  exact List.rel_map hf h

theorem forall₂_of_map_eq {f : α → γ} {g : β → γ} {xs : List α} {ys : List β}
    (h : xs.map f = ys.map g) : List.Forall₂ (fun x y => f x = g y) xs ys := by
  rwa [← List.forall₂_eq_eq_eq, List.forall₂_map_left_iff, List.forall₂_map_right_iff] at h

theorem filterMap_eq_of_forall₂ {f : α → Option γ} {g : β → Option γ} {xs : List α} {ys : List β}
    (h : List.Forall₂ r xs ys) (hf : ∀ x y, r x y → f x = g y) :
    xs.filterMap f = ys.filterMap g := by
  induction h with
  | nil => rfl
  | @cons x y _ _ hxy _ ih => rw [List.filterMap_cons, List.filterMap_cons, hf x y hxy, ih]

theorem forall₂_filter {p : α → Bool} {q : β → Bool} {xs : List α} {ys : List β}
    (h : List.Forall₂ r xs ys) (hp : ∀ x y, r x y → p x = q y) :
    List.Forall₂ r (xs.filter p) (ys.filter q) :=
  List.rel_filter (fun x y hxy => Bool.eq_iff_iff.mp (hp x y hxy)) h

/-! At most one element on either side. -/

theorem rel_getD {x : Option α} {y : Option β} (h : Option.Rel r x y) {a : α} {b : β}
    (hr : r a b) : r (x.getD a) (y.getD b) := by
  cases h with
  | none => exact hr
  | some h => exact h

theorem rel_map {s : γ → δ → Prop} {x : Option α} {y : Option β} {f : α → γ} {g : β → δ}
    (h : Option.Rel r x y) (hs : ∀ a b, r a b → s (f a) (g b)) :
    Option.Rel s (x.map f) (y.map g) := by
  cases h with
  | none => exact .none
  | some hr => exact .some (hs _ _ hr)

theorem rel_bind {s : γ → δ → Prop} {x : Option α} {y : Option β} {f : α → Option γ}
    {g : β → Option δ} (h : Option.Rel r x y) (hs : ∀ a b, r a b → Option.Rel s (f a) (g b)) :
    Option.Rel s (x.bind f) (y.bind g) := by
  cases h with
  | none => exact .none
  | some hr => exact hs _ _ hr

theorem rel_bind_left {s : γ → δ → Prop} (x : Option α) {f : α → Option γ} {g : α → Option δ}
    (hs : ∀ a, Option.Rel s (f a) (g a)) : Option.Rel s (x.bind f) (x.bind g) := by
  cases x with
  | none => exact .none
  | some a => exact hs a

theorem rel_self {s : α → α → Prop} (hs : ∀ a, s a a) (x : Option α) : Option.Rel s x x := by
  cases x with
  | none => exact .none
  | some a => exact .some (hs a)

theorem rel_swap {s : β → α → Prop} {x : Option α} {y : Option β} (h : Option.Rel r x y)
    (hs : ∀ a b, r a b → s b a) : Option.Rel s y x := by
  cases h with
  | none => exact .none
  | some hr => exact .some (hs _ _ hr)

theorem map_eq_of_rel {f : α → γ} {g : β → γ} {x : Option α} {y : Option β} (h : Option.Rel r x y)
    (hf : ∀ a b, r a b → f a = g b) : x.map f = y.map g := by
  cases h with
  | none => rfl
  | some hr => exact congrArg some (hf _ _ hr)

theorem isNone_eq_of_rel {x : Option α} {y : Option β} (h : Option.Rel r x y) :
    x.isNone = y.isNone := by
  cases h <;> rfl

theorem exists_right_of_rel {x : Option α} {y : Option β} (h : Option.Rel r x y) {a : α}
    (ha : a ∈ x) : ∃ b ∈ y, r a b := by
  cases h with
  | none => cases ha
  | some hr =>
    cases ha
    exact ⟨_, rfl, hr⟩

theorem exists_left_of_rel {x : Option α} {y : Option β} (h : Option.Rel r x y) {b : β}
    (hb : b ∈ y) : ∃ a ∈ x, r a b :=
  exists_right_of_rel (rel_swap (s := fun b a => r a b) h fun _ _ hr => hr) hb

theorem rel_of_exists {x : Option α} {y : Option β} (hx : ∀ a ∈ x, ∃ b ∈ y, r a b)
    (hy : ∀ b ∈ y, ∃ a ∈ x, r a b) : Option.Rel r x y := by
  cases x with
  | none =>
    cases y with
    | none => exact .none
    | some b =>
      obtain ⟨a, ha, -⟩ := hy b rfl
      cases ha
  | some a =>
    obtain ⟨b, hb, hr⟩ := hx a rfl
    cases hb
    exact .some hr

theorem rel_find? {p : α → Bool} {q : β → Bool} {xs : List α} {ys : List β}
    (h : List.Forall₂ r xs ys) (hp : ∀ x y, r x y → p x = q y) :
    Option.Rel r (xs.find? p) (ys.find? q) := by
  induction h with
  | nil => exact .none
  | @cons x y _ _ hxy _ ih =>
    rw [List.find?_cons, List.find?_cons, hp x y hxy]
    cases q y with
    | true => exact .some hxy
    | false => exact ih

theorem rel_mapM {s : γ → δ → Prop} {f : α → Option γ} {g : β → Option δ} {xs : List α}
    {ys : List β} (h : List.Forall₂ r xs ys) (hs : ∀ x y, r x y → Option.Rel s (f x) (g y)) :
    Option.Rel (List.Forall₂ s) (xs.mapM f) (ys.mapM g) := by
  induction h with
  | nil => exact .some .nil
  | cons hxy _ ih =>
    rw [List.mapM_cons, List.mapM_cons]
    exact rel_bind (hs _ _ hxy) fun _ _ ha => rel_bind ih fun _ _ hrest => .some (.cons ha hrest)

/-! In some order. -/

def Rearranged (r : α → β → Prop) (xs : List α) (ys : List β) : Prop :=
  ∃ zs, xs.Perm zs ∧ List.Forall₂ r zs ys

namespace Rearranged

theorem of_perm {s : α → α → Prop} (hs : ∀ x, s x x) {xs ys : List α} (h : xs.Perm ys) :
    Rearranged s xs ys :=
  ⟨ys, h, List.forall₂_same.mpr fun x _ => hs x⟩

theorem of_forall₂ {xs : List α} {ys : List β} (h : List.Forall₂ r xs ys) : Rearranged r xs ys :=
  ⟨xs, .refl xs, h⟩

theorem perm_left {xs xs' : List α} {ys : List β} (h : Rearranged r xs ys) (hp : xs'.Perm xs) :
    Rearranged r xs' ys := by
  obtain ⟨zs, hperm, hzs⟩ := h
  exact ⟨zs, hp.trans hperm, hzs⟩

theorem exists_left {xs : List α} {ys : List β} (h : Rearranged r xs ys) {y : β} (hy : y ∈ ys) :
    ∃ x ∈ xs, r x y := by
  obtain ⟨zs, hperm, hzs⟩ := h
  obtain ⟨x, hx, hr⟩ := exists_left_of_forall₂ hzs hy
  exact ⟨x, hperm.mem_iff.mpr hx, hr⟩

/-- The order may as well be changed on the other side. -/
theorem exists_forall₂ {xs : List α} {ys : List β} (h : Rearranged r xs ys) :
    ∃ zs, List.Forall₂ r xs zs ∧ zs.Perm ys := by
  obtain ⟨zs, hperm, hzs⟩ := h
  obtain ⟨ws, hws, hp⟩ := List.perm_comp_forall₂ hperm hzs
  exact ⟨ws, hws, hp⟩

theorem symm {s : β → α → Prop} {xs : List α} {ys : List β} (h : Rearranged r xs ys)
    (hs : ∀ x y, r x y → s y x) : Rearranged s ys xs := by
  obtain ⟨zs, hzs, hperm⟩ := h.exists_forall₂
  exact ⟨zs, hperm.symm, (hzs.imp hs).flip⟩

theorem exists_right {xs : List α} {ys : List β} (h : Rearranged r xs ys) {x : α} (hx : x ∈ xs) :
    ∃ y ∈ ys, r x y :=
  exists_left (h.symm (s := fun y x => r x y) fun _ _ hr => hr) hx

theorem imp {s : α → β → Prop} {xs : List α} {ys : List β} (h : Rearranged r xs ys)
    (hs : ∀ x y, r x y → s x y) : Rearranged s xs ys := by
  obtain ⟨zs, hperm, hzs⟩ := h
  exact ⟨zs, hperm, hzs.imp hs⟩

theorem map {s : γ → δ → Prop} {f : α → γ} {g : β → δ} {xs : List α} {ys : List β}
    (h : Rearranged r xs ys) (hs : ∀ x ∈ xs, ∀ y, r x y → s (f x) (g y)) :
    Rearranged s (xs.map f) (ys.map g) := by
  obtain ⟨zs, hperm, hzs⟩ := h
  have hmem : List.Forall₂ (fun x y => x ∈ xs ∧ r x y) zs ys :=
    (List.forall₂_and_left zs ys).mpr ⟨fun x hx => hperm.mem_iff.mpr hx, hzs⟩
  exact ⟨zs.map f, hperm.map f, List.rel_map (fun x y hxy => hs x hxy.1 y hxy.2) hmem⟩

theorem filterMap {s : γ → δ → Prop} {f : α → Option γ} {g : β → Option δ} {xs : List α}
    {ys : List β} (h : Rearranged r xs ys) (hs : ∀ x y, r x y → Option.Rel s (f x) (g y)) :
    Rearranged s (xs.filterMap f) (ys.filterMap g) := by
  obtain ⟨zs, hperm, hzs⟩ := h
  exact ⟨zs.filterMap f, hperm.filterMap f, List.rel_filterMap hs hzs⟩

theorem perm_of_eq {xs ys : List α} (h : Rearranged (· = ·) xs ys) : xs.Perm ys := by
  obtain ⟨zs, hperm, hzs⟩ := h
  rw [List.forall₂_eq_eq_eq] at hzs
  exact hzs ▸ hperm

end Rearranged

end EntitySchema
