import EntitySchema.Live.Session
import Mathlib.Tactic.Common

/-!
# Reading live objects

Reading never changes an object. It may add some: the computed list of a model's field names is a new
object each time, and a key is put into the store before it is compared. So whatever a path leads
through, all objects stay as they were.
-/

set_option autoImplicit false

namespace EntitySchema.Live

variable {α β : Type} {s t u : Store}

namespace Store

def ExtendedBy (s t : Store) : Prop :=
  ∀ (id : Id) o, s.objects[id]? = some o → t.objects[id]? = some o

theorem ExtendedBy.refl (s : Store) : s.ExtendedBy s := fun _ _ h => h

theorem ExtendedBy.trans (h : s.ExtendedBy t) (h' : t.ExtendedBy u) : s.ExtendedBy u :=
  fun id o ho => h' id o (h id o ho)

theorem extendedBy_push (s : Store) (o : Object) : s.ExtendedBy ⟨s.objects.push o⟩ := by
  intro id found h
  have hid : id < s.objects.size := (Array.getElem?_eq_some_iff.mp h).1
  rw [Array.getElem?_push_lt hid, ← Array.getElem?_eq_getElem hid]
  exact h

end Store

theorem run_bind_of_ok {m : Edit α} {k : α → Edit β} {a : α} (h : m.run s = .ok (a, t)) :
    (m >>= k).run s = (k a).run t := by
  rw [StateT.run_bind, h]
  rfl

theorem run_bind_eq_ok {m : Edit α} {k : α → Edit β} {b : β} :
    (m >>= k).run s = .ok (b, u) ↔ ∃ a t, m.run s = .ok (a, t) ∧ (k a).run t = .ok (b, u) := by
  cases h : m.run s with
  | error fault =>
    rw [StateT.run_bind, h]
    exact ⟨nofun, nofun⟩
  | ok p =>
    rw [run_bind_of_ok h]
    simp [Prod.ext_iff]

def Grows (m : Edit α) : Prop := ∀ s a t, m.run s = .ok (a, t) → s.ExtendedBy t

theorem grows_pure (a : α) : Grows (pure a) := by
  intro s b t h
  cases h
  exact .refl s

theorem Grows.bind {m : Edit α} {k : α → Edit β} (hm : Grows m) (hk : ∀ a, Grows (k a)) :
    Grows (m >>= k) := by
  intro s b u h
  obtain ⟨a, t, ht, hu⟩ := run_bind_eq_ok.mp h
  exact (hm s a t ht).trans (hk a t b u hu)

theorem Grows.map {m : Edit α} (hm : Grows m) (f : α → β) : Grows (f <$> m) := by
  rw [map_eq_pure_bind]
  exact hm.bind fun a => grows_pure (f a)

theorem Grows.mapM {f : α → Edit β} (hf : ∀ a, Grows (f a)) (as : List α) : Grows (as.mapM f) := by
  induction as with
  | nil => exact grows_pure []
  | cons a as ih =>
    rw [List.mapM_cons]
    exact (hf a).bind fun b => ih.bind fun bs => grows_pure (b :: bs)

theorem Grows.foldlM {f : β → α → Edit β} (hf : ∀ b a, Grows (f b a)) (as : List α) (b : β) :
    Grows (as.foldlM f b) := by
  induction as generalizing b with
  | nil => exact grows_pure b
  | cons a as ih =>
    rw [List.foldlM_cons]
    exact (hf b a).bind ih

theorem grows_allocRef (o : Object) : Grows (allocRef o) := by
  intro s c t h
  cases h
  exact s.extendedBy_push o

mutual

theorem grows_plant : ∀ v : Value, Grows (plant v)
  | .seq _ items => (grows_plantItems items).bind fun _ => grows_allocRef _
  | .map _ entries => (grows_plantEntries entries).bind fun _ => grows_allocRef _
  | .call _ _ _ args =>
    (grows_plantItems args).bind fun _ => (grows_allocRef _).bind fun _ => grows_allocRef _
  | .null => grows_pure _
  | .bool _ => grows_pure _
  | .int _ => grows_pure _
  | .float _ => grows_pure _
  | .text _ => grows_pure _
  | .bytes _ => grows_pure _

theorem grows_plantItems : ∀ vs : List Value, Grows (plantItems vs)
  | [] => grows_pure []
  | v :: vs => (grows_plant v).bind fun _ => (grows_plantItems vs).bind fun _ => grows_pure _

theorem grows_plantEntries : ∀ es : List (Value × Value), Grows (plantEntries es)
  | [] => grows_pure []
  | (_, v) :: es => (grows_plant v).bind fun _ => (grows_plantEntries es).bind fun _ => grows_pure _

end

end EntitySchema.Live
