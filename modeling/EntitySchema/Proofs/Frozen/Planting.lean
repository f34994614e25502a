import EntitySchema.Live.Plant
import EntitySchema.Proofs.Frozen.Growth
import EntitySchema.Proofs.Frozen.Record

/-!
# Planting uniform schemas

A schema that is frozen throughout becomes live objects that are all frozen, and one that is open
throughout becomes open objects. The invariant of the store is that whatever an object holds is
uniform; putting in one object after the other keeps it, since an object holds cells that were put in
before.
-/

set_option autoImplicit false

namespace EntitySchema.Live

variable {α β : Type} {frozen : Bool} {s t : Store}

namespace Object

def held : Object → List Cell
  | .seq _ items => items
  | .map _ entries => entries.map (·.2)
  | .record _ attributes _ => attributes.map (·.2)

def inner : Object → List Cell
  | .record _ _ inner => inner.map (·.2)
  | _ => []

def IsFrozen (frozen : Bool) : Object → Prop
  | .seq f _ => f = frozen
  | .map f _ => f = frozen
  | .record _ _ inner => inner.lookup markName = some (flag frozen)

end Object

/-- A cell that holds or refers to something frozen, or to something open, as wanted. -/
def Cell.Uniform (frozen : Bool) (s : Store) : Cell → Prop
  | .leaf v => v.Uniform frozen
  | .ref id => ∃ o, s.objects[id]? = some o ∧ o.IsFrozen frozen

def Cell.IsLookup (frozen : Bool) (s : Store) (readOnly : Bool) (c : Cell) : Prop :=
  ∃ id entries, c = .ref id ∧ s.objects[id]? = some (.map readOnly entries) ∧
    ∀ e ∈ entries, e.2.Uniform frozen s

/-- An object whose content is uniform: what a caller finds in it, and what stands in the lookups that
a record holds for itself. -/
structure Object.Sound (frozen : Bool) (s : Store) (o : Object) : Prop where
  held : ∀ c ∈ o.held, c.Uniform frozen s
  inner : ∀ c ∈ o.inner, (∃ v, c = .leaf v) ∨ ∃ readOnly, c.IsLookup frozen s readOnly

def Store.Sound (frozen : Bool) (s : Store) : Prop :=
  ∀ (id : Id) o, s.objects[id]? = some o → o.Sound frozen s

/-! The objects that can be found from a cell. -/

/-- Whether a cell can be found from another: in what its object holds, or under a name in a lookup. -/
inductive Reaches (s : Store) (root : Cell) : Cell → Prop
  | root : Reaches s root root
  | held {id : Id} {o : Object} {c : Cell} : Reaches s root (.ref id) → s.objects[id]? = some o →
      c ∈ o.held → Reaches s root c
  | looked {id table : Id} {o : Object} {readOnly : Bool} {entries : List (Value × Cell)}
      {e : Value × Cell} : Reaches s root (.ref id) → s.objects[id]? = some o →
      .ref table ∈ o.inner → s.objects[table]? = some (.map readOnly entries) → e ∈ entries →
      Reaches s root e.2

/-- Whatever is found from a uniform cell is uniform. -/
theorem Reaches.uniform {root c : Cell} (hs : s.Sound frozen) (hroot : root.Uniform frozen s)
    (h : Reaches s root c) : c.Uniform frozen s := by
  induction h with
  | root => exact hroot
  | held _ ho hc => exact (hs _ _ ho).held _ hc
  | looked _ ho htable hentries he =>
    rcases (hs _ _ ho).inner _ htable with ⟨v, hv⟩ | ⟨_, id, entries, hid, hentries', hall⟩
    · cases hv
    · cases hid
      rw [hentries] at hentries'
      cases hentries'
      exact hall _ he

/-! What lasts when the store grows. -/

theorem Cell.Uniform.mono {c : Cell} (h : c.Uniform frozen s) (hst : s.ExtendedBy t) :
    c.Uniform frozen t := by
  cases c with
  | leaf v => exact h
  | ref id =>
    obtain ⟨o, ho, hfrozen⟩ := h
    exact ⟨o, hst id o ho, hfrozen⟩

theorem Cell.IsLookup.mono {readOnly : Bool} {c : Cell} (h : c.IsLookup frozen s readOnly)
    (hst : s.ExtendedBy t) : c.IsLookup frozen t readOnly := by
  obtain ⟨id, entries, rfl, hmap, hentries⟩ := h
  exact ⟨id, entries, rfl, hst id _ hmap, fun e he => (hentries e he).mono hst⟩

theorem Object.Sound.mono {o : Object} (h : o.Sound frozen s) (hst : s.ExtendedBy t) :
    o.Sound frozen t where
  held c hc := (h.held c hc).mono hst
  inner c hc := (h.inner c hc).imp_right fun ⟨readOnly, hl⟩ => ⟨readOnly, hl.mono hst⟩

theorem Store.Sound.push (hs : s.Sound frozen) {o : Object} (ho : o.Sound frozen s) :
    Store.Sound frozen ⟨s.objects.push o⟩ := by
  intro id found hfound
  rw [Array.getElem?_push] at hfound
  split at hfound
  · cases hfound
    exact ho.mono (s.extendedBy_push o)
  · exact (hs id found hfound).mono (s.extendedBy_push o)

/-! What is known while a schema is put in. -/

def Object.ofSchema (frozen : Bool) (models enums modelMap enumMap reverseMap : Cell) : Object :=
  .record .schema [("models", models), ("enums", enums)]
    (mark frozen ++ [("_model_map", modelMap), ("_enum_map", enumMap),
      ("_reverse_relation_map", reverseMap)])

inductive Fact where
  | uniform (c : Cell)
  | lookup (readOnly : Bool) (c : Cell)
  /-- The cell refers to a record that has its reverse relations. -/
  | model (c : Cell)
  /-- The cell refers to a schema that has its lookups. -/
  | schema (c : Cell)

def Fact.Holds (frozen : Bool) (s : Store) : Fact → Prop
  | uniform c => c.Uniform frozen s
  | lookup readOnly c => c.IsLookup frozen s readOnly
  | model c => ∃ id kind attributes inner held, c = .ref id ∧
      s.objects[id]? = some (.record kind attributes inner) ∧
      attributes.lookup "reverse_relations" = some held
  | schema c => ∃ id models enums modelMap enumMap reverseMap, c = .ref id ∧
      s.objects[id]? = some (.ofSchema frozen models enums modelMap enumMap reverseMap) ∧
      ∀ c ∈ [modelMap, enumMap, reverseMap], c.IsLookup frozen s true

theorem Fact.Holds.mono {f : Fact} (h : f.Holds frozen s) (hst : s.ExtendedBy t) :
    f.Holds frozen t := by
  cases f with
  | uniform c => exact Cell.Uniform.mono h hst
  | lookup readOnly c => exact Cell.IsLookup.mono h hst
  | model c =>
    obtain ⟨id, kind, attributes, inner, held, rfl, ho, hheld⟩ := h
    exact ⟨id, kind, attributes, inner, held, rfl, hst id _ ho, hheld⟩
  | schema c =>
    obtain ⟨id, models, enums, modelMap, enumMap, reverseMap, rfl, ho, hlookups⟩ := h
    exact ⟨id, models, enums, modelMap, enumMap, reverseMap, rfl, hst id _ ho,
      fun c hc => (hlookups c hc).mono hst⟩

def Known (frozen : Bool) (s : Store) (facts : List Fact) : Prop := ∀ f ∈ facts, f.Holds frozen s

/-- A computation that succeeds where the facts hold, only adds sound objects, and tells facts of its
result. -/
def Plants (frozen : Bool) (known : List Fact) (m : Edit α) (told : α → List Fact) : Prop :=
  ∀ s : Store, s.Sound frozen → Known frozen s known → ∃ a t, m.run s = .ok (a, t) ∧
    s.ExtendedBy t ∧ t.Sound frozen ∧ Known frozen t (told a)

variable {known : List Fact}

theorem plants_pure {a : α} {told : α → List Fact}
    (h : ∀ s, Known frozen s known → Known frozen s (told a)) :
    Plants frozen known (pure a) told :=
  fun s hs hknown => ⟨a, s, rfl, .refl s, hs, h s hknown⟩

theorem Plants.bind {m : Edit α} {k : α → Edit β} {told : α → List Fact} {told' : β → List Fact}
    (hm : Plants frozen known m told) (hk : ∀ a, Plants frozen (told a ++ known) (k a) told') :
    Plants frozen known (m >>= k) told' := by
  intro s hs hknown
  obtain ⟨a, t, ha, hst, ht, htold⟩ := hm s hs hknown
  have hall : Known frozen t (told a ++ known) := by
    intro f hf
    rcases List.mem_append.mp hf with hf | hf
    · exact htold f hf
    · exact (hknown f hf).mono hst
  obtain ⟨b, u, hb, htu, hu, htold'⟩ := hk a t ht hall
  exact ⟨b, u, run_bind_eq_ok.mpr ⟨a, t, ha, hb⟩, hst.trans htu, hu, htold'⟩

theorem Plants.mono {m : Edit α} {told : α → List Fact} {known' : List Fact}
    (h : Plants frozen known m told) (hsub : ∀ f ∈ known, f ∈ known') :
    Plants frozen known' m told :=
  fun s hs hknown => h s hs fun f hf => hknown f (hsub f hf)

theorem Plants.mapM {f : α → Edit β} {told : β → List Fact} {as : List α}
    (h : ∀ a ∈ as, Plants frozen known (f a) told) :
    Plants frozen known (as.mapM f) fun bs => bs.flatMap told := by
  induction as with
  | nil => exact plants_pure fun _ _ => nofun
  | cons a as ih =>
    rw [List.mapM_cons]
    refine (h a List.mem_cons_self).bind fun b => ?_
    have hrest := ih fun a' ha' => h a' (List.mem_cons_of_mem a ha')
    refine (hrest.mono fun f hf => List.mem_append_right _ hf).bind fun bs => plants_pure ?_
    intro s hknown f hf
    rw [List.flatMap_cons, List.mem_append] at hf
    rcases hf with hf | hf
    · exact hknown f (List.mem_append_right _ (List.mem_append_left _ hf))
    · exact hknown f (List.mem_append_left _ hf)

theorem plants_allocRef {o : Object} {told : Cell → List Fact}
    (hs : ∀ s, Known frozen s known → o.Sound frozen s)
    (h : ∀ (s : Store) (id : Id), Known frozen s known → s.objects[id]? = some o →
      Known frozen s (told (.ref id))) :
    Plants frozen known (allocRef o) told := by
  intro s hsound hknown
  have hgrown := s.extendedBy_push o
  refine ⟨.ref s.objects.size, ⟨s.objects.push o⟩, rfl, hgrown, hsound.push (hs s hknown), ?_⟩
  exact h _ _ (fun f hf => (hknown f hf).mono hgrown) Array.getElem?_push_size

/-- An object that is frozen or open as wanted, over cells that are known to be uniform. -/
theorem plants_uniform {o : Object} (ho : o.IsFrozen frozen)
    (hs : ∀ s, Known frozen s known → o.Sound frozen s) :
    Plants frozen known (allocRef o) fun c => [.uniform c] :=
  plants_allocRef hs fun _ _ _ hid _ hf => by
    cases List.mem_singleton.mp hf
    exact ⟨o, hid, ho⟩

theorem Known.uniform {c : Cell} (h : Known frozen s known) (hc : .uniform c ∈ known) :
    c.Uniform frozen s := h (.uniform c) hc

theorem Known.lookup {readOnly : Bool} {c : Cell} (h : Known frozen s known)
    (hc : .lookup readOnly c ∈ known) : c.IsLookup frozen s readOnly := h (.lookup readOnly c) hc

@[simp] theorem uniform_leaf_text (text : String) :
    (Cell.leaf (.text text)).Uniform frozen s := trivial

@[simp] theorem uniform_leaf_null : (Cell.leaf .null).Uniform frozen s := trivial

@[simp] theorem uniform_flag (b : Bool) : (flag b).Uniform frozen s := trivial

@[simp] theorem uniform_optionalText (text : Option String) :
    (optionalText text).Uniform frozen s := by
  cases text <;> trivial

theorem sound_seq {f : Bool} {cells : List Cell} (h : ∀ c ∈ cells, c.Uniform frozen s) :
    (Object.seq f cells).Sound frozen s := ⟨h, nofun⟩

theorem sound_map {f : Bool} {entries : List (Value × Cell)}
    (h : ∀ e ∈ entries, e.2.Uniform frozen s) : (Object.map f entries).Sound frozen s :=
  ⟨List.forall_mem_map.mpr h, nofun⟩

/-- A record that holds nothing for itself but its mark. -/
theorem sound_record {kind : RecordKind} {attributes : List (String × Cell)} {f : Bool}
    (h : ∀ a ∈ attributes, a.2.Uniform frozen s) :
    (Object.record kind attributes (mark f)).Sound frozen s where
  held := List.forall_mem_map.mpr h
  inner _ hc := .inl ⟨_, List.mem_singleton.mp hc⟩

theorem known_cons {f : Fact} {facts : List Fact} (hf : f.Holds frozen s)
    (hfacts : Known frozen s facts) : Known frozen s (f :: facts) :=
  List.forall_mem_cons.mpr ⟨hf, hfacts⟩

/-! Values. -/

theorem plants_leaf {v : Value} (h : v.Uniform frozen) :
    Plants frozen known (pure (.leaf v)) fun c => [.uniform c] :=
  plants_pure fun _ _ => known_cons h nofun

mutual

theorem plants_plant : ∀ {v : Value} {known : List Fact}, v.Uniform frozen →
    Plants frozen known (plant v) fun c => [.uniform c]
  | .seq _ _, _, h => (plants_plantItems h.2).bind fun _ =>
    plants_uniform h.1 fun _ hknown => sound_seq fun _ hc =>
      hknown.uniform (List.mem_append_left _ (List.mem_map_of_mem hc))
  | .map _ _, _, h => (plants_plantEntries h.2).bind fun _ =>
    plants_uniform h.1 fun _ hknown => sound_map fun _ he =>
      hknown.uniform (List.mem_append_left _ (List.mem_map_of_mem he))
  | .call _ _ _ _, _, h => (plants_plantItems h.2.2).bind fun _ =>
    (plants_uniform (o := .seq _ _) h.2.1 fun _ hknown => sound_seq fun _ hc =>
      hknown.uniform (List.mem_append_left _ (List.mem_map_of_mem hc))).bind fun _ =>
    plants_uniform (congrArg (some ∘ flag) h.1) fun _ hknown => sound_record
      (by simpa using hknown.uniform List.mem_cons_self)
  | .null, _, h => plants_leaf h
  | .bool _, _, h => plants_leaf h
  | .int _, _, h => plants_leaf h
  | .float _, _, h => plants_leaf h
  | .text _, _, h => plants_leaf h
  | .bytes _, _, h => plants_leaf h

theorem plants_plantItems : ∀ {vs : List Value} {known : List Fact}, Value.UniformItems frozen vs →
    Plants frozen known (plantItems vs) fun cells => cells.map .uniform
  | [], _, _ => plants_pure fun _ _ => nofun
  | _ :: _, _, h => (plants_plant h.1).bind fun _ => (plants_plantItems h.2).bind fun _ =>
    plants_pure fun _ hknown => known_cons
      (hknown _ (List.mem_append_right _ List.mem_cons_self))
      fun f hf => hknown f (List.mem_append_left _ hf)

theorem plants_plantEntries : ∀ {es : List (Value × Value)} {known : List Fact},
    Value.UniformEntries frozen es →
    Plants frozen known (plantEntries es) fun entries => entries.map fun e => .uniform e.2
  | [], _, _ => plants_pure fun _ _ => nofun
  | (_, _) :: _, _, h => (plants_plant h.1.2).bind fun _ => (plants_plantEntries h.2).bind fun _ =>
    plants_pure fun _ hknown => known_cons
      (hknown _ (List.mem_append_right _ List.mem_cons_self))
      fun f hf => hknown f (List.mem_append_left _ hf)

end

/-! Records. -/

theorem mem_of_lookup {entries : List (String × Cell)} {name : String} {c : Cell}
    (h : entries.lookup name = some c) : (name, c) ∈ entries := by
  obtain ⟨before, after, rfl, -⟩ := List.lookup_eq_some_iff.mp h
  exact List.mem_append_right _ List.mem_cons_self

/-- A lookup finds a cell that was put in, or there is none. -/
theorem getD_lookup_of_forall {P : Cell → Prop} {planted : List (String × Cell)}
    (hnull : P (.leaf .null)) (h : ∀ e ∈ planted, P e.2) (f : Option Field) :
    P ((f.bind fun f => planted.lookup f.name).getD (.leaf .null)) := by
  cases hfound : f.bind fun f => planted.lookup f.name with
  | none => exact hnull
  | some c =>
    obtain ⟨f, -, hlookup⟩ := Option.bind_eq_some_iff.mp hfound
    exact h (f.name, c) (mem_of_lookup hlookup)

theorem run_fetch {id : Id} {o : Object} (h : s.objects[id]? = some o) :
    (fetch id).run s = .ok (o, s) := by
  have hget : (get : Edit Store).run s = .ok (s, s) := rfl
  unfold fetch
  rw [run_bind_of_ok hget, h]
  rfl

theorem run_objectOf? {id : Id} {o : Object} (h : s.objects[id]? = some o) :
    (objectOf? (.ref id)).run s = .ok (some (id, o), s) :=
  run_bind_eq_ok.mpr ⟨o, s, run_fetch h, rfl⟩

theorem run_stored {id : Id} {kind : RecordKind} {attributes inner : List (String × Cell)}
    (h : s.objects[id]? = some (.record kind attributes inner)) {name : String} {c : Cell}
    (hc : attributes.lookup name = some c) : (stored (.ref id) name).run s = .ok (c, s) := by
  refine run_bind_eq_ok.mpr ⟨_, s, run_objectOf? h, ?_⟩
  dsimp only
  rw [hc]
  rfl

end EntitySchema.Live
