import EntitySchema.Live.Accept
import EntitySchema.Proofs.Correspondence
import EntitySchema.Proofs.Frozen.Planting

/-!
# Typed records

Every attribute of a record is declared with a type, and a type admits cells of one form: a name is a
text of at least one character, a kind is one of the four words, a key list is a sequence of texts. A
record is typed if it holds what its kind declares, each in the form that the type admits. Objects that
are added later do not change what is admitted.
-/

set_option autoImplicit false

namespace EntitySchema

def Value.IsScalar : Value → Prop
  | .null => True
  | .bool _ => True
  | .int _ => True
  | .float _ => True
  | .text _ => True
  | _ => False

namespace Live

variable {α β : Type} {s t u : Store}

/-- What is once so of something stays so when objects are added to the store. -/
def Lasts (P : Store → α → Prop) : Prop := ∀ ⦃s t : Store⦄ ⦃a : α⦄, s.ExtendedBy t → P s a → P t a

theorem lasts_of_const (P : α → Prop) : Lasts fun _ => P := fun _ _ _ _ h => h

theorem Lasts.or {P Q : Store → α → Prop} (hP : Lasts P) (hQ : Lasts Q) :
    Lasts fun s a => P s a ∨ Q s a := fun _ _ _ hst h => h.imp (hP hst) (hQ hst)

namespace Cell

def IsText (c : Cell) : Prop := ∃ text, c = .leaf (.text text)

def IsName (c : Cell) : Prop := ∃ text, c = .leaf (.text text) ∧ text ≠ ""

def IsScalar (c : Cell) : Prop := ∃ v, c = .leaf v ∧ v.IsScalar

def IsSeqOf (P : Store → Cell → Prop) (s : Store) (c : Cell) : Prop :=
  ∃ id frozen items, c = .ref id ∧ s.objects[id]? = some (.seq frozen items) ∧
    ∀ item ∈ items, P s item

def IsRecordOf (kind : RecordKind) (s : Store) (c : Cell) : Prop :=
  ∃ id attributes inner, c = .ref id ∧ s.objects[id]? = some (.record kind attributes inner)

end Cell

theorem Lasts.isSeqOf {P : Store → Cell → Prop} (hP : Lasts P) : Lasts (Cell.IsSeqOf P) := by
  rintro s t c hst ⟨id, frozen, items, rfl, ho, hitems⟩
  exact ⟨id, frozen, items, rfl, hst id _ ho, fun item hitem => hP hst (hitems item hitem)⟩

theorem lasts_isRecordOf (kind : RecordKind) : Lasts (Cell.IsRecordOf kind) := by
  rintro s t c hst ⟨id, attributes, inner, rfl, ho⟩
  exact ⟨id, attributes, inner, rfl, hst id _ ho⟩

def Cell.IsSeq : Store → Cell → Prop := IsSeqOf fun _ _ => True

def Cell.IsTexts : Store → Cell → Prop := IsSeqOf fun _ => IsText

def Cell.IsOptional (P : Store → Cell → Prop) (s : Store) (c : Cell) : Prop :=
  c = .leaf .null ∨ P s c

theorem lasts_isSeq : Lasts Cell.IsSeq := (lasts_of_const _).isSeqOf

theorem lasts_isTexts : Lasts Cell.IsTexts := (lasts_of_const _).isSeqOf

theorem Lasts.isOptional {P : Store → Cell → Prop} (hP : Lasts P) : Lasts (Cell.IsOptional P) :=
  (lasts_of_const fun c : Cell => c = .leaf .null).or hP

namespace AttributeType

def Admits : AttributeType → Store → Cell → Prop
  | .name => fun _ => Cell.IsName
  | .text => fun _ => Cell.IsText
  | .optionalText => Cell.IsOptional fun _ => Cell.IsText
  | .keyName => Cell.IsOptional fun _ => Cell.IsName
  | .flag => fun _ c => ∃ b, c = Live.flag b
  | .kind => fun _ c => ∃ k : FieldKind, c = .leaf (.text k.word)
  | .defaultValue => fun s c => c.IsScalar ∨ c.IsSeq s ∨ c.IsRecordOf .function s
  | .items => Cell.IsSeq
  | .names => Cell.IsTexts
  | .optionalNames => Cell.IsOptional Cell.IsTexts
  | .nameGroups => Cell.IsSeqOf Cell.IsTexts
  | .records held => Cell.IsSeqOf (Cell.IsRecordOf held)
  | .optionalRecord held => Cell.IsOptional (Cell.IsRecordOf held)

theorem lasts_admits (type : AttributeType) : Lasts type.Admits := by
  cases type with
  | name => exact lasts_of_const _
  | text => exact lasts_of_const _
  | optionalText => exact (lasts_of_const _).isOptional
  | keyName => exact (lasts_of_const _).isOptional
  | flag => exact lasts_of_const _
  | kind => exact lasts_of_const _
  | defaultValue => exact (lasts_of_const _).or (lasts_isSeq.or (lasts_isRecordOf _))
  | items => exact lasts_isSeq
  | names => exact lasts_isTexts
  | optionalNames => exact lasts_isTexts.isOptional
  | nameGroups => exact lasts_isTexts.isSeqOf
  | records held => exact (lasts_isRecordOf held).isSeqOf
  | optionalRecord held => exact (lasts_isRecordOf held).isOptional

end AttributeType

def TypedAttributes (kind : RecordKind) (s : Store) (attributes : List (String × Cell)) : Prop :=
  List.Forall₂ (fun (d : String × AttributeType) a => d.1 = a.1 ∧ d.2.Admits s a.2) (declared kind)
    attributes

def Object.Typed (s : Store) : Object → Prop
  | .record kind attributes _ => TypedAttributes kind s attributes
  | _ => True

def Store.Typed (s : Store) : Prop := ∀ (id : Id) o, s.objects[id]? = some o → o.Typed s

theorem TypedAttributes.mono {kind : RecordKind} {attributes : List (String × Cell)}
    (h : TypedAttributes kind s attributes) (hst : s.ExtendedBy t) :
    TypedAttributes kind t attributes :=
  h.imp fun d _ ha => ⟨ha.1, d.2.lasts_admits hst ha.2⟩

theorem TypedAttributes.exists_lookup {kind : RecordKind} {attributes : List (String × Cell)}
    (h : TypedAttributes kind s attributes) {name : String} {type : AttributeType}
    (hdeclared : (declared kind).lookup name = some type) :
    ∃ c, attributes.lookup name = some c ∧ type.Admits s c := by
  unfold TypedAttributes at h
  generalize declared kind = types at h hdeclared
  induction h with
  | nil => cases hdeclared
  | @cons d a ds as hd _ ih =>
    obtain ⟨declaredName, declaredType⟩ := d
    obtain ⟨given, c⟩ := a
    obtain ⟨rfl, hadmits⟩ := hd
    rw [List.lookup_cons] at hdeclared ⊢
    cases hname : name == declaredName with
    | true =>
      rw [hname] at hdeclared
      cases hdeclared
      exact ⟨c, rfl, hadmits⟩
    | false =>
      rw [hname] at hdeclared
      exact ih hdeclared

theorem Object.Typed.mono {o : Object} (h : o.Typed s) (hst : s.ExtendedBy t) : o.Typed t := by
  cases o with
  | record kind attributes inner => exact TypedAttributes.mono h hst
  | _ => trivial

namespace Store

theorem typed_empty : Store.empty.Typed := nofun

theorem Typed.push (hs : s.Typed) {o : Object} (ho : o.Typed s) :
    Store.Typed ⟨s.objects.push o⟩ := by
  intro id found hfound
  rw [Array.getElem?_push] at hfound
  split at hfound
  · cases hfound
    exact ho.mono (s.extendedBy_push o)
  · exact (hs id found hfound).mono (s.extendedBy_push o)

/-- A store with all objects of another, where those that are new are typed if the others are. -/
structure GrowsTo (s t : Store) : Prop where
  extended : s.ExtendedBy t
  typed : s.Typed → t.Typed

theorem GrowsTo.refl (s : Store) : s.GrowsTo s := ⟨.refl s, id⟩

theorem GrowsTo.trans (h : s.GrowsTo t) (h' : t.GrowsTo u) : s.GrowsTo u :=
  ⟨h.extended.trans h'.extended, fun hs => h'.typed (h.typed hs)⟩

theorem growsTo_push {o : Object} (ho : s.Typed → o.Typed s) : s.GrowsTo ⟨s.objects.push o⟩ :=
  ⟨s.extendedBy_push o, fun hs => hs.push (ho hs)⟩

end Store

/-! Computations that add typed objects. -/

/-- A computation that succeeds on a store, adds typed objects to it, and has a result of some form. -/
def Gains (s : Store) (m : Edit α) (Q : Store → α → Prop) : Prop :=
  ∃ a t, m.run s = .ok (a, t) ∧ s.GrowsTo t ∧ Q t a

theorem gains_pure {a : α} {Q : Store → α → Prop} (h : Q s a) : Gains s (pure a) Q :=
  ⟨a, s, rfl, .refl s, h⟩

theorem Gains.bind {m : Edit α} {k : α → Edit β} {P : Store → α → Prop} {Q : Store → β → Prop}
    (hm : Gains s m P) (hk : ∀ a t, s.GrowsTo t → P t a → Gains t (k a) Q) : Gains s (m >>= k) Q := by
  obtain ⟨a, t, ha, hst, hP⟩ := hm
  obtain ⟨b, u, hb, htu, hQ⟩ := hk a t hst hP
  exact ⟨b, u, run_bind_eq_ok.mpr ⟨a, t, ha, hb⟩, hst.trans htu, hQ⟩

/-- A first step that reads and adds nothing. -/
theorem Gains.bind_read {m : Edit α} {k : α → Edit β} {a : α} {Q : Store → β → Prop}
    (hm : m.run s = .ok (a, s)) (hk : Gains s (k a) Q) : Gains s (m >>= k) Q := by
  obtain ⟨b, t, hb, hst, hQ⟩ := hk
  exact ⟨b, t, run_bind_eq_ok.mpr ⟨a, s, hm, hb⟩, hst, hQ⟩

theorem Gains.imp {m : Edit α} {P Q : Store → α → Prop} (h : Gains s m P)
    (hPQ : ∀ t a, s.GrowsTo t → P t a → Q t a) : Gains s m Q := by
  obtain ⟨a, t, ha, hst, hP⟩ := h
  exact ⟨a, t, ha, hst, hPQ t a hst hP⟩

/-- What each element gives lasts while the others are gone through. -/
theorem gains_mapM {f : α → Edit β} {Q : Store → α → β → Prop} {as : List α}
    (hlasts : ∀ a, Lasts fun t b => Q t a b)
    (h : ∀ a ∈ as, ∀ t, s.GrowsTo t → Gains t (f a) fun u b => Q u a b) :
    Gains s (as.mapM f) fun t bs => List.Forall₂ (Q t) as bs := by
  induction as generalizing s with
  | nil => exact gains_pure .nil
  | cons a as ih =>
    rw [List.mapM_cons]
    refine (h a List.mem_cons_self s (.refl s)).bind fun b t hst hb => ?_
    have hrest := ih fun a' ha' u htu => h a' (List.mem_cons_of_mem a ha') u (hst.trans htu)
    refine hrest.bind fun bs u htu hbs => gains_pure ?_
    exact .cons (hlasts a htu.extended hb) hbs

theorem gains_mapM_all {f : α → Edit β} {Q : Store → β → Prop} {as : List α} (hlasts : Lasts Q)
    (h : ∀ a ∈ as, ∀ t, s.GrowsTo t → Gains t (f a) Q) :
    Gains s (as.mapM f) fun t bs => ∀ b ∈ bs, Q t b := by
  refine (gains_mapM (fun _ => hlasts) h).imp fun t bs _ hbs b hb => ?_
  obtain ⟨_, -, hQ⟩ := exists_left_of_forall₂ hbs hb
  exact hQ

theorem gains_allocRef {o : Object} {Q : Store → Cell → Prop} (ho : s.Typed → o.Typed s)
    (hQ : ∀ (t : Store) (id : Id), s.GrowsTo t → t.objects[id]? = some o → Q t (.ref id)) :
    Gains s (allocRef o) Q := by
  have hgrown := Store.growsTo_push ho
  exact ⟨.ref s.objects.size, ⟨s.objects.push o⟩, rfl, hgrown, hQ _ _ hgrown Array.getElem?_push_size⟩

theorem gains_allocSeq {frozen : Bool} {items : List Cell} {P : Store → Cell → Prop}
    (hlasts : Lasts P) (h : ∀ item ∈ items, P s item) :
    Gains s (allocRef (.seq frozen items)) (Cell.IsSeqOf P) :=
  gains_allocRef (fun _ => trivial) fun _ id hst hid =>
    ⟨id, frozen, items, rfl, hid, fun item hitem => hlasts hst.extended (h item hitem)⟩

end Live

end EntitySchema
