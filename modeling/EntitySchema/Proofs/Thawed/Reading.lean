import EntitySchema.Proofs.Thawed.Record
import EntitySchema.Proofs.WellFormed

/-!
# Reading frozen or open

A document is read the same way whether the records are frozen or not: node by node the same warnings
arise, and what is read differs in nothing but what is frozen. Nothing that is decided about a field
looks at its containers, only at what they hold.
-/

set_option autoImplicit false

namespace EntitySchema

variable {α β γ δ ν : Type}

namespace Logged

structure Alike (view : α → β) (x y : Logged α) : Prop where
  value_eq : view x.value = view y.value
  warnings_eq : x.warnings = y.warnings

namespace Alike

theorem pure {view : α → β} {a b : α} (h : view a = view b) :
    Alike view (Pure.pure a) (Pure.pure b) := ⟨h, rfl⟩

theorem refl (view : α → β) (x : Logged α) : x.Alike view x := ⟨rfl, rfl⟩

theorem bind {view : α → β} {view' : γ → δ} {x y : Logged α} {f g : α → Logged γ}
    (h : x.Alike view y) (hf : ∀ a b, view a = view b → (f a).Alike view' (g b)) :
    (x >>= f).Alike view' (y >>= g) where
  value_eq := (hf _ _ h.value_eq).value_eq
  warnings_eq := by
    rw [warnings_bind, warnings_bind, h.warnings_eq, (hf _ _ h.value_eq).warnings_eq]

theorem bind_left {view : γ → δ} (x : Logged α) {f g : α → Logged γ}
    (hf : ∀ a, (f a).Alike view (g a)) : (x >>= f).Alike view (x >>= g) :=
  (refl id x).bind fun a b h => by
    cases h
    exact hf a

end Alike

end Logged

/-- Nodes that are read alike one by one are read alike together. -/
theorem NodeReader.alike_readAll (r : NodeReader ν α) {read' : ν → Logged α} {view : α → β}
    (hread : ∀ n, (r.read n).Alike view (read' n)) (nodes : List Value) :
    (r.readAll nodes).Alike (List.map view) ({ r with read := read' }.readAll nodes) := by
  have hfrom : ∀ seen, (r.readFrom seen nodes).Alike (List.map view)
      ({ r with read := read' }.readFrom seen nodes) := by
    induction nodes with
    | nil => exact fun _ => .refl _ _
    | cons node rest ih =>
      intro seen
      rw [readFrom, readFrom]
      dsimp only
      cases r.shape? node with
      | none => exact .bind_left _ fun _ => ih seen
      | some content =>
        dsimp only
        split
        · exact .bind_left _ fun _ => ih seen
        · refine (hread content).bind fun a b hab => (ih _).bind fun as bs hrest => .pure ?_
          rw [List.map_cons, List.map_cons, hab, hrest]
  exact hfrom []

/-! Defaults. -/

namespace Value

theorem alike_keptDefault (frozen frozen' : Bool) (owner : String) (raw : Value) :
    (raw.keptDefault frozen owner).Alike thawed (raw.keptDefault frozen' owner) := by
  cases raw with
  | map views entries =>
    unfold keptDefault
    dsimp only
    split
    · refine .pure ?_
      rw [thawed, thawed, thawedItems_map_copy, thawedItems_map_copy]
    · exact .refl _ _
  | seq => exact .pure (thawed_copy_eq frozen frozen' _)
  | _ => exact .refl _ _

end Value

/-! Fields, models and enums. -/

namespace Field

/-- The flags of a field follow from what its default holds. -/
theorem thawed_ofParts {kept kept' : Value} (h : kept.thawed = kept'.thawed)
    (frozen frozen' : Bool) (model : String) (keyFields : List String) (node : FieldNode) :
    (ofParts frozen model keyFields node kept).thawed =
      (ofParts frozen' model keyFields node kept').thawed := by
  have hnull : kept.isNull = kept'.isNull := by
    rw [← Value.isNull_thawed, h, Value.isNull_thawed]
  have hdatabase : kept.isDatabaseDefault = kept'.isDatabaseDefault := by
    rw [← Value.isDatabaseDefault_thawed, h, Value.isDatabaseDefault_thawed]
  have hnames : ∀ names : Option (List String), (names.map (Seq.mk frozen)).map
      (·.withFrozen false) = (names.map (Seq.mk frozen')).map (·.withFrozen false) := by
    intro names
    cases names <;> rfl
  simp only [ofParts, thawed, h, hnull, hdatabase, hnames]

theorem alike_ofNode (frozen frozen' : Bool) (model : String) (keyFields : List String)
    (node : FieldNode) :
    (ofNode frozen model keyFields node).Alike thawed (ofNode frozen' model keyFields node) := by
  have hkept := node.defaultValue.alike_keptDefault frozen frozen' (model ++ "." ++ node.name)
  unfold ofNode
  dsimp only
  split
  · exact .bind_left _ fun _ => hkept.bind fun _ _ h => .pure (thawed_ofParts h _ _ _ _ _)
  · exact hkept.bind fun _ _ h => .pure (thawed_ofParts h _ _ _ _ _)

theorem alike_readAll (frozen frozen' : Bool) (model : String) (keyFields : List String)
    (nodes : List Value) : (readAll frozen model keyFields nodes).Alike (List.map thawed)
      (readAll frozen' model keyFields nodes) :=
  (reader frozen model keyFields).alike_readAll (alike_ofNode frozen frozen' model keyFields) nodes

end Field

namespace EnumType

theorem alike_ofNode (frozen frozen' : Bool) (node : EnumNode) :
    (ofNode frozen node).Alike thawed (ofNode frozen' node) :=
  .bind_left _ fun _ => .pure rfl

theorem alike_readAll (frozen frozen' : Bool) (nodes : List Value) :
    (readAll frozen nodes).Alike (List.map thawed) (readAll frozen' nodes) :=
  (reader frozen).alike_readAll (alike_ofNode frozen frozen') nodes

end EnumType

namespace Model

theorem alike_ofNode (frozen frozen' : Bool) (node : ModelNode) :
    (ofNode frozen node).Alike thawed (ofNode frozen' node) := by
  have hkey : (node.primaryKey.bind (PrimaryKey.ofNode? frozen)).map PrimaryKey.thawed =
      (node.primaryKey.bind (PrimaryKey.ofNode? frozen')).map PrimaryKey.thawed := by
    cases node.primaryKey with
    | none => rfl
    | some key =>
      rw [Option.bind_some, Option.bind_some, PrimaryKey.ofNode?, PrimaryKey.ofNode?]
      split <;> rfl
  have hnames : ((node.primaryKey.bind (PrimaryKey.ofNode? frozen)).map (·.fields.items)).getD [] =
      ((node.primaryKey.bind (PrimaryKey.ofNode? frozen')).map (·.fields.items)).getD [] := by
    have hitems := congrArg (fun key => (key.map (·.fields.items)).getD []) hkey
    simpa [Function.comp_def, PrimaryKey.thawed] using hitems
  unfold ofNode
  dsimp only
  rw [hnames]
  refine (Field.alike_readAll frozen frozen' node.name _ node.fields).bind fun fields fields' h => ?_
  refine .pure ?_
  simp only [ofParts, thawed, hkey, Seq.thawedBy, h, List.map_map, Function.comp_def,
    ← indexOf_map_thawed]
  rfl

theorem alike_readAll (frozen frozen' : Bool) (nodes : List Value) :
    (readAll frozen nodes).Alike (List.map thawed) (readAll frozen' nodes) :=
  (reader frozen).alike_readAll (alike_ofNode frozen frozen') nodes

end Model

/-- Frozen or open, a data model is read with the same warnings as schemas that hold the same. -/
theorem alike_readSchema (frozen frozen' : Bool) (dataModel : Value) :
    (readSchema frozen dataModel).Alike Schema.thawed (readSchema frozen' dataModel) := by
  unfold readSchema
  refine .bind_left _ fun enumNodes => ?_
  refine (EnumType.alike_readAll frozen frozen' enumNodes).bind fun enums enums' henums => ?_
  refine .bind_left _ fun modelNodes => ?_
  refine (Model.alike_readAll frozen frozen' modelNodes).bind fun models models' hmodels => ?_
  refine .pure ?_
  rw [thawed_assemble, thawed_assemble, henums, hmodels]

end EntitySchema
