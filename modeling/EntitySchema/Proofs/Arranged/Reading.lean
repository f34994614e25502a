import EntitySchema.Proofs.Arranged.Preview
import EntitySchema.Proofs.Arranged.Shape
import EntitySchema.Proofs.Frozen.Record
import EntitySchema.Proofs.Inherited
import EntitySchema.Proofs.Retouched.Checks

/-!
# Reading arranged documents

The shape of a node, the names it gives and the default it keeps do not depend on the order of entries,
and neither do the words of the warnings. So an arranged document is read as the arranged schema, node
by node, and what is logged on the way is the same.
-/

set_option autoImplicit false

namespace EntitySchema

variable {α β γ δ ν : Type}

def Retouch.arranging : Retouch where
  value := Value.arranged
  flag := id
  functionName?_value := Value.functionName?_arranged
  text?_value := Value.text?_arranged

def Schema.arranged (s : Schema) : Schema := s.retouched .arranging

/-- Whether a message about a value shows no more of it than its preview. -/
def Warning.ShowsPreview (about : Value → Warning) : Prop :=
  ∀ v w : Value, v.preview = w.preview → (about v).message = (about w).message

namespace Warning

theorem ShowsPreview.of_words {about : Value → Warning} {words : String}
    (h : ∀ v, (about v).message = words ++ v.preview) : ShowsPreview about := by
  intro v w hp
  rw [h, h, hp]

theorem showsPreview_sectionNotASequence (name : String) :
    ShowsPreview (.sectionNotASequence name) := .of_words fun _ => rfl

theorem showsPreview_invalidEnum : ShowsPreview .invalidEnum := .of_words fun _ => rfl

theorem showsPreview_invalidModel : ShowsPreview .invalidModel := .of_words fun _ => rfl

theorem showsPreview_invalidField (model : String) : ShowsPreview (.invalidField model) :=
  .of_words fun _ => rfl

theorem showsPreview_malformedDefault (owner : String) : ShowsPreview (.malformedDefault owner) :=
  .of_words fun _ => rfl

end Warning

namespace Logged

/-- A result that is a view of another, with warnings of the same words. -/
structure Echoes (view : α → β) (x : Logged α) (y : Logged β) : Prop where
  value_eq : y.value = view x.value
  messages_eq : y.warnings.map (·.message) = x.warnings.map (·.message)

namespace Echoes

theorem pure {view : α → β} {a : α} {b : β} (h : b = view a) :
    Echoes view (Pure.pure a) (Pure.pure b) := ⟨h, rfl⟩

theorem warn {about : Value → Warning} (ha : Warning.ShowsPreview about) {v : Value}
    (h : v.JsonLike) : Echoes id (warn (about v)) (warn (about v.arranged)) :=
  ⟨rfl, congrArg (fun m => [m]) (ha _ _ (Value.preview_arranged h))⟩

theorem refl (x : Logged α) : Echoes id x x := ⟨rfl, rfl⟩

theorem bind {view : α → β} {view' : γ → δ} {x : Logged α} {y : Logged β} {f : α → Logged γ}
    {g : β → Logged δ} (h : Echoes view x y) (hf : Echoes view' (f x.value) (g (view x.value))) :
    Echoes view' (x >>= f) (y >>= g) where
  value_eq := by rw [value_bind, value_bind, h.value_eq, hf.value_eq]
  messages_eq := by
    rw [warnings_bind, warnings_bind, List.map_append, List.map_append, h.messages_eq, h.value_eq,
      hf.messages_eq]

end Echoes

end Logged

/-- Nodes that are read alike after they are arranged, one by one, are read alike together. -/
theorem NodeReader.echoes_readAll (r : NodeReader ν α) {onNode : ν → ν} {view : α → α}
    (hshape : ∀ v : Value, r.shape? v.arranged = (r.shape? v).map onNode)
    (hname : ∀ n, r.nameOf (onNode n) = r.nameOf n)
    (hinvalid : Warning.ShowsPreview r.invalid)
    {nodes : List Value} (hnodes : ∀ v ∈ nodes, v.JsonLike)
    (hread : ∀ v ∈ nodes, ∀ n, r.shape? v = some n → (r.read n).Echoes view (r.read (onNode n))) :
    (r.readAll nodes).Echoes (List.map view) (r.readAll (nodes.map Value.arranged)) := by
  have hfrom : ∀ seen, (r.readFrom seen nodes).Echoes (List.map view)
      (r.readFrom seen (nodes.map Value.arranged)) := by
    induction nodes with
    | nil => exact fun _ => .pure rfl
    | cons node rest ih =>
      intro seen
      rw [List.forall_mem_cons] at hnodes hread
      have hrest := ih hnodes.2 hread.2
      rw [List.map_cons, readFrom, readFrom, hshape]
      cases hnode : r.shape? node with
      | none => exact (Logged.Echoes.warn hinvalid hnodes.1).bind (hrest seen)
      | some content =>
        rw [Option.map_some]
        dsimp only
        rw [hname]
        split
        · exact (Logged.Echoes.refl _).bind (hrest seen)
        · exact (hread.1 content hnode).bind ((hrest _).bind (.pure rfl))
  exact hfrom []

/-! Defaults. -/

namespace Value

theorem inherited_jsonLike : Inherited JsonLike where
  null := trivial
  item h := jsonLikeItems_iff.mp h
  entry h := jsonLikeEntries_iff.mp h.2.2

theorem map_copy_arranged (frozen : Bool) {vs : List Value} (h : ∀ v ∈ vs, v.JsonLike) :
    (vs.map arranged).map (copy frozen) = (vs.map (copy frozen)).map arranged := by
  rw [List.map_map, List.map_map]
  exact List.map_congr_left fun v hv => copy_arranged frozen (h v hv)

theorem echoes_keptDefault {raw : Value} (h : raw.JsonLike) (frozen : Bool) (owner : String) :
    (raw.keptDefault frozen owner).Echoes arranged (raw.arranged.keptDefault frozen owner) := by
  cases raw with
  | map views entries =>
    have hcall := callNode?_arranged (.map views entries)
    have hwarn := Logged.Echoes.warn (Warning.showsPreview_malformedDefault owner) h
    rw [arranged_map] at hcall hwarn ⊢
    unfold keptDefault
    dsimp only
    rw [hcall]
    cases hnode : (Value.map views entries).callNode? with
    | none => exact hwarn.bind (.pure rfl)
    | some node =>
      refine .pure ?_
      rw [arranged, arrangedItems_eq_map, CallNode.arranged,
        map_copy_arranged frozen (inherited_jsonLike.args h hnode)]
  | seq => exact .pure (copy_arranged frozen h)
  | call => exact h.elim
  | _ => exact ⟨rfl, rfl⟩

end Value

/-! Fields, enums and models. -/

namespace Field

/-- The flags of a field follow from what its default says about itself. -/
theorem ofParts_arranged (frozen : Bool) (model : String) (keyFields : List String)
    (node : FieldNode) (kept : Value) :
    ofParts frozen model keyFields node.arranged kept.arranged =
      (ofParts frozen model keyFields node kept).retouched .arranging := by
  have hdatabase : kept.arranged.isDatabaseDefault = kept.isDatabaseDefault := by
    rw [Value.isDatabaseDefault, Value.functionName?_arranged, ← Value.isDatabaseDefault]
  have hnames : ∀ names : Option (List String),
      (names.map (Seq.mk frozen)).map (Seq.reflagged id) = names.map (Seq.mk frozen) := by
    intro names
    cases names <;> rfl
  simp only [ofParts, retouched, Retouch.arranging, FieldNode.arranged, Value.isNull_arranged,
    hdatabase, hnames, id_eq]

theorem echoes_ofNode {node : FieldNode} (h : node.defaultValue.JsonLike) (frozen : Bool)
    (model : String) (keyFields : List String) :
    (ofNode frozen model keyFields node).Echoes (retouched .arranging)
      (ofNode frozen model keyFields node.arranged) := by
  have hkept : (node.defaultValue.keptDefault frozen (model ++ "." ++ node.name) >>= fun kept =>
      pure (ofParts frozen model keyFields node kept)).Echoes (retouched .arranging)
        (node.defaultValue.arranged.keptDefault frozen (model ++ "." ++ node.name) >>= fun kept =>
          pure (ofParts frozen model keyFields node.arranged kept)) :=
    (Value.echoes_keptDefault h frozen _).bind (.pure (ofParts_arranged frozen model keyFields node _))
  have hkind : node.arranged.kind = node.kind := rfl
  unfold ofNode
  dsimp only
  rw [hkind]
  cases FieldKind.ofDeclared node.kind == .unsupported with
  | true => exact (Logged.Echoes.refl (Logged.warn (.unsupportedKind _ node.kind))).bind hkept
  | false => exact hkept

theorem echoes_readAll {nodes : List Value} (h : ∀ v ∈ nodes, v.JsonLike) (frozen : Bool)
    (model : String) (keyFields : List String) :
    (readAll frozen model keyFields nodes).Echoes (List.map (retouched .arranging))
      (readAll frozen model keyFields (nodes.map Value.arranged)) := by
  refine (reader frozen model keyFields).echoes_readAll Value.fieldNode?_arranged (fun _ => rfl)
    (Warning.showsPreview_invalidField model) h fun v hv node hnode => ?_
  exact echoes_ofNode (Value.inherited_jsonLike.defaultValue (h v hv) hnode) frozen model keyFields

end Field

namespace EnumType

theorem echoes_readAll {nodes : List Value} (h : ∀ v ∈ nodes, v.JsonLike) (frozen : Bool) :
    (readAll frozen nodes).Echoes (List.map (retouched .arranging))
      (readAll frozen (nodes.map Value.arranged)) := by
  have hshape : ∀ v : Value, v.arranged.enumNode? = v.enumNode?.map id := by
    intro v
    rw [Value.enumNode?_arranged, Option.map_id, id_eq]
  refine (reader frozen).echoes_readAll hshape (fun _ => rfl)
    Warning.showsPreview_invalidEnum h fun _ _ _ _ => ⟨rfl, rfl⟩

end EnumType

namespace Model

theorem ofParts_arranged (frozen : Bool) (node : ModelNode) (key : Option PrimaryKey)
    (fields : List Field) :
    ofParts frozen node.arranged key (fields.map (Field.retouched .arranging)) =
      (ofParts frozen node key fields).retouched .arranging := by
  have hkey : key.map (PrimaryKey.retouched .arranging) = key := by cases key <;> rfl
  simp only [ofParts, indexOf_map_retouched, retouched, Seq.retouchedBy, hkey, List.map_map]
  rfl

theorem echoes_ofNode {node : ModelNode} (h : ∀ v ∈ node.fields, v.JsonLike) (frozen : Bool) :
    (ofNode frozen node).Echoes (retouched .arranging) (ofNode frozen node.arranged) :=
  (Field.echoes_readAll h frozen node.name _).bind (.pure (ofParts_arranged frozen node _ _))

theorem echoes_readAll {nodes : List Value} (h : ∀ v ∈ nodes, v.JsonLike) (frozen : Bool) :
    (readAll frozen nodes).Echoes (List.map (retouched .arranging))
      (readAll frozen (nodes.map Value.arranged)) := by
  refine (reader frozen).echoes_readAll Value.modelNode?_arranged (fun _ => rfl)
    Warning.showsPreview_invalidModel h fun v hv node hnode => ?_
  exact echoes_ofNode (Value.inherited_jsonLike.fields (h v hv) hnode) frozen

end Model

/-! Schemas. -/

theorem echoes_sectionNodes {dataModel : Value} (h : dataModel.JsonLike) (name : String) :
    (sectionNodes dataModel name).Echoes (List.map Value.arranged)
      (sectionNodes dataModel.arranged name) := by
  have hsection := Value.inherited_jsonLike.get h name
  unfold sectionNodes
  rw [Value.get_arranged]
  generalize dataModel.get name = nodes at hsection
  have hwarn := Logged.Echoes.warn (Warning.showsPreview_sectionNotASequence name) hsection
  cases nodes with
  | null => exact .pure rfl
  | seq frozen items => exact .pure (Value.arrangedItems_eq_map items)
  | _ => exact hwarn.bind (.pure rfl)

/-- A field that was read is its own copy, and so is the arranged field. -/
theorem Model.retouched_copy_of_mem {frozen : Bool} {nodes : List Value}
    (h : ∀ v ∈ nodes, v.JsonLike) {f : Field}
    (hf : f ∈ ReverseIndex.distinctEdges (readAll frozen nodes).value) :
    (f.copy frozen).retouched .arranging = (f.retouched .arranging).copy frozen := by
  obtain ⟨m, hm, hf⟩ := ReverseIndex.exists_mem_of_mem_distinctEdges hf
  obtain ⟨v, hv, node, hnode, rfl⟩ := NodeReader.exists_node_of_mem_readAll _ _ hm
  obtain ⟨w, hw, fieldNode, hfield, rfl⟩ := NodeReader.exists_node_of_mem_readAll _ _ hf
  have hdefault := Value.inherited_jsonLike.defaultValue
    (Value.inherited_jsonLike.fields (h v hv) hnode w hw) hfield
  change ((Field.ofNode frozen _ _ fieldNode).value.copy frozen).retouched .arranging =
    ((Field.ofNode frozen _ _ fieldNode).value.retouched .arranging).copy frozen
  rw [Field.copy_ofNode, ← (Field.echoes_ofNode hdefault frozen _ _).value_eq, Field.copy_ofNode]

/-- An arranged data model is read with messages of the same words as the arranged schema. -/
theorem echoes_readSchema {dataModel : Value} (h : dataModel.JsonLike) (frozen : Bool) :
    (readSchema frozen dataModel).Echoes Schema.arranged (readSchema frozen dataModel.arranged) := by
  have hnodes := Value.inherited_jsonLike.sectionNodes h
  refine (echoes_sectionNodes h "enums").bind ?_
  refine (EnumType.echoes_readAll (hnodes "enums") frozen).bind ?_
  refine (echoes_sectionNodes h "models").bind ?_
  refine (Model.echoes_readAll (hnodes "models") frozen).bind (.pure ?_)
  exact (retouched_assemble .arranging _ fun f hf =>
    Model.retouched_copy_of_mem (hnodes "models") hf).symm

end EntitySchema
