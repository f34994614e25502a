import EntitySchema.Proofs.FieldLaws
import EntitySchema.Proofs.FirstDeclarations
import EntitySchema.Proofs.InsertionOrder
import EntitySchema.Proofs.Relation.Dangling

/-!
# Defaults and insertion

A create payload may omit a field with a default. The insertion checks do not ask for defaults, though:
whether a relation makes its model wait, or is reported because it leads to its own model, follows from
the members of its declaration that say what kind of relation it is. So an optional field blocks
insertion where a required relation with a key of its own has a default, and nowhere else.
-/

set_option autoImplicit false

namespace EntitySchema

structure FieldNode.IsRequiredOwner (node : FieldNode) : Prop where
  kind : node.kind = "object"
  required : node.isRequired = some true
  notNullable : node.isNullable ≠ some true
  notList : node.isList ≠ some true
  owner : ∃ names ∈ node.relationFrom, names ≠ []

instance (node : FieldNode) : Decidable node.IsRequiredOwner :=
  decidable_of_iff (node.kind = "object" ∧ node.isRequired = some true ∧ node.isNullable ≠ some true ∧
      node.isList ≠ some true ∧ ∃ names ∈ node.relationFrom, names ≠ [])
    ⟨fun h => ⟨h.1, h.2.1, h.2.2.1, h.2.2.2.1, h.2.2.2.2⟩,
      fun h => ⟨h.kind, h.required, h.notNullable, h.notList, h.owner⟩⟩

def Schema.waitingFields (s : Schema) (m : Model) : List Field :=
  m.fields.items.filter fun f =>
    f.blocksInsertion && f.typeName != m.name && (s.model? f.typeName).isSome

/-- Whether a field of a model blocks insertion can be seen from its declaration, and a field that does
is optional just if it has a default. -/
structure Compiled.BlocksAsDeclared (c : Compiled) (m : Model) (f : Field) (node : FieldNode) :
    Prop where
  reported : c.report.Blames "REQUIRED_SELF_RELATION" m.name f.name ↔
    node.IsRequiredOwner ∧ f.typeName = m.name
  waiting : f ∈ c.schema.waitingFields m ↔
    node.IsRequiredOwner ∧ f.typeName ≠ m.name ∧ f.typeName ∈ c.schema.modelNames
  optional : node.IsRequiredOwner → (f.isOptional = true ↔ f.hasDefaultValue = true)

namespace Field

theorem blocksInsertion_iff_of_declaredBy {f : Field} {model : String} {node : FieldNode}
    (h : f.DeclaredBy model node) : f.blocksInsertion = true ↔ node.IsRequiredOwner := by
  obtain ⟨frozen, keyFields, rfl⟩ := h
  rw [value_ofNode]
  have hkind : FieldKind.ofDeclared node.kind = .object ↔ node.kind = "object" :=
    FieldKind.ofDeclared_eq_iff (by decide) _
  have hflags : ∀ kept, (ofParts frozen model keyFields node kept).blocksInsertion = true ↔
      node.isRequired.getD false = true ∧ node.isNullable.getD (!node.isRequired.getD false) = false ∧
        node.isList.getD false = false ∧ FieldKind.ofDeclared node.kind = .object ∧
        ∃ names ∈ node.relationFrom, names ≠ [] := by
    intro kept
    simp only [blocksInsertion, ownsForeignKey, isRelation, fromNames, ofParts, Bool.and_eq_true,
      Bool.not_eq_true', beq_iff_eq, and_assoc]
    cases node.relationFrom <;> simp
  rw [hflags, hkind, not_set_iff]
  constructor
  · rintro ⟨hrequired, hnullable, hlist, hobject, howner⟩
    rw [hrequired] at hnullable
    have hset : node.isRequired = some true := by simpa [Option.getD_eq_iff] using hrequired
    exact ⟨hobject, hset, (not_set_iff _).mp hnullable, hlist, howner⟩
  · intro h
    have hrequired : node.isRequired.getD false = true := by rw [h.required]; rfl
    rw [hrequired]
    exact ⟨rfl, (not_set_iff _).mpr h.notNullable, h.notList, h.kind, h.owner⟩

/-- A field that blocks insertion is neither nullable nor a list, and it owns its key. -/
theorem Lawful.isOptional_eq_of_blocksInsertion {f : Field} (h : f.Lawful)
    (hblocks : f.blocksInsertion = true) : f.isOptional = f.hasDefaultValue := by
  have himplicit := f.isImplicitRelation_eq
  simp only [blocksInsertion, Bool.and_eq_true, Bool.not_eq_true'] at hblocks
  obtain ⟨⟨⟨-, hnullable⟩, hlist⟩, howner⟩ := hblocks
  rw [howner, Bool.not_true, Bool.and_false] at himplicit
  rw [h.optional, hnullable, hlist, himplicit, Bool.false_or, Bool.or_false, Bool.or_false]

end Field

namespace Schema

variable {s : Schema} {m : Model} {f : Field}

theorem mem_waitingFields : f ∈ s.waitingFields m ↔ f ∈ m.fields.items ∧
    f.blocksInsertion = true ∧ f.typeName ≠ m.name ∧ (s.model? f.typeName).isSome = true := by
  simp only [waitingFields, List.mem_filter, Bool.and_eq_true, bne_iff_ne, and_assoc]

/-- What a model waits for in the search for cycles are the targets of these fields. -/
theorem successors_eq (h : s.WellFormed) (hm : m ∈ s.models.items) :
    s.successors m.name = ((s.waitingFields m).map (·.typeName)).eraseDups := by
  have hone : s.models.items.filter (·.name == m.name) = [m] := by
    have hnodup := (models_nodup h).filter (·.name == m.name)
    rw [← List.perm_singleton, List.perm_ext_iff_of_nodup hnodup (List.nodup_singleton m)]
    intro x
    rw [List.mem_filter, beq_iff_eq, List.mem_singleton]
    constructor
    · exact fun hx => model_eq_of_name_eq h hx.1 hm hx.2
    · rintro rfl
      exact ⟨hm, rfl⟩
  rw [successors, hone, List.flatMap_singleton, distinct_eq_eraseDups]
  rfl

theorem blames_requiredSelfRelation_iff (h : s.WellFormed) (hm : m ∈ s.models.items)
    (hf : f ∈ m.fields.items) :
    s.validate.Blames "REQUIRED_SELF_RELATION" m.name f.name ↔
      f.isSelfRelation = true ∧ f.blocksInsertion = true := by
  constructor
  · rintro ⟨i, hi, hcode, hcontext⟩
    obtain ⟨x, hx, rfl⟩ := mem_issues_validate.mp hi
    obtain ⟨model, field, rfl⟩ := Finding.code_eq_requiredSelfRelation.mp hcode
    obtain ⟨rfl, rfl⟩ : model = m.name ∧ field = f.name := by
      simpa [Finding.issue, Finding.context, Finding.onField] using hcontext
    obtain ⟨m', hm', f', hf', hself, hblocks, hmodel, hfield⟩ :=
      requiredSelfRelation_mem_findings.mp hx
    cases model_eq_of_name_eq h hm' hm hmodel
    cases List.inj_on_of_nodup_map (h.models m hm).fieldNames_nodup hf' hf hfield
    exact ⟨hself, hblocks⟩
  · rintro ⟨hself, hblocks⟩
    have hfound : .requiredSelfRelation m.name f.name ∈ s.findings :=
      requiredSelfRelation_mem_findings.mpr ⟨m, hm, f, hf, hself, hblocks, rfl, rfl⟩
    exact ⟨_, mem_issues_validate.mpr ⟨_, hfound, rfl⟩, rfl, rfl⟩

end Schema

namespace Compiled

theorem blocksAsDeclared {c : Compiled} {m : Model} {f : Field} {node : FieldNode}
    (hs : c.schema.WellFormed) (hr : c.report = c.schema.validate) (hm : m ∈ c.schema.models.items)
    (hf : f ∈ m.fields.items) (hlawful : f.Lawful) (hdeclared : f.DeclaredBy m.name node) :
    c.BlocksAsDeclared m f node := by
  have hblocks := Field.blocksInsertion_iff_of_declaredBy hdeclared
  constructor
  case reported =>
    rw [hr, Schema.blames_requiredSelfRelation_iff hs hm hf,
      Model.isSelfRelation_iff (hs.models m hm) hf, ← hblocks]
    constructor
    · rintro ⟨⟨-, htype⟩, hb⟩
      exact ⟨hb, htype⟩
    · rintro ⟨hb, htype⟩
      exact ⟨⟨Field.isRelation_of_blocksInsertion hb, htype⟩, hb⟩
  case waiting =>
    rw [Schema.mem_waitingFields, Schema.model?_isSome_iff hs, hblocks]
    exact and_iff_right hf
  case optional =>
    intro hnode
    rw [hlawful.isOptional_eq_of_blocksInsertion (hblocks.mpr hnode)]

/-- In a compiled schema the insertion checks see of a field what its declaration says apart from
defaults: a relation that is required, single and has a key of its own is reported if it leads to its own
model, and makes its model wait if it leads to another one. It is optional just if it has a default. -/
theorem insertion_checks_ignore_defaults {document : Value} {options : Option Options.Settings}
    {overrides : Options.Settings} {c : Compiled}
    (h : (compileWith document options overrides).result = .ok c) :
    ∃ dataModel, document.dataModel? = some dataModel ∧ ∀ m ∈ c.schema.models.items,
      c.schema.successors m.name = ((c.schema.waitingFields m).map (·.typeName)).eraseDups ∧
      ∃ node, dataModel.modelNodes.find? (·.name == m.name) = some node ∧
        ∀ f ∈ m.fields.items, ∃ fieldNode,
          node.fieldNodes.find? (·.name == f.name) = some fieldNode ∧
          c.BlocksAsDeclared m f fieldNode := by
  have hs := Compiled.wellFormed h
  obtain ⟨frozen, dataModel, hd, hread, hr⟩ := compileWith_eq_ok h
  have hfirst := Schema.declaredFirst_readSchema frozen dataModel
  rw [← hread] at hfirst
  refine ⟨dataModel, hd, fun m hm => ⟨Schema.successors_eq hs hm, ?_⟩⟩
  obtain ⟨node, hnode, -, hfields⟩ := hfirst.fields m hm
  refine ⟨node, hnode, fun f hf => ?_⟩
  obtain ⟨fieldNode, hfield, hdeclared⟩ := hfields f hf
  have hlawful : f.Lawful := by
    rw [hread] at hm
    exact (Schema.lawful_readSchema hm).held f (by simp [Model.heldFields, hf])
  exact ⟨fieldNode, hfield, blocksAsDeclared hs hr hm hf hlawful hdeclared⟩

end Compiled

/-! Folders inside of folders, and authors and books that need each other. The folder of a folder and
the book of an author have defaults. -/

def defaulted : Value :=
  Declaration.document [
    Declaration.model "Folder" [Declaration.field "id" "Int" "scalar" [("isId", .bool true)],
      Declaration.field "parentId" "Int" "scalar" [],
      Declaration.field "parent" "Folder" "object" [("isRequired", .bool true),
        ("hasDefaultValue", .bool true), ("default", .int 1),
        ("relationFromFields", .seq false [.text "parentId"]),
        ("relationToFields", .seq false [.text "id"])]] [],
    Declaration.model "Author" [Declaration.field "id" "Int" "scalar" [("isId", .bool true)],
      Declaration.field "bookId" "Int" "scalar" [],
      Declaration.field "book" "Book" "object" [("isRequired", .bool true),
        ("hasDefaultValue", .bool true), ("default", .int 1),
        ("relationFromFields", .seq false [.text "bookId"]),
        ("relationToFields", .seq false [.text "id"])]] [],
    Declaration.model "Book" [Declaration.field "id" "Int" "scalar" [("isId", .bool true)],
      Declaration.field "authorId" "Int" "scalar" [],
      Declaration.field "author" "Author" "object" [("isRequired", .bool true),
        ("relationFromFields", .seq false [.text "authorId"]),
        ("relationToFields", .seq false [.text "id"])]] []] []

/-- Both relations with a default are declared as required owners, and that is all the checks see. -/
theorem Compiled.insertion_checks_ignore_defaults_defaulted :
    ∃ c, (compileWith defaulted none []).result = .ok c ∧
      (∃ m ∈ c.schema.models.items, m.name = "Folder" ∧ ∃ f ∈ m.fields.items,
        f.isOptional = true ∧ c.report.Blames "REQUIRED_SELF_RELATION" "Folder" f.name) ∧
      ∃ m ∈ c.schema.models.items, m.name = "Author" ∧ ∃ f ∈ m.fields.items,
        f.isOptional = true ∧ f ∈ c.schema.waitingFields m ∧ "Book" ∈ c.schema.successors "Author" := by
  obtain ⟨c, hc, hs⟩ := exists_compiled (rfl : defaulted.dataModel? = some defaulted)
  obtain ⟨dataModel, hd, hblocks⟩ := Compiled.insertion_checks_ignore_defaults hc
  cases hd
  have hnames : c.schema.modelNames = ["Folder", "Author", "Book"] := by
    rw [hs]
    decide +kernel
  have hdeclared : ∀ t ∈ [("Folder", "parent", "Folder"), ("Author", "book", "Book")],
      ∃ m ∈ c.schema.models.items, m.name = t.1 ∧ ∃ f ∈ m.fields.items, f.name = t.2.1 ∧
        f.typeName = t.2.2 ∧ f.hasDefaultValue = true ∧
        ∀ node ∈ defaulted.modelNodes.find? (·.name == t.1),
        ∀ fieldNode ∈ node.fieldNodes.find? (·.name == t.2.1), fieldNode.IsRequiredOwner := by
    rw [hs]
    decide +kernel
  simp only [List.forall_mem_cons] at hdeclared
  obtain ⟨⟨m, hm, hmodel, f, hf, hfield, htype, hdefault, howner⟩,
    ⟨n, hn, hmodel', g, hg, hfield', htype', hdefault', howner'⟩, -⟩ := hdeclared
  obtain ⟨-, node, hnode, hfields⟩ := hblocks m hm
  obtain ⟨fieldNode, hfieldNode, hseen⟩ := hfields f hf
  obtain ⟨hsuccessors, node', hnode', hfields'⟩ := hblocks n hn
  obtain ⟨fieldNode', hfieldNode', hseen'⟩ := hfields' g hg
  have hparent : fieldNode.IsRequiredOwner :=
    howner node (hmodel ▸ hnode) fieldNode (hfield ▸ hfieldNode)
  have hbook : fieldNode'.IsRequiredOwner :=
    howner' node' (hmodel' ▸ hnode') fieldNode' (hfield' ▸ hfieldNode')
  have hwaits : g ∈ c.schema.waitingFields n :=
    hseen'.waiting.mpr ⟨hbook, by simp [htype', hmodel'], by simp [htype', hnames]⟩
  refine ⟨c, hc, ⟨m, hm, hmodel, f, hf, (hseen.optional hparent).mpr hdefault, ?_⟩,
    n, hn, hmodel', g, hg, (hseen'.optional hbook).mpr hdefault', hwaits, ?_⟩
  · rw [← hmodel]
    exact hseen.reported.mpr ⟨hparent, htype.trans hmodel.symm⟩
  · rw [← hmodel', hsuccessors, ← distinct_eq_eraseDups, mem_distinct]
    exact List.mem_map.mpr ⟨g, hwaits, htype'⟩

/-- It is not so that optional fields never block insertion. -/
theorem Compiled.optional_fields_may_block :
    ¬ ∀ (document : Value) (options : Option Options.Settings) (overrides : Options.Settings)
      (c : Compiled), (compileWith document options overrides).result = .ok c →
      ∀ m ∈ c.schema.models.items, ∀ f ∈ m.fields.items, f.isOptional = true →
        ¬ c.report.Blames "REQUIRED_SELF_RELATION" m.name f.name ∧
          f ∉ c.schema.waitingFields m := by
  intro hnever
  obtain ⟨c, hc, hs⟩ := exists_compiled (rfl : defaulted.dataModel? = some defaulted)
  have hblocks : ∃ m ∈ c.schema.models.items, ∃ f ∈ m.fields.items, f.isOptional = true ∧
      f.isSelfRelation = true ∧ f.blocksInsertion = true := by
    rw [hs]
    decide +kernel
  obtain ⟨m, hm, f, hf, hoptional, hself⟩ := hblocks
  refine (hnever defaulted none [] c hc m hm f hf hoptional).1 ?_
  rw [Compiled.report_eq hc]
  exact (Schema.blames_requiredSelfRelation_iff (Compiled.wellFormed hc) hm hf).mpr hself

end EntitySchema
