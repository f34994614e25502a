import EntitySchema.Proofs.Declarations
import EntitySchema.Proofs.FirstDeclarations
import EntitySchema.Proofs.Inherited
import Mathlib.Algebra.GroupWithZero.Nat

/-!
# The number of warnings

What is wrong with a data model is counted on the data alone: sections that are no sequences, nodes of
the wrong shape, names that repeat an earlier one, and what is flagged in the nodes that are kept. Each
of these costs one warning and nothing else costs any; in particular what stands in a node that is
dropped costs nothing.
-/

set_option autoImplicit false

namespace EntitySchema

variable {α ν : Type}

def repetitions (names : List String) : Nat := names.length - names.eraseDups.length

/-- How many nodes are dropped: those of the wrong shape, and among the others those whose name repeats
an earlier one. -/
def droppedNodes (shape? : Value → Option ν) (nameOf : ν → String) (nodes : List Value) : Nat :=
  nodes.countP (fun node => (shape? node).isNone) + repetitions ((nodes.filterMap shape?).map nameOf)

def keptNodes (shape? : Value → Option ν) (nameOf : ν → String) (nodes : List Value) : List ν :=
  firstByKey nameOf [] (nodes.filterMap shape?)

/-- Whether a default is dropped: a mapping that describes no default function, or a value of a kind
that no field has for a default. -/
def Value.isRefusedDefault : Value → Bool
  | .map views entries => (callNode? (.map views entries)).isNone
  | .bytes _ => true
  | .call .. => true
  | _ => false

def FieldNode.flaws (node : FieldNode) : Nat :=
  (if node.kind ∈ ["scalar", "enum", "object"] then 0 else 1) +
    if node.defaultValue.isRefusedDefault then 1 else 0

def EnumNode.flaws (node : EnumNode) : Nat := repetitions node.values

def ModelNode.flaws (node : ModelNode) : Nat :=
  droppedNodes Value.fieldNode? FieldNode.name node.fields +
    ((keptNodes Value.fieldNode? FieldNode.name node.fields).map FieldNode.flaws).sum

namespace Value

def isSection : Value → Bool
  | .null => true
  | .seq .. => true
  | _ => false

def sectionFlaws (shape? : Value → Option ν) (nameOf : ν → String) (flaws : ν → Nat)
    (held : Value) : Nat :=
  (if held.isSection then 0 else 1) + droppedNodes shape? nameOf (held.items?.getD []) +
    ((keptNodes shape? nameOf (held.items?.getD [])).map flaws).sum

def flaws (dataModel : Value) : Nat :=
  sectionFlaws enumNode? EnumNode.name EnumNode.flaws (dataModel.get "enums") +
    sectionFlaws modelNode? ModelNode.name ModelNode.flaws (dataModel.get "models")

end Value

/-! Names and nodes. -/

theorem length_firstByKey (key : α → String) (xs : List α) :
    (firstByKey key [] xs).length = (xs.map key).eraseDups.length := by
  rw [← keys_firstByKey, List.length_map]

theorem repetitions_add_length_firstByKey (key : α → String) (xs : List α) :
    repetitions (xs.map key) + (firstByKey key [] xs).length = xs.length := by
  have hle : (firstByKey key [] xs).length ≤ xs.length := (firstByKey_sublist key [] xs).length_le
  rw [repetitions, length_firstByKey, List.length_map]
  rw [length_firstByKey] at hle
  omega

theorem countP_isNone_add_length_filterMap (f : Value → Option ν) (nodes : List Value) :
    nodes.countP (fun node => (f node).isNone) + (nodes.filterMap f).length = nodes.length := by
  induction nodes with
  | nil => rfl
  | cons node rest ih =>
    cases hnode : f node with
    | none => simp [hnode, ← ih]; omega
    | some content => simp [hnode, ← ih]; omega

/-- Every node is dropped or kept. -/
theorem droppedNodes_add_length_keptNodes (shape? : Value → Option ν) (nameOf : ν → String)
    (nodes : List Value) :
    droppedNodes shape? nameOf nodes + (keptNodes shape? nameOf nodes).length = nodes.length := by
  have hnames := repetitions_add_length_firstByKey nameOf (nodes.filterMap shape?)
  have hshapes := countP_isNone_add_length_filterMap shape? nodes
  unfold droppedNodes keptNodes
  omega

namespace NodeReader

/-- A node costs one warning, or it is kept and costs what reading it costs. -/
theorem length_warnings_readFrom (r : NodeReader ν α) (seen : List String) (nodes : List Value) :
    (r.readFrom seen nodes).warnings.length + (r.keptFrom seen nodes).length =
      nodes.length + ((r.keptFrom seen nodes).map fun n => (r.read n).warnings.length).sum := by
  induction nodes generalizing seen with
  | nil => rfl
  | cons node rest ih =>
    rw [readFrom, keptFrom]
    cases hnode : r.shape? node with
    | none =>
      have hrest := ih seen
      simp only [Logged.warnings_bind, Logged.warnings_warn, List.length_append, List.length_cons,
        List.length_nil]
      omega
    | some content =>
      by_cases hseen : seen.contains (r.nameOf content) = true
      · have hrest := ih seen
        simp only [hseen, if_true, Logged.warnings_bind, Logged.warnings_warn, List.length_append,
          List.length_cons, List.length_nil]
        omega
      · have hrest := ih (r.nameOf content :: seen)
        simp only [hseen, if_false, Bool.false_eq_true, Logged.warnings_bind, Logged.warnings_pure,
          List.length_append, List.length_cons, List.length_nil, List.map_cons, List.sum_cons]
        omega

/-- Reading a section costs a warning for each node that is dropped, and what the others cost. -/
theorem length_warnings_readAll (r : NodeReader ν α) (nodes : List Value) :
    (r.readAll nodes).warnings.length = droppedNodes r.shape? r.nameOf nodes +
      ((keptNodes r.shape? r.nameOf nodes).map fun n => (r.read n).warnings.length).sum := by
  have hcost := length_warnings_readFrom r [] nodes
  have hall := droppedNodes_add_length_keptNodes r.shape? r.nameOf nodes
  rw [keptFrom_eq_firstByKey] at hcost
  rw [readAll]
  unfold keptNodes at hall ⊢
  omega

end NodeReader

/-! Fields, enums and models. -/

theorem Value.length_warnings_keptDefault (frozen : Bool) (owner : String) (raw : Value) :
    (raw.keptDefault frozen owner).warnings.length = if raw.isRefusedDefault then 1 else 0 := by
  cases raw with
  | map views entries =>
    unfold keptDefault isRefusedDefault
    cases hcall : callNode? (.map views entries) with
    | none => simp [hcall]
    | some node => simp [hcall]
  | _ => rfl

theorem FieldKind.ofDeclared_eq_unsupported_iff (word : String) :
    ofDeclared word = unsupported ↔ word ∉ ["scalar", "enum", "object"] := by
  have hscalar : ofDeclared word = scalar ↔ word = "scalar" := ofDeclared_eq_iff (by decide) word
  have henum : ofDeclared word = enum ↔ word = "enum" := ofDeclared_eq_iff (by decide) word
  have hobject : ofDeclared word = object ↔ word = "object" := ofDeclared_eq_iff (by decide) word
  simp only [List.mem_cons, List.not_mem_nil, or_false, ← hscalar, ← henum, ← hobject]
  cases ofDeclared word with
  | _ => simp

theorem Field.length_warnings_ofNode (frozen : Bool) (model : String) (keyFields : List String)
    (node : FieldNode) :
    (ofNode frozen model keyFields node).warnings.length = node.flaws := by
  have hkind := FieldKind.ofDeclared_eq_unsupported_iff node.kind
  have hdefault := node.defaultValue.length_warnings_keptDefault frozen (model ++ "." ++ node.name)
  unfold ofNode FieldNode.flaws
  by_cases hword : node.kind ∈ ["scalar", "enum", "object"]
  · have hknown : (FieldKind.ofDeclared node.kind == .unsupported) = false := by
      simpa [hword] using hkind
    simp [hknown, hword, hdefault]
  · have hunknown : FieldKind.ofDeclared node.kind = .unsupported := hkind.mpr hword
    simp [hunknown, hword, hdefault, Nat.add_comm]

theorem EnumType.length_warnings_distinctValues (enumName : String) (seen values : List String) :
    (distinctValues enumName seen values).warnings.length + (firstByKey id seen values).length =
      values.length := by
  induction values generalizing seen with
  | nil => rfl
  | cons value values ih =>
    rw [distinctValues, firstByKey]
    by_cases hseen : value ∈ seen
    · have hrest := ih seen
      simp [hseen]
      omega
    · have hrest := ih (value :: seen)
      simp [hseen]
      omega

theorem EnumType.length_warnings_ofNode (frozen : Bool) (node : EnumNode) :
    (ofNode frozen node).warnings.length = node.flaws := by
  have hvalues := length_warnings_distinctValues node.name [] node.values
  have hrepeated := repetitions_add_length_firstByKey id node.values
  rw [List.map_id] at hrepeated
  have hwarnings : (ofNode frozen node).warnings = (distinctValues node.name [] node.values).warnings :=
    List.append_nil _
  rw [hwarnings, EnumNode.flaws]
  omega

theorem Model.length_warnings_ofNode (frozen : Bool) (node : ModelNode) :
    (ofNode frozen node).warnings.length = node.flaws := by
  have hwarnings : ∃ keyFields, (ofNode frozen node).warnings =
      (Field.readAll frozen node.name keyFields node.fields).warnings :=
    ⟨_, List.append_nil _⟩
  obtain ⟨keyFields, hfields⟩ := hwarnings
  rw [hfields, Field.readAll, NodeReader.length_warnings_readAll, ModelNode.flaws]
  simp only [Field.reader, Field.length_warnings_ofNode]

/-! Data models. -/

theorem length_warnings_sectionNodes (dataModel : Value) (name : String) :
    (sectionNodes dataModel name).warnings.length =
      if (dataModel.get name).isSection then 0 else 1 := by
  unfold sectionNodes
  cases dataModel.get name with
  | _ => rfl

/-- A section costs what is counted of it, if each node costs what is counted of the node. -/
theorem length_warnings_section (r : NodeReader ν α) {flaws : ν → Nat}
    (h : ∀ n, (r.read n).warnings.length = flaws n) (dataModel : Value) (name : String) :
    (sectionNodes dataModel name).warnings.length +
        (r.readAll (sectionNodes dataModel name).value).warnings.length =
      Value.sectionFlaws r.shape? r.nameOf flaws (dataModel.get name) := by
  rw [length_warnings_sectionNodes, NodeReader.length_warnings_readAll, Value.value_sectionNodes,
    Value.sectionFlaws, funext h]
  omega

theorem length_warnings_readSchema (frozen : Bool) (dataModel : Value) :
    (readSchema frozen dataModel).warnings.length = dataModel.flaws := by
  have henums := length_warnings_section (EnumType.reader frozen)
    (EnumType.length_warnings_ofNode frozen) dataModel "enums"
  have hmodels := length_warnings_section (Model.reader frozen)
    (Model.length_warnings_ofNode frozen) dataModel "models"
  unfold readSchema EnumType.readAll Model.readAll Value.flaws
  simp only [Logged.warnings_bind, Logged.warnings_pure, List.length_append, List.length_nil]
  simp only [EnumType.reader, Model.reader] at henums hmodels ⊢
  omega

/-! Runs. -/

/-- A run that succeeds logs what reading the data model warns of, and nothing else. -/
theorem log_compileWith_of_ok {document : Value} {options : Option Options.Settings}
    {overrides : Options.Settings} {c : Compiled}
    (h : (compileWith document options overrides).result = .ok c) :
    ∃ (o : Options) (dataModel : Value), document.dataModel? = some dataModel ∧
      (compileWith document options overrides).log =
        (readSchema o.freeze dataModel).warnings.map (·.entry) := by
  obtain ⟨o, dataModel, ho, hd, -⟩ := compileWith_eq_ok_of_resolved h
  have hrun : compileWith document options overrides = compileDataModel o dataModel := by
    rw [compileWith_eq_compileResolved hd, ho]
    rfl
  rw [hrun] at h ⊢
  exists o, dataModel, hd
  unfold compileDataModel at h ⊢
  dsimp only at h ⊢
  split at h
  · cases h
  · rfl

/-- The log of a run that succeeds holds one warning for each flaw of the data model, and no other
entry. -/
theorem Compiled.warnings_counted {document : Value} {options : Option Options.Settings}
    {overrides : Options.Settings} {c : Compiled}
    (h : (compileWith document options overrides).result = .ok c) :
    ∃ dataModel, document.dataModel? = some dataModel ∧
      (compileWith document options overrides).log.countP (·.level == .warning) = dataModel.flaws ∧
      ∀ entry ∈ (compileWith document options overrides).log, entry.level = .warning := by
  obtain ⟨o, dataModel, hd, hlog⟩ := log_compileWith_of_ok h
  have hlevel : ∀ entry ∈ (compileWith document options overrides).log, entry.level = .warning := by
    rw [hlog]
    exact List.forall_mem_map.mpr fun w hw => rfl
  have hcount : (compileWith document options overrides).log.countP (·.level == .warning) =
      (compileWith document options overrides).log.length :=
    List.countP_eq_length.mpr fun entry hentry => by simp [hlevel entry hentry]
  exists dataModel, hd
  rw [hcount]
  exact ⟨by rw [hlog, List.length_map, length_warnings_readSchema], hlevel⟩

/-! Posts and roles that were declared in haste. What is wrong with the second declarations of `Post` and
of `Role` is not counted, since neither is kept. -/

def hasty : Value :=
  Declaration.document [
    Declaration.model "Post" [
      Declaration.field "id" "Int" "scalar" [],
      Declaration.field "id" "String" "scalar" [],
      Declaration.field "score" "Number" "numeric"
        [("default", Declaration.members [("name", .text "")])],
      Declaration.field "cover" "Bytes" "scalar" [("default", .bytes [137, 80])],
      .null] [],
    Declaration.model "Post" [.null, Declaration.field "title" "String" "text" []] [],
    Declaration.members [("name", .text "Draft"), ("fields", .text "none")]]
    [Declaration.enum "Role" ["READER", "EDITOR", "READER"], Declaration.enum "Role" ["A", "A"], .int 3]

theorem Compiled.warnings_counted_hasty :
    ∃ c, (compileWith hasty none []).result = .ok c ∧
      (compileWith hasty none []).log.countP (·.level == .warning) = 10 := by
  obtain ⟨c, hc, -⟩ := exists_compiled (rfl : hasty.dataModel? = some hasty)
  obtain ⟨dataModel, hd, hcount, -⟩ := Compiled.warnings_counted hc
  cases hd
  have hflaws : hasty.flaws = 10 := by decide +kernel
  exact ⟨c, hc, hcount.trans hflaws⟩

end EntitySchema
