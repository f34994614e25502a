import EntitySchema.Proofs.Declarations
import EntitySchema.Proofs.Typed.Building
import EntitySchema.Proofs.Typed.Planting

/-!
# Plain documents are compiled

Shapes and readers look at the same members, so a node that is accepted has all that is read of it, and
what is read can be put together to records. A document of plain data is therefore compiled whatever
stands in it; what does not have the shape is left out.
-/

set_option autoImplicit false

namespace EntitySchema

/-- The shapes accept just the nodes that carry what is read of them. -/
structure NodesCarried : Prop where
  field : ∀ (v : Value) node, v.fieldNode? = some node ↔ v.CarriesField node
  key : ∀ (v : Value) node, v.keyNode? = some node ↔ v.CarriesKey node
  model : ∀ (v : Value) node, v.modelNode? = some node ↔ v.CarriesModel node
  enum : ∀ (v : Value) node, v.enumNode? = some node ↔ v.CarriesEnum node
  call : ∀ (v : Value) node, v.callNode? = some node ↔ v.CarriesCall node

/-- A schema all of whose records hold what their kinds declare and can be built anew. -/
structure Live.BuildsAnew (root : Cell) (store : Store) : Prop where
  isSchema : root.IsRecordOf .schema store
  typed : store.Typed
  built : ∀ (id : Id) kind attributes inner,
    store.objects[id]? = some (.record kind attributes inner) →
    ∃ taken later, (build takeFor kind attributes).run store = .ok (.ok taken, later)

theorem nodesCarried : NodesCarried where
  field := Value.fieldNode?_eq_some_iff
  key := Value.keyNode?_eq_some_iff
  model := Value.modelNode?_eq_some_iff
  enum := Value.enumNode?_eq_some_iff
  call := Value.callNode?_eq_some_iff

theorem Live.exists_buildsAnew {schema : Schema} (h : schema.Named) :
    ∃ root store, (plantSchema schema).run Store.empty = .ok (root, store) ∧
      BuildsAnew root store := by
  obtain ⟨root, store, hplant, htyped, hroot⟩ := exists_typed_store h
  refine ⟨root, store, hplant, hroot, htyped, fun id kind attributes inner ho => ?_⟩
  obtain ⟨result, later, hrun, -, taken, rfl, -⟩ := gains_build htyped (htyped id _ ho)
  exact ⟨taken, later, hrun⟩

theorem exists_dataModel? {document : Value} (h : document.isMap = true) :
    ∃ dataModel, document.dataModel? = some dataModel := by
  unfold Value.dataModel?
  rw [if_pos h]
  exact ⟨_, rfl⟩

/-- Without failing on errors, valid options let every data model be compiled. -/
theorem result_compileWith_of_lenient {document dataModel : Value}
    {options : Option Options.Settings} {overrides : Options.Settings} {o : Options}
    (hd : document.dataModel? = some dataModel) (ho : Options.resolved options overrides = .ok o)
    (hlenient : o.throwOnError = false) : (compileWith document options overrides).result =
      .ok ⟨(readSchema o.freeze dataModel).value, (readSchema o.freeze dataModel).value.validate⟩ := by
  rw [compileWith_eq_compileResolved hd, ho, compileResolved, compileDataModel, hlenient]

/-- A mapping of plain data is compiled under valid options that do not make failures of errors. Every
node that is accepted carries what is read of it, and the records of the schema are what their kinds
declare, so that each can be built anew from its attributes. -/
theorem Outcome.plain_document_compiled {document : Value} {options : Option Options.Settings}
    {overrides : Options.Settings} {o : Options} (hmap : document.isMap = true)
    (hplain : document.Plain) (ho : Options.resolved options overrides = .ok o)
    (hlenient : o.throwOnError = false) :
    ∃ c dataModel, (compileWith document options overrides).result = .ok c ∧
      document.dataModel? = some dataModel ∧ c.schema = (readSchema o.freeze dataModel).value ∧
      NodesCarried ∧ c.schema.Named ∧
      ∃ root store, (Live.plantSchema c.schema).run Live.Store.empty = .ok (root, store) ∧
        Live.BuildsAnew root store := by
  obtain ⟨dataModel, hd⟩ := exists_dataModel? hmap
  have hnamed := Schema.named_readSchema (Value.inherited_plain.dataModel? hplain hd) o.freeze
  exact ⟨_, dataModel, result_compileWith_of_lenient hd ho hlenient, hd, rfl, nodesCarried, hnamed,
    Live.exists_buildsAnew hnamed⟩

/-! Accounts with a key of two fields, among nodes in which something is missing, null or of the wrong
kind. -/

def patchwork : Value :=
  Declaration.document [
    Declaration.model "Account" [
      Declaration.field "tenant" "Int" "scalar" [("isRequired", .bool true), ("isList", .null)],
      Declaration.field "number" "Int" "scalar"
        [("default", Declaration.members [("name", .text "autoincrement")])],
      Declaration.field "tags" "String" "text" [("default", .seq true [.map 1 [(.int 1, .bytes [0])]])],
      Declaration.field "note" "String" "scalar" [("isId", .text "no")],
      Declaration.members [("name", .text ""), ("type", .text "Int"), ("kind", .text "scalar")],
      .null]
      [("primaryKey", Declaration.members
        [("name", .text ""), ("fields", .seq true [.text "tenant", .text "number"])])],
    Declaration.model "Entry" [] [("primaryKey", Declaration.members [("name", .text "key")])],
    Declaration.model "Draft" [] [("uniqueFields", .seq false [.seq false [.int 1]])], .int 3]
    [Declaration.members [("name", .text "Role"), ("values", .seq false [.text "ADMIN"])]]

theorem Outcome.plain_document_compiled_patchwork :
    ∃ c, (compileWith patchwork none [("throw_on_error", .value (.int 0))]).result = .ok c ∧
      c.schema.modelNames = ["Account"] ∧
      (∀ m ∈ c.schema.models.items, m.fieldNames = ["tenant", "number", "tags"]) ∧
      c.schema.Named ∧
      ∃ root store, (Live.plantSchema c.schema).run Live.Store.empty = .ok (root, store) ∧
        Live.BuildsAnew root store := by
  have hplain : patchwork.Plain := by
    simp [patchwork, Declaration.document, Declaration.model, Declaration.field, Declaration.members,
      Value.Plain, Value.PlainItems, Value.PlainEntries]
  obtain ⟨c, dataModel, hc, hd, hs, -, hnamed, hlive⟩ :=
    @Outcome.plain_document_compiled patchwork none [("throw_on_error", .value (.int 0))] {} rfl
      hplain rfl rfl
  cases hd
  refine ⟨c, hc, ?_, ?_, hnamed, hlive⟩
  · rw [hs]
    decide +kernel
  · rw [hs]
    decide +kernel

end EntitySchema
