import EntitySchema.Proofs.Arranged.Reading
import EntitySchema.Proofs.Arranged.Reordering
import EntitySchema.Proofs.Correspondence

/-!
# Documents with reordered entries

Compiling an arranged document gives the arranged outcome: the log and the report as they were, the
schema with the mappings inside its defaults arranged. Documents that differ in nothing but the order of
entries are arranged alike, and so are their outcomes. Outcomes that are arranged alike have one log and
one report, and fields that differ in nothing but the order of entries inside their defaults.
-/

set_option autoImplicit false

namespace EntitySchema

def CompileError.arranged : CompileError → CompileError
  | invalidOptions names => .invalidOptions names
  | notAMapping document => .notAMapping document.arranged
  | rejected report => .rejected report

def Compiled.arranged (c : Compiled) : Compiled := ⟨c.schema.arranged, c.report⟩

def Outcome.arranged (o : Outcome) : Outcome where
  sink := o.sink
  log := o.log
  result :=
    match o.result with
    | .error e => .error e.arranged
    | .ok c => .ok c.arranged

/-! What equal arranged outcomes mean. -/

/-- Fields that differ in nothing but the order of entries inside their defaults. -/
structure Field.DefaultReordered (f g : Field) : Prop where
  kept : f.defaultValue.EntriesReordered g.defaultValue
  others : { f with defaultValue := g.defaultValue } = g

structure Model.DefaultsReordered (m n : Model) : Prop where
  name_eq : m.name = n.name
  fields : List.Forall₂ Field.DefaultReordered m.fields.items n.fields.items

theorem Field.retouched_arranging (f : Field) :
    f.retouched .arranging = { f with defaultValue := f.defaultValue.arranged } := by
  have hflag : Seq.reflagged (α := String) Retouch.arranging.flag = id := rfl
  rw [retouched, hflag, Option.map_id]
  rfl

theorem Field.defaultReordered_of_retouched_eq {f g : Field}
    (h : f.retouched .arranging = g.retouched .arranging) : f.DefaultReordered g := by
  rw [retouched_arranging, retouched_arranging] at h
  constructor
  case kept => exact Value.entriesReordered_of_arranged_eq (congrArg Field.defaultValue h)
  case others => exact congrArg (fun k : Field => { k with defaultValue := g.defaultValue }) h

theorem Model.defaultsReordered_of_retouched_eq {m n : Model}
    (h : m.retouched .arranging = n.retouched .arranging) : m.DefaultsReordered n := by
  have hname := congrArg Model.name h
  have hfields := congrArg (·.fields.items) h
  constructor
  case name_eq => exact hname
  case fields =>
    exact (forall₂_of_map_eq hfields).imp fun _ _ => Field.defaultReordered_of_retouched_eq

/-- Outcomes that are arranged alike have the same log, and if there is a schema, the same report and
models of the same names, whose fields differ in nothing but the order of entries inside defaults. -/
theorem Outcome.defaultsReordered_of_arranged_eq {a b : Outcome} (h : a.arranged = b.arranged)
    {c : Compiled} (hc : a.result = .ok c) :
    a.log = b.log ∧ ∃ d, b.result = .ok d ∧ c.report = d.report ∧
      List.Forall₂ Model.DefaultsReordered c.schema.models.items d.schema.models.items := by
  have hlog := congrArg Outcome.log h
  have hresult := congrArg Outcome.result h
  simp only [arranged, hc] at hresult
  refine ⟨hlog, ?_⟩
  cases hd : b.result with
  | error e =>
    rw [hd] at hresult
    cases hresult
  | ok d =>
    rw [hd] at hresult
    have hcompiled : c.arranged = d.arranged := Except.ok.inj hresult
    have hreport := congrArg Compiled.report hcompiled
    have hmodels := congrArg (·.schema.models.items) hcompiled
    exact ⟨d, rfl, hreport,
      (forall₂_of_map_eq hmodels).imp fun _ _ => Model.defaultsReordered_of_retouched_eq⟩

/-! Arranging before and after compiling. -/

theorem Value.dataModel?_arranged (v : Value) :
    v.arranged.dataModel? = v.dataModel?.map arranged := by
  unfold dataModel?
  dsimp only
  rw [isMap_arranged, get_arranged, isMap_arranged]
  split
  · rw [Option.map_some, apply_ite arranged]
  · rfl

/-- Messages of the same words make the same log. -/
theorem Logged.Echoes.entries_eq {α β : Type} {view : α → β} {x : Logged α} {y : Logged β}
    (h : Echoes view x y) : y.warnings.map (·.entry) = x.warnings.map (·.entry) := by
  have hlog := congrArg (List.map (LogEntry.mk .warning)) h.messages_eq
  rwa [List.map_map, List.map_map] at hlog

theorem compileDataModel_arranged {dataModel : Value} (h : dataModel.JsonLike) (o : Options) :
    compileDataModel o dataModel.arranged = (compileDataModel o dataModel).arranged := by
  have hread := echoes_readSchema h o.freeze
  have hreport := (readSchema o.freeze dataModel).value.validate_retouched .arranging
  unfold compileDataModel
  dsimp only
  rw [hread.entries_eq, hread.value_eq, Schema.arranged, hreport]
  cases o.throwOnError with
  | false => rfl
  | true => cases (readSchema o.freeze dataModel).value.validate.firstError? <;> rfl

theorem compile_arranged {document : Value} (h : document.JsonLike) (base : Option Options)
    (overrides : Options.Settings) :
    compile document.arranged base overrides = (compile document base overrides).arranged := by
  rw [compile, compile, Value.dataModel?_arranged]
  cases hd : document.dataModel? with
  | none => rfl
  | some dataModel =>
    rw [Option.map_some]
    dsimp only
    cases Options.override base overrides with
    | error names => rfl
    | ok o => exact compileDataModel_arranged (Value.inherited_jsonLike.dataModel? h hd) o

/-- An arranged document is compiled to the arranged outcome. -/
theorem compileWith_arranged {document : Value} (h : document.JsonLike)
    (options : Option Options.Settings) (overrides : Options.Settings) :
    compileWith document.arranged options overrides =
      (compileWith document options overrides).arranged := by
  unfold compileWith
  cases options with
  | none => exact compile_arranged h none overrides
  | some settings =>
    dsimp only
    cases Options.ofSettings settings with
    | error names => rfl
    | ok o => exact compile_arranged h (some o) overrides

/-- Documents that differ in nothing but the order of entries, at any depth, have the same log and the
same report, and schemas that differ in nothing but the order of entries inside defaults. -/
theorem Outcome.same_for_reordered_entries {v w : Value} (hv : v.JsonLike)
    (h : v.EntriesReordered w) (options : Option Options.Settings) (overrides : Options.Settings) :
    (compileWith v options overrides).arranged = (compileWith w options overrides).arranged := by
  obtain ⟨hw, harranged⟩ := h.arranged_eq hv
  rw [← compileWith_arranged hv, ← compileWith_arranged hw, harranged]

/-! A default with a mapping among its arguments, behind a node that is no model. -/

def orderedNodes (outer inner : List (Value × Value) → List (Value × Value)) : Value :=
  .map 0 [(.text "models", .seq false [
    .map 0 (outer [(.text "label", .int 1), (.text "kind", .null)]),
    .map 0 [(.text "name", .text "Token"), (.text "fields", .seq false [
      .map 0 [(.text "name", .text "value"), (.text "type", .text "Json"),
        (.text "kind", .text "scalar"),
        (.text "default", .map 0 [(.text "name", .text "dbgenerated"),
          (.text "args", .seq false [
            .map 0 (inner [(.text "size", .int 8), (.text "hint", .null)])])])]])]])]

theorem jsonLike_orderedNodes : (orderedNodes id id).JsonLike := by
  simp [orderedNodes, Value.JsonLike, Value.JsonLikeItems, Value.JsonLikeEntries,
    Value.textKeyed_iff, Value.DistinctTexts, Value.plainText]

theorem entriesReordered_orderedNodes :
    (orderedNodes id id).EntriesReordered (orderedNodes List.reverse List.reverse) := by
  have houter : (orderedNodes id id).EntriesMoved (orderedNodes List.reverse id) :=
    .underKey [] [] (.inItem [] [_] (.here (List.reverse_perm _).symm))
  have hinner : (orderedNodes List.reverse id).EntriesMoved
      (orderedNodes List.reverse List.reverse) :=
    .underKey [] [] (.inItem [_] [] (.underKey [_] [] (.inItem [] [] (.underKey [_, _, _] []
      (.underKey [_] [] (.inItem [] [] (.here (List.reverse_perm _).symm)))))))
  exact .tail (.single houter) hinner

theorem Outcome.same_for_reordered_entries_orderedNodes :
    (compileWith (orderedNodes id id) none []).log.length = 1 ∧
      (compileWith (orderedNodes id id) none []).arranged =
        (compileWith (orderedNodes List.reverse List.reverse) none []).arranged :=
  ⟨rfl, Outcome.same_for_reordered_entries jsonLike_orderedNodes entriesReordered_orderedNodes
    none []⟩

end EntitySchema
