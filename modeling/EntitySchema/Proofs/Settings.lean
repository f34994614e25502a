import EntitySchema.Compile.Compile

/-!
# Settings and the run they lead to

Which options a run is under, and what a setting that is given last does to them. Under valid options
a document with a data model is compiled as that data model; all other documents and settings are
refused.
-/

set_option autoImplicit false

namespace EntitySchema

namespace Options

def resolved (options : Option Settings) (overrides : Settings) : Except (List String) Options :=
  match options with
  | none => override none overrides
  | some settings =>
    match ofSettings settings with
    | .error names => .error names
    | .ok o => override (some o) overrides

namespace Settings

def names (s : Settings) : List String := s.map (·.1)

def last? (s : Settings) (name : String) : Option Setting := s.reverse.lookup name

theorem last?_append (s t : Settings) (name : String) :
    last? (s ++ t) name = (t.last? name).or (s.last? name) := by
  rw [last?, List.reverse_append, List.lookup_append]
  rfl

theorem last?_eq_none_iff {s : Settings} {name : String} :
    s.last? name = none ↔ name ∉ s.names := by
  simp only [last?, List.lookup_eq_none_iff, names, List.mem_reverse, List.mem_map, bne_iff_ne]
  constructor
  · rintro h ⟨e, he, rfl⟩
    exact h e he rfl
  · intro h e he hn
    exact h ⟨e, he, hn.symm⟩

end Settings

theorem resolve_append {α : Type} (s t : Settings) (name : String) (read : Setting → Option α)
    (unset : α) : resolve (s ++ t) name read unset =
      match t.last? name with
      | none => resolve s name read unset
      | some x => read x := by
  rw [resolve, show (s ++ t).reverse.lookup name = _ from Settings.last?_append s t name]
  cases t.last? name <;> rfl

theorem resolve_append_of_not_mem {α : Type} (s : Settings) {t : Settings} {name : String}
    (h : name ∉ t.names) (read : Setting → Option α) (unset : α) :
    resolve (s ++ t) name read unset = resolve s name read unset := by
  rw [resolve_append, Settings.last?_eq_none_iff.mpr h]

theorem resolve_concat_of_ne {α : Type} (settings : Settings) {name given : String}
    (h : name ≠ given) (s : Setting) (read : Setting → Option α) (unset : α) :
    resolve (settings ++ [(given, s)]) name read unset = resolve settings name read unset :=
  resolve_append_of_not_mem settings (mt List.mem_singleton.mp h) read unset

theorem resolve_concat_self {α : Type} (settings : Settings) (name : String) (s : Setting)
    (read : Setting → Option α) (unset : α) :
    resolve (settings ++ [(name, s)]) name read unset = read s := by
  have hlast : Settings.last? [(name, s)] name = some s := List.lookup_cons_self
  rw [resolve_append, hlast]

theorem override_concat (base : Option Options) (overrides : Settings) (s : String × Setting) :
    override base (overrides ++ [s]) =
      ofSettings (((base.map settings).getD []) ++ overrides ++ [s]) := by
  cases base with
  | none => rfl
  | some o =>
    rw [override, if_neg (by simp), Option.map_some, Option.getD_some, List.append_assoc]

end Options

def compileResolved (resolved : Except (List String) Options) (dataModel : Value) : Outcome :=
  match resolved with
  | .error names => ⟨none, [], .error (.invalidOptions names)⟩
  | .ok o => compileDataModel o dataModel

theorem compileWith_eq_compileResolved {document dataModel : Value}
    (hd : document.dataModel? = some dataModel) (options : Option Options.Settings)
    (overrides : Options.Settings) : compileWith document options overrides =
      compileResolved (Options.resolved options overrides) dataModel := by
  have hcompile : ∀ base, compile document base overrides =
      compileResolved (Options.override base overrides) dataModel := by
    intro base
    rw [compile, hd]
    rfl
  unfold compileWith Options.resolved
  cases options with
  | none => exact hcompile none
  | some settings =>
    dsimp only
    cases Options.ofSettings settings with
    | error names => rfl
    | ok o => exact hcompile (some o)

/-- A run that succeeds had valid options and a document with a data model. Its schema is read from the
data model, and its report is that of all checks on the schema. -/
theorem compileWith_eq_ok_of_resolved {document : Value} {options : Option Options.Settings}
    {overrides : Options.Settings} {c : Compiled}
    (h : (compileWith document options overrides).result = .ok c) :
    ∃ o dataModel, Options.resolved options overrides = .ok o ∧
      document.dataModel? = some dataModel ∧
      c.schema = (readSchema o.freeze dataModel).value ∧ c.report = c.schema.validate := by
  cases hd : document.dataModel? with
  | none =>
    have hrefused : ∀ base, (compile document base overrides).result ≠ .ok c := by
      intro base
      rw [compile, hd]
      exact nofun
    unfold compileWith at h
    split at h
    · exact absurd h (hrefused _)
    · split at h
      · cases h
      · exact absurd h (hrefused _)
  | some dataModel =>
    rw [compileWith_eq_compileResolved hd] at h
    unfold compileResolved at h
    split at h
    · cases h
    · next o ho =>
      refine ⟨o, dataModel, ho, rfl, ?_⟩
      unfold compileDataModel at h
      dsimp only at h
      split at h
      · cases h
      · cases h
        exact ⟨rfl, rfl⟩

end EntitySchema
