import EntitySchema.Proofs.Thawed.Reading
import EntitySchema.Proofs.Thawed.Relationships

/-!
# Frozen and open runs

Whether a result is to be frozen is one setting among others. Two runs on a document that differ in this
setting alone come to the same end: the same log, and the same error or the same report on schemas that
hold the same.
-/

set_option autoImplicit false

namespace EntitySchema

namespace Options

def SameButFreeze (xs ys : Settings) : Prop :=
  List.Forall₂ (fun x y => x = y ∨ x.1 = "freeze" ∧ y.1 = "freeze" ∧
    x.2.bool?.isSome = true ∧ y.2.bool?.isSome = true) xs ys

def withFreeze (frozen : Bool) (o : Options) : Options := { o with freeze := frozen }

namespace SameButFreeze

variable {xs ys : Settings}

theorem names_eq (h : SameButFreeze xs ys) : xs.map (·.1) = ys.map (·.1) := by
  induction h with
  | nil => rfl
  | cons hxy _ ih =>
    rw [List.map_cons, List.map_cons, ih]
    rcases hxy with rfl | ⟨hx, hy, -⟩
    · rfl
    · rw [hx, hy]

theorem lookup_eq (h : SameButFreeze xs ys) {name : String} (hn : name ≠ "freeze") :
    xs.lookup name = ys.lookup name := by
  induction h with
  | nil => rfl
  | cons hxy _ ih =>
    rw [List.lookup_cons, List.lookup_cons, ih]
    rcases hxy with rfl | ⟨hx, hy, -⟩
    · rfl
    · have hmiss : (name == "freeze") = false := by simpa using hn
      rw [hx, hy, hmiss]

theorem resolve_eq (h : SameButFreeze xs ys) {α : Type} {name : String} (hn : name ≠ "freeze")
    (read : Setting → Option α) (unset : α) :
    resolve xs name read unset = resolve ys name read unset := by
  have hreverse : SameButFreeze xs.reverse ys.reverse := List.forall₂_reverse_iff.mpr h
  rw [resolve, resolve, hreverse.lookup_eq hn]

theorem isSome_resolve_freeze (h : SameButFreeze xs ys) :
    (resolve xs "freeze" Setting.bool? true).isSome =
      (resolve ys "freeze" Setting.bool? true).isSome := by
  -- The last setting counts, so the settings are gone through from behind.
  have hreverse : SameButFreeze xs.reverse ys.reverse := List.forall₂_reverse_iff.mpr h
  rw [resolve, resolve]
  generalize xs.reverse = xs at hreverse
  generalize ys.reverse = ys at hreverse
  induction hreverse with
  | nil => rfl
  | cons hxy _ ih =>
    rw [List.lookup_cons, List.lookup_cons]
    rcases hxy with rfl | ⟨hx, hy, hbx, hby⟩
    · rename_i x _ _ _
      cases "freeze" == x.1
      · exact ih
      · rfl
    · rw [hx, hy]
      exact hbx.trans hby.symm

/-- Such settings are refused alike, or give options that differ in nothing else. -/
theorem ofSettings_eq (h : SameButFreeze xs ys) :
    (ofSettings xs).map (withFreeze true) = (ofSettings ys).map (withFreeze true) := by
  have hfreeze := h.isSome_resolve_freeze
  unfold ofSettings
  rw [h.resolve_eq (by decide), h.resolve_eq (by decide), h.names_eq]
  dsimp only
  generalize resolve ys "logger" Setting.sink? none = sink
  generalize resolve ys "throw_on_error" Setting.bool? false = throwOnError
  generalize (ys.map (·.1)).filter (fun n => !optionNames.contains n) = unknown
  cases hx : resolve xs "freeze" Setting.bool? true with
  | none =>
    rw [hx, Option.isSome_none, eq_comm, Option.isSome_eq_false_iff, Option.isNone_iff_eq_none]
      at hfreeze
    rw [hfreeze]
  | some frozen =>
    rw [hx, Option.isSome_some, eq_comm, Option.isSome_iff_exists] at hfreeze
    obtain ⟨frozen', hy⟩ := hfreeze
    rw [hy]
    cases sink <;> cases throwOnError <;> cases unknown <;> rfl

theorem append (h : SameButFreeze xs ys) {xs' ys' : Settings} (h' : SameButFreeze xs' ys') :
    SameButFreeze (xs ++ xs') (ys ++ ys') := List.rel_append h h'

end SameButFreeze

theorem sameButFreeze_settings {o o' : Options} (h : o.withFreeze true = o'.withFreeze true) :
    SameButFreeze o.settings o'.settings := by
  cases o
  cases o'
  cases h
  exact .cons (.inl rfl) (.cons (.inl rfl) (.cons (.inr ⟨rfl, rfl, rfl, rfl⟩) .nil))

theorem override_eq {base base' : Option Options} {xs ys : Settings}
    (hb : base.map (withFreeze true) = base'.map (withFreeze true)) (h : SameButFreeze xs ys) :
    (override base xs).map (withFreeze true) = (override base' ys).map (withFreeze true) := by
  cases base with
  | none =>
    cases base' with
    | none => exact h.ofSettings_eq
    | some o' => cases hb
  | some o =>
    cases base' with
    | none => cases hb
    | some o' =>
      have ho : o.withFreeze true = o'.withFreeze true := Option.some.inj hb
      cases h with
      | nil => exact congrArg Except.ok ho
      | cons hxy hrest => exact ((sameButFreeze_settings ho).append (.cons hxy hrest)).ofSettings_eq

end Options

structure Compiled.AgreeThawed (c c' : Compiled) : Prop where
  report_eq : c.report = c'.report
  schema_eq : c.schema.thawed = c'.schema.thawed
  analyses_eq : ∀ frozen frozen', (c.schema.analyze frozen).map ModelAnalysis.thawed =
    (c'.schema.analyze frozen').map ModelAnalysis.thawed

structure Outcome.AgreeThawed (a b : Outcome) : Prop where
  sink_eq : a.sink = b.sink
  log_eq : a.log = b.log
  result : (∃ e, a.result = .error e ∧ b.result = .error e) ∨
    ∃ c c', a.result = .ok c ∧ b.result = .ok c' ∧ c.AgreeThawed c'

theorem Outcome.agreeThawed_of_error (e : CompileError) :
    AgreeThawed ⟨none, [], .error e⟩ ⟨none, [], .error e⟩ :=
  ⟨rfl, rfl, .inl ⟨e, rfl, rfl⟩⟩

theorem Compiled.agreeThawed {s s' : Schema} (h : s.thawed = s'.thawed) :
    AgreeThawed ⟨s, s.validate⟩ ⟨s', s'.validate⟩ where
  report_eq := by
    dsimp only
    rw [← s.validate_thawed, h, s'.validate_thawed]
  schema_eq := h
  analyses_eq := by
    intro frozen frozen'
    dsimp only
    rw [Schema.thawed_analyze, Schema.thawed_analyze, h]

theorem agreeThawed_compileDataModel {o o' : Options} (h : o.withFreeze true = o'.withFreeze true)
    (dataModel : Value) :
    (compileDataModel o dataModel).AgreeThawed (compileDataModel o' dataModel) := by
  obtain ⟨hsink, hthrow, -⟩ := Options.mk.inj h
  have hread := alike_readSchema o.freeze o'.freeze dataModel
  have hagree := Compiled.agreeThawed hread.value_eq
  have hreport : (readSchema o.freeze dataModel).value.validate =
      (readSchema o'.freeze dataModel).value.validate := hagree.report_eq
  unfold compileDataModel
  dsimp only
  rw [hsink, hthrow, hread.warnings_eq, hreport]
  split
  · exact ⟨rfl, rfl, .inl ⟨_, rfl, rfl⟩⟩
  · refine ⟨rfl, rfl, .inr ⟨_, _, rfl, rfl, ?_⟩⟩
    rw [← hreport]
    exact hreport ▸ hagree

theorem agreeThawed_compile (document : Value) {base base' : Option Options}
    {xs ys : Options.Settings}
    (hb : base.map (Options.withFreeze true) = base'.map (Options.withFreeze true))
    (h : Options.SameButFreeze xs ys) :
    (compile document base xs).AgreeThawed (compile document base' ys) := by
  have hoptions := Options.override_eq hb h
  unfold compile
  cases document.dataModel? with
  | none => exact Outcome.agreeThawed_of_error _
  | some dataModel =>
    dsimp only
    cases hx : Options.override base xs <;> cases hy : Options.override base' ys <;>
      rw [hx, hy] at hoptions
    · cases hoptions
      exact Outcome.agreeThawed_of_error _
    · cases hoptions
    · cases hoptions
    · exact agreeThawed_compileDataModel (Except.ok.inj hoptions) dataModel

/-- Runs that differ only in whether the result is to be frozen agree, wherever the setting stands. -/
theorem Outcome.frozen_and_open_agree (document : Value)
    {options options' : Option Options.Settings} {overrides overrides' : Options.Settings}
    (ho : Option.Rel Options.SameButFreeze options options')
    (hv : Options.SameButFreeze overrides overrides') :
    (compileWith document options overrides).AgreeThawed
      (compileWith document options' overrides') := by
  unfold compileWith
  cases ho with
  | none => exact agreeThawed_compile document rfl hv
  | @some xs ys hs =>
    have hoptions := hs.ofSettings_eq
    dsimp only
    cases hx : Options.ofSettings xs <;> cases hy : Options.ofSettings ys <;>
      rw [hx, hy] at hoptions
    · cases hoptions
      exact Outcome.agreeThawed_of_error _
    · cases hoptions
    · cases hoptions
    · exact agreeThawed_compile document (congrArg some (Except.ok.inj hoptions)) hv

/-! Defaults with containers inside, on a field that leads back to its own model. -/

def nestedDefaults : Value :=
  .map 0 [(.text "models", .seq false [
    .map 0 [(.text "name", .text "Node"), (.text "fields", .seq false [
      .map 0 [(.text "name", .text "token"), (.text "type", .text "String"),
        (.text "kind", .text "scalar"),
        (.text "default", .map 0 [(.text "name", .text "dbgenerated"),
          (.text "args", .seq false [.seq false [.text "gen"]])])],
      .map 0 [(.text "name", .text "next"), (.text "type", .text "Node"),
        (.text "kind", .text "object"),
        (.text "default", .seq false [.map 0 [(.int 1, .seq false [.bool true])]])]])]])]

theorem compileWith_nestedDefaults (frozen : Bool) :
    ∃ c, (compileWith nestedDefaults none [("freeze", .value (.bool frozen))]).result = .ok c ∧
      c.schema.frozen = frozen := by
  cases frozen
  · exact ⟨_, rfl, rfl⟩
  · exact ⟨_, rfl, rfl⟩

theorem Outcome.frozen_and_open_agree_nestedDefaults :
    ∃ c c', (compileWith nestedDefaults none [("freeze", .value (.bool true))]).result = .ok c ∧
      (compileWith nestedDefaults none [("freeze", .value (.bool false))]).result = .ok c' ∧
      c.schema.frozen = true ∧ c'.schema.frozen = false ∧ c.AgreeThawed c' := by
  obtain ⟨c, hc, hfrozen⟩ := compileWith_nestedDefaults true
  obtain ⟨c', hc', hopen⟩ := compileWith_nestedDefaults false
  refine ⟨c, c', hc, hc', hfrozen, hopen, ?_⟩
  have hsame : Options.SameButFreeze [("freeze", .value (.bool true))]
      [("freeze", .value (.bool false))] := .cons (.inr ⟨rfl, rfl, rfl, rfl⟩) .nil
  have hagree := Outcome.frozen_and_open_agree nestedDefaults (.none) hsame
  rcases hagree.result with ⟨e, he, -⟩ | ⟨d, d', hd, hd', h⟩
  · rw [hc] at he
    cases he
  · rw [hc] at hd
    rw [hc'] at hd'
    cases hd
    cases hd'
    exact h

end EntitySchema
