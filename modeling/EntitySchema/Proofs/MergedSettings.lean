import EntitySchema.Proofs.Settings

/-!
# Overriding options, or giving all settings at once

A caller may make options and override some of them for a run, or give the settings of both kinds
at once. On the first way the options are taken apart and validated a second time together with what
overrides them. Both ways lead to the same run, because validation gives what it accepts unchanged
when it meets it again: an adapted sink takes warnings and errors itself, and a truth value stands
for itself.
-/

set_option autoImplicit false

namespace EntitySchema

namespace Options

namespace Settings

def unknown (s : Settings) : List String := s.names.filter fun n => !optionNames.contains n

/-- Settings with later ones laid over them. A name keeps its place and takes what the later ones set
it to, and the names that only those have come behind. -/
def merge (s later : Settings) : Settings :=
  s.map (fun e => (e.1, (later.last? e.1).getD e.2)) ++ later.filter fun e => !s.names.contains e.1

theorem last?_map (f : String → Setting → Setting) (s : Settings) (name : String) :
    last? (s.map fun e => (e.1, f e.1 e.2)) name = (s.last? name).map (f name) := by
  unfold last?
  rw [← List.map_reverse]
  induction s.reverse with
  | nil => rfl
  | cons e rest ih =>
    rw [List.map_cons, List.lookup_cons, List.lookup_cons]
    split
    · next h => rw [eq_of_beq h, Option.map_some]
    · exact ih

theorem last?_filter (keep : String → Bool) (s : Settings) (name : String) :
    last? (s.filter fun e => keep e.1) name = if keep name then s.last? name else none := by
  unfold last?
  rw [← List.filter_reverse]
  induction s.reverse with
  | nil => simp
  | cons e rest ih =>
    rw [List.filter_cons, List.lookup_cons]
    by_cases hk : keep e.1 = true
    · rw [if_pos hk, List.lookup_cons]
      cases hn : name == e.1 with
      | true => rw [eq_of_beq hn, if_pos hk]
      | false => exact ih
    · rw [if_neg hk, ih]
      cases hn : name == e.1 with
      | true => rw [eq_of_beq hn, if_neg hk, if_neg hk]
      | false => rfl

/-- To merge settings is to give some after the others. -/
theorem last?_merge (s later : Settings) (name : String) :
    (s.merge later).last? name = last? (s ++ later) name := by
  rw [merge, last?_append, last?_append, last?_map fun n x => (later.last? n).getD x,
    last?_filter fun n => !s.names.contains n]
  by_cases hn : name ∈ s.names
  · obtain ⟨x, hx⟩ := Option.ne_none_iff_exists'.mp (mt last?_eq_none_iff.mp (not_not_intro hn))
    rw [if_neg (by simpa using hn), Option.none_or, hx]
    cases later.last? name <;> rfl
  · rw [if_pos (by simpa using hn), last?_eq_none_iff.mpr hn]
    rfl

theorem unknown_append (s t : Settings) : unknown (s ++ t) = s.unknown ++ t.unknown := by
  rw [unknown, names, List.map_append, List.filter_append]
  rfl

theorem unknown_eq_nil_iff {s : Settings} :
    s.unknown = [] ↔ ∀ n ∈ s.names, n ∈ optionNames := by
  simp [unknown, List.filter_eq_nil_iff]

/-- Over settings without unknown names only the later ones can have any. -/
theorem unknown_merge {s : Settings} (hs : s.unknown = []) (later : Settings) :
    (s.merge later).unknown = later.unknown := by
  have hplaces : unknown (s.map fun e => (e.1, (later.last? e.1).getD e.2)) = s.unknown := by
    rw [unknown, names, List.map_map]
    rfl
  have hnew : ∀ n, (!optionNames.contains n) = true → (!s.names.contains n) = true := by
    intro n hn
    have hmem : n ∈ s.names → n ∈ optionNames := unknown_eq_nil_iff.mp hs n
    simp only [Bool.not_eq_true', List.contains_eq_mem, decide_eq_false_iff_not] at hn ⊢
    exact mt hmem hn
  rw [merge, unknown_append, hplaces, hs, List.nil_append]
  unfold unknown names
  rw [List.filter_map, List.filter_map, List.filter_filter]
  congr 1
  apply List.filter_congr
  intro e _
  exact Bool.and_eq_left_iff_imp.mpr (hnew e.1)

end Settings

/-! What settings are read as. Only what an option is read as counts afterwards, and not what it was
set to: options that are taken apart no longer show the words they were given in. -/

structure Gives (s : Settings) (o : Options) : Prop where
  sink : resolve s "logger" Setting.sink? none = some o.sink
  throwOnError : resolve s "throw_on_error" Setting.bool? false = some o.throwOnError
  freeze : resolve s "freeze" Setting.bool? true = some o.freeze
  unknown : s.unknown = []

theorem ofSettings_eq_ok_iff {s : Settings} {o : Options} : ofSettings s = .ok o ↔ Gives s o := by
  constructor
  · intro h
    unfold ofSettings at h
    dsimp only at h
    split at h
    · next hsink hthrow hfreeze hunknown =>
      cases h
      exact ⟨hsink, hthrow, hfreeze, hunknown⟩
    · cases h
  · intro h
    have hunknown : (s.map (·.1)).filter (fun n => !optionNames.contains n) = [] := h.unknown
    unfold ofSettings
    rw [h.sink, h.throwOnError, h.freeze, hunknown]

/-- A name is refused because of what it is set to, or because it is no option. -/
theorem mem_of_ofSettings_eq_error {s : Settings} {names : List String} {n : String}
    (h : ofSettings s = .error names) (hn : n ∈ names) :
    (resolve s "logger" Setting.sink? none = none ∧ n = "logger") ∨
      (resolve s "throw_on_error" Setting.bool? false = none ∧ n = "throw_on_error") ∨
      (resolve s "freeze" Setting.bool? true = none ∧ n = "freeze") ∨ n ∈ s.unknown := by
  unfold ofSettings at h
  dsimp only at h
  split at h
  · cases h
  · cases h
    simpa only [Settings.unknown, Settings.names, List.mem_append, List.mem_ite_nil_right,
      List.mem_singleton, Option.isNone_iff_eq_none, or_assoc] using hn

structure ReadAlike (s t : Settings) : Prop where
  sink : resolve s "logger" Setting.sink? none = resolve t "logger" Setting.sink? none
  throwOnError : resolve s "throw_on_error" Setting.bool? false =
    resolve t "throw_on_error" Setting.bool? false
  freeze : resolve s "freeze" Setting.bool? true = resolve t "freeze" Setting.bool? true
  unknown : s.unknown = t.unknown

theorem ReadAlike.ofSettings_eq {s t : Settings} (h : ReadAlike s t) :
    ofSettings s = ofSettings t := by
  have hunknown : (s.map (·.1)).filter (fun n => !optionNames.contains n) =
      (t.map (·.1)).filter fun n => !optionNames.contains n := h.unknown
  unfold ofSettings
  rw [h.sink, h.throwOnError, h.freeze, hunknown]

theorem ReadAlike.append {s t : Settings} (h : ReadAlike s t) (later : Settings) :
    ReadAlike (s ++ later) (t ++ later) where
  sink := by rw [resolve_append, resolve_append, h.sink]
  throwOnError := by rw [resolve_append, resolve_append, h.throwOnError]
  freeze := by rw [resolve_append, resolve_append, h.freeze]
  unknown := by rw [Settings.unknown_append, Settings.unknown_append, h.unknown]

theorem Gives.readAlike {s t : Settings} {o : Options} (hs : Gives s o) (ht : Gives t o) :
    ReadAlike s t :=
  ⟨hs.sink.trans ht.sink.symm, hs.throwOnError.trans ht.throwOnError.symm,
    hs.freeze.trans ht.freeze.symm, hs.unknown.trans ht.unknown.symm⟩

theorem readAlike_merge {s : Settings} (hs : s.unknown = []) (later : Settings) :
    ReadAlike (s.merge later) (s ++ later) := by
  have hresolve {α : Type} (name : String) (read : Setting → Option α) (unset : α) :
      resolve (s.merge later) name read unset = resolve (s ++ later) name read unset := by
    rw [resolve, resolve,
      show (s.merge later).reverse.lookup name = (s ++ later).reverse.lookup name from
        Settings.last?_merge s later name]
  refine ⟨hresolve _ _ _, hresolve _ _ _, hresolve _ _ _, ?_⟩
  rw [Settings.unknown_merge hs, Settings.unknown_append, hs, List.nil_append]

/-! Options that were validated, taken apart and validated again. -/

/-- The setting that a sink which was accepted stands for is accepted as that sink. -/
theorem sink?_of_sink? {x : Setting} {accepted : Option Sink} (h : x.sink? = some accepted) :
    (match accepted with
      | some s => Setting.sink s
      | none => .value .null).sink? = some accepted := by
  unfold Setting.sink? at h
  split at h
  · obtain ⟨s, hs, rfl⟩ := Option.map_eq_some_iff.mp h
    rw [Setting.sink?, Sink.accept?_accept hs, Option.map_some]
  · cases h
    rfl
  · cases h

theorem Gives.settings {s : Settings} {o : Options} (h : Gives s o) : Gives o.settings o where
  sink := by
    have hsink := h.sink
    unfold resolve at hsink
    split at hsink
    · rw [Options.settings, ← Option.some.inj hsink]
      rfl
    · exact sink?_of_sink? hsink
  throwOnError := rfl
  freeze := rfl
  unknown := rfl

theorem Gives.override_eq {s : Settings} {o : Options} (h : Gives s o) (later : Settings) :
    override (some o) later = ofSettings (o.settings ++ later) := by
  cases later with
  | nil =>
    rw [List.append_nil, ofSettings_eq_ok_iff.mpr h.settings, override, if_pos List.isEmpty_nil]
  | cons e rest => rfl

/-- Options that later settings leave as they are where they say nothing, and with which only the
later settings can be refused. -/
structure KeptUnder (o : Options) (later : Settings) : Prop where
  refused : ∀ names, override (some o) later = .error names → ∀ n ∈ names, n ∈ later.names
  sink : ∀ t, override (some o) later = .ok t → "logger" ∉ later.names → t.sink = o.sink
  throwOnError : ∀ t, override (some o) later = .ok t → "throw_on_error" ∉ later.names →
    t.throwOnError = o.throwOnError
  freeze : ∀ t, override (some o) later = .ok t → "freeze" ∉ later.names → t.freeze = o.freeze

theorem Gives.keptUnder {s : Settings} {o : Options} (h : Gives s o) (later : Settings) :
    o.KeptUnder later := by
  have hgives : ∀ t, override (some o) later = .ok t → Gives (o.settings ++ later) t := by
    intro t ht
    rw [h.override_eq] at ht
    exact ofSettings_eq_ok_iff.mp ht
  have hkept {α : Type} {name : String} {read : Setting → Option α} {unset a b : α}
      (ho : resolve o.settings name read unset = some a)
      (ht : resolve (o.settings ++ later) name read unset = some b) (hn : name ∉ later.names) :
      b = a := by
    rw [resolve_append_of_not_mem _ hn, ho] at ht
    exact (Option.some.inj ht).symm
  have hnamed {α : Type} {name : String} {read : Setting → Option α} {unset a : α}
      (ho : resolve o.settings name read unset = some a)
      (ht : resolve (o.settings ++ later) name read unset = none) : name ∈ later.names := by
    apply Decidable.byContradiction
    intro hn
    rw [resolve_append_of_not_mem _ hn, ho] at ht
    cases ht
  refine ⟨?_, fun t ht => hkept h.settings.sink (hgives t ht).sink,
    fun t ht => hkept h.settings.throwOnError (hgives t ht).throwOnError,
    fun t ht => hkept h.settings.freeze (hgives t ht).freeze⟩
  intro names hrefused n hn
  rw [h.override_eq] at hrefused
  rcases mem_of_ofSettings_eq_error hrefused hn with ⟨hr, rfl⟩ | ⟨hr, rfl⟩ | ⟨hr, rfl⟩ | hunknown
  · exact hnamed h.settings.sink hr
  · exact hnamed h.settings.throwOnError hr
  · exact hnamed h.settings.freeze hr
  · rw [Settings.unknown_append, h.settings.unknown, List.nil_append] at hunknown
    exact (List.mem_filter.mp hunknown).1

/-- A sink without a method for warnings is adapted, if it is not refused. -/
theorem Gives.adapted {s : Settings} {o : Options} (h : Gives s o) {sink : Sink}
    (hs : s.last? "logger" = some (.sink sink)) (hw : sink.methods.warning = false) :
    o.sink = some (.adapted sink) := by
  have hsink : resolve s "logger" Setting.sink? none = sink.accept?.map some := by
    rw [resolve, show s.reverse.lookup "logger" = _ from hs]
    rfl
  rw [h.sink, Sink.accept?, hw, Bool.false_and, if_neg Bool.false_ne_true] at hsink
  split at hsink
  · exact Option.some.inj hsink
  · cases hsink

theorem Gives.override_eq_merge {s : Settings} {o : Options} (h : Gives s o) (later : Settings) :
    override (some o) later = override none (s.merge later) := by
  calc override (some o) later
      = ofSettings (o.settings ++ later) := h.override_eq later
    _ = ofSettings (s ++ later) := ((h.settings.readAlike h).append later).ofSettings_eq
    _ = ofSettings (s.merge later) := (readAlike_merge h.unknown later).ofSettings_eq.symm

end Options

/-- A run under options that are overridden is the run under all of the settings at once. Options come
out of a second validation as they went in, and a sink that was adapted for them is neither adapted
again nor refused. -/
theorem Outcome.same_for_merged_settings (document : Value) {given : Options.Settings}
    {o : Options} (ho : Options.ofSettings given = .ok o) (overrides : Options.Settings) :
    compileWith document (some given) overrides =
        compileWith document none (given.merge overrides) ∧
      Options.ofSettings o.settings = .ok o ∧ o.KeptUnder overrides ∧
      ∀ sink, given.last? "logger" = some (.sink sink) → sink.methods.warning = false →
        o.sink = some (.adapted sink) := by
  have hgives : Options.Gives given o := Options.ofSettings_eq_ok_iff.mp ho
  refine ⟨?_, Options.ofSettings_eq_ok_iff.mpr hgives.settings, hgives.keptUnder overrides,
    fun _ => hgives.adapted⟩
  calc compileWith document (some given) overrides
      = compile document (some o) overrides := by
        unfold compileWith
        dsimp only
        rw [ho]
    _ = compile document none (given.merge overrides) := by
      rw [compile, compile, hgives.override_eq_merge overrides]

def olderSink : Sink := .direct { warning := false, warn := true, error := true }

def olderSettings : Options.Settings :=
  [("logger", .sink olderSink), ("throw_on_error", .value (.text "Off")), ("freeze", .value (.int 0))]

def frozenAfterAll : Options.Settings := [("freeze", .value (.text "Yes"))]

theorem ofSettings_olderSettings : Options.ofSettings olderSettings =
    .ok { sink := some (.adapted olderSink), throwOnError := false, freeze := false } := by
  rfl

def modelLacking : Value := .map 0 [(.text "models", .seq false [.null])]

theorem Outcome.same_for_merged_settings_older :
    ∃ o, Options.ofSettings olderSettings = .ok o ∧
      olderSettings.merge frozenAfterAll = [("logger", .sink olderSink),
        ("throw_on_error", .value (.text "Off")), ("freeze", .value (.text "Yes"))] ∧
      compileWith modelLacking (some olderSettings) frozenAfterAll =
        compileWith modelLacking none (olderSettings.merge frozenAfterAll) ∧
      (compileWith modelLacking none (olderSettings.merge frozenAfterAll)).sink =
        some (.adapted olderSink) ∧
      (compileWith modelLacking none (olderSettings.merge frozenAfterAll)).log =
        [⟨.warning, "Skipping invalid model node: null"⟩] ∧
      Options.ofSettings o.settings = .ok o ∧ o.KeptUnder frozenAfterAll ∧
      o.sink = some (.adapted olderSink) := by
  obtain ⟨hsame, hvalid, hkept, hadapted⟩ :=
    Outcome.same_for_merged_settings modelLacking ofSettings_olderSettings frozenAfterAll
  exact ⟨_, ofSettings_olderSettings, rfl, hsame, rfl, rfl, hvalid, hkept,
    hadapted olderSink rfl rfl⟩

end EntitySchema
