import EntitySchema.Validation.Pool

/-!
# Reports that grow side by side

A report is a list of issues and whatever is read off the list: counts by level, the first error,
the issues with one code. Steps on a pool append to one report, perhaps the report itself, so every
view of a report that was reached by steps agrees with every other.
-/

set_option autoImplicit false

namespace EntitySchema

def Issue.Leveled (i : Issue) : Prop := i.level = .error ∨ i.level = .warning ∨ i.level = .info

structure Issue.IsSelection (code : String) (issues selected : List Issue) : Prop where
  sublist : selected.Sublist issues
  code_eq : ∀ i ∈ selected, i.code = code
  largest : ∀ other : List Issue, other.Sublist issues → (∀ i ∈ other, i.code = code) →
    other.Sublist selected

namespace Report

def Leveled (r : Report) : Prop := ∀ i ∈ r.issues, i.Leveled

/-- What the views of a report say of its issues and of each other. A report counts as true if it is
valid. -/
structure Consistent (r : Report) : Prop where
  length : r.length = r.errorCount + r.warningCount + r.infoCount
  isValid : r.isValid = true ↔ r.errors = []
  firstError : ∀ i, r.firstError? = some i ↔ ∃ before after, r.issues = before ++ i :: after ∧
    i.isError = true ∧ ∀ j ∈ before, j.isError = false
  byCode : ∀ code, Issue.IsSelection code r.issues (r.byCode code)

structure Joins (r a b : Report) : Prop where
  byCode : ∀ code, r.byCode code = a.byCode code ++ b.byCode code
  errorCount : r.errorCount = a.errorCount + b.errorCount
  warningCount : r.warningCount = a.warningCount + b.warningCount
  infoCount : r.infoCount = a.infoCount + b.infoCount

theorem length_eq_counts {r : Report} (h : r.Leveled) :
    r.length = r.errorCount + r.warningCount + r.infoCount := by
  obtain ⟨issues⟩ := r
  unfold Leveled at h
  unfold length errorCount warningCount infoCount
  dsimp only at h ⊢
  induction issues with
  | nil => rfl
  | cons i issues ih =>
    have hrest := ih fun j hj => h j (List.mem_cons_of_mem i hj)
    rcases h i List.mem_cons_self with hi | hi | hi
    all_goals
      simp [Issue.isError, Issue.isWarning, Issue.isInfo, hi] at hrest ⊢
      omega

theorem isValid_iff_errors (r : Report) : r.isValid = true ↔ r.errors = [] := by
  simp [isValid, hasErrors, errors, List.filter_eq_nil_iff]

theorem firstError?_eq_some_iff (r : Report) (i : Issue) :
    r.firstError? = some i ↔ ∃ before after, r.issues = before ++ i :: after ∧
      i.isError = true ∧ ∀ j ∈ before, j.isError = false := by
  rw [firstError?, List.find?_eq_some_iff_append]
  constructor
  · intro h
    obtain ⟨herror, before, after, hissues, hbefore⟩ := h
    exact ⟨before, after, hissues, herror, fun j hj => by simpa using hbefore j hj⟩
  · intro h
    obtain ⟨before, after, hissues, herror, hbefore⟩ := h
    exact ⟨herror, before, after, hissues, fun j hj => by simpa using hbefore j hj⟩

theorem isSelection_byCode (r : Report) (code : String) :
    Issue.IsSelection code r.issues (r.byCode code) := by
  constructor
  case sublist => exact List.filter_sublist
  case code_eq =>
    intro i hi
    simpa using (List.mem_filter.mp hi).2
  case largest =>
    intro other hother hcode
    have hself : other.filter (·.code == code) = other := by
      apply List.filter_eq_self.mpr
      intro i hi
      simpa using hcode i hi
    rw [← hself]
    exact hother.filter _

theorem Leveled.consistent {r : Report} (h : r.Leveled) : r.Consistent where
  length := length_eq_counts h
  isValid := isValid_iff_errors r
  firstError := firstError?_eq_some_iff r
  byCode := isSelection_byCode r

theorem joins_merge (r other : Report) : (r.merge other).Joins r other where
  byCode := byCode_merge r other
  errorCount := List.countP_append
  warningCount := List.countP_append
  infoCount := List.countP_append

end Report

namespace Pool

def Leveled (p : Pool) : Prop := ∀ name, (p.get name).Leveled

def Step.Leveled : Step → Prop
  | .add _ issue => issue.Leveled
  | .merge .. => True

structure StepsTo (p : Pool) (s : Step) (q : Pool) : Prop where
  target : (q.get s.target).issues = (p.get s.target).issues ++ s.appended p
  others : ∀ name, name ≠ s.target → q.get name = p.get name
  merged : ∀ name other, s = .merge name other → (q.get name).Joins (p.get name) (p.get other)

theorem stepsTo_apply (p : Pool) (s : Step) : p.StepsTo s (p.apply s) := by
  constructor
  case target => rw [issues_get_apply, if_pos rfl]
  case others =>
    intro name hname
    cases s with
    | add target issue => exact (get_put p target name _).trans (if_neg hname)
    | merge target other => exact (get_put p target name _).trans (if_neg hname)
  case merged =>
    intro name other hs
    subst hs
    rw [apply, get_put, if_pos rfl]
    exact (p.get name).joins_merge (p.get other)

theorem run_concat (p : Pool) (steps : List Step) (s : Step) :
    p.run (steps ++ [s]) = (p.run steps).apply s := by
  rw [run, run, List.foldl_append, List.foldl_cons, List.foldl_nil]

theorem leveled_empty : empty.Leveled := by
  intro name i hi
  cases hi

theorem Leveled.appended {p : Pool} (hp : p.Leveled) {s : Step} (hs : s.Leveled) :
    ∀ i ∈ s.appended p, i.Leveled := by
  cases s with
  | add name issue =>
    intro i hi
    rw [List.mem_singleton.mp hi]
    exact hs
  | merge name other => exact hp other

theorem Leveled.apply {p : Pool} (hp : p.Leveled) {s : Step} (hs : s.Leveled) :
    (p.apply s).Leveled := by
  intro name i hi
  rw [issues_get_apply, List.mem_append] at hi
  rcases hi with hi | hi
  · exact hp name i hi
  · split at hi
    · exact hp.appended hs i hi
    · cases hi

theorem Leveled.run {p : Pool} (hp : p.Leveled) {steps : List Step}
    (hs : ∀ s ∈ steps, s.Leveled) : (p.run steps).Leveled := by
  induction steps generalizing p with
  | nil => exact hp
  | cons s steps ih =>
    apply ih (hp.apply (hs s List.mem_cons_self))
    exact fun later hlater => hs later (List.mem_cons_of_mem s hlater)

/-- After any run, a step appends to one report what it says, or what the other report held before the
step, and leaves all other reports alone. In whatever state a run ends, the views of each report are
consistent. -/
theorem consistent_in_every_run {p : Pool} (hp : p.Leveled) {steps : List Step}
    (hs : ∀ s ∈ steps, s.Leveled) :
    (∀ s, (p.run steps).StepsTo s (p.run (steps ++ [s]))) ∧
      ∀ name, ((p.run steps).get name).Consistent := by
  constructor
  · intro s
    rw [run_concat]
    exact stepsTo_apply (p.run steps) s
  · intro name
    exact (hp.run hs name).consistent

/-! A report with an error and a note that is merged into itself and then into another report, which
is merged into itself in turn. -/

def doubling : List Step :=
  [.add "keys" ⟨.error, "MISSING_PRIMARY_KEY", "no key", []⟩, .add "keys" ⟨.info, "NOTE", "note", []⟩,
    .merge "keys" "keys", .add "all" ⟨.warning, "DUPLICATE_KEY_FIELD", "twice", []⟩,
    .merge "all" "keys"]

theorem consistent_in_every_run_doubling :
    empty.Leveled ∧ (∀ s ∈ doubling, s.Leveled) ∧
      ((empty.run doubling).get "all").Consistent ∧ ((empty.run doubling).get "all").length = 5 ∧
      ((empty.run doubling).get "all").isValid = false ∧
      ((empty.run (doubling ++ [.merge "all" "all"])).get "all").Joins
        ((empty.run doubling).get "all") ((empty.run doubling).get "all") := by
  have hsteps : ∀ s ∈ doubling, s.Leveled := by
    simp [doubling, Step.Leveled, Issue.Leveled]
  have hrun := consistent_in_every_run leveled_empty hsteps
  have hmerged := (hrun.1 (.merge "all" "all")).merged "all" "all" rfl
  exact ⟨leveled_empty, hsteps, hrun.2 "all", rfl, rfl, hmerged⟩

end Pool

end EntitySchema
