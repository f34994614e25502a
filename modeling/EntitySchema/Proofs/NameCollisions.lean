import Mathlib.Data.Sym.Sym2
import Mathlib.Logic.Relation
import EntitySchema.Proofs.Declarations
import EntitySchema.Proofs.Findings
import EntitySchema.Proofs.WellFormed

/-!
# Name collisions

A name that is spelled like an earlier one is reported together with the first name of that spelling, and
a pair that has been reported under one form is not reported again under another. So not all names with
one spelling are reported as pairs; but each of them is, under some form, with the first of them, and that
links them all.
-/

set_option autoImplicit false

namespace EntitySchema

namespace Collision

def ordered (c : Collision) : String × String := (c.first, c.second)

def pair (c : Collision) : Sym2 String := s(c.first, c.second)

/-- Collisions that are found among names under some forms: each is one of two different names that a
form spells as it says, no two names are found twice, and names that a form spells alike are linked by
pairs that are found. -/
structure Covers (found : List Collision) (names : List String) (forms : List NameForm) : Prop where
  sound : ∀ c ∈ found, c.first ∈ names ∧ c.second ∈ names ∧ c.first ≠ c.second ∧
    ∃ form ∈ forms, form.label = c.form ∧ form.apply c.first = c.derived ∧
      form.apply c.second = c.derived
  once : (found.map pair).Nodup
  linked : ∀ a ∈ names, ∀ b ∈ names, ∀ form ∈ forms, form.apply a = form.apply b →
    Relation.ReflTransGen (fun x y => s(x, y) ∈ found.map pair) a b

def modelIssue (c : Collision) : Issue :=
  (Finding.modelNameCollision c.first c.second c.form c.derived).issue

def fieldIssue (model : String) (c : Collision) : Issue :=
  (Finding.fieldNameCollision model c.first c.second c.form c.derived).issue

/-! One form. -/

def firstAlike? (names : List String) (form : NameForm) (n : String) : Option String :=
  names.find? fun q => form.apply q == form.apply n

section OneForm

variable {names : List String} {form : NameForm}

theorem mem_ofForm {c : Collision} : c ∈ ofForm names form ↔
    ∃ n ∈ names, ∃ q, firstAlike? names form n = some q ∧ q ≠ n ∧
      c = ⟨q, n, form.label, form.apply n⟩ := by
  have hfind : ∀ n, (names.map fun n => (n, form.apply n)).find? (·.2 == form.apply n) =
      (firstAlike? names form n).map fun q => (q, form.apply q) := by
    intro n
    rw [List.find?_map]
    rfl
  simp only [ofForm, ofSpelled, List.mem_filterMap, List.mem_map, exists_exists_and_eq_and, hfind]
  refine exists_congr fun n => and_congr_right fun _ => ?_
  cases firstAlike? names form n with
  | none => simp
  | some q =>
    by_cases hq : q = n
    · simp [hq]
    · simp [hq, eq_comm (a := c)]

theorem apply_firstAlike? {n q : String} (h : firstAlike? names form n = some q) :
    form.apply q = form.apply n := by
  simpa using List.find?_some h

theorem exists_firstAlike? {n : String} (hn : n ∈ names) (form : NameForm) :
    ∃ q, firstAlike? names form n = some q :=
  Option.isSome_iff_exists.mp (List.find?_isSome.mpr ⟨n, hn, beq_self_eq_true _⟩)

/-- The first name of a spelling stands before every other one. -/
theorem idxOf_lt_of_firstAlike? {n q : String} (h : firstAlike? names form n = some q) (hne : q ≠ n) :
    names.idxOf q < names.idxOf n := by
  obtain ⟨hq, before, after, hnames, hbefore⟩ := List.find?_eq_some_iff_append.mp h
  have hunlike : ∀ m ∈ before, form.apply m ≠ form.apply n := by simpa using hbefore
  have hqb : q ∉ before := fun hmem => hunlike q hmem (apply_firstAlike? h)
  have hnb : n ∉ before := fun hmem => hunlike n hmem rfl
  rw [hnames, List.idxOf_append_of_notMem hqb, List.idxOf_append_of_notMem hnb, List.idxOf_cons_self,
    List.idxOf_cons_ne _ hne]
  omega

end OneForm

/-! Several forms. -/

section DistinctPairs

variable {seen : List (String × String)} {cs : List Collision}

theorem distinctPairs_sublist (seen : List (String × String)) (cs : List Collision) :
    (distinctPairs seen cs).Sublist cs := by
  induction cs generalizing seen with
  | nil => exact .slnil
  | cons c cs ih =>
    rw [distinctPairs]
    split
    · exact (ih seen).cons c
    · exact (ih _).cons_cons c

/-- Every pair is kept once, unless it was there before. -/
theorem mem_ordered_distinctPairs {p : String × String} :
    p ∈ (distinctPairs seen cs).map ordered ↔ p ∈ cs.map ordered ∧ p ∉ seen := by
  induction cs generalizing seen with
  | nil => simp [distinctPairs]
  | cons c cs ih =>
    rw [distinctPairs]
    by_cases hc : c.ordered ∈ seen
    · have hp : p = c.ordered → p ∈ seen := fun h => h ▸ hc
      rw [if_pos (by simpa [ordered] using hc), ih, List.map_cons, List.mem_cons]
      tauto
    · have hp : p = c.ordered → p ∉ seen := fun h => h ▸ hc
      rw [if_neg (by simpa [ordered] using hc), List.map_cons, List.map_cons, List.mem_cons,
        List.mem_cons, ih, List.mem_cons, ← ordered]
      tauto

theorem nodup_ordered_distinctPairs : ((distinctPairs seen cs).map ordered).Nodup := by
  induction cs generalizing seen with
  | nil => exact List.nodup_nil
  | cons c cs ih =>
    rw [distinctPairs]
    split
    · exact ih
    · rw [List.map_cons, List.nodup_cons]
      refine ⟨fun h => ?_, ih⟩
      exact (mem_ordered_distinctPairs.mp h).2 List.mem_cons_self

end DistinctPairs

section All

variable {names : List String} {forms : List NameForm}

theorem mem_all_of_mem {c : Collision} (h : c ∈ all names forms) :
    ∃ form ∈ forms, c ∈ ofForm names form :=
  List.mem_flatMap.mp ((distinctPairs_sublist _ _).mem h)

theorem ordered_mem_all {form : NameForm} (hform : form ∈ forms) {c : Collision}
    (hc : c ∈ ofForm names form) : c.ordered ∈ (all names forms).map ordered := by
  rw [all, mem_ordered_distinctPairs]
  exact ⟨List.mem_map_of_mem (List.mem_flatMap.mpr ⟨form, hform, hc⟩), List.not_mem_nil⟩

/-- The first of the two names of a collision stands before the second. -/
theorem idxOf_lt_of_mem_all {c : Collision} (h : c ∈ all names forms) :
    names.idxOf c.first < names.idxOf c.second := by
  obtain ⟨form, -, hc⟩ := mem_all_of_mem h
  obtain ⟨n, -, q, hq, hne, rfl⟩ := mem_ofForm.mp hc
  exact idxOf_lt_of_firstAlike? hq hne

/-- No two names are paired in both orders, so pairs in their order are told apart without it. -/
theorem nodup_pairs_all : ((all names forms).map pair).Nodup := by
  have hordered : ((all names forms).map ordered).Nodup := nodup_ordered_distinctPairs
  refine List.Nodup.map_on ?_ (List.Nodup.of_map ordered hordered)
  intro c hc d hd he
  refine List.inj_on_of_nodup_map hordered hc hd ?_
  rcases Sym2.eq_iff.mp he with ⟨hfirst, hsecond⟩ | ⟨hfirst, hsecond⟩
  · rw [ordered, hfirst, hsecond, ordered]
  · have hcd := idxOf_lt_of_mem_all hc
    rw [hfirst, hsecond] at hcd
    exact absurd hcd (Nat.lt_asymm (idxOf_lt_of_mem_all hd))

/-- A name is paired with the first one of its spelling, unless it is the first one. -/
theorem eq_or_pair_mem_all {form : NameForm} (hform : form ∈ forms) {n q : String} (hn : n ∈ names)
    (hq : firstAlike? names form n = some q) : q = n ∨ s(q, n) ∈ (all names forms).map pair := by
  refine or_iff_not_imp_left.mpr fun hne => ?_
  obtain ⟨c, hc, he⟩ := List.mem_map.mp
    (ordered_mem_all hform (mem_ofForm.mpr ⟨n, hn, q, hq, hne, rfl⟩))
  obtain ⟨hfirst, hsecond⟩ := Prod.mk.injEq .. ▸ he
  exact List.mem_map.mpr ⟨c, hc, by rw [pair, hfirst, hsecond]⟩

theorem covers_all (names : List String) (forms : List NameForm) :
    Covers (all names forms) names forms where
  sound := by
    intro c hc
    obtain ⟨form, hform, hc⟩ := mem_all_of_mem hc
    obtain ⟨n, hn, q, hq, hne, rfl⟩ := mem_ofForm.mp hc
    exact ⟨List.mem_of_find?_eq_some hq, hn, hne, form, hform, rfl, apply_firstAlike? hq, rfl⟩
  once := nodup_pairs_all
  linked := by
    intro a ha b hb form hform hspelled
    obtain ⟨q, hqa⟩ := exists_firstAlike? ha form
    have hqb : firstAlike? names form b = some q := by
      rw [← hqa, firstAlike?, firstAlike?, hspelled]
    -- Both names are paired with the first one of their spelling, if they are not that one.
    have hleft : Relation.ReflTransGen (fun x y => s(x, y) ∈ (all names forms).map pair) a q := by
      rcases eq_or_pair_mem_all hform ha hqa with rfl | hpair
      · exact .refl
      · exact .single (Sym2.eq_swap ▸ hpair)
    rcases eq_or_pair_mem_all hform hb hqb with rfl | hpair
    · exact hleft
    · exact hleft.tail hpair

end All

end Collision

/-! Reports. -/

namespace Schema

/-- Findings that come from one check alone can be looked for there. -/
theorem filter_findings {s : Schema} {p : Finding → Bool} {c : Check}
    (h : ∀ x, p x = true → x.check = c) : s.findings.filter p = (s.findingsOf c).filter p := by
  have hother : ∀ c', c' ≠ c → (s.findingsOf c').filter p = [] := by
    intro c' hne
    rw [List.filter_eq_nil_iff]
    exact fun x hx hp => hne (check_of_mem_findingsOf hx ▸ h x hp)
  rw [findings, List.filter_flatMap]
  cases c with
  | _ => simp [Check.all, hother]

theorem byCode_validate {s : Schema} {code : String} {c : Check}
    (h : ∀ x : Finding, x.code = code → x.check = c) :
    s.validate.byCode code = ((s.findingsOf c).filter (·.code == code)).map (·.issue) := by
  rw [← filter_findings fun x hx => h x (by simpa using hx), Report.byCode, validate, List.filter_map]
  rfl

/-- Findings of one code are all kept or all left out when another code is looked for. -/
theorem filter_code {xs : List Finding} {code : String} (h : ∀ x ∈ xs, x.code = code)
    (wanted : String) : xs.filter (·.code == wanted) = if code = wanted then xs else [] := by
  split
  · next he => exact List.filter_eq_self.mpr fun x hx => by simp [h x hx, he]
  · next hne => exact List.filter_eq_nil_iff.mpr fun x hx => by simp [h x hx, hne]

theorem filter_code_collisionFindings (s : Schema) (wanted : String) :
    s.collisionFindings.filter (·.code == wanted) =
      (if "MODEL_NAME_COLLISION" = wanted then s.modelCollisionFindings else []) ++
      (if "ENUM_MODEL_NAME_COLLISION" = wanted then s.enumCollisionFindings else []) ++
      (if "FIELD_NAME_COLLISION" = wanted then s.fieldCollisionFindings else []) := by
  have hmodels : ∀ x ∈ s.modelCollisionFindings, x.code = "MODEL_NAME_COLLISION" := by
    intro x hx
    obtain ⟨c, -, rfl⟩ := List.mem_map.mp hx
    rfl
  have henums : ∀ x ∈ s.enumCollisionFindings, x.code = "ENUM_MODEL_NAME_COLLISION" := by
    intro x hx
    obtain ⟨e, -, he⟩ := List.mem_filterMap.mp hx
    obtain ⟨m, -, rfl⟩ := Option.map_eq_some_iff.mp he
    rfl
  have hfields : ∀ x ∈ s.fieldCollisionFindings, x.code = "FIELD_NAME_COLLISION" := by
    intro x hx
    obtain ⟨m, -, hm⟩ := List.mem_flatMap.mp hx
    obtain ⟨c, -, rfl⟩ := List.mem_map.mp hm
    rfl
  rw [collisionFindings, List.filter_append, List.filter_append, filter_code hmodels,
    filter_code henums, filter_code hfields]

theorem byCode_modelNameCollision (s : Schema) : s.validate.byCode "MODEL_NAME_COLLISION" =
    (Collision.all s.modelNames modelNameForms).map Collision.modelIssue := by
  have hcheck : ∀ x : Finding, x.code = "MODEL_NAME_COLLISION" → x.check = .namingCollisions := by
    intro x hx
    obtain ⟨_, _, _, _, rfl⟩ := Finding.code_eq_modelNameCollision.mp hx
    rfl
  rw [byCode_validate hcheck, findingsOf, filter_code_collisionFindings]
  simp only [reduceIte, String.reduceEq, List.append_nil, modelCollisionFindings, List.map_map]
  rfl

theorem byCode_fieldNameCollision (s : Schema) : s.validate.byCode "FIELD_NAME_COLLISION" =
    s.models.items.flatMap fun m =>
      (Collision.all m.fieldNames fieldNameForms).map (Collision.fieldIssue m.name) := by
  have hcheck : ∀ x : Finding, x.code = "FIELD_NAME_COLLISION" → x.check = .namingCollisions := by
    intro x hx
    obtain ⟨_, _, _, _, _, rfl⟩ := Finding.code_eq_fieldNameCollision.mp hx
    rfl
  rw [byCode_validate hcheck, findingsOf, filter_code_collisionFindings]
  simp only [reduceIte, String.reduceEq, List.nil_append, fieldCollisionFindings, List.map_flatMap,
    List.map_map]
  rfl

end Schema

/-- The warnings of a compiled schema that names collide are those of collisions that cover the names of
its models, and in each model of collisions that cover the names of its fields. -/
theorem Compiled.collisions_covered {document : Value} {options : Option Options.Settings}
    {overrides : Options.Settings} {c : Compiled}
    (h : (compileWith document options overrides).result = .ok c) :
    (∃ found : List Collision,
      c.report.byCode "MODEL_NAME_COLLISION" = found.map Collision.modelIssue ∧
      Collision.Covers found c.schema.modelNames modelNameForms) ∧
    ∃ found : Model → List Collision,
      c.report.byCode "FIELD_NAME_COLLISION" =
        c.schema.models.items.flatMap (fun m => (found m).map (Collision.fieldIssue m.name)) ∧
      ∀ m ∈ c.schema.models.items, Collision.Covers (found m) m.fieldNames fieldNameForms := by
  rw [Compiled.report_eq h]
  refine ⟨⟨_, Schema.byCode_modelNameCollision _, Collision.covers_all _ _⟩,
    fun m => Collision.all m.fieldNames fieldNameForms, Schema.byCode_fieldNameCollision _, ?_⟩
  exact fun m _ => Collision.covers_all _ _

def shop : Value :=
  Declaration.document [
    Declaration.model "Item" [
      Declaration.field "id" "Int" "scalar" [("isId", .bool true)],
      Declaration.field "user_id" "Int" "scalar" [],
      Declaration.field "userId" "Int" "scalar" []] [],
    Declaration.model "item" [
      Declaration.field "id" "Int" "scalar" [("isId", .bool true)]] [],
    Declaration.model "Items" [
      Declaration.field "id" "Int" "scalar" [("isId", .bool true)]] []] []

/-- Two of the three pairs of models are reported, and they link the third. -/
theorem Compiled.collisions_covered_shop :
    ∃ c, (compileWith shop none []).result = .ok c ∧
      (∃ found : List Collision,
        c.report.byCode "MODEL_NAME_COLLISION" = found.map Collision.modelIssue ∧
        found.length = 2 ∧
        Relation.ReflTransGen (fun x y => s(x, y) ∈ found.map Collision.pair) "item" "Items") ∧
      ∃ m ∈ c.schema.models.items, ∃ found : List Collision,
        Relation.ReflTransGen (fun x y => s(x, y) ∈ found.map Collision.pair) "user_id" "userId" ∧
        ∀ x ∈ found, Collision.fieldIssue m.name x ∈ c.report.byCode "FIELD_NAME_COLLISION" := by
  obtain ⟨c, hc, hs⟩ := exists_compiled (rfl : shop.dataModel? = some shop)
  have hnames : c.schema.modelNames = ["Item", "item", "Items"] := by
    rw [hs]
    decide +kernel
  have hnumber : (c.report.byCode "MODEL_NAME_COLLISION").length = 2 := by
    rw [Compiled.report_eq hc, Schema.byCode_modelNameCollision, hnames]
    decide +kernel
  have hfields : ∃ m ∈ c.schema.models.items, "user_id" ∈ m.fieldNames ∧ "userId" ∈ m.fieldNames := by
    rw [hs]
    decide +kernel
  have hforms : (∃ form ∈ modelNameForms, form.apply "item" = form.apply "Items") ∧
      ∃ form ∈ fieldNameForms, form.apply "user_id" = form.apply "userId" := by
    decide +kernel
  obtain ⟨⟨form, hform, hroute⟩, form', hform', hspelled⟩ := hforms
  obtain ⟨m, hm, hsnake, hcamel⟩ := hfields
  obtain ⟨⟨found, hreported, hcovers⟩, foundIn, hreportedIn, hcoversIn⟩ :=
    Compiled.collisions_covered hc
  refine ⟨c, hc, ⟨found, hreported, ?_, ?_⟩, m, hm, foundIn m, ?_, ?_⟩
  · rw [← hnumber, hreported, List.length_map]
  · exact hcovers.linked "item" (by simp [hnames]) "Items" (by simp [hnames]) form hform hroute
  · exact (hcoversIn m hm).linked "user_id" hsnake "userId" hcamel form' hform' hspelled
  · intro x hx
    rw [hreportedIn]
    exact List.mem_flatMap.mpr ⟨m, hm, List.mem_map_of_mem hx⟩

end EntitySchema
