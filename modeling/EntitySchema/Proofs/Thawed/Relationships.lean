import EntitySchema.Proofs.Thawed.Record

/-!
# Analyses of thawed schemas

No analysis of the relations of a schema looks at what is frozen: the relationships of a thawed schema
are those of the schema, thawed.
-/

set_option autoImplicit false

namespace EntitySchema

def Relationship.thawed (r : Relationship) : Relationship := { r with frozen := false }

def ModelAnalysis.thawed (a : ModelAnalysis) : ModelAnalysis :=
  { a with
    relationships := a.relationships.thawedBy Relationship.thawed
    skipped := a.skipped.withFrozen false
    frozen := false }

theorem Field.backReference?_thawed (f : Field) (source target : Model) :
    f.thawed.backReference? source.thawed target.thawed =
      (f.backReference? source target).map thawed := by
  have hrelations : target.thawed.relationFields.items =
      target.relationFields.items.map Field.thawed := rfl
  rw [backReference?, backReference?, hrelations, List.find?_map]
  rfl

namespace Model

theorem isSingleKey_thawed (m : Model) (names : List String) :
    m.thawed.isSingleKey names = m.isSingleKey names := by
  unfold isSingleKey
  split
  · rw [field?_thawed, Option.any_map]
    rfl
  · rfl

theorem areUnique_thawed (m : Model) (names : List String) :
    m.thawed.areUnique names = m.areUnique names := by
  have hprimary : m.thawed.primaryKey = m.primaryKey.map PrimaryKey.thawed := rfl
  have hunique : m.thawed.uniqueFields.items = m.uniqueFields.items.map (·.withFrozen false) := rfl
  unfold areUnique
  dsimp only
  rw [hprimary, hunique, isSingleKey_thawed, Option.any_map, List.any_map]
  rfl

theorem thawed_relationship (frozen : Bool) (m target : Model) (f : Field) :
    (m.relationship frozen target f).thawed =
      m.thawed.relationship false target.thawed f.thawed := by
  have hcardinality : ∀ back, Cardinality.ofRelation f.thawed m.thawed target.thawed
      (back.map Field.thawed) = Cardinality.ofRelation f m target back := by
    intro back
    cases back with
    | some b => rfl
    | none =>
      simp only [Option.map_none, Cardinality.ofRelation, Field.fromNames_thawed, areUnique_thawed]
      rfl
  unfold relationship
  simp only [Field.backReference?_thawed, hcardinality, Relationship.thawed, name_thawed,
    Field.name_thawed, Option.map_map]
  rfl

theorem thawed_analyze (frozen : Bool) (s : Schema) (m : Model) :
    (m.analyze frozen s).thawed = m.thawed.analyze false s.thawed := by
  have hjunction : m.thawed.isJunctionTable = m.isJunctionTable := rfl
  unfold analyze
  rw [hjunction]
  split
  · rfl
  · simp only [ModelAnalysis.thawed, Seq.thawedBy, Seq.withFrozen, items_fields_thawed,
      List.filter_map, List.filterMap_map, List.map_filterMap, List.map_map, Function.comp_def,
      Field.isRelation_thawed, Field.typeName_thawed, Schema.model?_thawed, Option.map_map,
      Option.isNone_map, thawed_relationship, Field.name_thawed, name_thawed]

end Model

namespace Schema

theorem onIndex_putNamed {α : Type} (thaw : α → α) (name : String) (a : α)
    (found : List (String × α)) :
    onIndex thaw (putNamed name a found) = putNamed name (thaw a) (onIndex thaw found) := by
  induction found with
  | nil => rfl
  | cons e found ih =>
    rw [putNamed, onIndex_cons, putNamed]
    split
    · rfl
    · rw [onIndex_cons, ih]

theorem thawed_analyze (frozen : Bool) (s : Schema) :
    (s.analyze frozen).map ModelAnalysis.thawed = s.thawed.analyze false := by
  have hfold : ∀ (models : List Model) (found : List (String × ModelAnalysis)),
      onIndex ModelAnalysis.thawed
        (models.foldl (fun found m => putNamed m.name (m.analyze frozen s) found) found) =
      (models.map Model.thawed).foldl
        (fun found m => putNamed m.name (m.analyze false s.thawed) found)
        (onIndex ModelAnalysis.thawed found) := by
    intro models
    induction models with
    | nil => exact fun _ => rfl
    | cons m models ih =>
      intro found
      rw [List.foldl_cons, ih, onIndex_putNamed, Model.thawed_analyze]
      rfl
  have hmodels := congrArg (List.map Prod.snd) (hfold s.models.items [])
  rw [onIndex, List.map_map] at hmodels
  rw [analyze, analyze, List.map_map, items_models_thawed]
  exact hmodels

end Schema

end EntitySchema
