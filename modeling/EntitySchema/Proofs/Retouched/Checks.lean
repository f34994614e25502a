import EntitySchema.Proofs.Retouched.Record

/-!
# Checks of retouched schemas

No check of a schema looks at what is frozen, or at more of a default than the function or the text
that it names: a retouched schema has the same findings in the same order. The functions that the
checks are made of are gone through one by one.
-/

set_option autoImplicit false

namespace EntitySchema

variable (r : Retouch)

@[simp] theorem Field.blocksInsertion_retouched (f : Field) :
    (f.retouched r).blocksInsertion = f.blocksInsertion := by
  simp only [blocksInsertion, ownsForeignKey, fromNames_retouched, isRelation_retouched]
  rfl

theorem Field.functionName?_retouched (f : Field) :
    (f.retouched r).defaultValue.functionName? = f.defaultValue.functionName? :=
  r.functionName?_value f.defaultValue

/-! The functions of the checks. -/

theorem Field.selfRelationFindings_retouched (f : Field) (model : String) :
    (f.retouched r).selfRelationFindings model = f.selfRelationFindings model := by
  simp only [selfRelationFindings, blocksInsertion_retouched]
  rfl

theorem Field.keyCountFindings_retouched (f : Field) (model : String) :
    (f.retouched r).keyCountFindings model = f.keyCountFindings model := by
  simp [keyCountFindings]

namespace Model

theorem fieldNames_retouched (m : Model) : (m.retouched r).fieldNames = m.fieldNames := by
  simp [fieldNames]

theorem keyListFindings_retouched (m : Model) (kind : KeyKind) (names : List String) :
    (m.retouched r).keyListFindings kind names = m.keyListFindings kind names := by
  simp [keyListFindings, field?_retouched]

theorem uniqueFindings_retouched (m : Model) (names : List String) :
    (m.retouched r).uniqueFindings names = m.uniqueFindings names := by
  simp [uniqueFindings, keyListFindings_retouched]

theorem keyFindings_retouched (m : Model) : (m.retouched r).keyFindings = m.keyFindings := by
  have hids : (m.retouched r).idFieldNames = m.idFieldNames := by
    rw [idFieldNames, idFieldNames, items_fields_retouched, List.filter_map, List.map_map]
    rfl
  have hcomposite : (m.retouched r).hasCompositePrimaryKey = m.hasCompositePrimaryKey := by
    rw [hasCompositePrimaryKey, hasCompositePrimaryKey]
    change (m.primaryKey.map (PrimaryKey.retouched r)).any _ = _
    cases m.primaryKey <;> rfl
  have hprimary : (m.retouched r).primaryKey = m.primaryKey.map (PrimaryKey.retouched r) := rfl
  have hunique : (m.retouched r).uniqueFields.items =
      m.uniqueFields.items.map (Seq.reflagged r.flag) := rfl
  unfold keyFindings
  rw [hids, hcomposite, hprimary, hunique, List.flatMap_map]
  simp only [name_retouched, uniqueFindings_retouched, Seq.items_reflagged]
  cases m.primaryKey with
  | none => rfl
  | some key => simp only [Option.map_some, keyListFindings_retouched, PrimaryKey.retouched,
      Seq.items_reflagged]

end Model

namespace Schema

variable (s : Schema)

theorem modelNames_retouched : (s.retouched r).modelNames = s.modelNames := by
  simp [modelNames]

theorem waitsFor_retouched (m : Model) : (s.retouched r).waitsFor (m.retouched r) = s.waitsFor m := by
  simp only [waitsFor, Model.items_fields_retouched, List.filter_map, List.map_map,
    Function.comp_def, Field.blocksInsertion_retouched, Field.typeName_retouched, Model.name_retouched,
    model?_retouched, Option.isSome_map]

theorem successors_retouched : (s.retouched r).successors = s.successors := by
  funext name
  simp only [successors, items_models_retouched, List.filter_map, List.flatMap_map,
    Function.comp_def, Model.name_retouched, waitsFor_retouched]

theorem relationFindings_retouched (m : Model) (f : Field) :
    (s.retouched r).relationFindings (m.retouched r) (f.retouched r) = s.relationFindings m f := by
  simp only [relationFindings, model?_retouched, Field.typeName_retouched,
    Field.keyCountFindings_retouched, Field.fromNames_retouched, Field.toNames_retouched,
    Model.field?_retouched, Option.isNone_map]
  cases s.model? f.typeName with
  | none => rfl
  | some t => simp [Model.field?_retouched]

/-- Of the default of an enum field only a text is looked at. -/
theorem enumFieldFindings_eq (model : String) (f : Field) : s.enumFieldFindings model f =
    match s.enum? f.typeName with
    | none => [.unknownEnum model f.name f.typeName]
    | some e => f.defaultValue.text?.elim [] fun value =>
      if e.values.items.contains value then []
      else [.invalidEnumDefault model f.name e.name value] := by
  unfold enumFieldFindings
  cases s.enum? f.typeName with
  | none => rfl
  | some e => cases f.defaultValue <;> rfl

theorem enumFieldFindings_retouched (model : String) (f : Field) :
    (s.retouched r).enumFieldFindings model (f.retouched r) = s.enumFieldFindings model f := by
  have htext : (f.retouched r).defaultValue.text? = f.defaultValue.text? :=
    r.text?_value f.defaultValue
  rw [enumFieldFindings_eq, enumFieldFindings_eq, enum?_retouched, Field.typeName_retouched, htext]
  cases s.enum? f.typeName <;> rfl

/-! The checks. -/

theorem findingsOf_retouched (c : Check) : (s.retouched r).findingsOf c = s.findingsOf c := by
  cases c with
  | selfRelations =>
    simp only [findingsOf, selfRelationFindings, items_models_retouched, Model.items_fields_retouched,
      List.flatMap_map, Model.name_retouched, Field.selfRelationFindings_retouched]
  | circularDependencies =>
    simp only [findingsOf, circularFindings, successors_retouched, modelNames_retouched]
  | namingCollisions =>
    simp only [findingsOf, collisionFindings, modelCollisionFindings, enumCollisionFindings,
      fieldCollisionFindings, modelNames_retouched, items_models_retouched, items_enums_retouched,
      List.flatMap_map, List.map_map, List.filterMap_map, Model.name_retouched,
      Model.fieldNames_retouched]
    rfl
  | keys =>
    simp only [findingsOf, keyFindings, items_models_retouched, List.flatMap_map,
      Model.keyFindings_retouched]
  | relations =>
    simp only [findingsOf, targetFindings, items_models_retouched, Model.items_fields_retouched,
      List.flatMap_map, List.filter_map, Function.comp_def, Field.isRelation_retouched,
      relationFindings_retouched]
  | enums =>
    simp only [findingsOf, enumFindings, items_models_retouched, items_enums_retouched,
      Model.items_fields_retouched, List.flatMap_map, List.filter_map, List.map_map,
      Function.comp_def, Field.kind_retouched, Model.name_retouched, enumFieldFindings_retouched]
    rfl
  | fieldKinds =>
    simp only [findingsOf, kindFindings, items_models_retouched, Model.items_fields_retouched,
      List.flatMap_map, List.filter_map, List.map_map, Function.comp_def, Field.kind_retouched,
      Field.name_retouched, Field.typeName_retouched, Model.name_retouched]
  | defaultFunctions =>
    simp only [findingsOf, functionFindings, unknownFunction?, items_models_retouched,
      Model.items_fields_retouched, List.flatMap_map, List.filterMap_map, Function.comp_def,
      Field.functionName?_retouched, Field.name_retouched, Model.name_retouched]

theorem validate_retouched : (s.retouched r).validate = s.validate := by
  have hfindings : (s.retouched r).findingsOf = s.findingsOf := funext (s.findingsOf_retouched r)
  rw [validate, validate, findings, findings, hfindings]

end Schema

end EntitySchema
