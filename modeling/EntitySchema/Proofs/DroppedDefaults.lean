import EntitySchema.Proofs.Typed.Carried
import EntitySchema.Proofs.WarningCount

/-!
# Dropped defaults

A default that no field can have is dropped with a warning, and null is kept in its place. Whether the
field has a default is a matter of its own, though, and a default that is declared to be null is kept as
null as well. So the literal of a field tells a dropped default from no default only where the field is
not declared to have one, or where it is an enum field and has no literal anyway.
-/

set_option autoImplicit false

namespace EntitySchema

def FieldNode.DropsDefault (node : FieldNode) (frozen : Bool) (model : String)
    (keyFields : List String) : Prop :=
  ∃ value,
    .malformedDefault (model ++ "." ++ node.name) value ∈
      (Field.ofNode frozen model keyFields node).warnings ∨
    .unsupportedDefault (model ++ "." ++ node.name) value ∈
      (Field.ofNode frozen model keyFields node).warnings

structure Value.DeclaresLiteral (raw : Value) : Prop where
  hasDefault : raw.get "hasDefaultValue" = .bool true
  notEnum : raw.get "kind" ≠ .text "enum"

namespace Value

variable {frozen : Bool} {owner : String} {raw : Value}

theorem value_keptDefault_of_isRefusedDefault (h : raw.isRefusedDefault = true) :
    (raw.keptDefault frozen owner).value = .null := by
  cases raw with
  | map views entries =>
    rw [isRefusedDefault, Option.isNone_iff_eq_none] at h
    rw [keptDefault, h]
    rfl
  | bytes => rfl
  | call => rfl
  | _ => cases h

theorem exists_warning_of_isRefusedDefault (h : raw.isRefusedDefault = true) :
    .malformedDefault owner raw ∈ (raw.keptDefault frozen owner).warnings ∨
      .unsupportedDefault owner raw ∈ (raw.keptDefault frozen owner).warnings := by
  cases raw with
  | map views entries =>
    rw [isRefusedDefault, Option.isNone_iff_eq_none] at h
    rw [keptDefault, h]
    exact .inl List.mem_cons_self
  | bytes => exact .inr List.mem_cons_self
  | call => exact .inr List.mem_cons_self
  | _ => cases h

theorem warnings_keptDefault_of_kept (h : raw.isRefusedDefault = false) :
    (raw.keptDefault frozen owner).warnings = [] := by
  rw [← List.length_eq_zero_iff, length_warnings_keptDefault, h]
  rfl

end Value

namespace Field

variable {frozen : Bool} {model : String} {keyFields : List String} {node : FieldNode}

theorem warnings_ofNode : (ofNode frozen model keyFields node).warnings =
    (if FieldKind.ofDeclared node.kind = .unsupported then
      [.unsupportedKind (model ++ "." ++ node.name) node.kind] else []) ++
      (node.defaultValue.keptDefault frozen (model ++ "." ++ node.name)).warnings := by
  unfold ofNode
  by_cases hkind : FieldKind.ofDeclared node.kind = .unsupported
  · simp [hkind]
  · simp [hkind]

/-- Which defaults are dropped. -/
theorem dropsDefault_iff :
    node.DropsDefault frozen model keyFields ↔ node.defaultValue.isRefusedDefault = true := by
  constructor
  · rintro ⟨value, hwarned⟩
    rw [warnings_ofNode] at hwarned
    by_contra hkept
    rw [Value.warnings_keptDefault_of_kept (Bool.not_eq_true _ ▸ hkept), List.append_nil] at hwarned
    split at hwarned <;> simp at hwarned
  · intro hrefused
    refine ⟨node.defaultValue, ?_⟩
    rw [warnings_ofNode, List.mem_append, List.mem_append]
    exact (Value.exists_warning_of_isRefusedDefault hrefused).imp .inr .inr

/-- A dropped default leaves the field that null in its place would have given. -/
theorem value_ofNode_of_dropsDefault (h : node.DropsDefault frozen model keyFields) :
    (ofNode frozen model keyFields node).value =
      (ofNode frozen model keyFields { node with defaultValue := .null }).value := by
  rw [value_ofNode, value_ofNode,
    Value.value_keptDefault_of_isRefusedDefault (dropsDefault_iff.mp h)]
  rfl

/-- The literal of a field that keeps null for its default. -/
theorem defaultLiteral?_of_null {f : Field} (h : f.defaultValue = .null) : f.defaultLiteral? =
    if f.hasDefaultValue = true ∧ f.kind ≠ .enum then some "null" else none := by
  unfold defaultLiteral?
  by_cases hd : f.hasDefaultValue = true
  · by_cases hk : f.kind = .enum
    · simp [hk]
    · simp [h, hd, hk]
  · simp [hd]

end Field

/-- Whether a field that keeps null may have a literal stands in its declaration. -/
theorem Value.declaresLiteral_iff {raw : Value} {node : FieldNode} (h : raw.fieldNode? = some node)
    (frozen : Bool) (model : String) (keyFields : List String) :
    (Field.ofParts frozen model keyFields node .null).hasDefaultValue = true ∧
      (Field.ofParts frozen model keyFields node .null).kind ≠ .enum ↔ raw.DeclaresLiteral := by
  have hcarried := (fieldNode?_eq_some_iff raw node).mp h
  have hword : raw.get "kind" = .text node.kind :=
    (at?_eq_some_iff (Value.noConfusion : Value.text node.kind = .null → False)).mp hcarried.kind.1
  have hkind : (Field.ofParts frozen model keyFields node .null).kind = .enum ↔
      raw.get "kind" = .text "enum" := by
    rw [hword, Value.text.injEq]
    exact FieldKind.ofDeclared_eq_iff (by decide) _
  have hflag : (Field.ofParts frozen model keyFields node .null).hasDefaultValue = true ↔
      raw.get "hasDefaultValue" = .bool true := by
    have hmember : (raw.get "hasDefaultValue").Optionally IsFlag node.hasDefaultValue :=
      hcarried.hasDefaultValue
    cases hset : node.hasDefaultValue with
    | none =>
      have hnull : raw.get "hasDefaultValue" = .null := by simpa [hset, Optionally] using hmember
      simp [Field.ofParts, hset, hnull, isNull]
    | some b =>
      have hbool : raw.get "hasDefaultValue" = .bool b := by
        simpa [hset, Optionally, IsFlag] using hmember
      simp [Field.ofParts, hset, hbool]
  rw [hflag, ne_eq, hkind]
  exact ⟨fun hd => ⟨hd.1, hd.2⟩, fun hd => ⟨hd.hasDefault, hd.notEnum⟩⟩

/-- A field whose default was dropped is the one that an explicit null would have given, whatever else
its declaration says. So it has the literal null if the declaration says that it has a default and is not
that of an enum field, and no literal otherwise. -/
theorem Field.dropped_default_literal_iff {raw : Value} {node : FieldNode}
    (h : raw.fieldNode? = some node) {frozen : Bool} {model : String} {keyFields : List String}
    (hdropped : node.DropsDefault frozen model keyFields) :
    (ofNode frozen model keyFields node).value =
      (ofNode frozen model keyFields { node with defaultValue := .null }).value ∧
    ((ofNode frozen model keyFields node).value.defaultLiteral? = some "null" ↔ raw.DeclaresLiteral) ∧
    ((ofNode frozen model keyFields node).value.defaultLiteral? = none ↔ ¬ raw.DeclaresLiteral) := by
  have hnull : (node.defaultValue.keptDefault frozen (model ++ "." ++ node.name)).value = .null :=
    Value.value_keptDefault_of_isRefusedDefault (dropsDefault_iff.mp hdropped)
  refine ⟨value_ofNode_of_dropsDefault hdropped, ?_⟩
  rw [value_ofNode, hnull, defaultLiteral?_of_null rfl,
    ← Value.declaresLiteral_iff h frozen model keyFields]
  split
  · next hliteral => simp [hliteral]
  · next hliteral => simp [hliteral]

/-! The code of a ticket, with a default function that has no name. -/

def ticketCode : Value :=
  Declaration.field "code" "String" "scalar" [("hasDefaultValue", .bool true),
    ("default", Declaration.members [("args", .seq false [])])]

theorem Field.dropped_default_literal_iff_ticketCode :
    ∃ node, ticketCode.fieldNode? = some node ∧ node.DropsDefault true "Ticket" [] ∧
      (ofNode true "Ticket" [] node).value.defaultLiteral? = some "null" := by
  obtain ⟨node, hnode, hrefused⟩ : ∃ node, ticketCode.fieldNode? = some node ∧
      node.defaultValue.isRefusedDefault = true := ⟨_, rfl, rfl⟩
  have hdropped : node.DropsDefault true "Ticket" [] := dropsDefault_iff.mpr hrefused
  have hscalar : ticketCode.get "kind" = .text "scalar" := rfl
  refine ⟨node, hnode, hdropped, ?_⟩
  exact (dropped_default_literal_iff hnode hdropped).2.1.mpr ⟨rfl, by simp [hscalar]⟩

/-- It is not so that a field has no literal where its default was dropped. -/
theorem Field.dropped_defaults_may_be_written :
    ¬ ∀ (raw : Value) (node : FieldNode), raw.fieldNode? = some node →
      ∀ (frozen : Bool) (model : String) (keyFields : List String),
        node.DropsDefault frozen model keyFields →
        (ofNode frozen model keyFields node).value.defaultLiteral? = none := by
  intro hnone
  have hticket := hnone ticketCode _ rfl true "Ticket" [] (dropsDefault_iff.mpr rfl)
  cases hticket

end EntitySchema
