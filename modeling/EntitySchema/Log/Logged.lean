import EntitySchema.Log.Warning

/-!
# Results with warnings

A result together with the warnings that arose on the way to it, in order.
-/

set_option autoImplicit false

namespace EntitySchema

structure Logged (α : Type) where
  value : α
  warnings : List Warning

namespace Logged

variable {α β : Type}

def warn (w : Warning) : Logged Unit := ⟨(), [w]⟩

instance : Monad Logged where
  pure a := ⟨a, []⟩
  bind x f := ⟨(f x.value).value, x.warnings ++ (f x.value).warnings⟩

@[simp] theorem value_pure (a : α) : (pure a : Logged α).value = a := rfl

@[simp] theorem warnings_pure (a : α) : (pure a : Logged α).warnings = [] := rfl

@[simp] theorem value_bind (x : Logged α) (f : α → Logged β) :
    (x >>= f).value = (f x.value).value := rfl

@[simp] theorem warnings_bind (x : Logged α) (f : α → Logged β) :
    (x >>= f).warnings = x.warnings ++ (f x.value).warnings := rfl

@[simp] theorem value_warn (w : Warning) : (warn w).value = () := rfl

@[simp] theorem warnings_warn (w : Warning) : (warn w).warnings = [w] := rfl

theorem pure_bind (a : α) (f : α → Logged β) : (pure a >>= f) = f a := rfl

theorem ext {x y : Logged α} (hv : x.value = y.value) (hw : x.warnings = y.warnings) : x = y := by
  cases x; cases y; cases hv; cases hw; rfl

end Logged

end EntitySchema
