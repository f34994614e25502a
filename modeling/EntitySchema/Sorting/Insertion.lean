/-!
# Sorting by binary insertion

A list is sorted in two phases. The run that it begins with is taken as it is, or backwards if it
falls. Every further element is put into its place, which is found by halving. The order may be a
computation that fails, and it need not be total: the elements that are compared, and in which order,
are fixed by the method alone.
-/

set_option autoImplicit false

namespace EntitySchema.Sorting

variable {α : Type} {m : Type → Type} [Monad m]

/-- The place of an element between two places of a sorted list: behind everything that it does not
come before. -/
def place (lt : α → α → m Bool) (a : α) (sorted : List α) (low high : Nat) : m Nat :=
  if _h : low < high then
    match sorted[low + (high - low) / 2]? with
    | none => pure low
    | some b => do
      if ← lt a b then place lt a sorted low (low + (high - low) / 2)
      else place lt a sorted (low + (high - low) / 2 + 1) high
  else pure low
termination_by high - low

def insertAll (lt : α → α → m Bool) (sorted : List α) : List α → m (List α)
  | [] => pure sorted
  | a :: rest => do
    let p ← place lt a sorted 0 sorted.length
    insertAll lt (sorted.take p ++ a :: sorted.drop p) rest

/-- Extends a run as long as it keeps falling, or keeps not falling. The last element comes first in
what is taken; the rest of the list is given back. -/
def extendRun (lt : α → α → m Bool) (falling : Bool) (last : α) (taken : List α) :
    List α → m (List α × List α)
  | [] => pure (taken, [])
  | a :: rest => do
    if (← lt a last) == falling then extendRun lt falling a (a :: taken) rest
    else pure (taken, a :: rest)

def sortM (lt : α → α → m Bool) : List α → m (List α)
  | [] => pure []
  | [a] => pure [a]
  | a :: b :: rest => do
    let falling ← lt b a
    let (taken, later) ← extendRun lt falling b [b, a] rest
    insertAll lt (if falling then taken else taken.reverse) later

def sort (lt : α → α → Bool) (as : List α) : List α := Id.run (sortM (fun a b => pure (lt a b)) as)

end EntitySchema.Sorting
