import EntitySchema.Live.Container
import EntitySchema.Live.Copies
import EntitySchema.Live.Relations
import EntitySchema.Live.Show

/-!
# Sessions

A sequence of steps on one live schema. A step names an object by a path, and perhaps a second one to
work with; both are found before the step runs. A step that fails changes nothing, and the next one
runs all the same.
-/

set_option autoImplicit false

namespace EntitySchema.Live

inductive Operand where
  | path (p : Path)
  | value (v : Value)
  | refused (fault : Fault)

inductive Action where
  | get
  | set (attr : String)
  | remove (attr : String)
  | append
  | clear
  | pop (index : Value)
  | setItem (index : Value)
  | freeze
  | getModel (name : Value)
  | getEnum (name : Value)
  | getField (name : Value)
  | target
  | mapNames
  | validate (checks : List Check)
  | analyze (frozen : Bool)
  | analyzeModel (frozen : Bool)
  | backReference (source target : Path)
  | unique (names : Value)
  | classify (source target : Path) (back : Option Path)
  | junction
  | edgeKey (model : String)
  | copy (frozen : Bool)
  | reverse (frozen : Bool)
  | enhance (frozen withReverse : Bool)
  /-- A request that cannot be understood, with its fault. -/
  | refused (fault : Fault)

structure Step where
  path : Path
  operand : Operand
  action : Action

inductive Reply where
  | shown (s : Shown)
  | removed
  | length (n : Nat)
  | flag (b : Bool)
  | name (s : Option String)
  | text (s : String)
  | names (entries : List (Value × Shown))
  | issues (r : Report)
  | analyses (as : List ModelAnalysis)
  | analysis (a : ModelAnalysis)
  | cardinality (c : Cardinality)

/-- What an action leaves to be told: an object that is still to be shown, or a finished reply. -/
inductive Outcome where
  | cell (c : Cell)
  | reply (r : Reply)

namespace Outcome

def ofCell? (c : Option Cell) : Outcome := cell (c.getD (.leaf .null))

def tell : Outcome → Edit Reply
  | cell c => do return .shown (← shown c)
  | reply r => return r

end Outcome

def mapNames (root : Cell) : Edit (List (Value × Shown)) := do
  match ← objectOf? (← stored root "_reverse_relation_map") with
  | some (_, .map _ entries) => entries.mapM fun e => do
    let names ← (← elements e.2).mapM (stored · "name")
    let frozen ← match ← objectOf? e.2 with
      | some (_, .seq frozen _) => pure frozen
      | _ => pure false
    return (e.1, .seq frozen (names.map Shown.ofLeaf))
  | _ => throw .noAttribute

def perform (root target operand : Cell) : Action → Edit Outcome
  | .get => return .cell target
  | .set attr => do return .cell (← setAttribute target attr operand)
  | .remove attr => do
    removeAttribute target attr
    return .reply .removed
  | .append => do return .reply (.length (← append target operand))
  | .clear => do return .reply (.length (← clear target))
  | .pop index => do return .reply (.length (← pop target index))
  | .setItem index => do return .reply (.length (← setItem target index operand))
  | .freeze => do
    freezeRecord target
    return .reply (.flag true)
  | .getModel name => do return .ofCell? (← modelNamed? target (← plant name))
  | .getEnum name => do return .ofCell? (← enumNamed? target (← plant name))
  | .getField name => do return .ofCell? (← fieldNamed? target (← plant name))
  | .target => do return .reply (.name (← targetName? root target))
  | .mapNames => do return .reply (.names (← mapNames root))
  | .validate checks => do return .reply (.issues (← report root checks))
  | .analyze frozen => do return .reply (.analyses (← analyses frozen root))
  | .analyzeModel frozen => do return .reply (.analysis (← analysisOf frozen root target))
  | .backReference source aim => do
    let source ← resolve root source
    let aim ← resolve root aim
    return .ofCell? (← backReference? target source aim)
  | .unique names => do return .reply (.flag (← areUnique target (← plant names)))
  | .classify source aim back => do
    let source ← resolve root source
    let aim ← resolve root aim
    let back ← back.mapM (resolve root)
    return .reply (.cardinality (← cardinalityOf target source aim back))
  | .junction => do return .reply (.flag (← isJunctionOf target))
  | .edgeKey model => do return .reply (.text (← edgeKey model target))
  | .copy frozen => do return .cell (← copyField frozen target)
  | .reverse frozen => do return .cell (← reverseIndex frozen root)
  | .enhance frozen withReverse => do
    let index ← if withReverse then some <$> reverseIndex frozen root else pure none
    return .cell (← withViews frozen index target)
  | .refused fault => throw fault

def runStep (root : Cell) (s : Step) : Edit Outcome := do
  let target ← resolve root s.path
  let operand ← match s.operand with
    | .path p => resolve root p
    | .value v => plant v
    | .refused fault => throw fault
  perform root target operand s.action

/-- Runs steps one after the other. A step that fails changes nothing; one that did its work stays
done even if its outcome cannot be told. -/
def runSteps (root : Cell) (store : Store) : List Step → List (Except Fault Reply)
  | [] => []
  | s :: rest =>
    match (runStep root s).run store with
    | .ok (outcome, next) => (outcome.tell.run' next) :: runSteps root next rest
    | .error fault => .error fault :: runSteps root store rest

def session (schema : Schema) (steps : List Step) : Except Fault (List (Except Fault Reply)) :=
  match (plantSchema schema).run Store.empty with
  | .ok (root, store) => .ok (runSteps root store steps)
  | .error fault => .error fault

end EntitySchema.Live
