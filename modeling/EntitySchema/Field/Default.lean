import EntitySchema.Decimal.Layout
import EntitySchema.Field.Basic
import EntitySchema.Text.Escape

/-!
# Defaults

Who fills in a default, the client or the database, and how a literal default is written in generated
source. The client evaluates `now`; every other function belongs to the database, unknown ones
included. So a function default is exactly one of the two, and a literal is neither.
-/

set_option autoImplicit false

namespace EntitySchema

def clientFunctions : List String := ["now"]

def databaseFunctions : List String := ["autoincrement", "uuid", "cuid", "dbgenerated"]

def timestampFields : List String := ["createdAt", "updatedAt"]

def isKnownFunction (name : String) : Bool :=
  clientFunctions.contains name || databaseFunctions.contains name

namespace Value

def functionName? : Value → Option String
  | .call _ name _ _ => some name
  | .map f entries => ((Value.map f entries).get "name").nonEmptyText?
  | _ => none

def isClientDefault (v : Value) : Bool := v.functionName?.any clientFunctions.contains

def isDatabaseDefault (v : Value) : Bool := v.functionName?.any fun n => !clientFunctions.contains n

theorem isClientDefault_xor_isDatabaseDefault (v : Value) :
    (v.isClientDefault ^^ v.isDatabaseDefault) = v.functionName?.isSome := by
  unfold isClientDefault isDatabaseDefault
  cases v.functionName? with
  | none => rfl
  | some n => simp

end Value

/-- The integers up to this size are exact in a double. -/
def maxSafeInteger : Int := Int.pow 2 53 - 1

/-- Types whose numbers need a literal syntax of their own. -/
def specialNumericTypes : List String := ["BigInt", "Decimal"]

namespace Decimal.Number

def isSafe (n : Number) : Bool :=
  match n with
  | .infinite _ => false
  | .notANumber => false
  | _ => !((Number.int maxSafeInteger).lt n) && !(n.lt (.int (-maxSafeInteger)))

end Decimal.Number

namespace Field

def numberLiteral? (typeName : String) (n : Decimal.Number) (text : String) : Option String :=
  if specialNumericTypes.contains typeName || !n.isSafe then none else some text

/-- A scalar default as a literal of generated source. There is none without a default, for an enum
field, for a function or a collection, and for numbers that a literal cannot hold. -/
def defaultLiteral? (f : Field) : Option String :=
  if !f.hasDefaultValue || f.kind == .enum then none
  else match f.defaultValue with
    | .null => some "null"
    | .bool b => some (if b then "true" else "false")
    | .int n => numberLiteral? f.typeName (.int n) (toString n)
    | .float x => numberLiteral? f.typeName (.ofFloat x) (Decimal.plainLayout.render x)
    | .text s => some ("\"" ++ escapeText s ++ "\"")
    | _ => none

def isIdentifierStart (c : Char) : Bool := c.isAlpha || c == '_' || c == '$'

def isIdentifierChar (c : Char) : Bool := c.isAlphanum || c == '_' || c == '$'

def isIdentifier : List Char → Bool
  | [] => false
  | c :: cs => isIdentifierStart c && cs.all isIdentifierChar

/-- An enum value that may follow a dot: an identifier, or an identifier and one newline. -/
def isDotted (cs : List Char) : Bool :=
  isIdentifier cs || (cs.getLast? == some '\n' && isIdentifier cs.dropLast)

/-- A qualified reference to the default of an enum field, in brackets if its name cannot follow a
dot. -/
def enumReference? (f : Field) : Option String :=
  if f.kind != .enum || !f.hasDefaultValue then none
  else match f.defaultValue with
    | .text s =>
      if isDotted s.toList then some (f.typeName ++ "." ++ s)
      else some (f.typeName ++ "[\"" ++ escapeText s ++ "\"]")
    | _ => none

/-- Whether create and update payloads hold the field: it is a scalar or enum field, and neither an
id nor read-only nor managed as an update time nor a timestamp filled in by the database. -/
def isWritable (f : Field) : Bool :=
  (f.kind == .scalar || f.kind == .enum)
    && !(f.isId || f.isReadOnly || f.isUpdatedAt
      || (f.hasDbDefault && timestampFields.contains f.name))

end Field

end EntitySchema
