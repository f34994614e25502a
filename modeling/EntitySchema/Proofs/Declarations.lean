import EntitySchema.Value.Basic

/-!
# Declarations

Documents and their parts as they are written: fields, models and enums with their names, and whatever
else is said of them. Concrete documents are put together from these.
-/

set_option autoImplicit false

namespace EntitySchema.Declaration

def members (entries : List (String × Value)) : Value :=
  .map 0 (entries.map fun e => (.text e.1, e.2))

def field (name typeName kind : String) (more : List (String × Value)) : Value :=
  members ([("name", .text name), ("type", .text typeName), ("kind", .text kind)] ++ more)

def model (name : String) (fields : List Value) (more : List (String × Value)) : Value :=
  members ([("name", .text name), ("fields", .seq false fields)] ++ more)

def enum (name : String) (values : List String) : Value :=
  members [("name", .text name),
    ("values", .seq false (values.map fun v => members [("name", .text v)]))]

def document (models enums : List Value) : Value :=
  members [("models", .seq false models), ("enums", .seq false enums)]

end EntitySchema.Declaration
