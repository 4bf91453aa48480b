import DosConsole.Number.Binary64
import DosConsole.Text.Symbol

/-!
# Values of the data format

A `Json` value is what a settings file or a snapshot file holds. Whole numbers have any size, other
numbers are binary floating-point numbers, and an object keeps its fields in the order in which
they were first written, each key once.
-/

namespace DosConsole

/-- A value of the data format. -/
inductive Json where
  | null
  | bool (value : Bool)
  | int (value : Int)
  | float (value : Binary64)
  | str (value : Text)
  | list (items : List Json)
  | object (fields : List (Text × Json))
  deriving Inhabited

namespace Json

/-- The **fields** of an object, in order. -/
abbrev Fields (α : Type := Json) := List (Text × α)

section Fields

variable {α : Type}

/-- The value of a key. -/
def Fields.get? (fields : Fields α) (key : Text) : Option α :=
  fields.lookup key

/-- Gives a key a value: in its place if the object has the key, and at the end if not. -/
def Fields.put (fields : Fields α) (key : Text) (value : α) : Fields α :=
  match fields with
  | [] => [(key, value)]
  | (k, v) :: rest => if k = key then (k, value) :: rest else (k, v) :: Fields.put rest key value

end Fields

/-- The word for the kind of a value in a message. -/
def kind : Json → String
  | .null => "NoneType"
  | .bool _ => "bool"
  | .int _ => "int"
  | .float _ => "float"
  | .str _ => "str"
  | .list _ => "list"
  | .object _ => "dict"

/-- A value **counts as true** unless it is null, false, zero or empty. -/
def isTrue : Json → Bool
  | .null => false
  | .bool b => b
  | .int n => n != 0
  | .float x => !x.isZero
  | .str t => !t.isEmpty
  | .list items => !items.isEmpty
  | .object fields => !fields.isEmpty

/-- The most containers that may lie around each other in a value that is written. -/
def nestingLimit : Nat := 990

end Json

end DosConsole
