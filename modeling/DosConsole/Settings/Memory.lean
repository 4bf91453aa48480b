import DosConsole.Json.Writer
import DosConsole.Settings.Value

/-!
# Values that are held by reference

Whoever holds an object of the settings holds the object itself, not a copy of it: a **reference**
to an object is its number in the **memory**. What is put into an object is seen by all that hold
it, in however many places it stands. All other values are the same wherever they stand.

To make a value is to make new objects for it (`Memory.make`), which nobody else holds. A reference
stands for the value that is found behind it (`Memory.value`). An object that was put into itself
has no end; it cannot be written, which is found out when it is met again (`Memory.shape`).
-/

namespace DosConsole

/-- What stands for a value: the value itself, or the number of an object. -/
inductive Ref where
  | null
  | bool (value : Bool)
  | int (value : Int)
  | float (value : Binary64)
  | str (value : Text)
  | list (items : List Ref)
  | object (number : Nat)
  deriving Inhabited

namespace Ref

/-- The value with nothing in it. -/
def outline : Ref → Json
  | .null => .null
  | .bool b => .bool b
  | .int n => .int n
  | .float x => .float x
  | .str t => .str t
  | .list _ => .list []
  | .object _ => .object []

mutual

/-- The value that a reference stands for, given the fields of all objects. -/
def value (fields : Nat → Json.Fields) : Ref → Json
  | .null => .null
  | .bool b => .bool b
  | .int n => .int n
  | .float x => .float x
  | .str t => .str t
  | .list items => .list (values fields items)
  | .object number => .object (fields number)

/-- The values that references stand for, in order. -/
def values (fields : Nat → Json.Fields) : List Ref → List Json
  | [] => []
  | r :: rest => value fields r :: values fields rest

end

end Ref

/-- The **memory** holds the objects by their numbers. -/
structure Memory where
  objects : List (Json.Fields Ref)
  deriving Inhabited

namespace Memory

/-- A memory without objects. -/
def empty : Memory :=
  ⟨[]⟩

/-- The number of objects. -/
def size (m : Memory) : Nat :=
  m.objects.length

/-- The fields of an object. -/
def fieldsOf (m : Memory) (number : Nat) : Json.Fields Ref :=
  m.objects.getD number []

/-- A new object, with its number. -/
def new (m : Memory) (fields : Json.Fields Ref) : Memory × Nat :=
  (⟨m.objects ++ [fields]⟩, m.size)

/-- Gives a key of an object a value. -/
def put (m : Memory) (number : Nat) (key : Text) (r : Ref) : Memory :=
  ⟨m.objects.modify number (·.put key r)⟩

mutual

/-- Makes a value, with new objects. -/
def make (m : Memory) : Json → Memory × Ref
  | .null => (m, .null)
  | .bool b => (m, .bool b)
  | .int n => (m, .int n)
  | .float x => (m, .float x)
  | .str t => (m, .str t)
  | .list items =>
    let (m, refs) := makeItems m items
    (m, .list refs)
  | .object fields =>
    let (m, refs) := makeFields m fields
    let (m, number) := m.new refs
    (m, .object number)

/-- Makes the items of a list, in order. -/
def makeItems (m : Memory) : List Json → Memory × List Ref
  | [] => (m, [])
  | v :: rest =>
    let (m, r) := make m v
    let (m, refs) := makeItems m rest
    (m, r :: refs)

/-- Makes the fields of an object, in order. -/
def makeFields (m : Memory) : List (Text × Json) → Memory × Json.Fields Ref
  | [] => (m, [])
  | (key, v) :: rest =>
    let (m, r) := make m v
    let (m, refs) := makeFields m rest
    (m, (key, r) :: refs)

end

/-! ### What references stand for -/

/-- The fields of an object with their values, where objects may lie `room` deep in each other. -/
def fieldsWithin (m : Memory) : (room : Nat) → (number : Nat) → Json.Fields
  | 0, _ => []
  | room + 1, number => (m.fieldsOf number).map fun f => (f.1, f.2.value (m.fieldsWithin room))

/-- The fields of an object with their values. Unless an object lies in itself, no more of them lie
in each other than there are. -/
def fields (m : Memory) (number : Nat) : Json.Fields :=
  m.fieldsWithin m.size number

/-- The value that a reference stands for. -/
def value (m : Memory) (r : Ref) : Json :=
  r.value m.fields

/-- The reference that a list of keys leads to. -/
def follow? (m : Memory) : Ref → List Text → Option Ref
  | r, [] => some r
  | .object number, key :: rest =>
    match (m.fieldsOf number).get? key with
    | none => none
    | some r => m.follow? r rest
  | _, _ :: _ => none

/-- The shape of a value that is held by a reference and lies in the objects around it. -/
def shape (m : Memory) : List Nat × Ref → Json.Shape (List Nat × Ref)
  | (around, .object number) =>
    if number ∈ around then .circular
    else .object ((m.fieldsOf number).map fun f => (f.1, (number :: around, f.2)))
  | (around, .list items) => .list (items.map fun r => (around, r))
  | (_, r) => .plain r.outline.plainText

/-- Writes the value that a reference stands for. -/
def written (m : Memory) (r : Ref) : Json.Written :=
  Json.Shape.write m.shape Json.nestingLimit 0 ([], r)

/-! ### Assigning -/

/-- Assigns the value that a list of keys leads to. An object that is missing on the way is made
when it is come to. -/
def assign (m : Memory) (r : Ref) :
    (keys : List Text) → (target : Ref) → Memory × Except Json.AssignError Unit
  | [], _ => (m, .ok ())
  | [key], .object number => (m.put number key r, .ok ())
  | [_], .list _ => (m, .error .insideList)
  | [_], target => (m, .error (.notAssignable target.outline.kind))
  | key :: rest, .object number =>
    match (m.fieldsOf number).get? key with
    | some inner => m.assign r rest inner
    | none =>
      let (m, made) := m.new []
      (m.put number key (.object made)).assign r rest (.object made)
  | key :: _, target => (m, .error (Json.obstacle key target.outline))

end Memory

end DosConsole
