import DosConsole.Json.Display
import DosConsole.Json.Quoted

/-!
# Writing a value

A value is written over several lines: each item and each field on a line of its own, two more
spaces in than the container, and empty containers without a line between the brackets. The text is
ASCII (`text`).

The text is handed over piece by piece, so that what was written so far is there when a value cannot
be written to its end (`Written`). The writer looks at one value at a time and sees its **shape**
only. So it does not matter whether values lie in each other or are known by references, and a value
that lies in itself is found out when it is met again.
-/

namespace DosConsole.Json

/-- Why a value was not written. -/
inductive WriteError where
  /-- The containers lie too deep in each other. -/
  | tooDeep
  /-- A whole number has more digits than are converted. -/
  | overlong
  /-- A container lies in itself. -/
  | circular
  deriving DecidableEq

def WriteError.message : WriteError → Text
  | .tooDeep => "maximum recursion depth exceeded"
  | .overlong => ShowError.overlong.message
  | .circular => "Circular reference detected"

/-- The text of a floating-point number. -/
def floatText : Binary64 → String
  | .nan => "NaN"
  | .infinite negative => if negative then "-Infinity" else "Infinity"
  | x => x.text

/-- The start of a line inside `level` containers. -/
def newLine (level : Nat) : String :=
  String.ofList ('\n' :: List.replicate (2 * level) ' ')

/-! ### The whole text -/

mutual

/-- The text of a value that stands inside `level` containers. -/
def render (level : Nat) : Json → String
  | .null => "null"
  | .bool b => if b then "true" else "false"
  | .int n => toString n
  | .float x => floatText x
  | .str t => Quoted.write t
  | .list [] => "[]"
  | .list (v :: rest) =>
    "[" ++ newLine (level + 1) ++ render (level + 1) v ++ renderItems (level + 1) rest ++
      newLine level ++ "]"
  | .object [] => "\x7b\x7d"
  | .object ((key, v) :: rest) =>
    "\x7b" ++ newLine (level + 1) ++ Quoted.write key ++ ": " ++ render (level + 1) v ++
      renderFields (level + 1) rest ++ newLine level ++ "\x7d"

/-- The text of the items after the first. -/
def renderItems (level : Nat) : List Json → String
  | [] => ""
  | v :: rest => "," ++ newLine level ++ render level v ++ renderItems level rest

/-- The text of the fields after the first. -/
def renderFields (level : Nat) : List (Text × Json) → String
  | [] => ""
  | (key, v) :: rest =>
    "," ++ newLine level ++ Quoted.write key ++ ": " ++ render level v ++ renderFields level rest

end

/-- The text of a value. -/
def text (v : Json) : String :=
  render 0 v

/-! ### Piece by piece -/

/-- What was written: the text so far, and what stopped the writing before its end. -/
structure Written where
  text : String
  trouble : Option WriteError

namespace Written

/-- A piece of text was written. -/
def piece (text : String) : Written :=
  ⟨text, none⟩

/-- The writing was stopped. -/
def stopped (cause : WriteError) : Written :=
  ⟨"", some cause⟩

/-- Writes more, unless the writing was stopped. -/
def followedBy (w more : Written) : Written :=
  match w.trouble with
  | some _ => w
  | none => ⟨w.text ++ more.text, more.trouble⟩

end Written

/-- What is to be seen of a value without looking into the values in it. -/
inductive Shape (α : Type) where
  /-- A value that holds no others, with its text if it has one. -/
  | plain (text : Except WriteError String)
  | list (items : List α)
  | object (fields : Fields α)
  /-- A value that lies in itself. -/
  | circular

namespace Shape

variable {α : Type} (see : α → Shape α) (inner : α → Written)

/-- Writes an item behind its lead, which is written by itself if the item holds others. -/
def writeItem (lead : String) (v : α) : Written :=
  match see v with
  | .plain (.error cause) => .stopped cause
  | _ => (Written.piece lead).followedBy (inner v)

/-- Writes the items behind their leads, the first of which is given. -/
def writeItems (level : Nat) : (lead : String) → List α → Written
  | _, [] => .piece ""
  | lead, v :: rest =>
    (writeItem see inner lead v).followedBy (writeItems level ("," ++ newLine level) rest)

/-- Writes the fields behind their leads, the first of which is given. -/
def writeFields (level : Nat) : (lead : String) → Fields α → Written
  | _, [] => .piece ""
  | lead, (key, v) :: rest =>
    ((Written.piece (lead ++ Quoted.write key ++ ": ")).followedBy (inner v)).followedBy
      (writeFields level ("," ++ newLine level) rest)

/-- Writes a value inside `level` containers, given how those in it are written if there may be
any. -/
def writeAt (inner : Option (α → Written)) (level : Nat) : Shape α → Written
  | .plain (.ok text) => .piece text
  | .plain (.error cause) => .stopped cause
  | .circular => .stopped .circular
  | .list [] => .piece "[]"
  | .object [] => .piece "\x7b\x7d"
  | .list (v :: rest) =>
    match inner with
    | none => .stopped .tooDeep
    | some inner =>
      (writeItems see inner (level + 1) ("[" ++ newLine (level + 1)) (v :: rest)).followedBy
        (.piece (newLine level ++ "]"))
  | .object (f :: rest) =>
    match inner with
    | none => .stopped .tooDeep
    | some inner =>
      (writeFields inner (level + 1) ("\x7b" ++ newLine (level + 1)) (f :: rest)).followedBy
        (.piece (newLine level ++ "\x7d"))

/-- Writes a value inside `level` containers, where `room` more may lie around each other. -/
def write : (room level : Nat) → α → Written
  | 0, level, v => (see v).writeAt see none level
  | room + 1, level, v => (see v).writeAt see (some (write room (level + 1))) level

end Shape

/-- The text of a value that holds no others. -/
def plainText : Json → Except WriteError String
  | .int n => if Whole.isOverlong n then .error .overlong else .ok (toString n)
  | v => .ok (render 0 v)

/-- The shape of a value. -/
def shape : Json → Shape Json
  | .list items => .list items
  | .object fields => .object fields
  | v => .plain v.plainText

/-- Writes a value. -/
def written (v : Json) : Written :=
  Shape.write shape nestingLimit 0 v

/-- The text of a value that can be written. -/
def write? (v : Json) : Except WriteError String :=
  match v.written with
  | ⟨text, none⟩ => .ok text
  | ⟨_, some cause⟩ => .error cause

end DosConsole.Json
