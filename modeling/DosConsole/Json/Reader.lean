import DosConsole.Json.Token

/-!
# Reading a value

A text is read token by token. What has been read of the containers that are still open is held in
a list of **frames**, the innermost first, so that no recursion follows the nesting of the text. Of
two fields with one key the value of the second is kept, in the place of the first.

Faults are found from left to right. A numeral is converted where a value must come, so that an
overlong one anywhere else is a fault of the format like any other token that must not come.
-/

namespace DosConsole.Json

/-- The two kinds of containers. -/
inductive Container where
  | list
  | object
  deriving DecidableEq

/-- Why a text was not read as a value. -/
inductive ReadError where
  /-- The bytes are not a text. -/
  | notText
  /-- The text does not follow the format. -/
  | malformed
  /-- A whole number has more digits than are converted. -/
  | overlong
  /-- The containers lie too deep in each other; the one that could not be opened is given. -/
  | tooDeep (container : Container)
  deriving DecidableEq

/-- A container that is still open, waiting for a value: a list with the items read so far, the
last first, or an object with the fields read so far and the key of the value that is awaited. -/
inductive Frame where
  | item (done : List Json)
  | field (done : Fields) (key : Text)

/-- How far a text has been read. -/
inductive Progress where
  /-- A value must come. -/
  | value (stack : List Frame)
  /-- A list was opened: its first item or its end must come. -/
  | listStart (stack : List Frame)
  /-- A list has items: a comma or its end must come. -/
  | listRest (done : List Json) (stack : List Frame)
  /-- An object was opened: its first key or its end must come. -/
  | objectStart (stack : List Frame)
  /-- A key must come. -/
  | nextKey (done : Fields) (stack : List Frame)
  /-- The colon after a key must come. -/
  | colon (done : Fields) (key : Text) (stack : List Frame)
  /-- An object has fields: a comma or its end must come. -/
  | objectRest (done : Fields) (stack : List Frame)
  /-- The value is complete, and nothing may come. -/
  | complete (value : Json)

namespace Progress

/-- Hands a value that was read to the container that waits for it. -/
def deliver (v : Json) : List Frame → Progress
  | [] => .complete v
  | .item done :: rest => .listRest (v :: done) rest
  | .field done key :: rest => .objectRest (done.put key v) rest

/-- Opens a container inside the open ones. The reader accepts one more than is ever written, since
an empty one may lie at the bottom. -/
def enter (c : Container) (stack : List Frame) : Except ReadError Progress :=
  if nestingLimit < stack.length then .error (.tooDeep c)
  else match c with
    | .list => .ok (.listStart stack)
    | .object => .ok (.objectStart stack)

/-- Starts a value inside the open containers. -/
def begin (t : Token) (stack : List Frame) : Except ReadError Progress :=
  match t with
  | .scalar v => .ok (deliver v stack)
  | .overlong => .error .overlong
  | .openList => enter .list stack
  | .openObject => enter .object stack
  | _ => .error .malformed

/-- Reads one token. -/
def step (p : Progress) (t : Token) : Except ReadError Progress :=
  match p, t with
  | .value k, t => begin t k
  | .listStart k, .closeList => .ok (deliver (.list []) k)
  | .listStart k, t => begin t (.item [] :: k)
  | .listRest done k, .comma => .ok (.value (.item done :: k))
  | .listRest done k, .closeList => .ok (deliver (.list done.reverse) k)
  | .objectStart k, .closeObject => .ok (deliver (.object []) k)
  | .objectStart k, .scalar (.str key) => .ok (.colon [] key k)
  | .nextKey done k, .scalar (.str key) => .ok (.colon done key k)
  | .colon done key k, .colon => .ok (.value (.field done key :: k))
  | .objectRest done k, .comma => .ok (.nextKey done k)
  | .objectRest done k, .closeObject => .ok (deliver (.object done) k)
  | _, _ => .error .malformed

/-- The value that was read, if no token may come. -/
def finish : Progress → Except ReadError Json
  | .complete v => .ok v
  | _ => .error .malformed

/-- Reads the rest of a text. -/
def run (p : Progress) (t : Text) : Except ReadError Json :=
  match _ht : t.dropWhile Token.isSpace with
  | [] => p.finish
  | c :: rest =>
    match _hc : Token.take? (c :: rest) with
    | none => .error .malformed
    | some (token, after) =>
      match p.step token with
      | .error e => .error e
      | .ok p => run p after
termination_by t.length
decreasing_by
  have hd := (List.dropWhile_suffix (l := t) Token.isSpace).length_le
  rw [_ht] at hd
  exact Nat.lt_of_lt_of_le (Token.length_take? _hc) hd

end Progress

/-- Reads a text that holds one value. -/
def read (t : Text) : Except ReadError Json :=
  Progress.run (.value []) t

/-- Reads bytes that hold the text of one value. -/
def readBytes (bytes : ByteArray) : Except ReadError Json :=
  match String.fromUTF8? bytes with
  | some s => read s
  | none => .error .notText

end DosConsole.Json
