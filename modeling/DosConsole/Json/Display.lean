import DosConsole.Json.Basic
import DosConsole.Number.Shortest
import DosConsole.Number.Whole
import DosConsole.Text.Literal

/-!
# Showing a value

How a value is shown to the user in one line. A string is shown as it is when it stands alone
(`display`), and between quotes inside a list or an object or where a message quotes a value
(`literal`).

Not every value can be shown. Numbers that are too long to be read are too long to be shown as well,
and so are values that lie too deep in each other, which a value that was read never is
(`obstruction?`). Therefore a form is only taken where it is known to be there, or else with the
reason why there is none (`quote?`, `show?`).
-/

namespace DosConsole.Json

mutual

/-- The form of a value inside a message. -/
def literal : Json → Text
  | .null => "None"
  | .bool b => if b then "True" else "False"
  | .int n => toString n
  | .float x => x.text
  | .str t => t.literal
  | .list items => "[" ++ literalItems items ++ "]"
  | .object fields => "\x7b" ++ literalFields fields ++ "\x7d"

/-- The forms of the items, with commas between them. -/
def literalItems : List Json → Text
  | [] => []
  | [v] => literal v
  | v :: rest => literal v ++ ", " ++ literalItems rest

/-- The forms of the fields, with commas between them. -/
def literalFields : List (Text × Json) → Text
  | [] => []
  | [(key, v)] => key.literal ++ ": " ++ literal v
  | (key, v) :: rest => key.literal ++ ": " ++ literal v ++ ", " ++ literalFields rest

end

/-- The form of a value on a line of its own. -/
def display : Json → Text
  | .str t => t
  | v => v.literal

/-! ### What cannot be shown -/

/-- Why a value cannot be shown. -/
inductive ShowError where
  /-- The values lie too deep in each other. -/
  | tooDeep
  /-- A whole number has more digits than are converted. -/
  | overlong
  deriving DecidableEq

def ShowError.message : ShowError → Text
  | .tooDeep => "maximum recursion depth exceeded while getting the repr of an object"
  | .overlong =>
    "Exceeds the limit (" ++ toString Whole.digitLimit ++ " digits) for integer string " ++
      "conversion; use sys.set_int_max_str_digits() to increase the limit"

mutual

/-- What is in the way of showing a value, if it and the values in it may lie `room` deep in each
other. They are shown from left to right, so that the first obstacle counts. -/
def obstruction? : (room : Nat) → Json → Option ShowError
  | 0, _ => some .tooDeep
  | _ + 1, .int n => if Whole.isOverlong n then some .overlong else none
  | room + 1, .list items => itemObstruction? room items
  | room + 1, .object fields => fieldObstruction? room fields
  | _ + 1, _ => none

/-- What is in the way of showing the items. -/
def itemObstruction? (room : Nat) : List Json → Option ShowError
  | [] => none
  | v :: rest => (obstruction? room v).or (itemObstruction? room rest)

/-- What is in the way of showing the values of the fields. -/
def fieldObstruction? (room : Nat) : List (Text × Json) → Option ShowError
  | [] => none
  | (_, v) :: rest => (obstruction? room v).or (fieldObstruction? room rest)

end

/-- How deep values may lie in each other where they are shown: a little deeper than where they are
read, since less is going on around it. -/
def showingLimit : Nat := nestingLimit + 3

/-- Nothing is in the way of showing the value. -/
def isShowable (v : Json) : Bool :=
  (obstruction? showingLimit v).isNone

/-- The form of a value inside a message, where values may lie `room` deep in each other. -/
def quote? (room : Nat) (v : Json) : Except ShowError Text :=
  match obstruction? room v with
  | none => .ok v.literal
  | some cause => .error cause

/-- The form of a value on a line of its own, unless something is in the way of showing it. -/
def show? : Json → Except ShowError Text
  | .str t => .ok t
  | v => v.quote? showingLimit

theorem quote?_of_isShowable {v : Json} (h : v.isShowable = true) :
    v.quote? showingLimit = .ok v.literal := by
  rw [quote?, Option.isNone_iff_eq_none.mp h]

theorem quote?_of_not_isShowable {v : Json} (h : ¬ v.isShowable = true) :
    ∃ cause, v.quote? showingLimit = .error cause := by
  rw [isShowable, Bool.not_eq_true, Option.isNone_eq_false_iff, Option.isSome_iff_exists] at h
  obtain ⟨cause, hcause⟩ := h
  exact ⟨cause, by rw [quote?, hcause]⟩

theorem show?_of_isShowable {v : Json} (h : v.isShowable = true) : v.show? = .ok v.display := by
  cases v with
  | str t => rfl
  | _ => exact quote?_of_isShowable h

theorem show?_of_not_isShowable {v : Json} (h : ¬ v.isShowable = true) :
    ∃ cause, v.show? = .error cause := by
  cases v with
  | str t => exact absurd rfl h
  | _ => exact quote?_of_not_isShowable h

end DosConsole.Json
