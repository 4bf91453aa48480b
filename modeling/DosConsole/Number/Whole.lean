import DosConsole.Text.Blank
import DosConsole.Text.Digit

/-!
# Whole numbers as people write them

A whole number is written with decimal digits of any script, which may be mixed, with an optional
sign in front. Single underscores may stand between digits, and blanks around the whole, except the
information separators U+001C to U+001F. A numeral of too many digits is not read.
-/

namespace DosConsole.Whole

/-- The most digits that the numeral of a whole number may have. -/
def digitLimit : Nat := 4300

/-- The numeral of a whole number would have more digits than it may. -/
def isOverlong (n : Int) : Bool :=
  decide (digitLimit < (Nat.toDigits 10 n.natAbs).length)

/-- A character that may stand around a numeral. -/
def isMargin (c : Symbol) : Bool :=
  Text.isBlank c && !(28 ≤ c.code && c.code ≤ 31)

/-- The text without the margin at either end. -/
def trimMargin (t : Text) : Text :=
  ((t.dropWhile isMargin).reverse.dropWhile isMargin).reverse

/-- The digits of a numeral, given whether the character before them was a digit. -/
def digits? (afterDigit : Bool) : Text → Option (List Nat)
  | [] => if afterDigit then some [] else none
  | c :: rest =>
    if c = '_' then if afterDigit then digits? false rest else none
    else
      match Text.digitValue? c with
      | none => none
      | some n => (digits? true rest).map (n :: ·)

/-- The value of a sequence of digits. -/
def ofDigits (digits : List Nat) : Nat :=
  digits.foldl (fun value n => value * 10 + n) 0

/-- The number that a numeral without a sign stands for. -/
def magnitude? (t : Text) : Option Nat :=
  match digits? false t with
  | none => none
  | some digits => if digitLimit < digits.length then none else some (ofDigits digits)

/-- The whole number that a text stands for. -/
def ofText? (t : Text) : Option Int :=
  match trimMargin t with
  | .char '-' :: rest => (magnitude? rest).map fun n => -(n : Int)
  | .char '+' :: rest => (magnitude? rest).map fun n => (n : Int)
  | rest => (magnitude? rest).map fun n => (n : Int)

end DosConsole.Whole
