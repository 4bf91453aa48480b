import DosConsole.Number.Binary64

/-!
# The shortest decimal numeral of a number

Of all decimal numerals that read back as a given finite number, `Binary64.shortest` takes one with
the fewest digits, and of those the nearest to the number. The search is exact: the reals that read
back form an interval around the value, and for one digit, two digits and so on the two neighbours
of the value on that decimal grid are tested; seventeen digits always suffice.

`Binary64.text` writes that numeral. The decimal point is written out where it falls near the
digits, from three zeros after the point to sixteen digits before it; other numerals have one digit
before the point and an exponent of at least two digits.
-/

namespace DosConsole.Binary64

/-- The first number from `start` on that satisfies `p`, looking at no more than `fuel` of them. -/
def firstFrom (p : Nat → Bool) : (fuel start : Nat) → Nat
  | 0, start => start
  | fuel + 1, start => if p start then start else firstFrom p fuel (start + 1)

/-- The place of the decimal point of a positive quotient of the format: the integer `k` with
`10 ^ (k - 1) ≤ num / den < 10 ^ k`. No number of the format needs more than 400 trials. -/
def decimalPoint (num den : Nat) : Int :=
  if den ≤ num then firstFrom (fun k => decide (num < den * Nat.pow 10 k)) 400 1
  else 1 - (firstFrom (fun j => decide (den ≤ num * Nat.pow 10 j)) 400 1 : Nat)

/-- The reals that read back as `significand * 2 ^ exponent`, in quarters of `2 ^ exponent`. The gap
below a power of two is half the gap above it. The ends belong to the interval iff the significand
is even. -/
def readsBack (significand : Nat) (exponent : Int) : Nat × Nat :=
  let below := if significand = Nat.pow 2 52 ∧ -1074 < exponent then 1 else 2
  (4 * significand - below, 4 * significand + 2)

/-- The numeral of `digits` digits that reads back and is nearest to the value, if there is one.
One quarter of the unit of the value is `up / down` steps of the grid of these numerals. -/
def onGrid? (significand : Nat) (exponent : Int) (up down : Nat) : Option Nat :=
  let (low, high) := readsBack significand exponent
  let even := significand % 2 == 0
  let value := 4 * significand * up
  let c := value / down
  let lower := if even then decide (low * up ≤ c * down) else decide (low * up < c * down)
  let upper :=
    if even then decide ((c + 1) * down ≤ high * up) else decide ((c + 1) * down < high * up)
  match lower, upper with
  | true, true =>
    if 2 * value < (2 * c + 1) * down then some c
    else if (2 * c + 1) * down < 2 * value then some (c + 1)
    else some (if c % 2 = 0 then c else c + 1)
  | true, false => some c
  | false, true => some (c + 1)
  | false, false => none

/-- A power of two as a quotient of two whole numbers. -/
def powerOfTwo (exponent : Int) : Nat × Nat :=
  if 0 ≤ exponent then (Nat.pow 2 exponent.toNat, 1) else (1, Nat.pow 2 (-exponent).toNat)

/-- The shortest numeral that reads back as the positive number `significand * 2 ^ exponent`: its
digits as a number, and the power of ten of the last digit. -/
def shortest (significand : Nat) (exponent : Int) : Nat × Int :=
  let (n, d) := powerOfTwo (exponent - 2)
  let point := decimalPoint (4 * significand * n) d
  let attempt (digits : Nat) : Option (Nat × Int) :=
    let last := point - digits
    let (up, down) :=
      if 0 ≤ last then (n, d * Nat.pow 10 last.toNat) else (n * Nat.pow 10 (-last).toNat, d)
    (onGrid? significand exponent up down).map (·, last)
  ((List.range' 1 17).findSome? attempt).getD (0, 0)

/-- The digits without the zeros at their end. -/
def dropZeros (digits : List Char) : List Char :=
  (digits.reverse.dropWhile (· == '0')).reverse

/-- The numeral with the given significant digits and the decimal point after `point` of them. -/
def numeral (digits : List Char) (point : Int) : List Char :=
  if -4 < point ∧ point ≤ 16 then
    if point ≤ 0 then '0' :: '.' :: (List.replicate (-point).toNat '0' ++ digits)
    else
      let whole := digits.take point.toNat
      let fraction := digits.drop point.toNat
      whole ++ List.replicate (point.toNat - whole.length) '0' ++
        '.' :: (if fraction.isEmpty then ['0'] else fraction)
  else
    let exponent := point - 1
    let places := Nat.toDigits 10 exponent.natAbs
    digits.take 1 ++ (if digits.length ≤ 1 then [] else '.' :: digits.drop 1) ++
      'e' :: (if exponent < 0 then '-' else '+') ::
        (List.replicate (2 - places.length) '0' ++ places)

/-- The text of a number. -/
def text : Binary64 → String
  | .nan => "nan"
  | .infinite negative => if negative then "-inf" else "inf"
  | .finite negative m q =>
    let digits :=
      if m = 0 then ['0', '.', '0']
      else
        let (c, last) := shortest m q
        let cs := Nat.toDigits 10 c
        numeral (dropZeros cs) (last + cs.length)
    String.ofList (if negative then '-' :: digits else digits)

end DosConsole.Binary64
