/-!
# Binary floating-point numbers

A `Binary64` is a number of the 64-bit binary format as mathematics sees it: not a number, an
infinity, or a sign with `significand * 2 ^ exponent`. Finite numbers are kept in their canonical
form: the exponent is at least `-1074`, the significand is below `2 ^ 53`, and it is at least
`2 ^ 52` unless the exponent is `-1074`. So two equal values differ only as plus and minus zero do.

A decimal numeral is read as the nearest number of the format (`ofDecimal`), of two equally near the
one with an even significand.
-/

namespace DosConsole

/-- A number of the 64-bit binary format. -/
inductive Binary64 where
  | nan
  | infinite (negative : Bool)
  | finite (negative : Bool) (significand : Nat) (exponent : Int)
  deriving DecidableEq, Inhabited

namespace Binary64

/-- Zero of either sign. -/
def zero (negative : Bool) : Binary64 :=
  .finite negative 0 (-1074)

/-- The quotient rounded to the nearest number, a tie to the even one. -/
def roundDiv (num den : Nat) : Nat :=
  let q := num / den
  let r := num % den
  if 2 * r < den then q
  else if den < 2 * r then q + 1
  else if q % 2 = 0 then q else q + 1

-- Powers are `Nat.pow` by name: what `^` stands for depends on the algebra that is imported.

/-- `num / den` in units of `2 ^ q`, as a quotient of two whole numbers. -/
def scale (num den : Nat) (q : Int) : Nat × Nat :=
  if 0 ≤ q then (num, den * Nat.pow 2 q.toNat) else (num * Nat.pow 2 (-q).toNat, den)

/-- The finite number or infinity with a significand of at most `2 ^ 53`. -/
def pack (negative : Bool) (significand : Nat) (exponent : Int) : Binary64 :=
  let (m, q) :=
    if significand = Nat.pow 2 53 then (Nat.pow 2 52, exponent + 1) else (significand, exponent)
  if 971 < q then .infinite negative else .finite negative m q

/-- The number of the format nearest to `num / den`, for a positive `den`. -/
def ofRatio (negative : Bool) (num den : Nat) : Binary64 :=
  if num = 0 then zero negative
  else
    let q := max ((num.log2 : Int) - den.log2 - 53) (-1074)
    let (n, d) := scale num den q
    if n / d < Nat.pow 2 53 then pack negative (roundDiv n d) q
    else
      let (n, d) := scale num den (q + 1)
      pack negative (roundDiv n d) (q + 1)

/-- The number nearest to `significand * 10 ^ exponent`. Magnitudes that are beyond the format on
either side are settled by the length of the numeral alone. -/
def ofDecimal (negative : Bool) (significand : Nat) (exponent : Int) : Binary64 :=
  if significand = 0 then zero negative
  else
    let magnitude := (Nat.toDigits 10 significand).length + exponent
    if 310 < magnitude then .infinite negative
    else if magnitude < -330 then zero negative
    else if 0 ≤ exponent then ofRatio negative (significand * Nat.pow 10 exponent.toNat) 1
    else ofRatio negative significand (Nat.pow 10 (-exponent).toNat)

/-- The number without its fraction, if it is finite. -/
def truncate? : Binary64 → Option Int
  | .finite negative m q =>
    let n : Nat := if 0 ≤ q then m * Nat.pow 2 q.toNat else m / Nat.pow 2 (-q).toNat
    some (if negative then -(n : Int) else n)
  | _ => none

/-- The number is at most `n`. -/
def isAtMost (n : Int) : Binary64 → Bool
  | .nan => false
  | .infinite negative => negative
  | .finite negative m q =>
    let s : Int := if negative then -(m : Int) else m
    if 0 ≤ q then decide (s * Nat.pow 2 q.toNat ≤ n) else decide (s ≤ n * Nat.pow 2 (-q).toNat)

/-- The number is zero, of either sign. -/
def isZero : Binary64 → Bool
  | .finite _ m _ => m == 0
  | _ => false

end Binary64

end DosConsole
