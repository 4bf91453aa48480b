import DosConsole.Json.Basic
import DosConsole.Number.Whole

/-!
# Numerals of the data format

A numeral is an optional minus sign, the digits of the whole part, which start with a zero only if
they are nothing else, and then optionally a point with digits and an exponent. A numeral with a
point or an exponent stands for a floating-point number and any other for a whole number, unless it
has more digits than are converted.

`Numeral.take?` takes the longest numeral off the front of a text.
-/

namespace DosConsole.Json

/-- A numeral by its parts, the digits as they are written. -/
structure Numeral where
  negative : Bool
  whole : Text
  fraction : Text
  exponent : Option Int
  deriving DecidableEq

namespace Numeral

/-- A digit of a numeral. -/
def isDigit (c : Symbol) : Bool :=
  decide (48 ≤ c.code) && decide (c.code < 58)

/-- The number that digits stand for. -/
def digitsValue (digits : Text) : Nat :=
  Whole.ofDigits (digits.map fun c => c.code - 48)

/-- The number with a sign. -/
def signed (negative : Bool) (n : Nat) : Int :=
  if negative then -n else n

/-- The value of a numeral; a whole number of too many digits has none. -/
def value? (n : Numeral) : Option Json :=
  match n.fraction, n.exponent with
  | [], none =>
    if Whole.digitLimit < n.whole.length then none
    else some (.int (signed n.negative (digitsValue n.whole)))
  | fraction, exponent =>
    some (.float (.ofDecimal n.negative (digitsValue (n.whole ++ fraction))
      (exponent.getD 0 - fraction.length)))

/-! ### Taking a numeral off a text -/

/-- The digits at the front of a text, and the text after them. -/
def spanDigits (t : Text) : Text × Text :=
  (t.takeWhile isDigit, t.dropWhile isDigit)

/-- The digits of the whole part: a single zero, or digits that do not start with one. -/
def wholePart? : Text → Option (Text × Text)
  | [] => none
  | c :: rest =>
    if c = '0' then some ([c], rest)
    else if isDigit c then some (spanDigits (c :: rest))
    else none

/-- The digits after the point, if there is a point that digits follow. -/
def fractionPart : Text → Text × Text
  | .char '.' :: c :: rest => if isDigit c then spanDigits (c :: rest) else ([], '.' :: c :: rest)
  | t => ([], t)

/-- The digits of an exponent after its sign. -/
def exponentDigits? (negative : Bool) (t : Text) : Option (Int × Text) :=
  let (digits, rest) := spanDigits t
  if digits.isEmpty then none else some (signed negative (digitsValue digits), rest)

/-- The value of digits with an optional sign before them, and the text after them. -/
def signedDigits? : Text → Option (Int × Text)
  | .char '-' :: rest => exponentDigits? true rest
  | .char '+' :: rest => exponentDigits? false rest
  | rest => exponentDigits? false rest

/-- The exponent, if there is one. -/
def exponentPart? : Text → Option (Int × Text)
  | [] => none
  | e :: rest => if e = 'e' ∨ e = 'E' then signedDigits? rest else none

/-- The numeral at the front of a text after its sign, and the text after it. -/
def takeUnsigned? (negative : Bool) (t : Text) : Option (Numeral × Text) :=
  match wholePart? t with
  | none => none
  | some (whole, rest) =>
    let (fraction, rest) := fractionPart rest
    match exponentPart? rest with
    | none => some (⟨negative, whole, fraction, none⟩, rest)
    | some (exponent, rest) => some (⟨negative, whole, fraction, some exponent⟩, rest)

/-- The numeral at the front of a text, and the text after it. -/
def take? : Text → Option (Numeral × Text)
  | .char '-' :: rest => takeUnsigned? true rest
  | t => takeUnsigned? false t

/-! ### A numeral takes symbols off the text -/

private theorem length_dropWhile_isDigit (t : Text) :
    (t.dropWhile isDigit).length ≤ t.length :=
  (List.dropWhile_suffix isDigit).length_le

theorem length_wholePart? {t whole after : Text} (h : wholePart? t = some (whole, after)) :
    after.length < t.length := by
  obtain _ | ⟨c, rest⟩ := t
  · simp [wholePart?] at h
  by_cases hz : c = '0'
  · simp only [wholePart?, hz, if_true, Option.some.injEq, Prod.mk.injEq] at h
    simp [← h.2]
  by_cases hd : isDigit c = true
  · simp only [wholePart?, hz, if_false, hd, if_true, spanDigits, Option.some.injEq,
      Prod.mk.injEq] at h
    rw [← h.2, List.dropWhile_cons_of_pos hd]
    exact Nat.lt_succ_of_le (length_dropWhile_isDigit rest)
  · simp [wholePart?, hz, hd] at h

theorem length_fractionPart (t : Text) : (fractionPart t).2.length ≤ t.length := by
  unfold fractionPart
  split
  · rename_i c rest
    split
    · have := length_dropWhile_isDigit (c :: rest)
      simp only [spanDigits, List.length_cons] at this ⊢; omega
    · simp
  · simp

theorem length_exponentDigits? {negative : Bool} {t after : Text} {n : Int}
    (h : exponentDigits? negative t = some (n, after)) : after.length ≤ t.length := by
  by_cases hd : (t.takeWhile isDigit).isEmpty = true
  · simp [exponentDigits?, spanDigits, hd] at h
  · simp only [exponentDigits?, spanDigits, hd, Bool.false_eq_true, if_false, Option.some.injEq,
      Prod.mk.injEq] at h
    rw [← h.2]; exact length_dropWhile_isDigit t

theorem length_signedDigits? {t after : Text} {n : Int}
    (h : signedDigits? t = some (n, after)) : after.length ≤ t.length := by
  unfold signedDigits? at h
  split at h
  · exact Nat.le_succ_of_le (length_exponentDigits? h)
  · exact Nat.le_succ_of_le (length_exponentDigits? h)
  · exact length_exponentDigits? h

theorem length_exponentPart? {t after : Text} {n : Int}
    (h : exponentPart? t = some (n, after)) : after.length < t.length := by
  obtain _ | ⟨e, rest⟩ := t
  · simp [exponentPart?] at h
  by_cases he : e = 'e' ∨ e = 'E'
  · simp only [exponentPart?, he, if_true] at h
    exact Nat.lt_succ_of_le (length_signedDigits? h)
  · simp [exponentPart?, he] at h

theorem length_takeUnsigned? {negative : Bool} {t after : Text} {n : Numeral}
    (h : takeUnsigned? negative t = some (n, after)) : after.length < t.length := by
  unfold takeUnsigned? at h
  cases hw : wholePart? t with
  | none => simp [hw] at h
  | some p =>
    have hl := length_wholePart? hw
    have hf := length_fractionPart p.2
    simp only [hw] at h
    cases he : exponentPart? (fractionPart p.2).2 with
    | none =>
      simp only [he, Option.some.injEq, Prod.mk.injEq] at h
      rw [← h.2]; omega
    | some q =>
      have := length_exponentPart? he
      simp only [he, Option.some.injEq, Prod.mk.injEq] at h
      rw [← h.2]; omega

theorem length_take? {t after : Text} {n : Numeral} (h : take? t = some (n, after)) :
    after.length < t.length := by
  unfold take? at h
  split at h
  · exact Nat.lt_succ_of_lt (length_takeUnsigned? h)
  · exact length_takeUnsigned? h

end Numeral

end DosConsole.Json
