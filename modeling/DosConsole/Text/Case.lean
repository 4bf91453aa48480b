import DosConsole.Text.CaseTable

/-!
# Upper and lower case of a text

Both directions are the full mappings: one character may become several (`ß` is `SS` in upper case),
and no normalization takes place. Upper case looks at each character alone. Lower case does too, but
for the capital sigma, which has one small form inside a word and another, `ς`, at its end.

Names in the tree are compared by their upper-case forms (`upper`), names of commands by their
lower-case forms (`lower`).
-/

namespace DosConsole.Text

/-- The upper-case form of one character. -/
def upperChar (c : Char) : List Char :=
  if c.toNat < 128 then [c.toUpper]
  else
    match upperExpansions.lookup c.toNat with
    | some codes => codes.map Char.ofNat
    | none => [(upperRuns.findSome? (·.image? c)).getD c]

/-- The upper-case form of one symbol. -/
def upperSymbol : Symbol → Text
  | .char c => (upperChar c).map .char
  | .half offset => [.half offset]

/-- The upper-case form of a text. -/
def upper (t : Text) : Text :=
  t.flatMap upperSymbol

/-- The lower-case form of one character that stands alone. -/
def lowerChar (c : Char) : List Char :=
  if c.toNat < 128 then [c.toLower]
  else
    match lowerExpansions.lookup c.toNat with
    | some codes => codes.map Char.ofNat
    | none => [(lowerRuns.findSome? (·.image? c)).getD c]

/-- The lower-case form of one symbol that stands alone. -/
def lowerSymbol : Symbol → Text
  | .char c => (lowerChar c).map .char
  | .half offset => [.half offset]

/-- The first character that is not case-ignorable is cased. -/
def meetsCased (t : Text) : Bool :=
  match t.dropWhile caseIgnorableRanges.contains with
  | [] => false
  | c :: _ => casedRanges.contains c

/-- A capital sigma **ends a word** when a cased character precedes it and none follows it.
`before` holds the preceding characters, the nearest first. -/
def endsWord (before after : Text) : Bool :=
  meetsCased before && !meetsCased after

/-- The lower-case form of the symbol between `before`, the nearest first, and `after`. -/
def lowerBetween (before after : Text) (c : Symbol) : Text :=
  if c = 'Σ' then if endsWord before after then ['ς'] else ['σ'] else lowerSymbol c

/-- The lower-case form of the text that comes after the symbols `before`, the nearest first. -/
def lowerAfter (before : Text) : Text → Text
  | [] => []
  | c :: after => lowerBetween before after c ++ lowerAfter (c :: before) after

/-- The lower-case form of a text. -/
def lower (t : Text) : Text :=
  lowerAfter [] t

end DosConsole.Text
