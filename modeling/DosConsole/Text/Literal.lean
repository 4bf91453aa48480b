import DosConsole.Text.Printable

/-!
# Quoted text

How a text is shown inside a message: between quotes, with the symbols that have no glyph spelled
out. The quote is the apostrophe, unless the text holds an apostrophe and no double quote.
-/

namespace DosConsole.Text

/-- The digit `0` to `f` of a number below sixteen. -/
def hexDigit (n : Nat) : Char :=
  if n < 10 then Char.ofNat (48 + n) else Char.ofNat (87 + n)

/-- The last `width` hexadecimal digits of `n`, in small letters. -/
def hex : (width n : Nat) → List Char
  | 0, _ => []
  | width + 1, n => hex width (n / 16) ++ [hexDigit (n % 16)]

/-- An escape: the letter that says how long it is, and the code in that many digits. -/
def codeEscape (letter : Char) (width : Nat) (c : Symbol) : Text :=
  ('\\' :: letter :: hex width c.code).map .char

/-- The form of one symbol of a text quoted by `quote`. -/
def literalSymbol (quote c : Symbol) : Text :=
  if c = quote ∨ c = '\\' then ['\\', c]
  else if c = '\n' then ['\\', 'n']
  else if c = '\r' then ['\\', 'r']
  else if c = '\t' then ['\\', 't']
  else if isPrintable c then [c]
  else if c.code < 0x100 then codeEscape 'x' 2 c
  else if c.code < 0x10000 then codeEscape 'u' 4 c
  else codeEscape 'U' 8 c

/-- The quote that a text is shown in. -/
def literalQuote (t : Text) : Symbol :=
  if .char '\'' ∈ t ∧ .char '"' ∉ t then '"' else '\''

/-- The text between quotes, with backslash escapes. -/
def literal (t : Text) : Text :=
  let quote := literalQuote t
  quote :: t.flatMap (literalSymbol quote) ++ [quote]

end DosConsole.Text
