import DosConsole.Text.Blank

/-!
# Tokens of a command line

A line is cut into tokens at its blanks. Between double quotes a blank does not cut; the quotes
themselves belong to no token, and a quote that is never closed runs to the end of the line. There
are no escapes, and there is no empty token. `quote` writes a token in such a way that the line
still holds it as one token.
-/

namespace DosConsole.Line

/-- Adds the token collected so far, its symbols last first, unless it is empty. -/
def emit (current : Text) (tokens : List Text) : List Text :=
  if current.isEmpty then tokens else current.reverse :: tokens

/-- The tokens of the text ahead, given the token collected so far, its symbols last first, and
whether a quote is open. -/
def scan (current : Text) (quoted : Bool) : Text → List Text
  | [] => emit current []
  | c :: rest =>
    if c = '"' then scan current (!quoted) rest
    else if !quoted && Text.isBlank c then emit current (scan [] quoted rest)
    else scan (c :: current) quoted rest

/-- The **tokens** of a line. -/
def tokens (line : Text) : List Text :=
  scan [] false line

/-- The tokens of a line without the blanks at its ends: those that a command is taken from. -/
def words (line : Text) : List Text :=
  tokens line.strip

/-- The token as it is written in a line: between double quotes if it holds a blank. -/
def quote (token : Text) : Text :=
  if token.hasBlank then Symbol.char '"' :: token ++ [Symbol.char '"'] else token

/-! ### The quote-aware split -/

/-- Whether each symbol of a text stands between quotes: an odd number of double quotes precedes
it. -/
def quotedFlags (quoted : Bool) : Text → List (Symbol × Bool)
  | [] => []
  | c :: rest => (c, quoted) :: quotedFlags (if c = '"' then !quoted else quoted) rest

/-- A symbol **cuts** the line when it is blank and not quoted. -/
def cuts (c : Symbol × Bool) : Bool :=
  !c.2 && Text.isBlank c.1

/-- The line cut at its unquoted blanks, each piece without its double quotes and empty pieces
left out. -/
def split (line : Text) : List Text :=
  ((quotedFlags false line).splitOnP cuts).map (fun piece =>
    (piece.map Prod.fst).filter (· ≠ .char '"')) |>.filter (· ≠ [])

end DosConsole.Line
