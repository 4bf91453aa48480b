import DosConsole.Text.Symbol

/-!
# Blank characters

A character is **blank** when it separates words. The class is wider than the white space of ASCII:
it holds the information separators U+001C to U+001F, the next-line character, the no-break space
and the space characters of the general punctuation block. It does not hold the zero-width space.

Lines are stripped at both ends of blanks (`strip`), and a line of blanks only is a **blank line**.
-/

namespace DosConsole.Text

/-- A character is **blank** when it separates words and is dropped at the ends of a line. -/
def isBlank (c : Symbol) : Bool :=
  let n := c.code
  (9 ≤ n && n ≤ 13) || (28 ≤ n && n ≤ 32) || n == 0x85 || n == 0xA0 || n == 0x1680 ||
    (0x2000 ≤ n && n ≤ 0x200A) || n == 0x2028 || n == 0x2029 || n == 0x202F || n == 0x205F ||
    n == 0x3000

/-- The text without its leading blanks. -/
def stripLeft (t : Text) : Text :=
  t.dropWhile isBlank

/-- The text without its trailing blanks. -/
def stripRight (t : Text) : Text :=
  (t.reverse.dropWhile isBlank).reverse

/-- The text without the blanks at either end. -/
def strip (t : Text) : Text :=
  stripRight (stripLeft t)

/-- A **blank line** holds blanks only; the empty line is one. -/
def isBlankLine (t : Text) : Bool :=
  t.all isBlank

/-- Some character of the text is blank. -/
def hasBlank (t : Text) : Bool :=
  t.any isBlank

end DosConsole.Text
