import DosConsole.Text.Symbol

/-!
# Help pages

A page of help shows how a command is used, what it is for and what its parts mean, with an empty
line between any two of these. The meanings of all parts stand in one **column**. It starts two
places after the longest name, or after twenty-four places if that is earlier; a name that does not
end two places before the column has its meaning on the next line.
-/

namespace DosConsole.Invocation

/-- A part of a command line with its meaning. -/
structure Part where
  name : Text
  meaning : Text
  /-- The part is one of the words that may stand for the part above it. -/
  isChoice : Bool

/-- Parts of one kind. -/
structure Section where
  title : Text
  parts : List Part

structure Page where
  /-- The words that call the command. -/
  command : Text
  /-- What may follow these words, line by line. -/
  usage : List Text
  /-- What the command is for; it may be empty. -/
  purpose : Text
  sections : List Section

/-- The given number of spaces. -/
def spaces (n : Nat) : Text :=
  List.replicate n (.char ' ')

namespace Part

/-- How far the name stands in. -/
def indent (p : Part) : Nat :=
  if p.isChoice then 4 else 2

/-- The place where the name ends. -/
def width (p : Part) : Nat :=
  p.indent + p.name.length

/-- The lines of a part, for a column that starts after the given number of places. -/
def lines (column : Nat) (p : Part) : List Text :=
  let start := spaces p.indent ++ p.name
  if p.width + 2 ≤ column then [start ++ spaces (column - p.width) ++ p.meaning]
  else [start, spaces column ++ p.meaning]

end Part

/-- The lines of a section. -/
def Section.lines (column : Nat) (s : Section) : List Text :=
  (s.title ++ ":") :: s.parts.flatMap (Part.lines column)

namespace Page

/-- The number of places before the column of meanings. -/
def column (p : Page) : Nat :=
  min 24 (((p.sections.flatMap (·.parts)).map (·.width + 2)).foldl max 0)

/-- The lines of the usage, of which all but the first stand in as far as what follows the words of
the command. -/
def usageLines (p : Page) : List Text :=
  let start : Text := "usage: " ++ p.command ++ " "
  match p.usage with
  | [] => [start]
  | first :: rest => (start ++ first) :: rest.map (spaces start.length ++ ·)

/-- The blocks of lines between which a line is empty. -/
def blocks (p : Page) : List (List Text) :=
  p.usageLines :: (if p.purpose = [] then [] else [[p.purpose]]) ++
    p.sections.map (Section.lines p.column)

/-- The text of a page. -/
def text (p : Page) : Text :=
  (List.intercalate [[]] p.blocks).flatMap (· ++ [.char '\n'])

end Page

end DosConsole.Invocation
