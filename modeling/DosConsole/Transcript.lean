import DosConsole.Command.Basic

/-!
# The transcript

The lines shown by a console, in order. Lines are only added; an outcome that clears the screen
drops all lines before its own.
-/

namespace DosConsole

structure Transcript where
  lines : List Text
  deriving DecidableEq

namespace Transcript

def empty : Transcript :=
  ⟨[]⟩

def size (t : Transcript) : Nat :=
  t.lines.length

/-- Adds a line. -/
def append (t : Transcript) (line : Text) : Transcript :=
  ⟨t.lines ++ [line]⟩

/-- Adds lines. -/
def extend (t : Transcript) (lines : List Text) : Transcript :=
  ⟨t.lines ++ lines⟩

/-- Shows an outcome. -/
def apply (t : Transcript) (o : Outcome) : Transcript :=
  (if o.clears then empty else t).extend o.output

end Transcript

end DosConsole
