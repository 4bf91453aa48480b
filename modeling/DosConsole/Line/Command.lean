import DosConsole.Line.Token
import DosConsole.Text.Case

/-!
# Commands on a line

The first token of a line names a command, in any mixture of cases, and the other tokens are its
arguments. A line without tokens names no command.
-/

namespace DosConsole.Line

/-- What a line asks for: a command by its name in lower case, with arguments. -/
structure Command where
  name : Text
  args : List Text
  raw : Text
  deriving DecidableEq

/-- The line names no command. -/
def Command.isEmpty (c : Command) : Bool :=
  c.name.isEmpty

/-- Takes the command from a line. -/
def parse (line : Text) : Command :=
  match words line with
  | [] => ⟨[], [], line⟩
  | t :: ts => ⟨t.lower, ts, line⟩

end DosConsole.Line
