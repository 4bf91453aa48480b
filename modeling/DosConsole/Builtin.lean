import DosConsole.Builtin.Change
import DosConsole.Builtin.Report
import DosConsole.Command.Registry

/-!
# The built-in commands

The commands that every console has, under their names; some have two.
-/

namespace DosConsole.Builtin

variable [Folding]

/-- The built-in commands in the order of their registration. -/
def commands : List Command := [
  ⟨"help", "Shows help", help⟩,
  ⟨"cls", "Clear screen (alias CLEAR)", clearScreen⟩,
  ⟨"clear", "Clear screen", clearScreen⟩,
  ⟨"cd", "Change directory", changeDirectory⟩,
  ⟨"dir", "List directory contents", listDirectory⟩,
  ⟨"ls", "List directory contents (alias for DIR)", listDirectory⟩,
  ⟨"pwd", "Print working directory", showDirectory⟩,
  ⟨"type", "Show file contents (alias CAT)", showFile⟩,
  ⟨"cat", "Show file contents", showFile⟩,
  ⟨"echo", "Echo text", echo⟩,
  ⟨"mkdir", "Make directory", makeDirectory⟩,
  ⟨"touch", "Create empty file", makeFile⟩,
  ⟨"rm", "Remove file/directory", remove⟩,
  ⟨"clearfs", "Reset virtual filesystem", resetTree⟩]

end DosConsole.Builtin

namespace DosConsole.Registry

variable [Folding]

/-- Adds the built-in commands. -/
def withBuiltins (r : Registry) : Registry :=
  r.registerAll Builtin.commands

/-- The registry of the built-in commands alone. -/
def builtin : Registry :=
  empty.withBuiltins

end DosConsole.Registry
