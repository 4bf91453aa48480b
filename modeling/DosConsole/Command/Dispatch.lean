import DosConsole.Command.Registry
import DosConsole.Line.Command

/-!
# Running a line

A line that is not blank is answered by an outcome whose first line echoes the prompt and the line
itself. The outcome of a command that clears the screen has no echo, which would be wiped together
with all before it. Faults of handlers are caught here and shown as errors, and so is the fault of a
reply that cannot be shown.
-/

namespace DosConsole

/-- The text before the place where a line is typed. -/
def prompt (user : Json) (cwd : Text) : Text :=
  user.display ++ "@DOS:" ++ cwd ++ "> "

namespace Workspace

/-- The prompt of a workspace. -/
def prompt (w : Workspace) : Text :=
  DosConsole.prompt w.user w.cwd

end Workspace

/-- What running a line comes to: the outcome, the workspace as it was left, and the text of the
fault if the handler faulted or its reply could not be shown. -/
structure Execution where
  outcome : Outcome
  workspace : Workspace
  fault : Option Text

namespace Outcome

/-- The error for a command that is not registered. -/
def unknown (name : Text) : Outcome :=
  .fail ("'" ++ name ++ "' is not recognized as an internal or external command") 127

/-- The error for a handler that faulted. -/
def faulted (message : Text) : Outcome :=
  .fail ("Error executing command: " ++ message) 1

/-- The outcome after the echo of its line. -/
def echoed (o : Outcome) (echo : Text) : Outcome :=
  if o.clears then o else { o with lines := echo :: o.lines }

end Outcome

/-- The execution of a handler that has ended, after the echo of its line. -/
def Execution.ended (echo : Text) : Workspace × Except Text Reply → Execution
  | (after, result) =>
    match result.bind Reply.toOutcome with
    | .ok outcome => ⟨outcome.echoed echo, after, none⟩
    | .error message => ⟨(Outcome.faulted message).echoed echo, after, some message⟩

namespace Registry

/-- Runs a line. A blank line does nothing. -/
def execute (r : Registry) (line : Text) (w : Workspace) : Execution :=
  if line.isBlankLine then ⟨.ok [], w, none⟩
  else
    let echo := w.prompt ++ line
    let asked := Line.parse line
    match r.lookup asked.name with
    | none => ⟨(Outcome.unknown asked.name).echoed echo, w, none⟩
    | some command => .ended echo (command.run r.menu asked.args w)

end Registry

end DosConsole
