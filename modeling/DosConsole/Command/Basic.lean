import DosConsole.Json.Display
import DosConsole.Tree.Basic

/-!
# Commands

A command is a name, a description and a **handler**. The handler is given the list of commands, its
arguments and a workspace: the tree, the directory it works in, and the settings of the console.
It gives the workspace back as it left it, with a reply or the text of a fault. A handler that
faults part way keeps the effects it had until then.

What the user sees of a command is its `Outcome`.
-/

namespace DosConsole

/-- The result of running a line. -/
structure Outcome where
  success : Bool
  /-- The lines to show before the error. -/
  lines : List Text
  error : Option Text
  exitCode : Int
  /-- Everything shown so far is wiped first. -/
  clears : Bool
  deriving DecidableEq

namespace Outcome

/-- Success with the given lines. -/
def ok (lines : List Text) : Outcome :=
  ⟨true, lines, none, 0, false⟩

/-- Failure with an error and an exit code. -/
def fail (error : Text) (exitCode : Int) : Outcome :=
  ⟨false, [], some error, exitCode, false⟩

/-- Success that wipes the screen. -/
def clear : Outcome :=
  ⟨true, [], none, 0, true⟩

/-- Every line to show, the error last if there is one to show. -/
def output (o : Outcome) : List Text :=
  match o.error with
  | none => o.lines
  | some [] => o.lines
  | some e => o.lines ++ [e]

end Outcome

/-- What a handler replies: an outcome, or a value to be shown on a line of its own. A reply of null
shows nothing. -/
inductive Reply where
  | outcome (outcome : Outcome)
  | value (value : Json)
  /-- Any other object, with the text that it is shown as, or the fault of showing it. -/
  | other (shown : Except Text Text)

/-- The outcome of a reply, or the fault of showing it. -/
def Reply.toOutcome : Reply → Except Text Outcome
  | .outcome o => .ok o
  | .value .null => .ok (.ok [])
  | .value v =>
    match v.show? with
    | .ok line => .ok (.ok [line])
    | .error cause => .error cause.message
  | .other (.ok line) => .ok (.ok [line])
  | .other (.error fault) => .error fault

/-- What a command may look at and change. -/
structure Workspace where
  tree : Tree
  /-- The directory that relative paths start from, as it was given. -/
  cwd : Text
  /-- The name in the prompt. -/
  user : Json
  /-- Directories with children are removed only on explicit request. -/
  strictRemoval : Bool

/-- The names and descriptions of the commands, in order. -/
abbrev Menu := List (Text × Text)

/-- A **handler** turns arguments and a workspace into a workspace and a reply or a fault. -/
abbrev Handler := Menu → List Text → Workspace → Workspace × Except Text Reply

/-- A command that can be called by name. -/
structure Command where
  name : Text
  description : Text
  run : Handler

/-- A handler that replies with an outcome and changes nothing. -/
def Handler.report (f : Menu → List Text → Workspace → Outcome) : Handler :=
  fun menu args w => (w, .ok (.outcome (f menu args w)))

end DosConsole
