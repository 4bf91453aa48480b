import DosConsole.Console

/-!
# The terminal

A terminal drives one console from the keyboard. It opens a prompt, collects an input until it is
entered, runs it, and prints what is new in the transcript; then it opens the next prompt. All that
it shows is logged in order.

The terminal counts how many lines of the transcript are on the screen. The line that a person
entered stands there already, so its echo is counted and not printed. The words `exit` and `quit`
and the end of the input leave the terminal.

What keys do to the line that is being typed is the business of an **editor**, which the terminal
knows nothing of, but that a line can be filled in and that the end of the input may end the prompt.
How the screen draws what is shown is left open, too.
-/

namespace DosConsole

/-- The editor of the line at the prompt. -/
class LineEditor where
  /-- The input after a text was typed. -/
  insert : (input typed : Text) → Text
  /-- The input after the key for the end of the input, unless that ends the prompt. -/
  finish : (input : Text) → Option Text

/-- An editor that puts what is typed at the end, and that ends the prompt if nothing was typed. -/
abbrev LineEditor.atEnd : LineEditor where
  insert input typed := input ++ typed
  finish input := if input = [] then none else some input

/-- Something handed to the screen to be shown. -/
inductive Display where
  /-- A prompt opens. -/
  | prompt (text : Text)
  /-- The input and the position of the cursor in it. -/
  | input (text : Text) (cursor : Nat)
  /-- A line of output. -/
  | line (text : Text)
  /-- The screen is wiped. -/
  | wipe
  /-- A text in a frame. -/
  | panel (text : Text)
  /-- A text with marks for its style. -/
  | markup (text : Text)
  deriving DecidableEq

/-- Something that happens at the keyboard. -/
inductive Key where
  | typed (text : Text)
  | up
  | down
  | tab
  | enter
  | interrupt
  | endOfInput
  deriving DecidableEq

structure Terminal where
  console : Console
  machine : Machine
  /-- The input since the prompt opened. -/
  input : Text
  /-- The number of lines of the transcript that are on the screen. -/
  printed : Nat
  /-- Everything shown so far, in order. -/
  shown : List Display
  /-- The terminal has been left. -/
  closed : Bool

namespace Terminal

/-- Shows something. -/
def display (t : Terminal) (more : List Display) : Terminal :=
  { t with shown := t.shown ++ more }

/-- Shows the input. -/
def showInput (t : Terminal) : Terminal :=
  t.display [.input t.input t.input.length]

/-- Replaces the input, if there is something to replace it. -/
def replaceInput (t : Terminal) (text : Option Text) : Terminal :=
  { t with input := text.getD t.input }

/-- Opens a prompt with an empty input. -/
def openPrompt (t : Terminal) : Terminal :=
  { t with input := [] }.display [.prompt t.console.prompt]

/-- Prints the lines of the transcript that are not on the screen yet. -/
def flush (t : Terminal) : Terminal :=
  let lines := t.console.transcript.lines
  { t with printed := lines.length }.display ((lines.drop t.printed).map .line)

/-- What is shown before the first prompt. -/
def header (user : Text) : List Display := [
  .panel ("dosshell - MS-DOS style virtual filesystem\nUser: " ++ user),
  .markup "[dim]Type 'help' for commands, 'exit' to quit[/dim]\n"]

/-- Starts a terminal; the name of the user must be a text. -/
def start (c : Console) (m : Machine) : Option Terminal :=
  match c.user with
  | .str user => some (openPrompt ⟨c, m, [], 0, header user, false⟩)
  | _ => none

/-- Leaves the terminal, once everything that waits is written. -/
def leave (t : Terminal) : Terminal :=
  let (console, machine) := t.console.close t.machine
  { t with console, machine, closed := true }.display [.markup "Goodbye!"]

/-- The line asks to leave. -/
def isExit (line : Text) : Bool :=
  let word := line.strip.lower
  word == "exit" || word == "quit"

/-- The count of lines on the screen after a line was entered and run, before its output is
printed. -/
def countEcho (t : Terminal) (line : Text) (o : Outcome) : Terminal :=
  if o.clears then { t with printed := 0 }.display [.wipe]
  else if line.isBlankLine then t
  else { t with printed := t.printed + 1 }

/-- Runs a line and opens the next prompt, or leaves. -/
def enter (t : Terminal) (line : Text) : Terminal :=
  if isExit line then t.leave
  else
    let (outcome, console, machine) := t.console.submit t.machine line
    ({ t with console, machine }.countEcho line outcome).flush.openPrompt

/-- Completes the input. If several candidates match they are printed. -/
def complete (t : Terminal) : Terminal :=
  let (result, console) := t.console.complete t.machine t.input
  let t := { t with console }
  match result.text with
  | some text => t.replaceInput (some text)
  | none => if result.isAmbiguous then t.flush else t

/-- The end of the input leaves the terminal if the editor ends the prompt. -/
def finish [LineEditor] (t : Terminal) : Terminal :=
  match LineEditor.finish t.input with
  | none => t.leave
  | some input => { t with input }

/-- Handles one key. After the terminal has been left keys have no effect. -/
def handle [LineEditor] (t : Terminal) (key : Key) : Terminal :=
  if t.closed then t
  else
    match key with
    | .typed text => { t with input := LineEditor.insert t.input text }.showInput
    | .up =>
      let (line, console) := t.console.older
      ({ t with console }.replaceInput line).showInput
    | .down =>
      let (line, console) := t.console.newer
      ({ t with console }.replaceInput line).showInput
    | .tab => t.complete.showInput
    | .enter => t.enter t.input
    | .interrupt => t.openPrompt
    | .endOfInput => t.finish

/-- Handles keys one after the other. When there are no more, the terminal is left. -/
def run [LineEditor] (t : Terminal) (keys : List Key) : Terminal :=
  let t := keys.foldl handle t
  if t.closed then t else t.leave

end Terminal

end DosConsole
