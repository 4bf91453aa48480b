import DosConsole.Command.Basic

/-!
# Commands that report

These commands answer from the tree and the workspace and change neither: `help`, `cls`, `pwd`,
`dir`, `type` and `echo`. Of several targets they look at the first.
-/

namespace DosConsole.Builtin

variable [Folding]

/-- A name followed by spaces up to twelve characters. -/
def padded (name : Text) : Text :=
  name ++ List.replicate (12 - name.length) (.char ' ')

/-- Lists every command with its description. -/
def help : Handler := .report fun menu _ _ =>
  .ok (menu.map fun entry => padded entry.1 ++ " - " ++ entry.2)

/-- Wipes the screen. -/
def clearScreen : Handler := .report fun _ _ _ => .clear

/-- Shows the current directory. -/
def showDirectory : Handler := .report fun _ _ w => .ok [w.cwd]

/-- The line of a listing for an entry: directories have a backslash after the name. -/
def listingLine : Node → Text
  | .file name _ => name
  | .dir name _ => name ++ "\\"

/-- Lists a directory, the current one without a target. For a file its name is shown. -/
def listDirectory : Handler := fun _ args w =>
  let target := args.headD "."
  match (w.tree.lookup target w.cwd).2 with
  | none => (w, .ok (.outcome (.fail ("File not found: " ++ target) 1)))
  | some n =>
    if n.isDir then
      match n.list with
      | .error e => (w, .error e.message)
      | .ok [] => (w, .ok (.outcome (.ok ["Directory is empty"])))
      | .ok entries => (w, .ok (.outcome (.ok (entries.map listingLine))))
    else (w, .ok (.outcome (.ok [n.name])))

/-- Shows the content of a file. -/
def showFile : Handler := fun _ args w =>
  match args with
  | [] => (w, .ok (.outcome (.fail "Specify a file" 1)))
  | target :: _ =>
    match (w.tree.lookup target w.cwd).2 with
    | none => (w, .ok (.outcome (.fail "File not found" 1)))
    | some n =>
      if n.isDir then (w, .ok (.outcome (.fail "Not a file" 1)))
      else
        match n.read with
        | .error e => (w, .error e.message)
        | .ok content => (w, .ok (.outcome (.ok [content])))

/-- Shows the arguments with single spaces between them. -/
def echo : Handler := .report fun _ args _ => .ok [List.intercalate [.char ' '] args]

end DosConsole.Builtin
