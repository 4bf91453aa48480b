import DosConsole.Command.Basic

/-!
# Commands that change something

`cd` changes the current directory, and `mkdir`, `touch`, `rm` and `clearfs` change the tree. A
target is normalized from the current directory; the last three of these look up the directory that
holds it and then its last segment there. What can go wrong is expected and told in one line.
-/

namespace DosConsole.Builtin

variable [Folding]

/-- Makes another directory the current one; the root without a target. -/
def changeDirectory : Handler := fun _ args w =>
  let target := args.headD "/"
  match w.tree.lookup target w.cwd with
  | (_, none) =>
    (w, .ok (.outcome (.fail ("The system cannot find the path specified: " ++ target) 1)))
  | (path, some n) =>
    if n.isDir then ({ w with cwd := path }, .ok (.outcome (.ok [])))
    else (w, .ok (.outcome (.fail ("Not a directory: " ++ target) 1)))

/-- The path of the directory that holds a target, if there is such a directory, and the last
segment of the target, which the root does not have. -/
def holder (w : Workspace) (target : Text) : Option Text × Option Text :=
  let (parent, name) := Path.parentAndName (Path.normalize target w.cwd)
  match w.tree.resolve? parent with
  | some (.dir _ _) => (some parent, name)
  | _ => (none, name)

/-- Makes an empty directory. -/
def makeDirectory : Handler := fun _ args w =>
  match args with
  | [] => (w, .ok (.outcome (.fail "Specify directory name" 1)))
  | target :: _ =>
    match holder w target with
    | (_, none) => (w, .ok (.outcome (.fail "Already exists" 1)))
    | (none, some _) => (w, .ok (.outcome (.fail "Parent not found" 1)))
    | (some parent, some name) =>
      match w.tree.makeDirectory parent name with
      | .ok (_, tree) => ({ w with tree }, .ok (.outcome (.ok [])))
      | .error (.alreadyExists _) => (w, .ok (.outcome (.fail "Already exists" 1)))
      | .error e => (w, .error e.message)

/-- Makes an empty file. A file that is there already is left alone, with success. -/
def makeFile : Handler := fun _ args w =>
  match args with
  | [] => (w, .ok (.outcome (.fail "Specify filename" 1)))
  | target :: _ =>
    match holder w target with
    | (_, none) => (w, .ok (.outcome (.fail "Already exists" 1)))
    | (none, some _) => (w, .ok (.outcome (.fail "Parent not found" 1)))
    | (some parent, some name) =>
      match w.tree.makeFile parent name with
      | .ok (_, tree) =>
        ({ w with tree },
          .ok (.outcome (.ok (if tree.revision = w.tree.revision then ["File exists"] else []))))
      | .error (.alreadyExists _) => (w, .ok (.outcome (.fail "Already exists" 1)))
      | .error e => (w, .error e.message)

/-- The argument asks for the removal of a directory with all below it. -/
def isRecursiveFlag (arg : Text) : Bool :=
  arg == "-r" || arg == "-R" || arg == "-rf"

/-- Removes a file or directory. Under strict removal a directory with children needs a flag, which
may stand anywhere among the arguments. -/
def remove : Handler := fun _ args w =>
  let recursive := !w.strictRemoval || args.any isRecursiveFlag
  match args.filter (!isRecursiveFlag ·) with
  | [] => (w, .ok (.outcome (.fail "Specify path to remove" 1)))
  | target :: _ =>
    match holder w target with
    | (some parent, some name) =>
      match w.tree.remove parent name recursive with
      | .ok (_, tree) => ({ w with tree }, .ok (.outcome (.ok [])))
      | .error (.notFound _) => (w, .ok (.outcome (.fail "Not found" 1)))
      | .error (.notEmpty name) =>
        (w, .ok (.outcome (.fail ("Directory is not empty: " ++ name ++ " (use rm -r)") 1)))
      | .error e => (w, .error e.message)
    | _ => (w, .ok (.outcome (.fail "Not found" 1)))

/-- Brings the tree back to its first entries. -/
def resetTree : Handler := fun _ _ w =>
  ({ w with tree := w.tree.reset }, .ok (.outcome (.ok ["Filesystem reset"])))

end DosConsole.Builtin
