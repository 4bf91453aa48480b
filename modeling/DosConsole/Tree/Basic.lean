import DosConsole.Path
import DosConsole.Tree.Node

/-!
# The tree

A tree is the list of entries of its root directory, whose name is always `/`, with a **revision**
that grows by one with every change, so that a reader can tell whether a command changed it.

An operation is carried out on the entries of one directory, which a path leads to. The path is
split into its segments as it is, without normalization, and each segment finds the first child of
that name. An operation that cannot be carried out gives its cause and leaves the tree alone.
-/

namespace DosConsole

/-- Why an operation on the tree was refused. -/
inductive TreeError where
  /-- Nothing has that path or name. -/
  | notFound (name : Text)
  /-- A directory is needed, and this is a file. -/
  | notADirectory (name : Text)
  /-- A file is needed, and this is a directory. -/
  | notAFile (name : Text)
  /-- Another entry of the directory has that name. -/
  | alreadyExists (name : Text)
  /-- The directory has children, and only an empty one may be removed. -/
  | notEmpty (name : Text)
  deriving DecidableEq

namespace TreeError

/-- The path or name that an error is about. -/
def name : TreeError → Text
  | .notFound name | .notADirectory name | .notAFile name | .alreadyExists name
  | .notEmpty name => name

def message : TreeError → Text
  | .notFound name => "Not found: " ++ name
  | .notADirectory name => "Not a directory: " ++ name
  | .notAFile name => "Not a file: " ++ name
  | .alreadyExists name => "Already exists: " ++ name
  | .notEmpty name => "Directory is not empty: " ++ name

end TreeError

/-- An operation on the entries of a directory. -/
inductive Edit where
  /-- Adds an empty directory. -/
  | makeDirectory (name : Text)
  /-- Adds an empty file. A file that is there already is left as it is. -/
  | makeFile (name : Text)
  /-- Removes an entry with all below it. Unless `recursive` is set, a directory with children is
  not removed. -/
  | remove (name : Text) (recursive : Bool)
  deriving DecidableEq

namespace Edit

/-- The refusal of an operation when there is a file instead of a directory. -/
def refusal (file : Text) : Edit → TreeError
  | .makeDirectory _ | .makeFile _ => .notADirectory file
  | .remove name _ => .notFound name

/-- What an operation makes of the entries of a directory: the entry that it is about, and the new
entries if they change. -/
def apply [Folding] (children : List Node) : Edit → Except TreeError (Node × Option (List Node))
  | .makeDirectory name =>
    if Node.hasChild children name then .error (.alreadyExists name)
    else .ok (.dir name [], some (children ++ [.dir name []]))
  | .makeFile name =>
    match Node.child? children name with
    | some (.file n content) => .ok (.file n content, none)
    | some (.dir _ _) => .error (.alreadyExists name)
    | none => .ok (.file name [], some (children ++ [.file name []]))
  | .remove name recursive =>
    match Node.child? children name with
    | none => .error (.notFound name)
    | some n =>
      if !recursive && !n.children.isEmpty then .error (.notEmpty n.name)
      else .ok (n, some (children.eraseP fun c => sameName c.name name))

end Edit

/-- A tree of directories and files. -/
structure Tree where
  /-- The entries of the root directory. -/
  entries : List Node
  /-- The number of changes so far. -/
  revision : Nat

namespace Tree

/-- The entries of a new tree. -/
def seedEntries : List Node := [
  .file "AUTOEXEC.BAT" "rem MS-DOS-like environment\n",
  .file "README.TXT" "This is a simulated MS-DOS environment.\nUse DIR, CD, TYPE etc.",
  .dir "GAMES" [.file "README.TXT" "This is the GAMES folder."]]

/-- The tree that a new installation starts with. -/
def seed : Tree :=
  ⟨seedEntries, 0⟩

instance : Inhabited Tree := ⟨seed⟩

/-- The root directory. -/
def root (t : Tree) : Node :=
  .dir "/" t.entries

/-- Replaces all entries by those of a new tree. -/
def reset (t : Tree) : Tree :=
  ⟨seedEntries, t.revision + 1⟩

variable [Folding]

/-- The node at a path. -/
def resolve? (t : Tree) (path : Text) : Option Node :=
  t.root.walk? (Path.segments path)

/-- Normalizes a path from the directory `cwd` and finds the node there. -/
def lookup (t : Tree) (path cwd : Text) : Text × Option Node :=
  let normal := Path.normalize path cwd
  (normal, t.resolve? normal)

/-- The node at a path that must lead somewhere. -/
def get (t : Tree) (path : Text) : Except TreeError Node :=
  match t.resolve? path with
  | some n => .ok n
  | none => .error (.notFound path)

/-- The entries after a change of the node at the end of a path of names. -/
def alter (t : Tree) (names : List Text) (change : Node → Node) : List Node :=
  (t.root.alter change names).children

/-- Gives the directory at the end of a path of names other children, and counts the change. -/
def refill (t : Tree) (names : List Text) (children : List Node) : Tree :=
  ⟨t.alter names (·.mapChildren fun _ => children), t.revision + 1⟩

/-- Carries out an operation on the node that stands at the end of a path of names. -/
def edit (t : Tree) (names : List Text) (n : Node) (e : Edit) : Except TreeError (Node × Tree) :=
  match n with
  | .file name _ => .error (e.refusal name)
  | .dir _ children =>
    match e.apply children with
    | .error cause => .error cause
    | .ok (entry, none) => .ok (entry, t)
    | .ok (entry, some after) => .ok (entry, t.refill names after)

/-- Carries out an operation on the node at a path. -/
def editAt (t : Tree) (path : Text) (e : Edit) : Except TreeError (Node × Tree) :=
  match t.get path with
  | .error cause => .error cause
  | .ok n => t.edit (Path.segments path) n e

/-- Adds an empty directory to the directory at a path. -/
def makeDirectory (t : Tree) (path name : Text) : Except TreeError (Node × Tree) :=
  t.editAt path (.makeDirectory name)

/-- Adds an empty file to the directory at a path. A file that is there already is left as it is. -/
def makeFile (t : Tree) (path name : Text) : Except TreeError (Node × Tree) :=
  t.editAt path (.makeFile name)

/-- Removes an entry of the directory at a path with all below it. Unless `recursive` is set, a
directory with children is not removed. -/
def remove (t : Tree) (path name : Text) (recursive : Bool) : Except TreeError (Node × Tree) :=
  t.editAt path (.remove name recursive)

/-- Gives the file at a path a content. This is no change of the tree that its revision counts, and
a directory keeps what it has. -/
def write (t : Tree) (path content : Text) : Except TreeError Tree :=
  match t.get path with
  | .error e => .error e
  | .ok _ =>
    .ok { t with entries := t.alter (Path.segments path) fun
      | .file name _ => .file name content
      | .dir name children => .dir name children }

end Tree

namespace Node

/-- The entries of a directory. -/
def list : Node → Except TreeError (List Node)
  | .file name _ => .error (.notADirectory name)
  | .dir _ children => .ok children

/-- The content of a file. -/
def read : Node → Except TreeError Text
  | .file _ content => .ok content
  | .dir name _ => .error (.notAFile name)

end Node

end DosConsole
