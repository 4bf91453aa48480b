import DosConsole.Builtin
import DosConsole.Command.Dispatch
import DosConsole.Completion
import DosConsole.History
import DosConsole.Snapshot.Keeper
import DosConsole.Transcript

/-!
# Consoles

A console runs lines. It has a current directory, a registry with the built-in commands, a history,
a transcript and, if the tree is to be kept, a keeper of the snapshot. Several consoles can work on
one **machine**, which has the tree, the disk and the notices given so far.

After a line that changed the tree, as its revision tells, the snapshot is handed to the keeper. No
line makes a console fail: what goes wrong is shown in the outcome or told in a notice.
-/

namespace DosConsole

/-- What consoles share. -/
structure Machine where
  tree : Tree
  disk : Disk
  /-- The notices given so far, the first first. -/
  notices : List Notice

namespace Machine

/-- Gives notices. -/
def notify (m : Machine) (notices : List Notice) : Machine :=
  { m with notices := m.notices ++ notices }

end Machine

structure Console where
  cwd : Text
  /-- The name in the prompt. -/
  user : Json
  strictRemoval : Bool
  registry : Registry
  history : History
  transcript : Transcript
  keeper : Option Snapshot.Keeper
  /-- How a snapshot is taken of the tree, which may fail. -/
  capture : Tree → Except Text Json

namespace Console

/-- A new console at the root, with the built-in commands. -/
def start [Folding] (user : Json) (strictRemoval : Bool) (historyLimit : Int)
    (keeper : Option Snapshot.Keeper) : Console where
  cwd := "/"
  user := user
  strictRemoval := strictRemoval
  registry := .builtin
  history := .empty historyLimit
  transcript := .empty
  keeper := keeper
  capture := fun t => .ok t.snapshot

/-- Adds a command, in place of the one with its name. -/
def register (c : Console) (name description : Text) (run : Handler) : Console :=
  { c with registry := c.registry.register name description run }

/-- The text before the place where a line is typed. -/
def prompt (c : Console) : Text :=
  DosConsole.prompt c.user c.cwd

/-- What the commands of the console may look at and change. -/
def workspace (c : Console) (t : Tree) : Workspace :=
  ⟨t, c.cwd, c.user, c.strictRemoval⟩

/-- Hands a snapshot of the tree to the keeper. -/
def persist (c : Console) (m : Machine) : Console × Machine :=
  match c.keeper with
  | none => (c, m)
  | some keeper =>
    match c.capture m.tree with
    | .error cause => (c, m.notify [.treeNotTaken cause])
    | .ok snapshot =>
      let (keeper, disk, notices) := keeper.submit m.disk snapshot
      ({ c with keeper := some keeper }, { m with disk }.notify notices)

/-- The console and the machine after a line was run, before anything is kept. -/
def settle (c : Console) (m : Machine) (line : Text) (e : Execution) : Console × Machine :=
  ({ c with
      cwd := e.workspace.cwd
      user := e.workspace.user
      strictRemoval := e.workspace.strictRemoval
      history := c.history.note line
      transcript := c.transcript.apply e.outcome },
    { m with tree := e.workspace.tree }.notify (e.fault.toList.map .commandFaulted))

/-- Runs a line. -/
def submit (c : Console) (m : Machine) (line : Text) : Outcome × Console × Machine :=
  let e := c.registry.execute line (c.workspace m.tree)
  let (after, changed) := c.settle m line e
  if changed.tree.revision = m.tree.revision then (e.outcome, after, changed)
  else
    let (after, kept) := after.persist changed
    (e.outcome, after, kept)

/-- Completes the text typed so far. Several candidates are shown. -/
def complete [Folding] (c : Console) (m : Machine) (text : Text) : Completion × Console :=
  let result := c.registry.complete m.tree c.cwd text
  (result,
    if result.isAmbiguous then { c with transcript := c.transcript.extend result.candidates }
    else c)

/-- Recalls an older line. -/
def older (c : Console) : Option Text × Console :=
  let (line, history) := c.history.older
  (line, { c with history })

/-- Recalls a newer line. -/
def newer (c : Console) : Option Text × Console :=
  let (line, history) := c.history.newer
  (line, { c with history })

/-- Has the oldest of the snapshots that wait written, if one does. -/
def advance (c : Console) (m : Machine) : Console × Machine :=
  match c.keeper with
  | none => (c, m)
  | some keeper =>
    let (keeper, disk, notices) := keeper.advance m.disk
    ({ c with keeper := some keeper }, { m with disk }.notify notices)

/-- Has everything written that still waits. -/
def close (c : Console) (m : Machine) : Console × Machine :=
  match c.keeper with
  | none => (c, m)
  | some keeper =>
    let (keeper, disk, notices) := keeper.close m.disk
    ({ c with keeper := some keeper }, { m with disk }.notify notices)

end Console

end DosConsole
