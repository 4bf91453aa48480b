import DosConsole.Disk.Document
import DosConsole.Notice
import DosConsole.Tree.Record

/-!
# The snapshot file

The tree is kept on the disk as one document, its snapshot. A snapshot that is not there stands for
the tree of a new installation; so does one that cannot be read, with a notice.
-/

namespace DosConsole.Snapshot

/-- The tree in the file at a location. -/
def read [Folding] (d : Disk) (l : Location) : Tree × List Notice :=
  match d.readDocument l with
  | .error _ => (.seed, [.snapshotUnreadable l])
  | .ok v =>
    match Tree.ofSnapshot v with
    | .error _ => (.seed, [.snapshotUnreadable l])
    | .ok t => (t, [])

/-- The tree of the snapshot at a location. It is refused only if the disk cannot tell whether there
is one. -/
def load [Folding] (d : Disk) (l : Location) : Except DiskError (Tree × List Notice) :=
  match d.has l with
  | .error e => .error e
  | .ok true => .ok (read d l)
  | .ok false => .ok (.seed, [])

/-- Writes the snapshot of a tree to a location. -/
def save (d : Disk) (l : Location) (t : Tree) : Disk × Except DocumentError Unit :=
  d.replaceDocument l t.snapshot

end DosConsole.Snapshot
