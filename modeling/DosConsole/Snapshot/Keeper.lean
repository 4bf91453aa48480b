import DosConsole.Snapshot.Basic

/-!
# Keeping the snapshot up to date

A keeper writes the snapshots that it is given to one location. It writes each at once, or in the
**background**: then they wait, and are written in the order in which they were given, some time
before the keeper is closed. A snapshot that cannot be written is given up with a notice.
-/

namespace DosConsole.Snapshot

structure Keeper where
  target : Location
  /-- Snapshots wait instead of being written at once. -/
  background : Bool
  /-- The snapshots that wait, the oldest first. -/
  pending : List Json

namespace Keeper

/-- A keeper for which nothing waits. -/
def start (target : Location) (background : Bool) : Keeper :=
  ⟨target, background, []⟩

/-- Writes one snapshot. -/
def write (k : Keeper) (d : Disk) (snapshot : Json) : Disk × List Notice :=
  match d.replaceDocument k.target snapshot with
  | (d, .ok ()) => (d, [])
  | (d, .error _) => (d, [.snapshotNotWritten k.target])

/-- Takes a snapshot over. -/
def submit (k : Keeper) (d : Disk) (snapshot : Json) : Keeper × Disk × List Notice :=
  if k.background then ({ k with pending := k.pending ++ [snapshot] }, d, [])
  else
    let (d, notices) := k.write d snapshot
    (k, d, notices)

/-- Writes the oldest of the snapshots that wait. -/
def advance (k : Keeper) (d : Disk) : Keeper × Disk × List Notice :=
  match k.pending with
  | [] => (k, d, [])
  | snapshot :: rest =>
    let (d, notices) := k.write d snapshot
    ({ k with pending := rest }, d, notices)

/-- Writes snapshots one after the other. -/
def writeAll (k : Keeper) (d : Disk) : List Json → Disk × List Notice
  | [] => (d, [])
  | snapshot :: rest =>
    let (d, notices) := k.write d snapshot
    let (d, later) := k.writeAll d rest
    (d, notices ++ later)

/-- Writes all snapshots that wait. The keeper can go on after that. -/
def close (k : Keeper) (d : Disk) : Keeper × Disk × List Notice :=
  let (d, notices) := k.writeAll d k.pending
  ({ k with pending := [] }, d, notices)

end Keeper

end DosConsole.Snapshot
