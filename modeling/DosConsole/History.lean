import DosConsole.Text.Blank

/-!
# The history of lines

The history is a log of submitted lines with a **cursor** for recalling them. The log keeps the
newest `limit` lines; a limit of zero keeps all, and under a negative limit nothing is kept.
Recalling moves the cursor and never the log: `older` stops at the oldest line, and `newer` leaves
the log past the newest line, where the input is blanked.
-/

namespace DosConsole

structure History where
  limit : Int
  /-- The lines, the oldest first. -/
  entries : List Text
  /-- The position of the line that was recalled last. -/
  cursor : Option Nat
  deriving DecidableEq

namespace History

/-- The history without lines. -/
def empty (limit : Int) : History :=
  ⟨limit, [], none⟩

def size (h : History) : Nat :=
  h.entries.length

/-- Logs a line, drops the oldest lines beyond the limit and selects none. -/
def add (h : History) (line : Text) : History :=
  let entries := h.entries ++ [line]
  let excess := (entries.length - h.limit).toNat
  { h with entries := if h.limit = 0 then entries else entries.drop excess, cursor := none }

/-- Logs a line unless it is blank. -/
def note (h : History) (line : Text) : History :=
  if line.isBlankLine then h else h.add line

/-- Recalls the line before the selected one, from no selection the newest. -/
def older (h : History) : Option Text × History :=
  if h.entries.isEmpty then (none, h)
  else
    let i := match h.cursor with
      | none => h.entries.length - 1
      | some i => i - 1
    (h.entries[i]?, { h with cursor := some i })

/-- Recalls the line after the selected one, after the newest the empty line. Without a selection
nothing is recalled. -/
def newer (h : History) : Option Text × History :=
  match h.cursor with
  | none => (none, h)
  | some i =>
    if h.entries.isEmpty then (none, h)
    else if h.entries.length ≤ i + 1 then (some [], { h with cursor := none })
    else (h.entries[i + 1]?, { h with cursor := some (i + 1) })

/-- Selects no line. -/
def deselect (h : History) : History :=
  { h with cursor := none }

end History

end DosConsole
