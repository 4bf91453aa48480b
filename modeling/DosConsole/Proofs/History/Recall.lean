import DosConsole.Proofs.History.Log
import Mathlib.Data.List.DropRight

/-!
# Recalling lines

A history is used in four ways, its **moves**: a line is logged, an older or a newer line is
recalled, or the selection is given up. What matters of the cursor is the **position** that it
stands for, which is the end of the log when no line is selected. Seen so, recalling is a walk along
the log that stops at the oldest line on one side and behind the newest line on the other
(`History.Walks`).

All that the walk needs is that the cursor lies inside the log (`History.IsInside`). Every move
keeps this; dropping lines moves the others to new places, but whenever lines are dropped none is
selected. From there two laws about repeated moves follow (`History.Retraces`): going back recalls
one line after the other, from the newest on, and going forth recalls them again.
-/

namespace DosConsole.History

/-! ### Moves -/

/-- What a history is used for. -/
inductive Move where
  /-- A line is logged. -/
  | add (line : Text)
  /-- An older line is recalled. -/
  | older
  /-- A newer line is recalled. -/
  | newer
  /-- The selection is given up. -/
  | deselect

/-- The line that a move logs. -/
def Move.line? : Move → Option Text
  | .add line => some line
  | _ => none

/-- The lines that were logged, the first first. -/
def logged (moves : List Move) : List Text :=
  moves.filterMap Move.line?

/-- The history after a move. -/
def move (h : History) : Move → History
  | .add line => h.add line
  | .older => h.older.2
  | .newer => h.newer.2
  | .deselect => h.deselect

/-- The history after moves, one after the other. -/
def run (h : History) (moves : List Move) : History :=
  moves.foldl move h

theorem run_append (h : History) (moves more : List Move) :
    h.run (moves ++ more) = (h.run moves).run more :=
  List.foldl_append

/-- What each move keeps is kept by all of them. -/
theorem keeps_run {P : History → Prop} (hmove : ∀ h m, P h → P (h.move m)) {h : History} (hP : P h)
    (moves : List Move) : P (h.run moves) := by
  induction moves generalizing h with
  | nil => exact hP
  | cons m rest ih => exact ih (hmove h m hP)

/-! ### The log -/

theorem kept_of_pos {limit : Int} (h : 0 < limit) (lines : List Text) :
    kept limit lines = lines.rtake limit.toNat := by
  have hdropped : (lines.length - limit).toNat = lines.length - limit.toNat := by omega
  rw [kept_of_ne_zero (by omega), hdropped, List.rtake]

theorem kept_of_neg {limit : Int} (h : limit < 0) (lines : List Text) : kept limit lines = [] := by
  rw [kept_of_ne_zero (by omega)]
  exact List.drop_eq_nil_of_le (by omega)

/-- After a move the history holds what is kept with the line that the move logged. -/
theorem Holds.move {h : History} {limit : Int} {lines : List Text} (holds : h.Holds limit lines)
    (m : Move) : (h.move m).Holds limit (lines ++ logged [m]) := by
  cases m with
  | add line => exact holds.add line
  | older => exact (List.append_nil lines).symm ▸ holds.older
  | newer => exact (List.append_nil lines).symm ▸ holds.newer
  | deselect => exact (List.append_nil lines).symm ▸ ⟨holds.bound, holds.entries⟩

/-- After moves the history holds what is kept of all lines that were logged. -/
theorem Holds.run {h : History} {limit : Int} {lines : List Text} (holds : h.Holds limit lines)
    (moves : List Move) : (h.run moves).Holds limit (lines ++ logged moves) := by
  induction moves generalizing h lines with
  | nil => exact (List.append_nil lines).symm ▸ holds
  | cons m rest ih =>
    have hlogged : lines ++ logged (m :: rest) = lines ++ logged [m] ++ logged rest := by
      rw [List.append_assoc, logged, logged, logged, ← List.filterMap_append]
      rfl
    rw [hlogged]
    exact ih (holds.move m)

/-! ### The position -/

/-- The **position** in the log, which is its end if no line is selected. -/
def position (h : History) : Nat :=
  h.cursor.getD h.size

/-- The cursor lies **inside** the log. -/
def IsInside (h : History) : Prop :=
  ∀ i ∈ h.cursor, i < h.size

/-- What is recalled is the line at that place of the log. -/
def IsLine (h : History) (i : Nat) (recalled : Option Text) : Prop :=
  ∃ hi : i < h.entries.length, recalled = some h.entries[i]

/-- **A walk along the log.** Each move leads to a position and recalls what is there. -/
structure Walks (h : History) : Prop where
  inside : h.IsInside
  /-- After a line was logged none is selected. -/
  add : ∀ line, (h.add line).position = (h.add line).size
  deselect : h.deselect.position = h.size ∧ h.deselect.entries = h.entries
  /-- One step back, except at the oldest line. -/
  older : h.entries ≠ [] → h.older.2.position = h.position - 1 ∧ h.older.2.entries = h.entries ∧
    h.IsLine (h.position - 1) h.older.1
  /-- One step forth, except at the end. -/
  newer : h.entries ≠ [] →
    h.newer.2.position = min h.size (h.position + 1) ∧ h.newer.2.entries = h.entries ∧
      (h.position + 1 < h.size → h.IsLine (h.position + 1) h.newer.1) ∧
      (h.position + 1 = h.size → h.newer.1 = some []) ∧
      (h.position = h.size → h.newer.1 = none)
  empty : h.entries = [] → h.older = (none, h) ∧ h.newer = (none, h)

variable {h : History}

theorem isInside_of_cursor (hcursor : h.cursor = none) : h.IsInside := by
  intro i hi
  rw [hcursor] at hi
  exact absurd hi (by simp)

theorem position_of_cursor (hcursor : h.cursor = none) : h.position = h.size := by
  rw [position, hcursor, Option.getD_none]

theorem size_pos (hentries : h.entries ≠ []) : 0 < h.size :=
  List.length_pos_iff.mpr hentries

theorem older_of_empty (hentries : h.entries = []) : h.older = (none, h) := by
  rw [older, if_pos (List.isEmpty_iff.mpr hentries)]

theorem newer_of_empty (hentries : h.entries = []) : h.newer = (none, h) := by
  rw [newer]
  split
  · rfl
  · rw [if_pos (List.isEmpty_iff.mpr hentries)]

/-- An older line is the one before the position. -/
theorem older_of_ne_nil (hentries : h.entries ≠ []) :
    h.older = (h.entries[h.position - 1]?, { h with cursor := some (h.position - 1) }) := by
  rw [older, if_neg (by simpa using hentries), position]
  cases h.cursor with
  | none => rfl
  | some i => rfl

/-- Before the end a newer line is the one after the position; after the newest line it is empty. -/
theorem newer_of_lt (hlt : h.position < h.size) :
    h.newer = if h.size ≤ h.position + 1 then (some [], { h with cursor := none })
      else (h.entries[h.position + 1]?, { h with cursor := some (h.position + 1) }) := by
  have hentries : h.entries ≠ [] := List.ne_nil_of_length_pos (Nat.zero_lt_of_lt hlt)
  cases hcursor : h.cursor with
  | none => exact absurd (position_of_cursor hcursor) (Nat.ne_of_lt hlt)
  | some i =>
    have hposition : h.position = i := by rw [position, hcursor, Option.getD_some]
    rw [newer, hcursor, hposition]
    simp only
    rw [if_neg (by simpa using hentries), size]

/-- Whatever the log, the cursor is inside it or the position is its end. -/
theorem IsInside.position_le (hinside : h.IsInside) : h.position ≤ h.size := by
  rw [position]
  cases hcursor : h.cursor with
  | none => exact Nat.le_refl _
  | some i => exact Nat.le_of_lt (hinside i hcursor)

theorem IsInside.cursor_of_position (hinside : h.IsInside) (hend : h.position = h.size) :
    h.cursor = none := by
  cases hcursor : h.cursor with
  | none => rfl
  | some i =>
    rw [position, hcursor, Option.getD_some] at hend
    exact absurd hend (Nat.ne_of_lt (hinside i hcursor))

theorem newer_of_cursor (hcursor : h.cursor = none) : h.newer = (none, h) := by
  rw [newer, hcursor]

/-- The four moves are a walk if the cursor lies inside the log. -/
theorem IsInside.walks (hinside : h.IsInside) : h.Walks where
  inside := hinside
  add _ := rfl
  deselect := ⟨rfl, rfl⟩
  older hentries := by
    have hpos := size_pos hentries
    have hlt : h.position - 1 < h.entries.length := by
      have := hinside.position_le
      rw [size] at this hpos
      omega
    rw [older_of_ne_nil hentries]
    exact ⟨rfl, rfl, hlt, List.getElem?_eq_getElem hlt⟩
  newer hentries := by
    rcases Nat.lt_or_eq_of_le hinside.position_le with hlt | hend
    · rw [newer_of_lt hlt]
      by_cases hlast : h.size ≤ h.position + 1
      · rw [if_pos hlast]
        refine ⟨(Nat.min_eq_left hlast).symm, rfl, fun h' => ?_, fun _ => rfl, fun h' => ?_⟩
        · omega
        · omega
      · rw [if_neg hlast]
        have hnext : h.position + 1 < h.size := Nat.lt_of_not_le hlast
        refine ⟨(Nat.min_eq_right hnext.le).symm, rfl,
          fun _ => ⟨hnext, List.getElem?_eq_getElem hnext⟩, fun h' => ?_, fun h' => ?_⟩
        · omega
        · omega
    · rw [newer_of_cursor (hinside.cursor_of_position hend), hend]
      refine ⟨(Nat.min_eq_left (Nat.le_succ _)).symm, rfl, fun h' => ?_, fun h' => ?_, fun _ => rfl⟩
      · omega
      · omega
  empty hentries := ⟨older_of_empty hentries, newer_of_empty hentries⟩

/-- **One move.** The cursor stays inside the log. -/
theorem IsInside.move (hinside : h.IsInside) (m : Move) : (h.move m).IsInside := by
  cases m with
  | add line => exact isInside_of_cursor rfl
  | older =>
    rw [History.move]
    by_cases hentries : h.entries = []
    · rw [older_of_empty hentries]
      exact hinside
    · obtain ⟨-, -, hlt, -⟩ := hinside.walks.older hentries
      rw [older_of_ne_nil hentries]
      intro i hi
      obtain rfl := Option.some.inj hi
      exact hlt
  | newer =>
    rw [History.move]
    rcases Nat.lt_or_eq_of_le hinside.position_le with hlt | hend
    · rw [newer_of_lt hlt]
      split
      · exact isInside_of_cursor rfl
      · rename_i hnext
        intro i hi
        obtain rfl := Option.some.inj hi
        exact Nat.lt_of_not_le hnext
    · rw [newer_of_cursor (hinside.cursor_of_position hend)]
      exact hinside
  | deselect => exact isInside_of_cursor rfl

/-! ### The same move again and again -/

/-- **There and back.** Going back recalls one line after the other, from the newest on, and the
oldest again and again. Going forth from there recalls them in turn up to the newest, then blanks
the input once, and recalls nothing after that. -/
structure Retraces (h : History) : Prop where
  back : ∀ k, h.IsLine (h.size - (k + 1)) (h.run (List.replicate k .older)).older.1
  forth : ∀ k j,
    let recalled :=
      (h.run (List.replicate (k + 1) .older ++ List.replicate j .newer)).newer.1
    let place := h.size - (k + 1) + (j + 1)
    (place < h.size → h.IsLine place recalled) ∧ (place = h.size → recalled = some []) ∧
      (h.size < place → recalled = none)

/-- Going back `k` times leads `k` places back, but not before the oldest line. -/
theorem IsInside.run_older (hinside : h.IsInside) (hentries : h.entries ≠ []) (k : Nat) :
    let after := h.run (List.replicate k .older)
    after.IsInside ∧ after.entries = h.entries ∧ after.position = h.position - k := by
  induction k generalizing h with
  | zero => exact ⟨hinside, rfl, rfl⟩
  | succ k ih =>
    obtain ⟨hposition, hsame, -⟩ := hinside.walks.older hentries
    obtain ⟨hinside', hentries', hposition'⟩ :=
      ih (hinside.move .older) (hsame.symm ▸ hentries : h.older.2.entries ≠ [])
    refine ⟨hinside', hentries'.trans hsame, hposition'.trans ?_⟩
    -- the first step was cut off at the oldest line if any is
    show h.older.2.position - k = _
    omega

/-- Going forth `j` times leads `j` places on, but not beyond the end. -/
theorem IsInside.run_newer (hinside : h.IsInside) (hentries : h.entries ≠ []) (j : Nat) :
    let after := h.run (List.replicate j .newer)
    after.IsInside ∧ after.entries = h.entries ∧ after.position = min h.size (h.position + j) := by
  induction j generalizing h with
  | zero => exact ⟨hinside, rfl, (Nat.min_eq_right hinside.position_le).symm⟩
  | succ j ih =>
    obtain ⟨hposition, hsame, -⟩ := hinside.walks.newer hentries
    obtain ⟨hinside', hentries', hposition'⟩ :=
      ih (hinside.move .newer) (hsame.symm ▸ hentries : h.newer.2.entries ≠ [])
    refine ⟨hinside', hentries'.trans hsame, hposition'.trans ?_⟩
    have hsize : h.newer.2.size = h.size := congrArg List.length hsame
    show min h.newer.2.size (h.newer.2.position + j) = _
    omega

/-- Logs with the same lines have the same line at each place. -/
theorem IsLine.of_entries {after : History} {i : Nat} {recalled : Option Text}
    (hline : after.IsLine i recalled) (hsame : after.entries = h.entries) :
    h.IsLine i recalled := by
  obtain ⟨hi, hrecalled⟩ := hline
  exact ⟨hsame ▸ hi, by simpa only [hsame] using hrecalled⟩

/-- From the end of a log that is not empty the way back is the way forth. -/
theorem retraces (hcursor : h.cursor = none) (hentries : h.entries ≠ []) : h.Retraces where
  back k := by
    obtain ⟨hinside, hsame, hposition⟩ := (isInside_of_cursor hcursor).run_older hentries k
    obtain ⟨-, -, hline⟩ := hinside.walks.older (hsame.symm ▸ hentries)
    rw [hposition, position_of_cursor hcursor, Nat.sub_sub] at hline
    exact hline.of_entries hsame
  forth k j := by
    obtain ⟨hinside, hsame, hposition⟩ := (isInside_of_cursor hcursor).run_older hentries (k + 1)
    obtain ⟨hinside', hsame', hposition'⟩ := hinside.run_newer (hsame.symm ▸ hentries) j
    rw [← run_append] at hinside' hsame' hposition'
    rw [position_of_cursor hcursor] at hposition
    generalize h.run (List.replicate (k + 1) .older ++ List.replicate j .newer) = after at *
    have hlines : after.entries = h.entries := hsame'.trans hsame
    have hsize : after.size = h.size := congrArg List.length hlines
    obtain ⟨-, -, hnext, hblank, hnothing⟩ := hinside'.walks.newer (hlines.symm ▸ hentries)
    have hback : (h.run (List.replicate (k + 1) .older)).size = h.size := congrArg List.length hsame
    rw [hback, hposition] at hposition'
    -- the place that is asked for lies one step from the position, unless the end was reached
    refine ⟨fun hlt => ?_, fun hend => ?_, fun hbeyond => ?_⟩
    · have hplace : after.position + 1 = h.size - (k + 1) + (j + 1) := by omega
      exact hplace ▸ (hnext (by omega)).of_entries hlines
    · exact hblank (by omega)
    · exact hnothing (by omega)

/-- **History recall is a clamped walk over a trimmed log.** Whatever was done, the log holds the
newest lines up to the limit, all lines under a limit of zero and none under a negative one; each
move is a step of the walk along it; and once a line was logged and the log is not empty, going back
and forth retraces its lines. -/
theorem recall_walks (limit : Int) (moves : List Move) :
    let h := (empty limit).run moves
    (0 < limit → h.entries = (logged moves).rtake limit.toNat) ∧
      (limit = 0 → h.entries = logged moves) ∧ (limit < 0 → h.entries = []) ∧
      h.Walks ∧ ∀ line, (h.add line).entries ≠ [] → (h.add line).Retraces := by
  intro h
  have hholds : h.Holds limit (logged moves) := (holds_empty limit).run moves
  have hinside : h.IsInside :=
    keeps_run (fun _ m hinside => hinside.move m) (isInside_of_cursor rfl) moves
  refine ⟨fun hpos => ?_, fun hzero => ?_, fun hneg => ?_, hinside.walks, fun line hentries => ?_⟩
  · rw [hholds.entries, kept_of_pos hpos]
  · rw [hholds.entries, kept, if_pos hzero]
  · rw [hholds.entries, kept_of_neg hneg]
  · exact retraces rfl hentries

end DosConsole.History
