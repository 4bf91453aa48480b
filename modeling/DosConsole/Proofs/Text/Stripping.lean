import DosConsole.Text.Blank
import Mathlib.Data.List.TakeWhile

/-!
# Blanks at the ends of a text

A text is what is left of it after stripping with the blanks that were stripped
(`exists_stripLeft`, `exists_stripRight`), and blanks that are put around a text are stripped with
its own (`strip_append`). If only those at the end are stripped, blanks at the front are left over,
unless nothing else is there (`stripRight_append_left`).
-/

namespace DosConsole.Text

variable {blanks : Text}

theorem dropWhile_of_isBlankLine (h : blanks.isBlankLine = true) : blanks.dropWhile isBlank = [] :=
  List.dropWhile_eq_nil_iff.mpr (List.all_eq_true.mp h)

theorem isBlankLine_reverse (h : blanks.isBlankLine = true) :
    isBlankLine blanks.reverse = true := by
  rwa [isBlankLine, List.all_reverse]

/-! ### At the front -/

theorem stripLeft_append (h : blanks.isBlankLine = true) (t : Text) :
    stripLeft (blanks ++ t) = t.stripLeft :=
  List.dropWhile_append_of_pos (List.all_eq_true.mp h)

/-- A text is what is left of it after the blanks at its front. -/
theorem exists_stripLeft (t : Text) :
    ∃ blanks : Text, blanks.isBlankLine = true ∧ t = blanks ++ t.stripLeft :=
  ⟨t.takeWhile isBlank, List.all_takeWhile, List.takeWhile_append_dropWhile.symm⟩

/-! ### At the end -/

theorem stripRight_append (h : blanks.isBlankLine = true) (t : Text) :
    stripRight (t ++ blanks) = t.stripRight := by
  rw [stripRight, List.reverse_append, ← stripLeft, stripLeft_append (isBlankLine_reverse h)]
  rfl

/-- A text is what is left of it before the blanks at its end. -/
theorem exists_stripRight (t : Text) :
    ∃ blanks : Text, blanks.isBlankLine = true ∧ t = t.stripRight ++ blanks := by
  obtain ⟨blanks, hblank, ht⟩ := exists_stripLeft t.reverse
  refine ⟨blanks.reverse, isBlankLine_reverse hblank, ?_⟩
  rw [stripRight, ← List.reverse_append, ← stripLeft, ← ht, List.reverse_reverse]

/-- Blanks at the front are left over unless nothing else is. -/
theorem stripRight_append_left (h : blanks.isBlankLine = true) (t : Text) :
    stripRight (blanks ++ t) = if t.stripRight = [] then [] else blanks ++ t.stripRight := by
  rw [stripRight, List.reverse_append, List.dropWhile_append, stripRight]
  cases hrest : t.reverse.dropWhile isBlank with
  | nil =>
    rw [dropWhile_of_isBlankLine (isBlankLine_reverse h)]
    rfl
  | cons c rest =>
    rw [List.isEmpty_cons, if_neg Bool.false_ne_true, List.reverse_append, List.reverse_reverse,
      if_neg (by simp)]

/-! ### At both ends -/

/-- Blanks around a text are stripped together with its own. -/
theorem strip_append {before after : Text} (hbefore : before.isBlankLine = true)
    (hafter : after.isBlankLine = true) (t : Text) : strip (before ++ t ++ after) = t.strip := by
  rw [strip, List.append_assoc, stripLeft_append hbefore, stripLeft, List.dropWhile_append]
  split
  · rename_i hnothing
    rw [dropWhile_of_isBlankLine hafter, strip, stripLeft, List.isEmpty_iff.mp hnothing]
  · exact stripRight_append hafter _

end DosConsole.Text
