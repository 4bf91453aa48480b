import DosConsole.History
import Mathlib.Data.List.Basic

/-!
# What a history keeps

Whatever lines are logged, in the end the log holds what is **kept** of all of them: the newest ones
up to the limit. It does not matter that lines are dropped as others come in, since a line that was
dropped is never among the newest again (`kept_kept_append`). Recalling leaves the log alone.
-/

namespace DosConsole.History

/-- The lines that are **kept** of those that were logged: all of them under a limit of zero, and
otherwise the newest, as many as the limit says. -/
def kept (limit : Int) (lines : List Text) : List Text :=
  if limit = 0 then lines else lines.drop (lines.length - limit).toNat

theorem kept_of_ne_zero {limit : Int} (h : limit ≠ 0) (lines : List Text) :
    kept limit lines = lines.drop (lines.length - limit).toNat := by
  rw [kept, if_neg h]

theorem kept_nil (limit : Int) : kept limit [] = [] := by
  rw [kept]
  split
  · rfl
  · exact List.drop_nil

/-- What is kept after another line is kept of what was kept before it. -/
theorem kept_kept_append (limit : Int) (lines : List Text) (line : Text) :
    kept limit (kept limit lines ++ [line]) = kept limit (lines ++ [line]) := by
  by_cases hzero : limit = 0
  · subst hzero
    rfl
  simp only [kept_of_ne_zero hzero]
  by_cases hfits : (lines.length - limit).toNat ≤ lines.length
  · -- what is dropped at last goes on where the first drop ended
    rw [← List.drop_append_of_le_length hfits, List.drop_drop]
    congr 1
    simp only [List.length_drop, List.length_append, List.length_singleton]
    omega
  · -- under a negative limit nothing stays
    have hnone : lines.drop (lines.length - limit).toNat = [] :=
      List.drop_eq_nil_of_le (by omega)
    rw [hnone, List.drop_eq_nil_of_le, List.drop_eq_nil_of_le]
    · simp only [List.length_append, List.length_singleton]
      omega
    · simp only [List.length_append, List.length_nil, List.length_singleton]
      omega

/-! ### What happens to a history -/

variable {h : History}

/-- Recalling an older line changes the cursor only. -/
theorem older_eq (h : History) : h.older.2 = { h with cursor := h.older.2.cursor } := by
  rw [older]
  split
  · rfl
  · rfl

/-- Recalling a newer line changes the cursor only. -/
theorem newer_eq (h : History) : h.newer.2 = { h with cursor := h.newer.2.cursor } := by
  rw [newer]
  split
  · rfl
  · split
    · rfl
    · split
      · rfl
      · rfl

/-- The history holds what is kept, under a limit, of the lines that were logged. -/
structure Holds (h : History) (limit : Int) (lines : List Text) : Prop where
  bound : h.limit = limit
  entries : h.entries = kept limit lines

theorem holds_empty (limit : Int) : (empty limit).Holds limit [] :=
  ⟨rfl, (kept_nil limit).symm⟩

section Holds

variable {limit : Int} {lines : List Text}

/-- A line that is logged comes after those before it. -/
theorem Holds.add (holds : h.Holds limit lines) (line : Text) :
    (h.add line).Holds limit (lines ++ [line]) := by
  obtain ⟨rfl, hentries⟩ := holds
  refine ⟨rfl, ?_⟩
  rw [← kept_kept_append, ← hentries]
  rfl

/-- A line that is noted is logged unless it is blank. -/
theorem Holds.note (holds : h.Holds limit lines) (line : Text) :
    (h.note line).Holds limit (lines ++ if line.isBlankLine then [] else [line]) := by
  rw [History.note]
  split
  · rw [List.append_nil]
    exact holds
  · exact holds.add line

theorem Holds.older (holds : h.Holds limit lines) : h.older.2.Holds limit lines := by
  rw [older_eq]
  exact ⟨holds.bound, holds.entries⟩

theorem Holds.newer (holds : h.Holds limit lines) : h.newer.2.Holds limit lines := by
  rw [newer_eq]
  exact ⟨holds.bound, holds.entries⟩

end Holds

/-- A line that is not blank leaves no line selected. -/
theorem cursor_note {line : Text} (hblank : line.isBlankLine = false) :
    (h.note line).cursor = none := by
  rw [note, if_neg (Bool.eq_false_iff.mp hblank)]
  rfl

end DosConsole.History
