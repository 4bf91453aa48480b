import DosConsole.Program
import Mathlib.Data.List.TakeWhile

/-!
# Runs of lines

A run of lines prints what each line shows, and it is over with the first text that is not taken.
Lines that are run in one go are run one part after the other (`submitAll_append`), and what each
line keeps of a console and its machine, the whole run keeps (`submitAll_keeps`).
-/

namespace DosConsole.Program

/-! ### Going on -/

namespace Batch

/-- A run that is **continued** by another one, which began where the first came to. -/
def continuedBy (b more : Batch) : Batch :=
  if b.stopped then b
  else { more with output := b.output ++ more.output, succeeded := b.succeeded && more.succeeded }

theorem continuedBy_of_stopped {b : Batch} (h : b.stopped = true) (more : Batch) :
    b.continuedBy more = b := by
  rw [continuedBy, if_pos h]

theorem continuedBy_of_not_stopped {b : Batch} (h : b.stopped = false) (more : Batch) :
    b.continuedBy more =
      { more with
        output := b.output ++ more.output
        succeeded := b.succeeded && more.succeeded } := by
  rw [continuedBy, if_neg (Bool.eq_false_iff.mp h)]

theorem continuedBy_start (b : Batch) : b.continuedBy (start b.console b.machine) = b := by
  cases h : b.stopped with
  | true => exact continuedBy_of_stopped h _
  | false =>
    rw [continuedBy_of_not_stopped h, start, List.append_nil, Bool.and_true, ← h]

theorem continuedBy_assoc (b more last : Batch) :
    (b.continuedBy more).continuedBy last = b.continuedBy (more.continuedBy last) := by
  cases hb : b.stopped with
  | true => simp only [continuedBy_of_stopped hb]
  | false =>
    cases hmore : more.stopped with
    | true => simp only [continuedBy, hb, hmore, Bool.false_eq_true, if_false, if_true]
    | false =>
      simp only [continuedBy, hb, hmore, Bool.false_eq_true, if_false, List.append_assoc,
        Bool.and_assoc]

theorem ending_report_iff (b : Batch) :
    b.report.ending = .fault .unprintable ↔ b.stopped = true := by
  cases h : b.stopped <;> simp [report, h]

/-- A run fails if it is stopped or if one of its lines does. -/
theorem exitCode_report_iff (b : Batch) :
    b.report.ending.exitCode = 1 ↔ b.stopped = true ∨ b.succeeded = false := by
  cases h : b.stopped <;> cases hs : b.succeeded <;> simp [report, Ending.exitCode, h, hs]

end Batch

/-! ### Running lines -/

theorem textOf_append (texts more : List Text) :
    textOf (texts ++ more) = textOf texts ++ textOf more :=
  List.flatMap_append

variable [Outlet]

theorem printedOf_of_takes {texts : List Text}
    (h : ∀ text ∈ texts, Outlet.takes text = true) : printedOf texts = textOf texts := by
  rw [printedOf, List.takeWhile_eq_self_iff.mpr h]

/-- Texts that follow are printed if all before them were taken. -/
theorem printedOf_append (texts more : List Text) :
    printedOf (texts ++ more) =
      if texts.all Outlet.takes then textOf texts ++ printedOf more else printedOf texts := by
  rw [printedOf, printedOf, printedOf, List.takeWhile_append, ← textOf_append]
  have hlength : (texts.takeWhile Outlet.takes).length = texts.length ↔
      texts.all Outlet.takes = true := by
    rw [List.all_eq_true, ← List.takeWhile_eq_self_iff]
    exact ⟨(List.takeWhile_prefix _).eq_of_length, congrArg List.length⟩
  simp only [hlength]
  split
  · rfl
  · rfl

namespace Batch

theorem next_of_stopped {b : Batch} (h : b.stopped = true) (echo : Bool) (line : Text) :
    b.next echo line = b := by
  rw [next, if_pos h]

theorem next_of_not_stopped {b : Batch} (h : b.stopped = false) (echo : Bool) (line : Text) :
    b.next echo line =
      { console := (b.console.submit b.machine line).2.1
        machine := (b.console.submit b.machine line).2.2
        output := b.output ++ printedOf (printed echo line (b.console.submit b.machine line).1)
        succeeded := b.succeeded && (b.console.submit b.machine line).1.success
        stopped :=
          !(printed echo line (b.console.submit b.machine line).1).all Outlet.takes } := by
  rw [next, if_neg (Bool.eq_false_iff.mp h)]

/-- A line is run as it would be if nothing had been run before. -/
theorem next_eq (b : Batch) (echo : Bool) (line : Text) :
    b.next echo line = b.continuedBy ((start b.console b.machine).next echo line) := by
  cases h : b.stopped with
  | true => rw [next_of_stopped h, continuedBy_of_stopped h]
  | false =>
    rw [next_of_not_stopped h, continuedBy_of_not_stopped h, next_of_not_stopped rfl]
    rfl

/-- Lines that are run when others were run before continue these. -/
theorem foldl_next (b : Batch) (echo : Bool) (lines : List Text) :
    lines.foldl (next echo) b = b.continuedBy (submitAll b.console b.machine lines echo) := by
  induction lines generalizing b with
  | nil => exact b.continuedBy_start.symm
  | cons line rest ih =>
    rw [submitAll, List.foldl_cons, List.foldl_cons, ih, ih, ← continuedBy_assoc, ← b.next_eq]
    cases h : b.stopped with
    | true =>
      -- neither of the two goes on
      rw [next_of_stopped h, continuedBy_of_stopped h, continuedBy_of_stopped h]
    | false => rw [next_of_not_stopped h, next_of_not_stopped rfl]; rfl

end Batch

/-- **Part after part.** Lines that are run in one go are run one part after the other. -/
theorem submitAll_append (c : Console) (m : Machine) (lines more : List Text) (echo : Bool) :
    submitAll c m (lines ++ more) echo =
      (submitAll c m lines echo).continuedBy (submitAll (submitAll c m lines echo).console
        (submitAll c m lines echo).machine more echo) := by
  rw [submitAll, List.foldl_append]
  exact Batch.foldl_next _ _ _

theorem submitAll_cons (c : Console) (m : Machine) (line : Text) (rest : List Text) (echo : Bool) :
    submitAll c m (line :: rest) echo =
      ((Batch.start c m).next echo line).continuedBy
        (submitAll (c.submit m line).2.1 (c.submit m line).2.2 rest echo) := by
  rw [submitAll, List.foldl_cons, Batch.foldl_next, Batch.next_of_not_stopped rfl]
  rfl

/-- **Every line.** What each line keeps of a console and its machine, a run of lines keeps. -/
theorem submitAll_keeps {P : Console → Machine → Prop}
    (hstep : ∀ c m line, P c m → P (c.submit m line).2.1 (c.submit m line).2.2) {c : Console}
    {m : Machine} (h : P c m) (lines : List Text) (echo : Bool) :
    P (submitAll c m lines echo).console (submitAll c m lines echo).machine := by
  rw [submitAll]
  refine List.foldlRecOn lines (Batch.next echo) (b := Batch.start c m)
    (motive := fun b => P b.console b.machine) h fun b hb line _ => ?_
  rw [Batch.next]
  split
  · exact hb
  · exact hstep _ _ line hb

end DosConsole.Program
