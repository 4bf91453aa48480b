import DosConsole.Proofs.Console.Batch
import DosConsole.Proofs.Console.Station

/-!
# What the terminal prints

The terminal prints the lines of the transcript that it has not counted yet. Between any two keys it
has counted all of them: it is **caught up**. So whenever it prints, what it finds is what the last
line or completion added, and the count is ahead by the echo if there is one. Hence every line is
handed to the screen once, and only echoes are not (`linesOf_handle`).

A run that is given the same lines and prints them without their echoes prints the same, up to the
first line that is not taken (`Waits.prints_typing`), although it takes the echo off each outcome
and counts nothing.
-/

namespace DosConsole

/-! ### Outcomes of lines -/

/-- The lines of the outcome of a line that are new to somebody who has typed the line: all but the
echo. There is no echo if the outcome clears the screen, and nothing at all for a blank line. -/
def Outcome.unechoed (o : Outcome) (line : Text) : List Text :=
  if line.isBlankLine then [] else if o.clears then o.output else o.output.drop 1

theorem Outcome.clears_echoed (o : Outcome) (echo : Text) : (o.echoed echo).clears = o.clears := by
  rw [echoed]
  split
  · rfl
  · rfl

/-- The echo comes first, unless the screen is cleared. -/
theorem Outcome.output_echoed {o : Outcome} (h : o.clears = false) (echo : Text) :
    (o.echoed echo).output = echo :: o.output := by
  obtain ⟨success, lines, error, exitCode, clears⟩ := o
  obtain rfl : clears = false := h
  match error with
  | none => rfl
  | some [] => rfl
  | some (_ :: _) => rfl

theorem Registry.outcome_blank (r : Registry) {line : Text} (h : line.isBlankLine = true)
    (w : Workspace) : (r.execute line w).outcome = .ok [] := by
  rw [execute, if_pos h]

/-- The outcome of a line that is not blank is echoed. -/
theorem Registry.exists_echoed (r : Registry) {line : Text} (h : line.isBlankLine = false)
    (w : Workspace) : ∃ o : Outcome, (r.execute line w).outcome = o.echoed (w.prompt ++ line) := by
  have hblank : ¬ line.isBlankLine = true := by rw [h]; exact Bool.false_ne_true
  rw [execute, if_neg hblank]
  simp only
  split
  · exact ⟨.unknown _, rfl⟩
  · rw [Execution.ended]
    split
    · exact ⟨_, rfl⟩
    · exact ⟨.faulted _, rfl⟩

namespace Console

theorem transcript_submit (c : Console) (m : Machine) (line : Text) :
    (c.submit m line).2.1.transcript = c.transcript.apply (c.submit m line).1 := by
  rw [console_submit, outcome_submit]
  rfl

/-- Closing a console adds nothing to its transcript. -/
theorem transcript_close (c : Console) (m : Machine) :
    (c.close m).1.transcript = c.transcript := by
  rw [close]
  split
  · rfl
  · rfl

theorem submit_blank (c : Console) (m : Machine) {line : Text} (h : line.isBlankLine = true) :
    (c.submit m line).1 = .ok [] := by
  rw [outcome_submit]
  exact c.registry.outcome_blank h _

/-- What is taken off an outcome that does not clear the screen is the echo of the line. -/
theorem output_submit (c : Console) (m : Machine) {line : Text} (hblank : line.isBlankLine = false)
    (hclears : (c.submit m line).1.clears = false) :
    (c.submit m line).1.output = (c.prompt ++ line) :: (c.submit m line).1.unechoed line := by
  obtain ⟨o, ho⟩ := c.registry.exists_echoed hblank (c.workspace m.tree)
  rw [← outcome_submit] at ho
  rw [Outcome.unechoed, hblank, hclears, ho]
  rw [ho, Outcome.clears_echoed] at hclears
  rw [Outcome.output_echoed hclears]
  rfl

end Console

/-- A run without echoes prints of a line what is new to somebody who has typed it. -/
theorem Program.printed_submit (c : Console) (m : Machine) (line : Text) :
    printed false line (c.submit m line).1 = (c.submit m line).1.unechoed line := by
  rw [printed, Outcome.unechoed]
  cases hblank : line.isBlankLine with
  | true => rw [c.submit_blank m hblank]; rfl
  | false => cases (c.submit m line).1.clears <;> rfl

namespace Terminal

/-! ### One key -/

/-- The lines of the transcript that are not on the screen yet. -/
def unprinted (t : Terminal) : List Text :=
  t.console.transcript.lines.drop t.printed

/-- The terminal is **caught up**: it has counted all lines of the transcript. -/
def IsCaughtUp (t : Terminal) : Prop :=
  t.printed = t.console.transcript.size

/-- The lines that are **due** when a key is handled: for a line that is run, those of its outcome
without the echo, and for a completion that several candidates match, the candidates. -/
def due (t : Terminal) (key : Key) : List Text :=
  if t.closed then []
  else
    match key with
    | .enter =>
      if isExit t.input then [] else (t.console.submit t.machine t.input).1.unechoed t.input
    | .tab =>
      let result := t.console.registry.complete t.machine.tree t.console.cwd t.input
      if result.isAmbiguous then result.candidates else []
    | _ => []

/-- The lines among all that was handed to the screen. -/
def linesOf (shown : List Display) : List Text :=
  shown.filterMap fun
    | .line text => some text
    | _ => none

/-! ### What a key does -/

theorem linesOf_append (shown more : List Display) :
    linesOf (shown ++ more) = linesOf shown ++ linesOf more :=
  List.filterMap_append

theorem linesOf_map_line (texts : List Text) : linesOf (texts.map .line) = texts := by
  rw [linesOf, List.filterMap_map]
  exact List.filterMap_some

/-- The terminal shows the same lines as before, and the count and the transcript are the same. -/
structure IsQuiet (t after : Terminal) : Prop where
  printed : after.printed = t.printed
  transcript : after.console.transcript = t.console.transcript
  lines : linesOf after.shown = linesOf t.shown

theorem IsQuiet.refl (t : Terminal) : IsQuiet t t :=
  ⟨rfl, rfl, rfl⟩

/-- To show something else than lines is quiet. -/
theorem IsQuiet.display {t after : Terminal} (h : IsQuiet t after) {d : Display}
    (hd : linesOf [d] = []) : IsQuiet t (after.display [d]) := by
  refine ⟨h.printed, h.transcript, ?_⟩
  have hshown : linesOf (after.display [d]).shown = linesOf (after.shown ++ [d]) := rfl
  rw [hshown, linesOf_append, hd, List.append_nil, h.lines]

theorem IsQuiet.showInput {t after : Terminal} (h : IsQuiet t after) : IsQuiet t after.showInput :=
  h.display rfl

theorem isQuiet_openPrompt (t : Terminal) : IsQuiet t t.openPrompt := by
  have h : IsQuiet t { t with input := [] } := ⟨rfl, rfl, rfl⟩
  exact h.display rfl

theorem isQuiet_leave (t : Terminal) : IsQuiet t t.leave := by
  have h : IsQuiet t { t with
      console := (t.console.close t.machine).1
      machine := (t.console.close t.machine).2
      closed := true } := ⟨rfl, Console.transcript_close _ _, rfl⟩
  exact h.display rfl

theorem isQuiet_finish [LineEditor] (t : Terminal) : IsQuiet t t.finish := by
  rw [finish]
  split
  · exact isQuiet_leave t
  · exact ⟨rfl, rfl, rfl⟩

theorem IsQuiet.isCaughtUp {t after : Terminal} (h : IsQuiet t after) (hcaught : t.IsCaughtUp) :
    after.IsCaughtUp := by
  rw [IsCaughtUp, h.printed, h.transcript]
  exact hcaught

/-- The echo is counted without showing lines. -/
theorem linesOf_countEcho (t : Terminal) (line : Text) (o : Outcome) :
    linesOf (t.countEcho line o).shown = linesOf t.shown := by
  rw [countEcho]
  split
  · exact (IsQuiet.display (.refl _) rfl).lines
  · split
    · rfl
    · rfl

/-- When a line was run and its echo is counted, what is unprinted is what is new. -/
theorem unprinted_countEcho {t : Terminal} {before : Transcript} {line : Text} {o : Outcome}
    (hprinted : t.printed = before.size) (htranscript : t.console.transcript = before.apply o)
    (hblank : line.isBlankLine = true → o = .ok []) :
    (t.countEcho line o).unprinted = o.unechoed line := by
  rw [countEcho, Outcome.unechoed]
  by_cases hclears : o.clears = true
  · -- the count starts again together with the transcript
    have hline : ¬ line.isBlankLine = true := fun h => by
      rw [hblank h] at hclears
      exact absurd hclears (by simp [Outcome.ok])
    have hlines : (before.apply o).lines = o.output := by
      rw [Transcript.apply, if_pos hclears]
      rfl
    rw [if_pos hclears, if_neg hline, if_pos hclears, unprinted, ← hlines, ← htranscript]
    rfl
  · have hlines : (before.apply o).lines = before.lines ++ o.output := by
      rw [Transcript.apply, if_neg hclears]
      rfl
    rw [if_neg hclears]
    by_cases hline : line.isBlankLine = true
    · rw [if_pos hline, if_pos hline, unprinted, htranscript, hlines, hprinted,
        Transcript.size, List.drop_left, hblank hline]
      rfl
    · rw [if_neg hline, if_neg hline, if_neg hclears, unprinted]
      simp only [htranscript, hlines, hprinted, Transcript.size, List.drop_length_add_append]

/-- A text that is completed has one candidate only. -/
theorem not_isAmbiguous_complete {r : Registry} {tree : Tree} {cwd text typed : Text}
    (h : (r.complete tree cwd text).text = some typed) :
    (r.complete tree cwd text).isAmbiguous = false := by
  rw [Registry.complete, Completion.complete] at h ⊢
  simp only at h ⊢
  split at h
  · rename_i only hone
    rw [hone]
    rfl
  · exact absurd h (by simp)

variable [LineEditor]

/-- **The cases of a key.** Nothing is due and the terminal is quiet, or it prints before it shows a
prompt or the input again. If it was caught up, what it prints is what is due. -/
theorem handle_cases (t : Terminal) (key : Key) :
    (t.due key = [] ∧ IsQuiet t (t.handle key)) ∨
    ∃ u : Terminal, linesOf u.shown = linesOf t.shown ∧
      (t.handle key = u.flush.openPrompt ∨ t.handle key = u.flush.showInput) ∧
      (t.IsCaughtUp → u.unprinted = t.due key) := by
  rw [due.eq_def, handle.eq_def]
  by_cases hclosed : t.closed = true
  · rw [if_pos hclosed, if_pos hclosed]
    exact .inl ⟨rfl, .refl t⟩
  rw [if_neg hclosed, if_neg hclosed]
  cases key with
  | typed text => exact .inl ⟨rfl, .showInput ⟨rfl, rfl, rfl⟩⟩
  | up => exact .inl ⟨rfl, .showInput ⟨rfl, rfl, rfl⟩⟩
  | down => exact .inl ⟨rfl, .showInput ⟨rfl, rfl, rfl⟩⟩
  | interrupt => exact .inl ⟨rfl, isQuiet_openPrompt t⟩
  | endOfInput => exact .inl ⟨rfl, isQuiet_finish t⟩
  | enter =>
    simp only [enter]
    by_cases hexit : isExit t.input = true
    · rw [if_pos hexit, if_pos hexit]
      exact .inl ⟨rfl, isQuiet_leave t⟩
    · rw [if_neg hexit, if_neg hexit]
      refine .inr ⟨_, ?_, .inl rfl, fun hcaught => ?_⟩
      · exact linesOf_countEcho _ _ _
      exact unprinted_countEcho hcaught (t.console.transcript_submit t.machine t.input)
        fun hblank => t.console.submit_blank t.machine hblank
  | tab =>
    obtain ⟨r, hr⟩ : ∃ r, t.console.registry.complete t.machine.tree t.console.cwd t.input = r :=
      ⟨_, rfl⟩
    simp only [complete, Console.complete, hr]
    cases htext : r.text with
    | some text =>
      -- the only candidate is filled in, and the transcript is left alone
      have hone : ¬ r.isAmbiguous = true := by
        rw [← hr] at htext ⊢
        exact Bool.eq_false_iff.mp (not_isAmbiguous_complete htext)
      simp only [if_neg hone]
      exact .inl ⟨trivial, .showInput ⟨rfl, rfl, rfl⟩⟩
    | none =>
      by_cases hmany : r.isAmbiguous = true
      · -- the candidates come after all that was counted
        simp only [if_pos hmany]
        refine .inr ⟨_, ?_, .inr rfl, fun hcaught => ?_⟩
        · rfl
        rw [IsCaughtUp] at hcaught
        rw [unprinted, hcaught]
        exact List.drop_left
      · simp only [if_neg hmany]
        exact .inl ⟨trivial, .showInput (.refl t)⟩

/-- A key keeps the terminal caught up. -/
theorem IsCaughtUp.handle {t : Terminal} (h : t.IsCaughtUp) (key : Key) :
    (t.handle key).IsCaughtUp := by
  rcases t.handle_cases key with ⟨-, hquiet⟩ | ⟨u, -, hafter, -⟩
  · exact hquiet.isCaughtUp h
  · rcases hafter with hafter | hafter
    · rw [hafter]
      rfl
    · rw [hafter]
      rfl

/-- A terminal that is caught up shows the lines that are due after those that are there. -/
theorem linesOf_handle {t : Terminal} (h : t.IsCaughtUp) (key : Key) :
    linesOf (t.handle key).shown = linesOf t.shown ++ t.due key := by
  rcases t.handle_cases key with ⟨hdue, hquiet⟩ | ⟨u, hlines, hafter, hprinted⟩
  · rw [hdue, hquiet.lines, List.append_nil]
  · have hflush : linesOf u.flush.shown = linesOf t.shown ++ t.due key := by
      rw [← hlines, ← hprinted h, ← linesOf_map_line u.unprinted, ← linesOf_append]
      rfl
    rw [← hflush]
    rcases hafter with hafter | hafter
    · rw [hafter]
      exact (IsQuiet.display (.refl _) rfl).lines
    · rw [hafter]
      exact (IsQuiet.display (.refl _) rfl).lines

/-! ### All keys -/

/-- The terminal after keys that are handled one after the other. -/
def handleAll (t : Terminal) (keys : List Key) : Terminal :=
  keys.foldl handle t

/-- What is due at each of the keys in the terminal as it is then, in order. -/
def dueAlong (t : Terminal) : List Key → List Text
  | [] => []
  | key :: rest => t.due key ++ dueAlong (t.handle key) rest

theorem dueAlong_append (t : Terminal) (keys more : List Key) :
    dueAlong t (keys ++ more) = dueAlong t keys ++ dueAlong (t.handleAll keys) more := by
  induction keys generalizing t with
  | nil => rfl
  | cons key rest ih =>
    rw [List.cons_append, dueAlong, dueAlong, ih, List.append_assoc]
    rfl

/-- Whatever keys are handled, the terminal stays caught up, and what it shows is what is due. -/
theorem IsCaughtUp.handleAll {t : Terminal} (h : t.IsCaughtUp) (keys : List Key) :
    (t.handleAll keys).IsCaughtUp ∧
      linesOf (t.handleAll keys).shown = linesOf t.shown ++ dueAlong t keys := by
  induction keys generalizing t with
  | nil => exact ⟨h, (List.append_nil _).symm⟩
  | cons key rest ih =>
    obtain ⟨hrest, hlines⟩ := ih (h.handle key)
    have hfirst : t.handleAll (key :: rest) = (t.handle key).handleAll rest := rfl
    refine ⟨hrest, ?_⟩
    rw [hfirst, hlines, linesOf_handle h, dueAlong, List.append_assoc]

/-- Leaving at the end shows no line. -/
theorem isQuiet_run (t : Terminal) (keys : List Key) : IsQuiet (t.handleAll keys) (t.run keys) := by
  rw [run, handleAll]
  split
  · exact .refl _
  · exact isQuiet_leave _

/-! ### Lines that are typed -/

/-- The keys by which a line is typed, in whatever pieces, and entered. -/
def typing (pieces : List Text) : List Key :=
  pieces.map .typed ++ [.enter]

/-- The line that is there when pieces were typed. -/
def typed (pieces : List Text) : Text :=
  pieces.foldl LineEditor.insert []

/-- Typing changes the input and is not seen but there. -/
theorem handleAll_typed {t : Terminal} (h : t.closed = false) (pieces : List Text) :
    (∃ shown, t.handleAll (pieces.map .typed) =
      { t with input := pieces.foldl LineEditor.insert t.input, shown := shown }) ∧
      dueAlong t (pieces.map .typed) = [] := by
  induction pieces generalizing t with
  | nil => exact ⟨⟨t.shown, rfl⟩, rfl⟩
  | cons piece rest ih =>
    have hstep : t.handle (.typed piece) =
        { t with input := LineEditor.insert t.input piece }.showInput := by
      rw [handle, if_neg (by rw [h]; exact Bool.false_ne_true)]
    have hdue : t.due (.typed piece) = [] := by
      rw [due.eq_def, if_neg (by rw [h]; exact Bool.false_ne_true)]
    obtain ⟨⟨shown, hrest⟩, hnone⟩ := ih (t := t.handle (.typed piece)) (by rw [hstep]; exact h)
    refine ⟨⟨shown, ?_⟩, ?_⟩
    · have hfirst : t.handleAll ((piece :: rest).map .typed) =
          (t.handle (.typed piece)).handleAll (rest.map .typed) := rfl
      rw [hfirst, hrest, hstep]
      rfl
    · rw [List.map_cons, dueAlong, hdue, hnone]
      rfl

omit [LineEditor] in
/-- Counting the echo changes nothing but the count and the screen. -/
theorem countEcho_eq (t : Terminal) (line : Text) (o : Outcome) :
    t.countEcho line o =
      { t with printed := (t.countEcho line o).printed, shown := (t.countEcho line o).shown } := by
  rw [countEcho]
  split
  · rfl
  · split
    · rfl
    · rfl

/-- The terminal waits at a prompt with an empty input. -/
structure Waits (t : Terminal) (c : Console) (m : Machine) : Prop where
  console : t.console = c
  machine : t.machine = m
  input : t.input = []
  closed : t.closed = false

/-- A line that is typed and entered is run, what is new of its outcome is due, and the terminal
waits for the next one. -/
theorem Waits.typing {t : Terminal} {c : Console} {m : Machine} (h : Waits t c m)
    {pieces : List Text} (hstay : isExit (typed pieces) = false) :
    Waits (t.handleAll (typing pieces)) (c.submit m (typed pieces)).2.1
        (c.submit m (typed pieces)).2.2 ∧
      dueAlong t (Terminal.typing pieces) =
        (c.submit m (typed pieces)).1.unechoed (typed pieces) := by
  obtain ⟨rfl, rfl, hinput, hclosed⟩ := h
  obtain ⟨⟨shown, htyped⟩, hnone⟩ := handleAll_typed hclosed pieces
  rw [hinput] at htyped
  have hopen : ¬ t.closed = true := by rw [hclosed]; exact Bool.false_ne_true
  have hline : ¬ isExit (typed pieces) = true := by rw [hstay]; exact Bool.false_ne_true
  have hall : t.handleAll (Terminal.typing pieces) =
      (t.handleAll (pieces.map .typed)).handle .enter := by
    rw [Terminal.typing, Terminal.handleAll, List.foldl_append]
    rfl
  constructor
  · -- what is counted and shown differs, but nobody who types looks at that
    rw [hall, htyped, handle, if_neg hopen, enter, ← typed, if_neg hline]
    simp only
    rw [countEcho_eq]
    exact ⟨rfl, rfl, rfl, hclosed⟩
  · rw [Terminal.typing, dueAlong_append, hnone, htyped, dueAlong, due, if_neg hopen, ← typed,
      if_neg hline]
    exact List.append_nil _

/-- **Typing lines.** A run of lines without echoes prints what is due when these lines are typed
and entered, and is stopped at the first text that is not taken. -/
theorem Waits.prints_typing [Outlet] {t : Terminal} {c : Console} {m : Machine} (h : Waits t c m)
    {lines : List (List Text)} (hstay : ∀ pieces ∈ lines, isExit (typed pieces) = false) :
    (Program.submitAll c m (lines.map typed) false).output =
        Program.printedOf (dueAlong t (lines.flatMap Terminal.typing)) ∧
      (Program.submitAll c m (lines.map typed) false).stopped =
        !(dueAlong t (lines.flatMap Terminal.typing)).all Outlet.takes := by
  induction lines generalizing t c m with
  | nil => exact ⟨rfl, rfl⟩
  | cons pieces rest ih =>
    obtain ⟨hnext, hfirst⟩ := h.typing (hstay pieces List.mem_cons_self)
    obtain ⟨houtput, hstopped⟩ := ih hnext fun p hp => hstay p (List.mem_cons_of_mem _ hp)
    rw [List.flatMap_cons, dueAlong_append, hfirst, List.map_cons, Program.submitAll_cons,
      Program.Batch.next_of_not_stopped rfl, Program.printedOf_append, List.all_append]
    simp only [Program.Batch.start, Program.printed_submit]
    cases htaken : ((c.submit m (typed pieces)).1.unechoed (typed pieces)).all Outlet.takes with
    | true =>
      have hall : Program.printedOf ((c.submit m (typed pieces)).1.unechoed (typed pieces)) =
          Program.textOf ((c.submit m (typed pieces)).1.unechoed (typed pieces)) :=
        Program.printedOf_of_takes (List.all_eq_true.mp htaken)
      rw [Program.Batch.continuedBy_of_not_stopped rfl, if_pos rfl, hall]
      exact ⟨congrArg _ houtput, hstopped⟩
    | false =>
      rw [Program.Batch.continuedBy_of_stopped rfl, if_neg Bool.false_ne_true]
      exact ⟨rfl, rfl⟩

/-! ### Terminals from their start -/

omit [LineEditor] in
/-- A new terminal on a console that has shown nothing is caught up, shows no line yet and waits. -/
theorem of_start {t : Terminal} {c : Console} {m : Machine} (hstart : start c m = some t)
    (hnew : c.transcript = .empty) : t.IsCaughtUp ∧ linesOf t.shown = [] ∧ Waits t c m := by
  rw [start] at hstart
  split at hstart
  · obtain rfl := Option.some.inj hstart
    refine ⟨?_, rfl, ⟨rfl, rfl, rfl, rfl⟩⟩
    have hcount : (0 : Nat) = c.transcript.size := by rw [hnew]; rfl
    exact hcount
  · exact absurd hstart (by simp)

/-- **Every line once.** Start a terminal on a console that has shown nothing, whatever its commands
are, and handle whatever keys.

* The terminal has counted all lines of the transcript, and the lines that it handed to the screen
  so far are those that were due: for each line that was run what is new of its outcome, and for
  each completion that several candidates match the candidates. To leave adds no line.
* What is new of the outcome of a line is all but the echo, which comes first; the outcome of a
  blank line and one that clears the screen have none.
* For lines that are typed and entered, none of which leaves the terminal, a run of these lines
  without echoes prints the lines that the terminal hands to the screen. It stops just when one of
  them cannot be printed, and then it has printed those before it. -/
theorem prints_every_line_once [Outlet] {t : Terminal} {c : Console} {m : Machine}
    (hstart : start c m = some t) (hnew : c.transcript = .empty) :
    (∀ keys, (t.handleAll keys).printed = (t.handleAll keys).console.transcript.size ∧
      linesOf (t.handleAll keys).shown = dueAlong t keys ∧
      linesOf (t.run keys).shown = dueAlong t keys) ∧
    (∀ (d : Console) (n : Machine) (line : Text), line.isBlankLine = false →
      (d.submit n line).1.clears = false →
        (d.submit n line).1.output = (d.prompt ++ line) :: (d.submit n line).1.unechoed line) ∧
    ∀ lines : List (List Text), (∀ pieces ∈ lines, isExit (typed pieces) = false) →
      ∀ texts, texts = linesOf (t.handleAll (lines.flatMap typing)).shown →
      ∀ r, r = Program.runLines c m (lines.map typed) false →
        r.output = Program.printedOf texts ∧
        ((∀ text ∈ texts, Outlet.takes text = true) → r.output = Program.textOf texts) ∧
        (r.ending = .fault .unprintable ↔ ∃ text ∈ texts, Outlet.takes text = false) := by
  obtain ⟨hcaught, hlines, hwaits⟩ := of_start hstart hnew
  have hkeys (keys : List Key) : (t.handleAll keys).IsCaughtUp ∧
      linesOf (t.handleAll keys).shown = dueAlong t keys := by
    obtain ⟨hafter, hshown⟩ := hcaught.handleAll keys
    exact ⟨hafter, by rw [hshown, hlines, List.nil_append]⟩
  refine ⟨fun keys => ⟨(hkeys keys).1, (hkeys keys).2, ?_⟩, fun d n line => d.output_submit n, ?_⟩
  · rw [(isQuiet_run t keys).lines, (hkeys keys).2]
  · rintro lines hstay texts rfl r rfl
    obtain ⟨houtput, hstopped⟩ := hwaits.prints_typing hstay
    rw [(hkeys _).2]
    refine ⟨houtput, fun htaken => houtput.trans (Program.printedOf_of_takes htaken), ?_⟩
    rw [Program.runLines, Program.Batch.ending_report_iff, hstopped]
    simp

omit [LineEditor] in
/-- A command that faults, a completion that is left again, a command that clears the screen and
shows something then, and one that shows half of a pair, at which a run of the lines stops. -/
theorem prints_every_line_once_clearing :
    let _ : LineEditor := .atEnd
    let _ : Outlet := .unicode
    let fails : Handler := fun _ _ w => (w, .error "no disk")
    let wipes : Handler := .report fun _ _ _ => { Outcome.clear with lines := ["clean", "slate"] }
    let halves : Handler := fun _ _ w => (w, .ok (.value (.str [.half 0])))
    let c : Console := (((Console.start (.str "U") false 0 none).register "fail" [] fails).register
      "wipe" [] wipes).register "half" [] halves
    let m : Machine := ⟨.seed, .empty 0, []⟩
    let t : Terminal := openPrompt ⟨c, m, [], 0, header "U", false⟩
    let keys : List Key := [.typed "fail", .enter, .typed "cl", .tab, .endOfInput, .interrupt,
      .typed " ", .enter, .typed "wipe", .enter]
    start c m = some t ∧ c.transcript = .empty ∧
      linesOf (t.handleAll keys).shown =
        ["Error executing command: no disk", "clear", "clearfs", "cls", "clean", "slate"] ∧
      (Program.runLines c m ["fail", "wipe"] false).output =
        "Error executing command: no disk\nclean\nslate\n" ∧
      (Program.runLines c m ["fail", "half", "wipe"] false).output =
        "Error executing command: no disk\n" ∧
      (Program.runLines c m ["fail", "half", "wipe"] false).ending = .fault .unprintable := by
  intro _ _ fails wipes halves c m t keys
  have hstart : start c m = some t := rfl
  have hnew : c.transcript = .empty := rfl
  obtain ⟨hkeys, -, htyped⟩ := prints_every_line_once hstart hnew
  have hlines : ([["fail"], ["wi", "pe"]] : List (List Text)).map typed =
      (["fail", "wipe"] : List Text) := by decide
  have hhalf : ([["fail"], ["half"], ["wipe"]] : List (List Text)).map typed =
      (["fail", "half", "wipe"] : List Text) := by decide
  obtain ⟨-, hall, -⟩ := htyped [["fail"], ["wi", "pe"]] (by decide) _ rfl _ rfl
  obtain ⟨hstops, -, hstopped⟩ := htyped [["fail"], ["half"], ["wipe"]] (by decide) _ rfl _ rfl
  rw [hlines] at hall
  rw [hhalf] at hstops hstopped
  refine ⟨hstart, hnew, ?_, ?_, ?_, ?_⟩
  · rw [(hkeys keys).2.1]
    decide +kernel
  · rw [hall (by rw [(hkeys _).2.1]; decide +kernel), (hkeys _).2.1]
    decide +kernel
  · rw [hstops, (hkeys _).2.1]
    decide +kernel
  · rw [hstopped, (hkeys _).2.1]
    exact ⟨[.half 0], by decide +kernel, rfl⟩

end Terminal

end DosConsole
