import DosConsole.Proofs.Console.Printing
import DosConsole.Proofs.Console.Session
import DosConsole.Proofs.History.Log

/-!
# What a session leaves behind

Every event **shows** some lines, which can be told from the session before it and from what the
command replied (`Session.Shows`): a line its echo and then what its command has to say, a
completion its candidates if there are several, and everything else nothing. An outcome that clears
the screen has no echo and wipes what was shown before.

A command replies with an outcome, with nothing, or with any other value, which is shown on a line
of its own. The transcript of a session is what its events showed since the screen was wiped last,
and its history holds the newest of the lines that were submitted (`transcript_law`). A command that
faults is no exception to that: its fault is shown like any other error, and so is the fault of
showing a value.
-/

namespace DosConsole

/-! ### The outcome of a line -/

/-- The error of an outcome comes last, unless it is empty. -/
theorem Outcome.output_eq (o : Outcome) :
    o.output = o.lines ++ o.error.toList.filter (· ≠ []) := by
  rw [output]
  cases o.error with
  | none => exact (List.append_nil _).symm
  | some error =>
    cases error with
    | nil => exact (List.append_nil _).symm
    | cons first rest => rfl

/-- **The outcome of a line.** A blank line comes to nothing. Any other one is answered, after its
echo, by the refusal of an unknown command, or by what the command that it calls replied or faulted
with. -/
theorem Registry.outcome_cases (r : Registry) (line : Text) (w : Workspace) :
    (line.isBlankLine = true ∧ (r.execute line w).outcome = .ok []) ∨
    (line.isBlankLine = false ∧ (∀ c ∈ r.commands, ¬ Line.Calls line c.name) ∧
      (r.execute line w).outcome =
        (Outcome.unknown (Line.parse line).name).echoed (w.prompt ++ line)) ∨
    ∃ c ∈ r.commands, Line.Calls line c.name ∧ (r.execute line w).outcome =
      (Execution.ended (w.prompt ++ line) (c.run r.menu (Line.parse line).args w)).outcome := by
  rw [execute]
  split
  · rename_i hblank
    exact .inl ⟨hblank, rfl⟩
  · rename_i hblank
    have hline : line.isBlankLine = false := Bool.eq_false_iff.mpr hblank
    simp only
    split
    · rename_i hlookup
      refine .inr (.inl ⟨hline, fun c hc hcalls => ?_, rfl⟩)
      exact absurd (beq_iff_eq.mpr hcalls.2.symm) (List.find?_eq_none.mp hlookup c hc)
    · rename_i c hlookup
      rw [lookup] at hlookup
      have hname : c.name = (Line.parse line).name.lower := by
        simpa using List.find?_some hlookup
      exact .inr (.inr ⟨c, List.mem_of_find?_eq_some hlookup, ⟨hline, hname.symm⟩, rfl⟩)

/-- A fault of a command is caught: the line fails with its text, after the echo. -/
theorem Registry.outcome_of_fault {r : Registry} {line : Text} {w : Workspace} {c : Command}
    {message : Text} (hc : c ∈ r.commands) (hcalls : Line.Calls line c.name)
    (hfault : (c.run r.menu (Line.parse line).args w).2 = .error message) :
    (r.execute line w).outcome =
      ⟨false, [w.prompt ++ line], some ("Error executing command: " ++ message), 1, false⟩ := by
  rcases r.outcome_cases line w with ⟨hblank, -⟩ | ⟨-, hnone, -⟩ | ⟨d, hd, hdcalls, houtcome⟩
  · exact absurd hcalls.1 (by rw [hblank]; simp)
  · exact absurd hcalls (hnone c hc)
  · obtain rfl : d = c := eq_of_name_eq hd hc (hdcalls.2.symm.trans hcalls.2)
    rw [houtcome, Execution.ended, hfault]
    rfl

/-- Any value but null is shown on a line of its own, if it can be shown. -/
theorem Reply.toOutcome_value {v : Json} (h : v ≠ .null) :
    (Reply.value v).toOutcome =
      match v.show? with
      | .ok line => .ok (.ok [line])
      | .error cause => .error cause.message := by
  cases v with
  | null => exact absurd rfl h
  | _ => rfl

/-! ### What an event shows -/

/-- Lines that are shown, and whether the screen is wiped for them. -/
structure Showing where
  wipes : Bool
  lines : List Text

namespace Showing

/-- Nothing is shown. -/
def none : Showing :=
  ⟨false, []⟩

/-- What was shown since the screen was wiped last, with what was shown at that time. -/
def sinceWipe : List Showing → List Showing
  | [] => []
  | first :: rest => if rest.any wipes then sinceWipe rest else first :: rest

/-- The lines that a transcript holds after others were shown. -/
def linesAfter (before : List Text) (log : List Showing) : List Text :=
  if log.any wipes then (sinceWipe log).flatMap lines else before ++ log.flatMap lines

theorem sinceWipe_eq_self {log : List Showing} (h : log.any wipes = false) :
    sinceWipe log = log := by
  cases log with
  | nil => rfl
  | cons first rest =>
    have hrest : ¬ rest.any wipes = true := by
      rw [List.any_cons, Bool.or_eq_false_iff] at h
      exact Bool.eq_false_iff.mp h.2
    rw [sinceWipe, if_neg hrest]

/-- A transcript that was empty holds what was shown since the screen was wiped last. -/
theorem linesAfter_nil (log : List Showing) :
    linesAfter [] log = (sinceWipe log).flatMap lines := by
  rw [linesAfter]
  split
  · rfl
  · rename_i h
    rw [sinceWipe_eq_self (Bool.eq_false_iff.mpr h), List.nil_append]

/-- What is shown first is there until the screen is wiped. -/
theorem linesAfter_cons (before : List Text) (first : Showing) (rest : List Showing) :
    linesAfter before (first :: rest) =
      linesAfter (if first.wipes then first.lines else before ++ first.lines) rest := by
  rw [linesAfter, linesAfter, List.any_cons, sinceWipe, List.flatMap_cons]
  cases hrest : rest.any wipes with
  | true => rw [Bool.or_true, if_pos rfl, if_pos rfl, if_pos rfl]
  | false =>
    cases hfirst : first.wipes with
    | true => rfl
    | false => exact (List.append_assoc ..).symm

end Showing

namespace Session

section AnyFolding

variable [Folding]

/-- In a session the line calls a command, which comes to a result. -/
def Comes (s : Session) (line : Text) (result : Except Text Reply) : Prop :=
  ∃ c ∈ s.console.registry.commands, Line.Calls line c.name ∧
    (c.run s.console.registry.menu (Line.parse line).args
      (s.console.workspace s.machine.tree)).2 = result

/-- What an event **shows** in a session. -/
inductive Shows (s : Session) : Event → Showing → Prop
  | blank {line : Text} (hblank : line.isBlankLine = true) : Shows s (.line line) .none
  /-- A line that calls no command is refused. -/
  | unknown {line : Text} (hblank : line.isBlankLine = false)
      (hnone : ∀ c ∈ s.console.registry.commands, ¬ Line.Calls line c.name) :
      Shows s (.line line) ⟨false, [s.console.prompt ++ line,
        "'" ++ (Line.parse line).name ++ "' is not recognized as an internal or external command"]⟩
  /-- The lines of an outcome come after the echo, and its error last, unless it is empty. -/
  | answered {line : Text} {o : Outcome} (hcomes : s.Comes line (.ok (.outcome o)))
      (hclears : o.clears = false) :
      Shows s (.line line)
        ⟨false, (s.console.prompt ++ line) :: (o.lines ++ o.error.toList.filter (· ≠ []))⟩
  /-- There is no echo where the screen is cleared. -/
  | cleared {line : Text} {o : Outcome} (hcomes : s.Comes line (.ok (.outcome o)))
      (hclears : o.clears = true) :
      Shows s (.line line) ⟨true, o.lines ++ o.error.toList.filter (· ≠ [])⟩
  /-- After a reply of null there is the echo only. -/
  | silent {line : Text} (hcomes : s.Comes line (.ok (.value .null))) :
      Shows s (.line line) ⟨false, [s.console.prompt ++ line]⟩
  /-- Any other value is shown on one line. -/
  | valued {line : Text} {v : Json} {shown : Text} (hcomes : s.Comes line (.ok (.value v)))
      (hvalue : v ≠ .null) (hshown : v.show? = .ok shown) :
      Shows s (.line line) ⟨false, [s.console.prompt ++ line, shown]⟩
  | other {line shown : Text} (hcomes : s.Comes line (.ok (.other (.ok shown)))) :
      Shows s (.line line) ⟨false, [s.console.prompt ++ line, shown]⟩
  /-- Where a value cannot be shown, an error tells why. -/
  | unshowable {line : Text} {v : Json} {cause : Json.ShowError}
      (hcomes : s.Comes line (.ok (.value v))) (hcause : v.show? = .error cause) :
      Shows s (.line line)
        ⟨false, [s.console.prompt ++ line, "Error executing command: " ++ cause.message]⟩
  | otherUnshowable {line message : Text}
      (hcomes : s.Comes line (.ok (.other (.error message)))) :
      Shows s (.line line)
        ⟨false, [s.console.prompt ++ line, "Error executing command: " ++ message]⟩
  /-- A fault is shown like an error. -/
  | faulted {line message : Text} (hcomes : s.Comes line (.error message)) :
      Shows s (.line line)
        ⟨false, [s.console.prompt ++ line, "Error executing command: " ++ message]⟩
  /-- Several candidates are listed. -/
  | candidates {text : Text} {found : List Text} (hfound :
        (s.console.registry.complete s.machine.tree s.console.cwd text).candidates = found)
      (hmany : 1 < found.length) : Shows s (.completion text) ⟨false, found⟩
  | completed {text : Text} (hfew :
        (s.console.registry.complete s.machine.tree s.console.cwd text).candidates.length ≤ 1) :
      Shows s (.completion text) .none
  | older : Shows s .older .none
  | newer : Shows s .newer .none
  | outside (change : Machine → Machine) : Shows s (.outside change) .none

/-- The outcome that a command comes to shows what its line shows. -/
theorem Comes.shows {s : Session} {line : Text} {result : Except Text Reply}
    (h : s.Comes line result) {after : Workspace} {o : Outcome}
    (ho : (Execution.ended (s.console.prompt ++ line) (after, result)).outcome = o) :
    s.Shows (.line line) ⟨o.clears, o.output⟩ := by
  subst ho
  rcases result with message | o | v | message | shown
  · exact .faulted h
  · have hended : (Execution.ended (s.console.prompt ++ line) (after, .ok (.outcome o))).outcome =
        o.echoed (s.console.prompt ++ line) := rfl
    rw [hended, Outcome.clears_echoed]
    cases hclears : o.clears with
    | true =>
      rw [Outcome.echoed, if_pos hclears, Outcome.output_eq]
      exact .cleared h hclears
    | false =>
      rw [Outcome.output_echoed hclears, Outcome.output_eq]
      exact .answered h hclears
  · by_cases hvalue : v = .null
    · subst hvalue
      exact .silent h
    · rw [Execution.ended, Except.bind, Reply.toOutcome_value hvalue]
      cases hshown : v.show? with
      | ok shown => exact .valued h hvalue hshown
      | error cause => exact .unshowable h hshown
  · exact .otherUnshowable h
  · exact .other h

/-- The outcome of a line shows what the line shows. -/
theorem shows_line (s : Session) (line : Text) :
    s.Shows (.line line) ⟨(s.console.submit s.machine line).1.clears,
      (s.console.submit s.machine line).1.output⟩ := by
  rw [Console.outcome_submit]
  rcases s.console.registry.outcome_cases line (s.console.workspace s.machine.tree) with
    ⟨hblank, houtcome⟩ | ⟨hblank, hnone, houtcome⟩ | ⟨c, hc, hcalls, houtcome⟩
  · rw [houtcome]
    exact .blank hblank
  · rw [houtcome, Outcome.clears_echoed, Outcome.output_echoed rfl]
    exact .unknown hblank hnone
  · exact Comes.shows ⟨c, hc, hcalls, rfl⟩ houtcome.symm

/-- **One event.** The transcript takes up what the event shows. -/
theorem exists_shows (s : Session) (e : Event) :
    ∃ showing, s.Shows e showing ∧ (s.handle e).console.transcript.lines =
      if showing.wipes then showing.lines
      else s.console.transcript.lines ++ showing.lines := by
  have hsame : s.console.transcript.lines =
      if Showing.none.wipes then Showing.none.lines
      else s.console.transcript.lines ++ Showing.none.lines := (List.append_nil _).symm
  cases e with
  | line text =>
    refine ⟨_, s.shows_line text, ?_⟩
    rw [handle, Console.transcript_submit, Transcript.apply]
    cases (s.console.submit s.machine text).1.clears <;> rfl
  | completion text =>
    rw [handle, Console.complete]
    by_cases hmany :
        1 < (s.console.registry.complete s.machine.tree s.console.cwd text).candidates.length
    · refine ⟨_, .candidates rfl hmany, ?_⟩
      simp only [Completion.isAmbiguous, decide_eq_true hmany]
      rfl
    · refine ⟨_, .completed (Nat.le_of_not_lt hmany), ?_⟩
      simp only [Completion.isAmbiguous, decide_eq_false hmany]
      exact hsame
  | older => exact ⟨_, .older, hsame⟩
  | newer => exact ⟨_, .newer, hsame⟩
  | outside change => exact ⟨_, .outside change, hsame⟩

/-- **All events.** The transcript takes up what the events show, one after the other. -/
theorem exists_log (s : Session) (events : List Event) :
    ∃ log, List.Forall₂ (fun p showing => p.1.Shows p.2 showing) (s.trace events) log ∧
      (s.run events).console.transcript.lines =
        Showing.linesAfter s.console.transcript.lines log := by
  induction events generalizing s with
  | nil => exact ⟨[], .nil, (List.append_nil _).symm⟩
  | cons e rest ih =>
    obtain ⟨first, hfirst, hlines⟩ := s.exists_shows e
    obtain ⟨log, hlog, hrest⟩ := ih (s.handle e)
    refine ⟨first :: log, .cons hfirst hlog, ?_⟩
    rw [Showing.linesAfter_cons, ← hlines]
    exact hrest

/-! ### The history -/

variable {s : Session} {limit : Int} {lines : List Text}

/-- An event logs the line that it submits, if it submits one. -/
theorem holds_handle (h : s.console.history.Holds limit lines) (e : Event) :
    (s.handle e).console.history.Holds limit (lines ++ submitted [e]) := by
  cases e with
  | line text =>
    have hsubmitted : submitted [.line text] = if text.isBlankLine then [] else [text] := by
      cases htext : text.isBlankLine <;> simp [submitted, htext]
    rw [hsubmitted, handle, Console.console_submit]
    exact h.note text
  | completion text =>
    rw [handle, complete_eq]
    exact (List.append_nil lines).symm ▸ h
  | older => exact (List.append_nil lines).symm ▸ h.older
  | newer => exact (List.append_nil lines).symm ▸ h.newer
  | outside change => exact (List.append_nil lines).symm ▸ h

/-- Events log the lines that they submit. -/
theorem holds_run (h : s.console.history.Holds limit lines) (events : List Event) :
    (s.run events).console.history.Holds limit (lines ++ submitted events) := by
  induction events generalizing s lines with
  | nil => exact (List.append_nil lines).symm ▸ h
  | cons e rest ih =>
    have hlines : lines ++ submitted (e :: rest) = lines ++ submitted [e] ++ submitted rest := by
      rw [List.append_assoc, submitted, submitted, submitted, ← List.filterMap_append]
      rfl
    rw [hlines]
    exact ih (holds_handle h e)

/-- A line that is not blank leaves no line selected. -/
theorem cursor_handle (s : Session) {line : Text} (hblank : line.isBlankLine = false) :
    (s.handle (.line line)).console.history.cursor = none := by
  rw [handle, Console.console_submit]
  exact History.cursor_note hblank

/-- **The law of transcripts.** In a session that starts with an empty transcript and history, with
whatever commands, and whatever happens, the transcript is what was shown since the screen was wiped
last, and the history is what is kept of the lines that were submitted and are not blank. After such
a line no line is selected, and a command that faults makes the line fail and nothing else. -/
theorem transcript_law {s : Session} {limit : Int} (hhistory : s.console.history = .empty limit)
    (htranscript : s.console.transcript = .empty) (events : List Event) :
    (∃ log, List.Forall₂ (fun p showing => p.1.Shows p.2 showing) (s.trace events) log ∧
      (s.run events).console.transcript.lines = (Showing.sinceWipe log).flatMap Showing.lines) ∧
    (s.run events).console.history.entries = History.kept limit (submitted events) ∧
    ∀ line, line.isBlankLine = false →
      ((s.run events).handle (.line line)).console.history.cursor = none ∧
      ∀ c ∈ (s.run events).console.registry.commands, Line.Calls line c.name → ∀ message,
        (c.run (s.run events).console.registry.menu (Line.parse line).args
          ((s.run events).console.workspace (s.run events).machine.tree)).2 = .error message →
        ((s.run events).console.submit (s.run events).machine line).1 =
          ⟨false, [(s.run events).console.prompt ++ line],
            some ("Error executing command: " ++ message), 1, false⟩ := by
  have hholds : s.console.history.Holds limit [] := hhistory ▸ History.holds_empty limit
  refine ⟨?_, ?_, fun line hblank => ⟨?_, fun c hc hcalls message hfault => ?_⟩⟩
  · obtain ⟨log, hlog, hlines⟩ := s.exists_log events
    rw [htranscript] at hlines
    exact ⟨log, hlog, hlines.trans (Showing.linesAfter_nil log)⟩
  · exact (holds_run hholds events).entries
  · exact cursor_handle _ hblank
  · rw [Console.outcome_submit]
    exact Registry.outcome_of_fault hc hcalls hfault

end AnyFolding

/-- A screen that is wiped, a command that goes elsewhere and faults then, a line that is recalled,
a line that calls no command, and numbers as replies, of which one is too long to be shown. -/
theorem transcript_law_of_fault :
    let fails : Handler := fun _ _ w => ({ w with cwd := "/x" }, .error "no disk")
    let counts : Handler := fun _ args w =>
      (w, .ok (.value (.int (if args.isEmpty then 42 else .ofNat (.pow 10 4300)))))
    let s : Session := ⟨((Console.start (.str "U") false 3 none).register "fail" [] fails).register
      "count" [] counts, ⟨.seed, .empty 0, []⟩⟩
    let events : List Event := [.line "pwd", .line "cls", .line "fail", .older, .line " ",
      .completion "cl", .outside fun m => { m with tree := m.tree.reset }, .line "nope",
      .line "count", .line "count all"]
    s.console.history = .empty 3 ∧ s.console.transcript = .empty ∧
      (∃ log, List.Forall₂ (fun p showing => p.1.Shows p.2 showing) (s.trace events) log ∧
        (Showing.sinceWipe log).flatMap Showing.lines =
          (["U@DOS:/> fail", "Error executing command: no disk", "clear", "clearfs", "cls",
            "U@DOS:/x> nope",
            "'nope' is not recognized as an internal or external command",
            "U@DOS:/x> count", "42", "U@DOS:/x> count all",
            "Error executing command: Exceeds the limit (4300 digits) for integer string " ++
              "conversion; use sys.set_int_max_str_digits() to increase the limit"] :
            List Text)) ∧
      (s.run events).console.history.entries = (["nope", "count", "count all"] : List Text) ∧
      ((s.run events).handle (.line "FAIL x")).console.history.cursor = none ∧
      ((s.run events).console.submit (s.run events).machine "FAIL x").1 =
        ⟨false, ["U@DOS:/x> FAIL x"], some "Error executing command: no disk", 1, false⟩ := by
  intro fails counts s events
  have hhistory : s.console.history = .empty 3 := rfl
  have htranscript : s.console.transcript = .empty := rfl
  have hshown : (s.run events).console.transcript.lines =
      (["U@DOS:/> fail", "Error executing command: no disk", "clear", "clearfs", "cls",
        "U@DOS:/x> nope",
        "'nope' is not recognized as an internal or external command",
        "U@DOS:/x> count", "42", "U@DOS:/x> count all",
        "Error executing command: Exceeds the limit (4300 digits) for integer string " ++
          "conversion; use sys.set_int_max_str_digits() to increase the limit"] : List Text) := by
    decide +kernel
  have hprompt : (s.run events).console.prompt = "U@DOS:/x> " := by decide +kernel
  have hc : (⟨"fail", [], fails⟩ : Command) ∈ (s.run events).console.registry.commands := by
    rw [registry_run]
    have hfound : s.console.registry.lookup "fail" = some ⟨"fail", [], fails⟩ := rfl
    rw [Registry.lookup] at hfound
    exact List.mem_of_find?_eq_some hfound
  obtain ⟨⟨log, hlog, hlines⟩, hentries, hlast⟩ := transcript_law hhistory htranscript events
  obtain ⟨hcursor, hfault⟩ := hlast "FAIL x" (by decide)
  refine ⟨hhistory, htranscript, ⟨log, hlog, hlines.symm.trans hshown⟩, ?_, hcursor, ?_⟩
  · rw [hentries]
    decide
  · rw [hfault _ hc ⟨by decide, by decide⟩ "no disk" rfl, hprompt]
    rfl

end Session

end DosConsole
