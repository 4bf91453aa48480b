import DosConsole.Proofs.Console.Station

/-!
# Sessions

A **session** is a console at work on its machine. Its events are the four things that a console is
asked for, a line, a completion, an older line and a newer one, and whatever somebody else does to
the machine meanwhile. What an event keeps is kept by all events (`Session.keeps_run`).
-/

namespace DosConsole

/-- A console and the machine that it works on. -/
structure Session where
  console : Console
  machine : Machine

namespace Session

/-- What may happen while a console works. -/
inductive Event where
  /-- A line is run. -/
  | line (text : Text)
  /-- The text typed so far is completed. -/
  | completion (text : Text)
  /-- An older line is recalled. -/
  | older
  /-- A newer line is recalled. -/
  | newer
  /-- Somebody else changes the machine. -/
  | outside (change : Machine → Machine)

section AnyFolding

variable [Folding]

/-- The session after an event. -/
def handle (s : Session) : Event → Session
  | .line text => ⟨(s.console.submit s.machine text).2.1, (s.console.submit s.machine text).2.2⟩
  | .completion text => { s with console := (s.console.complete s.machine text).2 }
  | .older => { s with console := s.console.older.2 }
  | .newer => { s with console := s.console.newer.2 }
  | .outside change => { s with machine := change s.machine }

/-- The session after events that happen one after the other. -/
def run (s : Session) (events : List Event) : Session :=
  events.foldl handle s

/-- Each of the events with the session in which it happens. -/
def trace (s : Session) : List Event → List (Session × Event)
  | [] => []
  | e :: rest => (s, e) :: trace (s.handle e) rest

/-- What each event keeps is kept by all of them. -/
theorem keeps_run {P : Session → Prop} {s : Session} {events : List Event} (h : P s)
    (hevent : ∀ e ∈ events, ∀ s, P s → P (s.handle e)) : P (s.run events) := by
  induction events generalizing s with
  | nil => exact h
  | cons e rest ih =>
    exact ih (hevent e List.mem_cons_self s h) fun f hf => hevent f (List.mem_cons_of_mem _ hf)

/-- A completion changes the transcript only. -/
theorem complete_eq (c : Console) (m : Machine) (text : Text) :
    (c.complete m text).2 = { c with transcript := (c.complete m text).2.transcript } := by
  rw [Console.complete]
  simp only
  split
  · rfl
  · rfl

theorem registry_handle (s : Session) (e : Event) :
    (s.handle e).console.registry = s.console.registry := by
  cases e with
  | line text => exact s.console.registry_submit s.machine text
  | completion text => rw [handle, complete_eq]
  | older => rfl
  | newer => rfl
  | outside change => rfl

/-- Whatever happens, the commands stay the same. -/
theorem registry_run (s : Session) (events : List Event) :
    (s.run events).console.registry = s.console.registry :=
  keeps_run (P := fun after => after.console.registry = s.console.registry) rfl
    fun e _ after h => (after.registry_handle e).trans h

/-- The lines that are submitted by events, without the blank ones. -/
def submitted (events : List Event) : List Text :=
  events.filterMap fun
    | .line text => if text.isBlankLine then none else some text
    | _ => none

end AnyFolding

end Session

end DosConsole
