import DosConsole.Proofs.Console.Durable
import DosConsole.Proofs.Console.Leaving
import DosConsole.Proofs.Snapshot.Attempts

/-!
# Writing in the background

A keeper that works in the background lets the snapshots wait, and a worker writes them in the order
in which they were handed over, at any moments between the lines. A **course** is a session that
goes through such moments, together with the snapshots handed over so far; somebody else interferes
with the disk whenever a snapshot is tried.

What carries the argument is an account of the snapshots (`Course.IsAccounted`): those that were
handed over are those that were tried and, after them, those that wait, and the disk is what the
attempts made of it. The snapshots that are handed over depend on the lines alone. So a session that
writes at once makes the same attempts, only earlier, and the disks are the same once nothing waits
any more.
-/

namespace DosConsole

open Snapshot (Interference attempts Holds)

namespace Snapshot.Keeper

/-- The keeper **serves** a location, at once or in the background. -/
structure Serves (l : Location) (background : Bool) (k : Keeper) : Prop where
  target : k.target = l
  background : k.background = background
  prompt : k.IsPrompt

/-- The keeper and the disk after a snapshot was taken over, if there is one. -/
def takeOver (k : Keeper) (d : Disk) : Option Json → Keeper × Disk
  | none => (k, d)
  | some v => ((k.submit d v).1, (k.submit d v).2.1)

variable {k : Keeper} {l : Location} {background : Bool}

theorem serves_start (l : Location) (background : Bool) :
    (start l background).Serves l background :=
  ⟨rfl, rfl, fun _ => rfl⟩

/-- In the background anything may wait. -/
theorem Serves.withPending (h : k.Serves l true) (pending : List Json) :
    { k with pending }.Serves l true :=
  ⟨h.target, h.background, fun hprompt => absurd (h.background.symm.trans hprompt) (by simp)⟩

/-- In the background what is taken over waits. -/
theorem Serves.takeOver_in_background (h : k.Serves l true) (d : Disk) (given : Option Json) :
    k.takeOver d given = ({ k with pending := k.pending ++ given.toList }, d) := by
  cases given with
  | none => rw [takeOver, Option.toList_none, List.append_nil]
  | some v => rw [takeOver, submit, if_pos h.background, Option.toList_some]

/-- A keeper that does not work in the background writes what it takes over. -/
theorem Serves.takeOver_at_once (h : k.Serves l false) (d : Disk) (v : Json) :
    k.takeOver d (some v) = (k, (d.replaceDocument l v).1) := by
  obtain ⟨hsame, hdisk⟩ := Console.submit_keeper h.background d v
  rw [takeOver, hsame, hdisk, h.target]

end Snapshot.Keeper

/-! ### What a line hands over, and what waits -/

namespace Session

/-- The snapshots that wait to be written. -/
def waiting (s : Session) : List Json :=
  match s.console.keeper with
  | none => []
  | some k => k.pending

/-- Snapshots are written when they are handed over. -/
def writesAtOnce (s : Session) : Bool :=
  match s.console.keeper with
  | none => false
  | some k => !k.background

/-- The snapshot that a line hands over, if it does: it is taken of the tree after a line that
changed the revision. -/
def handedOver (s : Session) (text : Text) : Option Json :=
  if (s.handle (.line text)).machine.tree.revision = s.machine.tree.revision then none
  else (s.console.capture (s.handle (.line text)).machine.tree).toOption

/-- The session with another disk. -/
def withDisk (s : Session) (d : Disk) : Session :=
  { s with machine := { s.machine with disk := d } }

/-- The session after something is done while somebody else interferes as with the snapshot of the
given number. -/
def amid (i : Interference) (n : Nat) (act : Session → Session) (s : Session) : Session :=
  let left := act (s.withDisk (i.before n s.machine.disk))
  left.withDisk (i.after n s.machine.disk left.machine.disk)

/-- The session after the oldest of the snapshots that wait was tried. -/
def work (s : Session) : Session :=
  ⟨(s.console.advance s.machine).1, (s.console.advance s.machine).2⟩

/-- The session after the console was closed. -/
def close (s : Session) : Session :=
  ⟨(s.console.close s.machine).1, (s.console.close s.machine).2⟩

variable {s t u : Session} {k : Snapshot.Keeper}

theorem waiting_eq (h : s.console.keeper = some k) : s.waiting = k.pending := by
  rw [waiting, h]

theorem writesAtOnce_eq (h : s.console.keeper = some k) : s.writesAtOnce = !k.background := by
  rw [writesAtOnce, h]

/-- A line does to the keeper and to the disk what comes of taking over what it hands over. -/
theorem keeper_line (h : s.console.keeper = some k) (text : Text) :
    (s.handle (.line text)).console.keeper =
        some (k.takeOver s.machine.disk (s.handedOver text)).1 ∧
      (s.handle (.line text)).machine.disk =
        (k.takeOver s.machine.disk (s.handedOver text)).2 := by
  have htree : (s.console.submit s.machine text).2.2.tree =
      (s.console.settled s.machine text).2.tree := s.console.tree_submit s.machine text
  have hkeeper : (s.console.settled s.machine text).1.keeper = some k := h
  have hcapture : (s.console.settled s.machine text).1.capture = s.console.capture := rfl
  rw [handedOver, handle]
  simp only [htree]
  rcases s.console.submit_cases s.machine text with ⟨hrevision, hsubmit⟩ | ⟨hrevision, hsubmit⟩
  · rw [if_pos hrevision, hsubmit]
    exact ⟨h, rfl⟩
  · rw [if_neg hrevision, hsubmit, Console.persist, hkeeper]
    simp only [hcapture]
    cases s.console.capture (s.console.settled s.machine text).2.tree with
    | error cause => exact ⟨h, rfl⟩
    | ok v => exact ⟨rfl, rfl⟩

/-- Where nothing waits the worker does nothing. -/
theorem work_of_nil (h : s.console.keeper = some k) (hnone : k.pending = []) :
    s.work.console.keeper = some k ∧ s.work.machine.disk = s.machine.disk := by
  rw [work, Console.advance, h]
  simp only [Snapshot.Keeper.advance, hnone]
  exact ⟨trivial, rfl⟩

/-- Otherwise the worker tries the oldest of the snapshots that wait. -/
theorem work_of_cons {v : Json} {rest : List Json} (h : s.console.keeper = some k)
    (hsome : k.pending = v :: rest) :
    s.work.console.keeper = some { k with pending := rest } ∧
      s.work.machine.disk = (s.machine.disk.replaceDocument k.target v).1 := by
  rw [work, Console.advance, h]
  simp only [Snapshot.Keeper.advance, hsome]
  exact ⟨trivial, k.disk_write _ v⟩

theorem waiting_work (s : Session) : s.work.waiting = s.waiting.tail := by
  cases hk : s.console.keeper with
  | none =>
    have hwork : s.work = s := by rw [work, Console.advance, hk]
    rw [hwork, waiting, hk]
    rfl
  | some k =>
    rw [waiting_eq hk]
    cases hpending : k.pending with
    | nil => rw [waiting_eq (work_of_nil hk hpending).1, hpending, List.tail_nil]
    | cons v rest => rw [waiting_eq (work_of_cons hk hpending).1, List.tail_cons]

/-- Where nothing waits the closing does nothing. -/
theorem close_of_nil (h : s.console.keeper = some k) (hnone : k.pending = []) :
    s.close.console.keeper = some k ∧ s.close.machine.disk = s.machine.disk := by
  rw [close, Console.close, h]
  simp only [Snapshot.Keeper.close, hnone, Snapshot.Keeper.writeAll]
  rw [← hnone]
  exact ⟨rfl, rfl⟩

/-! ### What does not depend on the disk -/

theorem Alike.refl (s : Session) : s.Alike s :=
  ⟨rfl, rfl⟩

theorem Alike.symm (h : s.Alike t) : t.Alike s :=
  ⟨by rw [h.console], h.tree.symm⟩

theorem Alike.trans (h : s.Alike t) (h' : t.Alike u) : s.Alike u :=
  ⟨by rw [h.console, h'.console], h.tree.trans h'.tree⟩

/-- What is done to sessions that are alike with the same result is done with interference, too. -/
theorem Alike.amid {act : Session → Session} (h : ∀ d, (act (s.withDisk d)).Alike t)
    (i : Interference) (n : Nat) : (s.amid i n act).Alike t :=
  ⟨(h _).console, (h _).tree⟩

/-- Sessions that are alike hand the same snapshots over. -/
theorem Alike.handedOver (h : s.Alike t) (text : Text) : s.handedOver text = t.handedOver text := by
  have hafter := (h.handle (e := .line text) rfl).1.tree
  have hcapture : s.console.capture = t.console.capture := by rw [h.console]
  rw [Session.handedOver, Session.handedOver, hafter, h.tree, hcapture]

theorem alike_work (s : Session) : s.work.Alike s := by
  obtain ⟨c, m⟩ := s
  rw [work, Console.advance]
  simp only
  cases hk : c.keeper with
  | none => exact .refl _
  | some k => exact ⟨rfl, rfl⟩

end Session

/-! ### Courses -/

/-- A session and the snapshots that were handed over in it, the oldest first. -/
structure Course where
  session : Session
  given : List Json

namespace Course

/-- What may happen at a moment. -/
inductive Moment where
  /-- A line is run. -/
  | line (text : Text)
  /-- The worker tries the oldest of the snapshots that wait, if one does. -/
  | work

namespace Moment

def isLine : Moment → Bool
  | line _ => true
  | work => false

/-- The session after the moment, if nobody interferes. -/
def act : Moment → Session → Session
  | line text, s => s.handle (.line text)
  | work, s => s.work

/-- The snapshot that is handed over at the moment. -/
def handedOver : Moment → Session → Option Json
  | line text, s => s.handedOver text
  | work, _ => none

/-- A snapshot is tried at the moment. -/
def tries : Moment → Session → Bool
  | line text, s => s.writesAtOnce && (s.handedOver text).isSome
  | work, s => !s.waiting.isEmpty

end Moment

/-- The course of a console that starts on a machine, with a keeper for the location that writes at
once or in the background. -/
def start (c : Console) (m : Machine) (l : Location) (background : Bool) : Course :=
  ⟨⟨{ c with keeper := some (.start l background) }, m⟩, []⟩

/-- The snapshots that were tried: they were handed over and do not wait. -/
def tried (c : Course) : List Json :=
  c.given.take (c.given.length - c.session.waiting.length)

/-- The course after a moment. If a snapshot is tried then there is the interference that belongs to
its number. -/
def step (i : Interference) (c : Course) (x : Moment) : Course where
  session := if x.tries c.session then c.session.amid i c.tried.length x.act else x.act c.session
  given := c.given ++ (x.handedOver c.session).toList

/-- The course after moments that follow one another. -/
def run (i : Interference) (c : Course) (moments : List Moment) : Course :=
  moments.foldl (step i) c

/-- The course after the console was closed: the worker tried all that waited. -/
def close (i : Interference) (c : Course) : Course :=
  let idle := c.run i (.replicate c.session.waiting.length .work)
  { idle with session := idle.session.close }

/-- The number of the snapshot that the file holds, counted from one, if the attempts began with the
given disk. -/
def held (i : Interference) (l : Location) (d : Disk) (c : Course) : Nat :=
  (attempts i l d c.tried).held

/-- The file at the location is as on the given disk or **holds one of the snapshots** that were
handed over. -/
def HoldsGiven (i : Interference) (l : Location) (d : Disk) (c : Course) : Prop :=
  Holds (d.file? l.landing) c.given (c.session.stored l) (c.held i l d)

variable {i : Interference} {c : Course} {l : Location} {d : Disk} {background : Bool}
  {tried : List Json}

theorem step_of_tries {x : Moment} (h : x.tries c.session = true) :
    c.step i x = ⟨c.session.amid i c.tried.length x.act,
      c.given ++ (x.handedOver c.session).toList⟩ := by
  rw [step, if_pos h]

theorem step_of_not_tries {x : Moment} (h : x.tries c.session = false) :
    c.step i x = ⟨x.act c.session, c.given ++ (x.handedOver c.session).toList⟩ := by
  rw [step, if_neg (Bool.eq_false_iff.mp h)]

/-! ### The account of the snapshots -/

/-- The **account** of a course that began with the given disk: what was handed over was tried or
waits, in this order, and the disk is what the attempts made of it. -/
structure IsAccounted (i : Interference) (l : Location) (d : Disk) (background : Bool)
    (tried : List Json) (c : Course) : Prop where
  keeper : ∃ k, c.session.console.keeper = some k ∧ k.Serves l background
  given : c.given = tried ++ c.session.waiting
  disk : c.session.machine.disk = (attempts i l d tried).disk

theorem isAccounted_start (c : Console) (m : Machine) :
    (start c m l background).IsAccounted i l m.disk background [] :=
  ⟨⟨_, rfl, Snapshot.Keeper.serves_start l background⟩, rfl, rfl⟩

namespace IsAccounted

theorem tried_eq (h : c.IsAccounted i l d background tried) : c.tried = tried := by
  rw [Course.tried, h.given, List.length_append, Nat.add_sub_cancel, List.take_left]

/-- Where the disk is left and nothing is tried, what is handed over waits. -/
theorem handOver (h : c.IsAccounted i l d background tried) {s : Session} {k : Snapshot.Keeper}
    {more : List Json} (hkeeper : s.console.keeper = some k) (hserves : k.Serves l background)
    (hpending : k.pending = c.session.waiting ++ more)
    (hdisk : s.machine.disk = c.session.machine.disk) :
    Course.IsAccounted i l d background tried ⟨s, c.given ++ more⟩ where
  keeper := ⟨k, hkeeper, hserves⟩
  given := by
    rw [Session.waiting_eq hkeeper, hpending, ← List.append_assoc, ← h.given]
  disk := hdisk.trans h.disk

/-- Something that tries a snapshot, on the disk that it meets with, adds it to those that were
tried. -/
theorem attempt (h : c.IsAccounted i l d background tried) {act : Session → Session}
    {k : Snapshot.Keeper} {v : Json} {given : List Json}
    (hact : ∀ e, (act (c.session.withDisk e)).console.keeper = some k ∧
      (act (c.session.withDisk e)).machine.disk = (e.replaceDocument l v).1)
    (hserves : k.Serves l background) (hgiven : given = tried ++ v :: k.pending) :
    Course.IsAccounted i l d background (tried ++ [v])
      ⟨c.session.amid i c.tried.length act, given⟩ := by
  obtain ⟨hkeeper, hdisk⟩ := hact (i.before c.tried.length c.session.machine.disk)
  have hafter : (c.session.amid i c.tried.length act).console.keeper = some k := hkeeper
  refine ⟨⟨k, hafter, hserves⟩, ?_, ?_⟩
  · rw [Session.waiting_eq hafter, hgiven, List.append_assoc]
    rfl
  · rw [Snapshot.attempts_concat, Snapshot.disk_attempt, Snapshot.tried_attempts, ← h.disk,
      ← h.tried_eq, ← hdisk]
    rfl

/-- A line keeps the account. -/
theorem line (h : c.IsAccounted i l d background tried) (text : Text) :
    ∃ more, (c.step i (.line text)).IsAccounted i l d background (tried ++ more) := by
  obtain ⟨k, hk, hserves⟩ := h.keeper
  have hwaiting := Session.waiting_eq hk
  obtain ⟨hkeeper, hdisk⟩ := Session.keeper_line hk text
  cases background with
  | true =>
    have htries : (Moment.line text).tries c.session = false := by
      rw [Moment.tries, Session.writesAtOnce_eq hk, hserves.background]
      rfl
    rw [hserves.takeOver_in_background] at hkeeper hdisk
    refine ⟨[], ?_⟩
    rw [step_of_not_tries htries, List.append_nil]
    exact h.handOver hkeeper (hserves.withPending _) (hwaiting ▸ rfl) hdisk
  | false =>
    cases hover : c.session.handedOver text with
    | none =>
      have htries : (Moment.line text).tries c.session = false := by
        rw [Moment.tries, hover, Option.isSome_none, Bool.and_false]
      rw [hover] at hkeeper hdisk
      refine ⟨[], ?_⟩
      rw [step_of_not_tries htries, List.append_nil]
      refine h.handOver (k := k) hkeeper hserves ?_ hdisk
      rw [Moment.handedOver, hover, hwaiting]
      exact (List.append_nil _).symm
    | some v =>
      have htries : (Moment.line text).tries c.session = true := by
        rw [Moment.tries, Session.writesAtOnce_eq hk, hserves.background, hover]
        rfl
      have hnone : k.pending = [] := hserves.prompt hserves.background
      refine ⟨[v], ?_⟩
      rw [step_of_tries htries]
      refine h.attempt (fun e => ?_) hserves ?_
      · -- whatever the disk, the line hands the same snapshot over
        have halike : (c.session.withDisk e).Alike c.session := ⟨rfl, rfl⟩
        have hline := Session.keeper_line (s := c.session.withDisk e) hk text
        rw [halike.handedOver, hover, hserves.takeOver_at_once] at hline
        exact hline
      · rw [Moment.handedOver, hover, h.given, hwaiting, hnone, List.append_nil]
        rfl

/-- The worker keeps the account. -/
theorem work (h : c.IsAccounted i l d background tried) :
    ∃ more, (c.step i .work).IsAccounted i l d background (tried ++ more) := by
  obtain ⟨k, hk, hserves⟩ := h.keeper
  have hwaiting := Session.waiting_eq hk
  cases hpending : k.pending with
  | nil =>
    have htries : Moment.work.tries c.session = false := by
      rw [Moment.tries, hwaiting, hpending]
      rfl
    obtain ⟨hkeeper, hdisk⟩ := Session.work_of_nil hk hpending
    refine ⟨[], ?_⟩
    rw [step_of_not_tries htries, List.append_nil]
    exact h.handOver hkeeper hserves (by rw [hwaiting]; exact (List.append_nil _).symm) hdisk
  | cons v rest =>
    have htries : Moment.work.tries c.session = true := by
      rw [Moment.tries, hwaiting, hpending]
      rfl
    -- only in the background something waits
    obtain rfl : background = true := by
      cases background with
      | true => rfl
      | false => exact absurd (hpending.symm.trans (hserves.prompt hserves.background)) (by simp)
    obtain rfl := hserves.target
    have hact := fun e => Session.work_of_cons (s := c.session.withDisk e) hk hpending
    refine ⟨[v], ?_⟩
    rw [step_of_tries htries]
    refine h.attempt hact (hserves.withPending rest) ?_
    rw [Moment.handedOver, h.given, hwaiting, hpending]
    exact List.append_nil _

/-- **One moment** keeps the account. -/
theorem step (h : c.IsAccounted i l d background tried) (x : Moment) :
    ∃ more, (c.step i x).IsAccounted i l d background (tried ++ more) := by
  cases x with
  | line text => exact h.line text
  | work => exact h.work

/-- **All moments** keep the account. -/
theorem run (h : c.IsAccounted i l d background tried) (moments : List Moment) :
    ∃ more, (c.run i moments).IsAccounted i l d background (tried ++ more) := by
  induction moments generalizing c tried with
  | nil => exact ⟨[], by rw [List.append_nil]; exact h⟩
  | cons x rest ih =>
    obtain ⟨first, hfirst⟩ := h.step x
    obtain ⟨later, hlater⟩ := ih hfirst
    exact ⟨first ++ later, by rw [← List.append_assoc]; exact hlater⟩

/-- While the account is kept, the file holds one of the snapshots that were handed over. -/
theorem holdsGiven (h : c.IsAccounted i l d background tried) (halone : i.LeavesAlone l) :
    c.HoldsGiven i l d := by
  rw [HoldsGiven, held, h.tried_eq, h.given, Session.stored, h.disk]
  exact (Snapshot.holds_attempts halone tried).append _

/-- Where more was tried, no older snapshot is held. -/
theorem held_le {b : Course} {more : List Json} (h : c.IsAccounted i l d background tried)
    (hmore : b.IsAccounted i l d background (tried ++ more)) : c.held i l d ≤ b.held i l d := by
  rw [held, held, h.tried_eq, hmore.tried_eq]
  exact Snapshot.held_attempts_append tried more

end IsAccounted

/-- Whatever happens after a console starts, there is an account of the snapshots. -/
theorem exists_isAccounted (i : Interference) (c : Console) (m : Machine) (l : Location)
    (background : Bool) (moments : List Moment) :
    ∃ tried, ((start c m l background).run i moments).IsAccounted i l m.disk background tried := by
  obtain ⟨tried, h⟩ := (isAccounted_start c m).run moments
  exact ⟨tried, h⟩

/-! ### Courses with the same lines -/

/-- Courses **agree** when their sessions are alike and the same snapshots were handed over. -/
structure Agrees (b c : Course) : Prop where
  session : b.session.Alike c.session
  given : b.given = c.given

variable {b : Course}

theorem Moment.alike_act {s t : Session} (h : s.Alike t) (x : Moment) :
    (x.act s).Alike (x.act t) := by
  cases x with
  | line text => exact (h.handle (e := .line text) rfl).1
  | work => exact (Session.alike_work s).trans (h.trans (Session.alike_work t).symm)

/-- Whether and when snapshots are tried makes no difference to the user. -/
theorem alike_step (c : Course) (x : Moment) :
    (c.step i x).session.Alike (x.act c.session) := by
  rw [step]
  simp only
  split
  · refine Session.Alike.amid (fun d => ?_) i _
    exact Moment.alike_act (s := c.session.withDisk d) ⟨rfl, rfl⟩ x
  · exact .refl _

theorem Agrees.line (h : b.Agrees c) (text : Text) :
    (b.step i (.line text)).Agrees (c.step i (.line text)) where
  session := (alike_step b _).trans ((Moment.alike_act h.session _).trans (alike_step c _).symm)
  given := by
    rw [step, step, h.given, Moment.handedOver, Moment.handedOver, h.session.handedOver]

theorem Agrees.work (h : b.Agrees c) : (b.step i .work).Agrees c where
  session := (alike_step b _).trans ((Session.alike_work _).trans h.session)
  given := (List.append_nil _).trans h.given

/-- The moments at which the worker is at work can be left out. -/
theorem Agrees.run (h : b.Agrees c) (moments : List Moment) :
    (b.run i moments).Agrees (c.run i (moments.filter Moment.isLine)) := by
  induction moments generalizing b c with
  | nil => exact h
  | cons x rest ih =>
    cases x with
    | line text => exact ih (h.line text)
    | work => exact ih h.work

theorem agrees_start (c : Console) (m : Machine) (background other : Bool) :
    (start c m l background).Agrees (start c m l other) :=
  ⟨⟨rfl, rfl⟩, rfl⟩

/-- Nothing is ever taken out of what was handed over. -/
theorem given_run (c : Course) (moments : List Moment) : c.given <+: (c.run i moments).given := by
  induction moments generalizing c with
  | nil => exact List.prefix_refl _
  | cons x rest ih => exact (List.prefix_append _ _).trans (ih (c.step i x))

/-! ### Closing -/

theorem waiting_step_work (c : Course) :
    (c.step i .work).session.waiting = c.session.waiting.tail := by
  rw [step]
  simp only
  split
  · exact Session.waiting_work (c.session.withDisk _)
  · exact Session.waiting_work c.session

theorem waiting_run_work (c : Course) (n : Nat) :
    (c.run i (.replicate n .work)).session.waiting = c.session.waiting.drop n := by
  induction n generalizing c with
  | zero => rfl
  | succ n ih =>
    rw [List.replicate_succ, ← List.drop_tail, ← waiting_step_work (i := i)]
    exact ih (c.step i .work)

/-- The worker alone hands nothing over and makes no difference to the user. -/
theorem agrees_run_work (c : Course) (n : Nat) : (c.run i (.replicate n .work)).Agrees c := by
  have hrun := Agrees.run (i := i) (c := c) ⟨.refl _, rfl⟩ (.replicate n .work)
  rw [List.filter_replicate_of_neg (by simp [Moment.isLine])] at hrun
  exact hrun

/-- Nor does closing hand anything over. -/
theorem given_close (c : Course) : (c.close i).given = c.given :=
  (agrees_run_work c c.session.waiting.length).given

/-- **Closing** tries all that was handed over, and nothing waits after it. -/
theorem IsAccounted.close (h : c.IsAccounted i l d background tried) :
    (c.close i).IsAccounted i l d background c.given ∧ (c.close i).session.waiting = [] := by
  obtain ⟨more, hidle⟩ := h.run (.replicate c.session.waiting.length .work)
  have hnone := waiting_run_work (i := i) c c.session.waiting.length
  have hgiven := given_close (i := i) c
  rw [List.drop_length] at hnone
  obtain ⟨k, hk, hserves⟩ := hidle.keeper
  obtain ⟨hkeeper, hdisk⟩ := Session.close_of_nil hk ((Session.waiting_eq hk).symm.trans hnone)
  have hwaiting : (c.close i).session.waiting = [] :=
    (Session.waiting_eq hkeeper).trans ((Session.waiting_eq hk).symm.trans hnone)
  -- all that was handed over was tried
  have htried : tried ++ more = c.given := by
    rw [← hgiven, Course.close, hidle.given, hnone, List.append_nil]
  rw [htried] at hidle
  refine ⟨⟨⟨k, hkeeper, hserves⟩, ?_, hdisk.trans hidle.disk⟩, hwaiting⟩
  rw [hwaiting, List.append_nil]
  exact hgiven

/-- If nobody interferes, writing what waits is trying it. -/
theorem disk_writeAll (k : Snapshot.Keeper) (d : Disk) (tried waiting : List Json) :
    (k.writeAll (attempts .undisturbed k.target d tried).disk waiting).1 =
      (attempts .undisturbed k.target d (tried ++ waiting)).disk := by
  induction waiting generalizing tried with
  | nil => rw [List.append_nil, Snapshot.Keeper.writeAll]
  | cons v rest ih =>
    have hwrite : (k.write (attempts .undisturbed k.target d tried).disk v).1 =
        (attempts .undisturbed k.target d (tried ++ [v])).disk := by
      rw [k.disk_write, Snapshot.attempts_concat, Snapshot.disk_attempt]
      rfl
    rw [Snapshot.Keeper.writeAll, List.append_cons, ← ih (tried ++ [v]), ← hwrite]

/-- If nobody interferes, the console tries all that was handed over when it is closed. -/
theorem IsAccounted.disk_close (h : c.IsAccounted .undisturbed l d background tried) :
    c.session.close.machine.disk = (attempts .undisturbed l d c.given).disk := by
  obtain ⟨k, hk, hserves⟩ := h.keeper
  obtain rfl := hserves.target
  have hclose : c.session.close.machine.disk =
      (k.writeAll c.session.machine.disk k.pending).1 := by
    rw [Session.close, Console.close, hk]
    rfl
  rw [hclose, h.disk, disk_writeAll, h.given, Session.waiting_eq hk]

/-! ### At once and in the background -/

/-- A course, which began with the given disk, **refines** another one that writes at once. -/
structure Refines (i : Interference) (l : Location) (d : Disk) (slow prompt : Course) : Prop where
  /-- The sessions are alike and the same snapshots were handed over. -/
  agrees : slow.Agrees prompt
  /-- The next line is answered alike. -/
  answer (text : Text) : slow.session.answer? (.line text) = prompt.session.answer? (.line text)
  /-- Unless somebody else changed the file it is as at first or holds one of the snapshots that
  were handed over. -/
  holdsGiven : i.LeavesAlone l → slow.HoldsGiven i l d
  /-- It is so after closing, too, and holds no older one than before. -/
  holdsGiven_close : i.LeavesAlone l → (slow.close i).HoldsGiven i l d ∧
    slow.held i l d ≤ (slow.close i).held i l d
  /-- The same is true after whatever moments. -/
  held_le : i.LeavesAlone l → ∀ more, slow.given <+: (slow.run i more).given ∧
    slow.held i l d ≤ (slow.run i more).held i l d
  /-- After closing nothing waits. -/
  waiting_close : (slow.close i).session.waiting = []
  /-- The disk is the same after closing. -/
  disk_close : (slow.close i).session.machine.disk = (prompt.close i).session.machine.disk

/-- **Writing in the background refines writing at once.** A console starts on a machine with a
keeper for some location that works in the background. It runs lines, and the worker tries snapshots
at any moments. Another console runs the same lines with a keeper that writes at once. Somebody else
interferes with the disk when a snapshot is tried, in both cases in the same way by the number of
the snapshot, so that any of them may not be written. Then the first course refines the second one.
And if nobody interferes, the consoles as they are leave the same disk when they are closed. -/
theorem background_refines_at_once (c : Console) (m : Machine) (l : Location)
    (moments : List Moment) :
    (∀ i, ((start c m l true).run i moments).Refines i l m.disk
      ((start c m l false).run i (moments.filter Moment.isLine))) ∧
    ((start c m l true).run .undisturbed moments).session.close.machine.disk =
      ((start c m l false).run .undisturbed
        (moments.filter Moment.isLine)).session.close.machine.disk := by
  have hagrees (i : Interference) : ((start c m l true).run i moments).Agrees
      ((start c m l false).run i (moments.filter Moment.isLine)) :=
    (agrees_start c m true false).run moments
  constructor
  · intro i
    obtain ⟨tried, hslow⟩ := exists_isAccounted i c m l true moments
    obtain ⟨_, hprompt⟩ := exists_isAccounted i c m l false (moments.filter Moment.isLine)
    obtain ⟨hclosed, hwaiting⟩ := hslow.close
    obtain ⟨hclosed', -⟩ := hprompt.close
    exact {
      agrees := hagrees i
      answer := fun text => ((hagrees i).session.handle rfl).2
      holdsGiven := hslow.holdsGiven
      holdsGiven_close := fun halone =>
        ⟨hclosed.holdsGiven halone, hslow.held_le (hslow.given ▸ hclosed)⟩
      held_le := fun _ more => by
        obtain ⟨_, hlater⟩ := hslow.run more
        exact ⟨given_run _ more, hslow.held_le hlater⟩
      waiting_close := hwaiting
      disk_close := by rw [hclosed.disk, hclosed'.disk, (hagrees i).given] }
  · obtain ⟨_, hslow⟩ := exists_isAccounted .undisturbed c m l true moments
    obtain ⟨_, hprompt⟩ := exists_isAccounted .undisturbed c m l false
      (moments.filter Moment.isLine)
    rw [hslow.disk_close, hprompt.disk_close, (hagrees _).given]

/-- Two lines are run before the worker tries their snapshots, and for the time of the first attempt
the disk takes no more names. So the file is as it was after that, and once the console was closed
it holds the second snapshot; the disk is the one that writing at once leaves. -/
theorem background_refines_at_once_after_failure :
    let l : Location := ⟨.here, ["tree"]⟩
    let i : Interference :=
      ⟨fun n d => if n = 0 then { d with hereSize := 5000 } else d,
        fun _ d left => { left with hereSize := d.hereSize }⟩
    let c : Console := .start .null false 0 none
    let m := Station.ofOneFile.machine
    let moments : List Moment := [.line "rm a", .line "touch b", .work]
    let slow := (start c m l true).run i moments
    let prompt := (start c m l false).run i (moments.filter Moment.isLine)
    i.LeavesAlone l ∧ slow.session.machine.notices = [.snapshotNotWritten l] ∧
      slow.session.stored l = m.disk.file? l.landing ∧
      (slow.close i).session.machine.disk = (prompt.close i).session.machine.disk ∧
      ∃ v text, slow.given[1]? = some v ∧ Json.write? v = .ok text ∧
        (slow.close i).session.stored l = some text.toUTF8 := by
  intro l i c m moments slow prompt
  have halone : i.LeavesAlone l := by
    refine Interference.leavesAlone_of_same (fun n d => ?_) fun _ _ _ => rfl
    by_cases hn : n = 0
    · simp only [i, if_pos hn]
      rfl
    · simp only [i, if_neg hn]
  have hnotices : slow.session.machine.notices = [.snapshotNotWritten l] := by decide +kernel
  have hnone : slow.held i l m.disk = 0 := by decide +kernel
  have hsecond : (slow.close i).held i l m.disk = 2 := by decide +kernel
  have hrefines : slow.Refines i l m.disk prompt := (background_refines_at_once c m l moments).1 i
  have hnow := hrefines.holdsGiven halone
  have hclosed := (hrefines.holdsGiven_close halone).1
  rw [HoldsGiven, hnone] at hnow
  rw [HoldsGiven, hsecond, given_close] at hclosed
  exact ⟨halone, hnotices, hnow.eq_first, hrefines.disk_close, hclosed.exists_text⟩

end Course

end DosConsole
