import DosConsole.Proofs.Console.Keeping
import DosConsole.Proofs.Console.Session
import DosConsole.Proofs.Disk.AllOrNothing

/-!
# The snapshot outlives failures

A console that writes its snapshots at once may fail to, at whatever event, since somebody else may
do anything to the disk meanwhile, as long as the snapshot itself and the tree are left alone. Then
the snapshot file is at all times as it was at first, or it holds the whole text of the tree as it
was after the last line the snapshot of which was written (`HoldsLatest`).

Nothing else depends on the disk. A session that is **alike** but for the disk and the keeper goes
through the same events with the same outcomes and stays alike, so that no write makes a difference
to the user, whether it fails or not.
-/

namespace DosConsole.Session

/-! ### What an event writes -/

/-- The file at a location. -/
def stored (l : Location) (s : Session) : Option ByteArray :=
  s.machine.disk.file? l.landing

/-- The event **saves** the tree: it is a line after which the revision is another one, and the
snapshot is written. -/
def Saves (l : Location) (s : Session) : Event → Prop
  | .line text =>
    (s.handle (.line text)).machine.tree.revision ≠ s.machine.tree.revision ∧
      (Snapshot.save s.machine.disk l (s.handle (.line text)).machine.tree).2 = .ok ()
  | _ => False

/-- Whatever somebody else does at the event leaves the tree and the file at the location alone. -/
def IsHarmless (l : Location) (s : Session) : Event → Prop
  | .outside change => (change s.machine).tree = s.machine.tree ∧
      (change s.machine).disk.file? l.landing = s.machine.disk.file? l.landing
  | _ => True

variable {s t : Session} {l : Location} {e : Event} {events : List Event}

/-- **One event.** The console keeps the tree at the location. If the event saves the tree the file
holds its text, and otherwise the file is as before. -/
theorem stored_handle (hkeeps : s.console.Keeps l) (hharmless : s.IsHarmless l e) :
    (s.handle e).console.Keeps l ∧
      (¬ s.Saves l e ∧ (s.handle e).stored l = s.stored l ∨
        s.Saves l e ∧ ∃ text, Json.write? (s.handle e).machine.tree.snapshot = .ok text ∧
          (s.handle e).stored l = some text.toUTF8) := by
  cases e with
  | line text =>
    obtain ⟨hafter, hdisk⟩ := hkeeps.submit s.machine text
    refine ⟨hafter, ?_⟩
    rw [stored, stored, Saves, handle]
    simp only [hdisk]
    generalize (s.console.submit s.machine text).2.2.tree = tree
    have hfiles := Disk.allOrNothing_replaceDocument s.machine.disk l tree.snapshot
    rw [← Snapshot.save] at hfiles
    by_cases hrevision : tree.revision = s.machine.tree.revision
    · rw [if_pos hrevision]
      exact .inl ⟨fun h => h.1 hrevision, rfl⟩
    · rw [if_neg hrevision]
      cases hsave : Snapshot.save s.machine.disk l tree with
      | mk after result =>
        rw [hsave] at hfiles
        cases result with
        | error cause => exact .inl ⟨fun h => absurd h.2 (by simp), hfiles l.landing⟩
        | ok =>
          obtain ⟨written, hwritten, -, hfile⟩ := hfiles
          refine .inr ⟨⟨hrevision, rfl⟩, written, hwritten, ?_⟩
          rw [hfile, if_pos rfl]
  | completion text =>
    rw [handle, complete_eq]
    exact ⟨⟨hkeeps.keeper, hkeeps.capture⟩, .inl ⟨id, rfl⟩⟩
  | older => exact ⟨⟨hkeeps.keeper, hkeeps.capture⟩, .inl ⟨id, rfl⟩⟩
  | newer => exact ⟨⟨hkeeps.keeper, hkeeps.capture⟩, .inl ⟨id, rfl⟩⟩
  | outside change => exact ⟨hkeeps, .inl ⟨id, hharmless.2⟩⟩

/-! ### What is on the disk after all events -/

/-- After the events the file **holds the latest** of what was saved: it is as at first and none of
the events saved the tree, or it holds the whole text of the tree as it was after the last of those
that did. -/
def HoldsLatest (l : Location) (s : Session) (events : List Event) : Prop :=
  (∀ p ∈ s.trace events, ¬ p.1.Saves l p.2) ∧ (s.run events).stored l = s.stored l ∨
    ∃ before p later, s.trace events = before ++ p :: later ∧ p.1.Saves l p.2 ∧
      (∀ q ∈ later, ¬ q.1.Saves l q.2) ∧
      ∃ text, Json.write? (p.1.handle p.2).machine.tree.snapshot = .ok text ∧
        (s.run events).stored l = some text.toUTF8

theorem holdsLatest (hkeeps : s.console.Keeps l)
    (hharmless : ∀ p ∈ s.trace events, p.1.IsHarmless l p.2) : s.HoldsLatest l events := by
  induction events generalizing s with
  | nil => exact .inl ⟨fun _ hp => absurd hp List.not_mem_nil, rfl⟩
  | cons e rest ih =>
    obtain ⟨hafter, hevent⟩ := stored_handle hkeeps (hharmless _ List.mem_cons_self)
    rcases ih hafter fun p hp => hharmless p (List.mem_cons_of_mem _ hp) with
      ⟨hnone, hsame⟩ | ⟨before, p, later, htrace, hlast⟩
    · rcases hevent with ⟨hnot, hfirst⟩ | ⟨hsaves, text, htext, hfirst⟩
      · exact .inl ⟨List.forall_mem_cons.mpr ⟨hnot, hnone⟩, hsame.trans hfirst⟩
      · exact .inr ⟨[], (s, e), (s.handle e).trace rest, rfl, hsaves, hnone, text, htext,
          hsame.trans hfirst⟩
    · refine .inr ⟨(s, e) :: before, p, later, ?_, hlast⟩
      rw [trace, htrace]
      rfl

/-! ### What depends on the disk -/

/-- Two sessions are **alike** when they differ in nothing but their keepers, their disks and the
notices given. -/
structure Alike (s t : Session) : Prop where
  console : s.console = { t.console with keeper := s.console.keeper }
  tree : s.machine.tree = t.machine.tree

/-- The outcome of an event, if it is a line. -/
def answer? (s : Session) : Event → Option Outcome
  | .line text => some (s.console.submit s.machine text).1
  | _ => none

/-- The outcomes of the lines among the events. -/
def outcomes (s : Session) (events : List Event) : List Outcome :=
  (s.trace events).filterMap fun p => p.1.answer? p.2

theorem outcomes_cons (s : Session) (e : Event) (rest : List Event) :
    s.outcomes (e :: rest) = (s.answer? e).toList ++ (s.handle e).outcomes rest := by
  rw [outcomes, trace, List.filterMap_cons, outcomes]
  cases s.answer? e with
  | none => rfl
  | some o => rfl

/-- The event is none that somebody else brings about. -/
def Event.isOwn : Event → Bool
  | .outside _ => false
  | _ => true

/-- The keeper and what is on the machine besides the tree make no difference to a line, but to the
keeper. -/
theorem submit_with_keeper (c : Console) (keeper : Option Snapshot.Keeper) {m k : Machine}
    (htree : m.tree = k.tree) (text : Text) :
    (Console.submit { c with keeper } m text).2.1 = { (c.submit k text).2.1 with
        keeper := (Console.submit { c with keeper } m text).2.1.keeper } ∧
      (Console.submit { c with keeper } m text).2.2.tree = (c.submit k text).2.2.tree ∧
      (Console.submit { c with keeper } m text).1 = (c.submit k text).1 := by
  have hwith := Console.console_submit { c with keeper } m text
  have hwithout := c.console_submit k text
  refine ⟨?_, ?_, ?_⟩
  · generalize (Console.submit { c with keeper } m text).2.1.keeper = after at hwith ⊢
    rw [hwith, hwithout, htree]
    rfl
  · rw [Console.tree_submit, Console.tree_submit, htree]
    rfl
  · rw [Console.outcome_submit, Console.outcome_submit, htree]
    rfl

/-- Nor do they make one to a completion. -/
theorem complete_with_keeper (c : Console) (keeper : Option Snapshot.Keeper) {m k : Machine}
    (htree : m.tree = k.tree) (text : Text) :
    (Console.complete { c with keeper } m text).2 = { (c.complete k text).2 with
      keeper := (Console.complete { c with keeper } m text).2.keeper } := by
  rw [Console.complete, Console.complete, htree]
  simp only
  split
  · rfl
  · rfl

/-- Sessions that are alike answer alike and stay alike. -/
theorem Alike.handle (h : s.Alike t) (hown : e.isOwn = true) :
    (s.handle e).Alike (t.handle e) ∧ s.answer? e = t.answer? e := by
  obtain ⟨c, m⟩ := s
  obtain ⟨d, k⟩ := t
  obtain ⟨hconsole, htree⟩ := h
  simp only at hconsole htree
  generalize c.keeper = keeper at hconsole
  subst hconsole
  cases e with
  | line text =>
    obtain ⟨hconsole, htree, houtcome⟩ := submit_with_keeper d keeper htree text
    exact ⟨⟨hconsole, htree⟩, congrArg some houtcome⟩
  | completion text =>
    exact ⟨⟨complete_with_keeper d keeper htree text, htree⟩, rfl⟩
  | older => exact ⟨⟨rfl, htree⟩, rfl⟩
  | newer => exact ⟨⟨rfl, htree⟩, rfl⟩
  | outside change => exact absurd hown (by simp [Event.isOwn])

/-- Whatever somebody else does to the disk meanwhile, a session goes through its own events as one
does that is alike and left to itself. -/
theorem Alike.run (h : s.Alike t) (hharmless : ∀ p ∈ s.trace events, p.1.IsHarmless l p.2) :
    (s.run events).Alike (t.run (events.filter Event.isOwn)) ∧
      s.outcomes events = t.outcomes (events.filter Event.isOwn) := by
  induction events generalizing s t with
  | nil => exact ⟨h, rfl⟩
  | cons e rest ih =>
    have hrest : ∀ p ∈ (s.handle e).trace rest, p.1.IsHarmless l p.2 := fun p hp =>
      hharmless p (List.mem_cons_of_mem _ hp)
    by_cases hown : e.isOwn = true
    · obtain ⟨hafter, hanswer⟩ := h.handle hown
      obtain ⟨hrun, houtcomes⟩ := ih hafter hrest
      rw [List.filter_cons_of_pos hown, outcomes_cons, outcomes_cons, hanswer, houtcomes]
      exact ⟨hrun, rfl⟩
    · rw [List.filter_cons_of_neg hown, outcomes_cons]
      cases e with
      | outside change =>
        -- somebody else leaves the console and the tree alone
        have htree := (hharmless _ List.mem_cons_self).1
        exact ih ⟨h.console, htree.trans h.tree⟩ hrest
      | line text => exact absurd rfl hown
      | completion text => exact absurd rfl hown
      | older => exact absurd rfl hown
      | newer => exact absurd rfl hown

/-- **All or nothing.**

* Whatever is on the disk and whatever the document is, putting it in the place of a file leaves
  every file as it was when it fails, and when it succeeds the file holds the text of the document
  and every other one is as it was.
* Let a console write the snapshots of the tree to a file at once, and let whatever events happen,
  while somebody else does anything to the disk but touch that file, so that writes may fail at any
  of them. At all times the file holds the latest of what was saved.
* And at all times the console, the tree and the outcomes of the lines are those of a session that
  differs in its keeper and its disk only and is left to itself. -/
theorem snapshot_all_or_nothing :
    (∀ (d : Disk) (l : Location) (v : Json), Disk.AllOrNothing d l v (d.replaceDocument l v)) ∧
    ∀ {s : Session} {l : Location} {events : List Event}, s.console.Keeps l →
      (∀ p ∈ s.trace events, p.1.IsHarmless l p.2) →
        s.HoldsLatest l events ∧
        ∀ t : Session, s.Alike t → (s.run events).Alike (t.run (events.filter Event.isOwn)) ∧
          s.outcomes events = t.outcomes (events.filter Event.isOwn) :=
  ⟨Disk.allOrNothing_replaceDocument, fun hkeeps hharmless =>
    ⟨holdsLatest hkeeps hharmless, fun _ halike => halike.run hharmless⟩⟩

/-- A file is removed, and after that the disk takes no more names, so that a file is made and the
snapshot is not written. The file holds the text of the tree as it was in between. -/
theorem snapshot_all_or_nothing_after_failure :
    let l : Location := ⟨.here, ["tree"]⟩
    let s : Session :=
      ⟨.start .null false 0 (some (.start l false)), Station.ofOneFile.machine⟩
    let fills (m : Machine) : Machine := { m with disk := { m.disk with hereSize := 5000 } }
    let events : List Event := [.line "rm a", .outside fills, .line "touch b"]
    s.console.Keeps l ∧ (∀ p ∈ s.trace events, p.1.IsHarmless l p.2) ∧
      (s.outcomes events).map (·.success) = [true, true] ∧
      (s.run events).machine.notices = [.snapshotNotWritten l] ∧
      ∃ text, Json.write? (s.handle (.line "rm a")).machine.tree.snapshot = .ok text ∧
        (s.run events).stored l = some text.toUTF8 := by
  intro l s fills events
  have hkeeps : s.console.Keeps l := ⟨⟨_, rfl, rfl, rfl⟩, fun _ => rfl⟩
  have htrace : s.trace events = [(s, .line "rm a"), (s.handle (.line "rm a"), .outside fills),
      ((s.handle (.line "rm a")).handle (.outside fills), .line "touch b")] := rfl
  have hfills : ∀ t : Session, t.IsHarmless l (.outside fills) := fun _ => ⟨rfl, rfl⟩
  have hnever : ∀ t : Session, ¬ t.Saves l (.outside fills) := fun _ => id
  have hharmless : ∀ p ∈ s.trace events, p.1.IsHarmless l p.2 := by
    rw [htrace]
    simp only [List.mem_cons, List.not_mem_nil, or_false]
    rintro p (rfl | rfl | rfl)
    · trivial
    · exact hfills _
    · trivial
  have hfirst : s.Saves l (.line "rm a") := by
    constructor
    · decide +kernel
    · decide +kernel
  have hlast : ¬ ((s.handle (.line "rm a")).handle (.outside fills)).Saves l (.line "touch b") := by
    rintro ⟨-, hwritten⟩
    revert hwritten
    decide +kernel
  have hnotices : (s.run events).machine.notices = [.snapshotNotWritten l] := by decide +kernel
  have houtcomes : (s.outcomes events).map (·.success) = [true, true] := by decide +kernel
  obtain ⟨hholds, -⟩ := snapshot_all_or_nothing.2 hkeeps hharmless
  refine ⟨hkeeps, hharmless, houtcomes, hnotices, ?_⟩
  rcases hholds with ⟨hnone, -⟩ | ⟨before, p, later, hp, hsaves, -, hheld⟩
  · exact absurd hfirst (hnone _ (htrace ▸ List.mem_cons_self))
  · -- no other event saves the tree
    have hmem : p ∈ s.trace events := hp ▸ List.mem_append_right _ List.mem_cons_self
    rw [htrace] at hmem
    simp only [List.mem_cons, List.not_mem_nil, or_false] at hmem
    rcases hmem with rfl | rfl | rfl
    · simp only at hheld
      exact hheld
    · simp only at hsaves
      exact absurd hsaves (hnever _)
    · simp only at hsaves
      exact absurd hsaves hlast

end DosConsole.Session
