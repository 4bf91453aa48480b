import DosConsole.Proofs.Command.Recount
import DosConsole.Proofs.Console.Batch
import DosConsole.Proofs.Console.Effect
import DosConsole.Proofs.Console.Leaving

/-!
# Restarting is invisible

A run of lines can be left in between and taken up again by a new run, and nobody can tell from what
is printed, from the disk or from the exit code (`Program.restart_invisible`). Two things make it
so.

The first is what is left behind. Either the tree was never saved and nothing changed, or it was
saved last with the entries that it has. Both ways the new run loads these entries.

The second is what the new run does. It starts with no change counted, and apart from this it stands
where the old one stood; from there on the two **mirror** each other, line by line.
-/

namespace DosConsole

namespace Console

variable {c : Console} {l : Location}

/-! ### What a new run finds -/

/-- What **lasts** while a console runs lines of built-in commands, from where it and its machine
began, provided that the snapshots are written. The disk that would be left is as at first, and so
is the tree, or the tree was saved to it last. -/
structure Lasts (l : Location) (first : Console) (start : Machine) (c : Console) (m : Machine) :
    Prop where
  registry : c.registry = .builtin
  user : c.user = first.user
  strictRemoval : c.strictRemoval = first.strictRemoval
  stores : c.Stores l
  distinct : m.tree.root.AllNames Distinct
  named : m.tree.root.IsNamed
  found : ((c.leave m).tree = start.tree ∧ (c.leave m).disk = start.disk) ∨
    (start.tree.revision < m.tree.revision ∧ ∃ d, (Snapshot.save d l m.tree).2 = .ok () ∧
      (c.leave m).disk = (Snapshot.save d l m.tree).1)

/-- A line of built-in commands keeps this. -/
theorem Lasts.submit {first : Console} {start m : Machine} (h : Lasts l first start c m)
    (line : Text) (hwritten : .snapshotNotWritten l ∉
      ((c.submit m line).2.1.leave (c.submit m line).2.2).notices) :
    Lasts l first start (c.submit m line).2.1 (c.submit m line).2.2 := by
  obtain ⟨hstores, hfollows⟩ := h.stores.submit m line
  obtain ⟨acts, hacts, htree⟩ := (Registry.isOrderly_builtin Tree.Act.IsNamed).exists_acts
    (fun _ => Tree.Act.IsPlain.isNamed) line (c.workspace m.tree)
  rw [← h.registry, ← tree_submit] at htree
  have hdistinct : (c.submit m line).2.2.tree.root.AllNames Distinct := by
    rw [htree]
    exact nameRule_distinct.allNames_actAll Tree.distinct_seed h.distinct fun _ _ _ _ => trivial
  have hnamed : (c.submit m line).2.2.tree.root.IsNamed := by
    rw [htree]
    exact (nameRule_each _).allNames_actAll Tree.named_seed h.named hacts
  have heffect := Registry.effect_execute (c.workspace m.tree) line
  rw [← h.registry] at heffect
  have hcount := heffect.counted
  have htruth := heffect.truthful
  rw [← tree_submit] at hcount htruth
  have hworkspace := workspace_submit c m line
  have huser := (congrArg Workspace.user hworkspace).trans heffect.user
  have hstrict := (congrArg Workspace.strictRemoval hworkspace).trans heffect.strictRemoval
  refine ⟨(c.registry_submit m line).trans h.registry, huser.trans h.user,
    hstrict.trans h.strictRemoval, hstores, hdistinct, hnamed, ?_⟩
  by_cases hrevision : (c.submit m line).2.2.tree.revision = m.tree.revision
  · -- nothing was changed, so that nothing new is left
    have hsame : (c.submit m line).2.2.tree = m.tree := htruth hrevision
    have hfound := h.found
    rw [tree_leave] at hfound
    rw [tree_leave, hsame, (hfollows.same (by rw [tree_leave, tree_leave, hsame])).1]
    exact hfound
  · have hsaved := hfollows.saved (by rw [tree_leave, tree_leave]; exact hrevision)
    rw [tree_leave] at hsaved
    have hbegan : start.tree.revision ≤ m.tree.revision := by
      rcases h.found with ⟨htree, -⟩ | ⟨hlater, -⟩
      · rw [← htree, tree_leave]
      · exact Nat.le_of_lt hlater
    have hnext : (c.submit m line).2.2.tree.revision = m.tree.revision + 1 :=
      hcount.resolve_left hrevision
    exact .inr ⟨by omega, _, hsaved.told.resolve_right hwritten, hsaved.disk⟩

/-- A new console finds the tree that was left, with no change counted. -/
theorem Lasts.load {first : Console} {start m : Machine} (h : Lasts l first start c m)
    {notices : List Notice}
    (hload : Snapshot.load start.disk l = .ok (start.tree, notices))
    (hnew : start.tree.revision = 0)
    (hfaithful : m.tree.revision ≠ start.tree.revision → m.tree.snapshot.IsFaithful) :
    ∃ found, Snapshot.load (c.leave m).disk l = .ok (⟨m.tree.entries, 0⟩, found) := by
  rcases h.found with ⟨htree, hdisk⟩ | ⟨hlater, d, hwritten, hdisk⟩
  · rw [tree_leave] at htree
    refine ⟨notices, ?_⟩
    rw [hdisk, hload, htree, ← hnew]
  · rw [hdisk]
    exact ⟨_, Snapshot.load_of_save hwritten (hfaithful (by omega)) h.distinct h.named⟩

/-! ### What a new run does -/

/-- One console with its machine **mirrors** another one: both have the built-in commands and store
their trees at the same location, where they would leave the same disk, and they stand at the same
place, but for changes that the mirrored one has counted more. -/
structure Mirrors (l : Location) (more : Nat) (c d : Console) (m k : Machine) : Prop where
  commands : c.registry = .builtin ∧ d.registry = .builtin
  stores : c.Stores l ∧ d.Stores l
  workspace : d.workspace k.tree = (c.workspace m.tree).recount more
  disk : (d.leave k).disk = (c.leave m).disk

/-- **Nobody can tell.** A line comes to the same outcome on both sides, and one still mirrors the
other. -/
theorem Mirrors.submit {more : Nat} {d : Console} {m k : Machine} (h : Mirrors l more c d m k)
    (line : Text) : (d.submit k line).1 = (c.submit m line).1 ∧
      Mirrors l more (c.submit m line).2.1 (d.submit k line).2.1 (c.submit m line).2.2
        (d.submit k line).2.2 := by
  obtain ⟨hc, hd⟩ := h.commands
  obtain ⟨hcstores, hcfollows⟩ := h.stores.1.submit m line
  obtain ⟨hdstores, hdfollows⟩ := h.stores.2.submit k line
  have hexecute := Registry.execute_recount line (c.workspace m.tree) more
  rw [← h.workspace, ← hd] at hexecute
  have hworkspace : (d.submit k line).2.1.workspace (d.submit k line).2.2.tree =
      ((c.submit m line).2.1.workspace (c.submit m line).2.2.tree).recount more := by
    rw [workspace_submit, workspace_submit, hexecute, hc, hd]
  have houtcome : (d.submit k line).1 = (c.submit m line).1 := by
    rw [outcome_submit, outcome_submit, hexecute, hc, hd]
  -- the trees have the same entries before and after, so that they are saved together
  have hbefore : k.tree = m.tree.recount more := congrArg Workspace.tree h.workspace
  have hafter : (d.submit k line).2.2.tree = (c.submit m line).2.2.tree.recount more :=
    congrArg Workspace.tree hworkspace
  refine ⟨houtcome, ⟨(c.registry_submit m line).trans hc, (d.registry_submit k line).trans hd⟩,
    ⟨hcstores, hdstores⟩, hworkspace, ?_⟩
  have hcount : (d.submit k line).2.2.tree.revision = k.tree.revision ↔
      (c.submit m line).2.2.tree.revision = m.tree.revision := by
    rw [hbefore, hafter]
    exact Nat.add_right_cancel_iff
  by_cases hrevision : (c.submit m line).2.2.tree.revision = m.tree.revision
  · rw [(hcfollows.same (by rw [tree_leave, tree_leave, hrevision])).1,
      (hdfollows.same (by rw [tree_leave, tree_leave, hcount.mpr hrevision])).1, h.disk]
  · rw [(hcfollows.saved (by rwa [tree_leave, tree_leave])).disk,
      (hdfollows.saved (by rwa [tree_leave, tree_leave, Ne, hcount])).disk, h.disk, tree_leave,
      tree_leave, hafter]
    rfl

end Console

namespace Program

open Console

variable {l : Location}

/-! ### Opening a console -/

/-- A console that was **opened** to store a tree stands at the root with the built-in commands, on
the tree that was loaded, and it is opened on any other disk that a tree can be loaded from. -/
structure Opened (s : Setting) (given : Option Text) (l : Location) (c : Console) (m : Machine) :
    Prop where
  registry : c.registry = .builtin
  cwd : c.cwd = "/"
  stores : c.Stores l
  /-- Nothing waits yet. -/
  disk : ∀ k, (c.leave k).disk = k.disk
  begins : m.disk = s.disk
  loaded : ∃ notices, Snapshot.load s.disk l = .ok (m.tree, notices)
  again : ∀ d t notices, Snapshot.load d l = .ok (t, notices) →
    ∃ k, openConsole { s with disk := d } given true = .ok (c, k) ∧ k.tree = t ∧ k.disk = d

theorem exists_opened {s : Setting} {given : Option Text} {c : Console} {m : Machine}
    (hopen : openConsole s given true = .ok (c, m))
    (hpersist : s.settings.isSet "storage.persist" true = true) : ∃ l, Opened s given l c m := by
  rw [openConsole] at hopen
  split at hopen
  · exact absurd hopen (by simp)
  · rename_i l hstorage
    split at hopen
    · exact absurd hopen (by simp)
    · rename_i tree notices hload
      split at hopen
      · exact absurd hopen (by simp)
      · rename_i limit more hlimit
        simp only [hpersist, Bool.and_self, if_true] at hopen
        obtain ⟨rfl, rfl⟩ := Prod.mk.inj (Except.ok.inj hopen)
        refine ⟨l, rfl, rfl, ⟨⟨_, rfl, rfl, fun _ => rfl⟩, fun _ => rfl⟩, fun _ => rfl, rfl,
          ⟨_, hload⟩, fun d t notices hagain => ?_⟩
        refine ⟨⟨t, d, s.notices ++ notices ++ more⟩, ?_, rfl, rfl⟩
        rw [openConsole]
        simp only [hstorage, hagain, hlimit, hpersist, Bool.and_self, if_true]
        rfl

/-- Where an opened console begins what lasts holds. -/
theorem Opened.lasts {s : Setting} {given : Option Text} {c : Console} {m : Machine}
    (h : Opened s given l c m) : Lasts l c m c m := by
  obtain ⟨notices, hload⟩ := h.loaded
  exact {
    registry := h.registry
    user := rfl
    strictRemoval := rfl
    stores := h.stores
    distinct := Tree.allNames_of_load Tree.distinct_seed
      (fun _ _ => Record.distinct_of_decode) hload
    named := Tree.allNames_of_load Tree.named_seed (fun _ _ => Record.named_of_decode) hload
    found := .inl ⟨tree_leave c m, h.disk m⟩ }

/-! ### Runs of lines -/

/-- One run of lines **mirrors** another one: the same was printed, and the consoles mirror each
other. -/
structure Batch.Mirrors (l : Location) (more : Nat) (a b : Batch) : Prop where
  output : b.output = a.output
  succeeded : b.succeeded = a.succeeded
  stopped : b.stopped = a.stopped
  console : Console.Mirrors l more a.console b.console a.machine b.machine

section AnyOutlet

variable [Outlet]

/-- What lasts while each line is run lasts while all are run. -/
theorem lasts_submitAll {first c : Console} {start m : Machine} (h : Lasts l first start c m)
    (lines : List Text) (echo : Bool)
    (hwritten : .snapshotNotWritten l ∉ (submitAll c m lines echo).report.notices) :
    Lasts l first start (submitAll c m lines echo).console (submitAll c m lines echo).machine := by
  -- no notice that would be left is lost, so that there is none before any of the lines
  refine (submitAll_keeps (P := fun c m => c.Stores l ∧
    (.snapshotNotWritten l ∉ (c.leave m).notices → Lasts l first start c m))
      (fun c m line hc => ?_) ⟨h.stores, fun _ => h⟩ lines echo).2 hwritten
  obtain ⟨hstores, hfollows⟩ := hc.1.submit m line
  exact ⟨hstores, fun hnone => (hc.2 fun htold => hnone (hfollows.notices htold)).submit line hnone⟩

/-- A line that is run on both sides prints the same, and one still mirrors the other. -/
theorem Batch.Mirrors.next {more : Nat} {a b : Batch} (h : a.Mirrors l more b) (echo : Bool)
    (line : Text) : (a.next echo line).Mirrors l more (b.next echo line) := by
  cases hstopped : a.stopped with
  | true => rwa [next_of_stopped hstopped, next_of_stopped (h.stopped.trans hstopped)]
  | false =>
    obtain ⟨houtcome, hconsole⟩ := h.console.submit line
    rw [next_of_not_stopped hstopped, next_of_not_stopped (h.stopped.trans hstopped)]
    exact ⟨by rw [houtcome, h.output], by rw [houtcome, h.succeeded], by rw [houtcome], hconsole⟩

/-- Lines that are run on both sides print the same, and one still mirrors the other. -/
theorem Batch.Mirrors.foldl_next {more : Nat} {a b : Batch} (h : a.Mirrors l more b) (echo : Bool)
    (lines : List Text) :
    (lines.foldl (Batch.next echo) a).Mirrors l more (lines.foldl (Batch.next echo) b) := by
  induction lines generalizing a b with
  | nil => exact h
  | cons line rest ih => exact ih (h.next echo line)

/-- Lines are run in the console that is opened for them. -/
theorem handle_run {s : Setting} {i : Invocation} {c : Console} {m : Machine}
    (hopen : openConsole s i.user i.persist = .ok (c, m)) (lines : List Text) (echo : Bool) :
    handle s { i with request := .run lines echo } = .over (runLines c m lines echo) := by
  simp only [handle, withConsole, hopen]

/-- **Restarting is invisible.** Let a console be opened to keep the tree, whatever was on the disk,
run some lines, and come back to the root with all snapshots written, the last of which can be read.
Whether further lines are run after these or by a new run, on the disk that the first one left, the
same is printed, the disk is the same in the end, and the program fails if one of the two does.

All this is so if the first run prints its lines to the end. If it meets a text that is not taken,
it comes to the same whether further lines are given or not. -/
theorem restart_invisible {s : Setting} {i : Invocation} (hkeeps : i.persist = true)
    (hpersist : s.settings.isSet "storage.persist" true = true) {c : Console} {m : Machine}
    (hopen : openConsole s i.user i.persist = .ok (c, m)) {lines : List Text} {echo : Bool}
    (hroot : (submitAll c m lines echo).console.cwd = "/")
    (hwritten : ∀ l, .snapshotNotWritten l ∉ (runLines c m lines echo).notices)
    (hfaithful : (submitAll c m lines echo).machine.tree.revision ≠ m.tree.revision →
      (submitAll c m lines echo).machine.tree.snapshot.IsFaithful) (more : List Text) :
    ∃ whole part rest : Report,
      handle s { i with request := .run (lines ++ more) echo } = .over whole ∧
      handle s { i with request := .run lines echo } = .over part ∧
      handle { s with disk := part.disk } { i with request := .run more echo } = .over rest ∧
      (part.ending ≠ .fault .unprintable →
        whole.output = part.output ++ rest.output ∧ whole.disk = rest.disk ∧
        (whole.ending.exitCode = 1 ↔ part.ending.exitCode = 1 ∨ rest.ending.exitCode = 1)) ∧
      (part.ending = .fault .unprintable → whole = part) := by
  obtain ⟨l, hopened⟩ := exists_opened (hkeeps ▸ hopen) hpersist
  obtain ⟨notices, hload⟩ := hopened.loaded
  rw [← hopened.begins] at hload
  have hlasts := lasts_submitAll hopened.lasts lines echo (hwritten l)
  -- a new console finds the tree that was left
  obtain ⟨found, hfound⟩ := hlasts.load hload (Tree.revision_of_load hload) hfaithful
  obtain ⟨k, hagain, htree, hdisk⟩ := hopened.again _ _ _ hfound
  have hwhole := submitAll_append c m lines more echo
  refine ⟨runLines c m (lines ++ more) echo, runLines c m lines echo, runLines c k more echo,
    handle_run hopen _ _, handle_run hopen _ _, handle_run (hkeeps ▸ hagain) _ _, ?_, ?_⟩
  · intro hended
    rw [runLines, runLines, runLines, hwhole]
    rw [runLines, ne_eq, Batch.ending_report_iff, Bool.not_eq_true] at hended
    generalize submitAll c m lines echo = first at *
    -- and from there on the console that was not left mirrors it
    have hmirrors : Console.Mirrors l first.machine.tree.revision c first.console k
        first.machine := {
      commands := ⟨hopened.registry, hlasts.registry⟩
      stores := ⟨hopened.stores, hlasts.stores⟩
      workspace := by
        rw [Console.workspace, Console.workspace, Workspace.recount, htree, Tree.recount, hroot,
          hlasts.user, hlasts.strictRemoval, hopened.cwd, Nat.zero_add]
      disk := by rw [hopened.disk, hdisk] }
    have hstart : (Batch.start c k).Mirrors l _ (.start first.console first.machine) :=
      ⟨rfl, rfl, rfl, hmirrors⟩
    have hsame : (submitAll c k more echo).Mirrors l first.machine.tree.revision
        (submitAll first.console first.machine more echo) := hstart.foldl_next echo more
    rw [Batch.continuedBy_of_not_stopped hended, Batch.exitCode_report_iff,
      Batch.exitCode_report_iff, Batch.exitCode_report_iff]
    refine ⟨?_, ?_, ?_⟩
    · exact congrArg _ hsame.output
    · exact hsame.console.disk
    · simp only [hended, hsame.stopped, hsame.succeeded, Bool.and_eq_false_iff,
        Bool.false_eq_true, false_or]
      exact or_left_comm
  · intro hstopped
    rw [runLines, Batch.ending_report_iff] at hstopped
    rw [runLines, runLines, hwhole, Batch.continuedBy_of_stopped hstopped]

end AnyOutlet

/-- The snapshot of a tree without entries is read back. -/
theorem isFaithful_empty : (Tree.snapshot ⟨[], 1⟩).IsFaithful :=
  Json.isFaithful_of_text (by with_unfolding_all rfl)

/-- The settings of a new installation but for where the tree is kept, on a disk with a tree of one
file. -/
def ofOneFile : Setting where
  settings := .holding ⟨.here, ["settings"]⟩ [("storage", .object [("path", .str "tree")])]
  environment := ⟨"U", [], ⟨⟨.root, []⟩, []⟩⟩
  disk := Station.ofOneFile.machine.disk
  notices := []

/-- The one file is removed, and a run that follows does not find it. -/
theorem restart_invisible_after_remove :
    let _ : Outlet := .unicode
    let i : Invocation := ⟨false, none, none, true, none, .shell⟩
    let c : Console := .start (.str "U") false 1000 (some (.start ⟨.here, ["tree"]⟩ true))
    let m : Machine := ⟨⟨[.file "a" []], 0⟩, ofOneFile.disk, []⟩
    openConsole ofOneFile i.user i.persist = .ok (c, m) ∧
      (submitAll c m ["rm a"] true).machine.tree = ⟨[], 1⟩ ∧
      ∃ whole part rest : Report,
        handle ofOneFile { i with request := .run ["rm a", "rm a"] true } = .over whole ∧
        handle ofOneFile { i with request := .run ["rm a"] true } = .over part ∧
        handle { ofOneFile with disk := part.disk } { i with request := .run ["rm a"] true } =
          .over rest ∧
        whole.output = "U@DOS:/> rm a\nU@DOS:/> rm a\nNot found\n" ∧
        whole.output = part.output ++ rest.output ∧
        part.ending = .code 0 ∧ rest.ending.exitCode = 1 ∧ whole.ending = .code 1 := by
  intro _ i c m
  have hopen : openConsole ofOneFile i.user i.persist = .ok (c, m) := by with_unfolding_all rfl
  obtain ⟨hempty, hrevision⟩ : (submitAll c m ["rm a"] true).machine.tree.entries.isEmpty = true ∧
      (submitAll c m ["rm a"] true).machine.tree.revision = 1 := by decide +kernel
  have htree : (submitAll c m ["rm a"] true).machine.tree = ⟨[], 1⟩ := by
    rw [← List.isEmpty_iff.mp hempty, ← hrevision]
  have hroot : (submitAll c m ["rm a"] true).console.cwd = "/" := by decide +kernel
  have hnotices : (runLines c m ["rm a"] true).notices = [] := by decide +kernel
  obtain ⟨whole, part, rest, hwhole, hpart, hrest, hsame, -⟩ :=
    restart_invisible rfl (by decide +kernel) hopen hroot
      (fun l => by rw [hnotices]; exact List.not_mem_nil) (fun _ => htree ▸ isFaithful_empty)
      ["rm a"]
  rw [List.singleton_append] at hwhole
  have hrun (lines : List Text) : handle ofOneFile { i with request := .run lines true } =
      .over (runLines c m lines true) := handle_run hopen lines true
  have hends : (runLines c m ["rm a"] true).ending = .code 0 := by decide +kernel
  have hfails : (runLines c m ["rm a", "rm a"] true).ending = .code 1 := by decide +kernel
  have hprints : (runLines c m ["rm a", "rm a"] true).output =
      "U@DOS:/> rm a\nU@DOS:/> rm a\nNot found\n" := by decide +kernel
  rw [hrun] at hwhole hpart
  rw [Beginning.over.inj hwhole] at hfails hprints
  rw [Beginning.over.inj hpart] at hends
  obtain ⟨houtput, -, hcode⟩ := hsame (by rw [hends]; simp)
  -- the run as a whole fails, and its first part does not
  have hsecond : rest.ending.exitCode = 1 := by
    rw [hfails, hends] at hcode
    exact (hcode.mp rfl).resolve_left (by decide)
  refine ⟨hopen, htree, whole, part, rest, ?_, ?_, hrest, hprints, houtput, hends, hsecond, hfails⟩
  · rw [hrun, Beginning.over.inj hwhole]
  · rw [hrun, Beginning.over.inj hpart]

end Program

end DosConsole
