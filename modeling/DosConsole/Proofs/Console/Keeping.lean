import DosConsole.Proofs.Console.Station
import DosConsole.Proofs.Disk.Replace

/-!
# Keeping the tree

Consoles that write snapshots at once keep the file in step with the tree. The file is written after
a line that changed the revision, and only then; every other line left the tree as it was. What is
written is read back as the tree that it was taken of, because the names in every directory are
distinct and not empty: this holds of a tree that was loaded, and lines keep it.

So after every line the tree that would be loaded has the snapshot of the tree that the consoles
share (`snapshot_never_lags`). It is taken for granted that the writes succeed and that the values
that are written can be read back (`Json.IsFaithful`).
-/

namespace DosConsole

/-- Every entry that the act would make has a name that is not empty. -/
def Tree.Act.IsNamed (a : Tree.Act) : Prop :=
  ∀ name ∈ a.newName?, name ≠ []

theorem Tree.Act.IsPlain.isNamed {a : Tree.Act} (h : a.IsPlain) : a.IsNamed :=
  fun name hname => (h name hname).1

namespace Snapshot

/-- A tree that was saved is loaded with the entries that it had. -/
theorem load_of_save {d : Disk} {l : Location} {t : Tree} (hsave : (save d l t).2 = .ok ())
    (hfaithful : t.snapshot.IsFaithful) (hdistinct : t.root.AllNames Distinct)
    (hnamed : t.root.IsNamed) :
    load (save d l t).1 l = .ok (⟨t.entries, 0⟩, []) := by
  obtain ⟨text, htext, hread⟩ := Disk.read_of_replaceDocument hsave
  rw [← save] at hread
  have hdocument : (save d l t).1.readDocument l = .ok t.snapshot :=
    Disk.readDocument_of_read hread htext hfaithful
  rw [load, Disk.has_of_read hread]
  simp only
  rw [read, hdocument]
  simp only [Tree.ofSnapshot_snapshot hdistinct hnamed]

/-- A keeper leaves the disk on which the snapshot took the place of the file, or was given up. -/
theorem Keeper.disk_write (k : Keeper) (d : Disk) (v : Json) :
    (k.write d v).1 = (d.replaceDocument k.target v).1 := by
  rw [write]
  split
  · rename_i h
    rw [h]
  · rename_i h
    rw [h]

end Snapshot

/-! ### One line -/

namespace Console

/-- The console **keeps** the tree at a location: it writes its snapshot there, at once. -/
structure Keeps (c : Console) (l : Location) : Prop where
  keeper : ∃ k, c.keeper = some k ∧ k.target = l ∧ k.background = false
  capture : ∀ t, c.capture t = .ok t.snapshot

variable {c : Console} {l : Location}

/-- What a keeper writes at once is on the disk, and the keeper is as before. -/
theorem submit_keeper {k : Snapshot.Keeper} (h : k.background = false) (d : Disk) (v : Json) :
    (k.submit d v).1 = k ∧ (k.submit d v).2.1 = (d.replaceDocument k.target v).1 := by
  rw [Snapshot.Keeper.submit, h]
  exact ⟨rfl, k.disk_write d v⟩

theorem Keeps.persist (h : c.Keeps l) (m : Machine) :
    (c.persist m).1.Keeps l ∧ (c.persist m).2.disk = (Snapshot.save m.disk l m.tree).1 := by
  obtain ⟨k, hk, rfl, hbackground⟩ := h.keeper
  obtain ⟨hsame, hdisk⟩ := submit_keeper hbackground m.disk m.tree.snapshot
  rw [Console.persist, hk, h.capture]
  exact ⟨⟨⟨_, rfl, by rw [hsame], by rw [hsame]; exact hbackground⟩, h.capture⟩, hdisk⟩

/-- After a line the snapshot was saved if the revision is another one, and otherwise the disk is as
it was. -/
theorem Keeps.submit (h : c.Keeps l) (m : Machine) (line : Text) :
    (c.submit m line).2.1.Keeps l ∧
      (c.submit m line).2.2.disk =
        if (c.submit m line).2.2.tree.revision = m.tree.revision then m.disk
        else (Snapshot.save m.disk l (c.submit m line).2.2.tree).1 := by
  have hsettled : (c.settled m line).1.Keeps l := ⟨h.keeper, h.capture⟩
  have htree : (c.submit m line).2.2.tree = (c.settled m line).2.tree := c.tree_submit m line
  rw [htree]
  rcases c.submit_cases m line with ⟨hrevision, hsubmit⟩ | ⟨hrevision, hsubmit⟩
  · rw [hsubmit, if_pos hrevision]
    exact ⟨hsettled, rfl⟩
  · rw [hsubmit, if_neg hrevision]
    exact hsettled.persist (c.settled m line).2

end Console

/-! ### Whole runs -/

namespace Station

variable {s : Station} {l : Location}

/-- The station before and after each of some lines, which the consoles at the given positions run
one after the other. -/
def trace (s : Station) : List (Nat × Text) → List (Station × Station)
  | [] => []
  | (console, line) :: rest =>
    (s, s.submit console line) :: trace (s.submit console line) rest

/-- If the revision is another one after a line, then the tree was saved, and can be read back. -/
structure Saves (l : Location) (before after : Station) : Prop where
  writes : after.machine.tree.revision ≠ before.machine.tree.revision →
    (Snapshot.save before.machine.disk l after.machine.tree).2 = .ok ()
  faithful : after.machine.tree.revision ≠ before.machine.tree.revision →
    after.machine.tree.snapshot.IsFaithful

/-- What is on the disk stands for the tree that the consoles share. -/
def IsStored (l : Location) (s : Station) : Prop :=
  ∃ t notices, Snapshot.load s.machine.disk l = .ok (t, notices) ∧
    t.snapshot = s.machine.tree.snapshot

/-- **What lines keep.** All consoles keep the tree at the same location, by orderly commands; the
names in every directory are distinct and not empty; and the file stands for the tree. -/
structure IsKept (l : Location) (s : Station) : Prop where
  keeps : ∀ c ∈ s.consoles, c.Keeps l
  orderly : s.IsOrderly Tree.Act.IsNamed
  distinct : s.machine.tree.root.AllNames Distinct
  named : s.machine.tree.root.IsNamed
  stored : s.IsStored l

/-- A station is kept when its tree was loaded. -/
theorem isKept_of_load {notices : List Notice}
    (hload : Snapshot.load s.machine.disk l = .ok (s.machine.tree, notices))
    (hkeeps : ∀ c ∈ s.consoles, c.Keeps l) (horderly : s.IsOrderly Tree.Act.IsNamed) :
    s.IsKept l where
  keeps := hkeeps
  orderly := horderly
  distinct := Tree.allNames_of_load Tree.distinct_seed (fun _ _ => Record.distinct_of_decode) hload
  named := Tree.allNames_of_load Tree.named_seed (fun _ _ => Record.named_of_decode) hload
  stored := ⟨_, notices, hload, rfl⟩

/-- What a line does to the disk: the tree is saved if the revision is another one, and otherwise
nothing happens. -/
theorem disk_submit (h : ∀ c ∈ s.consoles, c.Keeps l) (console : Nat) (line : Text) :
    (∀ c ∈ (s.submit console line).consoles, c.Keeps l) ∧
      (s.submit console line).machine.disk =
        if (s.submit console line).machine.tree.revision = s.machine.tree.revision then
          s.machine.disk
        else (Snapshot.save s.machine.disk l (s.submit console line).machine.tree).1 := by
  rw [submit]
  cases hc : s.consoles[console]? with
  | none => exact ⟨h, (if_pos rfl).symm⟩
  | some c =>
    obtain ⟨hkeeps, hdisk⟩ := (h c (List.mem_of_getElem? hc)).submit s.machine line
    refine ⟨fun d hd => ?_, hdisk⟩
    rcases List.mem_or_eq_of_mem_set hd with hd | rfl
    · exact h d hd
    · exact hkeeps

/-- **One line.** A line keeps all this, and one that leaves the revision leaves the disk. -/
theorem IsKept.submit (h : s.IsKept l) {console : Nat} {line : Text}
    (hsaves : Saves l s (s.submit console line)) :
    (s.submit console line).IsKept l ∧
      ((s.submit console line).machine.tree.revision = s.machine.tree.revision →
        (s.submit console line).machine.disk = s.machine.disk) := by
  obtain ⟨horderly, acts, hacts, htree⟩ :=
    h.orderly.submit (fun _ => Tree.Act.IsPlain.isNamed) console line
  obtain ⟨hkeeps, hdisk⟩ := disk_submit h.keeps console line
  have hdistinct : (s.submit console line).machine.tree.root.AllNames Distinct := by
    rw [htree]
    exact nameRule_distinct.allNames_actAll Tree.distinct_seed h.distinct fun _ _ _ _ => trivial
  have hnamed : (s.submit console line).machine.tree.root.IsNamed := by
    rw [htree]
    exact (nameRule_each _).allNames_actAll Tree.named_seed h.named hacts
  by_cases hrevision : (s.submit console line).machine.tree.revision = s.machine.tree.revision
  · rw [if_pos hrevision] at hdisk
    -- the acts of the line did not count, so that they did nothing
    have hsame : (s.submit console line).machine.tree = s.machine.tree := by
      rw [htree] at hrevision ⊢
      exact Tree.actAll_eq_of_revision hrevision
    have hstored : (s.submit console line).IsStored l := by
      rw [IsStored, hdisk, hsame]
      exact h.stored
    exact ⟨⟨hkeeps, horderly, hdistinct, hnamed, hstored⟩, fun _ => hdisk⟩
  · rw [if_neg hrevision] at hdisk
    -- what was on the disk before does not matter
    have hload := Snapshot.load_of_save (hsaves.writes hrevision) (hsaves.faithful hrevision)
      hdistinct hnamed
    rw [← hdisk] at hload
    exact ⟨⟨hkeeps, horderly, hdistinct, hnamed, _, _, hload, rfl⟩, fun h => absurd h hrevision⟩

/-- **The snapshot never lags behind.** Consoles share a tree that was loaded from the location
where they all keep it, whatever was there, and their commands change the tree by acts that give
names. Whichever of them runs which line, after each line the tree that would be loaded has the
snapshot of the shared one, and a line that leaves the revision leaves the disk. -/
theorem snapshot_never_lags {notices : List Notice}
    (hload : Snapshot.load s.machine.disk l = .ok (s.machine.tree, notices))
    (hkeeps : ∀ c ∈ s.consoles, c.Keeps l) (horderly : s.IsOrderly Tree.Act.IsNamed)
    (lines : List (Nat × Text)) (hsaves : ∀ p ∈ s.trace lines, Saves l p.1 p.2) :
    ∀ p ∈ s.trace lines, p.2.IsStored l ∧
      (p.2.machine.tree.revision = p.1.machine.tree.revision →
        p.2.machine.disk = p.1.machine.disk) := by
  have hkept := isKept_of_load hload hkeeps horderly
  clear hload hkeeps horderly
  induction lines generalizing s with
  | nil => exact fun p hp => absurd hp List.not_mem_nil
  | cons first rest ih =>
    obtain ⟨console, line⟩ := first
    obtain ⟨hnext, hdisk⟩ := hkept.submit (hsaves _ List.mem_cons_self)
    intro p hp
    rcases List.mem_cons.mp hp with rfl | hp
    · exact ⟨hnext.stored, hdisk⟩
    · exact ih (fun q hq => hsaves q (List.mem_cons_of_mem _ hq)) hnext p hp

/-- The text of a snapshot of one file. -/
def oneFile : String :=
  "\x7b\"name\":\"/\",\"type\":\"dir\",\"children\":[\x7b\"name\":\"a\",\"type\":\"file\"\x7d]\x7d"

/-- A new console that keeps the tree of a snapshot of one file. -/
def ofOneFile : Station where
  consoles := [.start .null false 0 (some (.start ⟨.here, ["tree"]⟩ false))]
  machine := ⟨⟨[.file "a" []], 0⟩, ⟨0, [(⟨.here, ["tree"]⟩, .file oneFile.toUTF8)]⟩, []⟩

/-- Where a line removes the one file that was loaded, the tree is saved, and what is on the disk
stands for it. -/
theorem snapshot_never_lags_after_remove :
    Snapshot.load ofOneFile.machine.disk ⟨.here, ["tree"]⟩ = .ok (ofOneFile.machine.tree, []) ∧
      (ofOneFile.submit 0 "rm a").machine.tree = ⟨[], 1⟩ ∧
      ∀ p ∈ ofOneFile.trace [(0, "rm a")], Saves ⟨.here, ["tree"]⟩ p.1 p.2 ∧
        p.2.IsStored ⟨.here, ["tree"]⟩ := by
  have hload : Snapshot.load ofOneFile.machine.disk ⟨.here, ["tree"]⟩ =
      .ok (ofOneFile.machine.tree, []) := by with_unfolding_all rfl
  have htree : (ofOneFile.submit 0 "rm a").machine.tree = ⟨[], 1⟩ := by with_unfolding_all rfl
  have hkeeps : ∀ c ∈ ofOneFile.consoles, c.Keeps ⟨.here, ["tree"]⟩ := by
    intro c hc
    obtain rfl := List.mem_singleton.mp hc
    exact ⟨⟨_, rfl, rfl, rfl⟩, fun _ => rfl⟩
  have horderly : ofOneFile.IsOrderly Tree.Act.IsNamed := by
    intro c hc
    obtain rfl := List.mem_singleton.mp hc
    exact Registry.isOrderly_builtin _
  have hsaves : ∀ p ∈ ofOneFile.trace [(0, "rm a")], Saves ⟨.here, ["tree"]⟩ p.1 p.2 := by
    intro p hp
    obtain rfl := List.mem_singleton.mp hp
    refine ⟨fun _ => ?_, fun _ text htext => ?_⟩
    · rw [htree]
      with_unfolding_all rfl
    · rw [htree] at htext ⊢
      have hwritten : Json.write? (Tree.snapshot ⟨[], 1⟩) = .ok (Tree.snapshot ⟨[], 1⟩).text := by
        with_unfolding_all rfl
      obtain rfl := Except.ok.inj (hwritten.symm.trans htext)
      with_unfolding_all rfl
  exact ⟨hload, htree, fun p hp =>
    ⟨hsaves p hp, (snapshot_never_lags hload hkeeps horderly _ hsaves p hp).1⟩⟩

end Station

end DosConsole
