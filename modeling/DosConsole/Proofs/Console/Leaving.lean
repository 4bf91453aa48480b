import DosConsole.Proofs.Console.Keeping

/-!
# What a console leaves behind

A keeper that works in the background writes at the end what one that works at once has written by
then (`Snapshot.Keeper.close_submit`). So the machine as it is **left**, with all snapshots written,
does not depend on when they are, and it is changed by a line in one and the same way: the tree is
saved if its revision is another one, and otherwise nothing happens (`Console.Stores.submit`).
-/

namespace DosConsole

namespace Snapshot.Keeper

/-- What waits does not matter for what is written. -/
theorem write_pending (k : Keeper) (pending : List Json) (d : Disk) (v : Json) :
    { k with pending }.write d v = k.write d v := rfl

theorem writeAll_pending (k : Keeper) (pending : List Json) (d : Disk) (snapshots : List Json) :
    { k with pending }.writeAll d snapshots = k.writeAll d snapshots := by
  induction snapshots generalizing d with
  | nil => rfl
  | cons v rest ih => simp only [writeAll, write_pending, ih]

/-- Writing several snapshots and one more. -/
theorem writeAll_concat (k : Keeper) (d : Disk) (waiting : List Json) (v : Json) :
    k.writeAll d (waiting ++ [v]) =
      ((k.write (k.writeAll d waiting).1 v).1,
        (k.writeAll d waiting).2 ++ (k.write (k.writeAll d waiting).1 v).2) := by
  induction waiting generalizing d with
  | nil => simp only [List.nil_append, writeAll, List.append_nil]
  | cons first rest ih => simp only [List.cons_append, writeAll, ih, List.append_assoc]

/-- Only a keeper that works in the background has snapshots that wait. -/
def IsPrompt (k : Keeper) : Prop :=
  k.background = false → k.pending = []

/-- **At once or in the background.** When the keeper is closed in the end, a snapshot that it took
over was written after those that waited, and the notices are in the same order. -/
theorem close_submit {k : Keeper} (h : k.IsPrompt) (d : Disk) (v : Json) :
    ((k.submit d v).1.close (k.submit d v).2.1).2.1 = (k.write (k.close d).2.1 v).1 ∧
      (k.submit d v).2.2 ++ ((k.submit d v).1.close (k.submit d v).2.1).2.2 =
        (k.close d).2.2 ++ (k.write (k.close d).2.1 v).2 := by
  rw [submit]
  split
  · simp only [close, writeAll_pending, write_pending, writeAll_concat, List.nil_append, and_self]
  · rename_i hprompt
    have hnone : k.pending = [] := h (Bool.eq_false_iff.mpr hprompt)
    simp only [close, hnone, writeAll, List.append_nil, List.nil_append, and_self]

/-- Taking a snapshot over keeps the target, and nothing waits at a keeper that works at once. -/
theorem submit_fst {k : Keeper} (h : k.IsPrompt) (d : Disk) (v : Json) :
    (k.submit d v).1.IsPrompt ∧ (k.submit d v).1.target = k.target := by
  rw [submit]
  split
  · rename_i hbackground
    exact ⟨fun hprompt => absurd hprompt (by simp [hbackground]), rfl⟩
  · exact ⟨h, rfl⟩

/-- A snapshot is written as it is saved, and a notice tells if it is not. -/
theorem write_eq (k : Keeper) (d : Disk) (t : Tree) :
    (k.write d t.snapshot).1 = (save d k.target t).1 ∧
      ((save d k.target t).2 = .ok () ∨
        .snapshotNotWritten k.target ∈ (k.write d t.snapshot).2) := by
  refine ⟨k.disk_write d t.snapshot, ?_⟩
  rw [write, save]
  cases d.replaceDocument k.target t.snapshot with
  | mk after result =>
    cases result with
    | ok => exact .inl rfl
    | error e => exact .inr List.mem_cons_self

end Snapshot.Keeper

namespace Console

/-! ### What is left behind -/

/-- The machine as the console **leaves** it, with all snapshots written. -/
def leave (c : Console) (m : Machine) : Machine :=
  (c.close m).2

/-- The console **stores** the tree at a location, at once or in the background. -/
structure Stores (c : Console) (l : Location) : Prop where
  keeper : ∃ k, c.keeper = some k ∧ k.target = l ∧ k.IsPrompt
  capture : ∀ t, c.capture t = .ok t.snapshot

variable {c : Console} {l : Location}

theorem leave_eq {k : Snapshot.Keeper} (h : c.keeper = some k) (m : Machine) :
    c.leave m = { m with
      disk := (k.close m.disk).2.1
      notices := m.notices ++ (k.close m.disk).2.2 } := by
  rw [leave, close, h]
  rfl

/-- Leaving keeps the tree as it is. -/
theorem tree_leave (c : Console) (m : Machine) : (c.leave m).tree = m.tree := by
  rw [leave, close]
  split
  · rfl
  · rfl

/-- What becomes of a machine when its tree is **saved**: the disk is the one with the snapshot, all
notices are kept, and there is one more if the snapshot was not written. -/
structure Saved (l : Location) (before after : Machine) (t : Tree) : Prop where
  disk : after.disk = (Snapshot.save before.disk l t).1
  notices : before.notices ⊆ after.notices
  told : (Snapshot.save before.disk l t).2 = .ok () ∨ .snapshotNotWritten l ∈ after.notices

/-- Keeping the tree comes to saving it on the machine that would have been left. -/
theorem Stores.persist (h : c.Stores l) (m : Machine) :
    (c.persist m).1.Stores l ∧
      Saved l (c.leave m) ((c.persist m).1.leave (c.persist m).2) m.tree := by
  obtain ⟨k, hk, rfl, hprompt⟩ := h.keeper
  obtain ⟨hafter, htarget⟩ := Snapshot.Keeper.submit_fst hprompt m.disk m.tree.snapshot
  obtain ⟨hdisk, hnotices⟩ := Snapshot.Keeper.close_submit hprompt m.disk m.tree.snapshot
  obtain ⟨hsave, htold⟩ := k.write_eq (k.close m.disk).2.1 m.tree
  have hpersist : c.persist m = ({ c with keeper := some (k.submit m.disk m.tree.snapshot).1 },
      { m with disk := (k.submit m.disk m.tree.snapshot).2.1 }.notify
        (k.submit m.disk m.tree.snapshot).2.2) := by
    rw [Console.persist, hk, h.capture]
  rw [hpersist]
  refine ⟨⟨⟨_, rfl, htarget, hafter⟩, h.capture⟩, ?_⟩
  rw [leave_eq hk, leave_eq rfl]
  simp only [Machine.notify, List.append_assoc, hnotices]
  refine ⟨hdisk.trans hsave, ?_, htold.imp_right fun htold => ?_⟩
  · rw [← List.append_assoc]
    exact List.subset_append_left _ _
  · exact List.mem_append_right _ (List.mem_append_right _ htold)

/-- What a line does to the machine that would be left: if the revision is another one the tree is
saved, and otherwise the disk is as it was. -/
structure Follows (l : Location) (before after : Machine) : Prop where
  same : after.tree.revision = before.tree.revision →
    after.disk = before.disk ∧ before.notices ⊆ after.notices
  saved : after.tree.revision ≠ before.tree.revision → Saved l before after after.tree

theorem Follows.notices {before after : Machine} (h : Follows l before after) :
    before.notices ⊆ after.notices := by
  by_cases hrevision : after.tree.revision = before.tree.revision
  · exact (h.same hrevision).2
  · exact (h.saved hrevision).notices

/-- Settling a line keeps what would be left, but for a notice of a fault. -/
theorem Stores.settled (h : c.Stores l) (m : Machine) (line : Text) :
    (c.settled m line).1.Stores l ∧
      ((c.settled m line).1.leave (c.settled m line).2).disk = (c.leave m).disk ∧
      (c.leave m).notices ⊆ ((c.settled m line).1.leave (c.settled m line).2).notices := by
  obtain ⟨k, hk, htarget, hprompt⟩ := h.keeper
  have hkeeper : (c.settled m line).1.keeper = some k := hk
  rw [leave_eq hk, leave_eq hkeeper]
  refine ⟨⟨⟨k, hk, htarget, hprompt⟩, h.capture⟩, rfl, ?_⟩
  have hgiven : m.notices ⊆ (c.settled m line).2.notices := List.subset_append_left _ _
  exact List.append_subset.mpr
    ⟨List.Subset.trans hgiven (List.subset_append_left _ _), List.subset_append_right _ _⟩

/-- **One line.** After a line the console stores the tree as before, and the machine that would be
left has followed. -/
theorem Stores.submit (h : c.Stores l) (m : Machine) (line : Text) :
    (c.submit m line).2.1.Stores l ∧
      Follows l (c.leave m) ((c.submit m line).2.1.leave (c.submit m line).2.2) := by
  obtain ⟨hstores, hdisk, hnotices⟩ := h.settled m line
  rcases c.submit_cases m line with ⟨hrevision, hsubmit⟩ | ⟨hrevision, hsubmit⟩
  · rw [hsubmit]
    refine ⟨hstores, fun _ => ⟨hdisk, hnotices⟩, fun hother => absurd ?_ hother⟩
    rw [tree_leave, tree_leave]
    exact hrevision
  · obtain ⟨hafter, hsaved⟩ := hstores.persist (c.settled m line).2
    rw [hsubmit]
    refine ⟨hafter, fun hsame => absurd ?_ hrevision, fun _ => ?_⟩
    · rw [tree_leave, tree_leave, tree_persist] at hsame
      exact hsame
    · rw [tree_leave, tree_persist]
      exact ⟨hdisk ▸ hsaved.disk, List.Subset.trans hnotices hsaved.notices, hdisk ▸ hsaved.told⟩

/-- A line leaves the workspace that its command left. -/
theorem workspace_submit (c : Console) (m : Machine) (line : Text) :
    (c.submit m line).2.1.workspace (c.submit m line).2.2.tree =
      (c.registry.execute line (c.workspace m.tree)).workspace := by
  rw [tree_submit, console_submit]
  rfl

end Console

end DosConsole
