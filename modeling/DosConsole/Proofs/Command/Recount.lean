import DosConsole.Proofs.Command.Change

/-!
# What a tree counts does not show

The revision of a tree tells that something changed, and nothing more. A tree on which more changes
were counted answers every command in the same way and is changed by it in the same way
(`Registry.execute_recount`), so that a console cannot tell a tree that was loaded, with no change
counted, from the one that it was saved from.
-/

namespace DosConsole

/-- The same tree, with more changes counted. -/
def Tree.recount (t : Tree) (more : Nat) : Tree :=
  ⟨t.entries, t.revision + more⟩

/-- The same workspace, with more changes of the tree counted. -/
def Workspace.recount (w : Workspace) (more : Nat) : Workspace :=
  { w with tree := w.tree.recount more }

/-- The handler **ignores the count** of a tree but for adding to it. -/
def Handler.IgnoresCount (h : Handler) : Prop :=
  ∀ menu args w more,
    h menu args (w.recount more) = ((h menu args w).1.recount more, (h menu args w).2)

/-- A handler that reports ignores the count if what it looks at does not tell. -/
theorem Handler.ignoresCount_report {f : Menu → List Text → Workspace → Outcome}
    (h : ∀ menu args (w : Workspace) more, f menu args (w.recount more) = f menu args w) :
    (Handler.report f).IgnoresCount := by
  intro menu args w more
  simp only [Handler.report, h]

theorem Builtin.ignoresCount_resetTree : resetTree.IgnoresCount := by
  intro menu args w more
  have hcount : (w.tree.recount more).reset = w.tree.reset.recount more := by
    rw [Tree.reset, Tree.recount, Tree.recount, Tree.reset, Nat.add_right_comm]
  exact congrArg (fun t => ({ w with tree := t }, _)) hcount

section AnyFolding

variable [Folding]

/-- An operation ignores the count. -/
theorem Tree.editAt_recount (t : Tree) (path : Text) (e : Edit) (more : Nat) :
    (t.recount more).editAt path e =
      (t.editAt path e).map fun r => (r.1, r.2.recount more) := by
  have hget : (t.recount more).get path = t.get path := rfl
  rw [editAt, editAt, hget]
  cases t.get path with
  | error cause => rfl
  | ok n =>
    cases n with
    | file name content => rfl
    | dir name children =>
      simp only [edit]
      cases e.apply children with
      | error cause => rfl
      | ok result =>
        obtain ⟨entry, changed⟩ := result
        cases changed with
        | none => rfl
        | some after =>
          have hcount : t.revision + more + 1 = t.revision + 1 + more := Nat.add_right_comm _ _ _
          simp only [refill, recount, Except.map, hcount]
          rfl

namespace Builtin

theorem holder_recount (w : Workspace) (target : Text) (more : Nat) :
    holder (w.recount more) target = holder w target := rfl

theorem ignoresCount_changeDirectory : changeDirectory.IgnoresCount := by
  intro menu args w more
  have hlookup : (w.recount more).tree.lookup (args.headD "/") (w.recount more).cwd =
      w.tree.lookup (args.headD "/") w.cwd := rfl
  simp only [changeDirectory, hlookup]
  split
  · rfl
  · split
    · rfl
    · rfl

theorem ignoresCount_makeDirectory : makeDirectory.IgnoresCount := by
  intro menu args w more
  cases args with
  | nil => rfl
  | cons target rest =>
    simp only [makeDirectory, holder_recount]
    split
    · rfl
    · rfl
    · rename_i parent name hholder
      have hedit : (w.recount more).tree.makeDirectory parent name =
          (w.tree.makeDirectory parent name).map fun r => (r.1, r.2.recount more) :=
        w.tree.editAt_recount parent _ more
      rw [hedit]
      cases w.tree.makeDirectory parent name with
      | ok r => rfl
      | error e => cases e <;> rfl

/-- Whether `touch` finds a file there is told by two revisions, and these move together. -/
theorem ignoresCount_makeFile : makeFile.IgnoresCount := by
  intro menu args w more
  cases args with
  | nil => rfl
  | cons target rest =>
    simp only [makeFile, holder_recount]
    split
    · rfl
    · rfl
    · rename_i parent name hholder
      have hedit : (w.recount more).tree.makeFile parent name =
          (w.tree.makeFile parent name).map fun r => (r.1, r.2.recount more) :=
        w.tree.editAt_recount parent _ more
      rw [hedit]
      cases w.tree.makeFile parent name with
      | ok r =>
        have hrevision : (r.2.recount more).revision = (w.recount more).tree.revision ↔
            r.2.revision = w.tree.revision := Nat.add_right_cancel_iff
        simp only [Except.map, hrevision]
        rfl
      | error e => cases e <;> rfl

theorem ignoresCount_remove : remove.IgnoresCount := by
  intro menu args w more
  have hstrict : (w.recount more).strictRemoval = w.strictRemoval := rfl
  simp only [remove, holder_recount, hstrict]
  split
  · rfl
  · split
    · rename_i parent name hholder
      have hedit (recursive : Bool) : (w.recount more).tree.remove parent name recursive =
          (w.tree.remove parent name recursive).map fun r => (r.1, r.2.recount more) :=
        w.tree.editAt_recount parent _ more
      rw [hedit]
      cases w.tree.remove parent name _ with
      | ok r => rfl
      | error e => cases e <;> rfl
    · rfl

theorem ignoresCount_listDirectory : listDirectory.IgnoresCount := by
  intro menu args w more
  have hlookup : (w.recount more).tree.lookup (args.headD ".") (w.recount more).cwd =
      w.tree.lookup (args.headD ".") w.cwd := rfl
  simp only [listDirectory, hlookup]
  split
  · rfl
  · split
    · split <;> rfl
    · rfl

theorem ignoresCount_showFile : showFile.IgnoresCount := by
  intro menu args w more
  cases args with
  | nil => rfl
  | cons target rest =>
    have hlookup : (w.recount more).tree.lookup target (w.recount more).cwd =
        w.tree.lookup target w.cwd := rfl
    simp only [showFile, hlookup]
    split
    · rfl
    · split
      · rfl
      · split <;> rfl

/-- **No built-in command tells.** -/
theorem ignoresCount_of_mem_commands {c : Command} (h : c ∈ commands) : c.run.IgnoresCount := by
  simp only [commands, List.mem_cons, List.not_mem_nil, or_false] at h
  rcases h with rfl | rfl | rfl | rfl | rfl | rfl | rfl | rfl | rfl | rfl | rfl | rfl | rfl | rfl
  · exact Handler.ignoresCount_report fun _ _ _ _ => rfl
  · exact Handler.ignoresCount_report fun _ _ _ _ => rfl
  · exact Handler.ignoresCount_report fun _ _ _ _ => rfl
  · exact ignoresCount_changeDirectory
  · exact ignoresCount_listDirectory
  · exact ignoresCount_listDirectory
  · exact Handler.ignoresCount_report fun _ _ _ _ => rfl
  · exact ignoresCount_showFile
  · exact ignoresCount_showFile
  · exact Handler.ignoresCount_report fun _ _ _ _ => rfl
  · exact ignoresCount_makeDirectory
  · exact ignoresCount_makeFile
  · exact ignoresCount_remove
  · exact ignoresCount_resetTree

end Builtin

/-- **One line.** A line of built-in commands comes to the same outcome on a tree on which more
changes were counted, and leaves the same workspace with as many more counted. -/
theorem Registry.execute_recount (line : Text) (w : Workspace) (more : Nat) :
    builtin.execute line (w.recount more) =
      { builtin.execute line w with
        workspace := (builtin.execute line w).workspace.recount more } := by
  have hprompt : (w.recount more).prompt = w.prompt := rfl
  rw [execute, execute]
  split
  · rfl
  · simp only [hprompt]
    split
    · rfl
    · rename_i c hlookup
      rw [lookup] at hlookup
      obtain ⟨d, hd, -, hrun⟩ := mem_builtin (List.mem_of_find?_eq_some hlookup)
      rw [hrun, Builtin.ignoresCount_of_mem_commands hd, Execution.ended, Execution.ended]
      cases (d.run builtin.menu (Line.parse line).args w).2.bind Reply.toOutcome with
      | ok outcome => rfl
      | error message => rfl

end AnyFolding

end DosConsole
