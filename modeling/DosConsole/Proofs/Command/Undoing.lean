import DosConsole.Proofs.Command.Editing
import DosConsole.Tree.Record

/-!
# Taking back what was made

A removal looks for its target once more and takes the first entry of the name away. Right after
`mkdir` or `touch` made that entry, nothing else has the name, and the entry stands last. So the
removal leaves what was there before, with two changes counted, however deep the directory is and
whatever else clashes in the tree (`Editor.remove_run`).
-/

namespace DosConsole.Builtin

section AnyFolding

variable [Folding] {w : Workspace} {target : Text} {args later : List Text}

namespace Editor

omit [Folding] in
/-- A command that makes something has an entry to make. -/
theorem exists_makes_operation {ed : Editor} (hed : ed ≠ .remove) (strict : Bool)
    (args : List Text) (name : Text) : ∃ n, (ed.operation strict args name).makes? = some n := by
  cases ed with
  | makeDirectory => exact ⟨_, rfl⟩
  | makeFile => exact ⟨_, rfl⟩
  | remove => exact absurd rfl hed

/-- **A removal right after** a command that made something succeeds and takes it back. -/
theorem remove_run {ed : Editor} (hed : ed ≠ .remove) (hargs : ed.target? args = some target)
    (hlater : remove.target? later = some target) {menu : Menu}
    {made : Workspace × Except Text Reply} (hmade : ed.run menu args w = made)
    (hgrown : made.1.tree.revision ≠ w.tree.revision) :
    Builtin.remove menu later made.1 =
      ({ w with tree := ⟨w.tree.entries, w.tree.revision + 2⟩ }, .ok (.outcome (.ok []))) := by
  subst hmade
  rcases List.eq_nil_or_concat' (Path.target target w.cwd) with hroot | ⟨dir, name, htarget⟩
  · rw [run_root ed hargs hroot] at hgrown
    exact absurd rfl hgrown
  · obtain ⟨n, hn⟩ := exists_makes_operation hed w.strictRemoval args name
    have hname := ed.name_operation w.strictRemoval args name
    rw [run_eq ed hargs htarget] at hgrown ⊢
    generalize ed.operation w.strictRemoval args name = e at hn hname hgrown ⊢
    have hchanged : w.tree.verdict dir e = .changed := by
      by_contra hne
      exact hgrown (by rw [Tree.edited_of_ne hne])
    -- the directory of the target is where it was, and so is the current one
    obtain ⟨hremoved, hentries, hrevision⟩ :=
      Tree.edited_remove hchanged hn (!w.strictRemoval || later.any isRecursiveFlag)
    rw [hname] at hremoved hentries hrevision
    have hrun := run_eq (w := { w with tree := w.tree.edited dir e }) .remove hlater htarget menu
    rw [operation, hremoved] at hrun
    rw [← hentries, ← hrevision]
    exact hrun

end Editor

/-- `mkdir` leaves no directory as it is, so that its success is a change. -/
theorem revision_makeDirectory_of_succeeds {menu : Menu} {rest : List Text}
    {made : Workspace × Except Text Reply} (hmade : makeDirectory menu (target :: rest) w = made)
    (hsucceeds : Succeeds made) : w.tree.revision < made.1.tree.revision := by
  have hargs : Editor.makeDirectory.target? (target :: rest) = some target := rfl
  have hrun : Editor.makeDirectory.run menu (target :: rest) w = made := hmade
  rcases List.eq_nil_or_concat' (Path.target target w.cwd) with hroot | ⟨dir, name, htarget⟩
  · rw [Editor.run_root _ hargs hroot] at hrun
    exact absurd (Editor.succeeds_reply_iff.mp (hrun ▸ hsucceeds)) (by simp)
  · rw [Editor.run_eq _ hargs htarget] at hrun
    rcases Editor.succeeds_reply_iff.mp (hrun ▸ hsucceeds) with hkept | hchanged
    · exact absurd hkept Tree.verdict_makeDirectory_ne_kept
    · rw [← hrun, Tree.revision_edited hchanged]
      exact Nat.lt_succ_self _

/-- **A removal undoes** what was made just before it. Whatever the names in the tree are, a
directory or file that `mkdir` or `touch` makes is removed by `rm` with the same target, also under
strict removal and without a flag. All is then as it was before the two commands, in the same order,
except that the tree has counted two changes. -/
theorem remove_undoes_making (menu : Menu) (w : Workspace) (target : Text) (rest later : List Text)
    (hlater : later.find? (!isRecursiveFlag ·) = some target)
    (made removed : Workspace × Except Text Reply)
    (hmade : made = makeDirectory menu (target :: rest) w ∧ Succeeds made ∨
      made = makeFile menu (target :: rest) w ∧ Succeeds made ∧
        w.tree.revision < made.1.tree.revision)
    (hremoved : removed = remove menu later made.1) :
    Succeeds removed ∧ removed.1.tree.snapshot = w.tree.snapshot ∧
      removed.1.tree.revision = w.tree.revision + 2 ∧
      removed.1 = { w with tree := removed.1.tree } := by
  have htaken : removed =
      ({ w with tree := ⟨w.tree.entries, w.tree.revision + 2⟩ }, .ok (.outcome (.ok []))) := by
    rw [hremoved]
    rcases hmade with ⟨hmade, hsucceeds⟩ | ⟨hmade, -, hgrown⟩
    · have hargs : Editor.makeDirectory.target? (target :: rest) = some target := rfl
      have hgrown := revision_makeDirectory_of_succeeds hmade.symm hsucceeds
      exact Editor.remove_run (by simp) hargs hlater hmade.symm hgrown.ne'
    · have hargs : Editor.makeFile.target? (target :: rest) = some target := rfl
      exact Editor.remove_run (by simp) hargs hlater hmade.symm hgrown.ne'
  rw [htaken]
  exact ⟨succeeds_ok _ _, rfl, rfl, rfl⟩

end AnyFolding

/-- Two directories are called `A` and `a`, removal is strict, and the current directory is gone.
`mkdir ..//./Sub/` makes a directory in the first one, and `rm ..//./Sub/` undoes that. -/
theorem remove_undoes_making_where_names_clash :
    let target : Text := "..//./Sub/"
    let w : Workspace := ⟨⟨[.dir "A" [.file "X" "x"], .dir "a" [.file "sub" []]], 7⟩, "/a/gone",
      .null, true⟩
    let made := makeDirectory [] [target] w
    let removed := remove [] [target] made.1
    [target].find? (!isRecursiveFlag ·) = some target ∧ Succeeds made ∧
      made.1.tree.entries = [.dir "A" [.file "X" "x", .dir "Sub" []], .dir "a" [.file "sub" []]] ∧
      Succeeds removed ∧ removed.1.tree.snapshot = w.tree.snapshot := by
  intro target w made removed
  have hlater : [target].find? (!isRecursiveFlag ·) = some target := by decide
  have hargs : Editor.makeDirectory.target? [target] = some target := rfl
  let dir : List Text := ["a"]
  let name : Text := "Sub"
  have htarget : Path.target target w.cwd = dir ++ [name] := by decide
  have hchanged : w.tree.verdict dir (.makeDirectory name) = .changed := by decide
  have hmade : made =
      ({ w with tree := w.tree.edited dir (.makeDirectory name) }, .ok (.outcome (.ok []))) := by
    have hrun := Editor.run_eq (w := w) .makeDirectory hargs htarget []
    rw [Editor.operation, hchanged] at hrun
    exact hrun
  have hsucceeds : Succeeds made := ⟨.ok [], by rw [hmade], rfl⟩
  obtain ⟨hremoved, hsnapshot, -⟩ :=
    remove_undoes_making [] w target [] [target] hlater made removed (.inl ⟨rfl, hsucceeds⟩) rfl
  refine ⟨hlater, hsucceeds, ?_, hremoved, hsnapshot⟩
  rw [hmade, Tree.edited, if_pos hchanged]
  rfl

end DosConsole.Builtin
