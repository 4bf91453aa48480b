import DosConsole.Proofs.Command.Change

/-!
# What a directory refuses

A directory refuses an operation for few causes: a new entry because of an old one of its name, and
the removal of an entry because there is none, or because the entry has children and may not be
removed with them (`Edit.apply_eq_error_iff`). A command that edits the tree has found the directory
before it asks for the operation, so that no other cause is left, and it has an answer to each of
these. In the same way a command lists only what it has seen to be a directory, and reads only what
it has seen to be a file.

So the built-in commands never fault, on whatever tree and from whatever current directory they are
run; also where names clash, and where the current directory is a file or is gone
(`builtin_commands_never_fault`).
-/

namespace DosConsole

section AnyFolding

variable [Folding]

/-! ### The causes -/

namespace Edit

/-- Why a directory with the given entries **refuses** an operation. -/
inductive Refuses (children : List Node) : Edit → TreeError → Prop
  | directoryTaken {name : Text} {n : Node} (taken : Node.child? children name = some n) :
      Refuses children (.makeDirectory name) (.alreadyExists name)
  /-- A file is made again as it is, but not in the place of a directory. -/
  | fileTaken {name dirName : Text} {entries : List Node}
      (taken : Node.child? children name = some (.dir dirName entries)) :
      Refuses children (.makeFile name) (.alreadyExists name)
  | missing {name : Text} {recursive : Bool} (free : Node.child? children name = none) :
      Refuses children (.remove name recursive) (.notFound name)
  | filled {name : Text} {n : Node} {recursive : Bool} (unforced : recursive = false)
      (found : Node.child? children name = some n) (filled : n.children ≠ []) :
      Refuses children (.remove name recursive) (.notEmpty n.name)

variable {children : List Node} {e : Edit} {cause : TreeError}

/-- An operation that fails was refused for one of these causes. -/
theorem refuses_of_apply (h : e.apply children = .error cause) : e.Refuses children cause := by
  cases e with
  | makeDirectory name =>
    rw [apply, Node.hasChild_eq_isSome] at h
    split at h
    · rename_i htaken
      obtain ⟨n, hn⟩ := Option.isSome_iff_exists.mp htaken
      obtain rfl := Except.error.inj h
      exact .directoryTaken hn
    · exact absurd h (by simp)
  | makeFile name =>
    rw [apply] at h
    split at h
    · exact absurd h (by simp)
    · rename_i htaken
      obtain rfl := Except.error.inj h
      exact .fileTaken htaken
    · exact absurd h (by simp)
  | remove name recursive =>
    rw [apply] at h
    split at h
    · rename_i hfree
      obtain rfl := Except.error.inj h
      exact .missing hfree
    · rename_i n hfound
      split at h
      · rename_i hkeep
        obtain ⟨hrecursive, hfilled⟩ : recursive = false ∧ n.children ≠ [] := by
          simpa using hkeep
        obtain rfl := Except.error.inj h
        exact .filled hrecursive hfound hfilled
      · exact absurd h (by simp)

/-- **Refusals.** An operation on the entries of a directory fails just when the directory refuses
it. -/
theorem apply_eq_error_iff : e.apply children = .error cause ↔ e.Refuses children cause := by
  refine ⟨refuses_of_apply, fun h => ?_⟩
  cases h with
  | directoryTaken taken => rw [apply, Node.hasChild_eq_isSome, taken, if_pos Option.isSome_some]
  | fileTaken taken => rw [apply, taken]
  | missing free => rw [apply, free]
  | filled unforced found filled =>
    rw [apply, found]
    exact if_pos (by simpa [unforced] using filled)

end Edit

/-- At a path that leads to a directory an operation is refused by this directory only. -/
theorem Tree.refuses_of_editAt {t : Tree} {path dirName : Text} {children : List Node} {e : Edit}
    {cause : TreeError} (hdir : t.resolve? path = some (.dir dirName children))
    (h : t.editAt path e = .error cause) : e.Refuses children cause := by
  rw [editAt, get, hdir] at h
  simp only [edit] at h
  split at h
  · rename_i hrefused
    obtain rfl := Except.error.inj h
    exact Edit.apply_eq_error_iff.mp hrefused
  · exact absurd h (by simp)
  · exact absurd h (by simp)

/-! ### The built-in commands -/

namespace Builtin

/-- The command **replies** with an outcome: it does not fault. -/
def Replies (r : Workspace × Except Text Reply) : Prop :=
  ∃ o, r.2 = .ok (.outcome o)

/-- Where a command finds the directory of its target, there is one. -/
theorem exists_dir_of_holder {w : Workspace} {target parent name : Text}
    (h : holder w target = (some parent, some name)) :
    ∃ dirName children, w.tree.resolve? parent = some (.dir dirName children) := by
  rw [holder_eq, holderAt] at h
  split at h
  · rename_i dirName children hdir
    obtain ⟨rfl, -⟩ : Path.text (Path.target target w.cwd).dropLast = parent ∧ _ := by
      simpa using h
    exact ⟨dirName, children, hdir⟩
  · exact absurd h (by simp)

theorem replies_makeDirectory (menu : Menu) (args : List Text) (w : Workspace) :
    Replies (makeDirectory menu args w) := by
  cases args with
  | nil => exact ⟨_, rfl⟩
  | cons target rest =>
    simp only [makeDirectory]
    split
    · exact ⟨_, rfl⟩
    · exact ⟨_, rfl⟩
    · rename_i hholder
      obtain ⟨dirName, children, hdir⟩ := exists_dir_of_holder hholder
      split
      · exact ⟨_, rfl⟩
      · exact ⟨_, rfl⟩
      · rename_i hother hrefused
        cases Tree.refuses_of_editAt hdir hrefused with
        | directoryTaken => exact absurd rfl (hother _)

theorem replies_makeFile (menu : Menu) (args : List Text) (w : Workspace) :
    Replies (makeFile menu args w) := by
  cases args with
  | nil => exact ⟨_, rfl⟩
  | cons target rest =>
    simp only [makeFile]
    split
    · exact ⟨_, rfl⟩
    · exact ⟨_, rfl⟩
    · rename_i hholder
      obtain ⟨dirName, children, hdir⟩ := exists_dir_of_holder hholder
      split
      · exact ⟨_, rfl⟩
      · exact ⟨_, rfl⟩
      · rename_i hother hrefused
        cases Tree.refuses_of_editAt hdir hrefused with
        | fileTaken => exact absurd rfl (hother _)

theorem replies_remove (menu : Menu) (args : List Text) (w : Workspace) :
    Replies (remove menu args w) := by
  simp only [remove]
  split
  · exact ⟨_, rfl⟩
  · split
    · rename_i hholder
      obtain ⟨dirName, children, hdir⟩ := exists_dir_of_holder hholder
      split
      · exact ⟨_, rfl⟩
      · exact ⟨_, rfl⟩
      · exact ⟨_, rfl⟩
      · rename_i hmissing hfilled hrefused
        cases Tree.refuses_of_editAt hdir hrefused with
        | missing => exact absurd rfl (hmissing _)
        | filled => exact absurd rfl (hfilled _)
    · exact ⟨_, rfl⟩

theorem replies_changeDirectory (menu : Menu) (args : List Text) (w : Workspace) :
    Replies (changeDirectory menu args w) := by
  simp only [changeDirectory]
  split
  · exact ⟨_, rfl⟩
  · split
    · exact ⟨_, rfl⟩
    · exact ⟨_, rfl⟩

/-- Only a directory is listed. -/
theorem replies_listDirectory (menu : Menu) (args : List Text) (w : Workspace) :
    Replies (listDirectory menu args w) := by
  simp only [listDirectory]
  split
  · exact ⟨_, rfl⟩
  · rename_i n hfound
    cases n with
    | file name content => exact ⟨_, rfl⟩
    | dir name children =>
      have hdir : (Node.dir name children).isDir = true := rfl
      rw [if_pos hdir, Node.list]
      split
      · rename_i hfails
        exact absurd hfails (by simp)
      · exact ⟨_, rfl⟩
      · exact ⟨_, rfl⟩

/-- Only a file is read. -/
theorem replies_showFile (menu : Menu) (args : List Text) (w : Workspace) :
    Replies (showFile menu args w) := by
  cases args with
  | nil => exact ⟨_, rfl⟩
  | cons target rest =>
    simp only [showFile]
    split
    · exact ⟨_, rfl⟩
    · rename_i n hfound
      cases n with
      | file name content => exact ⟨_, rfl⟩
      | dir name children => exact ⟨_, rfl⟩

/-- Every built-in command replies, whatever it is asked for and wherever. -/
theorem replies_of_mem_commands {c : Command} (h : c ∈ commands) (menu : Menu) (args : List Text)
    (w : Workspace) : Replies (c.run menu args w) := by
  have report (f : Menu → List Text → Workspace → Outcome) :
      Replies (Handler.report f menu args w) := ⟨_, rfl⟩
  simp only [commands, List.mem_cons, List.not_mem_nil, or_false] at h
  rcases h with rfl | rfl | rfl | rfl | rfl | rfl | rfl | rfl | rfl | rfl | rfl | rfl | rfl | rfl
  · exact report _
  · exact report _
  · exact report _
  · exact replies_changeDirectory menu args w
  · exact replies_listDirectory menu args w
  · exact replies_listDirectory menu args w
  · exact report _
  · exact replies_showFile menu args w
  · exact replies_showFile menu args w
  · exact report _
  · exact replies_makeDirectory menu args w
  · exact replies_makeFile menu args w
  · exact replies_remove menu args w
  · exact ⟨_, rfl⟩

end Builtin

/-! ### Lines -/

namespace Registry

/-- **No faults.** Let a command of whatever registry run as one of the built-in commands does. A
line that calls it is answered, after its echo, by the outcome that the command replies with: the
command does not fault, whatever the tree, the current directory, the arguments and the other
settings are. -/
theorem builtin_commands_never_fault {r : Registry} {c d : Command} (hc : c ∈ r.commands)
    (hd : d ∈ Builtin.commands) (hrun : c.run = d.run) {line : Text}
    (hcalls : Line.Calls line c.name) (w : Workspace) :
    ∃ after o, c.run r.menu (Line.parse line).args w = (after, .ok (.outcome o)) ∧
      r.execute line w = ⟨o.echoed (w.prompt ++ line), after, none⟩ := by
  obtain ⟨o, hreply⟩ := Builtin.replies_of_mem_commands hd r.menu (Line.parse line).args w
  have hresult : c.run r.menu (Line.parse line).args w =
      ((d.run r.menu (Line.parse line).args w).1, .ok (.outcome o)) := by
    rw [hrun, ← hreply]
  exact ⟨_, o, hresult, execute_of_mem hc hcalls hresult rfl⟩

end Registry

end AnyFolding

/-- Where names clash, and the current directory leads over a file to nothing, a line removes the
first entry of its name, but not a directory with children. -/
theorem Registry.builtin_commands_never_fault_where_names_clash :
    let w : Workspace :=
      ⟨⟨[.dir "a" [.file "x" []], .file "A" []], 0⟩, "/A/../a/x/gone", .null, true⟩
    let line : Text := " RM ../../../A"
    Line.Calls line "rm" ∧ ∃ (after : Workspace) (o : Outcome),
      builtin.execute line w = ⟨o.echoed (w.prompt ++ line), after, none⟩ ∧
        o.error = some ("Directory is not empty: a (use rm -r)" : Text) := by
  intro w line
  have hcalls : Line.Calls line "rm" := ⟨by decide, by decide⟩
  have hd : ⟨"rm", "Remove file/directory", Builtin.remove⟩ ∈ Builtin.commands := by
    simp [Builtin.commands]
  obtain ⟨c, hc, hname, hrun⟩ : ∃ c ∈ builtin.commands, c.name = "rm" ∧ c.run = Builtin.remove :=
    exists_mem_builtin hd
  have hcalled : Line.Calls line c.name := hname ▸ hcalls
  obtain ⟨after, o, hresult, hline⟩ := builtin_commands_never_fault hc hd hrun hcalled w
  have hrefused : (Builtin.remove builtin.menu (Line.parse line).args w).2 =
      .ok (.outcome (.fail "Directory is not empty: a (use rm -r)" 1)) := by
    with_unfolding_all rfl
  rw [hrun] at hresult
  rw [hresult] at hrefused
  obtain rfl : o = _ := by simpa using hrefused
  exact ⟨hcalls, after, _, hline, rfl⟩

end DosConsole
