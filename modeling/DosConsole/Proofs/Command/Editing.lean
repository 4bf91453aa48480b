import DosConsole.Builtin
import DosConsole.Proofs.Path.Normal
import DosConsole.Proofs.Tree.Act
import DosConsole.Proofs.Tree.Verdict

/-!
# Commands that edit the tree

`mkdir`, `touch` and `rm` have one shape. An argument names the target, one operation is carried out
under its last segment in the directory that the segments before it lead to, and the tree's verdict
on the operation decides what is replied. An `Editor` is one of the three commands, and to run it is
just that (`Editor.run_eq`, `Editor.run_root`).

`Carries` says what matters of this when the reply does not: when the tree takes the operation, the
command succeeds with that change and no other, and when it does not, the command fails and leaves
the workspace alone (`Editor.carries`).
-/

namespace DosConsole.Builtin

/-- The command replied with success. -/
def Succeeds (r : Workspace × Except Text Reply) : Prop :=
  ∃ o, r.2 = .ok (.outcome o) ∧ o.success = true

theorem succeeds_ok (w : Workspace) (lines : List Text) :
    Succeeds (w, .ok (.outcome (.ok lines))) :=
  ⟨.ok lines, rfl, rfl⟩

theorem not_succeeds_fail (w : Workspace) (error : Text) (exitCode : Int) :
    ¬ Succeeds (w, .ok (.outcome (.fail error exitCode))) := by
  rintro ⟨o, heq, hsuccess⟩
  obtain rfl : Outcome.fail error exitCode = o := by simpa using heq
  exact absurd hsuccess (by simp [Outcome.fail])

theorem not_succeeds_fault (w : Workspace) (message : Text) : ¬ Succeeds (w, .error message) := by
  rintro ⟨o, heq, -⟩
  exact absurd heq (by simp)

/-! ### The commands as one -/

/-- A command that edits the tree. -/
inductive Editor where
  | makeDirectory
  | makeFile
  | remove
  deriving DecidableEq

namespace Editor

/-- The argument that names the target: the first one, but a removal passes over its flags. -/
def target? : Editor → List Text → Option Text
  | .makeDirectory, args | .makeFile, args => args.head?
  | .remove, args => args.find? (!isRecursiveFlag ·)

/-- The operation on the entry of a name, under strict removal or not and with all arguments. -/
def operation (strict : Bool) (args : List Text) (name : Text) : Editor → Edit
  | .makeDirectory => .makeDirectory name
  | .makeFile => .makeFile name
  | .remove => .remove name (!strict || args.any isRecursiveFlag)

/-- The failure that a command replies with. -/
private def failure (message : Text) : Except Text Reply :=
  .ok (.outcome (.fail message 1))

/-- The reply to a verdict. A cause that the command does not expect is a fault. -/
def reply : Editor → Verdict → Except Text Reply
  | .makeDirectory, .nameless | .makeFile, .nameless => failure "Already exists"
  | .makeDirectory, .astray | .makeFile, .astray => failure "Parent not found"
  | .makeDirectory, .refused (.alreadyExists _) | .makeFile, .refused (.alreadyExists _) =>
    failure "Already exists"
  | .remove, .nameless | .remove, .astray | .remove, .refused (.notFound _) => failure "Not found"
  | .remove, .refused (.notEmpty name) =>
    failure ("Directory is not empty: " ++ name ++ " (use rm -r)")
  | _, .refused cause => .error cause.message
  | .makeFile, .kept => .ok (.outcome (.ok ["File exists"]))
  | _, .kept | _, .changed => .ok (.outcome (.ok []))

theorem name_operation (ed : Editor) (strict : Bool) (args : List Text) (name : Text) :
    (ed.operation strict args name).name = name := by
  cases ed <;> rfl

variable [Folding]

/-- The command itself. -/
def run : Editor → Handler
  | .makeDirectory => Builtin.makeDirectory
  | .makeFile => Builtin.makeFile
  | .remove => Builtin.remove

end Editor

variable [Folding] {w : Workspace} {target name : Text} {dir : List Text}

/-! ### The directory of a target -/

/-- The path of the directory that segments lead to without the last one, if there is such a
directory, and the last segment. -/
def holderAt (t : Tree) (segs : List Text) : Option Text × Option Text :=
  match t.resolve? (Path.text segs.dropLast) with
  | some (.dir _ _) => (some (Path.text segs.dropLast), segs.getLast?)
  | _ => (none, segs.getLast?)

/-- The directory of a target and its last segment, in terms of the segments that it leads to. -/
theorem holder_eq (w : Workspace) (target : Text) :
    holder w target = holderAt w.tree (Path.target target w.cwd) := by
  rw [← Path.segments_normalize]
  rfl

/-- The root has no last segment. -/
theorem holder_of_root (h : Path.target target w.cwd = []) : (holder w target).2 = none := by
  rw [holder_eq, h, holderAt]
  split <;> rfl

/-- Where the tree takes an operation there is a directory. -/
theorem holder_of_editAt {e : Edit} {entry : Node} {after : Tree}
    (h : Path.target target w.cwd = dir ++ [name])
    (hedit : w.tree.editAt (Path.text dir) e = .ok (entry, after)) :
    holder w target = (some (Path.text dir), some name) := by
  obtain ⟨dirName, children, -, hdir, -⟩ := Tree.editAt_eq_ok_iff.mp hedit
  rw [holder_eq, h, holderAt, List.dropLast_concat, List.getLast?_concat, hdir]

/-- Around a target with a name there is a directory, and it is found; or nothing can be done or
found at the target. -/
theorem holder_cases (h : Path.target target w.cwd = dir ++ [name]) :
    (∃ a children, w.tree.root.walk? dir = some (.dir a children) ∧
      holder w target = (some (Path.text dir), some name)) ∨
    holder w target = (none, some name) ∧ w.tree.root.walk? (dir ++ [name]) = none ∧
      ∀ e, w.tree.verdict dir e = .astray := by
  rw [holder_eq, h, holderAt, List.dropLast_concat, List.getLast?_concat, Tree.resolve?,
    Path.segments_text_of_target h, Node.walk?_append]
  simp only [Tree.verdict]
  rcases w.tree.root.walk? dir with _ | (⟨a, content⟩ | ⟨a, children⟩)
  · exact .inr ⟨rfl, rfl, fun _ => rfl⟩
  · exact .inr ⟨rfl, rfl, fun _ => rfl⟩
  · exact .inl ⟨a, children, rfl, rfl⟩

/-- What a command learns that has one operation carried out at its target: it looks for the
directory and, if there is one, asks the tree. -/
inductive Settles (w : Workspace) (target name : Text) (dir : List Text) (e : Edit) :
    Verdict → Tree → Prop
  | astray (found : holder w target = (none, some name)) :
      Settles w target name dir e .astray w.tree
  | refused {cause : TreeError} (found : holder w target = (some (Path.text dir), some name))
      (answer : w.tree.editAt (Path.text dir) e = .error cause) :
      Settles w target name dir e (.refused cause) w.tree
  | kept {n : Node} (found : holder w target = (some (Path.text dir), some name))
      (answer : w.tree.editAt (Path.text dir) e = .ok (n, w.tree)) :
      Settles w target name dir e .kept w.tree
  | changed {n : Node} {after : Tree} (found : holder w target = (some (Path.text dir), some name))
      (answer : w.tree.editAt (Path.text dir) e = .ok (n, after))
      (counted : after.revision = w.tree.revision + 1) : Settles w target name dir e .changed after

/-- **One operation at a target** comes to its verdict. -/
theorem settles (h : Path.target target w.cwd = dir ++ [name]) (e : Edit) :
    Settles w target name dir e (w.tree.verdict dir e) (w.tree.edited dir e) := by
  have stays {v : Verdict} (hv : w.tree.verdict dir e = v) (hne : v ≠ .changed) :
      w.tree.edited dir e = w.tree := Tree.edited_of_ne (hv ▸ hne)
  rcases holder_cases h with ⟨a, children, hwalk, hholder⟩ | ⟨hholder, -, hastray⟩
  · have hedit : w.tree.editAt (Path.text dir) e = w.tree.edit dir (.dir a children) e := by
      rw [Tree.editAt, Tree.get, Tree.resolve?, Path.segments_text_of_target h, hwalk]
    have hverdict := Tree.verdict_of_walk? (e := e) hwalk
    rcases e.apply_of_verdict children with
      ⟨cause, hrefused, happly⟩ | ⟨hkept, n, happly⟩ | ⟨hchanged, n, happly⟩
    · have hcause := hverdict.trans hrefused
      rw [stays hcause (by simp), hcause]
      exact .refused hholder (by simp only [hedit, Tree.edit, happly])
    · have hkeeps := hverdict.trans hkept
      rw [stays hkeeps (by simp), hkeeps]
      exact .kept (n := n) hholder (by simp only [hedit, Tree.edit, happly])
    · have hchanges := hverdict.trans hchanged
      have hcounted := Tree.revision_edited hchanges
      rw [← Tree.refill_eq_edited hchanges hwalk] at hcounted ⊢
      rw [hchanges]
      exact .changed (n := n) hholder (by simp only [hedit, Tree.edit, happly]) hcounted
  · rw [stays (hastray e) (by simp), hastray]
    exact .astray hholder

/-! ### The three commands -/

section Commands

variable {v : Verdict} {after : Tree}

theorem makeDirectory_of_settles (h : Settles w target name dir (.makeDirectory name) v after)
    (menu : Menu) (rest : List Text) :
    makeDirectory menu (target :: rest) w =
      ({ w with tree := after }, Editor.makeDirectory.reply v) := by
  simp only [makeDirectory, Tree.makeDirectory]
  cases h with
  | astray found => rw [found]; rfl
  | @refused cause found answer => simp only [found, answer]; cases cause <;> rfl
  | kept found answer => simp only [found, answer]; rfl
  | changed found answer => simp only [found, answer]; rfl

theorem makeFile_of_settles (h : Settles w target name dir (.makeFile name) v after)
    (menu : Menu) (rest : List Text) :
    makeFile menu (target :: rest) w = ({ w with tree := after }, Editor.makeFile.reply v) := by
  simp only [makeFile, Tree.makeFile]
  cases h with
  | astray found => rw [found]; rfl
  | @refused cause found answer => simp only [found, answer]; cases cause <;> rfl
  | kept found answer => simp only [found, answer, if_pos]; rfl
  | changed found answer counted =>
    -- a new revision tells a file that was made from one that was there
    have hgrown : after.revision ≠ w.tree.revision := by omega
    simp only [found, answer, if_neg hgrown]
    rfl

theorem remove_of_settles {args : List Text} {rest : List Text}
    (hargs : args.filter (!isRecursiveFlag ·) = target :: rest)
    (h : Settles w target name dir (.remove name (!w.strictRemoval || args.any isRecursiveFlag))
      v after) (menu : Menu) :
    remove menu args w = ({ w with tree := after }, Editor.remove.reply v) := by
  simp only [remove, Tree.remove, hargs]
  cases h with
  | astray found => rw [found]; rfl
  | @refused cause found answer => simp only [found, answer]; cases cause <;> rfl
  | kept found answer => simp only [found, answer]; rfl
  | changed found answer => simp only [found, answer]; rfl

end Commands

namespace Editor

variable {args : List Text}

omit [Folding] in
/-- What a removal looks at of its arguments. -/
theorem filter_of_target? (hargs : remove.target? args = some target) :
    ∃ rest, args.filter (!isRecursiveFlag ·) = target :: rest := by
  have hfirst : (args.filter (!isRecursiveFlag ·)).head? = some target := by
    rw [List.head?_filter]
    exact hargs
  exact List.head?_eq_some_iff.mp hfirst

/-- **A command that edits** changes the tree as the verdict on its operation says, and nothing
else, and replies by the verdict. -/
theorem run_eq (ed : Editor) (hargs : ed.target? args = some target)
    (h : Path.target target w.cwd = dir ++ [name]) (menu : Menu) :
    ed.run menu args w =
      ({ w with tree := w.tree.edited dir (ed.operation w.strictRemoval args name) },
        ed.reply (w.tree.verdict dir (ed.operation w.strictRemoval args name))) := by
  have hsettles := settles h (ed.operation w.strictRemoval args name)
  cases ed with
  | makeDirectory =>
    obtain ⟨rest, rfl⟩ := List.head?_eq_some_iff.mp hargs
    exact makeDirectory_of_settles hsettles menu rest
  | makeFile =>
    obtain ⟨rest, rfl⟩ := List.head?_eq_some_iff.mp hargs
    exact makeFile_of_settles hsettles menu rest
  | remove =>
    obtain ⟨rest, hfilter⟩ := filter_of_target? hargs
    exact remove_of_settles hfilter hsettles menu

/-- At the root no command edits anything. -/
theorem run_root (ed : Editor) (hargs : ed.target? args = some target)
    (h : Path.target target w.cwd = []) (menu : Menu) :
    ed.run menu args w = (w, ed.reply .nameless) := by
  have hnone := holder_of_root h
  cases hholder : holder w target with
  | mk parent name =>
    rw [hholder] at hnone
    obtain rfl : name = none := hnone
    cases ed with
    | makeDirectory =>
      obtain ⟨rest, rfl⟩ := List.head?_eq_some_iff.mp hargs
      simp only [run, Builtin.makeDirectory, hholder]
      rfl
    | makeFile =>
      obtain ⟨rest, rfl⟩ := List.head?_eq_some_iff.mp hargs
      simp only [run, Builtin.makeFile, hholder]
      rfl
    | remove =>
      obtain ⟨rest, hfilter⟩ := filter_of_target? hargs
      simp only [run, Builtin.remove, hfilter, hholder]
      rfl

omit [Folding] in
/-- The reply is success just when the directory takes the operation. -/
theorem succeeds_reply_iff {ed : Editor} {v : Verdict} :
    Succeeds (w, ed.reply v) ↔ v = .kept ∨ v = .changed := by
  cases v with
  | nameless =>
    refine iff_of_false ?_ (by simp)
    cases ed <;> exact not_succeeds_fail _ _ _
  | astray =>
    refine iff_of_false ?_ (by simp)
    cases ed <;> exact not_succeeds_fail _ _ _
  | refused cause =>
    refine iff_of_false ?_ (by simp)
    cases ed with
    | makeDirectory | makeFile =>
      cases cause with
      | alreadyExists => exact not_succeeds_fail _ _ _
      | notFound | notADirectory | notAFile | notEmpty => exact not_succeeds_fault _ _
    | remove =>
      cases cause with
      | notFound | notEmpty => exact not_succeeds_fail _ _ _
      | notADirectory | notAFile | alreadyExists => exact not_succeeds_fault _ _
  | kept =>
    refine iff_of_true ?_ (.inl rfl)
    cases ed <;> exact succeeds_ok _ _
  | changed =>
    refine iff_of_true ?_ (.inr rfl)
    cases ed <;> exact succeeds_ok _ _

end Editor

/-! ### Carrying out -/

/-- A command with the result `r` **carries out** the operation `e` on a target: it does what the
tree makes of the operation in the directory of the target, under the last segment of the target. -/
structure Carries (w : Workspace) (target : Text) (e : Text → Edit)
    (r : Workspace × Except Text Reply) : Prop where
  /-- An operation that the tree takes is the whole change. -/
  done : ∀ {dir : List Text} {name : Text} {entry : Node} {after : Tree},
    Path.target target w.cwd = dir ++ [name] →
    w.tree.editAt (Path.text dir) (e name) = .ok (entry, after) →
    r.1 = { w with tree := after } ∧ Succeeds r
  /-- Without an operation that the tree takes nothing is changed. -/
  refused : (∀ (dir : List Text) (name : Text) (entry : Node) (after : Tree),
      Path.target target w.cwd = dir ++ [name] →
      w.tree.editAt (Path.text dir) (e name) ≠ .ok (entry, after)) →
    r.1 = w ∧ ¬ Succeeds r

/-- **Every command that edits** carries out its operation. -/
theorem Editor.carries (ed : Editor) {args : List Text} (hargs : ed.target? args = some target)
    (menu : Menu) :
    Carries w target (ed.operation w.strictRemoval args ·) (ed.run menu args w) where
  done {dir name entry after} h hedit := by
    have hholder := holder_of_editAt h hedit
    have hsettles := settles h (ed.operation w.strictRemoval args name)
    rw [ed.run_eq hargs h]
    generalize w.tree.verdict dir _ = v at hsettles ⊢
    generalize w.tree.edited dir _ = last at hsettles ⊢
    cases hsettles with
    | astray found => exact absurd (hholder.symm.trans found) (by simp)
    | refused found answer => exact absurd (hedit.symm.trans answer) (by simp)
    | kept found answer =>
      obtain ⟨-, rfl⟩ := Prod.mk.inj (Except.ok.inj (hedit.symm.trans answer))
      exact ⟨rfl, succeeds_reply_iff.mpr (.inl rfl)⟩
    | changed found answer =>
      obtain ⟨-, rfl⟩ := Prod.mk.inj (Except.ok.inj (hedit.symm.trans answer))
      exact ⟨rfl, succeeds_reply_iff.mpr (.inr rfl)⟩
  refused hno := by
    rcases List.eq_nil_or_concat' (Path.target target w.cwd) with hroot | ⟨dir, name, h⟩
    · rw [ed.run_root hargs hroot]
      exact ⟨rfl, mt succeeds_reply_iff.mp (by simp)⟩
    · have hnone := hno dir name
      have hsettles := settles h (ed.operation w.strictRemoval args name)
      rw [ed.run_eq hargs h]
      generalize w.tree.verdict dir _ = v at hsettles ⊢
      generalize w.tree.edited dir _ = last at hsettles ⊢
      cases hsettles with
      | astray => exact ⟨rfl, mt succeeds_reply_iff.mp (by simp)⟩
      | refused => exact ⟨rfl, mt succeeds_reply_iff.mp (by simp)⟩
      | kept found answer => exact absurd answer (hnone _ _ h)
      | changed found answer => exact absurd answer (hnone _ _ h)

theorem carries_makeDirectory (menu : Menu) (w : Workspace) (target : Text) (rest : List Text) :
    Carries w target .makeDirectory (makeDirectory menu (target :: rest) w) :=
  have hargs : Editor.makeDirectory.target? (target :: rest) = some target := rfl
  Editor.carries (w := w) .makeDirectory hargs menu

theorem carries_makeFile (menu : Menu) (w : Workspace) (target : Text) (rest : List Text) :
    Carries w target .makeFile (makeFile menu (target :: rest) w) :=
  have hargs : Editor.makeFile.target? (target :: rest) = some target := rfl
  Editor.carries (w := w) .makeFile hargs menu

/-- The target of a removal is the first argument that is no flag, and a flag anywhere allows it to
be a directory with children. -/
theorem carries_remove (menu : Menu) (w : Workspace) {target : Text} {args : List Text}
    (hargs : args.find? (!isRecursiveFlag ·) = some target) :
    Carries w target (.remove · (!w.strictRemoval || args.any isRecursiveFlag))
      (remove menu args w) :=
  Editor.carries .remove hargs menu

end DosConsole.Builtin
