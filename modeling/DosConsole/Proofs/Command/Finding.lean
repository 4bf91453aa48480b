import DosConsole.Completion
import DosConsole.Proofs.Command.Going

/-!
# What a target names

A command that reports or goes somewhere looks a target up as a whole. A command that edits finds
the directory around the target first, and in it the name that is left over. Both ways lead to the
same node (`holder_agrees`), so that all commands tell alike whether there is something (`sees`).

The root is in no directory and has no name left over. A new entry collides with it as with any
other node, but it is not found for a removal (`remove_misses_root`).
-/

namespace DosConsole

namespace Builtin

/-- The reply is a failure with a message. -/
def FailsWith (message : Text) (reply : Except Text Reply) : Prop :=
  reply = .ok (.outcome (.fail message 1))

theorem failsWith_fail_iff {message said : Text} :
    FailsWith message (.ok (.outcome (.fail said 1))) ↔ said = message := by
  simp [FailsWith, Outcome.fail]

theorem not_failsWith_ok (message : Text) (lines : List Text) :
    ¬ FailsWith message (.ok (.outcome (.ok lines))) := by
  simp [FailsWith, Outcome.fail, Outcome.ok]

theorem eq_of_ok_eq {lines others : List Text}
    (h : (.ok (.outcome (.ok lines)) : Except Text Reply) = .ok (.outcome (.ok others))) :
    lines = others := by
  simpa [Outcome.ok] using h

/-- Messages that start differently are different. -/
theorem not_failsWith_of_head {message said : Text} {a b : Symbol} (ha : said.head? = some a)
    (hb : message.head? = some b) (hab : a ≠ b) :
    ¬ FailsWith message (.ok (.outcome (.fail said 1))) := by
  rw [failsWith_fail_iff]
  rintro rfl
  exact hab (Option.some.inj (ha.symm.trans hb))

section AnyFolding

variable [Folding]

/-- A directory, if there is one, and a name, if there is one, **hold** the node at a path: it is
the entry of that name in the directory. -/
structure Holds (t : Tree) (parent name : Option Text) (path : Text) (node : Option Node) :
    Prop where
  /-- Only the root has no name. -/
  nameless : name = none ↔ path = "/"
  root : path = "/" → node = some t.root
  /-- The node is the first entry of the name, and what is done to it there is done to it at the
  path. -/
  entry : ∀ {dir s}, parent = some dir → name = some s →
    ∃ dirName children, t.resolve? dir = some (.dir dirName children) ∧
      node = Node.child? children s ∧
      ∀ change, t.alter (Path.segments path) change =
        t.alter (Path.segments dir) (·.mapChildren (Node.alterChild s change))
  /-- Outside of a directory there is nothing. -/
  nowhere : ∀ {s}, parent = none → name = some s → node = none

/-- **The two ways to a target** find the same node. -/
theorem holder_agrees (w : Workspace) (target : Text) :
    Holds w.tree (holder w target).1 (holder w target).2 (w.tree.lookup target w.cwd).1
      (w.tree.lookup target w.cwd).2 := by
  simp only [Tree.lookup, Tree.resolve?]
  rcases List.eq_nil_or_concat' (Path.target target w.cwd) with hnil | ⟨dir, s, htarget⟩
  · rw [holder_of_root hnil, Path.segments_normalize, hnil]
    exact ⟨iff_of_true rfl (Path.normalize_eq_root_iff.mpr hnil), fun _ => rfl, by simp, by simp⟩
  · have hpath : Path.normalize target w.cwd ≠ "/" :=
      mt Path.normalize_eq_root_iff.mp (by rw [htarget]; simp)
    rw [Path.segments_normalize, htarget]
    rcases holder_cases htarget with ⟨a, children, hdir, hholder⟩ | ⟨hholder, hnone, -⟩
    · rw [hholder]
      refine ⟨iff_of_false (by simp) hpath, fun h => absurd h hpath, ?_, by simp⟩
      rintro _ _ ⟨⟩ ⟨⟩
      rw [Tree.resolve?, Path.segments_text_of_target htarget]
      refine ⟨a, children, hdir, Node.walk?_concat hdir s, fun change => ?_⟩
      rw [Tree.alter, Tree.alter, Path.segments_normalize, htarget, Node.alter_concat]
    · rw [hholder, hnone]
      exact ⟨iff_of_false (by simp) hpath, fun h => absurd h hpath, by simp, fun _ _ => rfl⟩

/-- How a command that edits comes to its reply: it goes by what is found at the target, except
at the root and outside of a directory. -/
theorem Editor.reply_cases (ed : Editor) {w : Workspace} {target : Text} {args : List Text}
    (hargs : ed.target? args = some target) (menu : Menu) {path : Text} {node : Option Node}
    (h : w.tree.lookup target w.cwd = (path, node)) :
    (path = "/" ∧ node = some w.tree.root ∧ (ed.run menu args w).2 = ed.reply .nameless) ∨
    (path ≠ "/" ∧ node = none ∧ (ed.run menu args w).2 = ed.reply .astray) ∨
    (path ≠ "/" ∧ ∃ name, (ed.run menu args w).2 =
      ed.reply ((ed.operation w.strictRemoval args name).verdict node)) := by
  obtain ⟨rfl, rfl⟩ := Prod.mk.inj h
  rw [Tree.resolve?, Path.segments_normalize]
  rcases List.eq_nil_or_concat' (Path.target target w.cwd) with hnil | ⟨dir, name, htarget⟩
  · rw [ed.run_root hargs hnil, hnil]
    exact .inl ⟨Path.normalize_eq_root_iff.mpr hnil, rfl, rfl⟩
  · have hpath : Path.normalize target w.cwd ≠ "/" :=
      mt Path.normalize_eq_root_iff.mp (by rw [htarget]; simp)
    rw [ed.run_eq hargs htarget, htarget]
    rcases holder_cases htarget with ⟨a, children, hdir, -⟩ | ⟨-, hnone, hastray⟩
    · refine .inr (.inr ⟨hpath, name, ?_⟩)
      rw [Tree.verdict_of_walk? hdir, Editor.name_operation, Node.walk?_concat hdir]
    · exact .inr (.inl ⟨hpath, hnone, by rw [hastray]⟩)

/-- What each command tells of a target that is looked up at a path. -/
structure Sees (menu : Menu) (w : Workspace) (target : Text) (path : Text) (node : Option Node) :
    Prop where
  makeDirectory : ∀ rest,
    FailsWith "Already exists" (makeDirectory menu (target :: rest) w).2 ↔ node ≠ none
  makeFile : ∀ rest, FailsWith "Already exists" (makeFile menu (target :: rest) w).2 ∨
    (makeFile menu (target :: rest) w).2 = .ok (.outcome (.ok ["File exists"])) ↔ node ≠ none
  /-- The root is not found for a removal. -/
  remove : ∀ {args : List Text}, args.find? (!isRecursiveFlag ·) = some target →
    (FailsWith "Not found" (remove menu args w).2 ↔ node = none ∨ path = "/")
  changeDirectory : ∀ rest, FailsWith ("The system cannot find the path specified: " ++ target)
    (changeDirectory menu (target :: rest) w).2 ↔ node = none
  listDirectory : ∀ rest, FailsWith ("File not found: " ++ target)
    (listDirectory menu (target :: rest) w).2 ↔ node = none
  showFile : ∀ rest, FailsWith "File not found" (showFile menu (target :: rest) w).2 ↔ node = none
  completion : Completion.entryNames w.tree path = (node.elim [] Node.children).map (·.name)

section Commands

variable {w : Workspace} {target path : Text} {node : Option Node}
  (h : w.tree.lookup target w.cwd = (path, node)) (menu : Menu) (rest : List Text)

include h

/-- A new directory collides with whatever is found. -/
theorem makeDirectory_finds :
    FailsWith "Already exists" (makeDirectory menu (target :: rest) w).2 ↔ node ≠ none := by
  have hargs : Editor.makeDirectory.target? (target :: rest) = some target := rfl
  change FailsWith _ (Editor.makeDirectory.run menu (target :: rest) w).2 ↔ _
  rcases Editor.reply_cases _ hargs menu h with
    ⟨-, rfl, hreply⟩ | ⟨-, rfl, hreply⟩ | ⟨-, name, hreply⟩ <;> rw [hreply]
  · exact iff_of_true rfl (by simp)
  · exact iff_of_false (mt failsWith_fail_iff.mp (by decide)) (by simp)
  · cases node with
    | none => exact iff_of_false (not_failsWith_ok _ _) (by simp)
    | some n => exact iff_of_true rfl (by simp)

/-- So does a new file, but of a file it is told with success. -/
theorem makeFile_finds : FailsWith "Already exists" (makeFile menu (target :: rest) w).2 ∨
    (makeFile menu (target :: rest) w).2 = .ok (.outcome (.ok ["File exists"])) ↔
      node ≠ none := by
  have hargs : Editor.makeFile.target? (target :: rest) = some target := rfl
  change FailsWith _ (Editor.makeFile.run menu (target :: rest) w).2 ∨
    (Editor.makeFile.run menu (target :: rest) w).2 = _ ↔ _
  rcases Editor.reply_cases _ hargs menu h with
    ⟨-, rfl, hreply⟩ | ⟨-, rfl, hreply⟩ | ⟨-, name, hreply⟩ <;> rw [hreply]
  · exact iff_of_true (.inl rfl) (by simp)
  · have hfails : FailsWith "Parent not found" (Editor.makeFile.reply .astray) := rfl
    refine iff_of_false (not_or.mpr ⟨mt failsWith_fail_iff.mp (by decide), fun heq => ?_⟩) (by simp)
    exact not_failsWith_ok _ _ (heq ▸ hfails)
  · rcases node with _ | (⟨a, content⟩ | ⟨a, children⟩)
    · -- a file that is made now is told without a line
      refine iff_of_false (not_or.mpr ⟨not_failsWith_ok _ _, fun heq => ?_⟩) (by simp)
      exact absurd (eq_of_ok_eq heq) (by simp)
    · exact iff_of_true (.inr rfl) (by simp)
    · exact iff_of_true (.inl rfl) (by simp)

/-- What is found can be removed or not, but it is not missed, except the root. -/
theorem remove_finds {args : List Text} (hargs : args.find? (!isRecursiveFlag ·) = some target) :
    FailsWith "Not found" (remove menu args w).2 ↔ node = none ∨ path = "/" := by
  change FailsWith _ (Editor.remove.run menu args w).2 ↔ _
  rcases Editor.reply_cases .remove hargs menu h with
    ⟨hpath, rfl, hreply⟩ | ⟨-, rfl, hreply⟩ | ⟨hpath, name, hreply⟩ <;> rw [hreply]
  · exact iff_of_true rfl (.inr hpath)
  · exact iff_of_true rfl (.inl rfl)
  · cases node with
    | none => exact iff_of_true rfl (.inl rfl)
    | some n =>
      refine iff_of_false ?_ (by simp [hpath])
      simp only [Editor.operation, Edit.verdict]
      split
      · exact not_failsWith_of_head rfl rfl (by decide)
      · exact not_failsWith_ok _ _

theorem changeDirectory_finds :
    FailsWith ("The system cannot find the path specified: " ++ target)
      (changeDirectory menu (target :: rest) w).2 ↔ node = none := by
  simp only [changeDirectory, List.headD_cons, h]
  cases node with
  | none => exact iff_of_true rfl rfl
  | some n =>
    refine iff_of_false ?_ (by simp)
    cases n with
    | file name content => exact not_failsWith_of_head rfl rfl (by decide)
    | dir name children => exact not_failsWith_ok _ _

theorem listDirectory_finds :
    FailsWith ("File not found: " ++ target) (listDirectory menu (target :: rest) w).2 ↔
      node = none := by
  simp only [listDirectory, List.headD_cons, h]
  cases node with
  | none => exact iff_of_true rfl rfl
  | some n =>
    refine iff_of_false ?_ (by simp)
    cases n with
    | file name content => exact not_failsWith_ok _ _
    | dir name children => cases children <;> exact not_failsWith_ok _ _

theorem showFile_finds :
    FailsWith "File not found" (showFile menu (target :: rest) w).2 ↔ node = none := by
  simp only [showFile, h]
  cases node with
  | none => exact iff_of_true rfl rfl
  | some n =>
    refine iff_of_false ?_ (by simp)
    cases n with
    | file name content => exact not_failsWith_ok _ _
    | dir name children => exact mt failsWith_fail_iff.mp (by decide)

theorem entryNames_of_lookup :
    Completion.entryNames w.tree path = (node.elim [] Node.children).map (·.name) := by
  obtain ⟨rfl, rfl⟩ := Prod.mk.inj h
  rw [Completion.entryNames]
  rcases w.tree.resolve? (Path.normalize target w.cwd) with _ | (_ | _) <;> rfl

/-- **Every command** goes by the node that is found for its target. -/
theorem sees : Sees menu w target path node where
  makeDirectory := makeDirectory_finds h menu
  makeFile := makeFile_finds h menu
  remove := remove_finds h menu
  changeDirectory := changeDirectory_finds h menu
  listDirectory := listDirectory_finds h menu
  showFile := showFile_finds h menu
  completion := entryNames_of_lookup h

end Commands

/-- **Commands agree on what a target names.** In every tree and from every directory, the node that
is found in the directory around a target is the node that is found for the target as a whole, and
every command tells by it whether something is there. Only the root, which is in no directory, is
not found for a removal. -/
theorem commands_agree_on_target (w : Workspace) (target : Text) :
    let found := w.tree.lookup target w.cwd
    let place := holder w target
    Holds w.tree place.1 place.2 found.1 found.2 ∧
      ∀ menu, Sees menu w target found.1 found.2 := by
  intro found place
  exact ⟨holder_agrees w target, sees rfl⟩

end AnyFolding

/-- In a new tree, the root is found by its path and `cd /` goes there, but `rm /` does not find
it, although the removal is strict and the root is not empty. -/
theorem remove_misses_root :
    let w : Workspace := ⟨Tree.seed, "/", .null, true⟩
    let found := w.tree.lookup "/" w.cwd
    found.2 ≠ none ∧ Succeeds (changeDirectory [] ["/"] w) ∧
      FailsWith "Not found" (remove [] ["/"] w).2 ∧
      ¬ (FailsWith "Not found" (remove [] ["/"] w).2 ↔ found.2 = none) := by
  intro w found
  have hpath : found.1 = "/" := by decide
  have hfound : found.2 ≠ none := by decide
  have hargs : (["/"] : List Text).find? (!isRecursiveFlag ·) = some "/" := by decide
  have hmissed : FailsWith "Not found" (remove [] ["/"] w).2 :=
    (remove_finds (h := rfl) [] hargs).mpr (.inr hpath)
  have hgone : Succeeds (changeDirectory [] ["/"] w) :=
    succeeds_changeDirectory_iff.mpr ⟨w.tree.root, by rfl, rfl⟩
  exact ⟨hfound, hgone, hmissed, fun h => hfound (h.mp hmissed)⟩

end Builtin

end DosConsole
