import DosConsole.Proofs.Command.Editing

/-!
# Commands of two sessions

Two sessions may share a tree, each with a current directory and settings of its own. When each of
them calls a command that edits, and neither target lies on the way to the other one, the order of
the two calls matters little (`Call.calls_commute`). Both get the same replies in either order, and
the tree does not tell which came first, except by the order of two entries that they made in one
directory.

Each call is one operation in one place (`Call.on_eq`), so this is what is known of two operations
on a tree.
-/

namespace DosConsole

namespace Builtin

/-- A command that edits, as a session calls it: with all that it looks at but the tree. -/
structure Call where
  editor : Editor
  menu : Menu
  args : List Text
  cwd : Text
  user : Json
  strictRemoval : Bool

namespace Call

section AnyFolding

variable [Folding]

/-- The normalized path of the target, if there is one. -/
def path? (c : Call) : Option Text :=
  (c.editor.target? c.args).map (Path.normalize · c.cwd)

/-- The tree and the reply after the call. -/
def on (c : Call) (t : Tree) : Tree × Except Text Reply :=
  let r := c.editor.run c.menu c.args ⟨t, c.cwd, c.user, c.strictRemoval⟩
  (r.1.tree, r.2)

/-- The call makes an entry at a path: nothing is there before, and something after. -/
def Creates (c : Call) (t : Tree) (path : Text) : Prop :=
  t.resolve? path = none ∧ (c.on t).1.resolve? path ≠ none

/-- A call with a target that is not the root is one operation in one place. -/
theorem on_eq {c : Call} {path : Text} (h : c.path? = some path) (hroot : Path.key path ≠ []) :
    ∃ dir e, Path.segments path = dir ++ [e.name] ∧
      ∀ t, c.on t = (t.edited dir e, c.editor.reply (t.verdict dir e)) := by
  obtain ⟨target, htarget, rfl⟩ := Option.map_eq_some_iff.mp h
  rw [Path.key, Path.segments_normalize] at hroot
  rw [ne_eq, List.map_eq_nil_iff] at hroot
  obtain ⟨dir, name, hsegs⟩ :=
    (List.eq_nil_or_concat' (Path.target target c.cwd)).resolve_left hroot
  refine ⟨dir, c.editor.operation c.strictRemoval c.args name, ?_, fun t => ?_⟩
  · rw [Path.segments_normalize, hsegs, Editor.name_operation]
  · have hrun := c.editor.run_eq (w := ⟨t, c.cwd, c.user, c.strictRemoval⟩) htarget hsegs c.menu
    rw [on, hrun]

/-- A call makes an entry just when its operation does. -/
theorem creates_iff {c : Call} {path : Text} {dir : List Text} {e : Edit}
    (hpath : Path.segments path = dir ++ [e.name])
    (hon : ∀ t, c.on t = (t.edited dir e, c.editor.reply (t.verdict dir e))) (t : Tree) :
    c.Creates t path ↔ t.verdict dir e = .changed ∧ ∃ n, e.makes? = some n := by
  rw [Creates, hon, Tree.resolve?, Tree.resolve?, hpath]
  constructor
  · rintro ⟨hbefore, hafter⟩
    exact Tree.exists_makes_of_walk? hbefore hafter
  · rintro ⟨hchanged, n, hn⟩
    obtain ⟨hbefore, hafter⟩ := Tree.walk?_of_makes hchanged hn
    exact ⟨hbefore, by rw [hafter]; simp⟩

/-- **Calls commute** when neither target lies on the way to the other one. Each gets the same reply
before and after the other one, and the tree is the same in the end. Only where both make an entry
in one directory, the two entries come last there in the order in which they were made. -/
theorem calls_commute {c d : Call} {p q : Text} (hp : c.path? = some p) (hq : d.path? = some q)
    (hpq : ¬ Path.key p <+: Path.key q) (hqp : ¬ Path.key q <+: Path.key p) (t : Tree) :
    (d.on (c.on t).1).2 = (d.on t).2 ∧ (c.on (d.on t).1).2 = (c.on t).2 ∧
    (d.on (c.on t).1).1.revision = (c.on (d.on t).1).1.revision ∧
    (¬ ((Path.key p).dropLast = (Path.key q).dropLast ∧ c.Creates t p ∧ d.Creates t q) →
      (d.on (c.on t).1).1 = (c.on (d.on t).1).1) ∧
    ((Path.key p).dropLast = (Path.key q).dropLast → c.Creates t p → d.Creates t q →
      ∃ x y, (c.on t).1.resolve? p = some x ∧ (d.on t).1.resolve? q = some y ∧
        (d.on (c.on t).1).1.entries =
          t.alter (Path.segments p).dropLast (·.mapChildren (· ++ [x, y])) ∧
        (c.on (d.on t).1).1.entries =
          t.alter (Path.segments p).dropLast (·.mapChildren (· ++ [y, x]))) := by
  have hpne : Path.key p ≠ [] := fun h => hpq (h ▸ List.nil_prefix)
  have hqne : Path.key q ≠ [] := fun h => hqp (h ▸ List.nil_prefix)
  obtain ⟨dir, e, hsegs, hc⟩ := on_eq hp hpne
  obtain ⟨place, f, hothers, hd⟩ := on_eq hq hqne
  rw [creates_iff hsegs hc, creates_iff hothers hd]
  rw [Path.key, Path.key, hsegs, hothers] at hpq hqp ⊢
  have he : (t.edited place f).verdict dir e = t.verdict dir e := Tree.verdict_edited hqp hpq
  have hf : (t.edited dir e).verdict place f = t.verdict place f := Tree.verdict_edited hpq hqp
  simp only [hc, hd, he, hf, List.map_append, List.map_singleton, List.dropLast_concat]
  refine ⟨trivial, trivial, Tree.revision_edited_comm hpq hqp, fun hnot => ?_, ?_⟩
  · refine Tree.edited_comm hpq hqp fun hdir hce hdf => ?_
    by_contra hboth
    rw [not_or] at hboth
    exact hnot ⟨hdir, ⟨hce, Option.ne_none_iff_exists'.mp hboth.1⟩, hdf,
      Option.ne_none_iff_exists'.mp hboth.2⟩
  · rintro hdir ⟨hce, n, hn⟩ ⟨hdf, m, hm⟩
    refine ⟨n, m, ?_, ?_, Tree.entries_edited_edited hpq hqp hdir hce hn hdf hm, ?_⟩
    · rw [Tree.resolve?, hsegs]
      exact (Tree.walk?_of_makes hce hn).2
    · rw [Tree.resolve?, hothers]
      exact (Tree.walk?_of_makes hdf hm).2
    · rw [Tree.entries_edited_edited hqp hpq hdir.symm hdf hm hce hn, Tree.alter, Tree.alter,
        Node.alter_names_congr hdir]

end AnyFolding

/-- In a new tree, `mkdir new` and, from `/GAMES`, `rm ../readme.txt` leave the same tree in either
order. With `touch ../Two` instead, the order of the two new entries tells which came first. -/
theorem calls_commute_in_seed :
    let c : Call := ⟨.makeDirectory, [], ["new"], "/", .null, false⟩
    let d : Call := ⟨.remove, [], ["../readme.txt"], "/GAMES", .null, true⟩
    let e : Call := ⟨.makeFile, [], ["../Two"], "/GAMES", .null, true⟩
    let t := Tree.seed
    c.path? = some "/new" ∧ d.path? = some "/readme.txt" ∧ e.path? = some "/Two" ∧
      (d.on (c.on t).1).1 = (c.on (d.on t).1).1 ∧
      ∃ x y, (e.on (c.on t).1).1.entries = t.entries ++ [x, y] ∧
        (c.on (e.on t).1).1.entries = t.entries ++ [y, x] := by
  intro c d e t
  have hc : c.path? = some "/new" := by decide
  have hd : d.path? = some "/readme.txt" := by decide
  have he : e.path? = some "/Two" := by decide
  have hapart : ∀ q : Text, q = "/readme.txt" ∨ q = "/Two" →
      ¬ Path.key "/new" <+: Path.key q ∧ ¬ Path.key q <+: Path.key "/new" := by
    rintro q (rfl | rfl) <;> decide
  have hnot : ¬ d.Creates t "/readme.txt" := fun h => absurd h.1 (by decide)
  have hcreates : c.Creates t "/new" ∧ e.Creates t "/Two" :=
    ⟨⟨by decide, by decide +kernel⟩, by decide, by decide +kernel⟩
  obtain ⟨-, -, -, hsame, -⟩ :=
    calls_commute hc hd (hapart _ (.inl rfl)).1 (hapart _ (.inl rfl)).2 t
  obtain ⟨-, -, -, -, hboth⟩ :=
    calls_commute hc he (hapart _ (.inr rfl)).1 (hapart _ (.inr rfl)).2 t
  obtain ⟨x, y, -, -, hxy, hyx⟩ := hboth (by decide) hcreates.1 hcreates.2
  exact ⟨hc, hd, he, hsame fun h => hnot h.2.2, x, y, hxy, hyx⟩

end Call

end Builtin

end DosConsole
