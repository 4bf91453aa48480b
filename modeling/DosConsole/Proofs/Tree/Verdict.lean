import DosConsole.Proofs.Tree.Splice
import DosConsole.Proofs.Tree.View

/-!
# Verdicts

An operation under a name comes to a **verdict**, which depends on little: on whether there is a
directory to hold an entry of that name, and on the first entry of that name there
(`Tree.verdict_congr`). The tree is changed on one of the verdicts only, and then by a splice
(`Tree.edited`).

So operations in two places, neither of which leads through the other, do not touch each other's
verdicts (`Tree.verdict_edited`), and the tree does not tell in which order they were carried out
(`Tree.edited_comm`), except by the order of two new entries in one directory
(`Tree.entries_edited_edited`). And a new entry that is removed again leaves no trace but two
changes counted (`Tree.edited_remove`).
-/

namespace DosConsole

/-- What an operation under a name comes to. -/
inductive Verdict where
  /-- There is no name: the root is an entry of no directory. -/
  | nameless
  /-- There is no directory to hold an entry of the name. -/
  | astray
  /-- The directory refuses the operation. -/
  | refused (cause : TreeError)
  /-- The directory takes the operation and stays as it is. -/
  | kept
  /-- The directory takes the operation and has other entries afterwards. -/
  | changed
  deriving DecidableEq

/-! ### Operations -/

namespace Edit

/-- The name that an operation is about. -/
def name : Edit → Text
  | .makeDirectory name | .makeFile name | .remove name _ => name

/-- The entry that an operation would make. -/
def makes? : Edit → Option Node
  | .makeDirectory name => some (.dir name [])
  | .makeFile name => some (.file name [])
  | .remove _ _ => none

/-- What a directory says to an operation, given its first entry of the name. -/
def verdict : Edit → Option Node → Verdict
  | .makeDirectory _, none => .changed
  | .makeDirectory name, some _ => .refused (.alreadyExists name)
  | .makeFile _, none => .changed
  | .makeFile _, some (.file _ _) => .kept
  | .makeFile name, some (.dir _ _) => .refused (.alreadyExists name)
  | .remove name _, none => .refused (.notFound name)
  | .remove _ recursive, some n =>
    if !recursive && !n.children.isEmpty then .refused (.notEmpty n.name) else .changed

theorem makes_spec {e : Edit} {n : Node} (h : e.makes? = some n) :
    n.name = e.name ∧ n.children = [] := by
  cases e with
  | makeDirectory name => obtain rfl := Option.some.inj h; exact ⟨rfl, rfl⟩
  | makeFile name => obtain rfl := Option.some.inj h; exact ⟨rfl, rfl⟩
  | remove name recursive => exact absurd h (by simp [makes?])

/-- A new entry comes of an operation just when its name is free. -/
theorem verdict_eq_changed_of_makes {e : Edit} {n : Node} (h : e.makes? = some n)
    (first : Option Node) : e.verdict first = .changed ↔ first = none := by
  cases e with
  | makeDirectory name => cases first <;> simp [verdict]
  | makeFile name =>
    cases first with
    | none => simp [verdict]
    | some m => cases m <;> simp [verdict]
  | remove name recursive => exact absurd h (by simp [makes?])

/-- What is taken away was there. -/
theorem ne_none_of_verdict {e : Edit} (h : e.makes? = none) {first : Option Node}
    (hchanged : e.verdict first = .changed) : first ≠ none := by
  rintro rfl
  cases e with
  | makeDirectory name => exact absurd h (by simp [makes?])
  | makeFile name => exact absurd h (by simp [makes?])
  | remove name recursive => exact absurd hchanged (by simp [verdict])

variable [Folding]

/-- The change that an operation makes. -/
def splice : Edit → Splice
  | .makeDirectory name => .entry (.dir name [])
  | .makeFile name => .entry (.file name [])
  | .remove name _ => .gone name

theorem name_splice (e : Edit) : e.splice.name = e.name := by
  cases e <;> rfl

theorem missing_splice (e : Edit) : e.splice.missing = e.makes?.toList := by
  cases e <;> rfl

/-- An operation that makes an entry puts it last where its name is free. -/
theorem run_splice {e : Edit} {n : Node} (h : e.makes? = some n) {children : List Node}
    (hfree : Node.child? children e.name = none) : e.splice.run children = children ++ [n] := by
  rw [Splice.run_of_free (e.name_splice ▸ hfree), missing_splice, h, Option.toList_some]

/-- **Verdicts.** A directory does what its verdict says. -/
theorem apply_of_verdict (e : Edit) (children : List Node) :
    (∃ cause, e.verdict (Node.child? children e.name) = .refused cause ∧
      e.apply children = .error cause) ∨
    (e.verdict (Node.child? children e.name) = .kept ∧ ∃ n, e.apply children = .ok (n, none)) ∨
    (e.verdict (Node.child? children e.name) = .changed ∧
      ∃ n, e.apply children = .ok (n, some (e.splice.run children))) := by
  cases e with
  | makeDirectory name =>
    simp only [Edit.name]
    cases hc : Node.child? children name with
    | none =>
      have hrun := run_splice (e := .makeDirectory name) rfl hc
      exact .inr (.inr ⟨rfl, _, apply_makeDirectory_eq_ok_iff.mpr ⟨hc, rfl, by rw [hrun]⟩⟩)
    | some m =>
      refine .inl ⟨_, rfl, ?_⟩
      rw [apply, Node.hasChild_eq_isSome, hc, if_pos Option.isSome_some]
  | makeFile name =>
    simp only [Edit.name]
    cases hc : Node.child? children name with
    | none =>
      have hrun := run_splice (e := .makeFile name) rfl hc
      exact .inr (.inr ⟨rfl, _, apply_makeFile_eq_ok_iff.mpr (.inl ⟨hc, rfl, by rw [hrun]⟩)⟩)
    | some m =>
      cases m with
      | file a content =>
        exact .inr (.inl ⟨rfl, _, apply_makeFile_eq_ok_iff.mpr (.inr ⟨hc, rfl, rfl⟩)⟩)
      | dir a inner => exact .inl ⟨_, rfl, by rw [apply, hc]⟩
  | remove name recursive =>
    simp only [Edit.name]
    cases hc : Node.child? children name with
    | none => exact .inl ⟨_, rfl, by rw [apply, hc]⟩
    | some m =>
      rw [verdict, apply, hc]
      split
      · exact .inl ⟨_, rfl, if_pos ‹_›⟩
      · rw [splice, Splice.run_gone]
        exact .inr (.inr ⟨rfl, m, if_neg ‹_›⟩)

end Edit

/-! ### Operations on a tree -/

namespace Tree

/-- Trees with the same root and the same revision are the same. -/
theorem ext_root {t u : Tree} (hroot : t.root = u.root) (hrevision : t.revision = u.revision) :
    t = u := by
  obtain ⟨entries, revision⟩ := t
  obtain ⟨others, other⟩ := u
  obtain rfl : revision = other := hrevision
  obtain rfl : entries = others := (Node.dir.inj hroot).2
  rfl

variable [Folding]

/-- The verdict on an operation in the directory at the end of a path of names. -/
def verdict (t : Tree) (dir : List Text) (e : Edit) : Verdict :=
  match t.root.walk? dir with
  | some (.dir _ children) => e.verdict (Node.child? children e.name)
  | _ => .astray

/-- The tree after an operation in the directory at the end of a path of names. -/
def edited (t : Tree) (dir : List Text) (e : Edit) : Tree :=
  if t.verdict dir e = .changed then
    ⟨t.alter dir (·.mapChildren e.splice.run), t.revision + 1⟩
  else t

variable {t : Tree} {p q : List Text} {e f : Edit}

theorem verdict_of_walk? {name : Text} {children : List Node}
    (h : t.root.walk? p = some (.dir name children)) :
    t.verdict p e = e.verdict (Node.child? children e.name) := by
  rw [verdict, h]

/-- A directory is made, or its name is taken. -/
theorem verdict_makeDirectory_ne_kept {name : Text} :
    t.verdict p (.makeDirectory name) ≠ .kept := by
  rw [verdict]
  split
  · rename_i children _
    cases Node.child? children (Edit.makeDirectory name).name <;> simp [Edit.verdict]
  · simp

/-- Only a directory changes. -/
theorem exists_dir_of_verdict (h : t.verdict p e = .changed) :
    ∃ name children, t.root.walk? p = some (.dir name children) ∧
      e.verdict (Node.child? children e.name) = .changed := by
  rw [verdict] at h
  split at h
  · rename_i name children hdir
    exact ⟨name, children, hdir, h⟩
  · exact absurd h (by simp)

/-- A new entry comes last in a directory where its name is free. -/
theorem exists_dir_of_makes {n : Node} (h : t.verdict p e = .changed) (hn : e.makes? = some n) :
    ∃ name children, t.root.walk? p = some (.dir name children) ∧
      Node.child? children e.name = none ∧ e.splice.run children = children ++ [n] := by
  obtain ⟨name, children, hdir, hfree⟩ := exists_dir_of_verdict h
  rw [Edit.verdict_eq_changed_of_makes hn] at hfree
  exact ⟨name, children, hdir, hfree, Edit.run_splice hn hfree⟩

theorem edited_of_ne (h : t.verdict p e ≠ .changed) : t.edited p e = t :=
  if_neg h

theorem root_edited (h : t.verdict p e = .changed) :
    (t.edited p e).root = t.root.alter (·.mapChildren e.splice.run) p := by
  rw [edited, if_pos h]
  cases p with
  | nil => rfl
  | cons s rest => rfl

/-- A change is counted. -/
theorem revision_edited_eq (t : Tree) (p : List Text) (e : Edit) :
    (t.edited p e).revision = t.revision + if t.verdict p e = .changed then 1 else 0 := by
  rw [edited]
  split <;> rfl

theorem revision_edited (h : t.verdict p e = .changed) :
    (t.edited p e).revision = t.revision + 1 := by
  rw [revision_edited_eq, if_pos h]

/-- The operation gives the directory the entries that it makes of the old ones. -/
theorem refill_eq_edited (h : t.verdict p e = .changed) {name : Text} {children : List Node}
    (hdir : t.root.walk? p = some (.dir name children)) :
    t.refill p (e.splice.run children) = t.edited p e := by
  have hroot : t.root.alter (·.mapChildren fun _ => e.splice.run children) p =
      t.root.alter (·.mapChildren e.splice.run) p := by
    refine Node.alter_congr fun n hn => ?_
    obtain rfl : .dir name children = n := Option.some.inj (hdir.symm.trans hn)
    rfl
  exact ext_root (by rw [root_refill, root_edited h, hroot]) (revision_edited h).symm

/-- A directory that changes is found with its new entries. -/
theorem walk?_edited (h : t.verdict p e = .changed) {name : Text} {children : List Node}
    (hdir : t.root.walk? p = some (.dir name children)) :
    (t.edited p e).root.walk? p = some (.dir name (e.splice.run children)) := by
  rw [root_edited h, Node.walk?_alter_self (Node.name_mapChildren _) hdir, Node.mapChildren]

/-- **What a verdict depends on**: whether there is a directory, and the entry that is found there
under the name. -/
theorem verdict_congr {u : Tree}
    (hdir : (u.root.walk? q).map Node.face = (t.root.walk? q).map Node.face)
    (hentry : u.root.walk? (q ++ [f.name]) = t.root.walk? (q ++ [f.name])) :
    u.verdict q f = t.verdict q f := by
  cases ht : t.root.walk? q with
  | none =>
    rw [ht, Option.map_none, Option.map_eq_none_iff] at hdir
    rw [verdict, verdict, ht, hdir]
  | some n =>
    rw [ht, Option.map_some] at hdir
    obtain ⟨m, hu, hface⟩ := Option.map_eq_some_iff.mp hdir
    cases n with
    | file name content =>
      cases m with
      | file => rw [verdict, verdict, ht, hu]
      | dir => exact absurd hface (by simp [Node.face])
    | dir name children =>
      cases m with
      | file => exact absurd hface (by simp [Node.face])
      | dir other entries =>
        rw [Node.walk?_concat hu, Node.walk?_concat ht] at hentry
        rw [verdict_of_walk? hu, verdict_of_walk? ht, hentry]

/-! ### Two operations -/

section Apart

variable (hpq : ¬ (p ++ [e.name]).map Folding.fold <+: (q ++ [f.name]).map Folding.fold)
  (hqp : ¬ (q ++ [f.name]).map Folding.fold <+: (p ++ [e.name]).map Folding.fold)

include hpq hqp

/-- **Verdicts stay** when an operation is carried out in another place. -/
theorem verdict_edited : (t.edited p e).verdict q f = t.verdict q f := by
  by_cases hchanged : t.verdict p e = .changed
  · have hdir : ¬ (p ++ [e.splice.name]).map Folding.fold <+: q.map Folding.fold := by
      intro h
      rw [Edit.name_splice] at h
      refine hpq (h.trans ?_)
      rw [List.map_append]
      exact List.prefix_append _ _
    obtain ⟨change, hface, -, hwalk⟩ := Node.walk?_alter_mapChildren hdir t.root
    obtain ⟨same, -, hsame, hentry⟩ :=
      Node.walk?_alter_mapChildren (e.name_splice.symm ▸ hpq) t.root
    refine verdict_congr ?_ ?_
    · rw [root_edited hchanged, hwalk, Option.map_map]
      exact congrArg (Option.map · _) (funext hface)
    · rw [root_edited hchanged, hentry, hsame (e.name_splice.symm ▸ hqp), Option.map_id_fun, id]
  · rw [edited_of_ne hchanged]

/-- The changes of two operations are counted in either order. -/
theorem revision_edited_comm :
    ((t.edited p e).edited q f).revision = ((t.edited q f).edited p e).revision := by
  rw [revision_edited_eq, verdict_edited hpq hqp, revision_edited_eq, revision_edited_eq,
    verdict_edited hqp hpq, revision_edited_eq, Nat.add_right_comm]

/-- **Operations commute** in two places, unless both of them make an entry in one directory. -/
theorem edited_comm (hentry : p.map Folding.fold = q.map Folding.fold →
      t.verdict p e = .changed → t.verdict q f = .changed → e.makes? = none ∨ f.makes? = none) :
    (t.edited p e).edited q f = (t.edited q f).edited p e := by
  have he : (t.edited q f).verdict p e = t.verdict p e := verdict_edited hqp hpq
  have hf : (t.edited p e).verdict q f = t.verdict q f := verdict_edited hpq hqp
  by_cases hp : t.verdict p e = .changed
  · by_cases hq : t.verdict q f = .changed
    · refine ext_root ?_ (revision_edited_comm hpq hqp)
      rw [root_edited (hf.trans hq), root_edited hp, root_edited (he.trans hp), root_edited hq]
      refine Node.alter_comm ?_ ?_ (fun hdir => ?_) t.root
      · rw [Edit.name_splice, Edit.name_splice]
        exact hpq
      · rw [Edit.name_splice, Edit.name_splice]
        exact hqp
      · rw [Edit.missing_splice, Edit.missing_splice]
        refine (hentry hdir hp hq).imp (fun h => ?_) fun h => ?_
        · rw [h, Option.toList_none]
        · rw [h, Option.toList_none]
    · rw [edited_of_ne (by rwa [hf]), edited_of_ne hq]
  · rw [edited_of_ne (t := t.edited q f) (by rwa [he]), edited_of_ne hp]

/-- Two entries that are made in one directory stand there in the order in which they were made. -/
theorem entries_edited_edited {n m : Node} (hdir : p.map Folding.fold = q.map Folding.fold)
    (hp : t.verdict p e = .changed) (hn : e.makes? = some n)
    (hq : t.verdict q f = .changed) (hm : f.makes? = some m) :
    ((t.edited p e).edited q f).entries = t.alter p (·.mapChildren (· ++ [n, m])) := by
  have hf : (t.edited p e).verdict q f = t.verdict q f := verdict_edited hpq hqp
  obtain ⟨name, children, hwalk, hfree, hrun⟩ := exists_dir_of_makes hp hn
  have hother : Node.child? children f.name = none := by
    rw [verdict_of_walk? (Node.walk?_congr hdir _ ▸ hwalk),
      Edit.verdict_eq_changed_of_makes hm] at hq
    exact hq
  have hne : Folding.fold n.name ≠ Folding.fold f.name := by
    intro heq
    refine hpq ?_
    rw [List.map_append, List.map_append, hdir, List.map_singleton, List.map_singleton,
      ← (Edit.makes_spec hn).1, heq]
  have hstill : Node.child? (children ++ [n]) f.name = none := by
    rw [Node.child?_append ((Edit.makes_spec hn).1 ▸ hfree), if_neg hne, hother]
  have hroot : ((t.edited p e).edited q f).root =
      t.root.alter (·.mapChildren (· ++ [n, m])) p := by
    rw [root_edited (hf.trans hq), root_edited hp,
      Node.alter_alter (Node.name_mapChildren _) hdir]
    refine Node.alter_congr fun k hk => ?_
    obtain rfl : .dir name children = k := Option.some.inj (hwalk.symm.trans hk)
    rw [Node.mapChildren, Node.mapChildren, hrun, Edit.run_splice hm hstill,
      List.append_assoc, List.singleton_append, Node.mapChildren]
  exact congrArg Node.children hroot

end Apart

/-! ### New entries -/

/-- Where an operation makes an entry nothing was found before, and the entry is found after. -/
theorem walk?_of_makes {n : Node} (hchanged : t.verdict p e = .changed) (hn : e.makes? = some n) :
    t.root.walk? (p ++ [e.name]) = none ∧
      (t.edited p e).root.walk? (p ++ [e.name]) = some n := by
  obtain ⟨name, children, hdir, hfree, hrun⟩ := exists_dir_of_makes hchanged hn
  have hname := (Edit.makes_spec hn).1
  rw [Node.walk?_concat hdir, Node.walk?_concat (walk?_edited hchanged hdir), hrun,
    Node.child?_append (hname ▸ hfree), if_pos (by rw [hname])]
  exact ⟨hfree, rfl⟩

/-- Only an operation that makes an entry has something found where there was nothing. -/
theorem exists_makes_of_walk? (hbefore : t.root.walk? (p ++ [e.name]) = none)
    (hafter : (t.edited p e).root.walk? (p ++ [e.name]) ≠ none) :
    t.verdict p e = .changed ∧ ∃ n, e.makes? = some n := by
  have hchanged : t.verdict p e = .changed := by
    by_contra hne
    rw [edited_of_ne hne] at hafter
    exact hafter hbefore
  refine ⟨hchanged, Option.ne_none_iff_exists'.mp fun hnone => ?_⟩
  obtain ⟨name, children, hdir, hverdict⟩ := exists_dir_of_verdict hchanged
  rw [Node.walk?_concat hdir] at hbefore
  exact Edit.ne_none_of_verdict hnone hverdict hbefore

/-- **Made and removed.** A new entry can be removed at once, whether or not that is to be
recursive, and this leaves the entries of the tree as they were before. -/
theorem edited_remove {n : Node} (hchanged : t.verdict p e = .changed) (hn : e.makes? = some n)
    (recursive : Bool) :
    (t.edited p e).verdict p (.remove e.name recursive) = .changed ∧
      ((t.edited p e).edited p (.remove e.name recursive)).entries = t.entries ∧
      ((t.edited p e).edited p (.remove e.name recursive)).revision = t.revision + 2 := by
  obtain ⟨name, children, hdir, hfree, hrun⟩ := exists_dir_of_makes hchanged hn
  obtain ⟨hname, hempty⟩ := Edit.makes_spec hn
  obtain ⟨-, hfound⟩ := walk?_of_makes hchanged hn
  have hafter := walk?_edited hchanged hdir
  have hremoved : (t.edited p e).verdict p (.remove e.name recursive) = .changed := by
    rw [Node.walk?_concat hafter] at hfound
    rw [verdict_of_walk? hafter, Edit.name, hfound, Edit.verdict, hempty, List.isEmpty_nil,
      Bool.not_true, Bool.and_false, if_neg Bool.false_ne_true]
  have hroot : ((t.edited p e).edited p (.remove e.name recursive)).root = t.root := by
    rw [root_edited hremoved, root_edited hchanged, Node.alter_alter (Node.name_mapChildren _) rfl]
    refine (Node.alter_congr fun k hk => ?_).trans (Node.alter_id p t.root)
    obtain rfl : .dir name children = k := Option.some.inj (hdir.symm.trans hk)
    rw [Node.mapChildren, Node.mapChildren, hrun, Edit.splice, ← hname,
      Splice.run_gone_append (hname ▸ hfree), id_eq]
  refine ⟨hremoved, congrArg Node.children hroot, ?_⟩
  rw [revision_edited hremoved, revision_edited hchanged]

end Tree

end DosConsole
