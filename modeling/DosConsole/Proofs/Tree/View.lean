import DosConsole.Proofs.Path.Normal
import DosConsole.Proofs.Tree.Names

/-!
# What is seen at each path

The **view** of a tree shows at each path the face of the node there, or nothing. It depends only on
the **key** of the path, its folded segments (`view_congr`). An entry that is added is seen under
its key and changes nothing elsewhere (`face_walk?_refill_append`). An entry that is taken away
leaves nothing to be seen under its key and below it and changes nothing elsewhere, if the names in
its directory are distinct (`face_walk?_refill_eraseP`); otherwise another entry could come to
light.
-/

namespace DosConsole

variable [Folding]

/-- The **key** of a path: its folded segments. -/
def Path.key (path : Text) : List Text :=
  (Path.segments path).map Folding.fold

/-- A path whose key starts like that of `p` leads first where `p` does. -/
theorem exists_map_fold_append {p q : List Text}
    (h : p.map Folding.fold <+: q.map Folding.fold) :
    ∃ r, q.map Folding.fold = (p ++ r).map Folding.fold := by
  refine ⟨q.drop p.length, ?_⟩
  have hlength : (p.map Folding.fold).length = p.length := List.length_map _
  rw [List.map_append, List.map_drop, ← hlength]
  exact List.prefix_iff_eq_append.mp h |>.symm

namespace Node

theorem walk?_of_children_eq_nil {n : Node} (h : n.children = []) (s : Text) (rest : List Text) :
    n.walk? (s :: rest) = none := by
  cases n with
  | file => rw [walk?_cons_file]
  | dir name children =>
    obtain rfl : children = [] := h
    rw [walk?_cons_dir, child?_nil, Option.bind_none]

/-- The node at a path with one more name is a child of the node before it. -/
theorem walk?_concat {n : Node} {dir : List Text} {name : Text} {children : List Node}
    (h : n.walk? dir = some (.dir name children)) (s : Text) :
    n.walk? (dir ++ [s]) = child? children s := by
  rw [walk?_append, h, Option.bind_some, walk?_cons_dir]
  exact Option.bind_fun_some _

end Node

namespace Tree

/-- What is seen at a path. -/
def view (t : Tree) (path : Text) : Option Face :=
  (t.resolve? path).map Node.face

theorem view_congr (t : Tree) {p q : Text} (h : Path.key p = Path.key q) : t.view p = t.view q := by
  rw [view, view, resolve?, resolve?, Node.walk?_congr h]

section Effect

variable {t : Tree} {dir : List Text} {name : Text} {children : List Node}
  (hdir : t.root.walk? dir = some (.dir name children))

include hdir

/-- A path that leads through a directory with other children goes on from these. -/
theorem face_walk?_refill_inside (after : List Node) {q r : List Text}
    (hq : q.map Folding.fold = (dir ++ r).map Folding.fold) :
    ((t.refill dir after).root.walk? q).map Node.face =
      ((Node.dir name after).walk? r).map Node.face := by
  have hpre : dir.map Folding.fold <+: q.map Folding.fold := by
    rw [hq, List.map_append]
    exact List.prefix_append _ _
  have hdrop : (q.drop dir.length).map Folding.fold = r.map Folding.fold := by
    rw [List.map_drop, hq, List.map_append, ← List.length_map Folding.fold, List.drop_left]
  rw [root_refill, Node.face_walk?_alter (Node.name_mapChildren _) hdir q, if_pos hpre,
    Node.walk?_congr hdrop]
  rfl

/-- A path that leads past a directory with other children shows what it showed before. -/
theorem face_walk?_refill_outside (after : List Node) {q : List Text}
    (hq : ¬ dir.map Folding.fold <+: q.map Folding.fold) :
    ((t.refill dir after).root.walk? q).map Node.face = (t.root.walk? q).map Node.face := by
  rw [root_refill, Node.face_walk?_alter (Node.name_mapChildren _) hdir q, if_neg hq]

/-- An entry under a new name is seen under its key, and the view is the same everywhere else. -/
theorem face_walk?_refill_append {entry : Node} (hfree : Node.child? children entry.name = none)
    (hempty : entry.children = []) (q : List Text) :
    ((t.refill dir (children ++ [entry])).root.walk? q).map Node.face =
      if q.map Folding.fold = (dir ++ [entry.name]).map Folding.fold then some entry.face
      else (t.root.walk? q).map Node.face := by
  by_cases hpre : dir.map Folding.fold <+: q.map Folding.fold
  · obtain ⟨r, hr⟩ := exists_map_fold_append hpre
    have hkey : q.map Folding.fold = (dir ++ [entry.name]).map Folding.fold ↔
        r.map Folding.fold = [Folding.fold entry.name] := by
      rw [hr, List.map_append, List.map_append, List.append_right_inj, List.map_singleton]
    -- both sides go on from the directory along `r`
    rw [face_walk?_refill_inside hdir _ hr, Node.walk?_congr hr, Node.walk?_append, hdir,
      Option.bind_some]
    simp only [hkey]
    cases r with
    | nil => rw [if_neg (by simp)]; rfl
    | cons s rest =>
      rw [Node.walk?_cons_dir, Node.walk?_cons_dir, Node.child?_append hfree, List.map_cons]
      by_cases hs : Folding.fold entry.name = Folding.fold s
      · have hnone : Node.child? children s = none := (Node.child?_congr hs children) ▸ hfree
        rw [if_pos hs, hnone, Option.bind_some, Option.bind_none, hs]
        cases rest with
        | nil => rw [if_pos (by rw [List.map_nil])]; rfl
        | cons u rest => rw [Node.walk?_of_children_eq_nil hempty, if_neg (by simp)]
      · rw [if_neg hs, if_neg fun heq => hs (List.cons.inj heq).1.symm]
  · have hne : q.map Folding.fold ≠ (dir ++ [entry.name]).map Folding.fold := by
      intro heq
      rw [heq, List.map_append] at hpre
      exact hpre (List.prefix_append _ _)
    rw [face_walk?_refill_outside hdir _ hpre, if_neg hne]

/-- Where names are distinct, an entry that is taken away leaves nothing to be seen under its key
and below it, and the view is the same everywhere else. -/
theorem face_walk?_refill_eraseP
    (hdistinct : children.Pairwise fun a b => Folding.fold a.name ≠ Folding.fold b.name)
    (gone : Text) (q : List Text) :
    ((t.refill dir (children.eraseP fun n => sameName n.name gone)).root.walk? q).map Node.face =
      if (dir ++ [gone]).map Folding.fold <+: q.map Folding.fold then none
      else (t.root.walk? q).map Node.face := by
  by_cases hpre : dir.map Folding.fold <+: q.map Folding.fold
  · obtain ⟨r, hr⟩ := exists_map_fold_append hpre
    have hkey : (dir ++ [gone]).map Folding.fold <+: q.map Folding.fold ↔
        [Folding.fold gone] <+: r.map Folding.fold := by
      rw [hr, List.map_append, List.map_append, List.prefix_append_right_inj, List.map_singleton]
    rw [face_walk?_refill_inside hdir _ hr, Node.walk?_congr hr, Node.walk?_append, hdir,
      Option.bind_some]
    simp only [hkey]
    cases r with
    | nil => rw [if_neg (by simp)]; rfl
    | cons s rest =>
      rw [Node.walk?_cons_dir, Node.walk?_cons_dir, Node.child?_eraseP hdistinct, List.map_cons]
      by_cases hs : Folding.fold gone = Folding.fold s
      · rw [if_pos hs, hs, if_pos (List.cons_prefix_cons.mpr ⟨rfl, List.nil_prefix⟩)]
        rfl
      · rw [if_neg hs, if_neg fun h => hs (List.cons_prefix_cons.mp h).1]
  · have hno : ¬ (dir ++ [gone]).map Folding.fold <+: q.map Folding.fold := by
      intro h
      rw [List.map_append] at h
      exact hpre ((List.prefix_append _ _).trans h)
    rw [face_walk?_refill_outside hdir _ hpre, if_neg hno]

end Effect

end Tree

end DosConsole
