import DosConsole.Tree.Basic
import Mathlib.Data.List.Infix

/-!
# Looking up after a change

What a look-up finds depends only on the folded names of its path (`walk?_congr`). After a node was
changed in place, a path finds what it found before, unless it leads to that node or on from there
(`face_walk?_alter`): the nodes on the way have another entry among their children, but their own
**face** (kind, name and content) stays. A directory that gets a new entry shows it under its name
and nothing else new, and one that loses an entry shows nothing under that name, provided that no
other entry has the same name.
-/

namespace DosConsole

/-- What can be seen of a node without looking at its children. -/
inductive Face where
  | file (name content : Text)
  | dir (name : Text)
  deriving DecidableEq

/-- The face is that of a directory. -/
def Face.isDir : Face → Bool
  | .file _ _ => false
  | .dir _ => true

namespace Node

/-- The face of a node. -/
def face : Node → Face
  | .file name content => .file name content
  | .dir name _ => .dir name

theorem isDir_face (n : Node) : n.face.isDir = n.isDir := by
  cases n <;> rfl

theorem name_mapChildren (change : List Node → List Node) (n : Node) :
    (n.mapChildren change).name = n.name := by
  cases n <;> rfl

end Node

variable [Folding]

theorem sameName_iff {a b : Text} : sameName a b = true ↔ Folding.fold a = Folding.fold b := by
  rw [sameName, beq_iff_eq]

namespace Node

/-! ### Children by name -/

@[simp] theorem child?_nil (name : Text) : child? [] name = none := rfl

theorem child?_cons (n : Node) (rest : List Node) (name : Text) :
    child? (n :: rest) name =
      if Folding.fold n.name = Folding.fold name then some n else child? rest name := by
  rw [child?_eq_find?, child?_eq_find?, List.find?_cons]
  by_cases h : Folding.fold n.name = Folding.fold name
  · rw [sameName_iff.mpr h, if_pos h]
  · rw [Bool.eq_false_iff.mpr (mt sameName_iff.mp h), if_neg h]

theorem child?_congr {a b : Text} (h : Folding.fold a = Folding.fold b) (nodes : List Node) :
    child? nodes a = child? nodes b := by
  simp only [child?_eq_find?, sameName, h]

/-- A child that is found is an entry of the directory and has the name. -/
theorem mem_of_child? {nodes : List Node} {name : Text} {n : Node}
    (h : child? nodes name = some n) : n ∈ nodes ∧ Folding.fold n.name = Folding.fold name := by
  rw [child?_eq_find?] at h
  have hname : sameName n.name name = true := by simpa using List.find?_some h
  exact ⟨List.mem_of_find?_eq_some h, sameName_iff.mp hname⟩

/-- No child is found just when no entry has the name. -/
theorem child?_eq_none_iff {nodes : List Node} {name : Text} :
    child? nodes name = none ↔ ∀ n ∈ nodes, Folding.fold n.name ≠ Folding.fold name := by
  rw [child?_eq_find?, List.find?_eq_none]
  exact forall₂_congr fun n _ => by rw [sameName_iff]

theorem hasChild_eq_isSome (nodes : List Node) (name : Text) :
    hasChild nodes name = (child? nodes name).isSome := by
  rw [hasChild, child?_eq_find?, List.isSome_find?]

/-- What is found among nodes is found before what follows them. -/
theorem child?_append_eq_or (nodes more : List Node) (name : Text) :
    child? (nodes ++ more) name = (child? nodes name).or (child? more name) := by
  simp only [child?_eq_find?, List.find?_append]

/-- A new entry is found under its own name. -/
theorem child?_append {nodes : List Node} {n : Node} (h : child? nodes n.name = none)
    (name : Text) :
    child? (nodes ++ [n]) name =
      if Folding.fold n.name = Folding.fold name then some n else child? nodes name := by
  rw [child?_append_eq_or, child?_cons, child?_nil]
  split
  · rename_i hname
    rw [← child?_congr hname, h, Option.none_or]
  · rw [Option.or_none]

theorem eraseP_cons (n : Node) (rest : List Node) (gone : Text) :
    (n :: rest).eraseP (fun m => sameName m.name gone) =
      if Folding.fold n.name = Folding.fold gone then rest
      else n :: rest.eraseP fun m => sameName m.name gone := by
  by_cases h : Folding.fold n.name = Folding.fold gone
  · rw [List.eraseP_cons_of_pos (by simpa only [sameName_iff] using h), if_pos h]
  · rw [List.eraseP_cons_of_neg (by simpa only [sameName_iff] using h), if_neg h]

/-- Where names differ, an entry that is taken away is found no more, and all others are. -/
theorem child?_eraseP {nodes : List Node} {gone name : Text}
    (h : nodes.Pairwise fun a b => Folding.fold a.name ≠ Folding.fold b.name) :
    child? (nodes.eraseP fun n => sameName n.name gone) name =
      if Folding.fold gone = Folding.fold name then none else child? nodes name := by
  induction nodes with
  | nil => rw [List.eraseP_nil, child?_nil, ite_self]
  | cons n rest ih =>
    obtain ⟨hfirst, hrest⟩ := List.pairwise_cons.mp h
    rw [eraseP_cons]
    split
    · rename_i hn
      -- the first entry goes, and no other one has its name
      split
      · rename_i hname
        refine child?_eq_none_iff.mpr fun m hm heq => hfirst m hm ?_
        rw [hn, hname, heq]
      · rename_i hname
        rw [child?_cons, if_neg (hn ▸ hname)]
    · rename_i hn
      rw [child?_cons, child?_cons, ih hrest]
      split
      · rename_i hname
        rw [if_neg fun hgone => hn (hname.trans hgone.symm)]
      · rfl

/-! ### Changes in place -/

section Change

variable {change : Node → Node} (hname : ∀ n, (change n).name = n.name)

include hname

/-- The names of the children stay when one of them is changed but keeps its name. -/
theorem map_name_alterChild (s : Text) (nodes : List Node) :
    (alterChild s change nodes).map name = nodes.map name := by
  induction nodes with
  | nil => rfl
  | cons n rest ih =>
    rw [alterChild]
    split
    · rw [List.map_cons, List.map_cons, hname]
    · rw [List.map_cons, List.map_cons, ih]

/-- A child that is changed but keeps its name is found changed, and all others as before. -/
theorem child?_alterChild (nodes : List Node) (s name : Text) :
    child? (alterChild s change nodes) name =
      if Folding.fold s = Folding.fold name then (child? nodes name).map change
      else child? nodes name := by
  induction nodes with
  | nil => rw [alterChild, child?_nil, Option.map_none, ite_self]
  | cons n rest ih =>
    rw [alterChild]
    by_cases hn : Folding.fold n.name = Folding.fold s
    · rw [if_pos (sameName_iff.mpr hn), child?_cons, child?_cons, hname, hn]
      split
      · rfl
      · rfl
    · rw [if_neg (mt sameName_iff.mp hn), child?_cons, child?_cons, ih]
      by_cases heq : Folding.fold n.name = Folding.fold name
      · rw [if_pos heq, if_pos heq, if_neg fun hs => hn (heq.trans hs.symm)]
      · rw [if_neg heq, if_neg heq]

/-- A change that keeps names keeps them wherever it is made. -/
theorem name_alter (path : List Text) (n : Node) : (n.alter change path).name = n.name := by
  match path, n with
  | [], n => rw [alter, hname]
  | _ :: _, .file _ _ => rfl
  | _ :: _, .dir _ _ => rfl

end Change

/-! ### Paths -/

theorem walk?_cons_dir (name s : Text) (children : List Node) (rest : List Text) :
    (Node.dir name children).walk? (s :: rest) = (child? children s).bind (·.walk? rest) := by
  rw [walk?]

theorem walk?_cons_file (name content s : Text) (rest : List Text) :
    (Node.file name content).walk? (s :: rest) = none := by
  rw [walk?]

/-- What a path finds depends on the folded names only. -/
theorem walk?_congr {p q : List Text} (h : p.map Folding.fold = q.map Folding.fold) (n : Node) :
    n.walk? p = n.walk? q := by
  induction p generalizing q n with
  | nil =>
    rw [List.map_nil, eq_comm, List.map_eq_nil_iff] at h
    rw [h]
  | cons s p ih =>
    cases q with
    | nil => exact absurd h (by simp)
    | cons u q =>
      obtain ⟨hs, hrest⟩ := List.cons.inj h
      cases n with
      | file => rw [walk?_cons_file, walk?_cons_file]
      | dir name children =>
        rw [walk?_cons_dir, walk?_cons_dir, child?_congr hs]
        exact Option.bind_congr fun c _ => ih hrest c

/-- A path leads on from the node that its front part finds. -/
theorem walk?_append (n : Node) (p q : List Text) :
    n.walk? (p ++ q) = (n.walk? p).bind (·.walk? q) := by
  induction p generalizing n with
  | nil => rfl
  | cons s p ih =>
    cases n with
    | file => rw [List.cons_append, walk?_cons_file, walk?_cons_file, Option.bind_none]
    | dir name children =>
      rw [List.cons_append, walk?_cons_dir, walk?_cons_dir, Option.bind_assoc]
      exact Option.bind_congr fun c _ => ih c

/-- After a change in place a path that leads through the changed node goes on from it as it is now,
and any other path finds a node with the same face as before. -/
theorem face_walk?_alter {change : Node → Node} (hname : ∀ n, (change n).name = n.name)
    {p : List Text} {n m : Node} (hm : n.walk? p = some m) (q : List Text) :
    ((n.alter change p).walk? q).map face =
      if p.map Folding.fold <+: q.map Folding.fold then
        ((change m).walk? (q.drop p.length)).map face
      else (n.walk? q).map face := by
  induction p generalizing n q with
  | nil =>
    obtain rfl : n = m := Option.some.inj hm
    rw [List.map_nil, if_pos List.nil_prefix, alter, List.length_nil, List.drop_zero]
  | cons s p ih =>
    cases n with
    | file => rw [walk?_cons_file] at hm; exact absurd hm (by simp)
    | dir name children =>
      rw [walk?_cons_dir] at hm
      obtain ⟨c, hc, hcm⟩ := Option.bind_eq_some_iff.mp hm
      cases q with
      | nil =>
        rw [List.map_cons, List.map_nil, if_neg (by simp), alter]
        rfl
      | cons u q =>
        rw [alter, walk?_cons_dir, child?_alterChild fun n => name_alter hname p n, walk?_cons_dir,
          List.map_cons, List.map_cons]
        by_cases hs : Folding.fold s = Folding.fold u
        · have hu : child? children u = some c := (child?_congr hs children).symm.trans hc
          rw [if_pos hs, hu, hs, Option.map_some, Option.bind_some, Option.bind_some, ih hcm]
          simp only [List.prefix_cons_inj, List.length_cons, List.drop_succ_cons]
        · have hno : ¬ (Folding.fold s :: p.map Folding.fold <+: Folding.fold u ::
              q.map Folding.fold) := fun hpre => hs (List.cons_prefix_cons.mp hpre).1
          rw [if_neg hs, if_neg hno]

end Node

end DosConsole
