import DosConsole.Proofs.Tree.Names

/-!
# Splices

A change in a directory concerns one name. The first entry of that name is replaced by others of the
same name, or, where no entry has it, others of that name come last. Such a change is a **splice**:
a new entry is one (`Splice.entry`), so is taking an entry away (`Splice.gone`), and so is, seen
from the directory above, a change further down (`Splice.above`, `Node.alter_dir`).

Splices under different names commute, except that two new entries stand in the order in which they
came (`Splice.run_comm`). By induction on the two paths down to them, so do splices in two places of
a tree when neither leads through the other (`Node.alter_comm`), and a path that leads through none
of the entries that a splice concerns finds what it found before (`Node.walk?_alter_mapChildren`).
-/

namespace DosConsole

variable [Folding]

/-- A change of the entries of a directory that concerns one name. -/
structure Splice where
  name : Text
  /-- What stands in the place of the first entry of that name. -/
  found : Node → List Node
  /-- What comes last where no entry has that name. -/
  missing : List Node
  same_of_found : ∀ {n m}, Folding.fold n.name = Folding.fold name → m ∈ found n →
    Folding.fold m.name = Folding.fold name
  same_of_missing : ∀ {m}, m ∈ missing → Folding.fold m.name = Folding.fold name

namespace Splice

/-- The entries after the change. -/
def run (x : Splice) : List Node → List Node
  | [] => x.missing
  | n :: rest => if sameName n.name x.name then x.found n ++ rest else n :: x.run rest

variable {x y : Splice}

theorem run_cons_of_same {n : Node} (h : Folding.fold n.name = Folding.fold x.name)
    (rest : List Node) : x.run (n :: rest) = x.found n ++ rest := by
  rw [run, if_pos (sameName_iff.mpr h)]

theorem run_cons_of_ne {n : Node} (h : Folding.fold n.name ≠ Folding.fold x.name)
    (rest : List Node) : x.run (n :: rest) = n :: x.run rest := by
  rw [run, if_neg (mt sameName_iff.mp h)]

/-- Entries of other names are passed over. -/
theorem run_append {nodes : List Node}
    (h : ∀ n ∈ nodes, Folding.fold n.name ≠ Folding.fold x.name) (rest : List Node) :
    x.run (nodes ++ rest) = nodes ++ x.run rest := by
  induction nodes with
  | nil => rfl
  | cons n nodes ih =>
    rw [List.cons_append, run_cons_of_ne (h n List.mem_cons_self),
      ih fun m hm => h m (List.mem_cons_of_mem _ hm), List.cons_append]

/-- Where no entry has the name something may come last, and nothing else happens. -/
theorem run_of_free {nodes : List Node} (h : Node.child? nodes x.name = none) :
    x.run nodes = nodes ++ x.missing := by
  have hrun := run_append (Node.child?_eq_none_iff.mp h) []
  rwa [List.append_nil] at hrun

/-- A splice is not felt under other names. -/
theorem child?_run {name : Text} (h : Folding.fold x.name ≠ Folding.fold name)
    (nodes : List Node) : Node.child? (x.run nodes) name = Node.child? nodes name := by
  have hother : ∀ {l : List Node}, (∀ m ∈ l, Folding.fold m.name = Folding.fold x.name) →
      Node.child? l name = none := fun hl =>
    Node.child?_eq_none_iff.mpr fun m hm heq => h ((hl m hm).symm.trans heq)
  induction nodes with
  | nil => exact hother fun m => x.same_of_missing
  | cons n rest ih =>
    by_cases hn : Folding.fold n.name = Folding.fold x.name
    · rw [run_cons_of_same hn, Node.child?_append_eq_or, hother fun m => x.same_of_found hn,
        Option.none_or, Node.child?_cons, if_neg fun heq => h (hn.symm.trans heq)]
    · rw [run_cons_of_ne hn, Node.child?_cons, Node.child?_cons, ih]

/-- **Splices commute** under different names, unless both of them have something to put last. -/
theorem run_comm (hname : Folding.fold x.name ≠ Folding.fold y.name)
    (hlast : x.missing = [] ∨ y.missing = []) (nodes : List Node) :
    x.run (y.run nodes) = y.run (x.run nodes) := by
  induction nodes with
  | nil =>
    have hy : x.run (y.missing ++ []) = y.missing ++ x.missing :=
      run_append (fun m hm heq => hname (heq.symm.trans (y.same_of_missing hm))) []
    have hx : y.run (x.missing ++ []) = x.missing ++ y.missing :=
      run_append (fun m hm heq => hname ((x.same_of_missing hm).symm.trans heq)) []
    rw [List.append_nil] at hx hy
    rw [run, run, hx, hy]
    rcases hlast with h | h
    · rw [h, List.append_nil, List.nil_append]
    · rw [h, List.append_nil, List.nil_append]
  | cons n rest ih =>
    by_cases hx : Folding.fold n.name = Folding.fold x.name
    · -- the entry concerns the first splice only, and the second one passes over its replacement
      have hother : ∀ m ∈ x.found n, Folding.fold m.name ≠ Folding.fold y.name :=
        fun m hm heq => hname ((x.same_of_found hx hm).symm.trans heq)
      rw [run_cons_of_ne (hx.trans_ne hname), run_cons_of_same hx, run_cons_of_same hx,
        run_append hother]
    · by_cases hy : Folding.fold n.name = Folding.fold y.name
      · have hother : ∀ m ∈ y.found n, Folding.fold m.name ≠ Folding.fold x.name :=
          fun m hm heq => hname (heq.symm.trans (y.same_of_found hy hm))
        rw [run_cons_of_ne hx, run_cons_of_same hy, run_cons_of_same hy, run_append hother]
      · rw [run_cons_of_ne hx, run_cons_of_ne hy, run_cons_of_ne hx, run_cons_of_ne hy, ih]

/-! ### Kinds of splices -/

/-- A new entry comes last, unless there is one of its name. -/
def entry (n : Node) : Splice where
  name := n.name
  found m := [m]
  missing := [n]
  same_of_found h hm := List.mem_singleton.mp hm ▸ h
  same_of_missing hm := List.mem_singleton.mp hm ▸ rfl

/-- The first entry of the name is taken away. -/
def gone (name : Text) : Splice where
  name := name
  found _ := []
  missing := []
  same_of_found _ hm := absurd hm List.not_mem_nil
  same_of_missing hm := absurd hm List.not_mem_nil

/-- The first entry of the name is changed, but keeps its own name. -/
def child (name : Text) (change : Node → Node) (hname : ∀ n, (change n).name = n.name) :
    Splice where
  name := name
  found n := [change n]
  missing := []
  same_of_found h hm := by rw [List.mem_singleton.mp hm, hname, h]
  same_of_missing hm := absurd hm List.not_mem_nil

theorem run_gone (name : Text) (nodes : List Node) :
    (gone name).run nodes = nodes.eraseP fun n => sameName n.name name := by
  induction nodes with
  | nil => rfl
  | cons n rest ih =>
    rw [run, ih, Node.eraseP_cons]
    simp only [sameName_iff]
    rfl

theorem run_child (name : Text) (change : Node → Node) (hname : ∀ n, (change n).name = n.name)
    (nodes : List Node) :
    (child name change hname).run nodes = Node.alterChild name change nodes := by
  induction nodes with
  | nil => rfl
  | cons n rest ih =>
    rw [run, ih, Node.alterChild]
    rfl

/-- A new entry that is taken away again leaves what was there. -/
theorem run_gone_append {nodes : List Node} {n : Node} (h : Node.child? nodes n.name = none) :
    (gone n.name).run (nodes ++ [n]) = nodes := by
  have hlast : (gone n.name).run [n] = [] := run_cons_of_same rfl []
  rw [run_append (Node.child?_eq_none_iff.mp h), hlast, List.append_nil]

end Splice

namespace Node

/-! ### Changes in place -/

omit [Folding] in
theorem face_mapChildren (change : List Node → List Node) (n : Node) :
    (n.mapChildren change).face = n.face := by
  cases n <;> rfl

/-- A change in a directory is seen in no face, wherever the directory is. -/
theorem face_alter_mapChildren (change : List Node → List Node) (p : List Text) (n : Node) :
    (n.alter (·.mapChildren change) p).face = n.face := by
  match p, n with
  | [], n => rw [alter, face_mapChildren]
  | _ :: _, .file _ _ => rfl
  | _ :: _, .dir _ _ => rfl

/-- A file has no place in it for a change of entries. -/
theorem alter_file (change : List Node → List Node) (p : List Text) (name content : Text) :
    (Node.file name content).alter (·.mapChildren change) p = .file name content := by
  cases p <;> rfl

theorem alterChild_congr {change other : Node → Node} {s : Text} {nodes : List Node}
    (h : ∀ n ∈ child? nodes s, change n = other n) :
    alterChild s change nodes = alterChild s other nodes := by
  induction nodes with
  | nil => rfl
  | cons n rest ih =>
    rw [child?_cons] at h
    rw [alterChild, alterChild]
    by_cases hn : Folding.fold n.name = Folding.fold s
    · rw [if_pos hn] at h
      rw [if_pos (sameName_iff.mpr hn), if_pos (sameName_iff.mpr hn), h n rfl]
    · rw [if_neg hn] at h
      rw [if_neg (mt sameName_iff.mp hn), if_neg (mt sameName_iff.mp hn), ih h]

/-- Of a change in place only what it does to the node at the end of the path matters. -/
theorem alter_congr {change other : Node → Node} {p : List Text} {n : Node}
    (h : ∀ m ∈ n.walk? p, change m = other m) : n.alter change p = n.alter other p := by
  induction p generalizing n with
  | nil => exact h n rfl
  | cons s rest ih =>
    cases n with
    | file name content => rfl
    | dir name children =>
      rw [alter, alter]
      refine congrArg (Node.dir name) (alterChild_congr fun c hc => ih fun m hm => h m ?_)
      rw [walk?_cons_dir, hc, Option.bind_some]
      exact hm

theorem alterChild_id (s : Text) (nodes : List Node) : alterChild s id nodes = nodes := by
  induction nodes with
  | nil => rfl
  | cons n rest ih => rw [alterChild, ih, id_eq, ite_self]

/-- A change in place that leaves the node at the end of the path alone leaves everything alone. -/
theorem alter_id (p : List Text) (n : Node) : n.alter id p = n := by
  induction p generalizing n with
  | nil => rfl
  | cons s rest ih =>
    cases n with
    | file name content => rfl
    | dir name children =>
      have hinner : Node.alter id rest = id := funext ih
      rw [alter, hinner, alterChild_id]

/-- A change one level down is a change of the children. -/
theorem alter_concat (change : Node → Node) (p : List Text) (s : Text) (n : Node) :
    n.alter change (p ++ [s]) = n.alter (·.mapChildren (alterChild s change)) p := by
  induction p generalizing n with
  | nil => cases n <;> rfl
  | cons u p ih =>
    cases n with
    | file name content => rfl
    | dir name children =>
      have hinner : Node.alter change (p ++ [s]) =
          Node.alter (·.mapChildren (alterChild s change)) p := funext ih
      rw [List.cons_append, alter, hinner, alter]

theorem alterChild_name_congr {s u : Text} (h : Folding.fold s = Folding.fold u)
    (change : Node → Node) (nodes : List Node) :
    alterChild s change nodes = alterChild u change nodes := by
  induction nodes with
  | nil => rfl
  | cons n rest ih => rw [alterChild, alterChild, ih, sameName, sameName, h]

section Twice

variable {change : Node → Node} (hname : ∀ n, (change n).name = n.name)

include hname

theorem alterChild_alterChild (s : Text) (more : Node → Node) (nodes : List Node) :
    alterChild s more (alterChild s change nodes) =
      alterChild s (fun n => more (change n)) nodes := by
  induction nodes with
  | nil => rfl
  | cons n rest ih =>
    by_cases hn : Folding.fold n.name = Folding.fold s
    · have hchanged : Folding.fold (change n).name = Folding.fold s := by rw [hname, hn]
      rw [alterChild, alterChild, if_pos (sameName_iff.mpr hn), if_pos (sameName_iff.mpr hn),
        alterChild, if_pos (sameName_iff.mpr hchanged)]
    · rw [alterChild, alterChild, if_neg (mt sameName_iff.mp hn), if_neg (mt sameName_iff.mp hn),
        alterChild, if_neg (mt sameName_iff.mp hn), ih]

/-- The path of a change finds the changed node. -/
theorem walk?_alter_self {p : List Text} {n m : Node} (h : n.walk? p = some m) :
    (n.alter change p).walk? p = some (change m) := by
  induction p generalizing n with
  | nil =>
    obtain rfl : n = m := Option.some.inj h
    rfl
  | cons s rest ih =>
    cases n with
    | file name content => rw [walk?_cons_file] at h; exact absurd h (by simp)
    | dir name children =>
      rw [walk?_cons_dir] at h
      obtain ⟨c, hc, hcm⟩ := Option.bind_eq_some_iff.mp h
      rw [alter, walk?_cons_dir, child?_alterChild (name_alter hname rest), if_pos rfl, hc,
        Option.map_some, Option.bind_some, ih hcm]

/-- Two changes in the same place are one change. -/
theorem alter_alter {p q : List Text} (h : p.map Folding.fold = q.map Folding.fold)
    (more : Node → Node) (n : Node) :
    (n.alter change p).alter more q = n.alter (fun m => more (change m)) p := by
  induction p generalizing q n with
  | nil =>
    rw [List.map_nil, eq_comm, List.map_eq_nil_iff] at h
    rw [h]
    rfl
  | cons s p ih =>
    cases q with
    | nil => exact absurd h (by simp)
    | cons u q =>
      obtain ⟨hs, hrest⟩ := List.cons.inj h
      cases n with
      | file name content => rfl
      | dir name children =>
        rw [alter, alter, alterChild_name_congr hs.symm,
          alterChild_alterChild (name_alter hname p), alter]
        simp only [ih hrest]

end Twice

/-- A change in place is the same on every path with the same key. -/
theorem alter_names_congr {change : Node → Node} {p q : List Text}
    (h : p.map Folding.fold = q.map Folding.fold) (n : Node) :
    n.alter change p = n.alter change q := by
  have htwice := alter_alter (fun m => congrArg Node.name (id_eq m)) h change n
  rw [alter_id] at htwice
  exact htwice.symm

end Node

/-! ### Changes in two places -/

/-- A splice in a directory further down, as it is seen from the directory where the path to it
starts. -/
def Splice.above (x : Splice) : List Text → Splice
  | [] => x
  | s :: rest => .child s (Node.alter (·.mapChildren x.run) rest)
      (Node.name_alter (Node.name_mapChildren _) rest)

namespace Node

/-- A change further down is a splice. -/
theorem alter_dir (x : Splice) (p : List Text) (name : Text) (children : List Node) :
    (Node.dir name children).alter (·.mapChildren x.run) p =
      .dir name ((x.above p).run children) := by
  cases p with
  | nil => rfl
  | cons s rest => rw [alter, Splice.above, Splice.run_child]

/-- Changes in two places commute when the ways to them part at once. -/
theorem alter_comm_of_ne {x y : Splice} {p q : List Text}
    (hname : Folding.fold (x.above p).name ≠ Folding.fold (y.above q).name)
    (hlast : (x.above p).missing = [] ∨ (y.above q).missing = []) (n : Node) :
    (n.alter (·.mapChildren x.run) p).alter (·.mapChildren y.run) q =
      (n.alter (·.mapChildren y.run) q).alter (·.mapChildren x.run) p := by
  cases n with
  | file name content => rw [alter_file, alter_file, alter_file]
  | dir name children =>
    rw [alter_dir, alter_dir, alter_dir, alter_dir, Splice.run_comm hname hlast]

/-- **Changes in two places commute** when neither concerns an entry that the other one leads
through, and not both of them put something last in the same directory. -/
theorem alter_comm {x y : Splice} {p q : List Text}
    (hpq : ¬ (p ++ [x.name]).map Folding.fold <+: (q ++ [y.name]).map Folding.fold)
    (hqp : ¬ (q ++ [y.name]).map Folding.fold <+: (p ++ [x.name]).map Folding.fold)
    (hlast : p.map Folding.fold = q.map Folding.fold → x.missing = [] ∨ y.missing = [])
    (n : Node) :
    (n.alter (·.mapChildren x.run) p).alter (·.mapChildren y.run) q =
      (n.alter (·.mapChildren y.run) q).alter (·.mapChildren x.run) p := by
  induction p generalizing q n with
  | nil =>
    cases q with
    | nil =>
      have hname : Folding.fold x.name ≠ Folding.fold y.name := fun heq =>
        hpq (List.cons_prefix_cons.mpr ⟨heq, List.nil_prefix⟩)
      exact alter_comm_of_ne (p := []) (q := []) hname (hlast rfl) n
    | cons u q =>
      have hname : Folding.fold x.name ≠ Folding.fold u := fun heq =>
        hpq (List.cons_prefix_cons.mpr ⟨heq, List.nil_prefix⟩)
      exact alter_comm_of_ne (y := y) (p := []) (q := u :: q) hname (.inr rfl) n
  | cons s p ih =>
    cases q with
    | nil =>
      have hname : Folding.fold s ≠ Folding.fold y.name := fun heq =>
        hqp (List.cons_prefix_cons.mpr ⟨heq.symm, List.nil_prefix⟩)
      exact alter_comm_of_ne (x := x) (p := s :: p) (q := []) hname (.inl rfl) n
    | cons u q =>
      by_cases hsu : Folding.fold s = Folding.fold u
      · -- both ways start alike and go on in the same child
        simp only [List.cons_append, List.map_cons, hsu, List.prefix_cons_inj, List.cons.injEq,
          true_and] at hpq hqp hlast
        cases n with
        | file name content => rw [alter_file, alter_file, alter_file]
        | dir name children =>
          have hx := name_alter (name_mapChildren x.run) p
          have hy := name_alter (name_mapChildren y.run) q
          rw [alter, alter, alterChild_name_congr hsu, alterChild_alterChild hx, alter, alter,
            alterChild_name_congr hsu, alterChild_alterChild hy]
          simp only [ih hpq hqp hlast]
      · exact alter_comm_of_ne (x := x) (y := y) (p := s :: p) (q := u :: q) hsu (.inl rfl) n

/-- **A path that leads through no changed entry** finds a node with the face that it had before,
and exactly what it found before if it is not on the way to the change either. -/
theorem walk?_alter_mapChildren {x : Splice} {p q : List Text}
    (hpq : ¬ (p ++ [x.name]).map Folding.fold <+: q.map Folding.fold) (n : Node) :
    ∃ change : Node → Node, (∀ m, (change m).face = m.face) ∧
      (¬ q.map Folding.fold <+: (p ++ [x.name]).map Folding.fold → change = id) ∧
      (n.alter (·.mapChildren x.run) p).walk? q = (n.walk? q).map change := by
  induction q generalizing p n with
  | nil =>
    exact ⟨_, face_alter_mapChildren x.run p, fun h => absurd List.nil_prefix h, rfl⟩
  | cons u q ih =>
    cases n with
    | file name content =>
      rw [alter_file, walk?_cons_file]
      exact ⟨id, fun _ => rfl, fun _ => rfl, rfl⟩
    | dir name children =>
      by_cases hu : Folding.fold (x.above p).name = Folding.fold u
      · cases p with
        | nil => exact absurd (List.cons_prefix_cons.mpr ⟨hu, List.nil_prefix⟩) hpq
        | cons s p =>
          have hsu : Folding.fold s = Folding.fold u := hu
          rw [alter, walk?_cons_dir, walk?_cons_dir,
            child?_alterChild (name_alter (name_mapChildren x.run) p), if_pos hsu]
          simp only [List.cons_append, List.map_cons, hsu, List.prefix_cons_inj] at hpq ⊢
          cases child? children u with
          | none => exact ⟨id, fun _ => rfl, fun _ => rfl, rfl⟩
          | some c => exact ih hpq c
      · rw [alter_dir, walk?_cons_dir, walk?_cons_dir, Splice.child?_run hu]
        exact ⟨id, fun _ => rfl, fun _ => rfl, (congrFun Option.map_id _).symm⟩

end Node

end DosConsole
