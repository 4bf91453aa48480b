import DosConsole.Proofs.Record.Reading
import DosConsole.Proofs.Record.Writing
import DosConsole.Proofs.Tree.Act
import DosConsole.Snapshot.Basic

/-!
# Trees and their snapshots

What is written is the record that is defined by recursion (`encode_eq`). It is accepted if the
names in every directory are distinct and not empty, and it is then read as the node that it was
made of (`decode_ofNode`). So such a tree is read back from its snapshot, with no change counted
(`ofSnapshot_snapshot`).

A tree that was loaded is of this kind, whether it was read from the file or is a new one.
-/

namespace DosConsole

namespace Record

/-! ### Reading what was written -/

theorem isShallow_ofNode {n : Node} (h : n.name ≠ []) : IsShallow (ofNode n) := by
  cases n with
  | file name content =>
    rw [ofNode]
    exact ⟨_, name, rfl, rfl, h, .inl ⟨rfl, .inr (.inr ⟨content, rfl⟩)⟩⟩
  | dir name children =>
    rw [ofNode]
    exact ⟨_, name, rfl, rfl, h, .inr ⟨rfl, .inr (.inr ⟨ofNodes children, rfl⟩)⟩⟩

variable [Folding]

/-- Records with names that fold unlike each other, and unlike the given names, are all kept. -/
theorem keptBeside_eq_self {names : List Text} {records : List Json}
    (hdistinct : Distinct (records.map nameOf))
    (hnew : ∀ name ∈ names, ∀ v ∈ records, Folding.fold name ≠ Folding.fold (nameOf v)) :
    keptBeside names records = records := by
  induction records generalizing names with
  | nil => rfl
  | cons v rest ih =>
    obtain ⟨hfirst, hrest⟩ := List.pairwise_cons.mp hdistinct
    have hany : ¬ (names.any (sameName · (nameOf v))) = true := by
      intro h
      obtain ⟨name, hname, hsame⟩ := List.any_eq_true.mp h
      exact hnew name hname v List.mem_cons_self (sameName_iff.mp hsame)
    rw [keptBeside, if_neg hany, ih hrest fun name hname w hw => ?_]
    rcases List.mem_cons.mp hname with rfl | hname
    · exact hfirst (nameOf w) (List.mem_map_of_mem hw)
    · exact hnew name hname w (List.mem_cons_of_mem _ hw)

/-- Records with distinct names are all kept. -/
theorem kept_eq_self {records : List Json} (h : Distinct (records.map nameOf)) :
    kept records = records :=
  keptBeside_eq_self h fun _ hname => absurd hname List.not_mem_nil

/-- The records of nodes with distinct names are all kept. -/
theorem kept_map_ofNode {nodes : List Node} (h : Distinct (nodes.map Node.name)) :
    kept (nodes.map ofNode) = nodes.map ofNode := by
  refine kept_eq_self ?_
  have hnames : (nodes.map ofNode).map nameOf = nodes.map Node.name := by
    rw [List.map_map]
    exact List.map_congr_left fun n _ => nameOf_ofNode n
  rw [hnames]
  exact h

/-- The tree of a record that was written is the node that it was made of. -/
theorem nodeOf_ofNode {n : Node} (h : n.AllNames Distinct) : nodeOf (ofNode n) = n := by
  induction h with
  | file name content => rw [nodeOf_eq, isDirectory_ofNode, ofNode]; rfl
  | @dir name children names inside ih =>
    have hback : (children.map ofNode).map nodeOf = children := by
      rw [List.map_map]
      exact (List.map_congr_left fun n hn => ih n hn).trans (List.map_id children)
    rw [nodeOf_eq, isDirectory_ofNode, childrenOf_ofNode, nameOf_ofNode, Node.children,
      kept_map_ofNode names, hback]
    rfl

/-- A record that was written is accepted if no name in it is empty. -/
theorem isAccepted_ofNode {n : Node} (hname : n.name ≠ []) (h : n.IsNamed) :
    IsAccepted (ofNode n) := by
  induction h with
  | file name content =>
    have hnone : childrenOf (ofNode (.file name content)) = [] := childrenOf_ofNode _
    refine .intro (isShallow_ofNode hname) ?_ ?_
    · rw [hnone]
      exact fun c hc => absurd hc List.not_mem_nil
    · rw [hnone]
      exact fun c hc => absurd hc List.not_mem_nil
  | @dir name children names inside ih =>
    have hnamed : ∀ n ∈ children, n.name ≠ [] := fun n hn => names _ (List.mem_map_of_mem hn)
    refine .intro (isShallow_ofNode hname) (fun c hc => ?_) fun c hc _ => ?_
    · rw [childrenOf_ofNode] at hc
      obtain ⟨n, hn, rfl⟩ := List.mem_map.mp hc
      exact isShallow_ofNode (hnamed n hn)
    · have hin := mem_of_mem_kept hc
      rw [childrenOf_ofNode] at hin
      obtain ⟨n, hn, rfl⟩ := List.mem_map.mp hin
      exact ih n hn (hnamed n hn)

/-- A node is read back from its record, if the names in every directory are distinct and no name is
empty. -/
theorem decode_ofNode {n : Node} (hname : n.name ≠ []) (hdistinct : n.AllNames Distinct)
    (hnamed : n.IsNamed) : decode (ofNode n) = .ok n :=
  decode_eq_ok_iff.mpr ⟨isAccepted_ofNode hname hnamed, (nodeOf_ofNode hdistinct).symm⟩

end Record

/-! ### Trees -/

namespace Tree

variable [Folding]

/-- A tree is read back from its snapshot, with no change counted. -/
theorem ofSnapshot_snapshot {t : Tree} (hdistinct : t.root.AllNames Distinct)
    (hnamed : t.root.IsNamed) :
    ofSnapshot t.snapshot = .ok ⟨t.entries, 0⟩ := by
  have hname : t.root.name ≠ [] := List.cons_ne_nil _ _
  have hroot : Record.decode (Record.ofNode t.root) = .ok (.dir "/" t.entries) :=
    Record.decode_ofNode hname hdistinct hnamed
  rw [ofSnapshot, snapshot, Record.encode_eq, hroot]

/-- What holds in every directory of a node that was read holds in every directory of a tree that
was read. -/
theorem allNames_of_ofSnapshot {P : List Text → Prop}
    (hread : ∀ v n, Record.decode v = .ok n → n.AllNames P) {v : Json} {t : Tree}
    (h : ofSnapshot v = .ok t) : t.root.AllNames P := by
  rw [ofSnapshot] at h
  split at h
  · exact absurd h (by simp)
  · exact absurd h (by simp)
  · rename_i name children hdecode
    obtain rfl := Except.ok.inj h
    have hnode := hread v _ hdecode
    exact .dir hnode.names hnode.inside

/-- What is loaded is a new tree or was read from a snapshot, whatever was on the disk. -/
theorem load_cases {d : Disk} {l : Location} {t : Tree} {notices : List Notice}
    (h : Snapshot.load d l = .ok (t, notices)) : t = seed ∨ ∃ v, ofSnapshot v = .ok t := by
  rw [Snapshot.load] at h
  split at h
  · exact absurd h (by simp)
  · have htree : (Snapshot.read d l).1 = t := congrArg Prod.fst (Except.ok.inj h)
    rw [Snapshot.read] at htree
    split at htree
    · exact .inl htree.symm
    · split at htree
      · exact .inl htree.symm
      · rename_i v _ _ read hsnapshot
        obtain rfl : read = t := htree
        exact .inr ⟨_, hsnapshot⟩
  · exact .inl (congrArg Prod.fst (Except.ok.inj h)).symm

/-- What is loaded has no changes counted. -/
theorem revision_of_load {d : Disk} {l : Location} {t : Tree} {notices : List Notice}
    (h : Snapshot.load d l = .ok (t, notices)) : t.revision = 0 := by
  rcases load_cases h with rfl | ⟨v, hv⟩
  · rfl
  · rw [ofSnapshot] at hv
    split at hv
    · exact absurd hv (by simp)
    · exact absurd hv (by simp)
    · rw [← Except.ok.inj hv]

/-- What holds in every directory of a new tree and of a node that was read holds in every directory
of a tree that was loaded, whatever was on the disk. -/
theorem allNames_of_load {P : List Text → Prop} (hseed : seed.root.AllNames P)
    (hread : ∀ v n, Record.decode v = .ok n → n.AllNames P) {d : Disk} {l : Location} {t : Tree}
    {notices : List Notice} (h : Snapshot.load d l = .ok (t, notices)) : t.root.AllNames P := by
  rcases load_cases h with rfl | ⟨v, hv⟩
  · exact hseed
  · exact allNames_of_ofSnapshot hread hv

end Tree

end DosConsole
