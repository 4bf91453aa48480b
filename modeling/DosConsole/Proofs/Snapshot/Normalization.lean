import DosConsole.Proofs.Snapshot.RoundTrip
import Mathlib.Data.List.Forall2

/-!
# Reading undoes writing

A node whose names are not empty and, in every directory, distinct is read back from its record
(`decode_encode`), and so is a tree from its snapshot.

To write what was read **normalizes** a record: siblings with the name of an earlier one are
dropped, a content or children that are missing or null are filled in, and fields that mean nothing
are left out. What comes of it is read as the same node, so that it is its own normal form. A
**tidy** record has nothing of that kind, and it is its own normal form as well, up to the order in
which its fields stand. If they stand in order, it is left exactly as it is.
-/

namespace DosConsole

/-- Two values are **alike** when they are equal up to the order of the fields of objects. -/
inductive Json.Alike : Json → Json → Prop
  | refl (v : Json) : Alike v v
  | list {items others : List Json} (each : List.Forall₂ Alike items others) :
      Alike (.list items) (.list others)
  | object {fields others : Json.Fields}
      (each : ∀ key, Option.Rel Alike (fields.get? key) (others.get? key)) :
      Alike (.object fields) (.object others)

theorem Json.Alike.option_refl (o : Option Json) : Option.Rel Alike o o := by
  cases o with
  | none => exact .none
  | some v => exact .some (.refl v)

/-- Fields that are alike stay so when values that are alike are put in front under one key. -/
theorem Json.Alike.get?_cons {k key : Text} {v w : Json} {fields others : Fields} (hv : Alike v w)
    (h : Option.Rel Alike (fields.get? key) (others.get? key)) :
    Option.Rel Alike (Fields.get? ((k, v) :: fields) key) (Fields.get? ((k, w) :: others) key) := by
  rw [Fields.get?, Fields.get?, List.lookup_cons, List.lookup_cons]
  split
  · exact .some hv
  · exact h

namespace Record

/-- Two values have the same **fields**, in whatever order. -/
def SameFields (v w : Json) : Prop :=
  ∀ key, field? v key = field? w key

section SameFields

variable {v w : Json}

theorem SameFields.textAt (h : SameFields v w) (key : Text) :
    Record.textAt key v = Record.textAt key w := by
  rw [Record.textAt, h key]
  rfl

theorem SameFields.isDirectory (h : SameFields v w) :
    Record.isDirectory v = Record.isDirectory w := by
  rw [Record.isDirectory, h.textAt]
  rfl

theorem SameFields.childrenOf (h : SameFields v w) : Record.childrenOf v = Record.childrenOf w := by
  rw [Record.childrenOf, h.isDirectory, h "children"]
  rfl

end SameFields

section AnyFolding

variable [Folding]

/-- A record is **tidy** when it has the fields of the record of a file, or those of the record of a
directory with tidy children whose names are distinct, and no other fields. -/
inductive IsTidy : Json → Prop
  | file {fields : Json.Fields} {name content : Text}
      (exact : SameFields (.object fields) (Record.file name content)) : IsTidy (.object fields)
  | dir {fields : Json.Fields} {name : Text} {children : List Json}
      (exact : SameFields (.object fields) (Record.dir name children))
      (distinct : Distinct (children.map nameOf)) (inside : ∀ c ∈ children, IsTidy c) :
      IsTidy (.object fields)

/-- A record is **canonical** when it is tidy and all its fields stand in order. -/
inductive IsCanonical : Json → Prop
  | file (name content : Text) : IsCanonical (Record.file name content)
  | dir {name : Text} {children : List Json} (distinct : Distinct (children.map nameOf))
      (inside : ∀ c ∈ children, IsCanonical c) : IsCanonical (Record.dir name children)

/-! ### Tidy records -/

/-- The tree of a value with the fields of the record of a file is that file. -/
theorem nodeOf_of_file {v : Json} {name content : Text}
    (h : SameFields v (Record.file name content)) : nodeOf v = .file name content := by
  have hfile : isDirectory v = false := h.isDirectory.trans rfl
  rw [nodeOf_eq, hfile, nameOf, h.textAt, h.textAt]
  rfl

/-- The tree of a value with the fields of the record of a directory, where no two children have the
same name, is the directory with the trees of them all. -/
theorem nodeOf_of_dir {v : Json} {name : Text} {children : List Json}
    (h : SameFields v (Record.dir name children)) (hdistinct : Distinct (children.map nameOf)) :
    nodeOf v = .dir name (children.map nodeOf) := by
  have hdir : isDirectory v = true := h.isDirectory.trans rfl
  have hchildren : Record.childrenOf v = children := h.childrenOf
  rw [nodeOf_eq, hdir, hchildren, kept_eq_self hdistinct, nameOf, h.textAt]
  rfl

/-- A canonical record is the record of its tree. -/
theorem IsCanonical.ofNode_nodeOf {v : Json} (h : IsCanonical v) : ofNode (nodeOf v) = v := by
  induction h with
  | file name content => rw [nodeOf_of_file fun _ => rfl, ofNode]
  | @dir name children distinct inside ih =>
    have hback : (children.map nodeOf).map ofNode = children := by
      rw [List.map_map]
      exact (List.map_congr_left ih).trans (List.map_id children)
    rw [nodeOf_of_dir (fun _ => rfl) distinct, ofNode, ofNodes_eq_map, hback]

/-! ### Up to the order of fields -/

/-- A tidy record is alike the record of its tree. -/
theorem IsTidy.alike_ofNode {v : Json} (h : IsTidy v) : Json.Alike (ofNode (nodeOf v)) v := by
  induction h with
  | @file fields name content exact =>
    rw [nodeOf_of_file exact, ofNode]
    refine .object fun key => ?_
    have hkey : fields.get? key = field? (Record.file name content) key := exact key
    rw [hkey]
    exact Json.Alike.option_refl _
  | @dir fields name children exact distinct inside ih =>
    have heach : List.Forall₂ Json.Alike ((children.map nodeOf).map ofNode) children := by
      rw [List.map_map, List.forall₂_map_left_iff, List.forall₂_same]
      exact ih
    rw [nodeOf_of_dir exact distinct, ofNode, ofNodes_eq_map]
    -- the fields of a record that is written stand in order, and are compared one after the other
    refine .object fun key => ?_
    have hkey : fields.get? key = field? (Record.dir name children) key := exact key
    rw [hkey]
    refine Json.Alike.get?_cons (.refl _) (Json.Alike.get?_cons (.refl _) ?_)
    exact Json.Alike.get?_cons (.list heach) .none

/-! ### Normal forms -/

/-- A node is read back from its record. -/
theorem decode_encode {n : Node} (hname : n.name ≠ []) (hnamed : n.IsNamed)
    (hdistinct : n.AllNames Distinct) : decode (encode n) = .ok n := by
  rw [encode_eq]
  exact decode_ofNode hname hdistinct hnamed

/-- What was read is read back from its record, whatever record it was read from. -/
theorem decode_encode_of_decode {v : Json} {n : Node} (h : decode v = .ok n) :
    decode (encode n) = .ok n := by
  obtain ⟨haccepted, hnode⟩ := decode_eq_ok_iff.mp h
  have hname : n.name ≠ [] := by
    rw [hnode, name_nodeOf]
    exact nameOf_ne_nil (isAccepted_iff.mp haccepted v List.mem_cons_self)
  exact decode_encode hname (named_of_decode h) (distinct_of_decode h)

/-- **Loading normalizes.** Reading undoes writing, for nodes and for trees. So every record that is
accepted has a normal form that is accepted and is its own normal form; a tidy record is alike its
normal form, and a canonical one is equal to it. -/
theorem loading_normalizes :
    (∀ n : Node, n.name ≠ [] → n.IsNamed → n.AllNames Distinct → decode (encode n) = .ok n) ∧
    (∀ t : Tree, t.root.IsNamed → t.root.AllNames Distinct →
      ∃ after, Tree.ofSnapshot t.snapshot = .ok after ∧ after.snapshot = t.snapshot ∧
        after.revision = 0) ∧
    ∀ v n, decode v = .ok n → decode (encode n) = .ok n ∧
      (IsTidy v → Json.Alike (encode n) v) ∧ (IsCanonical v → encode n = v) := by
  refine ⟨fun n => decode_encode, fun t hnamed hdistinct => ?_, fun v n h => ?_⟩
  · exact ⟨_, Tree.ofSnapshot_snapshot hdistinct hnamed, rfl, rfl⟩
  · have hencode : encode n = ofNode (nodeOf v) := by rw [encode_eq, (decode_eq_ok_iff.mp h).2]
    refine ⟨decode_encode_of_decode h, fun htidy => ?_, fun hcanonical => ?_⟩
    · rw [hencode]
      exact htidy.alike_ofNode
    · rw [hencode]
      exact hcanonical.ofNode_nodeOf

end AnyFolding

/-- A directory with a child that is dropped and a field that means nothing, and a file whose fields
stand in another order. -/
theorem loading_normalizes_edited :
    let edited : Json := .object [("type", .str "dir"), ("note", .null),
      ("children", .list [file "a" "x", dir "A" []]), ("name", .str "/")]
    let n : Node := .dir "/" [.file "a" "x"]
    let tidy : Json := .object [("content", .str "x"), ("name", .str "a"), ("type", .str "file")]
    decode (encode Tree.seed.root) = .ok Tree.seed.root ∧
      (∃ after, Tree.ofSnapshot Tree.seed.snapshot = .ok after ∧
        after.snapshot = Tree.seed.snapshot ∧ after.revision = 0) ∧
      decode edited = .ok n ∧ decode (encode n) = .ok n ∧
      decode tidy = .ok (.file "a" "x") ∧ Json.Alike (encode (.file "a" "x")) tidy ∧
      encode (.file "a" "x") = file "a" "x" := by
  intro edited n tidy
  have hedited : decode edited = .ok n := by
    have hcheck : check edited = .ok (.dir "/" [file "a" "x", dir "A" []]) := rfl
    have hsift : sift [] [file "a" "x", dir "A" []] = .ok [.file "a" "x"] := rfl
    rw [decode, hcheck]
    simp only [hsift]
    rw [readOn, readOn]
  have htidy : decode tidy = .ok (.file "a" "x") := rfl
  have hfields : SameFields tidy (file "a" "x") := by
    intro key
    by_cases hname : key = "name"
    · subst hname
      rfl
    by_cases htype : key = "type"
    · subst htype
      rfl
    by_cases hcontent : key = "content"
    · subst hcontent
      rfl
    -- under any other key there is nothing
    simp only [field?, file, tidy, Json.Fields.get?, List.lookup_cons,
      beq_eq_false_iff_ne.mpr hname, beq_eq_false_iff_ne.mpr htype,
      beq_eq_false_iff_ne.mpr hcontent]
  refine ⟨?_, ?_, hedited, ?_, htidy, ?_, ?_⟩
  · exact loading_normalizes.1 _ (by decide) Tree.named_seed Tree.distinct_seed
  · exact loading_normalizes.2.1 _ Tree.named_seed Tree.distinct_seed
  · exact (loading_normalizes.2.2 edited n hedited).1
  · exact (loading_normalizes.2.2 tidy _ htidy).2.1 (.file hfields)
  · exact (loading_normalizes.2.2 (file "a" "x") _ rfl).2.2 (.file _ _)

end Record

end DosConsole
