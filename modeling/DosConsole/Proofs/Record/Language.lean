import DosConsole.Proofs.Tree.Names
import DosConsole.Tree.Record

/-!
# The language of records

A value is **valid by itself** when it has the shape of the record of a node (`IsShallow`); this
says nothing about the records of the children. Of these, the first one of each name is **kept**. A
record is **accepted** when it is valid by itself, the records of its children are, the dropped ones
included, and the kept ones are accepted. What lies below a dropped record does not matter.

The definitions follow the records recursively and say nothing of how they are read. The tree of the
kept records is `nodeOf`, in which names are distinct whatever the record is (`distinct_nodeOf`).
The records that matter are listed by `visited`, in the order in which they are checked: they are
all valid by themselves just when the record is accepted (`isAccepted_iff`).
-/

namespace DosConsole.Record

/-- A value is **valid by itself** as the record of a node: it is an object with a name that is not
empty, and it has the type of a file with a text for its content, or that of a directory with a list
of children. The content and the children may be missing or null. -/
def IsShallow (v : Json) : Prop :=
  ∃ (fields : Json.Fields) (name : Text), v = .object fields ∧
    fields.get? "name" = some (.str name) ∧ name ≠ [] ∧
    ((fields.get? "type" = some (.str "file") ∧
        (fields.get? "content" = none ∨ fields.get? "content" = some .null ∨
          ∃ content, fields.get? "content" = some (.str content))) ∨
      (fields.get? "type" = some (.str "dir") ∧
        (fields.get? "children" = none ∨ fields.get? "children" = some .null ∨
          ∃ children, fields.get? "children" = some (.list children))))

/-! ### What a record says -/

/-- The value that a record has under a key. -/
def field? (v : Json) (key : Text) : Option Json :=
  match v with
  | .object fields => Json.Fields.get? fields key
  | _ => none

/-- The text that a record has under a key, empty if it has none. -/
def textAt (key : Text) (v : Json) : Text :=
  match field? v key with
  | some (.str t) => t
  | _ => []

/-- The name in a record. -/
abbrev nameOf : Json → Text :=
  textAt "name"

/-- The record has the type of a directory. -/
def isDirectory (v : Json) : Bool :=
  textAt "type" v == "dir"

/-- The records of the children of a directory; a file has none. -/
def childrenOf (v : Json) : List Json :=
  match isDirectory v, field? v "children" with
  | true, some (.list children) => children
  | _, _ => []

theorem nameOf_ne_nil {v : Json} (h : IsShallow v) : nameOf v ≠ [] := by
  obtain ⟨fields, name, rfl, hname, hne, -⟩ := h
  rw [nameOf, textAt, field?, hname]
  exact hne

theorem childrenOf_of_file {v : Json} (h : isDirectory v = false) : childrenOf v = [] := by
  rw [childrenOf, h]

theorem sizeOf_childrenOf_le (v : Json) : sizeOf (childrenOf v) ≤ sizeOf v := by
  rw [childrenOf]
  split
  · rename_i children _ hfield
    cases v with
    | object fields =>
      have hfields := sizeOf_lt_of_get? hfield
      simp only [Json.list.sizeOf_spec] at hfields
      simp only [Json.object.sizeOf_spec]
      omega
    | _ => exact absurd hfield (by simp [field?])
  · rw [List.nil.sizeOf_spec]
    cases v <;> simp +arith

theorem sizeOf_lt_of_mem_childrenOf {v c : Json} (h : c ∈ childrenOf v) : sizeOf c < sizeOf v :=
  Nat.lt_of_lt_of_le (List.sizeOf_lt_of_mem h) (sizeOf_childrenOf_le v)

/-- The entry that a record stands for. -/
def entryOf (v : Json) : Entry :=
  if isDirectory v then .dir (nameOf v) (childrenOf v) else .file (nameOf v) (textAt "content" v)

theorem name_entryOf (v : Json) : (entryOf v).name = nameOf v := by
  rw [entryOf]
  split
  · rfl
  · rfl

variable [Folding]

/-! ### Records that are kept -/

/-- The records whose names are neither among the given ones nor those of earlier kept records. -/
def keptBeside (names : List Text) : List Json → List Json
  | [] => []
  | v :: rest =>
    if names.any (sameName · (nameOf v)) then keptBeside names rest
    else v :: keptBeside (nameOf v :: names) rest

/-- The records that are **kept** among siblings: those without the name of an earlier kept one. -/
def kept (records : List Json) : List Json :=
  keptBeside [] records

theorem keptBeside_sublist (names : List Text) (records : List Json) :
    (keptBeside names records).Sublist records := by
  induction records generalizing names with
  | nil => exact .slnil
  | cons v rest ih =>
    rw [keptBeside]
    split
    · exact (ih names).cons v
    · exact (ih _).cons_cons v

theorem mem_of_mem_kept {v : Json} {records : List Json} (h : v ∈ kept records) : v ∈ records :=
  (keptBeside_sublist [] records).subset h

/-- No two kept records have the same name, nor one of the given names. -/
theorem distinct_keptBeside (names : List Text) (records : List Json) :
    Distinct ((keptBeside names records).map nameOf) ∧
      ∀ v ∈ keptBeside names records, ∀ name ∈ names,
        Folding.fold name ≠ Folding.fold (nameOf v) := by
  induction records generalizing names with
  | nil => exact ⟨.nil, fun v hv => absurd hv List.not_mem_nil⟩
  | cons v rest ih =>
    rw [keptBeside]
    split
    -- a record that is dropped adds no name to those that are taken
    · exact ih names
    · rename_i hnew
      have hfree : ∀ name ∈ names, Folding.fold name ≠ Folding.fold (nameOf v) := by
        intro name hname heq
        exact hnew (List.any_eq_true.mpr ⟨name, hname, sameName_iff.mpr heq⟩)
      obtain ⟨hrest, hothers⟩ := ih (nameOf v :: names)
      refine ⟨List.pairwise_cons.mpr ⟨fun name hname => ?_, hrest⟩, fun w hw name hname => ?_⟩
      · obtain ⟨w, hw, rfl⟩ := List.mem_map.mp hname
        exact hothers w hw (nameOf v) List.mem_cons_self
      · rcases List.mem_cons.mp hw with rfl | hw
        · exact hfree name hname
        · exact hothers w hw name (List.mem_cons_of_mem _ hname)

/-! ### The tree of a record -/

/-- The tree of the kept records. -/
def nodeOf (v : Json) : Node :=
  if isDirectory v then
    .dir (nameOf v) ((kept (childrenOf v)).attach.map fun c => nodeOf c.1)
  else .file (nameOf v) (textAt "content" v)
termination_by sizeOf v
decreasing_by
  exact sizeOf_lt_of_mem_childrenOf (mem_of_mem_kept c.2)

theorem nodeOf_eq (v : Json) :
    nodeOf v = if isDirectory v then .dir (nameOf v) ((kept (childrenOf v)).map nodeOf)
      else .file (nameOf v) (textAt "content" v) := by
  rw [nodeOf, List.attach_map_val]

theorem name_nodeOf (v : Json) : (nodeOf v).name = nameOf v := by
  rw [nodeOf_eq]
  split
  · rfl
  · rfl

theorem map_name_nodeOf (records : List Json) :
    (records.map nodeOf).map Node.name = records.map nameOf := by
  rw [List.map_map]
  exact List.map_congr_left fun c _ => name_nodeOf c

/-- The names in the tree of a record are distinct, whatever the record is. -/
theorem distinct_nodeOf (v : Json) : (nodeOf v).AllNames Distinct := by
  induction hsize : sizeOf v using Nat.strong_induction_on generalizing v with
  | _ size ih =>
    subst hsize
    rw [nodeOf_eq]
    split
    · refine .dir ?_ fun n hn => ?_
      · rw [map_name_nodeOf]
        exact (distinct_keptBeside [] _).1
      · obtain ⟨c, hc, rfl⟩ := List.mem_map.mp hn
        exact ih _ (sizeOf_lt_of_mem_childrenOf (mem_of_mem_kept hc)) c rfl
    · exact .file _ _

/-! ### The order of visits -/

/-- The records below a directory with the given records for its children, in the order in which
they are checked: first all of these, and then what lies below the kept ones, the last first. -/
def visitedBelow (records : List Json) : List Json :=
  records ++ (kept records).reverse.attach.flatMap fun c => visitedBelow (childrenOf c.1)
termination_by sizeOf records
decreasing_by
  have hc : c.1 ∈ records := mem_of_mem_kept (List.mem_reverse.mp c.2)
  exact Nat.lt_of_le_of_lt (sizeOf_childrenOf_le c.1) (List.sizeOf_lt_of_mem hc)

theorem visitedBelow_eq (records : List Json) :
    visitedBelow records =
      records ++ (kept records).reverse.flatMap fun c => visitedBelow (childrenOf c) := by
  rw [visitedBelow, List.flatMap_def, List.flatMap_def]
  rw [List.attach_map_val (f := fun c => visitedBelow (childrenOf c))]

/-- A record and those below it, in the order in which they are checked. -/
def visited (v : Json) : List Json :=
  v :: visitedBelow (childrenOf v)

/-- A record is **accepted** when it is valid by itself, all the records of its children are, and
the kept ones are accepted. -/
inductive IsAccepted : Json → Prop
  | intro {v : Json} (shallow : IsShallow v) (entries : ∀ c ∈ childrenOf v, IsShallow c)
      (inside : ∀ c ∈ kept (childrenOf v), isDirectory c = true → IsAccepted c) : IsAccepted v

theorem visitedBelow_nil : visitedBelow [] = [] := by
  rw [visitedBelow_eq]
  rfl

/-- The names in the tree of an accepted record are not empty. -/
theorem named_nodeOf {v : Json} (h : IsAccepted v) : (nodeOf v).IsNamed := by
  induction h with
  | @intro v _ entries _ ih =>
    rw [nodeOf_eq]
    split
    · refine .dir ?_ fun n hn => ?_
      · rw [map_name_nodeOf]
        intro a ha
        obtain ⟨c, hc, rfl⟩ := List.mem_map.mp ha
        exact nameOf_ne_nil (entries c (mem_of_mem_kept hc))
      · obtain ⟨c, hc, rfl⟩ := List.mem_map.mp hn
        by_cases hdir : isDirectory c = true
        · exact ih c hc hdir
        · rw [nodeOf_eq, if_neg hdir]
          exact .file _ _
    · exact .file _ _

/-- **Acceptance.** A record is accepted just when all that are visited are valid by themselves. -/
theorem isAccepted_iff {v : Json} : IsAccepted v ↔ ∀ r ∈ visited v, IsShallow r := by
  constructor
  · intro h
    induction h with
    | intro shallow entries inside ih =>
      intro r hr
      rw [visited, visitedBelow_eq] at hr
      rcases List.mem_cons.mp hr with rfl | hr
      · exact shallow
      rcases List.mem_append.mp hr with hr | hr
      · exact entries r hr
      · obtain ⟨c, hc, hr⟩ := List.mem_flatMap.mp hr
        rw [List.mem_reverse] at hc
        by_cases hdir : isDirectory c = true
        · exact ih c hc hdir r (List.mem_cons_of_mem _ hr)
        · rw [childrenOf_of_file (Bool.eq_false_iff.mpr hdir), visitedBelow_nil] at hr
          exact absurd hr List.not_mem_nil
  · intro h
    induction hsize : sizeOf v using Nat.strong_induction_on generalizing v with
    | _ size ih =>
      subst hsize
      rw [visited, visitedBelow_eq] at h
      refine .intro (h v List.mem_cons_self) (fun c hc => ?_) fun c hc _ => ?_
      · exact h c (List.mem_cons_of_mem _ (List.mem_append_left _ hc))
      · have hin := mem_of_mem_kept hc
        refine ih _ (sizeOf_lt_of_mem_childrenOf hin) (fun r hr => ?_) rfl
        refine h r (List.mem_cons_of_mem _ ?_)
        rcases List.mem_cons.mp hr with rfl | hr
        · exact List.mem_append_left _ hin
        · exact List.mem_append_right _ (List.mem_flatMap.mpr ⟨c, List.mem_reverse.mpr hc, hr⟩)

end DosConsole.Record
