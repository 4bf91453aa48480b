import DosConsole.Proofs.Tree.Lookup

/-!
# The names in every directory

`AllNames P` says of a node that in every directory of its subtree, at whatever depth, the names of
the children satisfy `P`. The names are **distinct** when no two of them fold alike, and a node is
**named** when none of them is empty.

Where names are distinct, the names on the way down to a node find that node (`Leads.walk?_eq`).

An operation adds one name that no other entry has, or takes one away. Hence every property of
names that is kept by these two changes (`NameRule`) stays true of the whole tree, wherever the
operation is carried out (`allNames_edit`). Distinctness is such a property, and so is everything
that is asked of each name by itself.
-/

namespace DosConsole

/-- In every directory of the subtree the names of the children, in order, satisfy `P`. -/
inductive Node.AllNames (P : List Text → Prop) : Node → Prop
  | file (name content : Text) : AllNames P (.file name content)
  | dir {name : Text} {children : List Node} (names : P (children.map Node.name))
      (inside : ∀ n ∈ children, AllNames P n) : AllNames P (.dir name children)

/-- The node is **named**: in every directory of its subtree no name is empty. -/
abbrev Node.IsNamed (n : Node) : Prop :=
  n.AllNames fun names => ∀ a ∈ names, a ≠ []

/-- Names are **distinct** when their folded forms are pairwise different. -/
def Distinct [Folding] (names : List Text) : Prop :=
  names.Pairwise fun a b => Folding.fold a ≠ Folding.fold b

instance [Folding] (names : List Text) : Decidable (Distinct names) :=
  inferInstanceAs (Decidable (names.Pairwise _))

/-- The name of the entry that an operation would make. -/
def Edit.newName? : Edit → Option Text
  | .makeDirectory name | .makeFile name => some name
  | .remove _ _ => none

variable {P : List Text → Prop}

namespace Node.AllNames

theorem names {name : Text} {children : List Node} (h : AllNames P (.dir name children)) :
    P (children.map Node.name) := by
  cases h with
  | dir names _ => exact names

theorem inside {name : Text} {children : List Node} (h : AllNames P (.dir name children)) :
    ∀ n ∈ children, AllNames P n := by
  cases h with
  | dir _ inside => exact inside

variable [Folding]

/-- What holds in every directory holds below every node that a path finds. -/
theorem walk? {n m : Node} {path : List Text} (h : AllNames P n) (hm : n.walk? path = some m) :
    AllNames P m := by
  induction path generalizing n with
  | nil =>
    obtain rfl : n = m := Option.some.inj hm
    exact h
  | cons s rest ih =>
    cases n with
    | file => rw [walk?_cons_file] at hm; exact absurd hm (by simp)
    | dir name children =>
      rw [walk?_cons_dir] at hm
      obtain ⟨c, hc, hcm⟩ := Option.bind_eq_some_iff.mp hm
      exact ih (h.inside c (mem_of_child? hc).1) hcm

end Node.AllNames

/-- The way down from a node to a node of its subtree, by the names as they are stored. -/
inductive Node.Leads : Node → List Text → Node → Prop
  | here (n : Node) : Leads n [] n
  | down {name : Text} {children : List Node} {c m : Node} {path : List Text}
      (entry : c ∈ children) (below : Leads c path m) :
      Leads (.dir name children) (c.name :: path) m

/-- What is asked of each name holds of the names on the way down. -/
theorem Node.Leads.forall_names {Q : Text → Prop} {n m : Node} {path : List Text}
    (h : Leads n path m) (hn : n.AllNames fun names => ∀ a ∈ names, Q a) : ∀ s ∈ path, Q s := by
  induction h with
  | here => exact fun s hs => absurd hs List.not_mem_nil
  | down entry below ih =>
    intro s hs
    rcases List.mem_cons.mp hs with rfl | hs
    · exact hn.names _ (List.mem_map_of_mem entry)
    · exact ih (hn.inside _ entry) s hs

variable [Folding]

namespace Node

/-- After a child was changed, an entry is one of the others or the changed one. -/
theorem mem_alterChild {change : Node → Node} {s : Text} {nodes : List Node} {n : Node}
    (h : n ∈ alterChild s change nodes) :
    n ∈ nodes ∨ ∃ c, child? nodes s = some c ∧ n = change c := by
  induction nodes with
  | nil => exact .inl h
  | cons m rest ih =>
    rw [alterChild] at h
    rw [child?_cons]
    split at h
    · rename_i hm
      rcases List.mem_cons.mp h with rfl | h
      · exact .inr ⟨m, if_pos (sameName_iff.mp hm), rfl⟩
      · exact .inl (List.mem_cons_of_mem _ h)
    · rename_i hm
      rcases List.mem_cons.mp h with rfl | h
      · exact .inl List.mem_cons_self
      · rw [if_neg (mt sameName_iff.mpr hm)]
        exact (ih h).imp_left (List.mem_cons_of_mem _)

/-- A change in place that keeps names is felt only in the directories of the changed node. -/
theorem AllNames.alter {change : Node → Node} (hname : ∀ n, (change n).name = n.name)
    {path : List Text} {n m : Node} (hn : n.AllNames P) (hm : n.walk? path = some m)
    (hchange : (change m).AllNames P) : (n.alter change path).AllNames P := by
  induction path generalizing n with
  | nil =>
    obtain rfl : n = m := Option.some.inj hm
    exact hchange
  | cons s rest ih =>
    cases n with
    | file => rw [walk?_cons_file] at hm; exact absurd hm (by simp)
    | dir name children =>
      rw [walk?_cons_dir] at hm
      obtain ⟨c, hc, hcm⟩ := Option.bind_eq_some_iff.mp hm
      rw [Node.alter]
      -- the names on the way stay, and only the child that leads on is another one
      refine .dir ?_ fun k hk => ?_
      · rw [map_name_alterChild fun k => name_alter hname rest k]
        exact hn.names
      · rcases mem_alterChild hk with hk | ⟨d, hd, rfl⟩
        · exact hn.inside k hk
        · obtain rfl : c = d := Option.some.inj (hc.symm.trans hd)
          exact ih (hn.inside c (mem_of_child? hc).1) hcm

end Node

/-! ### Names on the way down -/

namespace Node

/-- Where names are distinct every entry is found under its name. -/
theorem child?_name {nodes : List Node} (h : Distinct (nodes.map Node.name)) {c : Node}
    (hc : c ∈ nodes) : child? nodes c.name = some c := by
  induction nodes with
  | nil => exact absurd hc List.not_mem_nil
  | cons n rest ih =>
    obtain ⟨hfirst, hrest⟩ := List.pairwise_cons.mp h
    rw [child?_cons]
    rcases List.mem_cons.mp hc with rfl | hc
    · rw [if_pos rfl]
    · rw [if_neg (hfirst c.name (List.mem_map_of_mem hc)), ih hrest hc]

/-- Where names are distinct the way down is found again. -/
theorem Leads.walk?_eq {n m : Node} {path : List Text} (h : Leads n path m)
    (hn : n.AllNames Distinct) : n.walk? path = some m := by
  induction h with
  | here => rfl
  | down entry below ih =>
    rw [walk?_cons_dir, child?_name hn.names entry, Option.bind_some]
    exact ih (hn.inside _ entry)

end Node

/-! ### What an operation does -/

namespace Edit

variable {children : List Node} {name : Text} {n : Node} {changed : Option (List Node)}

/-- A directory is made where no entry has its name. -/
theorem apply_makeDirectory_eq_ok_iff :
    (makeDirectory name).apply children = .ok (n, changed) ↔
      Node.child? children name = none ∧ n = .dir name [] ∧ changed = some (children ++ [n]) := by
  rw [apply, Node.hasChild_eq_isSome]
  cases hc : Node.child? children name with
  | some m => simp
  | none =>
    constructor
    · intro h
      obtain ⟨rfl, rfl⟩ : Node.dir name [] = n ∧ some (children ++ [.dir name []]) = changed := by
        simpa using h
      exact ⟨rfl, rfl, rfl⟩
    · rintro ⟨-, rfl, rfl⟩
      rfl

/-- A file is made where no entry has its name, and found where it is one. -/
theorem apply_makeFile_eq_ok_iff :
    (makeFile name).apply children = .ok (n, changed) ↔
      (Node.child? children name = none ∧ n = .file name [] ∧ changed = some (children ++ [n])) ∨
      (Node.child? children name = some n ∧ n.isDir = false ∧ changed = none) := by
  rw [apply]
  cases hc : Node.child? children name with
  | none =>
    constructor
    · intro h
      obtain ⟨rfl, rfl⟩ : Node.file name [] = n ∧ some (children ++ [.file name []]) = changed := by
        simpa using h
      exact .inl ⟨rfl, rfl, rfl⟩
    · rintro (⟨-, rfl, rfl⟩ | ⟨hsome, -⟩)
      · rfl
      · exact absurd hsome (by simp)
  | some m =>
    cases m with
    | file a content =>
      constructor
      · intro h
        obtain ⟨rfl, rfl⟩ : Node.file a content = n ∧ none = changed := by simpa using h
        exact .inr ⟨rfl, rfl, rfl⟩
      · rintro (⟨hnone, -⟩ | ⟨hsome, -, rfl⟩)
        · exact absurd hnone (by simp)
        · obtain rfl := Option.some.inj hsome
          rfl
    | dir a inner =>
      constructor
      · intro h
        exact absurd h (by simp)
      · rintro (⟨hnone, -⟩ | ⟨hsome, hfile, -⟩)
        · exact absurd hnone (by simp)
        · obtain rfl := Option.some.inj hsome
          exact absurd hfile (by simp [Node.isDir])

/-- An entry that is there is removed, unless it has children and may not. -/
theorem apply_remove_eq_ok_iff {recursive : Bool} :
    (remove name recursive).apply children = .ok (n, changed) ↔
      Node.child? children name = some n ∧ (recursive = true ∨ n.children = []) ∧
        changed = some (children.eraseP fun c => sameName c.name name) := by
  rw [apply]
  cases hc : Node.child? children name with
  | none => simp
  | some m =>
    by_cases hkeep : recursive = true ∨ m.children = []
    · have hno : ¬ (!recursive && !m.children.isEmpty) = true := by
        rcases hkeep with h | h
        · simp [h]
        · simp [h]
      simp only [if_neg hno]
      constructor
      · intro h
        obtain ⟨rfl, rfl⟩ :
            m = n ∧ some (children.eraseP fun c => sameName c.name name) = changed := by
          simpa using h
        exact ⟨rfl, hkeep, rfl⟩
      · rintro ⟨hsome, -, rfl⟩
        obtain rfl := Option.some.inj hsome
        rfl
    · have hyes : (!recursive && !m.children.isEmpty) = true := by simpa using hkeep
      simp only [if_pos hyes]
      constructor
      · intro h
        exact absurd h (by simp)
      · rintro ⟨hsome, hn, -⟩
        obtain rfl := Option.some.inj hsome
        exact absurd hn hkeep

/-- An operation that changes the entries adds an empty one under a name that none of them has, or
takes the first one of a name away. -/
theorem apply_cases {after : List Node} {e : Edit} (h : e.apply children = .ok (n, some after)) :
    (e.newName? = some n.name ∧ Node.child? children n.name = none ∧ n.children = [] ∧
      after = children ++ [n]) ∨
    ∃ name, Node.child? children name = some n ∧
      after = children.eraseP fun c => sameName c.name name := by
  cases e with
  | makeDirectory name =>
    obtain ⟨hfree, rfl, hafter⟩ := apply_makeDirectory_eq_ok_iff.mp h
    exact .inl ⟨rfl, hfree, rfl, Option.some.inj hafter⟩
  | makeFile name =>
    rcases apply_makeFile_eq_ok_iff.mp h with ⟨hfree, rfl, hafter⟩ | ⟨-, -, hafter⟩
    · exact .inl ⟨rfl, hfree, rfl, Option.some.inj hafter⟩
    · exact absurd hafter (by simp)
  | remove name recursive =>
    obtain ⟨hfound, -, hafter⟩ := apply_remove_eq_ok_iff.mp h
    exact .inr ⟨name, hfound, Option.some.inj hafter⟩

end Edit

namespace Tree

/-- An operation that is carried out found a directory, and left the tree alone or gave that
directory the entries that come of it. -/
theorem edit_eq_ok_iff {t after : Tree} {names : List Text} {n entry : Node} {e : Edit} :
    t.edit names n e = .ok (entry, after) ↔
      ∃ name children changed, n = .dir name children ∧
        e.apply children = .ok (entry, changed) ∧ after = changed.elim t (t.refill names) := by
  constructor
  · intro h
    cases n with
    | file name content => exact absurd h (by simp [edit])
    | dir name children =>
      rw [edit] at h
      split at h
      · exact absurd h (by simp)
      · rename_i m hm
        obtain ⟨rfl, rfl⟩ : m = entry ∧ t = after := by simpa using h
        exact ⟨name, children, none, rfl, hm, rfl⟩
      · rename_i m changed hm
        obtain ⟨rfl, rfl⟩ : m = entry ∧ t.refill names changed = after := by simpa using h
        exact ⟨name, children, some changed, rfl, hm, rfl⟩
  · rintro ⟨name, children, changed, rfl, happly, rfl⟩
    rw [edit, happly]
    cases changed with
    | none => rfl
    | some after => rfl

/-- An operation that is carried out at a path found a directory there. -/
theorem editAt_eq_ok_iff {t after : Tree} {path : Text} {entry : Node} {e : Edit} :
    t.editAt path e = .ok (entry, after) ↔
      ∃ name children changed, t.resolve? path = some (.dir name children) ∧
        e.apply children = .ok (entry, changed) ∧
        after = changed.elim t (t.refill (Path.segments path)) := by
  rw [editAt, get]
  cases t.resolve? path with
  | none => simp
  | some n =>
    refine edit_eq_ok_iff.trans ⟨?_, ?_⟩
    · rintro ⟨name, children, changed, rfl, happly, hafter⟩
      exact ⟨name, children, changed, rfl, happly, hafter⟩
    · rintro ⟨name, children, changed, heq, happly, hafter⟩
      exact ⟨name, children, changed, Option.some.inj heq, happly, hafter⟩

/-- Giving a directory other children is a change in place. -/
theorem root_refill (t : Tree) (names : List Text) (children : List Node) :
    (t.refill names children).root = t.root.alter (·.mapChildren fun _ => children) names := by
  cases names with
  | nil => rfl
  | cons s rest => rfl

end Tree

/-! ### Rules for names -/

/-- A property `P` of the names in a directory is a **rule** for new names with the property `Q`
when taking entries away keeps it, and so does adding a name with that property that folds unlike
all others. -/
structure NameRule (P : List Text → Prop) (Q : Text → Prop) : Prop where
  sublist : ∀ {names fewer : List Text}, fewer.Sublist names → P names → P fewer
  append : ∀ {names : List Text} {name : Text}, P names →
    (∀ a ∈ names, Folding.fold a ≠ Folding.fold name) → Q name → P (names ++ [name])

/-- Distinct names stay distinct, whatever the new names are. -/
theorem nameRule_distinct : NameRule Distinct fun _ => True where
  sublist hsub h := h.sublist hsub
  append h hnew _ := List.pairwise_append.mpr
    ⟨h, List.pairwise_singleton _ _, fun a ha _ hb => List.mem_singleton.mp hb ▸ hnew a ha⟩

/-- A property that is asked of each name by itself is kept by new names that have it. -/
theorem nameRule_each (Q : Text → Prop) : NameRule (fun names => ∀ a ∈ names, Q a) Q where
  sublist hsub h a ha := h a (hsub.subset ha)
  append h _ hQ a ha := by
    rcases List.mem_append.mp ha with ha | ha
    · exact h a ha
    · exact List.mem_singleton.mp ha ▸ hQ

variable {Q : Text → Prop}

/-- **Operations keep the rules.** Carried out at whatever place, an operation keeps a rule for
names in every directory. -/
theorem NameRule.allNames_edit (rule : NameRule P Q) {t after : Tree} {names : List Text}
    {n entry : Node} {e : Edit} (ht : t.root.AllNames P) (hn : t.root.walk? names = some n)
    (he : ∀ name ∈ e.newName?, Q name) (h : t.edit names n e = .ok (entry, after)) :
    after.root.AllNames P := by
  obtain ⟨name, children, changed, rfl, happly, rfl⟩ := Tree.edit_eq_ok_iff.mp h
  cases changed with
  | none => exact ht
  | some changed =>
    have hdir := ht.walk? hn
    rw [Option.elim_some, Tree.root_refill]
    refine ht.alter (Node.name_mapChildren _) hn ?_
    -- it remains to look at the one directory that has other children
    rcases Edit.apply_cases happly with ⟨hnew, hfree, hempty, rfl⟩ | ⟨gone, -, rfl⟩
    · refine .dir ?_ fun k hk => ?_
      · rw [List.map_append, List.map_singleton]
        refine rule.append hdir.names (fun a ha => ?_) (he _ hnew)
        obtain ⟨k, hk, rfl⟩ := List.mem_map.mp ha
        exact Node.child?_eq_none_iff.mp hfree k hk
      · rcases List.mem_append.mp hk with hk | hk
        · exact hdir.inside k hk
        · obtain rfl := List.mem_singleton.mp hk
          cases k with
          | file name content => exact .file name content
          | dir name inner =>
            obtain rfl : inner = [] := hempty
            have hnil : P [] := rule.sublist (List.nil_sublist _) hdir.names
            exact .dir hnil fun m hm => absurd hm List.not_mem_nil
    · have hsub : (children.eraseP fun c => sameName c.name gone).Sublist children :=
        List.eraseP_sublist
      exact .dir (rule.sublist (hsub.map _) hdir.names) fun k hk => hdir.inside k (hsub.subset hk)

end DosConsole
