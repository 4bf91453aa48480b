import DosConsole.Proofs.Tree.Names

/-!
# Acts on a tree

Whoever works with a tree does one **act** after the other: an operation on some node, or a new
start. An act that fails leaves the tree as it is; one that changes the tree counts, so that a
tree whose revision is the same after a row of acts is the same tree (`actAll_eq_of_revision`).

Since every act keeps the rules for names, so does every row of acts (`NameRule.allNames_actAll`).
-/

namespace DosConsole

namespace Tree

/-- What may be done to a tree. -/
inductive Act where
  /-- An operation on the node at the end of a path of names, if there is one. -/
  | edit (place : List Text) (operation : Edit)
  | reset
  /-- An operation on a directory that was taken out of the tree before: it counts, and nothing of
  it shows. -/
  | detached

/-- The name of the entry that an act would make. -/
def Act.newName? : Act → Option Text
  | .edit _ operation => operation.newName?
  | .reset | .detached => none

/-- A new tree obeys a rule for names when its two directories do. -/
theorem allNames_seed {P : List Text → Prop} (hroot : P ["AUTOEXEC.BAT", "README.TXT", "GAMES"])
    (hgames : P ["README.TXT"]) : seed.root.AllNames P := by
  refine .dir hroot fun n hn => ?_
  have hcases : n = .file "AUTOEXEC.BAT" "rem MS-DOS-like environment\n" ∨
      n = .file "README.TXT" "This is a simulated MS-DOS environment.\nUse DIR, CD, TYPE etc." ∨
      n = .dir "GAMES" [.file "README.TXT" "This is the GAMES folder."] := by
    simpa [seed, seedEntries] using hn
  rcases hcases with rfl | rfl | rfl
  · exact .file _ _
  · exact .file _ _
  · refine .dir hgames fun m hm => ?_
    obtain rfl := List.mem_singleton.mp hm
    exact .file _ _

/-- Under the folding to upper case the names of a new tree are distinct. -/
theorem distinct_seed : seed.root.AllNames Distinct :=
  allNames_seed (by decide) (by decide)

/-- No name in a new tree is empty. -/
theorem named_seed : seed.root.IsNamed :=
  allNames_seed (by decide) (by decide)

variable [Folding]

/-- The tree after an act. -/
def act (t : Tree) : Act → Tree
  | .edit place operation =>
    match t.root.walk? place with
    | none => t
    | some n =>
      match t.edit place n operation with
      | .error _ => t
      | .ok (_, after) => after
  | .reset => t.reset
  | .detached => ⟨t.entries, t.revision + 1⟩

/-- The tree after acts that are done one after the other. -/
def actAll (t : Tree) (acts : List Act) : Tree :=
  acts.foldl act t

@[simp] theorem actAll_nil (t : Tree) : t.actAll [] = t := rfl

@[simp] theorem actAll_cons (t : Tree) (a : Act) (acts : List Act) :
    t.actAll (a :: acts) = (t.act a).actAll acts := rfl

theorem actAll_append (t : Tree) (acts more : List Act) :
    t.actAll (acts ++ more) = (t.actAll acts).actAll more :=
  List.foldl_append

/-- An operation that is carried out is an act. -/
theorem act_edit {t after : Tree} {place : List Text} {operation : Edit} {n entry : Node}
    (hn : t.root.walk? place = some n) (h : t.edit place n operation = .ok (entry, after)) :
    t.act (.edit place operation) = after := by
  rw [act, hn]
  simp only [h]

/-- An operation that is carried out at a path is an act at its segments. -/
theorem act_of_editAt {t after : Tree} {path : Text} {operation : Edit} {entry : Node}
    (h : t.editAt path operation = .ok (entry, after)) :
    t.act (.edit (Path.segments path) operation) = after := by
  obtain ⟨name, children, changed, hdir, happly, hafter⟩ := editAt_eq_ok_iff.mp h
  exact act_edit hdir (edit_eq_ok_iff.mpr ⟨name, children, changed, rfl, happly, hafter⟩)

/-! ### Counting -/

/-- An act leaves the tree alone, or it counts. -/
theorem act_cases (t : Tree) (a : Act) : t.act a = t ∨ (t.act a).revision = t.revision + 1 := by
  cases a with
  | edit place operation =>
    cases hn : t.root.walk? place with
    | none => exact .inl (by rw [act, hn])
    | some n =>
      cases h : t.edit place n operation with
      | error => exact .inl (by rw [act, hn]; simp only [h])
      | ok result =>
        obtain ⟨entry, after⟩ := result
        rw [act_edit hn h]
        obtain ⟨_, _, changed, -, -, rfl⟩ := edit_eq_ok_iff.mp h
        cases changed with
        | none => exact .inl rfl
        | some children => exact .inr rfl
  | reset => exact .inr rfl
  | detached => exact .inr rfl

theorem revision_le_actAll (t : Tree) (acts : List Act) :
    t.revision ≤ (t.actAll acts).revision := by
  induction acts generalizing t with
  | nil => exact Nat.le_refl _
  | cons a acts ih =>
    have hrest := ih (t.act a)
    rw [actAll_cons]
    rcases t.act_cases a with h | h
    · rw [h] at hrest ⊢
      exact hrest
    · omega

/-- **The revision tells the truth.** Acts that leave the revision as it was leave the tree as it
was. -/
theorem actAll_eq_of_revision {t : Tree} {acts : List Act}
    (h : (t.actAll acts).revision = t.revision) : t.actAll acts = t := by
  induction acts generalizing t with
  | nil => rfl
  | cons a acts ih =>
    rw [actAll_cons] at h ⊢
    rcases t.act_cases a with ha | ha
    · rw [ha] at h ⊢
      exact ih h
    · -- an act that counts is not made up for by later ones
      have hle := revision_le_actAll (t.act a) acts
      omega

end Tree

variable [Folding] {P : List Text → Prop} {Q : Text → Prop}

/-- An act keeps a rule for names, provided that a new tree obeys it. -/
theorem NameRule.allNames_act (rule : NameRule P Q) (hseed : Tree.seed.root.AllNames P)
    {t : Tree} {a : Tree.Act} (ht : t.root.AllNames P) (ha : ∀ name ∈ a.newName?, Q name) :
    (t.act a).root.AllNames P := by
  cases a with
  | edit place operation =>
    cases hn : t.root.walk? place with
    | none => rw [Tree.act, hn]; exact ht
    | some n =>
      cases h : t.edit place n operation with
      | error => rw [Tree.act, hn]; simp only [h]; exact ht
      | ok result => rw [Tree.act_edit hn h]; exact rule.allNames_edit ht hn ha h
  | reset => exact hseed
  | detached => exact ht

/-- Acts keep a rule for names, however many there are and in whatever order. -/
theorem NameRule.allNames_actAll (rule : NameRule P Q) (hseed : Tree.seed.root.AllNames P)
    {t : Tree} {acts : List Tree.Act} (ht : t.root.AllNames P)
    (hacts : ∀ a ∈ acts, ∀ name ∈ a.newName?, Q name) : (t.actAll acts).root.AllNames P := by
  induction acts generalizing t with
  | nil => exact ht
  | cons a acts ih =>
    rw [Tree.actAll_cons]
    exact ih (rule.allNames_act hseed ht (hacts a List.mem_cons_self)) fun b hb =>
      hacts b (List.mem_cons_of_mem _ hb)

end DosConsole
