import DosConsole.Proofs.Command.Editing
import DosConsole.Proofs.Tree.View

/-!
# What the commands do to the view

To a user the tree is a map from paths to what is seen there, its view. Where the names in every
directory are distinct, the commands that change the tree are operations on this map: `mkdir` and
`touch` **put** a new face under the key of their target, `rm` **cuts** off what is seen under the
key of its target and below it, and `clearfs` brings the view of a new tree. Whether they succeed
can be read off the map as well, except that a strict `rm` also asks for the children of a
directory: a record may give them names that no path can spell.
-/

namespace DosConsole

section AnyFolding

variable [Folding]

/-- What is seen at each path. -/
abbrev View := Text → Option Face

namespace View

/-- There is a **place** for an entry at a path: it is not the root, and the path around it shows a
directory. -/
def HasPlace (v : View) (path : Text) : Prop :=
  path ≠ "/" ∧ ∃ name, v (Path.parentAndName path).1 = some (.dir name)

/-- Under the key of a path the view shows a face with the last segment for its name. -/
def put (v : View) (path : Text) (face : Text → Face) : View := fun q =>
  if Path.key q = Path.key path then (Path.parentAndName path).2.map face else v q

/-- Under the key of a path and below it the view shows nothing. -/
def cut (v : View) (path : Text) : View := fun q =>
  if Path.key path <+: Path.key q then none else v q

end View

namespace Builtin

/-- A command with the result `r` **amounts to** a view `shown`: it succeeds just when that is
allowed, and then brings about the view; otherwise it changes nothing. It touches nothing but the
tree, whose names stay distinct. -/
structure Amounts (w : Workspace) (r : Workspace × Except Text Reply) (allowed : Prop)
    (shown : View) : Prop where
  succeeds_iff : Succeeds r ↔ allowed
  shows : allowed → r.1.tree.view = shown
  refused : ¬ allowed → r.1 = w
  elsewhere : r.1 = { w with tree := r.1.tree }
  distinct : r.1.tree.root.AllNames Distinct

/-! ### The place of a target -/

/-- A target leads to the entry `name` of a directory, which has the given children. -/
structure Site (w : Workspace) (target : Text) (dir : List Text) (name : Text)
    (children : List Node) : Prop where
  target_eq : Path.target target w.cwd = dir ++ [name]
  walk?_eq : ∃ dirName, w.tree.root.walk? dir = some (.dir dirName children)

namespace Site

variable {w : Workspace} {target name : Text} {dir : List Text} {children : List Node}

theorem isSegment (h : Site w target dir name children) :
    ∀ s ∈ dir ++ [name], Path.IsSegment s :=
  fun _ hs => Path.isSegment_of_mem_target (h.target_eq ▸ hs)

theorem segments_eq (h : Site w target dir name children) :
    Path.segments (Path.normalize target w.cwd) = dir ++ [name] := by
  rw [Path.segments_normalize, h.target_eq]

theorem key_eq (h : Site w target dir name children) :
    Path.key (Path.normalize target w.cwd) = (dir ++ [name]).map Folding.fold := by
  rw [Path.key, h.segments_eq]

theorem lastName_eq (h : Site w target dir name children) :
    (Path.parentAndName (Path.normalize target w.cwd)).2 = some name := by
  rw [Path.parentAndName, h.segments_eq, List.getLast?_concat]

theorem segments_dir (h : Site w target dir name children) :
    Path.segments (Path.text dir) = dir :=
  Path.segments_text fun s hs => h.isSegment s (List.mem_append_left _ hs)

/-- The target finds a child of its directory. -/
theorem resolve?_eq (h : Site w target dir name children) :
    w.tree.resolve? (Path.normalize target w.cwd) = Node.child? children name := by
  obtain ⟨dirName, hdir⟩ := h.walk?_eq
  rw [Tree.resolve?, h.segments_eq, Node.walk?_concat hdir]

theorem view_eq (h : Site w target dir name children) :
    w.tree.view (Path.normalize target w.cwd) = (Node.child? children name).map Node.face := by
  rw [Tree.view, h.resolve?_eq]

/-- An operation on the children is one in the directory of the target. -/
theorem editAt_of_apply (h : Site w target dir name children) {e : Edit} {entry : Node}
    {changed : Option (List Node)} (happly : e.apply children = .ok (entry, changed)) :
    w.tree.editAt (Path.text dir) e = .ok (entry, changed.elim w.tree (w.tree.refill dir)) := by
  obtain ⟨dirName, hdir⟩ := h.walk?_eq
  refine Tree.editAt_eq_ok_iff.mpr ⟨dirName, children, changed, ?_, happly, ?_⟩
  · rw [Tree.resolve?, h.segments_dir, hdir]
  · rw [h.segments_dir]

/-- An entry that is added at the target is put there in the view. -/
theorem view_refill_append (h : Site w target dir name children) {entry : Node}
    (hfree : Node.child? children name = none) (hempty : entry.children = [])
    {face : Text → Face} (hname : entry.name = name) (hface : entry.face = face name) :
    (w.tree.refill dir (children ++ [entry])).view =
      View.put w.tree.view (Path.normalize target w.cwd) face := by
  obtain ⟨dirName, hdir⟩ := h.walk?_eq
  subst hname
  funext q
  rw [View.put, h.key_eq, h.lastName_eq, Option.map_some, ← hface]
  exact Tree.face_walk?_refill_append hdir hfree hempty (Path.segments q)

/-- An entry that is taken away at the target is cut off from the view. -/
theorem view_refill_eraseP (h : Site w target dir name children)
    (hw : w.tree.root.AllNames Distinct) :
    (w.tree.refill dir (children.eraseP fun n => sameName n.name name)).view =
      View.cut w.tree.view (Path.normalize target w.cwd) := by
  obtain ⟨dirName, hdir⟩ := h.walk?_eq
  have hdistinct := List.pairwise_map.mp (hw.walk? hdir).names
  funext q
  rw [View.cut, h.key_eq]
  exact Tree.face_walk?_refill_eraseP hdir hdistinct name (Path.segments q)

end Site

variable {w : Workspace} {target : Text}

/-- What the tree takes at a target is an operation on the children of its directory. -/
theorem exists_site_of_editAt {dir : List Text} {name : Text} {e : Edit} {entry : Node}
    {after : Tree} (htarget : Path.target target w.cwd = dir ++ [name])
    (hedit : w.tree.editAt (Path.text dir) e = .ok (entry, after)) :
    ∃ children changed, Site w target dir name children ∧
      e.apply children = .ok (entry, changed) := by
  obtain ⟨dirName, children, changed, hdir, happly, -⟩ := Tree.editAt_eq_ok_iff.mp hedit
  have hsegs : ∀ s ∈ dir, Path.IsSegment s := fun s hs =>
    Path.isSegment_of_mem_target (htarget ▸ List.mem_append_left _ hs)
  rw [Tree.resolve?, Path.segments_text hsegs] at hdir
  exact ⟨children, changed, ⟨htarget, dirName, hdir⟩, happly⟩

/-- There is a place at a target just when it leads to an entry of some directory. -/
theorem hasPlace_iff :
    View.HasPlace w.tree.view (Path.normalize target w.cwd) ↔
      ∃ dir name children, Site w target dir name children := by
  have hnormal := Path.isNormalized_normalize target w.cwd
  rw [View.HasPlace, Ne, hnormal.eq_root_iff, Tree.view, Tree.resolve?, hnormal.segments_parent,
    Path.segments_normalize]
  constructor
  · rintro ⟨hne, dirName, hdir⟩
    obtain ⟨n, hn, hface⟩ := Option.map_eq_some_iff.mp hdir
    cases n with
    | file => exact absurd hface (by simp [Node.face])
    | dir name children =>
      exact ⟨_, _, children, (List.dropLast_concat_getLast hne).symm, name, hn⟩
  · rintro ⟨dir, name, children, htarget, dirName, hdir⟩
    rw [htarget, List.dropLast_concat, hdir]
    exact ⟨by simp, dirName, rfl⟩

/-- Where something is seen below the root there is a place. -/
theorem hasPlace_of_resolve? {n : Node} (hroot : Path.normalize target w.cwd ≠ "/")
    (hn : w.tree.resolve? (Path.normalize target w.cwd) = some n) :
    View.HasPlace w.tree.view (Path.normalize target w.cwd) := by
  have hnormal := Path.isNormalized_normalize target w.cwd
  rw [Ne, hnormal.eq_root_iff, Path.segments_normalize] at hroot
  obtain ⟨dir, name, htarget⟩ : ∃ dir name, Path.target target w.cwd = dir ++ [name] :=
    ⟨_, _, (List.dropLast_concat_getLast hroot).symm⟩
  rw [Tree.resolve?, Path.segments_normalize, htarget, Node.walk?_append] at hn
  obtain ⟨m, hm, hrest⟩ := Option.bind_eq_some_iff.mp hn
  cases m with
  | file => rw [Node.walk?_cons_file] at hrest; exact absurd hrest (by simp)
  | dir dirName children => exact hasPlace_iff.mpr ⟨dir, name, children, htarget, dirName, hm⟩

/-- A command that carries out an operation amounts to the view that the operation brings about. -/
theorem Carries.amounts {e : Text → Edit} {r : Workspace × Except Text Reply} {allowed : Prop}
    {shown : View} (h : Carries w target e r) (hw : w.tree.root.AllNames Distinct)
    (hplace : allowed → View.HasPlace w.tree.view (Path.normalize target w.cwd))
    (happly : ∀ {dir name children}, Site w target dir name children →
      (allowed ↔ ∃ entry changed, (e name).apply children = .ok (entry, changed)))
    (hshown : ∀ {dir name children entry changed}, Site w target dir name children →
      (e name).apply children = .ok (entry, changed) →
      Tree.view (changed.elim w.tree (w.tree.refill dir)) = shown) :
    Amounts w r allowed shown := by
  by_cases hallowed : allowed
  · obtain ⟨dir, name, children, hsite⟩ := hasPlace_iff.mp (hplace hallowed)
    obtain ⟨entry, changed, hchanged⟩ := (happly hsite).mp hallowed
    obtain ⟨hr, hsucceeds⟩ := h.done hsite.target_eq (hsite.editAt_of_apply hchanged)
    refine ⟨iff_of_true hsucceeds hallowed, fun _ => ?_, absurd hallowed, ?_, ?_⟩
    · rw [hr]
      exact hshown hsite hchanged
    · rw [hr]
    · obtain ⟨dirName, hdir⟩ := hsite.walk?_eq
      have hedit : w.tree.edit dir (.dir dirName children) (e name) =
          .ok (entry, changed.elim w.tree (w.tree.refill dir)) :=
        Tree.edit_eq_ok_iff.mpr ⟨dirName, children, changed, rfl, hchanged, rfl⟩
      rw [hr]
      exact nameRule_distinct.allNames_edit hw hdir (fun _ _ => trivial) hedit
  · -- whatever the tree takes has a site, and there it would be allowed
    have hno : ∀ (dir : List Text) (name : Text) (entry : Node) (after : Tree),
        Path.target target w.cwd = dir ++ [name] →
        w.tree.editAt (Path.text dir) (e name) ≠ .ok (entry, after) := by
      intro dir name entry after htarget hedit
      obtain ⟨children, changed, hsite, hchanged⟩ := exists_site_of_editAt htarget hedit
      exact hallowed ((happly hsite).mpr ⟨entry, changed, hchanged⟩)
    obtain ⟨hr, hfails⟩ := h.refused hno
    exact ⟨iff_of_false hfails hallowed, fun h => absurd h hallowed, fun _ => hr, by rw [hr],
      by rw [hr]; exact hw⟩

/-! ### The four commands -/

theorem amounts_makeDirectory (hw : w.tree.root.AllNames Distinct) (menu : Menu)
    (rest : List Text) {p : Text} (hp : p = Path.normalize target w.cwd) :
    Amounts w (makeDirectory menu (target :: rest) w)
      (View.HasPlace w.tree.view p ∧ w.tree.view p = none)
      (View.put w.tree.view p .dir) := by
  subst hp
  refine (carries_makeDirectory menu w target rest).amounts hw (·.1) ?_ ?_
  · intro dir name children hsite
    have hplace := hasPlace_iff.mpr ⟨dir, name, children, hsite⟩
    rw [and_iff_right hplace, hsite.view_eq, Option.map_eq_none_iff]
    constructor
    · intro hfree
      exact ⟨_, _, Edit.apply_makeDirectory_eq_ok_iff.mpr ⟨hfree, rfl, rfl⟩⟩
    · rintro ⟨entry, changed, happly⟩
      exact (Edit.apply_makeDirectory_eq_ok_iff.mp happly).1
  · intro dir name children entry changed hsite happly
    obtain ⟨hfree, rfl, rfl⟩ := Edit.apply_makeDirectory_eq_ok_iff.mp happly
    exact hsite.view_refill_append hfree rfl rfl rfl

theorem amounts_makeFile (hw : w.tree.root.AllNames Distinct) (menu : Menu)
    (rest : List Text) {p : Text} (hp : p = Path.normalize target w.cwd) :
    Amounts w (makeFile menu (target :: rest) w)
      (View.HasPlace w.tree.view p ∧
        (w.tree.view p = none ∨ ∃ name content, w.tree.view p = some (.file name content)))
      (if w.tree.view p = none then View.put w.tree.view p (.file · []) else w.tree.view) := by
  subst hp
  refine (carries_makeFile menu w target rest).amounts hw (·.1) ?_ ?_
  · intro dir name children hsite
    have hplace := hasPlace_iff.mpr ⟨dir, name, children, hsite⟩
    rw [and_iff_right hplace, hsite.view_eq, Option.map_eq_none_iff]
    constructor
    · rintro (hfree | ⟨a, content, hfile⟩)
      · exact ⟨_, _, Edit.apply_makeFile_eq_ok_iff.mpr (.inl ⟨hfree, rfl, rfl⟩)⟩
      · obtain ⟨n, hn, hface⟩ := Option.map_eq_some_iff.mp hfile
        have hisDir : n.isDir = false := by rw [← Node.isDir_face, hface]; rfl
        exact ⟨n, none, Edit.apply_makeFile_eq_ok_iff.mpr (.inr ⟨hn, hisDir, rfl⟩)⟩
    · rintro ⟨entry, changed, happly⟩
      rcases Edit.apply_makeFile_eq_ok_iff.mp happly with ⟨hfree, -⟩ | ⟨hfound, hisDir, -⟩
      · exact .inl hfree
      · cases entry with
        | dir => exact absurd hisDir (by simp [Node.isDir])
        | file a content => exact .inr ⟨a, content, by rw [hfound]; rfl⟩
  · intro dir name children entry changed hsite happly
    rw [hsite.view_eq]
    rcases Edit.apply_makeFile_eq_ok_iff.mp happly with ⟨hfree, rfl, rfl⟩ | ⟨hfound, -, rfl⟩
    · rw [hfree, Option.map_none, if_pos rfl]
      exact hsite.view_refill_append hfree rfl rfl rfl
    · rw [hfound, if_neg (by simp)]
      rfl

theorem amounts_remove (hw : w.tree.root.AllNames Distinct) (menu : Menu) {args : List Text}
    (hargs : args.find? (!isRecursiveFlag ·) = some target) {p : Text}
    (hp : p = Path.normalize target w.cwd) :
    Amounts w (remove menu args w)
      (p ≠ "/" ∧ w.tree.view p ≠ none ∧
        (w.strictRemoval = true → args.any isRecursiveFlag = false →
          ∀ n, w.tree.resolve? p = some n → n.children = []))
      (View.cut w.tree.view p) := by
  subst hp
  refine (carries_remove menu w hargs).amounts hw ?_ ?_ ?_
  · rintro ⟨hroot, hseen, -⟩
    rw [Ne, Tree.view, Option.map_eq_none_iff] at hseen
    obtain ⟨n, hn⟩ := Option.ne_none_iff_exists'.mp hseen
    exact hasPlace_of_resolve? hroot hn
  · intro dir name children hsite
    have hplace := hasPlace_iff.mpr ⟨dir, name, children, hsite⟩
    rw [and_iff_right hplace.1, hsite.view_eq, hsite.resolve?_eq, Ne, Option.map_eq_none_iff]
    constructor
    · rintro ⟨hseen, hempty⟩
      obtain ⟨n, hn⟩ := Option.ne_none_iff_exists'.mp hseen
      refine ⟨n, _, Edit.apply_remove_eq_ok_iff.mpr ⟨hn, ?_, rfl⟩⟩
      -- the children matter only when the removal is strict and no flag is given
      by_cases hstrict : w.strictRemoval = true ∧ args.any isRecursiveFlag = false
      · exact .inr (hempty hstrict.1 hstrict.2 n hn)
      · refine .inl ?_
        rw [Bool.or_eq_true, Bool.not_eq_true', ← Bool.not_eq_true,
          ← Bool.not_eq_false (args.any _)]
        exact not_and_or.mp hstrict
    · rintro ⟨entry, changed, happly⟩
      obtain ⟨hfound, hremovable, -⟩ := Edit.apply_remove_eq_ok_iff.mp happly
      refine ⟨by rw [hfound]; simp, fun hstrict hflag n hn => ?_⟩
      obtain rfl := Option.some.inj (hfound.symm.trans hn)
      refine hremovable.resolve_left ?_
      rw [hstrict, hflag]
      simp
  · intro dir name children entry changed hsite happly
    obtain ⟨-, -, rfl⟩ := Edit.apply_remove_eq_ok_iff.mp happly
    exact hsite.view_refill_eraseP hw

theorem amounts_resetTree (hseed : Tree.seed.root.AllNames Distinct) (menu : Menu)
    (args : List Text) : Amounts w (resetTree menu args w) True Tree.seed.view where
  succeeds_iff := iff_of_true (succeeds_ok _ _) trivial
  shows _ := rfl
  refused h := absurd trivial h
  elsewhere := rfl
  distinct := hseed

end Builtin

end AnyFolding

namespace Builtin

/-- **The commands refine a map.** Where the names in every directory are distinct, the view of the
tree depends on the keys of paths only, and each command that changes the tree is an operation on
the view, whatever the current directory, the setting and the arguments are. -/
theorem commands_refine_view (w : Workspace) (hw : w.tree.root.AllNames Distinct) :
    (∀ p q, Path.key p = Path.key q → w.tree.view p = w.tree.view q) ∧
    (∀ menu target rest p, p = Path.normalize target w.cwd →
      Amounts w (makeDirectory menu (target :: rest) w)
        (View.HasPlace w.tree.view p ∧ w.tree.view p = none)
        (View.put w.tree.view p .dir)) ∧
    (∀ menu target rest p, p = Path.normalize target w.cwd →
      Amounts w (makeFile menu (target :: rest) w)
        (View.HasPlace w.tree.view p ∧
          (w.tree.view p = none ∨ ∃ name content, w.tree.view p = some (.file name content)))
        (if w.tree.view p = none then View.put w.tree.view p (.file · []) else w.tree.view)) ∧
    (∀ menu args target p, args.find? (!isRecursiveFlag ·) = some target →
      p = Path.normalize target w.cwd →
      Amounts w (remove menu args w)
        (p ≠ "/" ∧ w.tree.view p ≠ none ∧
          (w.strictRemoval = true → args.any isRecursiveFlag = false →
            ∀ n, w.tree.resolve? p = some n → n.children = []))
        (View.cut w.tree.view p)) ∧
    (∀ menu args, Amounts w (resetTree menu args w) True Tree.seed.view) := by
  refine ⟨fun p q => w.tree.view_congr, ?_, ?_, ?_, ?_⟩
  · intro menu target rest p hp
    exact amounts_makeDirectory hw menu rest hp
  · intro menu target rest p hp
    exact amounts_makeFile hw menu rest hp
  · intro menu args target p hargs hp
    exact amounts_remove hw menu hargs hp
  · intro menu args
    exact amounts_resetTree Tree.distinct_seed menu args

/-- In a new tree, `mkdir gAmes/Sub` succeeds from the root and makes a directory that is seen at
`/games/sub`. -/
theorem makeDirectory_shows_in_seed :
    let w : Workspace := ⟨Tree.seed, "/", .null, true⟩
    let r := makeDirectory [] ["gAmes/Sub"] w
    w.tree.root.AllNames Distinct ∧ Succeeds r ∧
      r.1.tree.view "/games/sub" = some (.dir "Sub") := by
  intro w r
  have hrefines := commands_refine_view w Tree.distinct_seed
  have hmkdir := hrefines.2.1 [] "gAmes/Sub" [] "/gAmes/Sub" (by decide)
  have hallowed : View.HasPlace w.tree.view "/gAmes/Sub" ∧ w.tree.view "/gAmes/Sub" = none :=
    ⟨⟨by decide, "GAMES", by decide⟩, by decide⟩
  refine ⟨Tree.distinct_seed, hmkdir.succeeds_iff.mpr hallowed, ?_⟩
  rw [hmkdir.shows hallowed]
  decide

end Builtin

end DosConsole
