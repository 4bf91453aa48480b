import DosConsole.Proofs.Command.Editing

/-!
# Going to a directory

`cd` succeeds just when its target leads to a directory (`succeeds_changeDirectory_iff`), and then
the normalized target is the current directory. Since a relative path is normalized from where the
path before it leads, two `cd` in a row that succeed come to the same as one `cd` to the joined
path, as long as the tree stays the same.
-/

namespace DosConsole

namespace Builtin

variable [Folding] {menu : Menu} {args : List Text} {w : Workspace}

/-- `cd` goes where its target leads to a directory. -/
theorem changeDirectory_of_isDir {n : Node}
    (hn : w.tree.resolve? (Path.normalize (args.headD "/") w.cwd) = some n)
    (hdirectory : n.isDir = true) :
    changeDirectory menu args w =
      ({ w with cwd := Path.normalize (args.headD "/") w.cwd }, .ok (.outcome (.ok []))) := by
  simp only [changeDirectory, Tree.lookup, hn, if_pos hdirectory]

/-- `cd` succeeds just when its target leads to a directory. -/
theorem succeeds_changeDirectory_iff :
    Succeeds (changeDirectory menu args w) ↔
      ∃ n, w.tree.resolve? (Path.normalize (args.headD "/") w.cwd) = some n ∧ n.isDir = true := by
  constructor
  · intro h
    simp only [changeDirectory, Tree.lookup] at h
    split at h
    · exact absurd h (not_succeeds_fail _ _ _)
    · rename_i path n hlookup
      obtain ⟨-, hn⟩ := Prod.mk.inj hlookup
      split at h
      · rename_i hdirectory
        exact ⟨n, hn, hdirectory⟩
      · exact absurd h (not_succeeds_fail _ _ _)
  · rintro ⟨n, hn, hdirectory⟩
    rw [changeDirectory_of_isDir hn hdirectory]
    exact succeeds_ok _ _

end Builtin

namespace Path

open Builtin in
/-- **Normalization** is canonical, stable and compositional. It gives the text of segments, which
is cut into these segments and joined from them again. It leaves a path alone from some directory
just when the path is the text of segments, and then it does so from every directory. A relative
path that is joined to another one is normalized from where the other one leads. So where `cd` goes
to one and then to the other, it goes to the joined path at once, and comes to the same place. -/
theorem normalization_composes [Folding] :
    (∀ path cwd, ∃ segs : List Text, (∀ s ∈ segs, IsSegment s) ∧
      normalize path cwd = text segs ∧ segments (normalize path cwd) = segs ∧
      text (segments (normalize path cwd)) = normalize path cwd) ∧
    (∀ path, ((∃ cwd, normalize path cwd = path) ↔ IsNormalized path) ∧
      (IsNormalized path → ∀ cwd, normalize path cwd = path)) ∧
    (∀ p q cwd : Text, p ≠ [] → isAbsolute q = false →
      normalize (p ++ "/" ++ q) cwd = normalize q (normalize p cwd)) ∧
    ∀ (p q : Text) (menu : Menu) (more : List Text) (w : Workspace),
      p ≠ [] → isAbsolute q = false →
      let first := changeDirectory menu (p :: more) w
      let second := changeDirectory menu (q :: more) first.1
      let joined := changeDirectory menu ((p ++ "/" ++ q) :: more) w
      Succeeds first → Succeeds second → Succeeds joined ∧ joined.1 = second.1 := by
  refine ⟨fun path cwd => ?_, fun path => ?_, fun p q cwd hp hq => normalize_join hp hq cwd, ?_⟩
  · exact ⟨target path cwd, fun _ => isSegment_of_mem_target, rfl, segments_normalize path cwd,
      (isNormalized_normalize path cwd).text_segments⟩
  · exact ⟨exists_normalize_eq_self_iff, IsNormalized.normalize_eq_self⟩
  · intro p q menu more w hp hq first second joined hfirst hsecond
    obtain ⟨n, hn, hdirectory⟩ := succeeds_changeDirectory_iff.mp hfirst
    have hgone : first.1 = { w with cwd := normalize p w.cwd } := by
      simp only [first, changeDirectory_of_isDir hn hdirectory, List.headD_cons]
    obtain ⟨m, hm, hinner⟩ := succeeds_changeDirectory_iff.mp hsecond
    have harrived : second.1 = { w with cwd := normalize q (normalize p w.cwd) } := by
      simp only [second, changeDirectory_of_isDir hm hinner, hgone, List.headD_cons]
    -- the joined path is normalized to the path that the second step found
    rw [hgone, List.headD_cons, ← normalize_join hp hq] at hm
    have hjoined : joined =
        ({ w with cwd := normalize (p ++ "/" ++ q) w.cwd }, .ok (.outcome (.ok []))) :=
      changeDirectory_of_isDir hm hinner
    rw [hjoined, harrived, normalize_join hp hq]
    exact ⟨succeeds_ok _ _, rfl⟩

/-- In a new tree, `cd ./gAmes` and then `cd ..//GAMES/../games/.` go to `/games`, and so does `cd`
to the joined path. -/
theorem normalization_composes_in_seed :
    let p : Text := "./gAmes"
    let q : Text := "..//GAMES/../games/."
    let w : Workspace := ⟨Tree.seed, "/", .null, false⟩
    let first := Builtin.changeDirectory [] [p] w
    let second := Builtin.changeDirectory [] [q] first.1
    let joined := Builtin.changeDirectory [] [p ++ "/" ++ q] w
    p ≠ [] ∧ isAbsolute q = false ∧ Builtin.Succeeds first ∧ Builtin.Succeeds second ∧
      Builtin.Succeeds joined ∧ joined.1.cwd = "/games" := by
  intro p q w first second joined
  have hp : p ≠ [] := by decide
  have hq : isAbsolute q = false := by decide
  have hgames : ∀ path : Text, path = "/gAmes" ∨ path = "/games" →
      ∃ n, Tree.seed.resolve? path = some n ∧ n.isDir = true := by
    rintro path (rfl | rfl)
    · exact ⟨_, rfl, rfl⟩
    · exact ⟨_, rfl, rfl⟩
  have hfirst : Builtin.Succeeds first :=
    Builtin.succeeds_changeDirectory_iff.mpr (hgames _ (.inl (by decide)))
  have hsecond : Builtin.Succeeds second :=
    Builtin.succeeds_changeDirectory_iff.mpr (hgames _ (.inr (by decide)))
  obtain ⟨hjoined, hsame⟩ := normalization_composes.2.2.2 p q [] [] w hp hq hfirst hsecond
  refine ⟨hp, hq, hfirst, hsecond, hjoined, ?_⟩
  rw [hsame]
  decide +kernel

end Path

end DosConsole
