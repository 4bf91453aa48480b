import DosConsole.Proofs.Console.Station

/-!
# What a line may change

A line of built-in commands changes little (`Line.Effect`): the name of the user and the setting
never, everything else only if it succeeds, the tree only by one step of its revision and for one of
four commands, and the current directory only for `cd`. So whoever sees the same revision as before
sees the same tree, and a line that failed need not be undone.

The current directory only ever becomes a path that was normalized, so that it is normalized at all
times, whatever the other consoles do to the tree meanwhile.
-/

namespace DosConsole

/-! ### One line -/

/-- A line calls one command at most. -/
theorem Line.Calls.unique {line a b : Text} (ha : Line.Calls line a) (hb : Line.Calls line b) :
    a = b :=
  ha.2.symm.trans hb.2

section AnyFolding

variable [Folding]

/-- The **effect** of a line on a workspace, when its execution came to `e`. -/
structure Line.Effect (w : Workspace) (line : Text) (e : Execution) : Prop where
  user : e.workspace.user = w.user
  strictRemoval : e.workspace.strictRemoval = w.strictRemoval
  /-- A line that fails changes nothing. -/
  failed : e.outcome.success = false → e.workspace = w
  counted : e.workspace.tree.revision = w.tree.revision ∨
    e.workspace.tree.revision = w.tree.revision + 1
  /-- The same revision stands for the same tree. -/
  truthful : e.workspace.tree.revision = w.tree.revision → e.workspace.tree = w.tree
  editor : e.workspace.tree.revision ≠ w.tree.revision →
    ∃ name ∈ (["mkdir", "touch", "rm", "clearfs"] : List Text), Line.Calls line name
  stays : ¬ Line.Calls line "cd" → e.workspace.cwd = w.cwd
  /-- A `cd` that succeeds goes to its normalized target, where there is a directory. -/
  goes : Line.Calls line "cd" → e.outcome.success = true →
    e.workspace.cwd = Path.normalize ((Line.parse line).args.headD "/") w.cwd ∧
      ∃ n, e.workspace.tree.resolve? e.workspace.cwd = some n ∧ n.isDir = true

namespace Builtin.Change

variable {w after : Workspace} {args : List Text} {name : Text}

theorem user_eq (h : Change w args name after) : after.user = w.user := by
  cases h <;> rfl

theorem strictRemoval_eq (h : Change w args name after) :
    after.strictRemoval = w.strictRemoval := by
  cases h <;> rfl

/-- A change that the revision does not count leaves the tree alone. -/
theorem tree_cases (h : Change w args name after) :
    after.tree = w.tree ∨ after.tree.revision = w.tree.revision + 1 := by
  rcases h.exists_act with htree | ⟨a, htree, -⟩
  · exact .inl htree
  · rw [htree]
    exact w.tree.act_cases a

theorem mem_editors (h : Change w args name after) (htree : after.tree ≠ w.tree) :
    name ∈ (["mkdir", "touch", "rm", "clearfs"] : List Text) := by
  cases h with
  | go found directory => exact absurd rfl htree
  | edit editor asked leads newName taken =>
    have hmore : (["mkdir", "touch", "rm"] : List Text) ⊆ ["mkdir", "touch", "rm", "clearfs"] := by
      decide
    exact hmore editor
  | reset => decide

theorem cwd_eq (h : Change w args name after) (hname : name ≠ "cd") : after.cwd = w.cwd := by
  cases h with
  | go found directory => exact absurd rfl hname
  | edit editor asked leads newName taken => rfl
  | reset => rfl

/-- A change made by `cd` is a new current directory. -/
theorem goes (h : Change w args "cd" after) :
    after.cwd = Path.normalize (args.headD "/") w.cwd ∧
      ∃ n, after.tree.resolve? after.cwd = some n ∧ n.isDir = true := by
  generalize hname : ("cd" : Text) = name at h
  cases h with
  | go found directory => exact ⟨rfl, _, found, directory⟩
  | edit editor asked leads newName taken => exact absurd (hname ▸ editor) (by decide)
  | reset => exact absurd hname (by decide)

end Builtin.Change

/-- **One line.** A line of built-in commands has no more effect than that. -/
theorem Registry.effect_execute (w : Workspace) (line : Text) :
    Line.Effect w line (builtin.execute line w) := by
  rcases execute_builtin_cases line w with ⟨hsame, hcd⟩ | ⟨name, hcalls, hsuccess, hchange⟩
  · refine ⟨?_, ?_, fun _ => hsame, .inl ?_, fun _ => ?_, fun h => absurd ?_ h, fun _ => ?_,
      fun hcalls hsuccess => ?_⟩
    · rw [hsame]
    · rw [hsame]
    · rw [hsame]
    · rw [hsame]
    · rw [hsame]
    · rw [hsame]
    · exact absurd hsuccess (by rw [hcd hcalls]; simp)
  · refine ⟨hchange.user_eq, hchange.strictRemoval_eq, fun hfails => ?_, ?_, fun hrevision => ?_,
      fun hrevision => ?_, fun hother => ?_, fun hcd _ => ?_⟩
    · exact absurd hsuccess (by rw [hfails]; simp)
    · exact hchange.tree_cases.imp_left fun htree => by rw [htree]
    · exact hchange.tree_cases.resolve_right fun hcount => by omega
    · refine ⟨name, hchange.mem_editors fun htree => hrevision ?_, hcalls⟩
      rw [htree]
    · exact hchange.cwd_eq fun hname => hother (hname ▸ hcalls)
    · obtain rfl := hcalls.unique hcd
      exact hchange.goes

/-- Where a line leaves the workspace: where it was, or at the normalized first argument. -/
theorem Line.Effect.cwd_cases {w : Workspace} {line : Text} {e : Execution}
    (h : Line.Effect w line e) : e.workspace.cwd = w.cwd ∨
      e.workspace.cwd = Path.normalize ((Line.parse line).args.headD "/") w.cwd := by
  cases hsuccess : e.outcome.success with
  | false => exact .inl (by rw [h.failed hsuccess])
  | true =>
    by_cases hcd : Line.Calls line "cd"
    · exact .inr (h.goes hcd hsuccess).1
    · exact .inl (h.stays hcd)

/-! ### Consoles -/

/-- The console has the built-in commands only and stands in a normalized directory. -/
def Console.IsPlaced (c : Console) : Prop :=
  c.registry = .builtin ∧ Path.IsNormalized c.cwd

/-- A line of built-in commands leaves the console in a normalized directory. -/
theorem Console.IsPlaced.submit {c : Console} (h : c.IsPlaced) (m : Machine) (line : Text) :
    (c.submit m line).2.1.IsPlaced := by
  obtain ⟨hregistry, hcwd⟩ := h
  refine ⟨(c.registry_submit m line).trans hregistry, ?_⟩
  rw [cwd_submit, hregistry]
  rcases (Registry.effect_execute (c.workspace m.tree) line).cwd_cases with h | h
  · rw [h]
    exact hcwd
  · rw [h]
    exact Path.isNormalized_normalize _ _

end AnyFolding

namespace Station

/-- **Lines tell the truth.** Whatever the workspace is, a line of built-in commands that fails
changes nothing, and one that succeeds has no more effect than its revision and its command tell. So
consoles with the built-in commands that start at the root stand in normalized directories at all
times, whatever happens to the tree. -/
theorem lines_tell_the_truth :
    (∀ (w : Workspace) (line : Text), Line.Effect w line (Registry.builtin.execute line w)) ∧
    ∀ (s : Station), (∀ c ∈ s.consoles, c.registry = .builtin ∧ c.cwd = "/") →
      ∀ steps, ∀ c ∈ (s.run steps).consoles, Path.IsNormalized c.cwd := by
  refine ⟨Registry.effect_execute, fun s hconsoles steps c hc => ?_⟩
  have hplaced : ∀ c ∈ s.consoles, c.IsPlaced := fun c hc =>
    ⟨(hconsoles c hc).1, (hconsoles c hc).2 ▸ Path.isNormalized_root⟩
  exact ((keeps_run (T := fun _ => True) (fun _ m line h _ => ⟨h.submit m line, trivial⟩) hplaced
    trivial steps fun _ _ _ _ => trivial).1 c hc).2

/-- Of two consoles one goes to a directory that the other one removes, and then stands in a
normalized directory that is no more. A removal that is refused after that changes nothing. -/
theorem lines_tell_the_truth_of_removed_directory :
    let s : Station :=
      ⟨[.start .null false 0 none, .start .null true 0 none], ⟨.seed, .empty 0, []⟩⟩
    let steps : List Step := [.line 0 "cd ./gAmes/", .line 1 "rm -r games"]
    let w : Workspace := ⟨(s.run steps).machine.tree, "/gAmes", .null, true⟩
    (∀ c ∈ s.consoles, c.registry = .builtin ∧ c.cwd = "/") ∧
      (s.run steps).consoles.map (·.cwd) = ["/gAmes", "/"] ∧
      (∀ c ∈ (s.run steps).consoles, Path.IsNormalized c.cwd) ∧
      (Registry.builtin.execute "rm ." w).outcome.success = false ∧
      (Registry.builtin.execute "rm ." w).workspace = w := by
  intro s steps w
  have hconsoles : ∀ c ∈ s.consoles, c.registry = .builtin ∧ c.cwd = "/" := by
    intro c hc
    simp only [s, List.mem_cons, List.not_mem_nil, or_false] at hc
    rcases hc with rfl | rfl
    · exact ⟨rfl, rfl⟩
    · exact ⟨rfl, rfl⟩
  have hcwds : (s.run steps).consoles.map (·.cwd) = ["/gAmes", "/"] := by
    decide +kernel
  have hfails : (Registry.builtin.execute "rm ." w).outcome.success = false := by
    decide +kernel
  exact ⟨hconsoles, hcwds, lines_tell_the_truth.2 s hconsoles steps, hfails,
    (lines_tell_the_truth.1 w "rm .").failed hfails⟩

end Station

end DosConsole
