import DosConsole.Proofs.Command.Change

/-!
# Commands that keep to acts

A handler may leave any workspace behind, with any tree in it. It **keeps to** certain acts when the
tree that it leaves always comes of such acts on the tree that it was given, however it replies and
also when it faults part way. The built-in commands keep to **plain** acts, under which every new
entry has a segment for its name (`keepsTo_of_mem_commands`).

A registry is **orderly** when each of its commands is a built-in one or keeps to the acts that are
allowed; then so does every line that it runs (`Registry.IsOrderly.exists_acts`).
-/

namespace DosConsole

/-! ### Handlers -/

/-- Every entry that the act would make has a segment of paths for its name. -/
def Tree.Act.IsPlain (a : Tree.Act) : Prop :=
  ∀ name ∈ a.newName?, Path.IsSegment name

variable [Folding]

/-- The tree that the handler leaves comes of allowed acts on the tree that it was given. -/
def Handler.KeepsTo (allowed : Tree.Act → Prop) (h : Handler) : Prop :=
  ∀ menu args w, ∃ acts : List Tree.Act, (∀ a ∈ acts, allowed a) ∧
    (h menu args w).1.tree = w.tree.actAll acts

theorem Handler.KeepsTo.mono {allowed more : Tree.Act → Prop} (himp : ∀ a, allowed a → more a)
    {h : Handler} (hkeeps : h.KeepsTo allowed) : h.KeepsTo more := by
  intro menu args w
  obtain ⟨acts, hacts, htree⟩ := hkeeps menu args w
  exact ⟨acts, fun a ha => himp a (hacts a ha), htree⟩

/-! ### The built-in commands -/

namespace Builtin

/-- **The built-in commands are plain.** Whatever they are asked for, they change the tree by acts
only, and every new entry has a segment for its name. -/
theorem keepsTo_of_mem_commands {c : Command} (h : c ∈ commands) :
    c.run.KeepsTo Tree.Act.IsPlain := by
  intro menu args w
  have htree : (c.run menu args w).1.tree = w.tree ∨
      ∃ a : Tree.Act, (c.run menu args w).1.tree = w.tree.act a ∧ a.IsPlain := by
    rcases run_cases h menu args w with ⟨hsame, -⟩ | ⟨-, hchange⟩
    · exact .inl (by rw [hsame])
    · refine hchange.exists_act.imp_right ?_
      rintro ⟨a, hact, hnew⟩
      refine ⟨a, hact, fun name hname => ?_⟩
      obtain ⟨target, -, hsegment⟩ := hnew name hname
      exact Path.isSegment_of_mem_target hsegment
  rcases htree with htree | ⟨a, htree, hplain⟩
  · exact ⟨[], fun _ ha => absurd ha List.not_mem_nil, htree⟩
  · exact ⟨[a], fun b hb => List.mem_singleton.mp hb ▸ hplain, htree⟩

end Builtin

/-! ### Registries -/

namespace Registry

/-- The commands of the built-in registry are plain. -/
theorem keepsTo_of_mem_builtin {c : Command} (h : c ∈ builtin.commands) :
    c.run.KeepsTo Tree.Act.IsPlain := by
  obtain ⟨d, hd, -, hrun⟩ := mem_builtin h
  exact hrun ▸ Builtin.keepsTo_of_mem_commands hd

/-- Each command is a built-in one, or it keeps to the allowed acts. -/
def IsOrderly (allowed : Tree.Act → Prop) (r : Registry) : Prop :=
  ∀ c ∈ r.commands, c ∈ builtin.commands ∨ c.run.KeepsTo allowed

theorem isOrderly_builtin (allowed : Tree.Act → Prop) : builtin.IsOrderly allowed :=
  fun _ hc => .inl hc

/-- A line that an orderly registry runs changes the tree by allowed acts only. -/
theorem IsOrderly.exists_acts {allowed : Tree.Act → Prop} {r : Registry} (h : r.IsOrderly allowed)
    (hplain : ∀ a : Tree.Act, a.IsPlain → allowed a) (line : Text) (w : Workspace) :
    ∃ acts : List Tree.Act, (∀ a ∈ acts, allowed a) ∧
      (r.execute line w).workspace.tree = w.tree.actAll acts := by
  rcases r.execute_cases line w with ⟨hsame, -⟩ | ⟨c, hc, -, hafter, -⟩
  · exact ⟨[], fun _ ha => absurd ha List.not_mem_nil, by rw [hsame]; rfl⟩
  · rw [hafter]
    rcases h c hc with hbuiltin | hkeeps
    · exact (keepsTo_of_mem_builtin hbuiltin).mono hplain _ _ _
    · exact hkeeps _ _ _

end Registry

end DosConsole
