import DosConsole.Command.Basic

/-!
# The registry of commands

Commands are registered under the lower-case form of their names, and a new registration replaces an
old one of the same form. The registry is kept in ascending order of the names, by code points, so
that no two commands share a name (`sorted`).
-/

namespace DosConsole

/-- Puts a command in its place among commands in ascending order of their names. -/
def Command.insert (c : Command) : List Command → List Command
  | [] => [c]
  | d :: rest =>
    if c.name < d.name then c :: d :: rest
    else if c.name = d.name then c :: rest
    else d :: Command.insert c rest

theorem Command.mem_insert {c d : Command} {cs : List Command} (h : d ∈ Command.insert c cs) :
    d = c ∨ d ∈ cs := by
  induction cs with
  | nil => simpa [Command.insert] using h
  | cons e rest ih =>
    by_cases hlt : c.name < e.name
    · simpa [Command.insert, hlt] using h
    by_cases heq : c.name = e.name
    · rw [Command.insert, if_neg hlt, if_pos heq] at h
      exact (List.mem_cons.mp h).imp id (List.mem_cons_of_mem _)
    · rw [Command.insert, if_neg hlt, if_neg heq] at h
      rcases List.mem_cons.mp h with rfl | h
      · exact .inr (List.mem_cons_self ..)
      · exact (ih h).imp id (List.mem_cons_of_mem _)

/-- **Order.** Putting a command in its place keeps the names in strictly ascending order. -/
theorem Command.pairwise_insert {c : Command} {cs : List Command}
    (h : cs.Pairwise (·.name < ·.name)) : (Command.insert c cs).Pairwise (·.name < ·.name) := by
  induction cs with
  | nil => simp [Command.insert]
  | cons d rest ih =>
    obtain ⟨below, ordered⟩ := List.pairwise_cons.mp h
    by_cases hlt : c.name < d.name
    · rw [Command.insert, if_pos hlt]
      refine List.pairwise_cons.mpr ⟨fun e he => ?_, h⟩
      rcases List.mem_cons.mp he with rfl | he
      · exact hlt
      · exact List.lt_trans hlt (below e he)
    by_cases heq : c.name = d.name
    · rw [Command.insert, if_neg hlt, if_pos heq]
      exact List.pairwise_cons.mpr ⟨fun e he => heq ▸ below e he, ordered⟩
    · rw [Command.insert, if_neg hlt, if_neg heq]
      refine List.pairwise_cons.mpr ⟨fun e he => ?_, ih ordered⟩
      rcases Command.mem_insert he with rfl | he
      · -- neither name is below the other and they differ, so the order is the other way round
        have hle : d.name ≤ e.name := List.not_lt.mp hlt
        exact Decidable.byContradiction fun hn =>
          heq (List.le_antisymm (List.not_lt.mp hn) hle)
      · exact below e he

/-- The commands that lines can call, in ascending order of their names. -/
structure Registry where
  commands : List Command
  sorted : commands.Pairwise (·.name < ·.name)

namespace Registry

/-- The registry without commands. -/
def empty : Registry :=
  ⟨[], .nil⟩

/-- Adds a command under the lower-case form of its name. -/
def register (r : Registry) (name description : Text) (run : Handler) : Registry where
  commands := Command.insert ⟨name.lower, description, run⟩ r.commands
  sorted := Command.pairwise_insert r.sorted

/-- Adds commands one after the other. -/
def registerAll (r : Registry) (commands : List Command) : Registry :=
  commands.foldl (fun r c => r.register c.name c.description c.run) r

/-- The command of a name, in any mixture of cases. -/
def lookup (r : Registry) (name : Text) : Option Command :=
  let key := name.lower
  r.commands.find? (·.name == key)

/-- Some command has the name, in any mixture of cases. -/
def has (r : Registry) (name : Text) : Bool :=
  let key := name.lower
  r.commands.any (·.name == key)

/-- The names of the commands. -/
def names (r : Registry) : List Text :=
  r.commands.map (·.name)

/-- The names and descriptions of the commands. -/
def menu (r : Registry) : Menu :=
  r.commands.map fun c => (c.name, c.description)

def size (r : Registry) : Nat :=
  r.commands.length

end Registry

end DosConsole
