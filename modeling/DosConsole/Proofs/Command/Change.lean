import DosConsole.Command.Dispatch
import DosConsole.Proofs.Command.Editing
import Mathlib.Data.List.Nodup

/-!
# What a command changes

A line calls at most one command, by the lower-case form of its first token, and leaves the
workspace as that command leaves it (`Registry.execute_cases`). A built-in command either leaves the
workspace alone or ends well with one **change**: `cd` goes to a directory, `mkdir`, `touch` and
`rm` carry out one operation at an argument, and `clearfs` brings a new tree (`run_cases`). Nothing
else is ever changed, and `cd` that goes nowhere has failed.

What lines of built-in commands keep is read off these cases, for the tree (`Change.exists_act`),
for its revision and for the current directory.
-/

namespace DosConsole

/-! ### What a line calls -/

/-- The line **calls** the command of that name: it is not blank, and its first token is the name in
some mixture of cases. -/
def Line.Calls (line name : Text) : Prop :=
  line.isBlankLine = false ∧ (Line.parse line).name.lower = name

/-- The handler **ended well**: it gave a reply that can be shown, and the outcome of it is a
success. -/
def Handler.EndsWell (r : Workspace × Except Text Reply) : Prop :=
  ∃ o, r.2.bind Reply.toOutcome = .ok o ∧ o.success = true

namespace Registry

/-- A command in a registry to which others were added is one of the old or stands for one of the
new. -/
theorem mem_registerAll {r : Registry} {cs : List Command} {c : Command}
    (h : c ∈ (r.registerAll cs).commands) :
    c ∈ r.commands ∨ ∃ d ∈ cs, c.name = d.name.lower ∧ c.run = d.run := by
  induction cs generalizing r with
  | nil => exact .inl h
  | cons d rest ih =>
    rcases ih (r := r.register d.name d.description d.run) h with hold | ⟨e, he, hname, hrun⟩
    · rcases Command.mem_insert hold with rfl | hold
      · exact .inr ⟨d, List.mem_cons_self, rfl, rfl⟩
      · exact .inl hold
    · exact .inr ⟨e, List.mem_cons_of_mem _ he, hname, hrun⟩

theorem mem_names_insert {c : Command} {cs : List Command} {name : Text} :
    name ∈ (Command.insert c cs).map (·.name) ↔ name = c.name ∨ name ∈ cs.map (·.name) := by
  induction cs with
  | nil => simp [Command.insert]
  | cons d rest ih =>
    rw [Command.insert]
    split
    · simp
    · split
      · rename_i heq
        simp [heq]
      · simp only [List.map_cons, List.mem_cons, ih]
        exact or_left_comm

/-- The names in a registry to which others were added are the old ones and the lower-case forms of
the new ones. -/
theorem mem_names_registerAll {r : Registry} {cs : List Command} {name : Text} :
    name ∈ (r.registerAll cs).names ↔ name ∈ r.names ∨ ∃ c ∈ cs, name = c.name.lower := by
  induction cs generalizing r with
  | nil => simp [registerAll]
  | cons c rest ih =>
    have hrest := ih (r := r.register c.name c.description c.run)
    have hfirst : name ∈ (r.register c.name c.description c.run).names ↔
        name = c.name.lower ∨ name ∈ r.names := mem_names_insert
    rw [registerAll, List.foldl_cons, ← registerAll, hrest, hfirst]
    simp only [List.mem_cons, exists_eq_or_imp]
    rw [or_comm (a := name = c.name.lower), or_assoc]

/-- No two commands of a registry have the same name. -/
theorem eq_of_name_eq {r : Registry} {c d : Command} (hc : c ∈ r.commands) (hd : d ∈ r.commands)
    (h : c.name = d.name) : c = d := by
  have hnodup : (r.commands.map (·.name)).Nodup := by
    refine List.pairwise_map.mpr (r.sorted.imp fun hlt heq => ?_)
    rw [heq] at hlt
    exact List.lt_irrefl _ hlt
  exact List.inj_on_of_nodup_map hnodup hc hd h

/-- A command is looked up under its name, in any mixture of cases. -/
theorem lookup_of_mem {r : Registry} {c : Command} {name : Text} (hc : c ∈ r.commands)
    (hname : name.lower = c.name) : r.lookup name = some c := by
  cases hlookup : r.lookup name with
  | none =>
    rw [lookup] at hlookup
    exact absurd (beq_iff_eq.mpr hname.symm) (List.find?_eq_none.mp hlookup c hc)
  | some d =>
    rw [lookup] at hlookup
    have hfound : d.name = name.lower := by simpa using List.find?_some hlookup
    rw [eq_of_name_eq (List.mem_of_find?_eq_some hlookup) hc (hfound.trans hname)]

/-- A line that calls a command comes to what this command replies. -/
theorem execute_of_mem {r : Registry} {c : Command} {line : Text} {w after : Workspace}
    {reply : Reply} {o : Outcome} (hc : c ∈ r.commands) (hcalls : Line.Calls line c.name)
    (hrun : c.run r.menu (Line.parse line).args w = (after, .ok reply))
    (hreply : reply.toOutcome = .ok o) :
    r.execute line w = ⟨o.echoed (w.prompt ++ line), after, none⟩ := by
  rw [execute, if_neg (Bool.eq_false_iff.mp hcalls.1)]
  simp only [lookup_of_mem hc hcalls.2, hrun, Execution.ended, Except.bind, hreply]

theorem success_echoed (o : Outcome) (echo : Text) : (o.echoed echo).success = o.success := by
  rw [Outcome.echoed]
  split
  · rfl
  · rfl

/-- **One line.** A line calls no command and leaves the workspace alone, or it calls one, leaves
the workspace as that command leaves it, and succeeds just when the command ends well. -/
theorem execute_cases (r : Registry) (line : Text) (w : Workspace) :
    ((r.execute line w).workspace = w ∧ ∀ c ∈ r.commands, ¬ Line.Calls line c.name) ∨
    ∃ c ∈ r.commands, Line.Calls line c.name ∧
      (r.execute line w).workspace = (c.run r.menu (Line.parse line).args w).1 ∧
      ((r.execute line w).outcome.success = true ↔
        Handler.EndsWell (c.run r.menu (Line.parse line).args w)) := by
  rw [execute]
  split
  · rename_i hblank
    exact .inl ⟨rfl, fun c _ hcalls => absurd hcalls.1 (by rw [hblank]; simp)⟩
  · rename_i hblank
    simp only
    split
    · rename_i hlookup
      refine .inl ⟨rfl, fun c hc hcalls => ?_⟩
      exact absurd (beq_iff_eq.mpr hcalls.2.symm) (List.find?_eq_none.mp hlookup c hc)
    · rename_i c hlookup
      rw [lookup] at hlookup
      have hname : c.name = (Line.parse line).name.lower := by
        simpa using List.find?_some hlookup
      refine .inr ⟨c, List.mem_of_find?_eq_some hlookup,
        ⟨Bool.eq_false_iff.mpr hblank, hname.symm⟩, ?_⟩
      rw [Execution.ended]
      split
      · rename_i o hreply
        refine ⟨rfl, ?_⟩
        simp only [success_echoed, Handler.EndsWell, hreply, Except.ok.injEq, exists_eq_left']
      · rename_i message hreply
        refine ⟨rfl, iff_of_false ?_ ?_⟩
        · rw [success_echoed]
          exact Bool.false_ne_true
        · rintro ⟨o, ho, -⟩
          exact absurd (hreply.symm.trans ho) (by simp)

end Registry

/-! ### What a built-in command does -/

namespace Builtin

theorem Succeeds.endsWell {r : Workspace × Except Text Reply} (h : Succeeds r) :
    Handler.EndsWell r := by
  obtain ⟨o, heq, hsuccess⟩ := h
  exact ⟨o, by rw [heq]; rfl, hsuccess⟩

theorem not_endsWell_fail (w : Workspace) (error : Text) (exitCode : Int) :
    ¬ Handler.EndsWell (w, .ok (.outcome (.fail error exitCode))) := by
  rintro ⟨o, heq, hsuccess⟩
  obtain rfl : Outcome.fail error exitCode = o := by
    simpa [Except.bind, Reply.toOutcome] using heq
  exact absurd hsuccess (by simp [Outcome.fail])

variable [Folding]

/-- What a built-in command of the given name **changes** when it is given the arguments: the
workspace that it leaves. -/
inductive Change (w : Workspace) (args : List Text) : Text → Workspace → Prop
  /-- `cd` goes to the directory that its target leads to. -/
  | go {n : Node} (found : w.tree.resolve? (Path.normalize (args.headD "/") w.cwd) = some n)
      (directory : n.isDir = true) :
      Change w args "cd" { w with cwd := Path.normalize (args.headD "/") w.cwd }
  /-- One operation is carried out at an argument, in the directory and under the last segment that
  it leads to. -/
  | edit {name target last : Text} {dir : List Text} {e : Edit} {entry : Node} {after : Tree}
      (editor : name ∈ (["mkdir", "touch", "rm"] : List Text)) (asked : target ∈ args)
      (leads : Path.target target w.cwd = dir ++ [last]) (newName : ∀ new ∈ e.newName?, new = last)
      (taken : w.tree.editAt (Path.text dir) e = .ok (entry, after)) :
      Change w args name { w with tree := after }
  | reset : Change w args "clearfs" { w with tree := w.tree.reset }

/-- What can be said of every built-in command: it leaves the workspace alone, and if it is `cd` it
has not ended well, or it ended well with a change. -/
def Accounted (w : Workspace) (args : List Text) (name : Text)
    (r : Workspace × Except Text Reply) : Prop :=
  (r.1 = w ∧ (name = "cd" → ¬ Handler.EndsWell r)) ∨
    (Handler.EndsWell r ∧ Change w args name r.1)

variable {w : Workspace} {args : List Text} {name : Text}

/-- A command that leaves the workspace alone is accounted for, unless it is `cd`. -/
theorem Accounted.of_unchanged {r : Workspace × Except Text Reply} (h : r.1 = w)
    (hname : name ≠ "cd") : Accounted w args name r :=
  .inl ⟨h, fun heq => absurd heq hname⟩

/-- A command that carries out an operation on one of its arguments is accounted for. -/
theorem Carries.accounted {target : Text} {e : Text → Edit} {r : Workspace × Except Text Reply}
    (h : Carries w target e r) (hname : name ∈ (["mkdir", "touch", "rm"] : List Text))
    (hasked : target ∈ args) (he : ∀ last, ∀ new ∈ (e last).newName?, new = last) :
    Accounted w args name r := by
  by_cases htaken : ∃ (dir : List Text) (last : Text) (entry : Node) (after : Tree),
      Path.target target w.cwd = dir ++ [last] ∧
      w.tree.editAt (Path.text dir) (e last) = .ok (entry, after)
  · obtain ⟨dir, last, entry, after, htarget, hedit⟩ := htaken
    obtain ⟨hafter, hsucceeds⟩ := h.done htarget hedit
    refine .inr ⟨hsucceeds.endsWell, ?_⟩
    rw [hafter]
    exact .edit hname hasked htarget (he last) hedit
  · obtain ⟨hafter, -⟩ := h.refused fun dir last entry after htarget hedit =>
      htaken ⟨dir, last, entry, after, htarget, hedit⟩
    refine .of_unchanged hafter ?_
    rintro rfl
    exact absurd hname (by decide)

/-- A command that carries out an operation on its first argument is accounted for. -/
theorem accounted_of_carries {h : Handler} {e : Text → Edit}
    (hnone : ∀ menu w, (h menu [] w).1 = w)
    (hcarries : ∀ menu w target rest, Carries w target e (h menu (target :: rest) w))
    (hname : name ∈ (["mkdir", "touch", "rm"] : List Text))
    (he : ∀ last, ∀ new ∈ (e last).newName?, new = last) (menu : Menu) (args : List Text)
    (w : Workspace) : Accounted w args name (h menu args w) := by
  cases args with
  | nil =>
    refine .of_unchanged (hnone menu w) ?_
    rintro rfl
    exact absurd hname (by decide)
  | cons target rest =>
    exact (hcarries menu w target rest).accounted hname List.mem_cons_self he

theorem accounted_makeDirectory (menu : Menu) (args : List Text) (w : Workspace) :
    Accounted w args "mkdir" (makeDirectory menu args w) :=
  accounted_of_carries (fun _ _ => rfl) carries_makeDirectory (by decide)
    (fun _ _ hnew => (Option.some.inj hnew).symm) menu args w

theorem accounted_makeFile (menu : Menu) (args : List Text) (w : Workspace) :
    Accounted w args "touch" (makeFile menu args w) :=
  accounted_of_carries (fun _ _ => rfl) carries_makeFile (by decide)
    (fun _ _ hnew => (Option.some.inj hnew).symm) menu args w

theorem accounted_remove (menu : Menu) (args : List Text) (w : Workspace) :
    Accounted w args "rm" (remove menu args w) := by
  cases hargs : args.find? (!isRecursiveFlag ·) with
  | none =>
    have hfilter : args.filter (!isRecursiveFlag ·) = [] :=
      List.filter_eq_nil_iff.mpr (List.find?_eq_none.mp hargs)
    refine .of_unchanged ?_ (by decide)
    simp only [remove, hfilter]
  | some target =>
    refine (carries_remove menu w hargs).accounted (by decide)
      (List.mem_of_find?_eq_some hargs) fun last new hnew => ?_
    exact absurd hnew (by simp [Edit.newName?])

theorem accounted_changeDirectory (menu : Menu) (args : List Text) (w : Workspace) :
    Accounted w args "cd" (changeDirectory menu args w) := by
  simp only [changeDirectory, Tree.lookup]
  split
  · exact .inl ⟨rfl, fun _ => not_endsWell_fail _ _ _⟩
  · rename_i path n hlookup
    obtain ⟨rfl, hfound⟩ := Prod.mk.inj hlookup
    split
    · rename_i hdirectory
      exact .inr ⟨(succeeds_ok _ _).endsWell, .go hfound hdirectory⟩
    · exact .inl ⟨rfl, fun _ => not_endsWell_fail _ _ _⟩

theorem listDirectory_fst (menu : Menu) (args : List Text) (w : Workspace) :
    (listDirectory menu args w).1 = w := by
  simp only [listDirectory]
  split
  · rfl
  · split
    · split <;> rfl
    · rfl

theorem showFile_fst (menu : Menu) (args : List Text) (w : Workspace) :
    (showFile menu args w).1 = w := by
  simp only [showFile]
  split
  · rfl
  · split
    · rfl
    · split
      · rfl
      · split <;> rfl

/-- **The cases of a built-in command.** -/
theorem run_cases {c : Command} (h : c ∈ commands) (menu : Menu) (args : List Text)
    (w : Workspace) : Accounted w args c.name (c.run menu args w) := by
  have report (name : Text) (f : Menu → List Text → Workspace → Outcome) (hname : name ≠ "cd") :
      Accounted w args name (Handler.report f menu args w) := .of_unchanged rfl hname
  have list (name : Text) (hname : name ≠ "cd") :
      Accounted w args name (listDirectory menu args w) :=
    .of_unchanged (listDirectory_fst menu args w) hname
  have typed (name : Text) (hname : name ≠ "cd") : Accounted w args name (showFile menu args w) :=
    .of_unchanged (showFile_fst menu args w) hname
  simp only [commands, List.mem_cons, List.not_mem_nil, or_false] at h
  rcases h with rfl | rfl | rfl | rfl | rfl | rfl | rfl | rfl | rfl | rfl | rfl | rfl | rfl | rfl
  · exact report "help" _ (by decide)
  · exact report "cls" _ (by decide)
  · exact report "clear" _ (by decide)
  · exact accounted_changeDirectory menu args w
  · exact list "dir" (by decide)
  · exact list "ls" (by decide)
  · exact report "pwd" _ (by decide)
  · exact typed "type" (by decide)
  · exact typed "cat" (by decide)
  · exact report "echo" _ (by decide)
  · exact accounted_makeDirectory menu args w
  · exact accounted_makeFile menu args w
  · exact accounted_remove menu args w
  · exact .inr ⟨(succeeds_ok _ _).endsWell, .reset⟩

/-- A change is an act on the tree, or leaves it alone. A new entry has the name of a segment that
one of the arguments leads over. -/
theorem Change.exists_act {after : Workspace} (h : Change w args name after) :
    after.tree = w.tree ∨ ∃ a : Tree.Act, after.tree = w.tree.act a ∧
      ∀ new ∈ a.newName?, ∃ target ∈ args, new ∈ Path.target target w.cwd := by
  cases h with
  | go found directory => exact .inl rfl
  | edit editor asked leads newName taken =>
    refine .inr ⟨_, (Tree.act_of_editAt taken).symm, fun new hnew => ⟨_, asked, ?_⟩⟩
    rw [leads, newName new hnew]
    exact List.mem_append_right _ List.mem_cons_self
  | reset => exact .inr ⟨.reset, rfl, fun new hnew => absurd hnew (by simp [Tree.Act.newName?])⟩

theorem names_commands : commands.map (·.name) = (["help", "cls", "clear", "cd", "dir", "ls", "pwd",
    "type", "cat", "echo", "mkdir", "touch", "rm", "clearfs"] : List Text) := rfl

theorem mem_cd : ⟨"cd", "Change directory", changeDirectory⟩ ∈ commands := by
  simp [commands]

theorem mem_type : ⟨"type", "Show file contents (alias CAT)", showFile⟩ ∈ commands := by
  simp [commands]

/-- The names of the built-in commands are in lower case. -/
theorem lower_name {c : Command} (h : c ∈ commands) : c.name.lower = c.name := by
  have hlower : ∀ name ∈ (["help", "cls", "clear", "cd", "dir", "ls", "pwd", "type", "cat", "echo",
      "mkdir", "touch", "rm", "clearfs"] : List Text), name.lower = name := by decide
  exact hlower c.name (names_commands ▸ List.mem_map_of_mem h)

/-- No two built-in commands have the same name. -/
theorem eq_of_name_eq {c d : Command} (hc : c ∈ commands) (hd : d ∈ commands)
    (h : c.name = d.name) : c = d := by
  have hnodup : (commands.map (·.name)).Nodup := by
    rw [names_commands]
    decide
  exact List.inj_on_of_nodup_map hnodup hc hd h

end Builtin

/-! ### Lines of built-in commands -/

namespace Registry

variable [Folding]

/-- A command of the built-in registry runs like a built-in command of its name. -/
theorem mem_builtin {c : Command} (h : c ∈ builtin.commands) :
    ∃ d ∈ Builtin.commands, c.name = d.name ∧ c.run = d.run := by
  rcases mem_registerAll h with hold | ⟨d, hd, hname, hrun⟩
  · exact absurd hold List.not_mem_nil
  · exact ⟨d, hd, hname.trans (Builtin.lower_name hd), hrun⟩

/-- Every built-in command is in the built-in registry under its name. -/
theorem exists_mem_builtin {d : Command} (h : d ∈ Builtin.commands) :
    ∃ c ∈ builtin.commands, c.name = d.name ∧ c.run = d.run := by
  have hnames : d.name ∈ builtin.names :=
    mem_names_registerAll.mpr (.inr ⟨d, h, (Builtin.lower_name h).symm⟩)
  obtain ⟨c, hc, hname⟩ := List.mem_map.mp hnames
  obtain ⟨e, he, heq, hrun⟩ := mem_builtin hc
  obtain rfl : e = d := Builtin.eq_of_name_eq he h (heq.symm.trans hname)
  exact ⟨c, hc, hname, hrun⟩

/-- A line that calls a built-in command comes to the outcome that this command replies. -/
theorem execute_of_calls {name description : Text} {run : Handler}
    (h : ⟨name, description, run⟩ ∈ Builtin.commands) {line : Text} {w after : Workspace}
    {o : Outcome} (hcalls : Line.Calls line name)
    (hrun : run builtin.menu (Line.parse line).args w = (after, .ok (.outcome o))) :
    builtin.execute line w = ⟨o.echoed (w.prompt ++ line), after, none⟩ := by
  obtain ⟨c, hc, hname, hsame⟩ := exists_mem_builtin h
  have hsaid : c.run builtin.menu (Line.parse line).args w = (after, .ok (.outcome o)) := by
    rw [hsame]
    exact hrun
  exact execute_of_mem hc (hname ▸ hcalls) hsaid rfl

/-- In this registry the line **calls built-in commands only**: whatever command it calls there is a
built-in one. -/
def CallsBuiltin (r : Registry) (line : Text) : Prop :=
  ∀ c ∈ r.commands, Line.Calls line c.name → c ∈ builtin.commands

/-- A line that calls built-in commands only leaves the workspace alone, or changes it as one of
them does. -/
theorem CallsBuiltin.execute_cases {r : Registry} {line : Text} (h : r.CallsBuiltin line)
    (w : Workspace) : (r.execute line w).workspace = w ∨
      ∃ name, Builtin.Change w (Line.parse line).args name (r.execute line w).workspace := by
  rcases r.execute_cases line w with ⟨hsame, -⟩ | ⟨c, hc, hcalls, hafter, -⟩
  · exact .inl hsame
  · obtain ⟨d, hd, -, hrun⟩ := mem_builtin (h c hc hcalls)
    rw [hafter, hrun]
    rcases Builtin.run_cases hd r.menu (Line.parse line).args w with ⟨hsame, -⟩ | ⟨-, hchange⟩
    · exact .inl hsame
    · exact .inr ⟨_, hchange⟩

/-- **The cases of a line.** A line of built-in commands leaves the workspace alone, and if it calls
`cd` it has failed, or it succeeds with the change of the command that it calls. -/
theorem execute_builtin_cases (line : Text) (w : Workspace) :
    ((builtin.execute line w).workspace = w ∧
      (Line.Calls line "cd" → (builtin.execute line w).outcome.success = false)) ∨
    ∃ name, Line.Calls line name ∧ (builtin.execute line w).outcome.success = true ∧
      Builtin.Change w (Line.parse line).args name (builtin.execute line w).workspace := by
  rcases execute_cases builtin line w with ⟨hsame, hnone⟩ | ⟨c, hc, hcalls, hafter, hsuccess⟩
  · obtain ⟨c, hc, hname, -⟩ := exists_mem_builtin Builtin.mem_cd
    exact .inl ⟨hsame, fun hcalls => absurd (hname ▸ hcalls) (hnone c hc)⟩
  · obtain ⟨d, hd, hname, hrun⟩ := mem_builtin hc
    rw [hafter]
    rw [hrun] at hsuccess ⊢
    rcases Builtin.run_cases hd builtin.menu (Line.parse line).args w with
      ⟨hsame, hfails⟩ | ⟨hends, hchange⟩
    · refine .inl ⟨hsame, fun hcd => Bool.eq_false_iff.mpr fun htrue => ?_⟩
      have hname : d.name = "cd" := hname.symm.trans (hcalls.2.symm.trans hcd.2)
      exact hfails hname (hsuccess.mp htrue)
    · exact .inr ⟨d.name, hname ▸ hcalls, hsuccess.mpr hends, hchange⟩

end Registry

end DosConsole
