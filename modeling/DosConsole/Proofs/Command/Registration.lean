import DosConsole.Builtin
import DosConsole.Proofs.Command.Change
import DosConsole.Proofs.Line.Quoting
import DosConsole.Proofs.Text.Lower

/-!
# The latest registration of a name

Commands are registered one after the other, and a registration replaces all earlier ones whose
names have the same lower-case form. What is found under a name is therefore the **latest** command
that was registered under it (`Registry.lookup_registerAll`). A name is taken to lower case when it
is registered, when it is read off a line and when it is looked up; that these agree is due to lower
case being settled (`Text.lower_lower`).

So a line goes to the handler of the latest command under its first token, with the other tokens as
arguments, and fails if there is none. The names are listed in ascending order, each with its latest
command, and `help` shows them so (`Registry.dispatch_follows_latest`).
-/

namespace DosConsole

variable {c : Command} {cs : List Command} {name key line : Text}

/-! ### The latest command -/

namespace Command

/-- Of the commands `cs`, registered one after the other, `c` is the **latest** under a name: it was
registered under the name in some mixture of cases, and none was after it. -/
def IsLatest (c : Command) (name : Text) (cs : List Command) : Prop :=
  ∃ before after, cs = before ++ c :: after ∧ c.name.lower = name.lower ∧
    ∀ d ∈ after, d.name.lower ≠ name.lower

/-- The latest of the commands under a name, if there is one. -/
def latest? (cs : List Command) (name : Text) : Option Command :=
  cs.reverse.find? fun c => c.name.lower == name.lower

/-- The command as it stands in a registry, under the lower-case form of its name. -/
def entry (c : Command) : Command :=
  { c with name := c.name.lower }

theorem find?_cons_beq (f : Command → Text) (c : Command) (cs : List Command) (key : Text) :
    (c :: cs).find? (f · == key) = if f c = key then some c else cs.find? (f · == key) := by
  rw [List.find?_cons]
  by_cases h : f c = key
  · rw [if_pos h, beq_iff_eq.mpr h]
  · rw [if_neg h, beq_eq_false_iff_ne.mpr h]

theorem latest?_concat (cs : List Command) (c : Command) (name : Text) :
    latest? (cs ++ [c]) name = if c.name.lower = name.lower then some c else latest? cs name := by
  rw [latest?, List.reverse_concat]
  exact find?_cons_beq (·.name.lower) c cs.reverse name.lower

theorem latest?_eq_some_iff : latest? cs name = some c ↔ c.IsLatest name cs := by
  rw [latest?, List.find?_eq_some_iff_append]
  constructor
  · rintro ⟨hname, after, before, hsplit, hafter⟩
    refine ⟨before.reverse, after.reverse, ?_, beq_iff_eq.mp hname, fun d hd => ?_⟩
    · have hback := congrArg List.reverse hsplit
      rw [List.reverse_reverse] at hback
      rw [hback]
      simp
    · simpa using hafter d (List.mem_reverse.mp hd)
  · rintro ⟨before, after, rfl, hname, hafter⟩
    refine ⟨beq_iff_eq.mpr hname, after.reverse, before.reverse, by simp, fun d hd => ?_⟩
    simpa using hafter d (List.mem_reverse.mp hd)

theorem latest?_eq_none_iff : latest? cs name = none ↔ ∀ c ∈ cs, c.name.lower ≠ name.lower := by
  simp [latest?]

/-- Names with the same lower-case form have the same latest command. -/
theorem latest?_lower (cs : List Command) (name : Text) :
    latest? cs name.lower = latest? cs name := by
  rw [latest?, latest?, Text.lower_lower]

/-- What is found under a name after a command was put in its place. -/
theorem find?_insert (c : Command) (cs : List Command) (key : Text) :
    (insert c cs).find? (·.name == key) =
      if c.name = key then some c else cs.find? (·.name == key) := by
  induction cs with
  | nil => exact find?_cons_beq Command.name c [] key
  | cons d rest ih =>
    rw [insert]
    split
    · exact find?_cons_beq Command.name c (d :: rest) key
    · split
      · -- the command that is replaced has the same name
        rename_i heq
        rw [find?_cons_beq Command.name, find?_cons_beq Command.name, ← heq]
        by_cases h : c.name = key
        · rw [if_pos h, if_pos h]
        · rw [if_neg h, if_neg h, if_neg h]
      · rename_i hne
        rw [find?_cons_beq Command.name, ih, find?_cons_beq Command.name]
        by_cases h : c.name = key
        · have hd : d.name ≠ key := fun hd => hne (h.trans hd.symm)
          rw [if_pos h, if_pos h, if_neg hd]
        · rw [if_neg h, if_neg h]

end Command

namespace Registry

variable {r : Registry} {w : Workspace}

theorem lookup_register (r : Registry) (c : Command) (name : Text) :
    (r.register c.name c.description c.run).lookup name =
      if c.name.lower = name.lower then some c.entry else r.lookup name :=
  Command.find?_insert c.entry r.commands name.lower

theorem registerAll_concat (r : Registry) (cs : List Command) (c : Command) :
    r.registerAll (cs ++ [c]) = (r.registerAll cs).register c.name c.description c.run := by
  rw [registerAll, List.foldl_append]
  rfl

/-- **The latest registration wins.** What is found under a name, in any mixture of cases, is the
latest command that was registered under it. -/
theorem lookup_registerAll (cs : List Command) (name : Text) :
    (empty.registerAll cs).lookup name = (Command.latest? cs name).map Command.entry := by
  induction cs using List.reverseRecOn with
  | nil => rfl
  | append_singleton cs c ih =>
    rw [registerAll_concat, lookup_register, Command.latest?_concat, ih]
    by_cases h : c.name.lower = name.lower
    · rw [if_pos h, if_pos h, Option.map_some]
    · rw [if_neg h, if_neg h]

/-- A command that was registered over a built-in one, under its name in other cases. -/
example : ((empty.registerAll (Builtin.commands ++ [⟨"LS", "Shows all", Builtin.help⟩])).lookup
    "lS").map Command.description = some "Shows all" := by decide

/-- The names are the lower-case forms that were registered. -/
theorem mem_names_iff :
    name ∈ (empty.registerAll cs).names ↔ ∃ c ∈ cs, c.name.lower = name := by
  have hnone : name ∉ empty.names := List.not_mem_nil
  rw [mem_names_registerAll, or_iff_right hnone]
  exact exists_congr fun c => and_congr_right fun _ => eq_comm

/-- Every command in the registry is the latest under its name. -/
theorem exists_isLatest (h : c ∈ (empty.registerAll cs).commands) :
    ∃ d : Command, d.IsLatest c.name cs ∧ c = d.entry := by
  have hlower : c.name.lower = c.name := by
    obtain ⟨d, -, hname⟩ := mem_names_iff.mp (List.mem_map_of_mem h)
    rw [← hname, Text.lower_lower]
  have hfound := lookup_of_mem h hlower
  rw [lookup_registerAll] at hfound
  obtain ⟨d, hd, hentry⟩ := Option.map_eq_some_iff.mp hfound
  exact ⟨d, Command.latest?_eq_some_iff.mp hd, hentry.symm⟩

end Registry

/-! ### Lines -/

/-- The token that names the command of a line; the empty text if the line has no tokens. -/
def Line.first (line : Text) : Text :=
  (words line).headD []

/-- The tokens of a line after the first. -/
def Line.others (line : Text) : List Text :=
  (words line).tail

/-- What **calling** a handler comes to, after the echo of a line: the workspace is left as the
handler leaves it, and the outcome is that of its reply, or of the fault of the handler or of
showing its reply. -/
def Handler.call (run : Handler) (menu : Menu) (args : List Text) (echo : Text) (w : Workspace) :
    Execution :=
  let (after, result) := run menu args w
  match result.bind Reply.toOutcome with
  | .ok outcome => ⟨outcome.echoed echo, after, none⟩
  | .error message => ⟨(Outcome.faulted message).echoed echo, after, some message⟩

/-- The line that `help` shows for a command. -/
def Command.helpLine (c : Command) : Text :=
  Builtin.padded c.name ++ " - " ++ c.description

namespace Registry

variable {r : Registry} {w : Workspace}

theorem execute_of_lookup_eq_some (hblank : line.isBlankLine = false)
    (hlookup : r.lookup (Line.first line).lower = some c) (w : Workspace) :
    r.execute line w = c.run.call r.menu (Line.others line) (w.prompt ++ line) w := by
  have hfirst : (Line.parse line).name = (Line.first line).lower := by rw [Line.parse_eq]; rfl
  have hothers : (Line.parse line).args = Line.others line := by rw [Line.parse_eq]; rfl
  rw [execute, if_neg (Bool.eq_false_iff.mp hblank)]
  simp only [hfirst, hothers, hlookup]
  rfl

theorem execute_of_lookup_eq_none (hblank : line.isBlankLine = false)
    (hlookup : r.lookup (Line.first line).lower = none) (w : Workspace) :
    r.execute line w =
      ⟨(Outcome.unknown (Line.first line).lower).echoed (w.prompt ++ line), w, none⟩ := by
  have hfirst : (Line.parse line).name = (Line.first line).lower := by rw [Line.parse_eq]; rfl
  rw [execute, if_neg (Bool.eq_false_iff.mp hblank)]
  simp only [hfirst, hlookup]

theorem call_help [Folding] (r : Registry) (args : List Text) (echo : Text) (w : Workspace) :
    Handler.call Builtin.help r.menu args echo w =
      ⟨.ok (echo :: r.commands.map Command.helpLine), w, none⟩ := by
  have hlines : (r.menu.map fun entry => Builtin.padded entry.1 ++ " - " ++ entry.2) =
      r.commands.map Command.helpLine := by
    rw [menu, List.map_map]
    rfl
  rw [Handler.call, Builtin.help, Handler.report]
  simp only [hlines]
  rfl

/-- A registry **follows** the registrations that were made one after the other. -/
structure Follows [Folding] (r : Registry) (cs : List Command) : Prop where
  /-- A line that is not blank calls the handler of the latest command under its first token, with
  exactly the other tokens. If there is no command under it, the line fails, quotes the token in
  lower case, and leaves everything as it was. -/
  calls : ∀ (line : Text) (w : Workspace), line.isBlankLine = false →
    (∃ c : Command, c.IsLatest (Line.first line) cs ∧
      r.execute line w = c.run.call r.menu (Line.others line) (w.prompt ++ line) w) ∨
    (∀ c ∈ cs, c.name.lower ≠ (Line.first line).lower) ∧
      r.execute line w = ⟨⟨false, [w.prompt ++ line],
        some ("'" ++ (Line.first line).lower ++
          "' is not recognized as an internal or external command"), 127, false⟩, w, none⟩
  ascending : r.names.Pairwise (· < ·)
  mem_names : ∀ name, name ∈ r.names ↔ ∃ c ∈ cs, c.name.lower = name
  /-- There is one command for each name, in the order of the names: the latest under it. -/
  entries : List.Forall₂ (fun name e => ∃ c : Command, c.IsLatest name cs ∧ e = c.entry)
    r.names r.commands
  /-- A line that calls `help`, by whatever name, shows one line for each command, in that order. -/
  help : ∀ (line : Text) (w : Workspace) (c : Command), line.isBlankLine = false →
    c.IsLatest (Line.first line) cs → c.run = Builtin.help →
      r.execute line w = ⟨.ok ((w.prompt ++ line) :: r.commands.map Command.helpLine), w, none⟩

/-- **Dispatch follows the latest registration.** Whatever commands were registered one after the
other, under whatever names, the registry calls, lists and shows the latest under each. -/
theorem dispatch_follows_latest [Folding] (cs : List Command) :
    (empty.registerAll cs).Follows cs := by
  have calls : ∀ (line : Text) (w : Workspace), line.isBlankLine = false →
      ∀ c : Command, c.IsLatest (Line.first line) cs → (empty.registerAll cs).execute line w =
        c.run.call (empty.registerAll cs).menu (Line.others line) (w.prompt ++ line) w := by
    intro line w hblank c hlatest
    refine execute_of_lookup_eq_some (c := c.entry) hblank ?_ w
    rw [lookup_registerAll, Command.latest?_lower, Command.latest?_eq_some_iff.mpr hlatest]
    rfl
  refine ⟨fun line w hblank => ?_, ?_, fun name => mem_names_iff, ?_, ?_⟩
  · cases hlatest : Command.latest? cs (Line.first line) with
    | none =>
      refine .inr ⟨Command.latest?_eq_none_iff.mp hlatest, execute_of_lookup_eq_none hblank ?_ w⟩
      rw [lookup_registerAll, Command.latest?_lower, hlatest]
      rfl
    | some c =>
      have hc := Command.latest?_eq_some_iff.mp hlatest
      exact .inl ⟨c, hc, calls line w hblank c hc⟩
  · exact List.pairwise_map.mpr (empty.registerAll cs).sorted
  · rw [names, List.forall₂_map_left_iff, List.forall₂_same]
    exact fun e he => exists_isLatest he
  · intro line w c hblank hlatest hhelp
    rw [calls line w hblank c hlatest, hhelp, call_help]

end Registry

end DosConsole
