import DosConsole.Proofs.Console.Effect
import DosConsole.Proofs.Line.Quoting

/-!
# Whatever is in the tree can be typed

A name is **typable** when a path can lead over it and a line can hold it. The arguments on a line
hold no double quote, and normalization adds none to them, so that lines of built-in commands bring
typable names into the tree only, as long as the current directories hold no double quote either.
`cd` keeps that.

The path down to a node can then be written on a line. It is read back as one token, it is
normalized already, and, since names are distinct as well, it leads to that node and no other one
(`typed_back`).
-/

namespace DosConsole

/-! ### Typable names -/

/-- A name is **typable** when it is a segment and holds no double quote. -/
def IsTypable (name : Text) : Prop :=
  Path.IsSegment name ∧ .char '"' ∉ name

instance (name : Text) : Decidable (IsTypable name) :=
  inferInstanceAs (Decidable ((_ ∧ _ ∧ _ ∧ _) ∧ _))

namespace Path

/-- Normalization adds no double quote. -/
theorem quote_notMem_normalize {path cwd : Text} (hpath : .char '"' ∉ path)
    (hcwd : .char '"' ∉ cwd) : .char '"' ∉ normalize path cwd := by
  intro hmem
  rcases mem_of_mem_text hmem with hslash | ⟨s, hs, hmem⟩
  · exact absurd hslash (by decide)
  · exact (mem_of_mem_target hs hmem).elim hpath hcwd

/-- A target without double quotes leads over typable names. -/
theorem isTypable_of_mem_target {path cwd s : Text} (hpath : .char '"' ∉ path)
    (hcwd : .char '"' ∉ cwd) (hs : s ∈ target path cwd) : IsTypable s :=
  ⟨isSegment_of_mem_target hs, fun hmem => (mem_of_mem_target hs hmem).elim hpath hcwd⟩

/-- The path over typable names is a token. -/
theorem isToken_text {segs : List Text} (h : ∀ s ∈ segs, IsTypable s) :
    Line.IsToken (text segs) := by
  refine ⟨List.cons_ne_nil _ _, fun hmem => ?_⟩
  rcases mem_of_mem_text hmem with hslash | ⟨s, hs, hmem⟩
  · exact absurd hslash (by decide)
  · exact (h s hs).2 hmem

end Path

/-! ### Typing a path -/

/-- A command with a path over typable names is called with that path as its argument. -/
theorem Line.calls_path {path : List Text} (hpath : ∀ s ∈ path, IsTypable s) (name : Text)
    (hname : IsToken name) (hlower : name.lower = name) (hplain : name.hasBlank = false) :
    Calls (name ++ Symbol.char ' ' :: quote (Path.text path)) name ∧
      (parse (name ++ Symbol.char ' ' :: quote (Path.text path))).args = [Path.text path] := by
  have hline : name ++ Symbol.char ' ' :: quote (Path.text path) =
      written [name, Path.text path] := by
    rw [written_cons_cons, written_singleton, quote_of_plain hplain]
  have hargs : ∀ t ∈ [Path.text path], IsToken t := fun t ht =>
    List.mem_singleton.mp ht ▸ Path.isToken_text hpath
  have htight := isTight_written (List.forall_mem_cons.mpr ⟨hname, hargs⟩) (List.cons_ne_nil _ _)
  have hparse := parse_written hname hargs
  rw [hline]
  refine ⟨⟨htight.isBlankLine_eq, ?_⟩, ?_⟩
  · rw [hparse, hlower, hlower]
  · rw [hparse]

section AnyFolding

variable [Folding]

section Typing

variable {w : Workspace} {path : List Text} (hpath : ∀ s ∈ path, IsTypable s)

include hpath

/-- A path over typable names is looked up as it is. -/
theorem Tree.lookup_text (t : Tree) (cwd : Text) :
    t.lookup (Path.text path) cwd = (Path.text path, t.root.walk? path) := by
  have hsegments : ∀ s ∈ path, Path.IsSegment s := fun s hs => (hpath s hs).1
  rw [lookup, Path.normalize_text hsegments, resolve?, Path.segments_text hsegments]

/-- `cd` with the path of a directory goes there. -/
theorem Registry.execute_cd {n : Node} (hn : w.tree.root.walk? path = some n)
    (hdirectory : n.isDir = true) :
    builtin.execute ("cd " ++ Line.quote (Path.text path)) w =
      ⟨(Outcome.ok []).echoed (w.prompt ++ ("cd " ++ Line.quote (Path.text path))),
        { w with cwd := Path.text path }, none⟩ := by
  obtain ⟨hcalls, hargs⟩ : Line.Calls ("cd " ++ Line.quote (Path.text path)) "cd" ∧
      (Line.parse ("cd " ++ Line.quote (Path.text path))).args = [Path.text path] :=
    Line.calls_path hpath "cd" (by decide) (by decide) (by decide)
  have hrun : Builtin.changeDirectory builtin.menu
      (Line.parse ("cd " ++ Line.quote (Path.text path))).args w =
        ({ w with cwd := Path.text path }, .ok (.outcome (.ok []))) := by
    simp only [hargs, Builtin.changeDirectory, List.headD_cons, Tree.lookup_text hpath, hn,
      if_pos hdirectory]
  exact execute_of_calls Builtin.mem_cd hcalls hrun

/-- `type` with the path of a file shows its content. -/
theorem Registry.execute_type {name content : Text}
    (hn : w.tree.root.walk? path = some (.file name content)) :
    builtin.execute ("type " ++ Line.quote (Path.text path)) w =
      ⟨(Outcome.ok [content]).echoed (w.prompt ++ ("type " ++ Line.quote (Path.text path))),
        w, none⟩ := by
  obtain ⟨hcalls, hargs⟩ : Line.Calls ("type " ++ Line.quote (Path.text path)) "type" ∧
      (Line.parse ("type " ++ Line.quote (Path.text path))).args = [Path.text path] :=
    Line.calls_path hpath "type" (by decide) (by decide) (by decide)
  have hrun : Builtin.showFile builtin.menu
      (Line.parse ("type " ++ Line.quote (Path.text path))).args w =
        (w, .ok (.outcome (.ok [content]))) := by
    simp only [hargs, Builtin.showFile, Tree.lookup_text hpath, hn, Node.isDir, Node.read]
    rfl
  exact execute_of_calls Builtin.mem_type hcalls hrun

end Typing

/-! ### Names stay typable -/

/-- The console has the built-in commands only, and the path of its directory holds no double
quote. -/
def Console.IsQuoteless (c : Console) : Prop :=
  c.registry = .builtin ∧ .char '"' ∉ c.cwd

/-- All names in the tree are typable and, in every directory, distinct. -/
def Tree.IsTypable (t : Tree) : Prop :=
  t.root.AllNames (fun names => ∀ a ∈ names, DosConsole.IsTypable a) ∧ t.root.AllNames Distinct

/-- A change that a line of built-in commands makes leaves typable names in the tree. -/
theorem Builtin.Change.isTypable {w after : Workspace} {args : List Text} {name : Text}
    (h : Change w args name after) (hseed : Tree.seed.IsTypable) (htree : w.tree.IsTypable)
    (hargs : ∀ a ∈ args, .char '"' ∉ a) (hcwd : .char '"' ∉ w.cwd) : after.tree.IsTypable := by
  rcases h.exists_act with heq | ⟨a, heq, hnew⟩
  · rw [heq]
    exact htree
  · rw [heq]
    refine ⟨(nameRule_each _).allNames_act hseed.1 htree.1 fun new hmem => ?_,
      nameRule_distinct.allNames_act hseed.2 htree.2 fun _ _ => trivial⟩
    obtain ⟨target, hasked, hmem⟩ := hnew new hmem
    exact Path.isTypable_of_mem_target (hargs target hasked) hcwd hmem

/-- A change that a line of built-in commands makes brings no double quote into the path of the
current directory. -/
theorem Builtin.Change.quote_notMem_cwd {w after : Workspace} {args : List Text} {name : Text}
    (h : Change w args name after) (hargs : ∀ a ∈ args, .char '"' ∉ a)
    (hcwd : .char '"' ∉ w.cwd) : .char '"' ∉ after.cwd := by
  cases h with
  | go found directory =>
    refine Path.quote_notMem_normalize ?_ hcwd
    cases args with
    | nil => decide
    | cons target rest => exact hargs target List.mem_cons_self
  | edit editor asked leads newName taken => exact hcwd
  | reset => exact hcwd

/-- A line that calls built-in commands only keeps the path of the current directory without double
quotes and the tree typable. -/
theorem Console.submit_of_callsBuiltin {c : Console} {line : Text}
    (hline : c.registry.CallsBuiltin line) (hseed : Tree.seed.IsTypable) (hcwd : .char '"' ∉ c.cwd)
    {m : Machine} (htree : m.tree.IsTypable) :
    .char '"' ∉ (c.submit m line).2.1.cwd ∧ (c.submit m line).2.2.tree.IsTypable := by
  have hargs : ∀ a ∈ (Line.parse line).args, .char '"' ∉ a := fun a ha =>
    (Line.isToken_of_mem_args ha).2
  rw [cwd_submit, tree_submit]
  rcases hline.execute_cases (c.workspace m.tree) with hsame | ⟨name, hchange⟩
  · rw [hsame]
    exact ⟨hcwd, htree⟩
  · exact ⟨hchange.quote_notMem_cwd hargs hcwd, hchange.isTypable hseed htree hargs hcwd⟩

/-- A line of built-in commands keeps the console without double quotes and the tree typable. -/
theorem Console.IsQuoteless.submit {c : Console} (h : c.IsQuoteless) (hseed : Tree.seed.IsTypable)
    {m : Machine} (htree : m.tree.IsTypable) (line : Text) :
    (c.submit m line).2.1.IsQuoteless ∧ (c.submit m line).2.2.tree.IsTypable := by
  obtain ⟨hregistry, hcwd⟩ := h
  have hline : c.registry.CallsBuiltin line := fun d hd _ => hregistry ▸ hd
  obtain ⟨hquoteless, htypable⟩ := submit_of_callsBuiltin hline hseed hcwd htree
  exact ⟨⟨(c.registry_submit m line).trans hregistry, hquoteless⟩, htypable⟩

/-! ### Typing back -/

/-- On this machine whatever is in the tree can be **typed back**: every name is typable, and in a
console with the built-in commands, whatever its directory is, the path down to a node leads to
it. -/
structure Machine.TypesBack (m : Machine) : Prop where
  names : m.tree.root.AllNames fun names => ∀ a ∈ names, IsTypable a
  /-- `cd` with the path down to a directory succeeds and goes exactly there. -/
  goes : ∀ {path : List Text} {n : Node}, m.tree.root.Leads path n → n.isDir = true →
    ∀ {c : Console}, c.registry = .builtin →
      (c.submit m ("cd " ++ Line.quote (Path.text path))).1.success = true ∧
        (c.submit m ("cd " ++ Line.quote (Path.text path))).2.1.cwd = Path.text path
  /-- `type` with the path down to a file succeeds and shows exactly its content. -/
  shows : ∀ {path : List Text} {name content : Text},
    m.tree.root.Leads path (.file name content) → ∀ {c : Console}, c.registry = .builtin →
      (c.submit m ("type " ++ Line.quote (Path.text path))).1.success = true ∧
        (c.submit m ("type " ++ Line.quote (Path.text path))).1.output =
          [c.prompt ++ ("type " ++ Line.quote (Path.text path)), content]

/-- Where names are typable and distinct everything can be typed back. -/
theorem Tree.IsTypable.typesBack {m : Machine} (h : m.tree.IsTypable) : m.TypesBack where
  names := h.1
  goes hleads hdirectory c hregistry := by
    rw [Console.outcome_submit, Console.cwd_submit, hregistry,
      Registry.execute_cd (hleads.forall_names h.1) (hleads.walk?_eq h.2) hdirectory]
    exact ⟨rfl, rfl⟩
  shows hleads c hregistry := by
    rw [Console.outcome_submit, hregistry,
      Registry.execute_type (hleads.forall_names h.1) (hleads.walk?_eq h.2)]
    exact ⟨rfl, rfl⟩

end AnyFolding

namespace Station

/-- **Typed back.** Begin with a new tree, and let consoles with the built-in commands run whatever
lines, one console or the other. Whatever is in the tree then can be typed back. -/
theorem typed_back {s : Station} (hnew : s.machine.tree = .seed)
    (hconsoles : ∀ c ∈ s.consoles, c.registry = .builtin ∧ .char '"' ∉ c.cwd)
    (lines : List (Nat × Text)) :
    (s.run (lines.map fun l => .line l.1 l.2)).machine.TypesBack := by
  have hseed : Tree.seed.IsTypable :=
    ⟨Tree.allNames_seed (by decide) (by decide), Tree.distinct_seed⟩
  refine Tree.IsTypable.typesBack (keeps_run (P := Console.IsQuoteless) (T := Tree.IsTypable)
    (fun c m line hc ht => hc.submit hseed ht line) hconsoles (hnew ▸ hseed) _ fun a ha => ?_).2
  -- no act is done without a console
  obtain ⟨l, -, hl⟩ := List.mem_map.mp ha
  exact absurd hl (by simp)

/-- One console makes a directory whose name is a blank, and the other one goes there by a quote
that is never closed and makes a file in it. From the games both can be typed. -/
theorem typed_back_blank :
    let s : Station :=
      ⟨[.start .null false 0 none, .start .null true 0 none], ⟨.seed, .empty 0, []⟩⟩
    let lines : List (Nat × Text) :=
      [(0, "mkdir \" \""), (1, "CD \"games/../ /."), (1, "touch -r")]
    let m := (s.run (lines.map fun l => .line l.1 l.2)).machine
    let c : Console := { Console.start .null false 0 none with cwd := "/GAMES" }
    s.machine.tree = .seed ∧ (∀ c ∈ s.consoles, c.registry = .builtin ∧ .char '"' ∉ c.cwd) ∧
      (c.submit m "cd \"/ \"").2.1.cwd = "/ " ∧
      (c.submit m "type \"/ /-r\"").1.output = [c.prompt ++ "type \"/ /-r\"", ""] := by
  intro s lines m c
  have hconsoles : ∀ c ∈ s.consoles, c.registry = .builtin ∧ .char '"' ∉ c.cwd := by
    intro c hc
    simp only [s, List.mem_cons, List.not_mem_nil, or_false] at hc
    rcases hc with rfl | rfl
    · exact ⟨rfl, by decide⟩
    · exact ⟨rfl, by decide⟩
  have hmade : ∃ e ∈ m.tree.entries, e.face = .dir " " ∧
      ∃ f ∈ e.children, f.face = .file "-r" "" := by
    decide +kernel
  have hback : m.TypesBack := typed_back rfl hconsoles lines
  refine ⟨rfl, hconsoles, ?_⟩
  -- what was made is known by now, and how it was made does not matter
  clear_value m
  obtain ⟨e, he, hface, f, hf, hinside⟩ := hmade
  obtain ⟨children, rfl⟩ : ∃ children, e = .dir " " children := by
    cases e with
    | file name content => exact absurd hface (by simp [Node.face])
    | dir name children => exact ⟨children, by rw [Face.dir.inj hface]⟩
  obtain rfl : f = .file "-r" "" := by
    cases f with
    | file name content =>
      obtain ⟨rfl, rfl⟩ := Face.file.inj hinside
      rfl
    | dir name children => exact absurd hinside (by simp [Node.face])
  have hcd : "cd " ++ Line.quote (Path.text [" "]) = ("cd \"/ \"" : Text) := by decide
  have htype : "type " ++ Line.quote (Path.text [" ", "-r"]) = ("type \"/ /-r\"" : Text) := by
    decide
  have hgoes := (hback.goes (.down he (.here _)) rfl (c := c) rfl).2
  have hshows := (hback.shows (.down he (.down hf (.here _))) (c := c) rfl).2
  simp only [Node.name] at hgoes hshows
  rw [hcd] at hgoes
  rw [htype] at hshows
  exact ⟨hgoes, hshows⟩

end Station

end DosConsole
