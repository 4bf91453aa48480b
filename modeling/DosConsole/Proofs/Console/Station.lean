import DosConsole.Console
import DosConsole.Proofs.Command.Orderly
import DosConsole.Proofs.Snapshot.RoundTrip

/-!
# Consoles that share a tree

A **station** is a machine with the consoles that work on it. In a step one of the consoles runs a
line, or somebody acts on the tree without a console. Whatever happens, the tree changes by acts
only, provided that the registries of the consoles are orderly (`exists_acts_run`). So the rules for
names that hold of the tree at first hold of it for ever, and names that are distinct stay distinct
(`distinct_run`).
-/

namespace DosConsole

/-! ### One line -/

namespace Console

/-- Keeping the tree leaves it as it is. -/
theorem tree_persist (c : Console) (m : Machine) : (c.persist m).2.tree = m.tree := by
  rw [persist]
  split
  · rfl
  · split
    · rfl
    · rfl

/-- Keeping the tree changes nothing of the console but its keeper. -/
theorem console_persist (c : Console) (m : Machine) :
    (c.persist m).1 = { c with keeper := (c.persist m).1.keeper } := by
  rw [persist]
  split
  · rfl
  · split
    · rfl
    · rfl

/-- A line is answered by what its command came to. -/
theorem outcome_submit (c : Console) (m : Machine) (line : Text) :
    (c.submit m line).1 = (c.registry.execute line (c.workspace m.tree)).outcome := by
  rw [submit]
  simp only
  split
  · rfl
  · rfl

/-- The console and the machine after a line was run, before anything is kept. -/
def settled (c : Console) (m : Machine) (line : Text) : Console × Machine :=
  c.settle m line (c.registry.execute line (c.workspace m.tree))

/-- Nothing is kept after a line that leaves the revision, and the tree is kept after any other. -/
theorem submit_cases (c : Console) (m : Machine) (line : Text) :
    ((c.settled m line).2.tree.revision = m.tree.revision ∧
        (c.submit m line).2 = c.settled m line) ∨
      ((c.settled m line).2.tree.revision ≠ m.tree.revision ∧
        (c.submit m line).2 = (c.settled m line).1.persist (c.settled m line).2) := by
  rw [submit]
  simp only
  split
  · rename_i hrevision
    exact .inl ⟨hrevision, rfl⟩
  · rename_i hrevision
    exact .inr ⟨hrevision, rfl⟩

/-- A line leaves the tree that its command left. -/
theorem tree_submit (c : Console) (m : Machine) (line : Text) :
    (c.submit m line).2.2.tree =
      (c.registry.execute line (c.workspace m.tree)).workspace.tree := by
  rcases c.submit_cases m line with ⟨-, hsubmit⟩ | ⟨-, hsubmit⟩
  · rw [hsubmit]
    rfl
  · rw [hsubmit, tree_persist]
    rfl

/-- A line leaves the console as it settles what was run, but for the keeper. -/
theorem console_submit (c : Console) (m : Machine) (line : Text) :
    (c.submit m line).2.1 =
      { (c.settle m line (c.registry.execute line (c.workspace m.tree))).1 with
        keeper := (c.submit m line).2.1.keeper } := by
  rcases c.submit_cases m line with ⟨-, hsubmit⟩ | ⟨-, hsubmit⟩
  · rw [hsubmit]
    rfl
  · rw [hsubmit]
    exact console_persist _ _

theorem registry_submit (c : Console) (m : Machine) (line : Text) :
    (c.submit m line).2.1.registry = c.registry := by
  rw [console_submit]
  rfl

theorem cwd_submit (c : Console) (m : Machine) (line : Text) :
    (c.submit m line).2.1.cwd =
      (c.registry.execute line (c.workspace m.tree)).workspace.cwd := by
  rw [console_submit]
  rfl

end Console

/-! ### Stations -/

/-- Consoles that work on one machine. -/
structure Station where
  consoles : List Console
  machine : Machine

namespace Station

/-- What may happen at a station. -/
inductive Step where
  /-- The console at that position runs a line. -/
  | line (console : Nat) (text : Text)
  /-- Somebody acts on the tree. -/
  | act (act : Tree.Act)

/-- The station after one of the consoles ran a line. -/
def submit (s : Station) (console : Nat) (line : Text) : Station :=
  match s.consoles[console]? with
  | none => s
  | some c =>
    let (_, after, machine) := c.submit s.machine line
    ⟨s.consoles.set console after, machine⟩

section AnyFolding

variable [Folding]

/-- The station after a step. -/
def step (s : Station) : Step → Station
  | .line console text => s.submit console text
  | .act a => { s with machine := { s.machine with tree := s.machine.tree.act a } }

/-- The station after steps that are taken one after the other. -/
def run (s : Station) (steps : List Step) : Station :=
  steps.foldl step s

/-- The registries of all consoles are orderly. -/
def IsOrderly (allowed : Tree.Act → Prop) (s : Station) : Prop :=
  ∀ c ∈ s.consoles, c.registry.IsOrderly allowed

variable {allowed : Tree.Act → Prop} {s : Station}

/-- What each of the lines keeps of the console that runs it and of the tree holds of every console
and of the tree after all steps, if what was done without a console keeps it of the tree, too. -/
theorem keeps_run_of_mem {P : Console → Prop} {T : Tree → Prop} {steps : List Step}
    (hsubmit : ∀ i line, .line i line ∈ steps → ∀ c m, P c → T m.tree →
      P (Console.submit c m line).2.1 ∧ T (Console.submit c m line).2.2.tree)
    (h : ∀ c ∈ s.consoles, P c) (htree : T s.machine.tree)
    (hact : ∀ a, .act a ∈ steps → ∀ t, T t → T (t.act a)) :
    (∀ c ∈ (s.run steps).consoles, P c) ∧ T (s.run steps).machine.tree := by
  induction steps generalizing s with
  | nil => exact ⟨h, htree⟩
  | cons x rest ih =>
    have hstep : (∀ c ∈ (s.step x).consoles, P c) ∧ T (s.step x).machine.tree := by
      cases x with
      | act a => exact ⟨h, hact a List.mem_cons_self _ htree⟩
      | line console text =>
        rw [step, Station.submit]
        cases hd : s.consoles[console]? with
        | none => exact ⟨h, htree⟩
        | some d =>
          obtain ⟨hafter, hchanged⟩ := hsubmit console text List.mem_cons_self d s.machine
            (h d (List.mem_of_getElem? hd)) htree
          refine ⟨fun c hc => ?_, hchanged⟩
          -- all consoles but the one that ran the line are as they were
          rcases List.mem_or_eq_of_mem_set hc with hc | rfl
          · exact h c hc
          · exact hafter
    exact ih (fun i line hline => hsubmit i line (List.mem_cons_of_mem _ hline)) hstep.1 hstep.2
      fun a ha => hact a (List.mem_cons_of_mem _ ha)

/-- What every line keeps holds after all steps. -/
theorem keeps_run {P : Console → Prop} {T : Tree → Prop}
    (hsubmit : ∀ c m line, P c → T m.tree →
      P (Console.submit c m line).2.1 ∧ T (Console.submit c m line).2.2.tree)
    (h : ∀ c ∈ s.consoles, P c) (htree : T s.machine.tree) (steps : List Step)
    (hact : ∀ a, .act a ∈ steps → ∀ t, T t → T (t.act a)) :
    (∀ c ∈ (s.run steps).consoles, P c) ∧ T (s.run steps).machine.tree :=
  keeps_run_of_mem (fun _ line _ c m => hsubmit c m line) h htree hact

/-- A line keeps the registries and changes the tree by allowed acts only. -/
theorem IsOrderly.submit (h : s.IsOrderly allowed) (hplain : ∀ a : Tree.Act, a.IsPlain → allowed a)
    (console : Nat) (line : Text) :
    (s.submit console line).IsOrderly allowed ∧
      ∃ acts : List Tree.Act, (∀ a ∈ acts, allowed a) ∧
        (s.submit console line).machine.tree = s.machine.tree.actAll acts := by
  rw [Station.submit]
  cases hc : s.consoles[console]? with
  | none => exact ⟨h, [], fun _ ha => absurd ha List.not_mem_nil, rfl⟩
  | some c =>
    have horderly : c.registry.IsOrderly allowed := h c (List.mem_of_getElem? hc)
    refine ⟨fun d hd => ?_, ?_⟩
    · rcases List.mem_or_eq_of_mem_set hd with hd | rfl
      · exact h d hd
      · rw [Console.registry_submit]
        exact horderly
    · obtain ⟨acts, hacts, htree⟩ :=
        horderly.exists_acts hplain line (c.workspace s.machine.tree)
      exact ⟨acts, hacts, (Console.tree_submit c s.machine line).trans htree⟩

/-- A step keeps the registries and changes the tree by acts only. -/
theorem IsOrderly.step (h : s.IsOrderly fun _ => True) (x : Step) :
    (s.step x).IsOrderly (fun _ => True) ∧
      ∃ acts : List Tree.Act, (s.step x).machine.tree = s.machine.tree.actAll acts := by
  cases x with
  | line console text =>
    obtain ⟨hafter, acts, -, htree⟩ := h.submit (fun _ _ => trivial) console text
    exact ⟨hafter, acts, htree⟩
  | act a => exact ⟨h, [a], rfl⟩

/-- Steps change the tree by acts only, however many there are and in whatever order. -/
theorem IsOrderly.exists_acts_run (h : s.IsOrderly fun _ => True) (steps : List Step) :
    ∃ acts : List Tree.Act, (s.run steps).machine.tree = s.machine.tree.actAll acts := by
  induction steps generalizing s with
  | nil => exact ⟨[], rfl⟩
  | cons x rest ih =>
    obtain ⟨hafter, acts, htree⟩ := h.step x
    obtain ⟨more, hmore⟩ := ih hafter
    refine ⟨acts ++ more, ?_⟩
    rw [Tree.actAll_append, ← htree]
    exact hmore

/-- A tree that a session begins with has distinct names: a new one, one that was read from a
record, or one that was loaded from a disk. -/
theorem distinct_start (hseed : Tree.seed.root.AllNames Distinct) {t : Tree}
    (hstart : t = .seed ∨ (∃ v, Tree.ofSnapshot v = .ok t) ∨
      ∃ d l notices, Snapshot.load d l = .ok (t, notices)) :
    t.root.AllNames Distinct := by
  have hread : ∀ v n, Record.decode v = .ok n → n.AllNames Distinct :=
    fun _ _ => Record.distinct_of_decode
  rcases hstart with rfl | ⟨v, hv⟩ | ⟨d, l, notices, hload⟩
  · exact hseed
  · exact Tree.allNames_of_ofSnapshot hread hv
  · exact Tree.allNames_of_load hseed hread hload

/-- Steps keep the names in every directory distinct. -/
theorem IsOrderly.allNames_run (h : s.IsOrderly fun _ => True)
    (hseed : Tree.seed.root.AllNames Distinct) (hstart : s.machine.tree.root.AllNames Distinct)
    (steps : List Step) :
    (s.run steps).machine.tree.root.AllNames Distinct := by
  obtain ⟨acts, hacts⟩ := h.exists_acts_run steps
  rw [hacts]
  exact nameRule_distinct.allNames_actAll hseed hstart fun _ _ _ _ => trivial

/-- **Distinct names.** Begin with a new tree, or one that was read from whatever record or loaded
from whatever disk. Whoever does what, and whether it succeeds or fails, the root stays a directory
of its name, and the names in every directory stay distinct. This needs nothing of the folding but
that it keeps the names in a new tree apart. -/
theorem distinct_run (hseed : Distinct (Tree.seedEntries.map Node.name))
    (hconsoles : s.IsOrderly fun _ => True)
    (hstart : s.machine.tree = .seed ∨ (∃ v, Tree.ofSnapshot v = .ok s.machine.tree) ∨
      ∃ d l notices, Snapshot.load d l = .ok (s.machine.tree, notices))
    (steps : List Step) :
    (∃ entries, (s.run steps).machine.tree.root = .dir "/" entries) ∧
      (s.run steps).machine.tree.root.AllNames Distinct := by
  have hfirst : Tree.seed.root.AllNames Distinct :=
    Tree.allNames_seed hseed (List.pairwise_singleton _ _)
  exact ⟨⟨_, rfl⟩, hconsoles.allNames_run hfirst (distinct_start hfirst hstart) steps⟩

end AnyFolding

/-- Two new consoles share a new tree, and names that differ from taken ones in their case only are
asked for in a line and without one. -/
theorem distinct_run_new :
    let s : Station :=
      ⟨[.start .null false 0 none, .start .null true 0 none], ⟨.seed, .empty 0, []⟩⟩
    let steps : List Step := [.line 0 "mkdir games", .act (.edit [] (.makeFile "Readme.txt")),
      .line 1 "rm -r Games", .act .reset]
    Distinct (Tree.seedEntries.map Node.name) ∧ s.IsOrderly (fun _ => True) ∧
      (s.run steps).machine.tree.root.AllNames Distinct := by
  intro s steps
  have hseed : Distinct (Tree.seedEntries.map Node.name) := by decide
  have hconsoles : s.IsOrderly fun _ => True := by
    intro c hc
    have hregistry : c.registry = .builtin := by
      simp only [s, List.mem_cons, List.not_mem_nil, or_false] at hc
      rcases hc with rfl | rfl
      · rfl
      · rfl
    rw [hregistry]
    exact Registry.isOrderly_builtin _
  exact ⟨hseed, hconsoles, (distinct_run hseed hconsoles (.inl rfl) steps).2⟩

/-- Names are the same when their upper-case forms are; they stay distinct, whatever is done. -/
theorem distinct_run_upper {s : Station} (hconsoles : s.IsOrderly fun _ => True)
    (hstart : s.machine.tree = .seed ∨ (∃ v, Tree.ofSnapshot v = .ok s.machine.tree) ∨
      ∃ d l notices, Snapshot.load d l = .ok (s.machine.tree, notices))
    (steps : List Step) :
    (s.run steps).machine.tree.root.AllNames Distinct :=
  hconsoles.allNames_run Tree.distinct_seed (distinct_start Tree.distinct_seed hstart) steps

end Station

end DosConsole
