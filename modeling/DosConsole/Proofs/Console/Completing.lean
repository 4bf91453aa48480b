import DosConsole.Proofs.Console.TypedBack
import DosConsole.Proofs.Text.Lower

/-!
# Completions are read back

A completion that replaces the text keeps all tokens but the last and puts the only candidate in
its place, each quoted where it holds a blank. The line is read back as these tokens as long as all
of them can be tokens: those that were typed are, the names of commands are if they were registered
under names that are, since lower case keeps that, and the names in the tree are since lines of
built-in commands bring typable names in only.

What is completed once is complete: the candidate is the only name that starts with itself, so that
completing the replacement gives it again (`Completion.complete_retype`).
-/

namespace DosConsole

/-! ### What a text is completed from -/

namespace Completion

/-- The token that is completed, the last one. Without tokens it is empty. -/
def started (text : Text) : Text :=
  (Line.words text).getLastD []

/-- The names that it is completed from: those of the commands if it is the first token, else those
of the entries. -/
def choices (commands entries : List Text) (text : Text) : List Text :=
  if (Line.words text).length ≤ 1 then commands else entries

/-- The tokens of the text with another one in the last place. -/
def withLast (text last : Text) : List Text :=
  (Line.words text).dropLast ++ [last]

theorem splitLast_eq (ts : List Text) : splitLast ts = (ts.dropLast, ts.getLastD []) := by
  induction ts with
  | nil => rfl
  | cons t rest ih =>
    cases rest with
    | nil => rfl
    | cons u rest =>
      rw [splitLast, ih]
      · rfl
      · exact List.cons_ne_nil _ _

section Names

variable {commands entries : List Text} {text : Text}

theorem complete_eq (commands entries : List Text) (text : Text) :
    complete commands entries text =
      match matching (started text) (choices commands entries text) with
      | [only] => ⟨some (retype (withLast text only)), [only]⟩
      | candidates => ⟨none, candidates⟩ := by
  have hfirst : (Line.words text).dropLast.isEmpty = true ↔ (Line.words text).length ≤ 1 := by
    rw [List.isEmpty_iff_length_eq_zero, List.length_dropLast, Nat.sub_eq_zero_iff_le]
  rw [complete, splitLast_eq]
  simp only [hfirst]
  rw [← choices, ← started]
  generalize matching (started text) (choices commands entries text) = candidates
  cases candidates with
  | nil => rfl
  | cons only rest =>
    cases rest with
    | nil => rfl
    | cons other rest => rfl

theorem candidates_complete (commands entries : List Text) (text : Text) :
    (complete commands entries text).candidates =
      matching (started text) (choices commands entries text) := by
  rw [complete_eq]
  split
  · rename_i only hmatching
    exact hmatching.symm
  · rfl

/-- A text is replaced just when there is one candidate, and by the tokens with that candidate in
the last place. -/
theorem text_complete_eq_some_iff {replacement : Text} :
    (complete commands entries text).text = some replacement ↔
      ∃ only, matching (started text) (choices commands entries text) = [only] ∧
        replacement = retype (withLast text only) := by
  rw [complete_eq]
  split
  · rename_i only hmatching
    simp only [hmatching, Option.some.injEq, List.cons.injEq, and_true, exists_eq_left', eq_comm]
  · rename_i hmany
    exact iff_of_false (by simp) fun ⟨only, hmatching, _⟩ => hmany only hmatching

theorem text_complete_eq_none_iff :
    (complete commands entries text).text = none ↔
      (matching (started text) (choices commands entries text)).length ≠ 1 := by
  rw [Option.eq_none_iff_forall_ne_some, Ne, List.length_eq_one_iff]
  refine ⟨fun h ⟨only, hmatching⟩ => ?_, fun h replacement hsome => ?_⟩
  · exact h _ (text_complete_eq_some_iff.mpr ⟨only, hmatching, rfl⟩)
  · obtain ⟨only, hmatching, -⟩ := text_complete_eq_some_iff.mp hsome
    exact h ⟨only, hmatching⟩

/-! ### Reading a replacement back -/

variable {only : Text}

/-- The only name that starts with a token is the only one that starts with itself. -/
theorem matching_only {start : Text} {names : List Text} (h : matching start names = [only]) :
    matching only names = [only] := by
  have hstart : start <+: only := by
    have hmem : only ∈ matching start names := h ▸ List.mem_singleton_self only
    exact List.isPrefixOf_iff_prefix.mp (List.mem_filter.mp hmem).2
  have hnarrow : matching only names = matching only (matching start names) := by
    rw [matching, matching, matching, List.filter_filter]
    refine List.filter_congr fun name _ => Bool.eq_iff_iff.mpr ?_
    rw [Bool.and_eq_true, List.isPrefixOf_iff_prefix, List.isPrefixOf_iff_prefix]
    exact ⟨fun hname => ⟨hname, hstart.trans hname⟩, And.left⟩
  have hself : only.isPrefixOf only = true :=
    List.isPrefixOf_iff_prefix.mpr (List.prefix_refl only)
  rw [hnarrow, h, matching, List.filter_cons_of_pos hself, List.filter_nil]

/-- Tokens are typed again as they are written, with a space after them. -/
theorem retype_eq (tokens : List Text) : retype tokens = Line.written tokens ++ [.char ' '] := rfl

variable (htokens : ∀ t ∈ withLast text only, Line.IsToken t)

include htokens

theorem tokens_retype : Line.tokens (retype (withLast text only)) = withLast text only := by
  have hne : withLast text only ≠ [] := List.append_ne_nil_of_right_ne_nil _ (List.cons_ne_nil _ _)
  have hread := Line.tokens_written_append htokens hne (c := .char ' ') (by decide) (by decide) []
  exact hread.trans (List.append_nil _)

theorem words_retype : Line.words (retype (withLast text only)) = withLast text only := by
  have hfront : Text.isBlankLine [] = true := rfl
  have hspace : Text.isBlankLine [.char ' '] = true := by decide
  have hread := Line.words_written_append htokens hfront hspace
  rwa [List.nil_append, ← retype_eq] at hread

/-- **Fixpoint.** What was completed is completed to itself, by the same candidate. -/
theorem complete_retype (h : matching (started text) (choices commands entries text) = [only]) :
    complete commands entries (retype (withLast text only)) = complete commands entries text := by
  have hstarted : started (retype (withLast text only)) = only := by
    rw [started, words_retype htokens, withLast, List.getLastD_concat]
  have hchoices : choices commands entries (retype (withLast text only)) =
      choices commands entries text := by
    have hlength : (withLast text only).length ≤ 1 ↔ (Line.words text).length ≤ 1 := by
      rw [withLast, List.length_append, List.length_dropLast, List.length_singleton]
      omega
    simp only [choices, words_retype htokens, hlength]
  have hlast : withLast (retype (withLast text only)) only = withLast text only := by
    rw [withLast, words_retype htokens, withLast, List.dropLast_concat]
  rw [complete_eq, complete_eq, hstarted, hchoices, matching_only h, h]
  simp only [hlast]

end Names

end Completion

/-! ### Names are tokens -/

/-- Lower case keeps tokens. -/
theorem Line.IsToken.lower {t : Text} (h : IsToken t) : IsToken t.lower :=
  ⟨Text.lower_ne_nil h.1, fun hmem => h.2 (Text.quote_mem_of_mem_lower hmem)⟩

theorem IsTypable.isToken {name : Text} (h : IsTypable name) : Line.IsToken name :=
  ⟨h.1.1, h.2⟩

section AnyFolding

variable [Folding]

/-- With commands added under names that are tokens, the names of all commands are tokens. -/
theorem Registry.isToken_of_mem_names {extra : List Command}
    (hextra : ∀ e ∈ extra, Line.IsToken e.name) {name : Text}
    (h : name ∈ (builtin.registerAll extra).names) : Line.IsToken name := by
  rcases mem_names_registerAll.mp h with hbuiltin | ⟨e, he, rfl⟩
  · obtain ⟨c, hc, rfl⟩ := List.mem_map.mp hbuiltin
    obtain ⟨d, hd, hname, -⟩ := mem_builtin hc
    have hnames : ∀ name ∈ Builtin.commands.map (·.name), Line.IsToken name := by
      rw [Builtin.names_commands]
      decide
    exact hname ▸ hnames d.name (List.mem_map_of_mem hd)
  · exact (hextra e he).lower

/-- The entries of a directory in a tree of typable names have tokens for their names. -/
theorem Tree.IsTypable.isToken_of_mem_entryNames {t : Tree} (h : t.IsTypable) {path name : Text}
    (hname : name ∈ Completion.entryNames t path) : Line.IsToken name := by
  rw [Completion.entryNames] at hname
  split at hname
  · rename_i dir children hfound
    exact ((h.1.walk? hfound).names name hname).isToken
  · exact absurd hname List.not_mem_nil

/-! ### Consoles -/

/-- The names that a console completes the text from. -/
def Console.choices (c : Console) (m : Machine) (text : Text) : List Text :=
  Completion.choices c.registry.names (Completion.entryNames m.tree c.cwd) text

/-- What a console makes of the text when it completes it **reads back**. -/
structure Console.ReadsBack (c : Console) (m : Machine) (text : Text) : Prop where
  /-- All names that start with the last token are listed, in their order. -/
  candidates : (c.complete m text).1.candidates =
    (c.choices m text).filter (Completion.started text).isPrefixOf
  /-- The order of the names of commands is ascending; the entries keep the order of the
  directory. -/
  ascending : c.registry.names.Pairwise (· < ·)
  /-- The text is replaced just when there is one candidate. -/
  replaced : (c.complete m text).1.text = none ↔ (c.complete m text).1.candidates.length ≠ 1
  /-- The replacement has the tokens of the text but for the last, in the place of which is the only
  name that starts with it, and it is completed to itself. -/
  replacement : ∀ after, (c.complete m text).1.text = some after →
    ∃ only, (c.complete m text).1.candidates = [only] ∧
      Completion.started text <+: only ∧
      (∀ name ∈ c.choices m text, Completion.started text <+: name → name = only) ∧
      Line.tokens after = (Line.words text).dropLast ++ [only] ∧
      Line.words after = (Line.words text).dropLast ++ [only] ∧
      (c.complete m after).1 = (c.complete m text).1

/-- Where all names are tokens completions read back. -/
theorem Console.readsBack {c : Console} {m : Machine}
    (hcommands : ∀ name ∈ c.registry.names, Line.IsToken name)
    (hentries : ∀ name ∈ Completion.entryNames m.tree c.cwd, Line.IsToken name) (text : Text) :
    c.ReadsBack m text := by
  have hcomplete : ∀ text, (c.complete m text).1 =
      Completion.complete c.registry.names (Completion.entryNames m.tree c.cwd) text :=
    fun _ => rfl
  have hcandidates : (c.complete m text).1.candidates =
      (c.choices m text).filter (Completion.started text).isPrefixOf :=
    Completion.candidates_complete _ _ _
  refine ⟨hcandidates, List.pairwise_map.mpr c.registry.sorted, ?_, fun after hafter => ?_⟩
  · rw [hcandidates]
    exact Completion.text_complete_eq_none_iff
  · obtain ⟨only, hmatching, rfl⟩ := Completion.text_complete_eq_some_iff.mp hafter
    -- a name starts with the last token just when it is a candidate
    have honly : ∀ {name}, name ∈ c.choices m text ∧ Completion.started text <+: name ↔
        name = only := by
      intro name
      rw [← List.mem_singleton, ← hmatching, Completion.matching, List.mem_filter,
        List.isPrefixOf_iff_prefix]
      rfl
    obtain ⟨hchoice, hstarts⟩ := honly.mpr rfl
    have htokens : ∀ t ∈ Completion.withLast text only, Line.IsToken t := by
      intro t ht
      rcases List.mem_append.mp ht with hearlier | hlast
      · exact Line.isToken_of_mem_tokens (List.dropLast_subset _ hearlier)
      · obtain rfl := List.mem_singleton.mp hlast
        rw [choices, Completion.choices] at hchoice
        split at hchoice
        · exact hcommands t hchoice
        · exact hentries t hchoice
    refine ⟨only, hcandidates.trans hmatching, hstarts,
      fun name hname hstart => honly.mp ⟨hname, hstart⟩, Completion.tokens_retype htokens,
      Completion.words_retype htokens, ?_⟩
    rw [hcomplete, hcomplete]
    exact Completion.complete_retype htokens hmatching

end AnyFolding

namespace Station

/-- **Completions read back.** Begin with a new tree, and let consoles run lines that call built-in
commands only. In a console with the built-in commands, and whatever others under names that are
tokens, completing whatever text then reads back. -/
theorem completions_read_back {s : Station} (hnew : s.machine.tree = .seed)
    {lines : List (Nat × Text)} (hconsoles : ∀ c ∈ s.consoles, .char '"' ∉ c.cwd ∧
      ∀ l ∈ lines, c.registry.CallsBuiltin l.2)
    {extra : List Command} (hextra : ∀ e ∈ extra, Line.IsToken e.name) {c : Console}
    (hregistry : c.registry = Registry.builtin.registerAll extra) (text : Text) :
    c.ReadsBack (s.run (lines.map fun l => .line l.1 l.2)).machine text := by
  have hseed : Tree.seed.IsTypable :=
    ⟨Tree.allNames_seed (by decide) (by decide), Tree.distinct_seed⟩
  have htree : (s.run (lines.map fun l => .line l.1 l.2)).machine.tree.IsTypable := by
    refine (keeps_run_of_mem (T := Tree.IsTypable)
      (P := fun c => .char '"' ∉ c.cwd ∧ ∀ l ∈ lines, c.registry.CallsBuiltin l.2)
      (fun i line hmem d m hd ht => ?_) hconsoles (hnew ▸ hseed) fun a ha => ?_).2
    · obtain ⟨l, hl, heq⟩ := List.mem_map.mp hmem
      obtain ⟨-, rfl⟩ := Step.line.inj heq
      obtain ⟨hcwd, hafter⟩ := Console.submit_of_callsBuiltin (hd.2 l hl) hseed hd.1 ht
      rw [Console.registry_submit]
      exact ⟨⟨hcwd, hd.2⟩, hafter⟩
    · -- no act is done without a console
      obtain ⟨l, -, hl⟩ := List.mem_map.mp ha
      exact absurd hl (by simp)
  refine Console.readsBack (fun name hname => ?_) (fun _ => htree.isToken_of_mem_entryNames) text
  rw [hregistry] at hname
  exact Registry.isToken_of_mem_names hextra hname

/-- A directory whose name holds a blank is completed from a quote that is never closed, and so is a
command that is registered under a name in capitals with a blank in it. -/
theorem completions_read_back_blank :
    let s : Station := ⟨[.start .null false 0 none], ⟨.seed, .empty 0, []⟩⟩
    let lines : List (Nat × Text) := [(0, "mkdir \"My Docs\"")]
    let m := (s.run (lines.map fun l => .line l.1 l.2)).machine
    let extra : List Command := [⟨"SAY HI", "Says hi", Builtin.echo⟩]
    let c : Console :=
      { Console.start .null false 0 none with registry := Registry.builtin.registerAll extra }
    s.machine.tree = .seed ∧
      (∀ c ∈ s.consoles, .char '"' ∉ c.cwd ∧ ∀ l ∈ lines, c.registry.CallsBuiltin l.2) ∧
      (∀ e ∈ extra, Line.IsToken e.name) ∧
      (c.complete m "dir   \"My").1 = ⟨some "dir \"My Docs\" ", ["My Docs"]⟩ ∧
      Line.tokens "dir \"My Docs\" " = ["dir", "My Docs"] ∧
      (c.complete m "\"say ").1 = ⟨some "\"say hi\" ", ["say hi"]⟩ ∧
      (c.complete m "\"say hi\" ").1 = ⟨some "\"say hi\" ", ["say hi"]⟩ := by
  intro s lines m extra c
  have hconsoles : ∀ c ∈ s.consoles, .char '"' ∉ c.cwd ∧
      ∀ l ∈ lines, c.registry.CallsBuiltin l.2 := by
    intro c hc
    obtain rfl := List.mem_singleton.mp hc
    exact ⟨by decide, fun l _ d hd _ => hd⟩
  have hextra : ∀ e ∈ extra, Line.IsToken e.name := by decide
  have hread : ∀ text, c.ReadsBack m text := completions_read_back rfl hconsoles hextra rfl
  have hdocs : (c.complete m "dir   \"My").1 = ⟨some "dir \"My Docs\" ", ["My Docs"]⟩ := by
    decide +kernel
  have hsay : (c.complete m "\"say ").1 = ⟨some "\"say hi\" ", ["say hi"]⟩ := by
    decide +kernel
  obtain ⟨only, hdirectory, -, -, htokens, -⟩ := (hread _).replacement _ (by rw [hdocs])
  obtain ⟨-, -, -, -, -, -, hagain⟩ := (hread _).replacement _ (by rw [hsay])
  obtain rfl : "My Docs" = only := by
    rw [hdocs] at hdirectory
    exact List.singleton_inj.mp hdirectory
  exact ⟨rfl, hconsoles, hextra, hdocs, htokens, hsay, hagain.trans hsay⟩

end Station

end DosConsole
