import DosConsole.Line.Command
import DosConsole.Proofs.Text.Stripping
import Mathlib.Data.List.Basic

/-!
# Tokens are read back as they were written

A text that is not empty and holds no double quote is a **token**. Every line is cut into tokens
(`isToken_of_mem_tokens`), and a line on which tokens were written, each of them quoted if it holds
a blank, is cut into these tokens again (`tokens_written`). Such a line neither starts nor ends with
a blank, so that a command is taken from it whole (`parse_written`).

The cut is followed with whatever was collected so far: while a quote is open everything is
collected, and without one everything up to the next blank.
-/

namespace DosConsole.Line

/-- A text is a **token** when it can be one of a line: it is not empty and holds no quote. -/
def IsToken (t : Text) : Prop :=
  t ≠ [] ∧ .char '"' ∉ t

instance (t : Text) : Decidable (IsToken t) :=
  inferInstanceAs (Decidable (_ ∧ _))

/-! ### Every line is cut into tokens -/

theorem isToken_of_mem_emit {current s : Text} {found : List Text} (h : s ∈ emit current found)
    (hcurrent : .char '"' ∉ current) (hfound : s ∈ found → IsToken s) : IsToken s := by
  rw [emit] at h
  split at h
  · exact hfound h
  · rename_i hne
    rcases List.mem_cons.mp h with rfl | h
    · refine ⟨fun hnil => hne ?_, fun hmem => hcurrent (List.mem_reverse.mp hmem)⟩
      rw [List.isEmpty_iff, ← List.reverse_eq_nil_iff]
      exact hnil
    · exact hfound h

/-- What is collected without quotes leads to tokens only. -/
theorem isToken_of_mem_scan {current rest s : Text} {quoted : Bool}
    (h : s ∈ scan current quoted rest) (hcurrent : .char '"' ∉ current) : IsToken s := by
  induction rest generalizing current quoted with
  | nil => exact isToken_of_mem_emit h hcurrent fun h => absurd h List.not_mem_nil
  | cons c rest ih =>
    rw [scan] at h
    split at h
    · exact ih h hcurrent
    · rename_i hc
      split at h
      · exact isToken_of_mem_emit h hcurrent fun h => ih h List.not_mem_nil
      · refine ih h fun hmem => ?_
        rcases List.mem_cons.mp hmem with heq | hmem
        · exact hc heq.symm
        · exact hcurrent hmem

theorem isToken_of_mem_tokens {line s : Text} (h : s ∈ tokens line) : IsToken s :=
  isToken_of_mem_scan h List.not_mem_nil

/-- The arguments on a line are tokens. -/
theorem isToken_of_mem_args {line s : Text} (h : s ∈ (parse line).args) : IsToken s := by
  rw [parse] at h
  split at h
  · exact absurd h List.not_mem_nil
  · rename_i t ts hwords
    have hmem : s ∈ tokens line.strip := by
      rw [← words, hwords]
      exact List.mem_cons_of_mem _ h
    exact isToken_of_mem_tokens hmem

/-! ### Collecting what was written -/

section Collect

variable {t : Text}

/-- While a quote is open everything is collected. -/
theorem scan_quoted (ht : .char '"' ∉ t) (current rest : Text) :
    scan current true (t ++ rest) = scan (t.reverse ++ current) true rest := by
  induction t generalizing current with
  | nil => rfl
  | cons c t ih =>
    obtain ⟨hc, ht⟩ := not_or.mp (mt List.mem_cons.mpr ht)
    have hcollect :
        scan current true (c :: (t ++ rest)) = scan (c :: current) true (t ++ rest) := by
      rw [scan, if_neg (Ne.symm hc)]
      rfl
    rw [List.cons_append, hcollect, ih ht, List.reverse_cons, List.append_assoc,
      List.singleton_append]

/-- Without a quote everything is collected up to the next blank. -/
theorem scan_plain (ht : .char '"' ∉ t) (hblank : t.hasBlank = false) (current rest : Text) :
    scan current false (t ++ rest) = scan (t.reverse ++ current) false rest := by
  induction t generalizing current with
  | nil => rfl
  | cons c t ih =>
    obtain ⟨hc, ht⟩ := not_or.mp (mt List.mem_cons.mpr ht)
    obtain ⟨hcut, hblank⟩ : Text.isBlank c = false ∧ Text.hasBlank t = false := by
      simpa only [Text.hasBlank, List.any_cons, Bool.or_eq_false_iff] using hblank
    have hcollect :
        scan current false (c :: (t ++ rest)) = scan (c :: current) false (t ++ rest) := by
      rw [scan, if_neg (Ne.symm hc), hcut]
      rfl
    rw [List.cons_append, hcollect, ih ht hblank, List.reverse_cons, List.append_assoc,
      List.singleton_append]

theorem quote_of_plain (hblank : t.hasBlank = false) : quote t = t := by
  rw [quote, if_neg (Bool.eq_false_iff.mp hblank)]

/-- A token is collected whole from how it is written. -/
theorem scan_quote (ht : .char '"' ∉ t) (rest : Text) :
    scan [] false (quote t ++ rest) = scan t.reverse false rest := by
  rw [quote]
  split
  · -- the quotes open and close, and are collected nowhere
    have hopen : scan [] false (Symbol.char '"' :: t ++ [Symbol.char '"'] ++ rest) =
        scan [] true (t ++ Symbol.char '"' :: rest) := by
      rw [List.append_assoc, List.cons_append, scan, if_pos rfl]
      rfl
    rw [hopen, scan_quoted ht, List.append_nil, scan, if_pos rfl]
    rfl
  · rename_i hplain
    rw [scan_plain ht (Bool.eq_false_iff.mpr hplain), List.append_nil]

theorem emit_reverse (h : t ≠ []) (found : List Text) : emit t.reverse found = t :: found := by
  rw [emit, if_neg (by simpa using h), List.reverse_reverse]

theorem tokens_quote (h : IsToken t) : tokens (quote t) = [t] := by
  have hscan := scan_quote h.2 []
  rw [List.append_nil] at hscan
  rw [tokens, hscan, scan, emit_reverse h.1]

/-- A blank after a token ends it. -/
theorem tokens_quote_append (h : IsToken t) {c : Symbol} (hc : Text.isBlank c = true)
    (hquote : c ≠ '"') (rest : Text) : tokens (quote t ++ c :: rest) = t :: tokens rest := by
  rw [tokens, scan_quote h.2, scan, if_neg hquote, hc]
  exact emit_reverse h.1 _

end Collect

/-! ### Lines of tokens -/

/-- The line on which tokens are **written** with single spaces between them. -/
def written (ts : List Text) : Text :=
  List.intercalate [.char ' '] (ts.map quote)

theorem written_cons_cons (t u : Text) (ts : List Text) :
    written (t :: u :: ts) = quote t ++ Symbol.char ' ' :: written (u :: ts) := by
  simp [written, List.intercalate]

theorem written_singleton (t : Text) : written [t] = quote t := by
  simp [written, List.intercalate]

/-- **Reading back.** A line is cut into the tokens that were written on it. -/
theorem tokens_written {ts : List Text} (h : ∀ t ∈ ts, IsToken t) : tokens (written ts) = ts := by
  induction ts with
  | nil => rfl
  | cons t ts ih =>
    have ht := h t List.mem_cons_self
    cases ts with
    | nil => rw [written_singleton, tokens_quote ht]
    | cons u ts =>
      -- the space that is written after the first token is not quoted, so that it cuts
      rw [written_cons_cons, tokens_quote_append ht (by decide) (by decide),
        ih fun s hs => h s (List.mem_cons_of_mem _ hs)]

/-- A blank after a line of tokens ends the last of them. -/
theorem tokens_written_append {ts : List Text} (h : ∀ t ∈ ts, IsToken t) (hne : ts ≠ [])
    {c : Symbol} (hc : Text.isBlank c = true) (hquote : c ≠ '"') (rest : Text) :
    tokens (written ts ++ c :: rest) = ts ++ tokens rest := by
  induction ts with
  | nil => exact absurd rfl hne
  | cons t ts ih =>
    have ht := h t List.mem_cons_self
    cases ts with
    | nil => rw [written_singleton, tokens_quote_append ht hc hquote, List.singleton_append]
    | cons u ts =>
      rw [written_cons_cons, List.append_assoc, List.cons_append,
        tokens_quote_append ht (by decide) (by decide),
        ih (fun s hs => h s (List.mem_cons_of_mem _ hs)) (List.cons_ne_nil _ _)]
      rfl

/-! ### Nothing to strip -/

/-- A text is **tight** when it is not empty and neither starts nor ends with a blank. -/
def IsTight (t : Text) : Prop :=
  t ≠ [] ∧ (∀ c ∈ t.head?, Text.isBlank c = false) ∧ ∀ c ∈ t.getLast?, Text.isBlank c = false

private theorem dropWhile_isBlank {t : Text} (h : ∀ c ∈ t.head?, Text.isBlank c = false) :
    t.dropWhile Text.isBlank = t := by
  cases t with
  | nil => rfl
  | cons c rest => rw [List.dropWhile_cons_of_neg (Bool.eq_false_iff.mp (h c rfl))]

private theorem IsTight.stripRight_eq {t : Text} (h : IsTight t) : t.stripRight = t := by
  have hlast : ∀ c ∈ t.reverse.head?, Text.isBlank c = false := fun c hc =>
    h.2.2 c (by rwa [List.head?_reverse] at hc)
  rw [Text.stripRight, dropWhile_isBlank hlast, List.reverse_reverse]

/-- There is nothing to strip from a tight text. -/
theorem IsTight.strip_eq {t : Text} (h : IsTight t) : t.strip = t := by
  rw [Text.strip, Text.stripLeft, dropWhile_isBlank h.2.1, h.stripRight_eq]

/-- What stands between two tight texts does not matter. -/
theorem IsTight.append {a b : Text} (ha : IsTight a) (hb : IsTight b) (c : Symbol) :
    IsTight (a ++ c :: b) := by
  refine ⟨by simp, ?_, ?_⟩
  · rw [List.head?_append_of_ne_nil _ ha.1]
    exact ha.2.1
  · have hlast : (a ++ c :: b).getLast? = b.getLast? := by
      rw [List.getLast?_append_of_ne_nil _ (List.cons_ne_nil _ _),
        List.getLast?_cons_of_ne_nil hb.1]
    rw [hlast]
    exact hb.2.2

/-- A token is written tight. -/
theorem isTight_quote {t : Text} (h : t ≠ []) : IsTight (quote t) := by
  rw [quote]
  split
  · -- both ends are quotes
    have hquote : Text.isBlank (Symbol.char '"') = false := by decide
    refine ⟨by simp, fun c hc => ?_, fun c hc => ?_⟩
    · obtain rfl : Symbol.char '"' = c := by simpa using hc
      exact hquote
    · rw [List.getLast?_append_of_ne_nil _ (List.cons_ne_nil _ _)] at hc
      obtain rfl : Symbol.char '"' = c := by simpa using hc
      exact hquote
  · rename_i hplain
    have hnone : ∀ c ∈ t, Text.isBlank c = false := by
      simpa [Text.hasBlank] using hplain
    exact ⟨h, fun c hc => hnone c (List.mem_of_mem_head? hc), fun c hc =>
      hnone c (List.mem_of_mem_getLast? hc)⟩

theorem isTight_written {ts : List Text} (h : ∀ t ∈ ts, IsToken t) (hne : ts ≠ []) :
    IsTight (written ts) := by
  induction ts with
  | nil => exact absurd rfl hne
  | cons t ts ih =>
    have ht := isTight_quote (h t List.mem_cons_self).1
    cases ts with
    | nil => rwa [written_singleton]
    | cons u ts =>
      rw [written_cons_cons]
      exact ht.append (ih (fun s hs => h s (List.mem_cons_of_mem _ hs)) (List.cons_ne_nil _ _)) _

/-- A tight line is not blank. -/
theorem IsTight.isBlankLine_eq {line : Text} (h : IsTight line) : line.isBlankLine = false := by
  obtain ⟨hne, hfirst, -⟩ := h
  cases line with
  | nil => exact absurd rfl hne
  | cons c rest => rw [Text.isBlankLine, List.all_cons, hfirst c rfl, Bool.false_and]

/-- The words of a line on which tokens were written are these tokens. -/
theorem words_written {ts : List Text} (h : ∀ t ∈ ts, IsToken t) : words (written ts) = ts := by
  by_cases hne : ts = []
  · rw [hne]
    rfl
  · rw [words, (isTight_written h hne).strip_eq, tokens_written h]

/-- So they are with any blanks before and after them. -/
theorem words_written_append {ts : List Text} (h : ∀ t ∈ ts, IsToken t) {before after : Text}
    (hbefore : before.isBlankLine = true) (hafter : after.isBlankLine = true) :
    words (before ++ written ts ++ after) = ts := by
  rw [words, Text.strip_append hbefore hafter, ← words, words_written h]

/-- The first of the words of a line is the command, and the others are its arguments. -/
theorem parse_eq (line : Text) :
    parse line = ⟨((words line).headD []).lower, (words line).tail, line⟩ := by
  rw [parse]
  cases words line with
  | nil => rfl
  | cons t ts => rfl

/-- **Commands are read back.** A line takes the command and the arguments that were written on
it. -/
theorem parse_written {name : Text} {args : List Text} (hname : IsToken name)
    (hargs : ∀ t ∈ args, IsToken t) :
    parse (written (name :: args)) = ⟨name.lower, args, written (name :: args)⟩ := by
  rw [parse_eq, words_written (List.forall_mem_cons.mpr ⟨hname, hargs⟩)]
  rfl

/-- A command with an argument that holds a blank. -/
example : written ["type", "/MY DOCS/a b"] = "type \"/MY DOCS/a b\"" := by decide

/-! ### Quoting and cutting -/

/-- **Cutting undoes quoting.**

* Whatever tokens are written on a line, with whatever blanks in them, the line is cut into these
  tokens, and they are its words with any blanks before and after them: the first one is the
  command, in lower case, and the others are its arguments.
* Every line is cut into tokens, which are the same when they are written and cut again. -/
theorem cutting_undoes_quoting :
    (∀ ts : List Text, (∀ t ∈ ts, IsToken t) → tokens (written ts) = ts ∧
      ∀ before after : Text, before.isBlankLine = true → after.isBlankLine = true →
        words (before ++ written ts ++ after) = ts ∧
        parse (before ++ written ts ++ after) =
          ⟨(ts.headD []).lower, ts.tail, before ++ written ts ++ after⟩) ∧
    ∀ line : Text, (∀ t ∈ tokens line, IsToken t) ∧
      tokens (written (tokens line)) = tokens line := by
  refine ⟨fun ts hts => ⟨tokens_written hts, fun before after hbefore hafter => ?_⟩, fun line => ?_⟩
  · have hwords := words_written_append hts hbefore hafter
    refine ⟨hwords, ?_⟩
    rw [parse_eq, hwords]
  · have htokens : ∀ t ∈ tokens line, IsToken t := fun _ => isToken_of_mem_tokens
    exact ⟨htokens, tokens_written htokens⟩

/-- A token that is a lone blank, and one with blanks at its ends, on a line with a line feed before
and a tabulator after them. -/
theorem cutting_undoes_quoting_of_blanks :
    let ts : List Text := ["ECHO", " ", "\u00a0a b\t"]
    let line : Text := "\n" ++ written ts ++ "\t"
    (∀ t ∈ ts, IsToken t) ∧ written ts = "ECHO \" \" \"\u00a0a b\t\"" ∧ words line = ts ∧
      parse line = ⟨"echo", [" ", "\u00a0a b\t"], line⟩ ∧
      tokens (written (tokens "a\"b c")) = ["ab c"] := by
  intro ts line
  have hts : ∀ t ∈ ts, IsToken t := by decide
  obtain ⟨hquoting, hcutting⟩ := cutting_undoes_quoting
  obtain ⟨hwords, hparse⟩ := (hquoting ts hts).2 "\n" "\t" (by decide) (by decide)
  have hname : (ts.headD []).lower = "echo" := by decide
  rw [hname] at hparse
  exact ⟨hts, by decide, hwords, hparse, (hcutting _).2.trans (by decide)⟩

end DosConsole.Line
