import DosConsole.Proofs.Line.Quoting
import Mathlib.Data.List.Basic

/-!
# Lines are split at their unquoted blanks

A text is **open** when it holds an odd number of double quotes. A symbol of a line is quoted when
the text before it is open (`quotedFlags_eq`), and the tokens of a line are its pieces between the
unquoted blanks, without their quotes and without the empty ones (`tokens_eq_split`). The scan is
compared with the split at any place in the line: what it has collected so far belongs to the first
of the pieces ahead.

Blanks at the front of a line never matter. Blanks at its end do not matter either unless the line
is open; then they belong to its last token (`exists_tokens_append`), and a command that is taken
from the line has lost them (`words_eq`).
-/

namespace DosConsole.Line

/-! ### Open quotes -/

/-- A text is **open** when it holds an odd number of double quotes. -/
def isOpen (t : Text) : Bool :=
  t.count (.char '"') % 2 == 1

theorem isOpen_quote (t : Text) : isOpen (.char '"' :: t) = !isOpen t := by
  rw [isOpen, List.count_cons_self, isOpen]
  rcases Nat.mod_two_eq_zero_or_one (t.count (.char '"')) with h | h
  · rw [h, Nat.add_mod, h]
    rfl
  · rw [h, Nat.add_mod, h]
    rfl

theorem isOpen_cons_of_ne {c : Symbol} (hc : c ≠ .char '"') (t : Text) :
    isOpen (c :: t) = isOpen t := by
  rw [isOpen, List.count_cons_of_ne hc, isOpen]

/-- A symbol is quoted when the text before it is open, unless a quote was open at the beginning:
then it is quoted when that text is not. -/
theorem quotedFlags_eq (quoted : Bool) (line : Text) :
    quotedFlags quoted line = line.mapIdx fun i c => (c, quoted ^^ isOpen (line.take i)) := by
  induction line generalizing quoted with
  | nil => rfl
  | cons c rest ih =>
    rw [quotedFlags, ih, List.mapIdx_cons]
    congr 1
    · exact congrArg (Prod.mk c) (Bool.xor_false quoted).symm
    · congr 1
      funext i d
      rw [List.take_succ_cons]
      by_cases hc : c = .char '"'
      · rw [if_pos hc, hc, isOpen_quote, Bool.not_xor, Bool.xor_not]
      · rw [if_neg hc, isOpen_cons_of_ne hc]

/-! ### The pieces of a line -/

/-- A **piece** of the line as it is shown: its symbols without the double quotes. -/
def unquoted (piece : List (Symbol × Bool)) : Text :=
  (piece.map Prod.fst).filter (· ≠ .char '"')

/-- The pieces of the text ahead, the empty ones among them. -/
def pieces (quoted : Bool) (line : Text) : List Text :=
  ((quotedFlags quoted line).splitOnP cuts).map unquoted

theorem split_eq (line : Text) : split line = (pieces false line).filter (· ≠ []) := rfl

/-- A quote is not shown in its piece. -/
theorem map_unquoted_quote (quoted : Bool) (found : List (List (Symbol × Bool))) :
    (found.modifyHead ((.char '"', quoted) :: ·)).map unquoted = found.map unquoted := by
  cases found with
  | nil => rfl
  | cons first rest => rfl

/-- Any other symbol is shown at the front of its piece. -/
theorem map_unquoted_of_ne {c : Symbol} (hc : c ≠ .char '"') (quoted : Bool)
    (found : List (List (Symbol × Bool))) :
    (found.modifyHead ((c, quoted) :: ·)).map unquoted =
      (found.map unquoted).modifyHead (c :: ·) := by
  cases found with
  | nil => rfl
  | cons first rest =>
    have hfirst : unquoted ((c, quoted) :: first) = c :: unquoted first := by
      rw [unquoted, List.map_cons, List.filter_cons_of_pos (by simpa using hc), unquoted]
    rw [List.modifyHead_cons, List.map_cons, hfirst, List.map_cons, List.modifyHead_cons]

/-- A quote cuts nothing, and what is ahead is quoted from now on, or no more. -/
theorem pieces_quote (quoted : Bool) (rest : Text) :
    pieces quoted (.char '"' :: rest) = pieces (!quoted) rest := by
  have hcut : cuts (.char '"', quoted) = false := by
    rw [cuts, show Text.isBlank (.char '"') = false by decide, Bool.and_false]
  rw [pieces, quotedFlags, if_pos rfl, List.splitOnP_cons_eq_if_modifyHead, hcut,
    if_neg Bool.false_ne_true, map_unquoted_quote, ← pieces]

/-- A blank that is not quoted ends the first piece. -/
theorem pieces_of_cuts {c : Symbol} (hc : c ≠ .char '"') {quoted : Bool}
    (hcut : cuts (c, quoted) = true) (rest : Text) :
    pieces quoted (c :: rest) = [] :: pieces quoted rest := by
  rw [pieces, quotedFlags, if_neg hc, List.splitOnP_cons_eq_if_modifyHead, if_pos hcut,
    List.map_cons, ← pieces]
  rfl

/-- Any other symbol belongs to the first piece. -/
theorem pieces_of_not_cuts {c : Symbol} (hc : c ≠ .char '"') {quoted : Bool}
    (hcut : cuts (c, quoted) = false) (rest : Text) :
    pieces quoted (c :: rest) = (pieces quoted rest).modifyHead (c :: ·) := by
  rw [pieces, quotedFlags, if_neg hc, List.splitOnP_cons_eq_if_modifyHead, hcut,
    if_neg Bool.false_ne_true, map_unquoted_of_ne hc, ← pieces]

/-- What was collected comes before the other tokens unless it is empty. -/
theorem emit_eq (current : Text) (found : List Text) :
    emit current found = [current.reverse].filter (· ≠ []) ++ found := by
  by_cases h : current = []
  · rw [h]
    rfl
  · rw [emit, if_neg (by simpa using h), List.filter_cons_of_pos (by simpa using h)]
    rfl

/-- What was collected so far belongs to the first of the pieces ahead. -/
theorem scan_eq (current : Text) (quoted : Bool) (rest : Text) :
    scan current quoted rest =
      ((pieces quoted rest).modifyHead (current.reverse ++ ·)).filter (· ≠ []) := by
  induction rest generalizing current quoted with
  | nil =>
    have hpieces : pieces quoted [] = [[]] := by
      rw [pieces, quotedFlags, List.splitOnP_nil]
      rfl
    rw [scan, emit_eq, hpieces, List.modifyHead_cons, List.append_nil, List.append_nil]
  | cons c rest ih =>
    rw [scan]
    split
    · rename_i hc
      rw [ih, hc, pieces_quote]
    · rename_i hc
      split
      · rename_i hcut
        have hnothing : (pieces quoted rest).modifyHead (([] : Text).reverse ++ ·) =
            pieces quoted rest := congrFun List.modifyHead_id _
        rw [emit_eq, ih, hnothing, pieces_of_cuts hc hcut, List.modifyHead_cons, List.append_nil,
          ← List.filter_append, List.singleton_append]
      · rename_i hcut
        rw [ih, pieces_of_not_cuts hc (Bool.eq_false_iff.mpr hcut), List.modifyHead_modifyHead]
        congr 2
        funext piece
        simp

/-- A line is cut into the pieces between its unquoted blanks. -/
theorem tokens_eq_split (line : Text) : tokens line = split line := by
  rw [tokens, scan_eq, split_eq]
  congr 1
  exact congrFun List.modifyHead_id _

/-! ### Blanks at the ends -/

variable {blanks : Text}

theorem ne_quote_of_isBlank {c : Symbol} (h : Text.isBlank c = true) : c ≠ .char '"' := by
  rintro rfl
  exact absurd h (by decide)

theorem quote_notMem_of_isBlankLine (h : blanks.isBlankLine = true) : .char '"' ∉ blanks :=
  fun hmem => ne_quote_of_isBlank (List.all_eq_true.mp h _ hmem) rfl

/-- Blanks at the front of a line do not matter. -/
theorem tokens_append_left (h : blanks.isBlankLine = true) (line : Text) :
    tokens (blanks ++ line) = tokens line := by
  induction blanks with
  | nil => rfl
  | cons c rest ih =>
    obtain ⟨hc, hrest⟩ : Text.isBlank c = true ∧ Text.isBlankLine rest = true := by
      simpa only [Text.isBlankLine, List.all_cons, Bool.and_eq_true] using h
    rw [← ih hrest, tokens, List.cons_append, scan, if_neg (ne_quote_of_isBlank hc), hc]
    rfl

/-- Blanks end the token that was collected. -/
theorem scan_of_isBlankLine (h : blanks.isBlankLine = true) (current : Text) :
    scan current false blanks = emit current [] := by
  cases blanks with
  | nil => rfl
  | cons c rest =>
    obtain ⟨hc, hrest⟩ : Text.isBlank c = true ∧ Text.isBlankLine rest = true := by
      simpa only [Text.isBlankLine, List.all_cons, Bool.and_eq_true] using h
    have hnothing := tokens_append_left hrest []
    rw [List.append_nil] at hnothing
    rw [scan, if_neg (ne_quote_of_isBlank hc), hc, Bool.not_false, Bool.and_true, if_pos rfl,
      ← tokens, hnothing]
    rfl

/-- The scan comes out of a part of the line with tokens found there and with another one begun; a
quote is open then if that part of the line has opened or not closed it. -/
theorem exists_scan_append (current : Text) (quoted : Bool) (line : Text) :
    ∃ found last, ∀ rest,
      scan current quoted (line ++ rest) = found ++ scan last (quoted ^^ isOpen line) rest := by
  induction line generalizing current quoted with
  | nil => exact ⟨[], current, fun rest => by rw [isOpen, List.count_nil, Nat.zero_mod]; simp⟩
  | cons c line ih =>
    by_cases hc : c = .char '"'
    · obtain ⟨found, last, hscan⟩ := ih current (!quoted)
      refine ⟨found, last, fun rest => ?_⟩
      rw [List.cons_append, scan, if_pos hc, hscan, hc, isOpen_quote, Bool.not_xor, Bool.xor_not]
    · by_cases hcut : (!quoted && Text.isBlank c) = true
      · obtain ⟨found, last, hscan⟩ := ih [] quoted
        refine ⟨emit current found, last, fun rest => ?_⟩
        rw [List.cons_append, scan, if_neg hc, if_pos hcut, hscan, isOpen_cons_of_ne hc, emit_eq,
          emit_eq, List.append_assoc]
      · obtain ⟨found, last, hscan⟩ := ih (c :: current) quoted
        refine ⟨found, last, fun rest => ?_⟩
        rw [List.cons_append, scan, if_neg hc, if_neg hcut, hscan, isOpen_cons_of_ne hc]

/-- Blanks at the end of a line belong to its last token if it is open, and do not matter
otherwise. -/
theorem exists_tokens_append (h : blanks.isBlankLine = true) (line : Text) :
    ∃ (found : List Text) (last : Text), tokens line = found ++ [last].filter (· ≠ []) ∧
      tokens (line ++ blanks) =
        found ++ [if isOpen line then last ++ blanks else last].filter (· ≠ []) := by
  obtain ⟨found, last, hscan⟩ := exists_scan_append [] false line
  have hline := hscan []
  rw [List.append_nil, scan, emit_eq, List.append_nil] at hline
  refine ⟨found, last.reverse, hline, ?_⟩
  rw [tokens, hscan, Bool.false_xor]
  cases isOpen line with
  | true =>
    have hcollect := scan_quoted (quote_notMem_of_isBlankLine h) last []
    rw [List.append_nil] at hcollect
    rw [hcollect, scan, emit_eq, List.reverse_append, List.reverse_reverse, List.append_nil,
      if_pos rfl]
  | false =>
    rw [scan_of_isBlankLine h, emit_eq, List.append_nil, if_neg Bool.false_ne_true]

/-- Blanks at the end of a line matter only if it is open. -/
theorem isOpen_append (h : blanks.isBlankLine = true) (line : Text) :
    isOpen (line ++ blanks) = isOpen line := by
  rw [isOpen, List.count_append, List.count_eq_zero.mpr (quote_notMem_of_isBlankLine h),
    Nat.add_zero, isOpen]

/-! ### What a command is taken from -/

theorem words_append_left (h : blanks.isBlankLine = true) (line : Text) :
    words (blanks ++ line) = words line := by
  rw [words, Text.strip, Text.stripLeft_append h, ← Text.strip, ← words]

/-- A command is taken from the tokens of the line without the blanks at its end. -/
theorem words_eq (line : Text) : words line = tokens line.stripRight := by
  obtain ⟨blanks, hblank, hline⟩ := line.exists_stripLeft
  rw [words, Text.strip]
  generalize line.stripLeft = rest at hline ⊢
  rw [hline, Text.stripRight_append_left hblank]
  split
  · rename_i hnothing
    rw [hnothing]
  · exact (tokens_append_left hblank _).symm

/-- The words of a line are its tokens, but the last of them is without the blanks at the end of the
line if it is open. -/
theorem exists_words (line : Text) : ∃ (found : List Text) (last blanks : Text),
    blanks.isBlankLine = true ∧ line = line.stripRight ++ blanks ∧
      words line = found ++ [last].filter (· ≠ []) ∧
      tokens line = found ++ [if isOpen line then last ++ blanks else last].filter (· ≠ []) := by
  obtain ⟨blanks, hblank, hline⟩ := line.exists_stripRight
  obtain ⟨found, last, hwords, htokens⟩ := exists_tokens_append hblank line.stripRight
  refine ⟨found, last, blanks, hblank, hline, (words_eq line).trans hwords, ?_⟩
  rwa [← isOpen_append hblank, ← hline] at htokens

/-- **The quote-aware split.**

* A symbol of a line is quoted when an odd number of double quotes precede it, and the tokens of the
  line are its pieces between the blanks that are not quoted, without their double quotes and
  without the empty pieces, in order.
* A command is taken from the same tokens whatever blanks stand before the line.
* If the number of double quotes in the line is even, it is taken from the tokens of the line.
* If that number is odd, it is taken from the tokens of the line without the blanks at its end. Only
  the last token differs then: it has lost these blanks, and it is gone if nothing else was in
  it. -/
theorem tokens_are_unquoted_pieces (line : Text) :
    quotedFlags false line = line.mapIdx (fun i c => (c, isOpen (line.take i))) ∧
    tokens line = split line ∧
    (∀ blanks : Text, blanks.isBlankLine = true → words (blanks ++ line) = words line ∧
      parse (blanks ++ line) = { parse line with raw := blanks ++ line }) ∧
    (isOpen line = false → words line = tokens line) ∧
    (isOpen line = true → words line = tokens line.stripRight ∧
      ∃ (found : List Text) (last blanks : Text),
        blanks.isBlankLine = true ∧ line = line.stripRight ++ blanks ∧
        tokens line = found ++ [last ++ blanks].filter (· ≠ []) ∧
        words line = found ++ [last].filter (· ≠ [])) := by
  obtain ⟨found, last, blanks, hblank, hline, hwords, htokens⟩ := exists_words line
  refine ⟨?_, tokens_eq_split line, fun front hfront => ?_, fun hclosed => ?_, fun hopen => ?_⟩
  · rw [quotedFlags_eq]
    simp only [Bool.false_xor]
  · have hsame := words_append_left hfront line
    exact ⟨hsame, by rw [parse_eq, parse_eq, hsame]⟩
  · rw [htokens, hclosed, hwords]
    rfl
  · rw [hopen, if_pos rfl] at htokens
    exact ⟨words_eq line, found, last, blanks, hblank, hline, htokens, hwords⟩

/-- A quote that is never closed runs to the end of the line, where the command has lost two
blanks. -/
theorem tokens_are_unquoted_pieces_of_open :
    let line : Text := " type \"a \"\" b  "
    isOpen line = true ∧ words line = tokens line.stripRight ∧
      tokens line = ["type", "a  b  "] ∧ words line = ["type", "a  b"] := by
  intro line
  have hopen : isOpen line = true := by decide
  obtain ⟨-, -, -, -, hwords⟩ := tokens_are_unquoted_pieces line
  exact ⟨hopen, (hwords hopen).1, by decide, by decide⟩

end DosConsole.Line
