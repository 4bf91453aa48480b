import DosConsole.Command.Registry
import DosConsole.Line.Token

/-!
# Completion of a line

The last token of the text typed so far is completed: the first token of a line from the names of
the commands, any later one from the entries of the current directory. A candidate is a name that
starts with the token, in the same case. If there is exactly one, the text is replaced by its tokens
with the candidate in the last place and a space after it.
-/

namespace DosConsole

/-- What completing a text comes to. -/
structure Completion where
  /-- The text that replaces the one typed. -/
  text : Option Text
  candidates : List Text
  deriving DecidableEq

namespace Completion

/-- Several candidates match, so that they are listed instead of one being chosen. -/
def isAmbiguous (c : Completion) : Bool :=
  decide (1 < c.candidates.length)

/-- The names that start with `start`. -/
def matching (start : Text) (names : List Text) : List Text :=
  names.filter start.isPrefixOf

/-- The names of the entries of the directory at a path. Anything else has none. -/
def entryNames [Folding] (tree : Tree) (path : Text) : List Text :=
  match tree.resolve? path with
  | some (.dir _ children) => children.map (·.name)
  | _ => []

/-- The text with the given tokens, ready for the next one. -/
def retype (tokens : List Text) : Text :=
  List.intercalate [.char ' '] (tokens.map Line.quote) ++ [Symbol.char ' ']

/-- The tokens before the last and the last token; of no tokens the last is empty. -/
def splitLast : List Text → List Text × Text
  | [] => ([], [])
  | [t] => ([], t)
  | t :: rest => let (earlier, last) := splitLast rest; (t :: earlier, last)

/-- Completes a text, given the names of the commands and of the entries. -/
def complete (commands entries : List Text) (text : Text) : Completion :=
  let (earlier, last) := splitLast (Line.words text)
  let candidates := matching last (if earlier.isEmpty then commands else entries)
  match candidates with
  | [only] => ⟨some (retype (earlier ++ [only])), candidates⟩
  | _ => ⟨none, candidates⟩

end Completion

/-- Completes a text in a directory of a tree. -/
def Registry.complete [Folding] (r : Registry) (tree : Tree) (cwd text : Text) : Completion :=
  Completion.complete r.names (Completion.entryNames tree cwd) text

end DosConsole
