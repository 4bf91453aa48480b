import DosConsole.Text.Literal

/-!
# Strings of the data format

A string stands between double quotes. It holds no control characters, and a symbol may be spelled
by an **escape**: a letter after a backslash, or `u` and the four hexadecimal digits of a code unit.
Two escaped units that form a surrogate pair stand for one character, and any other unit stands for
the symbol with its code.

`Quoted.write` uses ASCII only: a symbol outside the range from the space to the tilde is escaped by
its units, so that half of a pair is one unit by itself.
-/

namespace DosConsole.Json.Quoted

/-! ### Writing -/

/-- The escape for a code unit of sixteen bits. -/
def escapeUnit (n : Nat) : List Char :=
  '\\' :: 'u' :: Text.hex 4 n

/-- The form of one symbol of a string. -/
def escape (c : Symbol) : List Char :=
  if c = '"' then ['\\', '"']
  else if c = '\\' then ['\\', '\\']
  else if c = '\n' then ['\\', 'n']
  else if c = '\r' then ['\\', 'r']
  else if c = '\t' then ['\\', 't']
  else if c = '\x0c' then ['\\', 'f']
  else if c = '\x08' then ['\\', 'b']
  else if 32 ≤ c.code ∧ c.code < 127 then [c.toChar]
  else if c.code < 0x10000 then escapeUnit c.code
  else
    let n := c.code - 0x10000
    escapeUnit (0xD800 + n / 0x400) ++ escapeUnit (0xDC00 + n % 0x400)

/-- The text between double quotes. -/
def write (t : Text) : String :=
  String.ofList ('"' :: t.flatMap escape ++ ['"'])

/-! ### Reading -/

/-- The value of a hexadecimal digit. -/
def hexValue? (c : Symbol) : Option Nat :=
  let n := c.code
  if 48 ≤ n ∧ n < 58 then some (n - 48)
  else if 97 ≤ n ∧ n < 103 then some (n - 87)
  else if 65 ≤ n ∧ n < 71 then some (n - 55)
  else none

/-- The value of four hexadecimal digits. -/
def hexValue4? (a b c d : Symbol) : Option Nat := do
  let a ← hexValue? a
  let b ← hexValue? b
  let c ← hexValue? c
  let d ← hexValue? d
  return ((a * 16 + b) * 16 + c) * 16 + d

/-- The symbol that a one-letter escape stands for. -/
def escaped? : Symbol → Option Symbol
  | .char '"' => some '"'
  | .char '\\' => some '\\'
  | .char '/' => some '/'
  | .char 'b' => some '\x08'
  | .char 'f' => some '\x0c'
  | .char 'n' => some '\n'
  | .char 'r' => some '\r'
  | .char 't' => some '\t'
  | _ => none

/-- A piece of a string: a symbol, or an escaped code unit that may be half of a pair. -/
inductive Piece where
  | symbol (c : Symbol)
  | unit (code : Nat)
  deriving DecidableEq

/-- The pieces of a string up to its closing quote, and the text after it. -/
def pieces? : Text → Option (List Piece × Text)
  | [] => none
  | .char '"' :: rest => some ([], rest)
  | .char '\\' :: .char 'u' :: a :: b :: c :: d :: rest =>
    match hexValue4? a b c d with
    | none => none
    | some n => (pieces? rest).map fun (ps, after) => (.unit n :: ps, after)
  | .char '\\' :: c :: rest =>
    match escaped? c with
    | none => none
    | some e => (pieces? rest).map fun (ps, after) => (.symbol e :: ps, after)
  | c :: rest =>
    if c.code < 32 then none
    else (pieces? rest).map fun (ps, after) => (.symbol c :: ps, after)

/-- The character of two code units, if they form a surrogate pair. -/
def pair? (high low : Nat) : Option Char :=
  if 0xD800 ≤ high ∧ high < 0xDC00 ∧ 0xDC00 ≤ low ∧ low < 0xE000 then
    some (Char.ofNat (0x10000 + (high - 0xD800) * 0x400 + (low - 0xDC00)))
  else
    none

/-- The text of pieces. Pairs are formed from the left. -/
def join : List Piece → Text
  | [] => []
  | .symbol c :: rest => c :: join rest
  | [.unit n] => [.ofCode n]
  | .unit n :: .symbol c :: rest => .ofCode n :: c :: join rest
  | .unit high :: .unit low :: rest =>
    match pair? high low with
    | some c => c :: join rest
    | none => .ofCode high :: join (.unit low :: rest)

/-- The string whose opening quote has been taken, and the text after its closing quote. -/
def read? (t : Text) : Option (Text × Text) :=
  (pieces? t).map fun (ps, after) => (join ps, after)

theorem length_pieces? {t after : Text} {ps : List Piece} (h : pieces? t = some (ps, after)) :
    after.length < t.length := by
  fun_induction pieces? t generalizing ps after with
  | case1 => simp at h
  | case2 rest => simp only [Option.some.injEq, Prod.mk.injEq] at h; simp [← h.2]
  | case3 => simp at h
  | case4 a b c d rest n hn ih =>
    obtain ⟨p, hp, heq⟩ := Option.map_eq_some_iff.mp h
    have := ih hp
    simp only [Prod.mk.injEq] at heq
    simp only [← heq.2, List.length_cons]; omega
  | case5 => simp at h
  | case6 c rest hc e he ih =>
    obtain ⟨p, hp, heq⟩ := Option.map_eq_some_iff.mp h
    have := ih hp
    simp only [Prod.mk.injEq] at heq
    simp only [← heq.2, List.length_cons]; omega
  | case7 => simp at h
  | case8 c rest h1 h2 h3 h4 ih =>
    obtain ⟨p, hp, heq⟩ := Option.map_eq_some_iff.mp h
    have := ih hp
    simp only [Prod.mk.injEq] at heq
    simp only [← heq.2, List.length_cons]; omega

theorem length_read? {t s after : Text} (h : read? t = some (s, after)) :
    after.length < t.length := by
  obtain ⟨p, hp, heq⟩ := Option.map_eq_some_iff.mp h
  simp only [Prod.mk.injEq] at heq
  rw [← heq.2]; exact length_pieces? hp

end DosConsole.Json.Quoted
