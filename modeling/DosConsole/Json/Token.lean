import DosConsole.Json.Numeral
import DosConsole.Json.Quoted

/-!
# Tokens of the data format

`Token.take?` takes the next token off a text: a bracket, a comma, a colon or a scalar. Between
tokens stand spaces, tabs and line ends only. Besides numerals and strings the scalars are the words
`null`, `true`, `false`, `NaN`, `Infinity` and `-Infinity`.
-/

namespace DosConsole.Json

/-- A token of the data format. -/
inductive Token where
  | openList
  | closeList
  | openObject
  | closeObject
  | comma
  | colon
  | scalar (value : Json)
  /-- A whole number with more digits than are converted. -/
  | overlong

namespace Token

/-- A symbol that may stand between tokens. -/
def isSpace (c : Symbol) : Bool :=
  c == ' ' || c == '\t' || c == '\n' || c == '\r'

/-- The text after a word that it starts with. -/
def after? : (word t : Text) → Option Text
  | [], t => some t
  | _ :: _, [] => none
  | a :: word, c :: t => if a = c then after? word t else none

/-- The tokens that have one spelling only. -/
def fixed : List (Text × Token) := [
  (['['], .openList),
  ([']'], .closeList),
  (['{'], .openObject),
  (['}'], .closeObject),
  ([','], .comma),
  ([':'], .colon),
  ("null", .scalar .null),
  ("true", .scalar (.bool true)),
  ("false", .scalar (.bool false)),
  ("NaN", .scalar (.float .nan)),
  ("Infinity", .scalar (.float (.infinite false))),
  ("-Infinity", .scalar (.float (.infinite true)))]

/-- The token with one spelling at the front of a text, and the text after it. -/
def fixed? (t : Text) : Option (Token × Text) :=
  fixed.findSome? fun entry => (after? entry.1 t).map (entry.2, ·)

/-- The token of a numeral. -/
def ofNumeral (n : Numeral) : Token :=
  match n.value? with
  | some v => .scalar v
  | none => .overlong

/-- The string or number at the front of a text, and the text after it. -/
def free? : Text → Option (Token × Text)
  | .char '"' :: rest => (Quoted.read? rest).map fun (s, after) => (.scalar (.str s), after)
  | t => (Numeral.take? t).map fun (n, after) => (ofNumeral n, after)

/-- The token at the front of a text that starts with no space, and the text after it. -/
def take? (t : Text) : Option (Token × Text) :=
  (fixed? t).or (free? t)

/-! ### A token takes symbols off the text -/

theorem eq_append_of_after? {word t after : Text} (h : after? word t = some after) :
    t = word ++ after := by
  fun_induction after? word t with
  | case1 t => simpa using h
  | case2 => simp at h
  | case3 a word t ih => rw [ih h, List.cons_append]
  | case4 => simp at h

/-- No token is spelled by the empty word. -/
theorem fixed_ne_nil : ∀ entry ∈ fixed, entry.1 ≠ [] := by
  simp [fixed, Text.ofString]

theorem length_fixed? {t after : Text} {token : Token} (h : fixed? t = some (token, after)) :
    after.length < t.length := by
  obtain ⟨entry, hmem, he⟩ := List.exists_of_findSome?_eq_some h
  obtain ⟨rest, hrest, heq⟩ := Option.map_eq_some_iff.mp he
  have hword := List.length_pos_iff.mpr (fixed_ne_nil entry hmem)
  simp only [Prod.mk.injEq] at heq
  rw [eq_append_of_after? hrest, List.length_append, ← heq.2]
  omega

theorem length_free? {t after : Text} {token : Token} (h : free? t = some (token, after)) :
    after.length < t.length := by
  unfold free? at h
  split at h
  · obtain ⟨p, hp, heq⟩ := Option.map_eq_some_iff.mp h
    simp only [Prod.mk.injEq] at heq
    rw [← heq.2]; exact Nat.lt_succ_of_lt (Quoted.length_read? hp)
  · obtain ⟨p, hp, heq⟩ := Option.map_eq_some_iff.mp h
    simp only [Prod.mk.injEq] at heq
    rw [← heq.2]; exact Numeral.length_take? hp

/-- Every token takes a symbol at least. -/
theorem length_take? {t after : Text} {token : Token} (h : take? t = some (token, after)) :
    after.length < t.length := by
  rcases Option.or_eq_some_iff.mp h with h | ⟨_, h⟩
  · exact length_fixed? h
  · exact length_free? h

end Token

end DosConsole.Json
