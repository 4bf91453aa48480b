/-!
# Texts

A **symbol** is a character, or half of a surrogate pair that stands alone. A document can spell
such a half by an escape, and it comes back out as it went in, so that a text is more than a string:
a `Text` is a list of symbols. Characters are symbols and strings are texts, by coercion.

Every symbol has a **code**, its code point, which tells it from all others (`code_inj`) and orders
it among them; texts are ordered as their lists of symbols are.
-/

namespace DosConsole

/-- A unit of a text. -/
inductive Symbol where
  | char (value : Char)
  /-- The code point `0xD800 + offset`, half of a surrogate pair that stands alone. -/
  | half (offset : Fin 0x800)
  deriving DecidableEq, Inhabited

/-- A text as a list of symbols. -/
abbrev Text := List Symbol

namespace Symbol

instance : Coe Char Symbol := ⟨.char⟩

/-- The code point of a symbol. -/
def code : Symbol → Nat
  | .char c => c.toNat
  | .half offset => 0xD800 + offset

/-- The symbol of a code point; a number that is none gives the null character. -/
def ofCode (n : Nat) : Symbol :=
  if h : 0xD800 ≤ n ∧ n < 0xE000 then .half ⟨n - 0xD800, by omega⟩ else .char (.ofNat n)

/-- The symbol is half of a pair. -/
def isHalf : Symbol → Bool
  | .char _ => false
  | .half _ => true

/-- The character that shows a symbol: a half is shown as the replacement character. -/
def toChar : Symbol → Char
  | .char c => c
  | .half _ => '\ufffd'

@[simp] theorem code_char (c : Char) : code c = c.toNat := rfl

private theorem toNat_ne_half (c : Char) (offset : Fin 0x800) : c.toNat ≠ 0xD800 + offset := by
  have := c.valid
  simp only [Char.toNat, UInt32.isValidChar, Nat.isValidChar] at this ⊢
  omega

/-- The code tells a symbol from all others. -/
theorem code_inj {a b : Symbol} : a.code = b.code ↔ a = b := by
  refine ⟨fun h => ?_, fun h => h ▸ rfl⟩
  match a, b, h with
  | .char c, .char d, h => exact congrArg char (Char.toNat_inj.mp h)
  | .half m, .half n, h =>
    exact congrArg half (Fin.ext (by simp only [code] at h; omega))
  | .char c, .half n, h => exact absurd h (toNat_ne_half c n)
  | .half m, .char d, h => exact absurd h.symm (toNat_ne_half d m)

/-! ### Order -/

instance : LT Symbol := ⟨fun a b => a.code < b.code⟩

instance : DecidableLT Symbol := fun a b => inferInstanceAs (Decidable (a.code < b.code))

instance : Trans (· < · : Symbol → Symbol → Prop) (· < ·) (· < ·) :=
  ⟨fun h k => Nat.lt_trans h k⟩

instance : Std.Irrefl (· < · : Symbol → Symbol → Prop) :=
  ⟨fun a => Nat.lt_irrefl a.code⟩

instance : Std.Antisymm (¬ · < · : Symbol → Symbol → Prop) :=
  ⟨fun _ _ h k => code_inj.mp (Nat.le_antisymm (Nat.not_lt.mp k) (Nat.not_lt.mp h))⟩

end Symbol

namespace Text

/-- The text of a string. -/
def ofString (s : String) : Text :=
  s.toList.map .char

instance : Coe String Text := ⟨ofString⟩

/-- The string of a text. What is no character is shown as the replacement character. -/
def toUnicode (t : Text) : String :=
  String.ofList (t.map Symbol.toChar)

@[simp] theorem length_ofString (s : String) : (ofString s).length = s.length := by
  rw [ofString, List.length_map, String.length_toList]

theorem ofString_inj {s t : String} : ofString s = ofString t ↔ s = t := by
  rw [ofString, ofString, List.map_inj_right fun _ _ => Symbol.char.inj, String.toList_inj]

@[simp] theorem toUnicode_ofString (s : String) : toUnicode (ofString s) = s := by
  simp [toUnicode, ofString, Function.comp_def, Symbol.toChar]

end Text

end DosConsole
