import DosConsole.Text.Digit

/-!
# Forms of a command line

A form says which **switches** and **arguments** a command line may hold. A switch has a name after
two dashes, which may be cut short as long as it fits no other name, and sometimes a letter after
one dash. A value follows its switch or is written to its name with an equals sign. Letters may be
written together, also with an equals sign after the first of them.

Every text of a line is first marked by itself: as a switch, as an unknown switch, or as a word. A
text that starts with a dash is a word all the same if it is a negative number or holds a space.
After the first `--`, which ends the switches, every text is a word. Then switches and arguments are
read from left to right. What nothing has a place for is remembered as **surplus**; it makes the
line a misuse only after all of it was read, since help that is asked for anywhere comes first.
-/

namespace DosConsole.Invocation

/-- Why a line was not read to its end. -/
inductive Stop where
  /-- The line does not follow the form. -/
  | misuse
  /-- Help is asked for, and this is shown. -/
  | help (text : Text)
  deriving DecidableEq

/-- A switch. Only a switch without a value can have a letter. -/
structure Switch where
  /-- The name with its two dashes. -/
  name : Text
  letter : Option Symbol
  takesValue : Bool
  not_takesValue : letter.isSome = true → takesValue = false := by decide

/-- The kind of an argument. -/
inductive Argument where
  /-- One word. -/
  | one
  /-- One or more words. -/
  | several
  /-- A word and all that follows it, switches included. It may be left out. -/
  | command
  deriving DecidableEq

structure Form where
  switches : List Switch
  arguments : List Argument
  /-- What is shown when help is asked for. -/
  help : Text

/-! ### Marks -/

/-- A text that is written to a switch. -/
inductive Attached where
  | nothing
  /-- A value after the name. -/
  | value (text : Text)
  /-- More letters after the letter. -/
  | letters (text : Text)

/-- What a text is by itself. -/
inductive Mark where
  | word
  /-- The `--` that ends the switches. -/
  | ending
  | switch (switch : Switch) (attached : Attached)
  /-- A switch that the form does not have. -/
  | unknown

def Mark.isWord : Mark → Bool
  | .word => true
  | _ => false

def Mark.isEnding : Mark → Bool
  | .ending => true
  | _ => false

/-- A text with its mark. -/
abbrev Item := Text × Mark

/-- The text before the first equals sign, and the text after it if there is one. -/
def splitEquals (t : Text) : Text × Option Text :=
  match t.dropWhile (· != .char '=') with
  | [] => (t, none)
  | _ :: value => (t.takeWhile (· != .char '='), some value)

/-- The text is made of digits, at least one. -/
def isDigits (t : Text) : Bool :=
  !t.isEmpty && t.all Text.isDigit

/-- The text can follow the dash of a negative number: digits, of which the last ones may follow a
point. -/
def isMagnitude (t : Text) : Bool :=
  isDigits t ||
    match t.dropWhile Text.isDigit with
    | .char '.' :: fraction => isDigits fraction
    | _ => false

/-- The text without a line end after it. -/
def withoutLineEnd (t : Text) : Text :=
  if t.getLast? = some (.char '\n') then t.dropLast else t

namespace Switch

/-- The switch is written in full, by its name or by its letter. -/
def isWritten (s : Switch) (t : Text) : Bool :=
  t == s.name || s.letter.any fun letter => t == [.char '-', letter]

/-- The switch has the letter. -/
def hasLetter (s : Switch) (c : Symbol) : Bool :=
  s.letter == some c

/-- What is written to a switch with an equals sign: a value, or after the letter more letters. -/
def attach (s : Switch) (start text : Text) : Attached :=
  if start = s.name then .value text else .letters text

end Switch

namespace Form

/-- The switch that is written in full. -/
def written? (f : Form) (t : Text) : Option Switch :=
  f.switches.find? (·.isWritten t)

/-- The switch that has the letter. -/
def lettered? (f : Form) (c : Symbol) : Option Switch :=
  f.switches.find? (·.hasLetter c)

/-- The switches that a text can mean which is not written in full. -/
def candidates (f : Form) (t : Text) : List (Switch × Attached) :=
  match t with
  | .char '-' :: .char '-' :: _ =>
    let (start, value) := splitEquals t
    (f.switches.filter fun s => start.isPrefixOf s.name).map (·, value.elim .nothing .value)
  | .char '-' :: c :: rest => (f.lettered? c).toList.map (·, .letters rest)
  | _ => []

/-- The mark of a text that starts with a dash and is no switch written in full. -/
def markUnwritten (f : Form) (t : Text) : Except Stop Mark :=
  match f.candidates t with
  | [(s, attached)] => .ok (.switch s attached)
  | _ :: _ :: _ => .error .misuse
  | [] =>
    .ok (if isMagnitude (withoutLineEnd (t.drop 1)) || t.contains (.char ' ') then .word
      else .unknown)

/-- The mark of a text that starts with a dash and goes on. -/
def markDashed (f : Form) (t : Text) : Except Stop Mark :=
  match f.written? t, splitEquals t with
  | some s, _ => .ok (.switch s .nothing)
  | none, (_, none) => f.markUnwritten t
  | none, (start, some text) =>
    match f.written? start with
    | some s => .ok (.switch s (s.attach start text))
    | none => f.markUnwritten t

/-- The mark of a text. -/
def mark (f : Form) (t : Text) : Except Stop Mark :=
  match t with
  | .char '-' :: _ :: _ => f.markDashed t
  | _ => .ok .word

/-- Marks the texts of a line. -/
def markAll (f : Form) : List Text → Except Stop (List Item)
  | [] => .ok []
  | text :: rest =>
    if text = "--" then .ok ((text, .ending) :: rest.map (·, .word))
    else
      match f.mark text with
      | .error e => .error e
      | .ok m =>
        match f.markAll rest with
        | .error e => .error e
        | .ok items => .ok ((text, m) :: items)

end Form

/-! ### Arguments -/

/-- A text that belongs to an argument of one word or of several: a word or the end of the
switches. -/
def Mark.isPlain (m : Mark) : Bool :=
  m.isWord || m.isEnding

namespace Argument

/-- The items that an argument takes after its first word, and those that it leaves. -/
def extend (a : Argument) (items : List Item) : List Item × List Item :=
  match a with
  | .one => (items.takeWhile (·.2.isEnding), items.dropWhile (·.2.isEnding))
  | .several => (items.takeWhile (·.2.isPlain), items.dropWhile (·.2.isPlain))
  | .command => (items, [])

/-- The values of an argument in the texts that it took. The first `--` is none of them, except that
a command keeps every text. -/
def values (a : Argument) (texts : List Text) : List Text :=
  match a with
  | .command => texts
  | _ => texts.erase "--"

/-- Takes an argument off the items: its values and the items that it leaves. -/
def take (a : Argument) (items : List Item) : Option (List Text × List Item) :=
  match items.dropWhile (·.2.isEnding) with
  | (text, .word) :: rest =>
    let (more, left) := a.extend rest
    let texts := (items.takeWhile (·.2.isEnding)).map Prod.fst ++ text :: more.map Prod.fst
    some (a.values texts, left)
  | _ => none

private theorem length_dropEndings_le {α : Type} (p : α → Bool) (l : List α) :
    (l.dropWhile p).length ≤ l.length :=
  (List.dropWhile_suffix p).length_le

theorem length_extend_le (a : Argument) (items : List Item) :
    (a.extend items).2.length ≤ items.length := by
  cases a with
  | one => exact length_dropEndings_le _ _
  | several => exact length_dropEndings_le _ _
  | command => exact Nat.zero_le _

/-- An argument takes at least one item. -/
theorem length_of_take {a : Argument} {items left : List Item} {values : List Text}
    (h : a.take items = some (values, left)) : left.length < items.length := by
  simp only [take] at h
  split at h
  · rename_i text rest hr
    simp only [Option.some.injEq, Prod.mk.injEq] at h
    have h₁ := length_extend_le a rest
    have h₂ := length_dropEndings_le (·.2.isEnding) items
    rw [hr] at h₂
    rw [← h.2]
    simp only [List.length_cons] at h₂
    omega
  · exact absurd h (by simp)

end Argument

/-! ### Reading a line -/

/-- What has been read of a line. -/
structure Reading where
  /-- The switches by their names, each with its value if it was given one, in order. -/
  switches : List (Text × Option Text)
  /-- The values of the arguments, in order. -/
  arguments : List (List Text)
  /-- Something had no place. -/
  surplus : Bool

namespace Reading

/-- The reading of nothing. -/
def empty : Reading :=
  ⟨[], [], false⟩

/-- Notes that something had no place. -/
def withSurplus (r : Reading) (surplus : Bool) : Reading :=
  { r with surplus := r.surplus || surplus }

/-- The switch was given. -/
def has (r : Reading) (name : Text) : Bool :=
  r.switches.any (·.1 == name)

/-- The value that a switch was given last. -/
def value? (r : Reading) (name : Text) : Option Text :=
  (r.switches.reverse.lookup name).join

end Reading

namespace Form

/-- Notes a switch. The switch for help ends the reading at once. -/
def note (f : Form) (r : Reading) (s : Switch) (value : Option Text) : Except Stop Reading :=
  if s.name = "--help" then .error (.help f.help)
  else .ok { r with switches := r.switches ++ [(s.name, value)] }

/-- Notes switches without values one after the other. -/
def noteAll (f : Form) (r : Reading) : List Switch → Except Stop Reading
  | [] => .ok r
  | s :: rest =>
    match f.note r s none with
    | .error e => .error e
    | .ok r => f.noteAll r rest

/-- The switches of letters that are written together. Each of them must be one. -/
def together? (f : Form) (letters : Text) : Option (List Switch) :=
  letters.mapM f.lettered?

/-- Reads a switch: what is read then, and the items that are left. A `--` is no value of a switch
that it is written to; it takes back the one given before. -/
def takeSwitch (f : Form) (r : Reading) (s : Switch) (attached : Attached) (rest : List Item) :
    Except Stop (Reading × List Item) :=
  match attached with
  | .value text =>
    if s.takesValue then (f.note r s (if text = "--" then none else some text)).map (·, rest)
    else .error .misuse
  | .letters [] => .error .misuse
  | .letters (c :: more) =>
    match f.together? (c :: more) with
    | none => .error .misuse
    | some switches => (f.noteAll r (s :: switches)).map (·, rest)
  | .nothing =>
    if s.takesValue then
      match rest with
      | (text, .word) :: rest => (f.note r s (some text)).map (·, rest)
      | _ => .error .misuse
    else (f.note r s none).map (·, rest)

theorem length_of_takeSwitch {f : Form} {r r' : Reading} {s : Switch} {attached : Attached}
    {rest left : List Item} (h : f.takeSwitch r s attached rest = .ok (r', left)) :
    left.length ≤ rest.length := by
  have key {x : Except Stop Reading} {items : List Item}
      (h : x.map (·, items) = .ok (r', left)) : left = items := by
    cases x with
    | error e => simp [Except.map] at h
    | ok r => simp only [Except.map, Except.ok.injEq, Prod.mk.injEq] at h; exact h.2.symm
  match attached with
  | .value text =>
    simp only [takeSwitch] at h
    split at h
    · exact Nat.le_of_eq (congrArg _ (key h))
    · cases h
  | .letters [] => cases h
  | .letters (c :: more) =>
    simp only [takeSwitch] at h
    split at h
    · cases h
    · exact Nat.le_of_eq (congrArg _ (key h))
  | .nothing =>
    simp only [takeSwitch] at h
    split at h
    · split at h
      · rw [key h]; exact Nat.le_succ _
      · cases h
    · exact Nat.le_of_eq (congrArg _ (key h))

/-- Reads the items of a line, given the arguments still to come. -/
def readItems (f : Form) (pending : List Argument) (r : Reading) (items : List Item) :
    Except Stop Reading :=
  match items with
  | [] => if pending.all (· == .command) then .ok r else .error .misuse
  | (_, .unknown) :: rest => f.readItems pending (r.withSurplus true) rest
  | (_, .switch s attached) :: rest =>
    match _h : f.takeSwitch r s attached rest with
    | .error e => .error e
    | .ok (r, left) => f.readItems pending r left
  | item :: rest =>
    match pending with
    | [] => f.readItems [] (r.withSurplus true) rest
    | a :: more =>
      match _h : a.take (item :: rest) with
      | none => f.readItems pending (r.withSurplus true) rest
      | some (values, left) =>
        f.readItems more { r with arguments := r.arguments ++ [values] } left
termination_by items.length
decreasing_by
  · exact Nat.lt_succ_self _
  · exact Nat.lt_succ_of_le (length_of_takeSwitch _h)
  · exact Nat.lt_succ_self _
  · exact Nat.lt_succ_self _
  · exact Argument.length_of_take _h

/-- Reads a line. Every argument must be there, except a command. -/
def read (f : Form) (texts : List Text) : Except Stop Reading :=
  match f.markAll texts with
  | .error e => .error e
  | .ok items => f.readItems f.arguments .empty items

end Form

end DosConsole.Invocation
