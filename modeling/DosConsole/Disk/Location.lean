import DosConsole.Path
import DosConsole.Text.Literal

/-!
# Locations on the disk

A location is what the text of a path on the disk comes to: a place to start from and the **parts**
that lead on from there. Empty parts and `.` are dropped, while `..` is kept, since only the disk
can tell where it leads. A text that starts with exactly two slashes is told apart from one that
starts with any other number of them.
-/

namespace DosConsole

/-- The place that a location starts from. -/
inductive Anchor where
  /-- The directory that the program runs in. -/
  | here
  /-- The root of the disk. -/
  | root
  /-- The root of the disk, written with two slashes. -/
  | doubleRoot
  deriving DecidableEq, Inhabited

/-- How an anchor is written in front of the parts. -/
def Anchor.text : Anchor → Text
  | .here => []
  | .root => ['/']
  | .doubleRoot => ['/', '/']

/-- A path on the disk. -/
structure Location where
  anchor : Anchor
  parts : List Text
  deriving DecidableEq, Inhabited

/-! ### Names -/

/-- How many bytes a symbol takes in a name on the disk: as many as its character has in UTF-8, and
one for a half that stands for a byte outside ASCII. Other halves have no place in a name. -/
def nameBytes? : Symbol → Option Nat
  | .char c => some c.utf8Size
  | .half offset => if 0x480 ≤ offset.val ∧ offset.val < 0x500 then some 1 else none

/-- How many bytes a text takes in a name on the disk. -/
def nameSize (t : Text) : Nat :=
  t.foldr (fun c size => (nameBytes? c).getD 0 + size) 0

/-- Why a text can be no name on the disk. -/
inductive NameFault where
  /-- A symbol has no bytes: the first one at that position, and the other halves of pairs that
  follow it without a gap. -/
  | noBytes (position : Nat) (first : Symbol) (others : Text)
  /-- It holds a null character. -/
  | null
  deriving DecidableEq

namespace NameFault

/-- What is in the way of a text that has no bytes, and where it is. -/
def obstacle (position : Nat) (first : Symbol) (others : Text) : Text :=
  if others = [] then
    "character '" ++ Text.codeEscape 'u' 4 first ++ "' in position " ++ toString position
  else
    "characters in position " ++ toString position ++ "-" ++ toString (position + others.length)

def message : NameFault → Text
  | .noBytes position first others =>
    "'utf-8' codec can't encode " ++ obstacle position first others ++ ": surrogates not allowed"
  | .null => "embedded null byte"

end NameFault

/-- What keeps a text from being a name on the disk, if anything does. -/
def nameFault? (t : Text) : Option NameFault :=
  let hasBytes (c : Symbol) := (nameBytes? c).isSome
  match t.dropWhile hasBytes with
  | first :: rest =>
    some (.noBytes (t.takeWhile hasBytes).length first (rest.takeWhile Symbol.isHalf))
  | [] => if t.contains (.char '\x00') then some .null else none

/-! ### Home directories -/

/-- The home directories that are known. -/
structure Homes where
  /-- The one of the person at the keyboard. -/
  own : Location
  /-- Those of the accounts, by their names. -/
  accounts : List (Text × Location)

/-- The home directory of an account; the empty name stands for the person at the keyboard. -/
def Homes.find? (h : Homes) (name : Text) : Option Location :=
  if name = [] then some h.own else h.accounts.lookup name

/-- Why the home directory that a location starts from was not found. -/
inductive HomeError where
  /-- Nobody has that name. -/
  | unknown
  /-- The name can be nobody's. -/
  | unnameable (fault : NameFault)
  deriving DecidableEq

namespace Location

/-- The anchor of a text with the given number of slashes in front. -/
def anchorOf : Nat → Anchor
  | 0 => .here
  | 2 => .doubleRoot
  | _ => .root

/-- The location that a text denotes. -/
def ofText (s : Text) : Location where
  anchor := anchorOf (s.takeWhile (· == .char '/')).length
  parts := (Path.segments s).filter (· ≠ ".")

/-- The text of a location; the place where one is has a text of its own. -/
def text (l : Location) : Text :=
  if l.anchor = .here ∧ l.parts = [] then "."
  else l.anchor.text ++ List.intercalate [.char '/'] l.parts

/-- The last part; the anchor alone has none. -/
def name (l : Location) : Text :=
  l.parts.getLastD []

/-- The location ends in the name of an entry. -/
def isNamed (l : Location) : Bool :=
  match l.parts.getLast? with
  | none => false
  | some part => part != ".."

/-- The location without its last part. -/
def parent (l : Location) : Location :=
  { l with parts := l.parts.dropLast }

/-- The location one part further. -/
def child (l : Location) (part : Text) : Location :=
  { l with parts := l.parts ++ [part] }

/-- Puts a home directory in place of a leading `~`, the one of the account that it names. -/
def expand (l : Location) (homes : Homes) : Except HomeError Location :=
  match l.anchor, l.parts with
  | .here, (.char '~' :: name) :: rest =>
    match nameFault? name, homes.find? name with
    | some fault, _ => .error (.unnameable fault)
    | none, none => .error .unknown
    | none, some home => .ok { home with parts := home.parts ++ rest }
  | _, _ => .ok l

/-! ### Places -/

/-- The location names a directory whatever the disk holds: its anchor or a directory around it. -/
def isOuter (l : Location) : Bool :=
  l.parts.all (· == "..")

/-- The start of the way that the parts describe. -/
def start (l : Location) : Location :=
  ⟨if l.anchor = .here then .here else .root, []⟩

/-- The directory around a directory. The root lies in itself. -/
def up (l : Location) : Location :=
  if !l.isOuter then l.parent
  else if l.anchor = .here then l.child ".."
  else l

/-- Follows one part. -/
def step (l : Location) (part : Text) : Location :=
  if part = ".." then l.up else l.child part

end Location

end DosConsole
