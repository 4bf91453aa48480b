import DosConsole.Disk.Location
import DosConsole.Text.Literal

/-!
# The disk

The disk holds directories and files with their bytes. An entry stands at a **place**: a location
that has no `..`, except in front where it leads out of the directory that the program runs in. Any
location is led to its place by walking along its parts, each of which but the last must be a
directory that exists; so `..` after a name that does not exist leads nowhere. Locations and their
parts have a limit of bytes, and a part that is too long is noticed when it is looked up.

An operation that cannot be carried out gives its cause and leaves the disk alone. Only the making
of a directory together with those around it can stop part way, though never because too many of
them are missing, since nothing is made before that is known.
-/

namespace DosConsole

/-- Why an operation on the disk was refused. -/
inductive DiskError where
  /-- Nothing is there, or a directory on the way is missing. -/
  | missing (location : Location)
  /-- Something is there already. -/
  | alreadyExists (location : Location)
  /-- Something on the way is a file. -/
  | notADirectory (location : Location)
  /-- A file is needed, and this is a directory. -/
  | isADirectory (location : Location)
  /-- A file cannot take the place of a directory. -/
  | cannotReplace (source target : Location)
  /-- A file cannot be moved to a location that does not end in a name. -/
  | busy (source target : Location)
  /-- The location, or a part of it that was looked up, has too many bytes. -/
  | nameTooLong (location : Location)
  /-- More directories around the location are missing than are made at one go. -/
  | tooManyMissing (location : Location)
  /-- The location can be no name: the disk was not even asked. -/
  | unnameable (fault : NameFault)
  deriving DecidableEq

namespace DiskError

/-- The message for the refusal of the disk that has the given number. -/
def numbered (number : Nat) (cause : String) (location : Location) : Text :=
  "[Errno " ++ toString number ++ "] " ++ cause ++ ": " ++ location.text.literal

/-- The message for the refusal to move a file. -/
def moving (number : Nat) (cause : String) (source target : Location) : Text :=
  numbered number cause source ++ " -> " ++ target.text.literal

def message : DiskError → Text
  | .missing l => numbered 2 "No such file or directory" l
  | .alreadyExists l => numbered 17 "File exists" l
  | .notADirectory l => numbered 20 "Not a directory" l
  | .isADirectory l => numbered 21 "Is a directory" l
  | .cannotReplace source target => moving 21 "Is a directory" source target
  | .busy source target => moving 16 "Device or resource busy" source target
  | .nameTooLong l => numbered 36 "File name too long" l
  | .tooManyMissing l => "too many directories are missing: " ++ l.text.literal
  | .unnameable fault => fault.message

/-- The disk itself refused. -/
def isRefusal : DiskError → Bool
  | .tooManyMissing _ | .unnameable _ => false
  | _ => true

end DiskError

/-- What stands at a place of the disk. -/
inductive DiskEntry where
  | directory
  | file (content : ByteArray)

-- The comparison of byte arrays is named, since other libraries bring a second one.
instance : DecidableEq DiskEntry
  | .directory, .directory => isTrue rfl
  | .directory, .file _ | .file _, .directory => isFalse nofun
  | .file a, .file b =>
    match ByteArray.instDecidableEq a b with
    | isTrue h => isTrue (congrArg DiskEntry.file h)
    | isFalse h => isFalse fun same => h (DiskEntry.file.inj same)

/-- The contents of a disk by their places. -/
structure Disk where
  /-- The number of bytes in the full name of the directory that the program runs in. -/
  hereSize : Nat
  entries : List (Location × DiskEntry)

namespace Disk

/-- The disk without entries. -/
def empty (hereSize : Nat) : Disk :=
  ⟨hereSize, []⟩

/-! ### Places -/

/-- What stands at a place. -/
def at? (d : Disk) (place : Location) : Option DiskEntry :=
  if place.isOuter then some .directory else d.entries.lookup place

/-- Puts an entry at a place, instead of the one there. -/
def put (d : Disk) (place : Location) (e : DiskEntry) : Disk :=
  { d with entries := d.entries.filter (·.1 ≠ place) ++ [(place, e)] }

/-- Takes the entry at a place away. -/
def take (d : Disk) (place : Location) : Disk :=
  { d with entries := d.entries.filter (·.1 ≠ place) }

/-- The most bytes that a part of a location may have. -/
def partLimit : Nat := 255

/-- The most bytes that a location may have. -/
def locationLimit : Nat := 4095

/-- Walks on along parts from a place on the way of the location `l`. -/
def walk (d : Disk) (l place : Location) : List Text → Except DiskError Location
  | [] => .ok place
  | part :: rest =>
    match d.at? place with
    | none => .error (.missing l)
    | some (.file _) => .error (.notADirectory l)
    | some .directory =>
      if partLimit < nameSize part then .error (.nameTooLong l)
      else d.walk l (place.step part) rest

/-- The place of a location, where something may be or not. -/
def place (d : Disk) (l : Location) : Except DiskError Location :=
  match nameFault? l.text with
  | some fault => .error (.unnameable fault)
  | none =>
    if locationLimit < nameSize l.text then .error (.nameTooLong l)
    else d.walk l l.start l.parts

/-! ### Looking -/

/-- What a location leads to. -/
def find? (d : Disk) (l : Location) : Option DiskEntry :=
  match d.place l with
  | .error _ => none
  | .ok p => d.at? p

/-- Whether something is at a location. That cannot be told of one that is too long. -/
def has (d : Disk) (l : Location) : Except DiskError Bool :=
  match d.place l with
  | .error (.nameTooLong l) => .error (.nameTooLong l)
  | _ => .ok (d.find? l).isSome

/-- A directory is at the location. -/
def hasDirectory (d : Disk) (l : Location) : Bool :=
  match d.find? l with
  | some .directory => true
  | _ => false

/-- The content of the file at a location. -/
def read (d : Disk) (l : Location) : Except DiskError ByteArray :=
  match d.place l with
  | .error e => .error e
  | .ok p =>
    match d.at? p with
    | none => .error (.missing l)
    | some .directory => .error (.isADirectory l)
    | some (.file content) => .ok content

/-! ### Changing -/

/-- Makes a directory in a directory that exists. -/
def makeDirectory (d : Disk) (l : Location) : Except DiskError Disk :=
  match d.place l with
  | .error e => .error e
  | .ok p =>
    match d.at? p with
    | some _ => .error (.alreadyExists l)
    | none => .ok (d.put p .directory)

/-- Forgives the refusal to make a directory that is there already. -/
def forgive (d : Disk) (l : Location) (e : DiskError) : Except DiskError Unit :=
  if e.isRefusal && d.hasDirectory l then .ok () else .error e

/-- Makes a directory unless it is there. -/
def ensureDirectory (d : Disk) (l : Location) : Disk × Except DiskError Unit :=
  match d.makeDirectory l with
  | .ok d => (d, .ok ())
  | .error e => (d, d.forgive l e)

/-- The most directories that are made together. -/
def makingLimit : Nat := 985

/-- Makes the directory that lies the given parts, the last first, from an anchor, and whichever of
those around it are missing, but no more than `limit` directories. The innermost is tried first, and
only if it is missing a way are those around it made. -/
def ensureTrail (d : Disk) (anchor : Anchor) (limit : Nat) :
    List Text → Disk × Except DiskError Unit
  | [] => d.ensureDirectory ⟨anchor, []⟩
  | part :: around =>
    let l : Location := ⟨anchor, (part :: around).reverse⟩
    match limit with
    | 0 => (d, .error (.tooManyMissing l))
    | limit + 1 =>
      match d.makeDirectory l with
      | .ok d => (d, .ok ())
      | .error (.missing _) =>
        match d.ensureTrail anchor limit around with
        | (d, .error e) => (d, .error e)
        | (d, .ok ()) => d.ensureDirectory l
      | .error e => (d, d.forgive l e)

/-- Makes a directory and whichever of those around it are missing. -/
def ensureDirectories (d : Disk) (l : Location) : Disk × Except DiskError Unit :=
  d.ensureTrail l.anchor makingLimit l.parts.reverse

/-- Writes a file, a new one or over the old one. -/
def write (d : Disk) (l : Location) (content : ByteArray) : Except DiskError Disk :=
  match d.place l with
  | .error e => .error e
  | .ok p =>
    match d.at? p with
    | some .directory => .error (.isADirectory l)
    | _ => .ok (d.put p (.file content))

/-- Removes the file at a location, if there is one. -/
def remove (d : Disk) (l : Location) : Disk :=
  match d.place l with
  | .error _ => d
  | .ok p => d.take p

/-- Moves a file to a location, where it takes the place of the file there. -/
def replace (d : Disk) (source target : Location) : Except DiskError Disk :=
  match d.read source with
  | .error e => .error e
  | .ok content =>
    match d.place target with
    | .error e => .error e
    | .ok p =>
      match d.at? p with
      | some .directory =>
        .error (if target.isNamed then .cannotReplace source target else .busy source target)
      | _ => .ok ((d.remove source).put p (.file content))

/-! ### Fresh names -/

/-- The digits of a number, after zeros that make them up to eight. -/
def eightDigits (n : Nat) : List Char :=
  let digits := Nat.toDigits 10 n
  List.replicate (8 - digits.length) '0' ++ digits

/-- The `n`-th name for a file in a directory that is to take the place of one with the given name.
It is fourteen bytes longer. -/
def temporary (directory : Location) (name : Text) (n : Nat) : Location :=
  directory.child ("." ++ name ++ "." ++ String.ofList (eightDigits n) ++ ".tmp")

/-- The number of bytes in the full name of a place, which starts at the root. -/
def fullSize (d : Disk) (place : Location) : Nat :=
  if place.anchor = .here then d.hereSize + 1 + nameSize place.text else nameSize place.text

/-- A place where nothing is, in the directory where `l` lies: one of the first names is free, since
there are more of them than entries. It is reached by its full name, whatever way `l` takes. -/
def freshBeside (d : Disk) (l : Location) : Except DiskError Location :=
  match d.place l.parent with
  | .error e => .error e
  | .ok directory =>
    let place := temporary directory l.name (((List.range (d.entries.length + 1)).find? fun n =>
      (d.at? (temporary directory l.name n)).isNone).getD 0)
    if locationLimit < d.fullSize place then .error (.nameTooLong place) else .ok place

end Disk

end DosConsole
