import DosConsole.Program

/-!
# The command line

The program runs on the real disk by way of a `Disk` that holds what stands at the two places it
works with, the settings and the snapshot, and on the way to them. What a run changes there is then
changed on the real disk too. The terminal reads whole lines; the editing of a line is left to the
device that the lines come from.
-/

namespace DosConsole.CommandLine

/-! ### What a run works with -/

/-- Where the settings of a command line are. -/
def settingsLocation (env : Environment) (texts : List Text) : List Location :=
  match Invocation.ofArguments texts with
  | .error _ => []
  | .ok i => [Settings.locationOf env (i.settings.getD [])]

/-- Where the snapshot of a command line is, as far as the settings can be read. -/
def storageLocation (env : Environment) (d : Disk) (texts : List Text) : List Location :=
  match Invocation.ofArguments texts with
  | .error _ => []
  | .ok i =>
    match (Settings.obtain none d env i.settings).2 with
    | .error _ => []
    | .ok (s, _) => ((Program.overridden s i).storage env).toOption.toList

instance : Outlet := .unicode

instance : LineEditor := .atEnd

/-- The text that tells of a fault. -/
def faultText : Fault → Text
  | .settings cause => cause.message
  | .document (.disk cause) => cause.message
  | .document (.unwritable cause) => cause.message
  | .document (.unreadable _) => "the file holds no value"
  | .unshowable cause => cause.message
  | .unprintable => "a text cannot be encoded"
  | .value _ => "the value cannot be read"
  | .noValue => "there is no value"
  | .userNotText => "the name of the user is no text"

/-- The line that tells of a notice. -/
def noticeText (n : Notice) : String :=
  (if n.isError then "ERROR: " else "WARNING: ") ++ n.text.toUnicode

/-- A text with marks for its style, with the sequences that the screen takes in their place. -/
def styled (text : String) : String :=
  (text.replace "[dim]" "\x1b[2m").replace "[/dim]" "\x1b[0m"

/-- How something shown by the terminal is written to the screen. What is typed stands there
already. -/
def screenText : Display → String
  | .prompt text => text.toUnicode
  | .input _ _ => ""
  | .line text | .panel text => text.toUnicode ++ "\n"
  | .markup text => styled text.toUnicode ++ "\n"
  | .wipe => "\x1b[2J\x1b[H"

/-- The keys for a line that was read. The empty text comes at the end of the input. -/
def keysOf (line : String) : List Key :=
  if line = "" then [.endOfInput]
  else [.typed ((Text.ofString line).filter fun c => c != '\n' && c != '\r'), .enter]

/-! ### The real disk -/

/-- The path of a location on the real disk. -/
def realPath (l : Location) : String :=
  l.text.toUnicode

/-- What stands at a place of the real disk. What cannot be read as a file counts as a directory. -/
def look (place : Location) : IO (Option DiskEntry) := do
  try
    return some (.file (← IO.FS.readBinFile (realPath place)))
  catch
    | .noFileOrDirectory _ _ _ => return none
    | _ => return some .directory

/-- Adds what stands on the way along parts from a place. -/
def follow (d : Disk) (place : Location) : List Text → IO Disk
  | [] => return d
  | part :: rest => do
    let next := place.step part
    if next.isOuter then follow d next rest
    else
      match ← look next with
      | none => return d
      | some (.file content) => return d.put next (.file content)
      | some .directory => follow (d.put next .directory) next rest

/-- Adds what stands on the way to locations. -/
def add (d : Disk) : List Location → IO Disk
  | [] => return d
  | l :: rest => do
    let d ← if (nameFault? l.text).isSome then pure d else follow d l.start l.parts
    add d rest

/-- Changes one entry of the real disk. A file is moved over the old one when it is complete. -/
def change (entry : Location × DiskEntry) : IO Unit := do
  match entry with
  | (place, .directory) => IO.FS.createDirAll (realPath place)
  | (place, .file content) =>
    let temporary := realPath (Disk.temporary place.parent place.name 0)
    IO.FS.writeBinFile temporary content
    IO.FS.rename temporary (realPath place)

/-- Carries the changes from one disk to another over to the real one. -/
def carry (before after : Disk) : IO Unit :=
  (after.entries.filter fun entry => before.entries.lookup entry.1 != some entry.2).forM change

/-! ### Runs -/

/-- Tells of notices. -/
def tell (notices : List Notice) : IO Unit :=
  notices.forM fun n => IO.eprintln (noticeText n)

/-- Ends a run that has come to a report. -/
def finish (before : Disk) (r : Report) : IO UInt32 := do
  carry before r.disk
  tell r.notices
  IO.print r.output.toUnicode
  match r.ending with
  | .code n => return UInt32.ofNat n
  | .fault cause =>
    IO.eprintln (faultText cause).toUnicode
    return 1

/-- Shows what is new in the terminal, then reads lines until it is left. -/
partial def converse (t : Terminal) (before : Disk) (shown told : Nat) : IO UInt32 := do
  carry before t.machine.disk
  tell (t.machine.notices.drop told)
  IO.print (String.join ((t.shown.drop shown).map screenText))
  (← IO.getStdout).flush
  if t.closed then return 0
  let line ← (← IO.getStdin).getLine
  let next := (keysOf line).foldl Terminal.handle t
  let (console, machine) := next.console.close next.machine
  converse { next with console, machine } t.machine.disk t.shown.length t.machine.notices.length

/-- The account in a line of the table of accounts: the first of its fields is the name and the
sixth the home directory. -/
def accountOf? (line : String) : Option (Text × Location) :=
  match line.splitOn ":" with
  | name :: _ :: _ :: _ :: _ :: home :: _ => some (name, .ofText home)
  | _ => none

/-- The home directories of the accounts. -/
def accounts : IO (List (Text × Location)) := do
  try
    return ((← IO.FS.readFile "/etc/passwd").splitOn "\n").filterMap accountOf?
  catch
    | _ => return []

/-- What the program takes from its surroundings. -/
def environment : IO Environment := do
  let value (name : String) : IO Text := return (← IO.getEnv name).getD ""
  let homes : Homes := ⟨.ofText (← value "HOME"), ← accounts⟩
  return ⟨← value "DOSSHELL_USER", ← value "DOSSHELL_STORAGE", homes⟩

/-- Does what a command line that follows the forms asks for. -/
def serve (args : List Text) : IO UInt32 := do
  let env ← environment
  let here := (← IO.currentDir).toString
  let d ← add (.empty here.utf8ByteSize) (settingsLocation env args)
  let d ← add d (storageLocation env d args)
  match Program.start env d args with
  | .over report => finish d report
  | .waiting console machine =>
    match Terminal.start console machine with
    | none => finish d ⟨.fault .userNotText, [], machine.notices, machine.disk, []⟩
    | some t => converse t d 0 0

end DosConsole.CommandLine

open DosConsole CommandLine in
/-- Does what the command line asks for, or tells what can be asked. -/
def main (args : List String) : IO UInt32 := do
  let texts := args.map Text.ofString
  match Invocation.ofArguments texts with
  | .error .misuse =>
    IO.eprint Invocation.Manual.whole.text.toUnicode
    return 2
  | .error (.help text) =>
    IO.print text.toUnicode
    return 0
  | .ok _ => serve texts
