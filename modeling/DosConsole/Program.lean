import DosConsole.Invocation.Request
import DosConsole.Settings.File
import DosConsole.Terminal

/-!
# A run of the program

A run takes a command line, the environment and the disk. It reads the settings, does what is asked
for, and comes to a **report**: the exit code or the fault that stopped it, what it printed, and the
disk as it was left. If the terminal is asked for, the keys come in between.

What is printed goes to an **outlet**, which has an encoding and need not take every text: half of a
surrogate pair can stand in a snapshot, and so in a name, but hardly in an encoding. The first text
that is not taken stops the run.
-/

namespace DosConsole

/-- Where texts are printed to. -/
class Outlet where
  /-- The text can be printed. -/
  takes : Text → Bool

/-- The outlet for the texts in which no half of a surrogate pair stands alone. -/
abbrev Outlet.unicode : Outlet where
  takes text := !text.any Symbol.isHalf

/-- Why a run was stopped. -/
inductive Fault where
  /-- The settings cannot be used. -/
  | settings (cause : SettingsError)
  /-- The snapshot or the settings cannot be written or printed. -/
  | document (cause : DocumentError)
  /-- A value that is to be printed cannot be shown. -/
  | unshowable (cause : Json.ShowError)
  /-- A text was not taken where it was to be printed. -/
  | unprintable
  /-- The value of a setting is in the format, but cannot be read. -/
  | value (cause : Json.ReadError)
  /-- There is no value to assign. -/
  | noValue
  /-- The name of the user is no text, so that the terminal cannot show it. -/
  | userNotText
  deriving DecidableEq

/-- How a run ended. -/
inductive Ending where
  | code (exitCode : Nat)
  | fault (cause : Fault)
  deriving DecidableEq

/-- The exit code that others see: a run that is stopped by a fault has the code one. -/
def Ending.exitCode : Ending → Nat
  | .code n => n
  | .fault _ => 1

/-- What a run came to. -/
structure Report where
  ending : Ending
  /-- The text that was printed. -/
  output : Text
  notices : List Notice
  disk : Disk
  /-- What the terminal showed. -/
  shown : List Display

/-- What the keyboard gives to a terminal. -/
inductive Keyboard where
  | keys (keys : List Key)
  /-- The run is interrupted before the terminal is there. -/
  | interrupted

namespace Program

/-- The text of lines, each with its end. -/
def textOf (lines : List Text) : Text :=
  lines.flatMap (· ++ [.char '\n'])

/-- What is printed of texts: those before the first one that is not taken. -/
def printedOf [Outlet] (texts : List Text) : Text :=
  textOf (texts.takeWhile Outlet.takes)

/-- The settings in use, the environment and the disk, with the notices so far. -/
structure Setting where
  settings : Settings
  environment : Environment
  disk : Disk
  notices : List Notice

namespace Setting

/-- The report of a run that is stopped by a fault. -/
def stop (s : Setting) (cause : Fault) : Report :=
  ⟨.fault cause, [], s.notices, s.disk, []⟩

/-- The report of a run that prints a text and ends with an exit code. -/
def say [Outlet] (s : Setting) (exitCode : Nat) (text : Text) : Report :=
  if Outlet.takes text then ⟨.code exitCode, textOf [text], s.notices, s.disk, []⟩
  else s.stop .unprintable

end Setting

/-! ### Consoles -/

/-- The name of the user: that of the command line before all others. -/
def user (s : Setting) (given : Option Text) : Json :=
  match given with
  | some name => if name = [] then s.settings.user s.environment else .str name
  | none => s.settings.user s.environment

/-- Opens a console on the tree that was kept. If that fails, the notices so far are kept. -/
def openConsole (s : Setting) (given : Option Text) (persist : Bool) :
    Except (Fault × List Notice) (Console × Machine) :=
  match s.settings.storage s.environment with
  | .error e => .error (.settings e, s.notices)
  | .ok location =>
    match Snapshot.load s.disk location with
    | .error e => .error (.document (.disk e), s.notices)
    | .ok (tree, notices) =>
      match s.settings.historyLimit with
      | .error e => .error (.settings e, s.notices ++ notices)
      | .ok (limit, more) =>
        let keeper : Snapshot.Keeper :=
          .start location (s.settings.isSet "storage.async_writes" true)
        .ok (.start (user s given) (s.settings.isSet "filesystem.strict_rm" false) limit
            (if persist && s.settings.isSet "storage.persist" true then some keeper else none),
          ⟨tree, s.disk, s.notices ++ notices ++ more⟩)

/-- The lines to print for a line that was run. -/
def printed (echo : Bool) (line : Text) (o : Outcome) : List Text :=
  if !echo && !line.isBlankLine && !o.clears then o.output.drop 1 else o.output

/-- How far a run of lines has come. -/
structure Batch where
  console : Console
  machine : Machine
  /-- The text that was printed. -/
  output : Text
  /-- All lines so far succeeded. -/
  succeeded : Bool
  /-- A text was not taken where it was to be printed. -/
  stopped : Bool

namespace Batch

/-- A run of which nothing is done. -/
def start (c : Console) (m : Machine) : Batch :=
  ⟨c, m, [], true, false⟩

/-- Runs one line and prints what it shows. After a text that was not taken nothing is run. -/
def next [Outlet] (echo : Bool) (b : Batch) (line : Text) : Batch :=
  if b.stopped then b
  else
    let (outcome, console, machine) := b.console.submit b.machine line
    let texts := printed echo line outcome
    ⟨console, machine, b.output ++ printedOf texts, b.succeeded && outcome.success,
      !texts.all Outlet.takes⟩

/-- The report of a run that goes no further, once everything that waits is written. -/
def report (b : Batch) : Report :=
  let (_, m) := b.console.close b.machine
  { ending :=
      if b.stopped then .fault .unprintable else .code (if b.succeeded then 0 else 1)
    output := b.output
    notices := m.notices
    disk := m.disk
    shown := [] }

end Batch

/-- Runs lines one after the other. -/
def submitAll [Outlet] (c : Console) (m : Machine) (lines : List Text) (echo : Bool) : Batch :=
  lines.foldl (Batch.next echo) (.start c m)

/-- Runs lines and prints what they show. The run fails if one of them does. -/
def runLines [Outlet] (c : Console) (m : Machine) (lines : List Text) (echo : Bool) : Report :=
  (submitAll c m lines echo).report

/-! ### The snapshot -/

/-- Prints a value over several lines. -/
def printValue [Outlet] (s : Setting) (v : Json) : Report :=
  match Json.write? v with
  | .error cause => s.stop (.document (.unwritable cause))
  | .ok text => s.say 0 text

/-- Prints the snapshot. -/
def printSnapshot [Outlet] (s : Setting) : Report :=
  match s.settings.storage s.environment with
  | .error e => s.stop (.settings e)
  | .ok location =>
    match Snapshot.load s.disk location with
    | .error e => s.stop (.document (.disk e))
    | .ok (tree, notices) => printValue { s with notices := s.notices ++ notices } tree.snapshot

/-- Replaces the snapshot by that of a new installation. -/
def resetSnapshot [Outlet] (s : Setting) : Report :=
  match s.settings.storage s.environment with
  | .error e => s.stop (.settings e)
  | .ok location =>
    match Snapshot.save s.disk location .seed with
    | (disk, .ok ()) =>
      { s with disk }.say 0 ("Filesystem reset: " ++ location.text)
    | (disk, .error (.disk e)) =>
      if e.isRefusal then
        { s with disk }.say 1 ("Error: could not write " ++ location.text ++ ": " ++ e.message)
      else { s with disk }.stop (.document (.disk e))
    | (disk, .error e) => { s with disk }.stop (.document e)

/-! ### The settings -/

/-- The value that a text stands for: the one that it holds, or else the text itself. -/
def valueOf (text : Text) : Except Json.ReadError Json :=
  match Json.read text with
  | .ok v => .ok v
  | .error .malformed => .ok (.str text)
  | .error e => .error e

/-- The message for a value that was not assigned, if the run goes on. -/
def refusal? : SettingsError → Option Text
  | .assign cause => some cause.message
  | .document (.disk cause) => if cause.isRefusal then some cause.message else none
  | _ => none

/-- Prints the form of a value behind a text. -/
def showValue [Outlet] (s : Setting) (before : Text) (v : Json) : Report :=
  match v.show? with
  | .error cause => s.stop (.unshowable cause)
  | .ok shown => s.say 0 (before ++ shown)

/-- Assigns a value to a key. -/
def assignSetting [Outlet] (s : Setting) (key : Text) (v : Json) : Report :=
  let (settings, r) := s.settings.make v
  match settings.set s.disk key r with
  | (_, disk, .ok ()) => showValue { s with disk } ("Set: " ++ key ++ " = ") v
  | (_, disk, .error e) =>
    match refusal? e with
    | some message => { s with disk }.say 1 ("Error: could not set " ++ key ++ ": " ++ message)
    | none => { s with disk }.stop (.settings e)

/-- Shows or changes settings. -/
def handleSettings [Outlet] (s : Setting) : Invocation.SettingsRequest → Report
  | .list => printValue s (.object s.settings.values)
  | .path => s.say 0 s.settings.location.text
  | .get key =>
    match s.settings.get key .null with
    | .null => s.say 1 ("Error: Key '" ++ key ++ "' not found")
    | .object fields => printValue s (.object fields)
    | v => showValue s [] v
  | .set _ none => s.stop .noValue
  | .set key (some text) =>
    match valueOf text with
    | .error e => s.stop (.value e)
    | .ok v => assignSetting s key v

/-! ### Whole runs -/

/-- How a run begins: it is over, or it waits for keys. -/
inductive Beginning where
  | over (report : Report)
  | waiting (console : Console) (machine : Machine)

/-- Opens a console and goes on with it, unless a fault stops the run. -/
def withConsole (s : Setting) (i : Invocation) (go : Console → Machine → Beginning) : Beginning :=
  match openConsole s i.user i.persist with
  | .error (cause, notices) => .over ({ s with notices }.stop cause)
  | .ok (c, m) => go c m

/-- Does what is asked for, as far as it can be done without keys. -/
def handle [Outlet] (s : Setting) (i : Invocation) : Beginning :=
  match i.request with
  | .shell => withConsole s i .waiting
  | .run lines echo => withConsole s i fun c m => .over (runLines c m lines echo)
  | .snapshot => .over (printSnapshot s)
  | .reset => .over (resetSnapshot s)
  | .settings request => .over (handleSettings s request)

/-- The settings with what the command line lays over them. -/
def overridden (s : Settings) (i : Invocation) : Settings :=
  match i.storage with
  | none => s
  | some path => if path = [] then s else s.override "storage.path" (.str path)

/-- Begins a run. -/
def start [Outlet] (env : Environment) (d : Disk) (texts : List Text) : Beginning :=
  match Invocation.ofArguments texts with
  | .error .misuse => .over ⟨.code 2, [], [], d, []⟩
  | .error (.help text) => .over ⟨.code 0, text, [], d, []⟩
  | .ok i =>
    match Settings.obtain none d env i.settings with
    | (d, .error e) => .over ⟨.fault (.settings e), [], [], d, []⟩
    | (d, .ok (settings, notices)) => handle ⟨overridden settings i, env, d, notices⟩ i

/-- What a terminal came to. -/
def ended (t : Terminal) : Report :=
  ⟨.code 0, [], t.machine.notices, t.machine.disk, t.shown⟩

/-- The report of a run that is interrupted before the terminal is there. -/
def interrupted [Outlet] (m : Machine) : Report :=
  let text : Text := "\nInterrupted"
  if Outlet.takes text then ⟨.code 130, textOf [text], m.notices, m.disk, []⟩
  else ⟨.fault .unprintable, [], m.notices, m.disk, []⟩

/-- Carries a run through. -/
def run [Outlet] [LineEditor] (env : Environment) (d : Disk) (texts : List Text)
    (keyboard : Keyboard) : Report :=
  match start env d texts with
  | .over report => report
  | .waiting c m =>
    match keyboard with
    | .interrupted => interrupted m
    | .keys keys =>
      match Terminal.start c m with
      | none => ⟨.fault .userNotText, [], m.notices, m.disk, []⟩
      | some t => ended (t.run keys)

end Program

end DosConsole
