import DosConsole.Disk.Document
import DosConsole.Json.Display
import DosConsole.Notice
import DosConsole.Number.Whole
import DosConsole.Settings.Memory

/-!
# Settings

Settings are a nested object of values, each reached by a key whose steps are separated by points.
The object is held by reference: whoever asks for the value of a key is given the very objects that
the settings hold, and an object that is set is held from then on. On top of them lie overrides,
which hold for one run and are never saved, and the environment. A setting of which no use can be
made is answered by a default, and a notice tells of it.
-/

namespace DosConsole

/-- What the program takes from its surroundings. An empty text counts as absent. -/
structure Environment where
  user : Text
  storage : Text
  homes : Homes

/-- Why something was not done with the settings. -/
inductive SettingsError where
  /-- The settings were not read or written. -/
  | document (cause : DocumentError)
  /-- A value cannot be assigned where the key leads. -/
  | assign (cause : Json.AssignError)
  /-- A value of that kind stands where a path is needed. -/
  | notAPath (kind : String)
  /-- The path starts from a home directory that was not found. -/
  | home (cause : HomeError)
  /-- An infinity stands where a whole number is needed. -/
  | infinite
  /-- A value of that kind stands where a minimum is needed. -/
  | notAMinimum (kind : String)
  /-- A notice would have to quote a value that cannot be shown. -/
  | unshowable (cause : Json.ShowError)
  deriving DecidableEq

structure Settings where
  location : Location
  /-- All objects that there are, in the settings and elsewhere. -/
  memory : Memory
  /-- The number of the object of all values. -/
  root : Nat
  overrides : Json.Fields

namespace Settings

/-- The values of the settings. -/
def values (s : Settings) : Json.Fields :=
  s.memory.fields s.root

/-- Makes a value. -/
def make (s : Settings) (v : Json) : Settings × Ref :=
  let (memory, r) := s.memory.make v
  ({ s with memory }, r)

/-- The settings of a new installation. -/
def defaults : Json.Fields := [
  ("shell", .object [("username", .str "USER"), ("history_size", .int 1000)]),
  ("storage", .object [
    ("path", .str "~/.dosshell/vfs.json"), ("persist", .bool true), ("async_writes", .bool true)]),
  ("filesystem", .object [("strict_rm", .bool false)])]

/-- The steps of a key. -/
def steps (key : Text) : List Text :=
  key.splitOn (.char '.')

/-- The reference that is held under a key. -/
def find? (s : Settings) (key : Text) : Option Ref :=
  s.memory.follow? (.object s.root) (steps key)

/-- The value of a key, without the overrides. -/
def get? (s : Settings) (key : Text) : Option Json :=
  (s.find? key).map s.memory.value

/-- The value of a key, or a default if there is none. -/
def get (s : Settings) (key : Text) (default : Json) : Json :=
  (s.get? key).getD default

/-- The value of a key counts as true; so does `default` if there is none. -/
def isSet (s : Settings) (key : Text) (default : Bool) : Bool :=
  (s.get key (.bool default)).isTrue

/-- The whole number that a value stands for, if it stands for one. A fraction is cut off. -/
def whole? : Json → Except SettingsError (Option Int)
  | .int n => .ok (some n)
  | .float (.infinite _) => .error .infinite
  | .float x => .ok x.truncate?
  | .str s => .ok (Whole.ofText? s)
  | _ => .ok none

/-- Whether the number is not below a minimum. Null is none; a truth value counts as one or zero. -/
def reaches (n : Int) : (minimum : Json) → Except SettingsError Bool
  | .null => .ok true
  | .bool b => .ok (decide ((if b then 1 else 0) ≤ n))
  | .int m => .ok (decide (m ≤ n))
  | .float x => .ok (x.isAtMost n)
  | v => .error (.notAMinimum v.kind)

/-- The whole number that a value stands for, if it stands for one that is not below a minimum. -/
def accepted? (v minimum : Json) : Except SettingsError (Option Int) :=
  match whole? v with
  | .error e => .error e
  | .ok none => .ok none
  | .ok (some n) => (reaches n minimum).map fun reached => if reached then some n else none

/-- The notice that no use can be made of the value of a key. It quotes the value, and the default
that is used instead. -/
def refusal (key : Text) (v default : Json) : Except SettingsError Notice :=
  match v.quote? Json.showingLimit with
  | .error e => .error (.unshowable e)
  | .ok quoted => ((default.show?).map (.settingInvalid key quoted)).mapError .unshowable

/-- The whole number of a key, unless its value stands for none, or for one below the minimum. The
default stands in for an absent value, and a notice tells of a value that is refused. -/
def whole (s : Settings) (key : Text) (default minimum : Json) :
    Except SettingsError (Option Int × List Notice) :=
  let v := s.get key default
  match accepted? v minimum with
  | .error e => .error e
  | .ok none => (refusal key v default).map fun notice => (none, [notice])
  | .ok (some n) => .ok (some n, [])

/-- The whole number of a key, or the default if its value is refused. -/
def integer (s : Settings) (key : Text) (default minimum : Json) :
    Except SettingsError (Json × List Notice) :=
  (s.whole key default minimum).map fun (n, notices) => (n.elim default .int, notices)

/-- The key of the number of lines that a history keeps. -/
def historyKey : Text := "shell.history_size"

/-- The number of lines that a history keeps: a whole number that is not negative, or a thousand. -/
def historyLimit (s : Settings) : Except SettingsError (Int × List Notice) :=
  (s.whole historyKey (.int 1000) (.int 0)).map fun (n, notices) => (n.getD 1000, notices)

/-- Overrides a key for this run. -/
def override (s : Settings) (key : Text) (value : Json) : Settings :=
  { s with overrides := s.overrides.put key value }

/-- The name of the user: that of the environment before that of the settings. -/
def user (s : Settings) (env : Environment) : Json :=
  if env.user = [] then s.get "shell.username" (.str "USER") else .str env.user

/-- The value that says where the snapshot is: the override, then the environment, then the
settings. -/
def storageValue (s : Settings) (env : Environment) : Json :=
  let override := (s.overrides.get? "storage.path").getD .null
  if override.isTrue then override
  else if env.storage = [] then s.get "storage.path" .null
  else .str env.storage

/-- Where the snapshot is. -/
def storage (s : Settings) (env : Environment) : Except SettingsError Location :=
  match s.storageValue env with
  | .str path =>
    ((Location.ofText path).expand env.homes).mapError .home
  | v => .error (.notAPath v.kind)

/-- Assigns the value that a reference stands for to a key. -/
def assign (s : Settings) (key : Text) (r : Ref) : Settings × Except Json.AssignError Unit :=
  let (memory, result) := s.memory.assign r (steps key) (.object s.root)
  ({ s with memory }, result)

end Settings

end DosConsole
