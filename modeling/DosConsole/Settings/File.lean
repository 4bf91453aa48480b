import DosConsole.Settings.Basic

/-!
# The settings file

The settings are kept on the disk as one document, which is laid over the defaults when it is read.
If there is none, one with the defaults is written. Settings that cannot be read are answered by the
defaults, with a notice; only a file nested too deep, or a name that is too long or cannot be one,
stops the program.
-/

namespace DosConsole

namespace DocumentError

/-- The trouble is one that the program gets over by itself. -/
def isMinor : DocumentError → Bool
  | .disk cause => cause.isRefusal
  | .unreadable (.tooDeep _) => false
  | .unreadable _ => true
  | .unwritable _ => false

end DocumentError

namespace Settings

/-- Where the settings are if nobody says otherwise. -/
def defaultLocation (env : Environment) : Location :=
  (env.homes.own.child ".dosshell").child "config.json"

/-- The location of the settings that a path denotes; the empty path denotes the default. -/
def locationOf (env : Environment) (path : Text) : Location :=
  if path = [] then defaultLocation env else .ofText path

/-- The settings at a location with the given values, which are made. -/
def holding (l : Location) (values : Json.Fields) : Settings :=
  let (memory, refs) := Memory.empty.makeFields values
  let (memory, root) := memory.new refs
  ⟨l, memory, root, []⟩

/-- The settings in a value: it is laid over the defaults, if it is an object. -/
def ofDocument (l : Location) : Json → Settings × List Notice
  | .object fields => (holding l (Json.mergeFields defaults fields), [])
  | _ => (holding l defaults, [.settingsUnreadable l])

/-- Reads the settings at a location. -/
def load (d : Disk) (l : Location) : Disk × Except SettingsError (Settings × List Notice) :=
  match d.has l with
  | .error e => (d, .error (.document (.disk e)))
  | .ok true =>
    match d.readDocument l with
    | .ok v => (d, .ok (ofDocument l v))
    | .error e =>
      (d, if e.isMinor then .ok (holding l defaults, [.settingsUnreadable l])
        else .error (.document e))
  | .ok false =>
    match d.writeDocument l (.object defaults) with
    | (d, .ok ()) => (d, .ok (holding l defaults, []))
    | (d, .error e) =>
      (d, if e.isMinor then .ok (holding l defaults, [.settingsNotWritten l])
        else .error (.document e))

/-- What is written of the settings. -/
def written (s : Settings) : Json.Written :=
  s.memory.written (.object s.root)

/-- Writes a value as the settings, or the settings themselves in the place of one that counts as
false. -/
def save (s : Settings) (d : Disk) (v : Json) : Disk × Except SettingsError Unit :=
  match d.writeOver s.location (if v.isTrue then v.written else s.written) with
  | (d, .ok ()) => (d, .ok ())
  | (d, .error e) => (d, .error (.document e))

/-- Assigns a value to a key and saves the settings. The assignment stands even if they cannot be
saved. -/
def set (s : Settings) (d : Disk) (key : Text) (r : Ref) :
    Settings × Disk × Except SettingsError Unit :=
  match s.assign key r with
  | (s, .error e) => (s, d, .error (.assign e))
  | (s, .ok ()) =>
    let (d, saved) := s.save d .null
    (s, d, saved)

/-! ### Shared settings -/

/-- The settings that are shared so far, unless a path is given that leads to others. -/
def reusable (shared : Option Settings) : (path : Option Text) → Option Settings
  | none => shared
  | some path => shared.filter fun s => decide (Location.ofText path = s.location)

/-- The settings that the whole program shares, which are loaded when they are first asked for and
when a path leads to others. -/
def obtain (shared : Option Settings) (d : Disk) (env : Environment) (path : Option Text) :
    Disk × Except SettingsError (Settings × List Notice) :=
  match reusable shared path with
  | some s => (d, .ok (s, []))
  | none => load d (locationOf env (path.getD []))

end Settings

namespace SettingsError

def message : SettingsError → Text
  | .document (.disk cause) => cause.message
  | .document (.unreadable _) => "the settings are nested too deep to be read"
  | .document (.unwritable cause) => cause.message
  | .assign cause => cause.message
  | .notAPath kind => "expected str, bytes or os.PathLike object, not " ++ kind
  | .home .unknown => "Could not determine home directory."
  | .home (.unnameable fault) => fault.message
  | .infinite => "cannot convert float infinity to integer"
  | .notAMinimum kind => "'>=' not supported between instances of 'int' and '" ++ kind ++ "'"
  | .unshowable cause => cause.message

end SettingsError

end DosConsole
