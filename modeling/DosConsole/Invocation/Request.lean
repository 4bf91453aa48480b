import DosConsole.Invocation.Form
import DosConsole.Invocation.Manual

/-!
# What the program can be asked to do

The command line of the program has switches of its own, followed by a command with its own
switches and arguments. Without a command the terminal is started.
-/

namespace DosConsole.Invocation

/-- What to do with the settings. -/
inductive SettingsRequest where
  /-- Show all of them. -/
  | list
  /-- Tell where they are. -/
  | path
  /-- Show the value of a key. -/
  | get (key : Text)
  /-- Assign a value to a key. A `--` in the place of the value leaves none. -/
  | set (key : Text) (value : Option Text)
  deriving DecidableEq

/-- What to do. -/
inductive Request where
  /-- Start the terminal. -/
  | shell
  /-- Run lines, with or without showing their echo. -/
  | run (lines : List Text) (echo : Bool)
  /-- Print the snapshot. -/
  | snapshot
  /-- Replace the snapshot by that of a new installation. -/
  | reset
  | settings (request : SettingsRequest)
  deriving DecidableEq

end Invocation

/-- A command line. -/
structure Invocation where
  verbose : Bool
  /-- The path of the settings. -/
  settings : Option Text
  /-- The path of the snapshot. -/
  storage : Option Text
  /-- Changes of the tree may be kept. -/
  persist : Bool
  /-- The name in the prompt. -/
  user : Option Text
  request : Invocation.Request
  deriving DecidableEq

namespace Invocation

/-! ### Forms -/

/-- The switch that asks for help. -/
def helpSwitch : Switch :=
  ⟨"--help", some 'h', false, by decide⟩

/-- A switch without a value and without a letter. -/
def flag (name : Text) : Switch :=
  ⟨name, none, false, by decide⟩

/-- A switch with a value. -/
def option (name : Text) : Switch :=
  ⟨name, none, true, by decide⟩

/-- The form of the whole line. -/
def wholeForm : Form where
  switches := [helpSwitch, ⟨"--verbose", some 'v', false, by decide⟩, option "--config",
    option "--storage", flag "--no-persist", option "--user"]
  arguments := [.command]
  help := Manual.whole.text

/-- The form of a command with the given arguments and no switches but the one for help. -/
def plainForm (page : Page) (arguments : List Argument) : Form :=
  ⟨[helpSwitch], arguments, page.text⟩

/-- The form of the command that runs lines. -/
def runForm : Form :=
  ⟨[helpSwitch, flag "--no-echo"], [.several], Manual.run.text⟩

/-! ### Reading -/

/-- Reads the arguments of a command that has none but the given request. -/
def readPlain {α : Type} (page : Page) (request : α) (texts : List Text) :
    Except Stop (α × Bool) :=
  match (plainForm page []).read texts with
  | .error e => .error e
  | .ok r => .ok (request, r.surplus)

/-- Reads the key of the setting to show. -/
def readGet (texts : List Text) : Except Stop (SettingsRequest × Bool) :=
  match (plainForm Manual.settingsGet [.one]).read texts with
  | .error e => .error e
  | .ok ⟨_, [[key]], surplus⟩ => .ok (.get key, surplus)
  | .ok _ => .error .misuse

/-- Reads the key and the value of the setting to change. -/
def readSet (texts : List Text) : Except Stop (SettingsRequest × Bool) :=
  match (plainForm Manual.settingsSet [.one, .one]).read texts with
  | .error e => .error e
  | .ok ⟨_, [[key], value], surplus⟩ => .ok (.set key value.head?, surplus)
  | .ok _ => .error .misuse

/-- Reads what to do with the settings, and whether something had no place. -/
def readSettings : List Text → Except Stop (SettingsRequest × Bool)
  | [] => .error .misuse
  | word :: rest =>
    if word = "show" then readPlain Manual.settingsList .list rest
    else if word = "path" then readPlain Manual.settingsPath .path rest
    else if word = "get" then readGet rest
    else if word = "set" then readSet rest
    else .error .misuse

/-- Reads the lines to run. -/
def readRun (texts : List Text) : Except Stop (Request × Bool) :=
  match runForm.read texts with
  | .error e => .error e
  | .ok r => .ok (.run r.arguments.flatten (!r.has "--no-echo"), r.surplus)

/-- Reads what to do with the settings; without a word all of them are shown. -/
def readConfig (texts : List Text) : Except Stop (Request × Bool) :=
  match (plainForm Manual.settings [.command]).read texts with
  | .error e => .error e
  | .ok ⟨_, [texts], surplus⟩ =>
    match readSettings texts with
    | .error e => .error e
    | .ok (request, more) => .ok (.settings request, surplus || more)
  | .ok r => .ok (.settings .list, r.surplus)

/-- Reads a command with its arguments, and whether something had no place. -/
def readRequest : List Text → Except Stop (Request × Bool)
  | [] => .error .misuse
  | word :: rest =>
    if word = "shell" then readPlain Manual.shell .shell rest
    else if word = "run" then readRun rest
    else if word = "export" then readPlain Manual.snapshot .snapshot rest
    else if word = "reset" then readPlain Manual.reset .reset rest
    else if word = "config" then readConfig rest
    else .error .misuse

/-- Reads the command of a line, if there is one. -/
def readCommand : List (List Text) → Except Stop (Request × Bool)
  | [texts] => readRequest texts
  | _ => .ok (.shell, false)

/-- Reads a command line. -/
def ofArguments (texts : List Text) : Except Stop Invocation :=
  match wholeForm.read texts with
  | .error e => .error e
  | .ok r =>
    match readCommand r.arguments with
    | .error e => .error e
    | .ok (request, surplus) =>
      if r.surplus || surplus then .error .misuse
      else
        .ok {
          verbose := r.has "--verbose"
          settings := r.value? "--config"
          storage := r.value? "--storage"
          persist := !r.has "--no-persist"
          user := r.value? "--user"
          request := request }

end Invocation

end DosConsole
