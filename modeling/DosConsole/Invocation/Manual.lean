import DosConsole.Invocation.Help

/-!
# The manual

The pages of help of the program, one for the whole line and one for every command.
-/

namespace DosConsole.Invocation.Manual

/-- A part that stands for itself. -/
def part (name meaning : Text) : Part :=
  ⟨name, meaning, false⟩

/-- A word that may stand for the part above it. -/
def choice (name meaning : Text) : Part :=
  ⟨name, meaning, true⟩

/-- The section of the arguments. -/
def arguments (parts : List Part) : Section :=
  ⟨"positional arguments", parts⟩

/-- The section of the switches, with the one for help at its head. -/
def options (parts : List Part) : Section :=
  ⟨"options", part "-h, --help" "show this help message and exit" :: parts⟩

/-- The page of a command that has no arguments and no switches of its own. -/
def plain (command : Text) : Page where
  command := command
  usage := ["[-h]"]
  purpose := []
  sections := [options []]

/-- The page of the whole line. -/
def whole : Page where
  command := "dosshell"
  usage := [
    "[-h] [--verbose] [--config CONFIG] [--storage STORAGE]",
    "[--no-persist] [--user USER]",
    "\x7bshell,run,export,reset,config\x7d ..."]
  purpose := "dosshell - MS-DOS style shell over a virtual filesystem"
  sections := [
    arguments [
      part "\x7bshell,run,export,reset,config\x7d" "Commands",
      choice "shell" "Start the interactive shell (default)",
      choice "run" "Run command lines and print their output",
      choice "export" "Print the saved filesystem as JSON",
      choice "reset" "Reset the saved filesystem to its starting content",
      choice "config" "Show or change configuration"],
    options [
      part "--verbose, -v" "Verbose output",
      part "--config CONFIG" "Path to config file (default: ~/.dosshell/config.json)",
      part "--storage STORAGE" "Path to the filesystem snapshot",
      part "--no-persist" "Do not save filesystem changes",
      part "--user USER" "User name shown in the prompt"]]

def shell : Page :=
  plain "dosshell shell"

def run : Page where
  command := "dosshell run"
  usage := ["[-h] [--no-echo] lines [lines ...]"]
  purpose := []
  sections := [
    arguments [part "lines" "Command lines, e.g. \"dir /GAMES\""],
    options [part "--no-echo" "Do not print the prompt line of each command"]]

def snapshot : Page :=
  plain "dosshell export"

def reset : Page :=
  plain "dosshell reset"

def settings : Page where
  command := "dosshell config"
  usage := ["[-h] \x7bshow,path,get,set\x7d ..."]
  purpose := []
  sections := [
    arguments [
      part "\x7bshow,path,get,set\x7d" "Config commands",
      choice "show" "Print the whole configuration (default)",
      choice "path" "Print the config file path",
      choice "get" "Print one value",
      choice "set" "Set and save one value"],
    options []]

def settingsList : Page :=
  plain "dosshell config show"

def settingsPath : Page :=
  plain "dosshell config path"

def settingsGet : Page where
  command := "dosshell config get"
  usage := ["[-h] key"]
  purpose := []
  sections := [
    arguments [part "key" "Dot-notation key, e.g. shell.username"],
    options []]

def settingsSet : Page where
  command := "dosshell config set"
  usage := ["[-h] key value"]
  purpose := []
  sections := [
    arguments [
      part "key" "Dot-notation key, e.g. filesystem.strict_rm",
      part "value" "Value (JSON for numbers and booleans)"],
    options []]

end DosConsole.Invocation.Manual
