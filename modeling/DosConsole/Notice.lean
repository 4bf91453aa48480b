import DosConsole.Disk.Location

/-!
# Notices

A notice tells the person who runs the program of trouble that the program got over by itself. It
never stops anything. A **warning** says that something was left out, and an **error** that
something was lost or went wrong inside a command.
-/

namespace DosConsole

inductive Notice where
  /-- The snapshot was not read, and the first entries are used instead. -/
  | snapshotUnreadable (location : Location)
  /-- A snapshot was not written. -/
  | snapshotNotWritten (location : Location)
  /-- No snapshot was taken of the tree. -/
  | treeNotTaken (cause : Text)
  /-- The settings were not read, and the defaults are used instead. -/
  | settingsUnreadable (location : Location)
  /-- The default settings were not written. -/
  | settingsNotWritten (location : Location)
  /-- No use can be made of the value of a setting, and the default is used instead. -/
  | settingInvalid (key value default : Text)
  /-- The handler of a command faulted. -/
  | commandFaulted (cause : Text)
  deriving DecidableEq

namespace Notice

/-- The notice is an error, and not only a warning. -/
def isError : Notice → Bool
  | .snapshotNotWritten _ | .treeNotTaken _ | .commandFaulted _ => true
  | _ => false

/-- The line that tells of a notice. -/
def text : Notice → Text
  | .snapshotUnreadable l => "cannot read the snapshot " ++ l.text ++ ", using the first entries"
  | .snapshotNotWritten l => "cannot write the snapshot " ++ l.text
  | .treeNotTaken cause => "cannot take a snapshot: " ++ cause
  | .settingsUnreadable l => "cannot read the settings " ++ l.text ++ ", using the defaults"
  | .settingsNotWritten l => "cannot write the settings " ++ l.text
  | .settingInvalid key value default =>
    "Invalid value for " ++ key ++ ": " ++ value ++ ", using " ++ default
  | .commandFaulted cause => "a command faulted: " ++ cause

end Notice

end DosConsole
