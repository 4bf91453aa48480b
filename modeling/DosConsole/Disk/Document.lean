import DosConsole.Disk.Basic
import DosConsole.Json.Reader
import DosConsole.Json.Writer

/-!
# Documents

A document is a file that holds one value. It is written in one of two ways. `writeDocument` writes
over the old file, and a value that cannot be written to its end leaves a file that ends where the
writing was stopped. `replaceDocument` writes a new file beside the old one and moves it over the
old one only when it is complete, so that the old file is there unharmed until the new one is; when
anything fails the new file is removed.
-/

namespace DosConsole

/-- Why a document was not read or written. -/
inductive DocumentError where
  /-- The disk refused. -/
  | disk (cause : DiskError)
  /-- The file holds no value. -/
  | unreadable (cause : Json.ReadError)
  /-- The value cannot be written to its end. -/
  | unwritable (cause : Json.WriteError)
  deriving DecidableEq

namespace Disk

/-- The value in the file at a location. -/
def readDocument (d : Disk) (l : Location) : Except DocumentError Json :=
  match d.read l with
  | .error e => .error (.disk e)
  | .ok bytes => (Json.readBytes bytes).mapError .unreadable

/-- Writes a file that holds a text. -/
def writeText (d : Disk) (l : Location) (text : String) : Except DocumentError Disk :=
  (d.write l text.toUTF8).mapError .disk

/-- Fills the file at a location with what was written of a value. -/
def fill (d : Disk) (l : Location) (w : Json.Written) : Disk × Except DocumentError Unit :=
  match d.writeText l w.text, w.trouble with
  | .error e, _ => (d, .error e)
  | .ok d, none => (d, .ok ())
  | .ok d, some cause => (d, .error (.unwritable cause))

/-- Writes over the file at a location, which is emptied first. The directories around it are made
before. -/
def writeOver (d : Disk) (l : Location) (w : Json.Written) : Disk × Except DocumentError Unit :=
  match d.ensureDirectories l.parent with
  | (d, .error e) => (d, .error (.disk e))
  | (d, .ok ()) =>
    match d.writeText l "" with
    | .error e => (d, .error e)
    | .ok opened => opened.fill l w

/-- Writes a value over the file at a location. -/
def writeDocument (d : Disk) (l : Location) (v : Json) : Disk × Except DocumentError Unit :=
  d.writeOver l v.written

/-- Fills the temporary file that is there and moves it to its target. -/
def complete (d : Disk) (temporary target : Location) (v : Json) : Except DocumentError Disk :=
  match d.fill temporary v.written with
  | (_, .error e) => .error e
  | (d, .ok ()) => (d.replace temporary target).mapError .disk

/-- Puts a value in the place of the file at a location. The directories around it are made
first. -/
def replaceDocument (d : Disk) (l : Location) (v : Json) : Disk × Except DocumentError Unit :=
  match d.ensureDirectories l.parent with
  | (d, .error e) => (d, .error (.disk e))
  | (d, .ok ()) =>
    match d.freshBeside l with
    | .error e => (d, .error (.disk e))
    | .ok temporary =>
      match d.writeText temporary "" with
      | .error e => (d, .error e)
      | .ok opened =>
        match opened.complete temporary l v with
        | .error e => (opened.remove temporary, .error e)
        | .ok d => (d, .ok ())

end Disk

end DosConsole
