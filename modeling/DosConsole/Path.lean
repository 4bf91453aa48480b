import DosConsole.Text.Symbol

/-!
# Paths in the tree

A path is a text of segments between slashes. `normalize` turns a path and the directory it starts
from into an absolute path without empty segments, `.` and `..`: a `..` takes back the segment
before it, and at the root it has no effect, so that normalization never fails. The other
operations go between a path and its list of segments.
-/

namespace DosConsole.Path

/-- The pieces of a text between slashes, empty ones included. -/
def pieces (path : Text) : List Text :=
  path.splitOn (.char '/')

/-- The segments of a path: its pieces without the empty ones. -/
def segments (path : Text) : List Text :=
  (pieces path).filter (· ≠ [])

/-- The absolute path with the given segments. -/
def text (segments : List Text) : Text :=
  '/' :: List.intercalate ['/'] segments

/-- Follows one piece of a path. The segments so far are given last first. -/
def follow (trail : List Text) (piece : Text) : List Text :=
  if piece = ".." then trail.tail
  else if piece = [] ∨ piece = "." then trail
  else piece :: trail

/-- The segments that a sequence of pieces leads to from the root. -/
def reduce (pieces : List Text) : List Text :=
  (pieces.foldl follow []).reverse

/-- A path is **absolute** when it starts with a slash. -/
def isAbsolute (path : Text) : Bool :=
  path.head? == some (.char '/')

/-- The segments that a path leads to from the directory `cwd`. -/
def target (path cwd : Text) : List Text :=
  reduce (if isAbsolute path then pieces path else pieces cwd ++ pieces path)

/-- The **normalized** path that `path` denotes from the directory `cwd`. -/
def normalize (path cwd : Text) : Text :=
  text (target path cwd)

/-- The path of the enclosing directory and the last segment. The root encloses itself and has no
last segment. -/
def parentAndName (path : Text) : Text × Option Text :=
  let segs := segments path
  (text segs.dropLast, segs.getLast?)

/-- A **segment** of a normalized path: not empty, without a slash, and neither `.` nor `..`. -/
def IsSegment (s : Text) : Prop :=
  s ≠ [] ∧ .char '/' ∉ s ∧ s ≠ "." ∧ s ≠ ".."

/-- A path is **normalized** when it is the text of segments. -/
def IsNormalized (path : Text) : Prop :=
  ∃ segs : List Text, (∀ s ∈ segs, IsSegment s) ∧ path = text segs

end DosConsole.Path
