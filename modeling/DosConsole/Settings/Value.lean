import DosConsole.Json.Basic

/-!
# Values inside values

Two objects are **merged** by laying one over the other: where both have an object, these are merged
in turn, and elsewhere the upper value wins. A nested value is reached by a list of keys, each of
which leads from an object to one of its fields. What is no object is in the way of keys that are to
lead on (`obstacle`).
-/

namespace DosConsole.Json

/-! ### Merging -/

mutual

/-- Lays a value over the one that stood in its place, if there was one. -/
def overlay (below : Option Json) : Json → Json
  | .object upper =>
    match below with
    | some (.object lower) => .object (mergeFields lower upper)
    | _ => .object upper
  | v => v

/-- Lays fields over those of an object. Its keys keep their order, and new ones follow. -/
def mergeFields (lower : Fields) : List (Text × Json) → Fields
  | [] => lower
  | (key, v) :: rest => mergeFields (lower.put key (overlay (lower.get? key) v)) rest

end

/-! ### Obstacles -/

/-- Why a nested value was not assigned: what a key was used on is no object. -/
inductive AssignError where
  /-- A value of that kind has no fields to assign. -/
  | notAssignable (kind : String)
  /-- A value of that kind has no fields to look for. -/
  | notSearchable (kind : String)
  /-- The key is part of a text. -/
  | insideText
  /-- The items of a list have no keys. -/
  | insideList
  deriving DecidableEq

def AssignError.message : AssignError → Text
  | .notAssignable kind => "'" ++ kind ++ "' object does not support item assignment"
  | .notSearchable kind => "argument of type '" ++ kind ++ "' is not iterable"
  | .insideText => "string indices must be integers, not 'str'"
  | .insideList => "list indices must be integers or slices, not str"

/-- The symbols occur in the text one after the other. -/
def occursIn (part : Text) : Text → Bool
  | [] => part.isEmpty
  | c :: rest => part.isPrefixOf (c :: rest) || occursIn part rest

/-- Why a key does not lead on from a value that is no object, with more keys to come. -/
def obstacle (key : Text) : Json → AssignError
  | .list _ => .insideList
  | .str t => if occursIn key t then .insideText else .notAssignable (Json.str t).kind
  | v => .notSearchable v.kind

end DosConsole.Json
