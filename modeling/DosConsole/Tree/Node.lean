import DosConsole.Text.Case

/-!
# Nodes of the tree

A node is a file with a content or a directory with an ordered list of children. Nothing in the type
keeps two children of one directory apart, since a tree that is built by hand may hold clashing
names; a look-up finds the first child that has the name.

Names are compared by their **folded** forms. The folding is upper case, but nothing about trees
depends on that, so that definitions and lemmas take whatever `Folding` there is.
-/

namespace DosConsole

/-- A file or a directory. -/
inductive Node where
  | file (name content : Text)
  | dir (name : Text) (children : List Node)
  deriving Inhabited

/-- How names are folded before they are compared. -/
class Folding where
  fold : Text → Text

/-- Names are folded to upper case. -/
instance : Folding := ⟨Text.upper⟩

/-- Two names are **the same** when their folded forms are equal. -/
def sameName [Folding] (a b : Text) : Bool :=
  Folding.fold a == Folding.fold b

namespace Node

def name : Node → Text
  | .file name _ => name
  | .dir name _ => name

/-- The children of a node; a file has none. -/
def children : Node → List Node
  | .file _ _ => []
  | .dir _ children => children

def isDir : Node → Bool
  | .file _ _ => false
  | .dir _ _ => true

section Lookup

variable [Folding]

/-- The position of the first of the nodes that has the name. -/
def childIndex? (nodes : List Node) (name : Text) : Option Nat :=
  nodes.findIdx? fun n => sameName n.name name

/-- The first of the nodes that has the name. -/
def child? (nodes : List Node) (name : Text) : Option Node :=
  (childIndex? nodes name).bind (nodes[·]?)

/-- Some node has the name. -/
def hasChild (nodes : List Node) (name : Text) : Bool :=
  nodes.any fun n => sameName n.name name

/-- The node at the end of a path of names. -/
def walk? (n : Node) : List Text → Option Node
  | [] => some n
  | s :: rest =>
    match n with
    | .file _ _ => none
    | .dir _ children => (child? children s).bind (·.walk? rest)

/-- Changes the first of the nodes that has the name. -/
def alterChild (name : Text) (change : Node → Node) : List Node → List Node
  | [] => []
  | n :: rest =>
    if sameName n.name name then change n :: rest else n :: alterChild name change rest

/-- Changes the node at the end of a path of names; a path that leads nowhere changes nothing. -/
def alter (change : Node → Node) : List Text → Node → Node
  | [], n => change n
  | s :: rest, .dir name children => .dir name (alterChild s (alter change rest) children)
  | _ :: _, .file name content => .file name content

theorem child?_eq_find? (nodes : List Node) (name : Text) :
    child? nodes name = nodes.find? fun n => sameName n.name name :=
  List.find?_eq_bind_findIdx?_getElem?.symm

end Lookup

/-- Changes the children of a directory. -/
def mapChildren (change : List Node → List Node) : Node → Node
  | .file name content => .file name content
  | .dir name children => .dir name (change children)

mutual

/-- How many directories there are in the subtree. -/
def directoryCount : Node → Nat
  | .file _ _ => 0
  | .dir _ children => directoryCountAll children + 1

/-- How many directories there are in the subtrees. -/
def directoryCountAll : List Node → Nat
  | [] => 0
  | n :: rest => directoryCount n + directoryCountAll rest

end

end Node

end DosConsole
