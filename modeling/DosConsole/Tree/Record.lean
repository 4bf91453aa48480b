import DosConsole.Json.Display
import DosConsole.Tree.Basic

/-!
# Records of nodes

The **record** of a node is the value that a snapshot holds for it: an object with the name, the
type `file` or `dir`, and the content or the records of the children.

No recursion follows the depth of the tree in either direction.

To write the record of a directory, it is begun without children, and the directory is left for
later. The children are entered round by round: of the directories that are left, the last one is
taken, and its children are entered into its record in order. A child that is a directory has its
own record begun, which is entered while it is still empty, and is left for later in its turn.
Records that are being written are known by their numbers, in the order in which they were begun.

Reading keeps the directories that are not finished in a list of **frames**, the innermost first. A
frame works through its entries from the last to the first, which lets it collect what is done by
putting each result in front.

Reading is strict about the records that it keeps. A record that is kept must be valid by itself,
and so must the records of its children, all of which are checked in order before any of them is
entered. A child whose name is that of an earlier sibling is dropped with all below it. The
directories that are kept are entered the last first, which decides the error that is reported when
several records are bad.
-/

namespace DosConsole

/-- Why a value is not the record of a node. -/
inductive RecordError where
  | notAnObject (kind : String)
  | badName (name : Json)
  | unknownType (name : Text) (type : Json)
  | contentNotText (name : Text)
  | childrenNotAList (name : Text)
  | rootNotADirectory

/-- The message of an error, unless the value that it quotes cannot be shown. A type is quoted three
calls further in than a name, where it is looked up, so that there is less room for it. -/
def RecordError.message : RecordError → Except Json.ShowError Text
  | .notAnObject kind => .ok ("Node record must be an object, got " ++ kind)
  | .badName name =>
    (name.quote? Json.showingLimit).map fun quoted => "Node record has invalid name: " ++ quoted
  | .unknownType name type =>
    (type.quote? (Json.showingLimit - 3)).map fun quoted =>
      "Node record " ++ name.literal ++ " has unknown type: " ++ quoted
  | .contentNotText name => .ok ("File " ++ name.literal ++ " content must be a string")
  | .childrenNotAList name => .ok ("Directory " ++ name.literal ++ " children must be a list")
  | .rootNotADirectory => .ok "Snapshot root must be a directory"

namespace Record

/-- The record of a file. -/
def file (name content : Text) : Json :=
  .object [("name", .str name), ("type", .str "file"), ("content", .str content)]

/-- The record of a directory with the records of its children. -/
def dir (name : Text) (children : List Json) : Json :=
  .object [("name", .str name), ("type", .str "dir"), ("children", .list children)]

mutual

/-- The record of a node, by recursion over the tree. -/
def ofNode : Node → Json
  | .file name content => file name content
  | .dir name children => dir name (ofNodes children)

/-- The records of the nodes, in order. -/
def ofNodes : List Node → List Json
  | [] => []
  | n :: rest => ofNode n :: ofNodes rest

end

/-! ### Writing records -/

/-- A child in a record that is being written: the record of a file, or that of a directory by its
number. -/
inductive Slot where
  | file (name content : Text)
  | dir (number : Nat)

/-- The record of a directory that is being written, with the children that were entered so far. -/
structure Draft where
  name : Text
  slots : Array Slot

/-- The records that were begun, by their numbers, and the directories whose children are left for
later, the last one first, each with the number of its record. -/
structure Writing where
  drafts : Array Draft
  pending : List (Nat × List Node)

namespace Writing

/-- The record of a directory is begun, and its children are left for later. -/
def start (name : Text) (children : List Node) : Writing :=
  ⟨#[⟨name, #[]⟩], [(0, children)]⟩

/-- Puts a slot at the end of the record of a number. -/
def put (w : Writing) (number : Nat) (slot : Slot) : Writing :=
  { w with drafts := w.drafts.modify number fun d => { d with slots := d.slots.push slot } }

/-- Enters a child into the record of a number. The record of a directory is begun and entered, and
its own children are left for later. -/
def enter (number : Nat) (w : Writing) : Node → Writing
  | .file name content => w.put number (.file name content)
  | .dir name children =>
    let begun : Writing :=
      ⟨w.drafts.push ⟨name, #[]⟩, (w.drafts.size, children) :: w.pending⟩
    begun.put number (.dir w.drafts.size)

/-- Enters the children of the directory that was left for later last. -/
def round (w : Writing) : Writing :=
  match w.pending with
  | [] => w
  | (number, children) :: rest => children.foldl (enter number) { w with pending := rest }

/-- How many directories there are whose children are still to be entered. -/
def due (w : Writing) : Nat :=
  w.pending.foldr (fun e due => Node.directoryCountAll e.2 + 1 + due) 0

theorem due_enter (number : Nat) (w : Writing) (n : Node) :
    (w.enter number n).due = w.due + n.directoryCount := by
  cases n with
  | file name content => rfl
  | dir name children => simp only [enter, put, due, List.foldr_cons, Node.directoryCount]; omega

theorem due_foldl_enter (number : Nat) (children : List Node) (w : Writing) :
    (children.foldl (enter number) w).due = w.due + Node.directoryCountAll children := by
  induction children generalizing w with
  | nil => rfl
  | cons n rest ih => rw [List.foldl_cons, ih, due_enter, Node.directoryCountAll]; omega

theorem round_eq {w : Writing} {e : Nat × List Node} {rest : List (Nat × List Node)}
    (h : w.pending = e :: rest) :
    w.round = e.2.foldl (enter e.1) { w with pending := rest } := by
  rw [round, h]

/-- A round is over with one directory. -/
theorem due_round {w : Writing} {e : Nat × List Node} {rest : List (Nat × List Node)}
    (h : w.pending = e :: rest) : w.round.due + 1 = w.due := by
  rw [round_eq h, due_foldl_enter]
  simp only [due, h, List.foldr_cons]
  omega

/-- Enters children round by round until none are left for later. -/
def run (w : Writing) : Array Draft :=
  match _h : w.pending with
  | [] => w.drafts
  | _ :: _ => w.round.run
termination_by w.due
decreasing_by
  have := due_round _h
  omega

end Writing

/-- The record in a slot. `later` holds the records of the last drafts among `count`, the last
first. -/
def Slot.record (count : Nat) (later : Array Json) : Slot → Json
  | .file name content => Record.file name content
  | .dir number => later.getD (count - 1 - number) .null

/-- Puts the record of a draft after those of the drafts that were begun later. -/
def Draft.addRecord (count : Nat) (d : Draft) (later : Array Json) : Array Json :=
  later.push (dir d.name (d.slots.toList.map (Slot.record count later)))

/-- The records of drafts, the last first. A draft is entered in earlier ones only, so that each
record is made of those that are there. -/
def Draft.records (drafts : Array Draft) : Array Json :=
  drafts.foldr (Draft.addRecord drafts.size) #[]

/-- The record of a node. -/
def encode : Node → Json
  | .file name content => file name content
  | .dir name children =>
    let drafts := (Writing.start name children).run
    (Draft.records drafts).getD (drafts.size - 1) .null

/-! ### Reading records -/

/-- A record that is valid by itself: a file, or a directory with the records of its children, which
nobody has looked at. -/
inductive Entry where
  | file (name content : Text)
  | dir (name : Text) (children : List Json)

def Entry.name : Entry → Text
  | .file name _ => name
  | .dir name _ => name

/-- The field of a record; null if it has none. -/
def fieldOf (fields : Json.Fields) (key : Text) : Json :=
  (fields.get? key).getD .null

/-- Checks the record of a file with the given name. -/
def checkFile (name : Text) (fields : Json.Fields) : Except RecordError Entry :=
  match fieldOf fields "content" with
  | .null => .ok (.file name [])
  | .str content => .ok (.file name content)
  | _ => .error (.contentNotText name)

/-- Checks the record of a directory with the given name. -/
def checkDir (name : Text) (fields : Json.Fields) : Except RecordError Entry :=
  match fieldOf fields "children" with
  | .null => .ok (.dir name [])
  | .list children => .ok (.dir name children)
  | _ => .error (.childrenNotAList name)

/-- Checks the record of a node with the given name, as its type says. -/
def checkNamed (name : Text) (fields : Json.Fields) : Except RecordError Entry :=
  match fieldOf fields "type" with
  | .str type =>
    if type = "file" then checkFile name fields
    else if type = "dir" then checkDir name fields
    else .error (.unknownType name (.str type))
  | type => .error (.unknownType name type)

/-- Checks one record by itself. -/
def check : Json → Except RecordError Entry
  | .object fields =>
    match fieldOf fields "name" with
    | .str name => if name = [] then .error (.badName (.str name)) else checkNamed name fields
    | name => .error (.badName name)
  | v => .error (.notAnObject v.kind)

/-- Checks the records of siblings in order and keeps the first of each name. The siblings kept are
given and returned the last first. -/
def sift [Folding] (kept : List Entry) : List Json → Except RecordError (List Entry)
  | [] => .ok kept
  | v :: rest =>
    match check v with
    | .error e => .error e
    | .ok entry =>
      if kept.any fun k => sameName k.name entry.name then sift kept rest
      else sift (entry :: kept) rest

/-- A directory whose children are not all read: the entries that are not nodes yet, the last first,
and the nodes after them, in order. -/
structure Unread where
  name : Text
  pending : List Entry
  done : List Node

/-- How much work an entry stands for. -/
noncomputable def Entry.weight : Entry → Nat
  | .file _ _ => 1
  | .dir _ children => sizeOf children + 2

/-- How much work entries stand for. -/
noncomputable def entriesWeight (es : List Entry) : Nat :=
  es.foldr (·.weight + ·) 0

/-- How much work an unread directory stands for. -/
noncomputable def Unread.weight (f : Unread) : Nat :=
  entriesWeight f.pending + 1

/-- How much work unread directories stand for. -/
noncomputable def unreadWeight (fs : List Unread) : Nat :=
  fs.foldr (·.weight + ·) 0

private theorem sizeOf_pos (fields : Json.Fields) : 0 < sizeOf fields := by
  cases fields with
  | nil => simp only [List.nil.sizeOf_spec]; exact Nat.one_pos
  | cons f rest => simp only [List.cons.sizeOf_spec]; omega

theorem sizeOf_lt_of_get? {fields : Json.Fields} {key : Text} {v : Json}
    (h : fields.get? key = some v) : sizeOf v + 1 < sizeOf fields := by
  induction fields with
  | nil => simp [Json.Fields.get?] at h
  | cons f rest ih =>
    obtain ⟨k, w⟩ := f
    simp only [Json.Fields.get?, List.lookup_cons] at h ih
    simp only [List.cons.sizeOf_spec, Prod.mk.sizeOf_spec]
    split at h
    · simp only [Option.some.injEq] at h
      subst h
      have := sizeOf_pos rest
      omega
    · have := ih h; omega

/-- A field that is not null takes up room among the fields. -/
theorem sizeOf_lt_of_fieldOf {fields : Json.Fields} {key : Text} {v : Json}
    (h : fieldOf fields key = v) (hv : v ≠ .null) : sizeOf v + 1 < sizeOf fields := by
  cases hf : fields.get? key with
  | none => exact absurd (by simpa [fieldOf, hf] using h.symm) hv
  | some w =>
    have hw : w = v := by simpa [fieldOf, hf] using h
    exact hw ▸ sizeOf_lt_of_get? hf

theorem weight_le_of_checkFile {name : Text} {fields : Json.Fields} {e : Entry}
    (h : checkFile name fields = .ok e) : e.weight ≤ 1 := by
  unfold checkFile at h
  split at h
  · rw [← Except.ok.inj h]; exact Nat.le_refl _
  · rw [← Except.ok.inj h]; exact Nat.le_refl _
  · simp at h

theorem weight_le_of_checkDir {name : Text} {fields : Json.Fields} {e : Entry}
    (hf : 3 ≤ sizeOf fields) (h : checkDir name fields = .ok e) : e.weight ≤ sizeOf fields := by
  unfold checkDir at h
  split at h
  · rw [← Except.ok.inj h]; simp only [Entry.weight, List.nil.sizeOf_spec]; omega
  · rename_i children hc
    have := sizeOf_lt_of_fieldOf hc nofun
    simp only [Json.list.sizeOf_spec] at this
    rw [← Except.ok.inj h]; simp only [Entry.weight]; omega
  · simp at h

theorem weight_le_of_checkNamed {name : Text} {fields : Json.Fields} {e : Entry}
    (hf : 3 ≤ sizeOf fields) (h : checkNamed name fields = .ok e) : e.weight ≤ sizeOf fields := by
  unfold checkNamed at h
  split at h
  · split at h
    · exact Nat.le_trans (weight_le_of_checkFile h) (by omega)
    · split at h
      · exact weight_le_of_checkDir hf h
      · simp at h
  · simp at h

/-- An entry stands for no more work than its record. -/
theorem weight_le_of_check {v : Json} {e : Entry} (h : check v = .ok e) : e.weight ≤ sizeOf v := by
  cases v with
  | object fields =>
    simp only [check] at h
    split at h
    · rename_i name hn
      have := sizeOf_lt_of_fieldOf hn nofun
      simp only [Json.str.sizeOf_spec] at this
      split at h
      · simp at h
      · have := weight_le_of_checkNamed (by omega) h
        simp only [Json.object.sizeOf_spec]; omega
    · simp at h
  | _ => simp [check] at h

/-- The entries that are kept stand for no more work than the records. -/
theorem entriesWeight_le_of_sift [Folding] {records : List Json} {kept es : List Entry}
    (h : sift kept records = .ok es) : entriesWeight es ≤ entriesWeight kept + sizeOf records := by
  induction records generalizing kept with
  | nil => simp [sift] at h; subst h; omega
  | cons v rest ih =>
    simp only [sift] at h
    simp only [List.cons.sizeOf_spec]
    cases hv : check v with
    | error e => simp [hv] at h
    | ok entry =>
      have hw := weight_le_of_check hv
      simp only [hv] at h
      split at h
      · have := ih h; omega
      · have := ih h
        simp only [entriesWeight, List.foldr_cons] at this ⊢; omega

/-- Reads the rest of the innermost directory and then of those around it. -/
def readOn [Folding] (f : Unread) (around : List Unread) : Except RecordError Node :=
  match f, around with
  | ⟨name, [], done⟩, [] => .ok (.dir name done)
  | ⟨name, [], done⟩, g :: around => readOn { g with done := .dir name done :: g.done } around
  | ⟨name, .file child content :: rest, done⟩, around =>
    readOn ⟨name, rest, .file child content :: done⟩ around
  | ⟨name, .dir child children :: rest, done⟩, around =>
    match _h : sift [] children with
    | .error e => .error e
    | .ok entries => readOn ⟨child, entries, []⟩ (⟨name, rest, done⟩ :: around)
termination_by f.weight + unreadWeight around
decreasing_by
  · simp only [Unread.weight, unreadWeight, List.foldr_cons, entriesWeight, List.foldr_nil]
    omega
  · simp only [Unread.weight, unreadWeight, List.foldr_cons, entriesWeight, Entry.weight]
    omega
  · have := entriesWeight_le_of_sift _h
    simp only [Unread.weight, unreadWeight, List.foldr_cons, entriesWeight, Entry.weight,
      List.foldr_nil] at this ⊢
    omega

/-- The node that a value is the record of. -/
def decode [Folding] (v : Json) : Except RecordError Node :=
  match check v with
  | .error e => .error e
  | .ok (.file name content) => .ok (.file name content)
  | .ok (.dir name children) =>
    match sift [] children with
    | .error e => .error e
    | .ok entries => readOn ⟨name, entries, []⟩ []

end Record

namespace Tree

/-- The record of the tree. -/
def snapshot (t : Tree) : Json :=
  Record.encode t.root

/-- The tree that a record describes, with no change counted. The root may have any name in the
record. -/
def ofSnapshot [Folding] (v : Json) : Except RecordError Tree :=
  match Record.decode v with
  | .error e => .error e
  | .ok (.file _ _) => .error .rootNotADirectory
  | .ok (.dir _ children) => .ok ⟨children, 0⟩

end Tree

end DosConsole
