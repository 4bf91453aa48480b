import DosConsole.Proofs.Record.Language

/-!
# How records are read

Reading works on a list of unread directories and checks records as it comes to them. It comes to
them in the order of `visited`, so that the first one in this order that is not valid by itself
decides the error (`decode_eq`). If there is none, the nodes of the entries that are still to be
read are put into the directories that wait for them (`readOn_eq`), which makes the tree of the kept
records.
-/

namespace DosConsole.Record

/-! ### One record -/

/-- The check of a record that is valid by itself gives its entry. -/
theorem check_of_isShallow {v : Json} (h : IsShallow v) : check v = .ok (entryOf v) := by
  obtain ⟨fields, name, rfl, hname, hne, hkind⟩ := h
  have hnameOf : nameOf (.object fields) = name := by rw [nameOf, textAt, field?, hname]
  have hname' : fieldOf fields "name" = .str name := by rw [fieldOf, hname]; rfl
  rw [check, hname', entryOf, hnameOf]
  simp only [if_neg hne]
  rcases hkind with ⟨htype, hcontent⟩ | ⟨htype, hchildren⟩
  · have hdir : isDirectory (.object fields) = false := by
      rw [isDirectory, textAt, field?, htype]; decide
    have htype' : fieldOf fields "type" = .str "file" := by rw [fieldOf, htype]; rfl
    rw [checkNamed, htype', hdir]
    simp only [if_pos, checkFile, fieldOf, textAt, field?]
    rcases hcontent with hcontent | hcontent | ⟨content, hcontent⟩
    · rw [hcontent]; rfl
    · rw [hcontent]; rfl
    · rw [hcontent]; rfl
  · have hdir : isDirectory (.object fields) = true := by
      rw [isDirectory, textAt, field?, htype]; decide
    have htype' : fieldOf fields "type" = .str "dir" := by rw [fieldOf, htype]; rfl
    rw [checkNamed, htype', hdir]
    have hfile : ("dir" : Text) ≠ "file" := by decide
    simp only [if_neg hfile, if_pos, checkDir, fieldOf, childrenOf, hdir, field?]
    rcases hchildren with hchildren | hchildren | ⟨children, hchildren⟩
    · rw [hchildren]; rfl
    · rw [hchildren]; rfl
    · rw [hchildren]; rfl

theorem get?_of_fieldOf {fields : Json.Fields} {key : Text} {v : Json}
    (h : fieldOf fields key = v) :
    fields.get? key = some v ∨ (fields.get? key = none ∧ v = .null) := by
  rw [fieldOf] at h
  cases hget : fields.get? key with
  | none => rw [hget] at h; exact .inr ⟨rfl, h.symm⟩
  | some w => rw [hget] at h; exact .inl (congrArg some h)

theorem get?_of_fieldOf_str {fields : Json.Fields} {key t : Text}
    (h : fieldOf fields key = .str t) : fields.get? key = some (.str t) :=
  (get?_of_fieldOf h).resolve_right fun hnone => absurd hnone.2 (by simp)

theorem content_of_checkFile {name : Text} {fields : Json.Fields} {e : Entry}
    (h : checkFile name fields = .ok e) :
    fields.get? "content" = none ∨ fields.get? "content" = some .null ∨
      ∃ content, fields.get? "content" = some (.str content) := by
  rw [checkFile] at h
  split at h
  · rename_i hcontent
    rcases get?_of_fieldOf hcontent with hget | ⟨hget, -⟩
    · exact .inr (.inl hget)
    · exact .inl hget
  · rename_i content hcontent
    exact .inr (.inr ⟨content, get?_of_fieldOf_str hcontent⟩)
  · exact absurd h (by simp)

theorem children_of_checkDir {name : Text} {fields : Json.Fields} {e : Entry}
    (h : checkDir name fields = .ok e) :
    fields.get? "children" = none ∨ fields.get? "children" = some .null ∨
      ∃ children, fields.get? "children" = some (.list children) := by
  rw [checkDir] at h
  split at h
  · rename_i hchildren
    rcases get?_of_fieldOf hchildren with hget | ⟨hget, -⟩
    · exact .inr (.inl hget)
    · exact .inl hget
  · rename_i children hchildren
    rcases get?_of_fieldOf hchildren with hget | ⟨-, hnull⟩
    · exact .inr (.inr ⟨children, hget⟩)
    · exact absurd hnull (by simp)
  · exact absurd h (by simp)

theorem error_of_checkFile {name : Text} {fields : Json.Fields} {e : RecordError}
    (h : checkFile name fields = .error e) : e = .contentNotText name := by
  rw [checkFile] at h
  split at h
  · exact absurd h (by simp)
  · exact absurd h (by simp)
  · exact (Except.error.inj h).symm

theorem error_of_checkDir {name : Text} {fields : Json.Fields} {e : RecordError}
    (h : checkDir name fields = .error e) : e = .childrenNotAList name := by
  rw [checkDir] at h
  split at h
  · exact absurd h (by simp)
  · exact absurd h (by simp)
  · exact (Except.error.inj h).symm

/-- Only records that are valid by themselves pass the check. -/
theorem isShallow_of_check {v : Json} {e : Entry} (h : check v = .ok e) : IsShallow v := by
  cases v with
  | object fields =>
    rw [check] at h
    split at h
    · rename_i name hname
      split at h
      · exact absurd h (by simp)
      · rename_i hne
        refine ⟨fields, name, rfl, get?_of_fieldOf_str hname, hne, ?_⟩
        rw [checkNamed] at h
        split at h
        · rename_i type htype
          have hget := get?_of_fieldOf_str htype
          split at h
          · rename_i hfile
            exact .inl ⟨hfile ▸ hget, content_of_checkFile h⟩
          · split at h
            · rename_i hdir
              exact .inr ⟨hdir ▸ hget, children_of_checkDir h⟩
            · exact absurd h (by simp)
        · exact absurd h (by simp)
    · exact absurd h (by simp)
  | _ => exact absurd h (by simp [check])

/-- The error of a record that is not valid by itself. -/
def fault? (v : Json) : Option RecordError :=
  match check v with
  | .error e => some e
  | .ok _ => none

theorem fault?_eq_some_iff {v : Json} {e : RecordError} :
    fault? v = some e ↔ check v = .error e := by
  rw [fault?]
  cases check v with
  | error cause => simp
  | ok entry => simp

theorem fault?_eq_none_iff {v : Json} : fault? v = none ↔ IsShallow v := by
  rw [fault?]
  cases hcheck : check v with
  | error cause =>
    refine iff_of_false (by simp) fun hshallow => ?_
    rw [check_of_isShallow hshallow] at hcheck
    exact absurd hcheck (by simp)
  | ok entry => exact iff_of_true rfl (isShallow_of_check hcheck)

/-- What comes of reading records when their result is known: the first error among them, or the
result if they are all valid by themselves. -/
def readAs {α : Type} (records : List Json) (result : α) : Except RecordError α :=
  (records.findSome? fault?).elim (.ok result) .error

theorem readAs_cons {α : Type} (v : Json) (records : List Json) (result : α) :
    readAs (v :: records) result = (fault? v).elim (readAs records result) .error := by
  rw [readAs, List.findSome?_cons]
  cases fault? v with
  | none => rfl
  | some e => rfl

/-- Records that are read before others matter first. -/
theorem readAs_append {α : Type} (records more : List Json) (result : α) :
    readAs (records ++ more) result =
      (records.findSome? fault?).elim (readAs more result) .error := by
  rw [readAs, List.findSome?_append]
  cases records.findSome? fault? with
  | none => rfl
  | some e => rfl

/-- The records of the children of an entry. -/
def Entry.children : Entry → List Json
  | .file _ _ => []
  | .dir _ children => children

theorem children_entryOf (v : Json) : (entryOf v).children = childrenOf v := by
  rw [entryOf]
  split
  · rfl
  · rename_i hfile
    rw [childrenOf_of_file (Bool.eq_false_iff.mpr hfile)]
    rfl

variable [Folding]

/-! ### Siblings -/

/-- Siblings are all checked, and the kept ones are collected the last first. -/
theorem sift_eq (es : List Entry) (records : List Json) :
    sift es records =
      readAs records (((keptBeside (es.map Entry.name) records).map entryOf).reverse ++ es) := by
  induction records generalizing es with
  | nil => rfl
  | cons v rest ih =>
    rw [sift, readAs_cons, fault?]
    cases hcheck : check v with
    | error e => rfl
    | ok entry =>
      obtain rfl : entryOf v = entry :=
        Except.ok.inj ((check_of_isShallow (isShallow_of_check hcheck)).symm.trans hcheck)
      have hany : (es.any fun k => sameName k.name (entryOf v).name) =
          (es.map Entry.name).any (sameName · (nameOf v)) := by
        rw [List.any_map, name_entryOf]
        rfl
      simp only [hany, Option.elim_none, keptBeside]
      split
      · exact ih es
      · rw [ih, List.map_cons, name_entryOf, List.map_cons, List.reverse_cons, List.append_assoc]
        rfl

/-- Siblings are refused for the first error among them. -/
theorem fault_of_sift {records : List Json} {e : RecordError} (h : sift [] records = .error e) :
    records.findSome? fault? = some e := by
  rw [sift_eq, readAs] at h
  cases hfault : records.findSome? fault? with
  | none => rw [hfault] at h; exact absurd h (by simp)
  | some cause => rw [hfault] at h; exact congrArg some (Except.error.inj h)

/-- Siblings that are not refused have no error among them and leave the entries of the kept
ones. -/
theorem entries_of_sift {records : List Json} {entries : List Entry}
    (h : sift [] records = .ok entries) :
    records.findSome? fault? = none ∧ entries = ((kept records).map entryOf).reverse := by
  rw [sift_eq, readAs, List.append_nil] at h
  cases hfault : records.findSome? fault? with
  | none => rw [hfault] at h; exact ⟨rfl, (Except.ok.inj h).symm⟩
  | some cause => rw [hfault] at h; exact absurd h (by simp)

/-! ### Unread directories -/

/-- The node of an entry, with the trees of the kept records below it. -/
def Entry.node : Entry → Node
  | .file name content => .file name content
  | .dir name children => .dir name ((kept children).map nodeOf)

theorem node_entryOf (v : Json) : (entryOf v).node = nodeOf v := by
  rw [entryOf, nodeOf_eq]
  split
  · rfl
  · rfl

namespace Unread

/-- The records that are still to be checked in an unread directory. -/
def visits (f : Unread) : List Json :=
  f.pending.flatMap fun e => visitedBelow e.children

/-- The directory with all its nodes. -/
def node (f : Unread) : Node :=
  .dir f.name ((f.pending.map Entry.node).reverse ++ f.done)

/-- Puts a node into the innermost of some unread directories, and so on outwards. -/
def plug (n : Node) : List Unread → Node
  | [] => n
  | f :: around => plug { f with done := n :: f.done }.node around

end Unread

namespace Unread

/-- A file is put among the nodes that are done. -/
theorem node_file (name child content : Text) (rest : List Entry) (done : List Node) :
    node ⟨name, .file child content :: rest, done⟩ =
      node ⟨name, rest, .file child content :: done⟩ := by
  rw [node, List.map_cons, List.reverse_cons, List.append_assoc]
  rfl

theorem visits_file (name child content : Text) (rest : List Entry) (done : List Node) :
    visits ⟨name, .file child content :: rest, done⟩ =
      visits ⟨name, rest, .file child content :: done⟩ := by
  rw [visits, List.flatMap_cons, Entry.children, visitedBelow_nil]
  rfl

/-- A directory all of whose kept entries are to be read becomes the tree of the kept records. -/
theorem node_start (name : Text) (children : List Json) :
    node ⟨name, ((kept children).map entryOf).reverse, []⟩ = Entry.node (.dir name children) := by
  have hnodes : ((kept children).map entryOf).map Entry.node = (kept children).map nodeOf := by
    rw [List.map_map]
    exact List.map_congr_left fun c _ => node_entryOf c
  rw [node, List.map_reverse, List.reverse_reverse, List.append_nil, hnodes]
  rfl

/-- To read a directory, first its records are checked, and then the kept ones are read. -/
theorem visitedBelow_eq_visits (name : Text) (children : List Json) :
    visitedBelow children =
      children ++ visits ⟨name, ((kept children).map entryOf).reverse, []⟩ := by
  have hbelow : ((kept children).map entryOf).reverse.flatMap (fun e => visitedBelow e.children) =
      (kept children).reverse.flatMap fun c => visitedBelow (childrenOf c) := by
    rw [← List.map_reverse, List.flatMap_map]
    simp only [children_entryOf]
  rw [visitedBelow_eq, visits, hbelow]

theorem visits_dir (name child : Text) (children : List Json) (rest : List Entry)
    (done : List Node) :
    visits ⟨name, .dir child children :: rest, done⟩ =
      children ++ (visits ⟨child, ((kept children).map entryOf).reverse, []⟩ ++
        visits ⟨name, rest, done⟩) := by
  rw [visits, List.flatMap_cons, Entry.children, visitedBelow_eq_visits child, List.append_assoc]
  rfl

end Unread

/-- **The invariant of reading.** Whatever directories are unread, what comes of them is the first
error among the records that are still to be checked, in their order, or else the outermost
directory with all nodes in their places. -/
theorem readOn_eq (f : Unread) (around : List Unread) :
    readOn f around =
      readAs ((f :: around).flatMap Unread.visits) (Unread.plug f.node around) := by
  fun_induction readOn f around with
  | case1 name done => rfl
  | case2 name done g around ih => rw [ih]; rfl
  | case3 name child content rest done around ih =>
    rw [ih, List.flatMap_cons, List.flatMap_cons, Unread.visits_file, Unread.node_file]
  | case4 name child children rest done around e hsift =>
    -- the error of a sibling comes before whatever is left to read
    rw [List.flatMap_cons, Unread.visits_dir, List.append_assoc, readAs_append,
      fault_of_sift hsift]
    rfl
  | case5 name child children rest done around entries hsift ih =>
    -- the entries of the directory that is entered stand for its place among the pending ones
    obtain ⟨hfault, rfl⟩ := entries_of_sift hsift
    have hplug : Unread.plug (Unread.node ⟨child, ((kept children).map entryOf).reverse, []⟩)
          (⟨name, rest, done⟩ :: around) =
        Unread.plug (Unread.node ⟨name, .dir child children :: rest, done⟩) around := by
      rw [Unread.node_start, Unread.plug, Unread.node, Unread.node, List.map_cons,
        List.reverse_cons, List.append_assoc]
      rfl
    have hvisits : (⟨name, .dir child children :: rest, done⟩ :: around).flatMap Unread.visits =
        children ++ (⟨child, ((kept children).map entryOf).reverse, []⟩ :: ⟨name, rest, done⟩ ::
          around).flatMap Unread.visits := by
      simp only [List.flatMap_cons, Unread.visits_dir, List.append_assoc]
    rw [ih, hplug, hvisits, readAs_append, hfault]
    rfl

/-- What comes of a value is the first error in the order of visits, or else the tree of the kept
records. -/
theorem decode_eq (v : Json) : decode v = readAs (visited v) (nodeOf v) := by
  rw [decode, visited, readAs_cons, fault?]
  cases hcheck : check v with
  | error e => rfl
  | ok entry =>
    obtain rfl : entryOf v = entry :=
      Except.ok.inj ((check_of_isShallow (isShallow_of_check hcheck)).symm.trans hcheck)
    rw [← node_entryOf, ← children_entryOf]
    cases hentry : entryOf v with
    | file name content =>
      rw [Entry.children, visitedBelow_nil]
      rfl
    | dir name children =>
      simp only [Option.elim_none, Entry.children]
      rw [Unread.visitedBelow_eq_visits name, readAs_append]
      split
      · rename_i e hsift
        rw [fault_of_sift hsift]
        rfl
      · rename_i entries hsift
        obtain ⟨hfault, rfl⟩ := entries_of_sift hsift
        rw [readOn_eq, hfault, Unread.node_start, List.flatMap_singleton]
        rfl

/-! ### The messages of errors -/

/-- The error of the record has no message, since a value that it would have to quote cannot be
shown: the name, or the type behind a name that is in order. -/
inductive Unquotable (cause : Json.ShowError) : Json → Prop
  | name {fields : Json.Fields}
      (obstructed : Json.obstruction? Json.showingLimit (fieldOf fields "name") = some cause) :
      Unquotable cause (.object fields)
  | type {fields : Json.Fields} {name : Text} (named : fieldOf fields "name" = .str name)
      (nonempty : name ≠ [])
      (obstructed :
        Json.obstruction? (Json.showingLimit - 3) (fieldOf fields "type") = some cause) :
      Unquotable cause (.object fields)

section Messages

omit [Folding]

variable {fields : Json.Fields} {name : Text} {e : RecordError} {cause : Json.ShowError}

theorem map_quote?_eq_error_iff {room : Nat} {v : Json} (f : Text → Text) :
    (v.quote? room).map f = .error cause ↔ Json.obstruction? room v = some cause := by
  rw [Json.quote?]
  cases Json.obstruction? room v with
  | none => simp [Except.map]
  | some other => simp [Except.map]

/-- Behind a name that is in order it is the type that counts. -/
theorem unquotable_iff_of_named (hname : fieldOf fields "name" = .str name) (hne : name ≠ []) :
    Unquotable cause (.object fields) ↔
      Json.obstruction? (Json.showingLimit - 3) (fieldOf fields "type") = some cause := by
  constructor
  · intro h
    cases h with
    | name hobstructed =>
      rw [hname] at hobstructed
      exact absurd hobstructed (by simp [Json.showingLimit, Json.obstruction?])
    | type _ _ hobstructed => exact hobstructed
  · exact .type hname hne

/-- Otherwise it is the name. -/
theorem unquotable_iff_of_not_named
    (hname : ∀ name, fieldOf fields "name" = .str name → name = []) :
    Unquotable cause (.object fields) ↔
      Json.obstruction? Json.showingLimit (fieldOf fields "name") = some cause := by
  constructor
  · intro h
    cases h with
    | name hobstructed => exact hobstructed
    | type hnamed hne _ => exact absurd (hname _ hnamed) hne
  · exact .name

/-- The error of a record with a name has no message just when its type cannot be shown. -/
theorem message_of_checkNamed (h : checkNamed name fields = .error e) :
    e.message = .error cause ↔
      Json.obstruction? (Json.showingLimit - 3) (fieldOf fields "type") = some cause := by
  rw [checkNamed] at h
  split at h
  · rename_i type htype
    have hshown : Json.obstruction? (Json.showingLimit - 3) (fieldOf fields "type") = none := by
      rw [htype]
      rfl
    rw [hshown]
    refine iff_of_false (fun hmessage => ?_) (by simp)
    split at h
    · obtain rfl := error_of_checkFile h
      exact absurd hmessage (by simp [RecordError.message])
    · split at h
      · obtain rfl := error_of_checkDir h
        exact absurd hmessage (by simp [RecordError.message])
      · obtain rfl := Except.error.inj h
        rw [RecordError.message, map_quote?_eq_error_iff, ← htype, hshown] at hmessage
        exact absurd hmessage (by simp)
  · obtain rfl := Except.error.inj h
    rw [RecordError.message, map_quote?_eq_error_iff]

/-- **Messages.** The error of a record has no message just when the record is unquotable. -/
theorem message_eq_error_iff {v : Json} (h : check v = .error e) :
    e.message = .error cause ↔ Unquotable cause v := by
  cases v with
  | object fields =>
    rw [check] at h
    split at h
    · rename_i name hname
      split at h
      · rename_i hempty
        obtain rfl := Except.error.inj h
        rw [RecordError.message, map_quote?_eq_error_iff, ← hname]
        refine (unquotable_iff_of_not_named fun other hother => ?_).symm
        rw [hname] at hother
        exact Json.str.inj hother ▸ hempty
      · rename_i hne
        rw [message_of_checkNamed h, unquotable_iff_of_named hname hne]
    · rename_i hbad
      obtain rfl := Except.error.inj h
      rw [RecordError.message, map_quote?_eq_error_iff]
      exact (unquotable_iff_of_not_named fun name hname => absurd hname (hbad name)).symm
  | _ =>
    obtain rfl := Except.error.inj h
    exact iff_of_false (by simp [RecordError.message]) (by rintro ⟨⟩)

end Messages

/-! ### The language that is read -/

theorem findSome?_fault?_eq_none_iff {v : Json} :
    (visited v).findSome? fault? = none ↔ IsAccepted v := by
  rw [List.findSome?_eq_none_iff, isAccepted_iff]
  exact forall₂_congr fun r _ => fault?_eq_none_iff

/-- A value is read just when it is accepted, as the tree of its kept records. -/
theorem decode_eq_ok_iff {v : Json} {n : Node} :
    decode v = .ok n ↔ IsAccepted v ∧ n = nodeOf v := by
  rw [decode_eq, readAs, ← findSome?_fault?_eq_none_iff]
  cases (visited v).findSome? fault? with
  | none => simp [eq_comm]
  | some e => simp

/-- A value is refused for the first record that is not valid by itself. -/
theorem decode_eq_error_iff {v : Json} {e : RecordError} :
    decode v = .error e ↔
      ∃ before r after, visited v = before ++ r :: after ∧ (∀ s ∈ before, IsShallow s) ∧
        check r = .error e := by
  have hfirst : decode v = .error e ↔ (visited v).findSome? fault? = some e := by
    rw [decode_eq, readAs]
    cases (visited v).findSome? fault? with
    | none => simp
    | some cause => simp
  rw [hfirst, List.findSome?_eq_some_iff]
  constructor
  · rintro ⟨before, r, after, hsplit, hr, hbefore⟩
    exact ⟨before, r, after, hsplit, fun s hs => fault?_eq_none_iff.mp (hbefore s hs),
      fault?_eq_some_iff.mp hr⟩
  · rintro ⟨before, r, after, hsplit, hbefore, hr⟩
    exact ⟨before, r, after, hsplit, fault?_eq_some_iff.mpr hr,
      fun s hs => fault?_eq_none_iff.mpr (hbefore s hs)⟩

/-- A name of a thousand lists in each other cannot be quoted. -/
example : Unquotable .tooDeep (.object [("name", Nat.iterate (Json.list [·]) 1000 .null)]) :=
  .name (by decide +kernel)

/-- The names in a tree that was read are distinct. -/
theorem distinct_of_decode {v : Json} {n : Node} (h : decode v = .ok n) : n.AllNames Distinct := by
  rw [(decode_eq_ok_iff.mp h).2]
  exact distinct_nodeOf v

/-- No name in a tree that was read is empty. -/
theorem named_of_decode {v : Json} {n : Node} (h : decode v = .ok n) : n.IsNamed := by
  obtain ⟨haccepted, rfl⟩ := decode_eq_ok_iff.mp h
  exact named_nodeOf haccepted

end DosConsole.Record
