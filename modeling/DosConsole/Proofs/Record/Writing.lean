import DosConsole.Proofs.Record.Language
import Mathlib.Data.List.Forall2
import Mathlib.Data.List.Nodup
import Mathlib.Logic.Function.Iterate

/-!
# Writing records

A record is entered into that of its parent while it is still empty, and records are filled in
another order than they stand in. Yet what is written is the record that is defined by recursion
(`encode_eq`).

What carries this is an invariant of the rounds (`Written`). Each record that was begun belongs to
one directory. The children of that directory which are not left for later are in its slots, in
order: files by their contents, and directories by the numbers of their own records, which are
greater. When nothing is left, the records can be read off from the last one to the first.

Each round is over with one directory, so there are as many rounds as directories, and each
directory has one record (`writing_follows_recursion`).
-/

namespace DosConsole

namespace Record

/-! ### The record by recursion -/

theorem ofNodes_eq_map (nodes : List Node) : ofNodes nodes = nodes.map ofNode := by
  induction nodes with
  | nil => rfl
  | cons n rest ih => rw [ofNodes, ih, List.map_cons]

theorem ofNode_dir (name : Text) (children : List Node) :
    ofNode (.dir name children) = dir name (children.map ofNode) := by
  rw [ofNode, ofNodes_eq_map]

theorem nameOf_ofNode (n : Node) : nameOf (ofNode n) = n.name := by
  cases n with
  | file name content => rw [ofNode]; rfl
  | dir name children => rw [ofNode]; rfl

theorem isDirectory_ofNode (n : Node) : isDirectory (ofNode n) = n.isDir := by
  cases n with
  | file name content => rw [ofNode]; rfl
  | dir name children => rw [ofNode]; rfl

theorem childrenOf_ofNode (n : Node) : childrenOf (ofNode n) = n.children.map ofNode := by
  cases n with
  | file name content => rw [ofNode]; rfl
  | dir name children => rw [ofNode_dir]; rfl

/-! ### What the slots hold -/

/-- The directories that have a record, by the numbers of the records. -/
abbrev Begun := List (Text × List Node)

variable {begun more : Begun} {pending : List (Nat × List Node)} {drafts : Array Draft}
  {loose : List Nat} {number : Nat} {name : Text} {n : Node} {children rest : List Node}
  {slot : Slot} {w : Writing}

/-- A slot in the record of a number **fits** a child: it holds the record of the file, or the
number of a later record, which is that of the directory. -/
inductive Fits (begun : Begun) (number : Nat) : Node → Slot → Prop
  | file (name content : Text) : Fits begun number (.file name content) (.file name content)
  | dir {name : Text} {children : List Node} {later : Nat} (after : number < later)
      (own : begun[later]? = some (name, children)) :
      Fits begun number (.dir name children) (.dir later)

theorem Fits.mono (h : Fits begun number n slot) (hmore : begun <+: more) :
    Fits more number n slot := by
  obtain ⟨added, rfl⟩ := hmore
  cases h with
  | file name content => exact .file name content
  | dir after own =>
    have hlt := (List.getElem?_eq_some_iff.mp own).1
    exact .dir after ((List.getElem?_append_left hlt).trans own)

/-- The children that are left to be entered into the record of a number. -/
def left (pending : List (Nat × List Node)) (number : Nat) : List Node :=
  (pending.lookup number).getD []

theorem left_cons (number : Nat) (children : List Node) (pending : List (Nat × List Node)) :
    left ((number, children) :: pending) = Function.update (left pending) number children := by
  funext k
  rw [left, List.lookup_cons, Function.update_apply, left]
  by_cases h : k = number
  · rw [if_pos h, beq_iff_eq.mpr h]
    rfl
  · rw [if_neg h, beq_eq_false_iff_ne.mpr h]

theorem left_of_notMem (h : number ∉ pending.map Prod.fst) : left pending number = [] := by
  have hnone : pending.lookup number = none := by
    rw [List.lookup_eq_none_iff]
    intro e he
    rw [bne_iff_ne]
    rintro rfl
    exact h (List.mem_map_of_mem he)
  rw [left, hnone]
  rfl

/-- The number of the record in a slot, if it is the record of a directory. -/
def Slot.numbers : Slot → List Nat
  | .file _ _ => []
  | .dir number => [number]

/-- The numbers of the records that are entered in others, each as often as it is entered. -/
def Draft.entered (drafts : Array Draft) : List Nat :=
  drafts.toList.flatMap fun d => d.slots.toList.flatMap Slot.numbers

theorem Draft.entered_push (drafts : Array Draft) (name : Text) :
    entered (drafts.push ⟨name, #[]⟩) = entered drafts := by
  rw [entered, Array.toList_push, List.flatMap_append]
  exact List.append_nil _

theorem Draft.entered_modify (h : number < drafts.size) (slot : Slot) :
    (entered (drafts.modify number fun d => { d with slots := d.slots.push slot })).Perm
      (slot.numbers ++ entered drafts) := by
  have hlength : number < drafts.toList.length := Array.length_toList ▸ h
  obtain ⟨before, d, after, hdrafts, -, hmodify⟩ :=
    List.exists_of_modify (fun d : Draft => { d with slots := d.slots.push slot }) hlength
  rw [entered, Array.toList_modify, hmodify, entered, hdrafts]
  simp only [List.flatMap_append, List.flatMap_cons, Array.toList_push, List.flatMap_nil,
    List.append_nil]
  -- the number stands behind those of the drafts before it and of the slots before it
  have hmoved := List.perm_append_comm_assoc
    (before.flatMap (fun d => d.slots.toList.flatMap Slot.numbers) ++
      d.slots.toList.flatMap Slot.numbers) slot.numbers
    (after.flatMap fun d => d.slots.toList.flatMap Slot.numbers)
  simpa only [List.append_assoc] using hmoved

/-- **The invariant of writing.** Each directory that was begun has a record with its name, in which
the children that are not left for later are in their slots. Those that have children left have
different records. Every record but the first is entered in one place, or it is **loose**, that is,
still to be entered. -/
structure Written (begun : Begun) (pending : List (Nat × List Node)) (loose : List Nat)
    (drafts : Array Draft) : Prop where
  size : drafts.size = begun.length
  distinct : (pending.map Prod.fst).Nodup
  known : ∀ number ∈ pending.map Prod.fst, number < drafts.size
  filled : ∀ number name children, begun[number]? = some (name, children) →
    ∃ before slots, drafts[number]? = some ⟨name, slots⟩ ∧
      children = before ++ left pending number ∧
      List.Forall₂ (Fits begun number) before slots.toList
  places : (0 :: (loose ++ Draft.entered drafts)).Perm (List.range drafts.size)

namespace Written

theorem start (name : Text) (children : List Node) :
    Written [(name, children)] (Writing.start name children).pending []
      (Writing.start name children).drafts where
  size := rfl
  distinct := List.nodup_singleton 0
  known := by simp [Writing.start]
  filled number name' children' h := by
    obtain ⟨hzero, heq⟩ := List.getElem?_eq_some_iff.mp h
    obtain rfl : number = 0 := Nat.lt_one_iff.mp hzero
    obtain ⟨rfl, rfl⟩ := Prod.mk.inj heq
    exact ⟨[], #[], rfl, rfl, .nil⟩
  places := .refl _

/-- A slot that fits the next child is put into the record. -/
theorem put (h : Written begun ((number, n :: rest) :: pending) (slot.numbers ++ loose) drafts)
    (hslot : Fits begun number n slot) :
    Written begun ((number, rest) :: pending) loose
      (drafts.modify number fun d => { d with slots := d.slots.push slot }) where
  size := (Array.size_modify ..).trans h.size
  distinct := h.distinct
  known := by
    rw [Array.size_modify]
    exact h.known
  filled k name children hk := by
    obtain ⟨before, slots, hdraft, hchildren, hfits⟩ := h.filled k name children hk
    rw [left_cons] at hchildren ⊢
    rw [Array.getElem?_modify, hdraft]
    by_cases hk : number = k
    · subst hk
      rw [Function.update_self] at hchildren ⊢
      refine ⟨before ++ [n], slots.push slot, by rw [if_pos rfl]; rfl, ?_, ?_⟩
      · rw [hchildren, List.append_assoc]
        rfl
      · rw [Array.toList_push]
        exact List.rel_append hfits (.cons hslot .nil)
    · rw [Function.update_of_ne (Ne.symm hk)] at hchildren ⊢
      exact ⟨before, slots, if_neg hk, hchildren, hfits⟩
  places := by
    have hnumber : number < drafts.size := h.known number List.mem_cons_self
    have hplaces := h.places
    rw [Array.size_modify]
    rw [List.append_assoc] at hplaces
    have hentered := (Draft.entered_modify hnumber slot).append_left loose
    have hmoved := List.perm_append_comm_assoc loose slot.numbers (Draft.entered drafts)
    exact ((hentered.trans hmoved).cons 0).trans hplaces

/-- The record of another directory is begun, and is loose. -/
theorem beginDraft (h : Written begun pending loose drafts) (name : Text) (children : List Node) :
    Written (begun ++ [(name, children)]) ((drafts.size, children) :: pending)
      (drafts.size :: loose) (drafts.push ⟨name, #[]⟩) where
  size := by rw [Array.size_push, h.size, List.length_append, List.length_singleton]
  distinct := by
    refine List.nodup_cons.mpr ⟨fun hmem => ?_, h.distinct⟩
    exact Nat.lt_irrefl _ (h.known _ hmem)
  known := by
    intro number hnumber
    rw [Array.size_push]
    rcases List.mem_cons.mp hnumber with rfl | hnumber
    · exact Nat.lt_succ_self _
    · exact Nat.lt_succ_of_lt (h.known _ hnumber)
  filled k name' children' hk := by
    have hmore : begun <+: begun ++ [(name, children)] := List.prefix_append _ _
    rw [left_cons, Array.getElem?_push]
    by_cases hlast : k = drafts.size
    · subst hlast
      rw [h.size, List.getElem?_concat_length] at hk
      obtain ⟨rfl, rfl⟩ := Prod.mk.inj (Option.some.inj hk)
      refine ⟨[], #[], if_pos rfl, ?_, .nil⟩
      rw [Function.update_self, List.nil_append]
    · have hlt : k < begun.length := by
        have hbound := (List.getElem?_eq_some_iff.mp hk).1
        rw [List.length_append, List.length_singleton] at hbound
        have hsize := h.size
        omega
      rw [List.getElem?_append_left hlt] at hk
      obtain ⟨before, slots, hdraft, hchildren, hfits⟩ := h.filled k name' children' hk
      rw [Function.update_of_ne hlast, if_neg hlast]
      exact ⟨before, slots, hdraft, hchildren, hfits.imp fun _ _ hfit => hfit.mono hmore⟩
  places := by
    rw [Draft.entered_push, Array.size_push, List.range_succ]
    have hlast : (0 :: (drafts.size :: loose ++ Draft.entered drafts)).Perm
        (drafts.size :: 0 :: (loose ++ Draft.entered drafts)) := .swap _ _ _
    exact hlast.trans ((h.places.cons _).trans (List.perm_append_singleton _ _).symm)

/-- It does not matter in which order two directories are left for later. -/
theorem swap {a b : Nat × List Node} (h : Written begun (a :: b :: pending) loose drafts) :
    Written begun (b :: a :: pending) loose drafts := by
  have hkeys : ((b :: a :: pending).map Prod.fst).Perm ((a :: b :: pending).map Prod.fst) :=
    .swap _ _ _
  have hne : a.1 ≠ b.1 := fun heq =>
    (List.nodup_cons.mp h.distinct).1 (heq ▸ List.mem_cons_self)
  have hleft : left (b :: a :: pending) = left (a :: b :: pending) := by
    rw [left_cons b.1, left_cons a.1, left_cons a.1, left_cons b.1, Function.update_comm hne]
  exact ⟨h.size, hkeys.nodup_iff.mpr h.distinct, fun number hnumber => h.known number
    (hkeys.mem_iff.mp hnumber), fun number => hleft ▸ h.filled number, h.places⟩

/-- A directory none of whose children are left is done. -/
theorem done (h : Written begun ((number, []) :: pending) loose drafts) :
    Written begun pending loose drafts := by
  obtain ⟨hnew, hdistinct⟩ := List.nodup_cons.mp h.distinct
  have hleft : left ((number, []) :: pending) = left pending := by
    rw [left_cons, ← left_of_notMem hnew, Function.update_eq_self]
  exact ⟨h.size, hdistinct, fun k hk => h.known k (List.mem_cons_of_mem _ hk),
    fun k => hleft ▸ h.filled k, h.places⟩

/-- **One child.** Its slot fits it, and if it is a directory, one more is begun. -/
theorem enter (h : Written begun ((number, n :: rest) :: w.pending) [] w.drafts) :
    ∃ more, begun <+: more ∧
      Written more ((number, rest) :: (w.enter number n).pending) [] (w.enter number n).drafts := by
  cases n with
  | file name content => exact ⟨begun, List.prefix_rfl, h.put (.file name content)⟩
  | dir name children =>
    refine ⟨begun ++ [(name, children)], List.prefix_append _ _, ?_⟩
    have hnumber : number < w.drafts.size := h.known number List.mem_cons_self
    have hown : (begun ++ [(name, children)])[w.drafts.size]? = some (name, children) := by
      rw [h.size, List.getElem?_concat_length]
    exact (h.beginDraft name children).swap.put (.dir hnumber hown)

/-- All children of a directory, one after the other. -/
theorem foldl_enter (h : Written begun ((number, children) :: w.pending) [] w.drafts) :
    let after := children.foldl (Writing.enter number) w
    ∃ more, begun <+: more ∧ Written more ((number, []) :: after.pending) [] after.drafts := by
  induction children generalizing begun w with
  | nil => exact ⟨begun, List.prefix_rfl, h⟩
  | cons n rest ih =>
    obtain ⟨more, hmore, hfirst⟩ := h.enter
    obtain ⟨most, hmost, hrest⟩ := ih hfirst
    exact ⟨most, hmore.trans hmost, hrest⟩

/-- **One round.** The children of one directory are in their slots after it. -/
theorem round (h : Written begun w.pending [] w.drafts) :
    ∃ more, begun <+: more ∧ Written more w.round.pending [] w.round.drafts := by
  cases hpending : w.pending with
  | nil =>
    have hround : w.round = w := by rw [Writing.round, hpending]
    rw [hround]
    exact ⟨begun, List.prefix_rfl, h⟩
  | cons e rest =>
    rw [hpending] at h
    obtain ⟨more, hmore, hafter⟩ := foldl_enter (w := { w with pending := rest }) h
    rw [Writing.round_eq hpending]
    exact ⟨more, hmore, hafter.done⟩

/-- **All rounds.** Those of every directory are in their slots in the end. -/
theorem run (h : Written begun w.pending [] w.drafts) :
    ∃ more, begun <+: more ∧ Written more [] [] w.run := by
  fun_induction Writing.run w generalizing begun with
  | case1 w hpending => exact ⟨begun, List.prefix_rfl, hpending ▸ h⟩
  | case2 w e rest hpending ih =>
    obtain ⟨more, hmore, hround⟩ := h.round
    obtain ⟨most, hmost, hrun⟩ := ih hround
    exact ⟨most, hmore.trans hmost, hrun⟩

end Written

/-! ### Reading off the records -/

section Records

variable {count : Nat} {later : Array Json} {slots : List Slot}

/-- A slot holds the record of the child that it fits, if those of the later directories are
there. -/
theorem record_of_fits (h : Fits begun number n slot)
    (hlater : ∀ k name children, number < k → begun[k]? = some (name, children) →
      later[count - 1 - k]? = some (ofNode (.dir name children))) :
    slot.record count later = ofNode n := by
  cases h with
  | file name content => rw [Slot.record, ofNode]
  | dir after own =>
    rw [Slot.record, Array.getD_eq_getD_getElem?, hlater _ _ _ after own]
    rfl

theorem map_record_of_fits (h : List.Forall₂ (Fits begun number) children slots)
    (hlater : ∀ k name children, number < k → begun[k]? = some (name, children) →
      later[count - 1 - k]? = some (ofNode (.dir name children))) :
    slots.map (Slot.record count later) = children.map ofNode := by
  induction h with
  | nil => rfl
  | cons hfit _ ih => rw [List.map_cons, List.map_cons, record_of_fits hfit hlater, ih]

/-- When nothing is left for later, a draft gets the record of its directory, if the later ones have
theirs. -/
theorem Written.addRecord (h : Written begun [] [] drafts) {d : Draft}
    (hdraft : drafts[number]? = some d) (hbegun : begun[number]? = some (name, children))
    (hlater : ∀ k name children, number < k → begun[k]? = some (name, children) →
      later[count - 1 - k]? = some (ofNode (.dir name children))) :
    d.addRecord count later = later.push (ofNode (.dir name children)) := by
  obtain ⟨before, slots, hfound, hchildren, hfits⟩ := h.filled number name children hbegun
  obtain rfl : d = ⟨name, slots⟩ := Option.some.inj (hdraft.symm.trans hfound)
  obtain rfl : children = before := hchildren.trans (List.append_nil _)
  rw [Draft.addRecord, map_record_of_fits hfits hlater, ofNode_dir]

/-- The last drafts, however many, get the records of their directories. -/
theorem Written.foldr_addRecord (h : Written begun [] [] drafts) (first last : List Draft)
    (hsplit : drafts.toList = first ++ last) :
    let records := last.foldr (Draft.addRecord drafts.size) #[]
    records.size = last.length ∧ ∀ k name children, first.length ≤ k →
      begun[k]? = some (name, children) →
        records[drafts.size - 1 - k]? = some (ofNode (.dir name children)) := by
  have hcount := h.size
  induction last generalizing first with
  | nil =>
    refine ⟨rfl, fun k name children hk hown => ?_⟩
    have hlt := (List.getElem?_eq_some_iff.mp hown).1
    rw [← Array.length_toList, hsplit, List.append_nil] at hcount
    omega
  | cons d last ih =>
    obtain ⟨hsize, hrecords⟩ := ih (first ++ [d]) (by rw [hsplit, List.append_assoc]; rfl)
    rw [List.length_append, List.length_singleton] at hrecords
    have hlength : drafts.size = first.length + (last.length + 1) := by
      rw [← Array.length_toList, hsplit, List.length_append, List.length_cons]
    have hdraft : drafts[first.length]? = some d := by
      rw [← Array.getElem?_toList, hsplit, List.getElem?_append_right (Nat.le_refl _), Nat.sub_self]
      rfl
    have hfirst : first.length < begun.length := by omega
    obtain ⟨⟨name, children⟩, hown⟩ : ∃ e, begun[first.length]? = some e :=
      ⟨_, List.getElem?_eq_getElem hfirst⟩
    have hadd := h.addRecord hdraft hown hrecords
    simp only [List.foldr_cons, hadd]
    refine ⟨by rw [Array.size_push, hsize, List.length_cons], fun k name' children' hk hk' => ?_⟩
    have hlt := (List.getElem?_eq_some_iff.mp hk').1
    rw [Array.getElem?_push]
    by_cases hplace : k = first.length
    · obtain ⟨rfl, rfl⟩ := Prod.mk.inj (Option.some.inj (hown.symm.trans (hplace ▸ hk')))
      rw [if_pos (by omega)]
    · rw [if_neg (by omega)]
      exact hrecords k name' children' (by omega) hk'

end Records

/-- When nothing is left for later, the records of all directories can be read off. -/
theorem Written.records (h : Written begun [] [] drafts)
    (hbegun : begun[number]? = some (name, children)) :
    (Draft.records drafts)[drafts.size - 1 - number]? = some (ofNode (.dir name children)) := by
  rw [Draft.records, ← Array.foldr_toList]
  exact (h.foldr_addRecord [] drafts.toList rfl).2 number name children (Nat.zero_le _) hbegun

/-- **Writing follows the recursion.** -/
theorem encode_eq (n : Node) : encode n = ofNode n := by
  cases n with
  | file name content => rw [encode, ofNode]
  | dir name children =>
    obtain ⟨more, ⟨added, rfl⟩, hwritten⟩ := (Written.start name children).run
    have hown : ([(name, children)] ++ added)[0]? = some (name, children) := rfl
    have hfirst := hwritten.records hown
    rw [Nat.sub_zero] at hfirst
    rw [encode]
    simp only [Array.getD_eq_getD_getElem?, hfirst]
    rfl

/-! ### Rounds -/

namespace Writing

/-- After as many rounds as there are directories to be entered, nothing is left for later. -/
theorem run_eq_iterate (w : Writing) :
    (round^[w.due] w).pending = [] ∧ w.run = (round^[w.due] w).drafts := by
  fun_induction run w with
  | case1 w hpending =>
    have hdue : w.due = 0 := by rw [due, hpending]; rfl
    rw [hdue]
    exact ⟨hpending, rfl⟩
  | case2 w e rest hpending ih =>
    rw [← due_round hpending, Function.iterate_succ_apply]
    exact ih

/-- Of two directories the second is taken first, when the records of both are entered already. -/
example : (start "/" [.dir "A" [.file "F" "x"], .dir "B" []]).round.pending =
    [(2, []), (1, [.file "F" "x"])] := rfl

/-- A record is begun for each directory that is left for later. -/
theorem size_enter (number : Nat) (w : Writing) (n : Node) :
    (w.enter number n).drafts.size + w.pending.length =
      w.drafts.size + (w.enter number n).pending.length := by
  cases n with
  | file name content => rw [enter, put, Array.size_modify]
  | dir name children =>
    rw [enter, put, Array.size_modify, Array.size_push, List.length_cons]
    omega

theorem size_foldl_enter (number : Nat) (children : List Node) (w : Writing) :
    (children.foldl (enter number) w).drafts.size + w.pending.length =
      w.drafts.size + (children.foldl (enter number) w).pending.length := by
  induction children generalizing w with
  | nil => rfl
  | cons n rest ih =>
    have hfirst := size_enter number w n
    have hrest := ih (w.enter number n)
    rw [List.foldl_cons]
    omega

/-- Records are begun for the directories whose children are still to be entered, but for those that
were left for later already. -/
theorem size_run (w : Writing) : w.run.size + w.pending.length = w.drafts.size + w.due := by
  fun_induction run w with
  | case1 w hpending => rw [due, hpending]; rfl
  | case2 w e rest hpending ih =>
    have hdue := due_round hpending
    have hround := size_foldl_enter e.1 e.2 { w with pending := rest }
    rw [← round_eq hpending] at hround
    rw [hpending, List.length_cons]
    simp only at hround
    omega

theorem due_start (name : Text) (children : List Node) :
    (start name children).due = (Node.dir name children).directoryCount := rfl

end Writing

end Record

/-! ### Places -/

/-- The node at a **place** below a node: a way down, by the positions of the children. -/
def Node.at? (n : Node) : List Nat → Option Node
  | [] => some n
  | i :: place => n.children[i]?.bind (·.at? place)

namespace Record

/-- The record at a place below a record. -/
def at? (v : Json) : List Nat → Option Json
  | [] => some v
  | i :: place => (childrenOf v)[i]?.bind (at? · place)

theorem at?_ofNode (n : Node) (place : List Nat) :
    at? (ofNode n) place = (n.at? place).map ofNode := by
  induction place generalizing n with
  | nil => rfl
  | cons i place ih =>
    rw [at?, Node.at?, childrenOf_ofNode, List.getElem?_map]
    cases n.children[i]? with
    | none => rfl
    | some c => exact ih c

/-- **Writing follows the recursion.** For every directory the rounds come to an end, after as many
of them as there are directories in the subtree. Each of these has one record then, and each record
but the first is entered in one place. What is written is the record by recursion: its name, the
type `dir` and the records of its children in order, where that of a file is its name, the type
`file` and its content. So there is a record at a place just where there is a node, and it is that
of the node. -/
theorem writing_follows_recursion (name : Text) (children : List Node) :
    let n : Node := .dir name children
    let begun := Writing.start name children
    let after := Writing.round^[n.directoryCount] begun
    after.pending = [] ∧ begun.run = after.drafts ∧ after.drafts.size = n.directoryCount ∧
      (0 :: Draft.entered after.drafts).Perm (List.range n.directoryCount) ∧
      encode n = ofNode n ∧
      encode n = .object [("name", .str name), ("type", .str "dir"),
        ("children", .list (children.map encode))] ∧
      (∀ file content, encode (.file file content) =
        .object [("name", .str file), ("type", .str "file"), ("content", .str content)]) ∧
      ∀ place, at? (encode n) place = (n.at? place).map encode := by
  intro n begun after
  obtain ⟨hpending, hrun⟩ : after.pending = [] ∧ begun.run = after.drafts :=
    Writing.run_eq_iterate begun
  obtain ⟨more, -, hwritten⟩ : ∃ more, _ ∧ Written more [] [] begun.run :=
    (Written.start name children).run
  have hsize : begun.run.size = n.directoryCount := by
    have hcount := Writing.size_run begun
    rw [Writing.due_start, Nat.add_comm] at hcount
    exact Nat.add_left_cancel hcount
  have hencode : encode = ofNode := funext encode_eq
  refine ⟨hpending, hrun, hrun ▸ hsize, ?_, encode_eq n, ?_, fun _ _ => rfl, fun place => ?_⟩
  · have hplaces := hwritten.places
    rw [List.nil_append, hsize, hrun] at hplaces
    exact hplaces
  · rw [hencode]
    exact ofNode_dir name children
  · rw [hencode]
    exact at?_ofNode n place

end Record

end DosConsole
