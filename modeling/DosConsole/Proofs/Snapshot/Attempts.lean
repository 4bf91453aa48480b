import DosConsole.Proofs.Disk.AllOrNothing
import DosConsole.Snapshot.Keeper
import Mathlib.Data.List.Induction

/-!
# Snapshots written one after the other

Snapshots are tried one after the other at one location. Each is written or given up, and the next
one is tried in either case. What else happens to the disk is an **interference**: somebody changes
it before the snapshot with a given number is tried and once more after that, and so decides which
of them are written.

The file is only ever changed by the snapshots that were written, if the interference leaves it
alone. So after any of them it is as at first or holds the text of the one that was written last
(`holds_attempts`), and the number of that one never falls (`held_attempts_append`).
-/

namespace DosConsole.Snapshot

/-- What somebody else does to the disk when the snapshot with a given number is tried. The numbers
start at zero. -/
structure Interference where
  /-- The disk on which it is tried, made of the one that there was. -/
  before : Nat → Disk → Disk
  /-- The disk that is there in the end, made of the one that there was and the one that the attempt
  left. -/
  after : Nat → Disk → Disk → Disk

namespace Interference

/-- Nobody does anything. -/
def undisturbed : Interference where
  before _ d := d
  after _ _ left := left

/-- The file at a location is **left alone**: in the end it is as the attempt left it if that
succeeded, and as before if it failed. -/
def LeavesAlone (i : Interference) (l : Location) : Prop :=
  ∀ n d v, (i.after n d ((i.before n d).replaceDocument l v).1).file? l.landing =
    match ((i.before n d).replaceDocument l v).2 with
    | .ok () => ((i.before n d).replaceDocument l v).1.file? l.landing
    | .error _ => d.file? l.landing

/-- It is, where neither of the changes touches it. -/
theorem leavesAlone_of_same {i : Interference} {l : Location}
    (hbefore : ∀ n d, (i.before n d).file? l.landing = d.file? l.landing)
    (hafter : ∀ n d left, (i.after n d left).file? l.landing = left.file? l.landing) :
    i.LeavesAlone l := by
  intro n d v
  have hfiles := (i.before n d).allOrNothing_replaceDocument l v
  rw [hafter]
  cases hwrite : (i.before n d).replaceDocument l v with
  | mk left result =>
    rw [hwrite] at hfiles
    cases result with
    | ok => rfl
    | error e => exact (hfiles l.landing).trans (hbefore n d)

end Interference

/-- How far the snapshots have come. -/
structure Progress where
  disk : Disk
  /-- How many were tried. -/
  tried : Nat
  /-- How many had been tried when the last one was written; zero if none was. -/
  held : Nat

/-- Tries one more snapshot. -/
def Progress.attempt (i : Interference) (l : Location) (p : Progress) (v : Json) : Progress :=
  match (i.before p.tried p.disk).replaceDocument l v with
  | (left, .ok ()) => ⟨i.after p.tried p.disk left, p.tried + 1, p.tried + 1⟩
  | (left, .error _) => ⟨i.after p.tried p.disk left, p.tried + 1, p.held⟩

/-- Tries snapshots one after the other. -/
def attempts (i : Interference) (l : Location) (d : Disk) (snapshots : List Json) : Progress :=
  snapshots.foldl (Progress.attempt i l) ⟨d, 0, 0⟩

/-- The content of the file **holds** one of the snapshots by its number, counted from one. With the
number zero it is the one that there was at first. -/
inductive Holds (first : Option ByteArray) (snapshots : List Json) (content : Option ByteArray) :
    Nat → Prop
  | first (h : content = first) : Holds first snapshots content 0
  | written {n : Nat} {v : Json} {text : String} (hv : snapshots[n]? = some v)
      (htext : Json.write? v = .ok text) (h : content = some text.toUTF8) :
      Holds first snapshots content (n + 1)

variable {i : Interference} {l : Location} {d : Disk} {p : Progress} {first : Option ByteArray}
  {snapshots more : List Json} {content : Option ByteArray} {n : Nat} {v : Json}

/-! ### One attempt -/

theorem disk_attempt (p : Progress) (v : Json) :
    (p.attempt i l v).disk =
      i.after p.tried p.disk ((i.before p.tried p.disk).replaceDocument l v).1 := by
  rw [Progress.attempt]
  split
  · rename_i h
    rw [h]
  · rename_i h
    rw [h]

theorem tried_attempt (p : Progress) (v : Json) : (p.attempt i l v).tried = p.tried + 1 := by
  rw [Progress.attempt]
  split
  · rfl
  · rfl

/-- The number that is held does not fall, nor does it exceed that of the attempts. -/
theorem held_attempt (h : p.held ≤ p.tried) (v : Json) :
    p.held ≤ (p.attempt i l v).held ∧ (p.attempt i l v).held ≤ (p.attempt i l v).tried := by
  rw [Progress.attempt]
  split
  · exact ⟨Nat.le_succ_of_le h, Nat.le_refl _⟩
  · exact ⟨Nat.le_refl _, Nat.le_succ_of_le h⟩

/-! ### All attempts -/

theorem attempts_concat (snapshots : List Json) (v : Json) :
    attempts i l d (snapshots ++ [v]) = (attempts i l d snapshots).attempt i l v := by
  rw [attempts, List.foldl_append]
  rfl

theorem tried_attempts (snapshots : List Json) :
    (attempts i l d snapshots).tried = snapshots.length := by
  induction snapshots using List.reverseRecOn with
  | nil => rfl
  | append_singleton snapshots v ih =>
    rw [attempts_concat, tried_attempt, ih, List.length_append, List.length_singleton]

theorem held_attempts_le (snapshots : List Json) :
    (attempts i l d snapshots).held ≤ (attempts i l d snapshots).tried := by
  induction snapshots using List.reverseRecOn with
  | nil => exact Nat.le_refl _
  | append_singleton snapshots v ih =>
    rw [attempts_concat]
    exact (held_attempt ih v).2

/-- More attempts do not take the file back to an older snapshot. -/
theorem held_attempts_append (snapshots more : List Json) :
    (attempts i l d snapshots).held ≤ (attempts i l d (snapshots ++ more)).held := by
  induction more using List.reverseRecOn with
  | nil => exact Nat.le_of_eq (by rw [List.append_nil])
  | append_singleton more v ih =>
    rw [← List.append_assoc, attempts_concat]
    exact Nat.le_trans ih (held_attempt (held_attempts_le _) v).1

theorem Holds.eq_first (h : Holds first snapshots content 0) : content = first := by
  cases h with
  | first h => exact h

theorem Holds.exists_text (h : Holds first snapshots content (n + 1)) :
    ∃ v text, snapshots[n]? = some v ∧ Json.write? v = .ok text ∧ content = some text.toUTF8 := by
  cases h with
  | written hv htext h => exact ⟨_, _, hv, htext, h⟩

/-- What is held is held among more snapshots, too. -/
theorem Holds.append (h : Holds first snapshots content n) (more : List Json) :
    Holds first (snapshots ++ more) content n := by
  cases h with
  | first h => exact .first h
  | written hv htext h =>
    exact .written ((List.getElem?_append_left (List.getElem?_eq_some_iff.mp hv).1).trans hv)
      htext h

/-- After all attempts the file holds what was written last. -/
theorem holds_attempts (h : i.LeavesAlone l) (snapshots : List Json) :
    Holds (d.file? l.landing) snapshots ((attempts i l d snapshots).disk.file? l.landing)
      (attempts i l d snapshots).held := by
  induction snapshots using List.reverseRecOn with
  | nil => exact .first rfl
  | append_singleton snapshots v ih =>
    have htried := tried_attempts (i := i) (l := l) (d := d) snapshots
    rw [attempts_concat]
    generalize attempts i l d snapshots = p at ih htried ⊢
    have hfile := h p.tried p.disk v
    have hfiles := (i.before p.tried p.disk).allOrNothing_replaceDocument l v
    rw [Progress.attempt]
    cases hwrite : (i.before p.tried p.disk).replaceDocument l v with
    | mk left result =>
      rw [hwrite] at hfile hfiles
      cases result with
      | error e =>
        simp only at hfile ⊢
        rw [hfile]
        exact ih.append [v]
      | ok =>
        obtain ⟨text, htext, -, hwritten⟩ := hfiles
        simp only at hfile ⊢
        rw [hfile, hwritten, if_pos rfl]
        exact .written (by rw [htried, List.getElem?_concat_length]) htext rfl

end DosConsole.Snapshot
