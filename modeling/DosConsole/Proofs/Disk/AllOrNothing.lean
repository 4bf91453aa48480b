import DosConsole.Proofs.Disk.Place
import DosConsole.Proofs.Disk.Replace

/-!
# All or nothing

Putting a document in the place of a file either fails, with every file as before, or succeeds, and
then the file that the location leads to holds the text of the document and every other file is as
before (`allOrNothing_replaceDocument`). Directories may have been made in either case.

The document goes to a file with a fresh name first. That name is settled, so that the same file is
filled, moved and, if anything fails, removed; and since nothing was there before, nothing of it is
left in the end.
-/

namespace DosConsole.Disk

variable {d after : Disk} {l p q t : Location}

/-! ### Files -/

/-- The content of the file at a place, if there is a file. -/
def file? (d : Disk) (place : Location) : Option ByteArray :=
  match d.at? place with
  | some (.file content) => some content
  | _ => none

/-- The files of both disks are the **same**, by their places and their contents. -/
def SameFiles (d after : Disk) : Prop :=
  ∀ place, after.file? place = d.file? place

theorem file?_eq_none (h : d.at? p = none) : d.file? p = none := by
  rw [file?, h]

theorem file?_put (h : p.isOuter = false) (content : ByteArray) (q : Location) :
    (d.put p (.file content)).file? q = if q = p then some content else d.file? q := by
  rw [file?, at?_put h, file?]
  by_cases hq : q = p
  · rw [if_pos hq, if_pos hq]
  · rw [if_neg hq, if_neg hq]

theorem file?_take (h : p.isOuter = false) (q : Location) :
    (d.take p).file? q = if q = p then none else d.file? q := by
  rw [file?, at?_take h, file?]
  by_cases hq : q = p
  · rw [if_pos hq, if_pos hq]
  · rw [if_neg hq, if_neg hq]

/-- A directory that is made where nothing is leaves all files. -/
theorem sameFiles_put_directory (h : d.at? p = none) : SameFiles d (d.put p .directory) := by
  intro q
  have hinner : p.isOuter = false := isOuter_of_at?_ne (by rw [h]; simp)
  rw [file?, at?_put hinner, file?]
  by_cases hq : q = p
  · rw [if_pos hq, hq, h]
  · rw [if_neg hq]

/-! ### Making directories -/

theorem sameFiles_makeDirectory (h : d.makeDirectory l = .ok after) : SameFiles d after := by
  rw [makeDirectory] at h
  split at h
  · exact absurd h (by simp)
  · split at h
    · exact absurd h (by simp)
    · rename_i hfree
      obtain rfl := Except.ok.inj h
      exact sameFiles_put_directory hfree

theorem sameFiles_ensureDirectory (d : Disk) (l : Location) :
    SameFiles d (d.ensureDirectory l).1 := by
  rw [ensureDirectory]
  split
  · rename_i hmade
    exact sameFiles_makeDirectory hmade
  · exact fun _ => rfl

theorem sameFiles_ensureTrail (d : Disk) (anchor : Anchor) (limit : Nat) (trail : List Text) :
    SameFiles d (d.ensureTrail anchor limit trail).1 := by
  induction trail generalizing limit with
  | nil =>
    rw [ensureTrail]
    exact sameFiles_ensureDirectory d _
  | cons part around ih =>
    cases limit with
    | zero =>
      rw [ensureTrail]
      exact fun _ => rfl
    | succ limit =>
      have haround := ih limit
      rw [ensureTrail]
      split
      · rename_i hmade
        exact sameFiles_makeDirectory hmade
      · split
        · rename_i hfails
          rw [hfails] at haround
          exact haround
        · rename_i hsucceeds
          rw [hsucceeds] at haround
          exact fun place => (sameFiles_ensureDirectory _ _ place).trans (haround place)
      · exact fun _ => rfl

/-- Making directories leaves all files, also when it fails part way. -/
theorem sameFiles_ensureDirectories (d : Disk) (l : Location) :
    SameFiles d (d.ensureDirectories l).1 :=
  sameFiles_ensureTrail d _ _ _

/-! ### A temporary file -/

/-- What is written to a location goes to its place, where no directory is. -/
theorem writeText_eq_ok {text : String} (h : d.writeText l text = .ok after) :
    d.place l = .ok l.landing ∧ d.at? l.landing ≠ some .directory ∧
      after = d.put l.landing (.file text.toUTF8) := by
  rw [writeText, write] at h
  cases hplace : d.place l with
  | error e => rw [hplace] at h; cases h
  | ok p =>
    rw [hplace] at h
    simp only at h
    obtain rfl := place_eq_ok hplace
    split at h
    · cases h
    · rename_i hp
      exact ⟨rfl, hp, (Except.ok.inj h).symm⟩

/-- What is moved from its own place goes to the place of its target, where no directory is. -/
theorem replace_eq_ok {source target : Location} {content : ByteArray}
    (h : d.replace source target = .ok after) (hread : d.read source = .ok content)
    (hplace : d.place source = .ok source) :
    d.place target = .ok target.landing ∧ d.at? target.landing ≠ some .directory ∧
      after = (d.take source).put target.landing (.file content) := by
  rw [replace, hread] at h
  cases htarget : d.place target with
  | error e => rw [htarget] at h; cases h
  | ok p =>
    rw [htarget] at h
    simp only [remove, hplace] at h
    obtain rfl := place_eq_ok htarget
    split at h
    · cases h
    · rename_i hp
      exact ⟨rfl, hp, (Except.ok.inj h).symm⟩

/-- A location is a **fresh** place when it lands on itself, where nothing is, and it can be reached
there. -/
structure IsFresh (d : Disk) (t : Location) : Prop where
  settled : t.landing = t
  free : d.at? t = none
  place : d.place t = .ok t

namespace IsFresh

theorem not_directory (h : d.IsFresh t) : d.at? t ≠ some .directory := by
  rw [h.free]
  simp

theorem isOuter_eq (h : d.IsFresh t) : t.isOuter = false :=
  isOuter_of_at?_ne h.not_directory

/-- A file at a fresh place is found there again. -/
theorem place_put (h : d.IsFresh t) (content : ByteArray) :
    (d.put t (.file content)).place t = .ok t :=
  place_of_keepsDirectories (keepsDirectories_put h.not_directory _) h.place

/-- Without it there are the files that were there before. -/
theorem sameFiles_take_put (h : d.IsFresh t) (content : ByteArray) :
    SameFiles d ((d.put t (.file content)).take t) := by
  intro q
  rw [file?_take h.isOuter_eq, file?_put h.isOuter_eq]
  by_cases hq : q = t
  · rw [if_pos hq, hq, file?_eq_none h.free]
  · rw [if_neg hq, if_neg hq]

/-- A text that is written to it again and moved on is found where it was moved to, and no other
file is another one than before. -/
theorem replace_put (h : d.IsFresh t) {content : ByteArray}
    (hmoved : (d.put t (.file content)).replace t l = .ok after) :
    after.place l = .ok l.landing ∧
      ∀ p, after.file? p = if p = l.landing then some content else d.file? p := by
  have hread := read_put h.place h.not_directory content
  obtain ⟨hplace, hdirectory, rfl⟩ := replace_eq_ok hmoved hread (h.place_put content)
  have htaken : ((d.put t (.file content)).take t).at? l.landing ≠ some .directory := by
    rw [at?_take h.isOuter_eq]
    split
    · simp
    · exact hdirectory
  have hfile : (d.put t (.file content)).at? t ≠ some .directory := by
    rw [at?_put h.isOuter_eq, if_pos rfl]
    simp
  refine ⟨?_, fun p => ?_⟩
  · exact place_of_keepsDirectories (keepsDirectories_put htaken _)
      (place_of_keepsDirectories (keepsDirectories_take hfile) hplace)
  · rw [file?_put (isOuter_of_at?_ne htaken), h.sameFiles_take_put]

end IsFresh

/-! ### Putting a document in the place of a file -/

variable {v : Json}

/-- Putting a file at a place twice is putting the second one there. -/
theorem put_put (d : Disk) (p : Location) (e f : DiskEntry) : (d.put p e).put p f = d.put p f := by
  simp [put, List.filter_append]

/-- What the completion of a temporary file at a fresh place comes to: the file that the location
leads to holds the text of the document, and every other file is as before. -/
theorem complete_eq_ok (h : d.IsFresh t) {content : ByteArray}
    (hcomplete : (d.put t (.file content)).complete t l v = .ok after) :
    ∃ text, Json.write? v = .ok text ∧ after.place l = .ok l.landing ∧
      ∀ p, after.file? p = if p = l.landing then some text.toUTF8 else d.file? p := by
  rw [complete] at hcomplete
  split at hcomplete
  · exact absurd hcomplete (by simp)
  · rename_i filled hfilled
    obtain ⟨htrouble, htext⟩ := fill_eq_ok hfilled
    refine ⟨_, Json.write?_of_trouble htrouble, ?_⟩
    obtain ⟨-, -, rfl⟩ := writeText_eq_ok htext
    rw [h.settled, put_put] at hcomplete
    cases hmoved : (d.put t (.file v.written.text.toUTF8)).replace t l with
    | error e => rw [hmoved] at hcomplete; cases hcomplete
    | ok moved =>
      rw [hmoved] at hcomplete
      obtain rfl : moved = after := Except.ok.inj hcomplete
      exact h.replace_put hmoved

/-- What becomes of the files when a document is put in the place of one: **all or nothing**. -/
def AllOrNothing (d : Disk) (l : Location) (v : Json) : Disk × Except DocumentError Unit → Prop
  | (after, .error _) => SameFiles d after
  | (after, .ok ()) => ∃ text, Json.write? v = .ok text ∧ after.place l = .ok l.landing ∧
      ∀ p, after.file? p = if p = l.landing then some text.toUTF8 else d.file? p

/-- **All or nothing.** Whatever is on the disk and whatever the document is, if it cannot be put in
the place of the file then every file is as before, and if it can then the file that the location
leads to holds its text and every other file is as before. -/
theorem allOrNothing_replaceDocument (d : Disk) (l : Location) (v : Json) :
    AllOrNothing d l v (d.replaceDocument l v) := by
  have hmade := sameFiles_ensureDirectories d l.parent
  rw [replaceDocument]
  split
  · rename_i made e hdirectories
    rw [hdirectories] at hmade
    exact hmade
  · rename_i made hdirectories
    rw [hdirectories] at hmade
    split
    · exact hmade
    · rename_i t hfresh
      obtain ⟨directory, n, hdirectory, ht, hfree⟩ := freshBeside_eq_ok hfresh
      split
      · exact hmade
      · rename_i opened hopened
        obtain ⟨hplace, -, rfl⟩ := writeText_eq_ok hopened
        have hsettled : t.landing = t := by
          rw [ht, temporary_eq]
          rw [place_eq_ok hdirectory]
          exact ((l.parent.isSettled_landing).child (temporaryName_ne_up _ _)).landing_eq
        rw [hsettled] at hplace ⊢
        have hfreshPlace : made.IsFresh t := ⟨hsettled, hfree, hplace⟩
        split
        · rename_i e hfails
          rw [remove, hfreshPlace.place_put]
          exact fun p => (hfreshPlace.sameFiles_take_put _ p).trans (hmade p)
        · rename_i after hcomplete
          obtain ⟨text, htext, hleads, hfiles⟩ := complete_eq_ok hfreshPlace hcomplete
          refine ⟨text, htext, hleads, fun p => ?_⟩
          rw [hfiles, hmade]

end DosConsole.Disk
