import DosConsole.Disk.Document
import DosConsole.Proofs.Json.Writing

/-!
# Files that take the place of others

A location is led to its place over directories only. So whatever happens to files, it stays led to
the same place as long as the directories stay (`place_of_keepsDirectories`). Hence what was written
to a location is read from it (`read_of_write`), a file that was moved is read where it was moved to
(`read_of_replace`), and a document that was put in the place of another, or written over it, is
read afterwards (`read_of_replaceDocument`, `read_of_writeDocument`), whatever was there before. As
a value it is read back if the format is faithful to it (`Json.IsFaithful`).
-/

namespace DosConsole

/-- The text that is written of a value is read as that value. -/
def Json.IsFaithful (v : Json) : Prop :=
  ∀ text, write? v = .ok text → readBytes text.toUTF8 = .ok v

theorem Json.isFaithful_of_text {v : Json} (h : readBytes v.text.toUTF8 = .ok v) :
    v.IsFaithful := by
  intro text htext
  rw [text_of_write? htext]
  exact h

namespace Disk

variable {d after : Disk} {p q : Location}

/-! ### Single places -/

theorem at?_of_isOuter (d : Disk) (h : p.isOuter = true) : d.at? p = some .directory := by
  rw [at?, if_pos h]

theorem isOuter_of_at?_ne (h : d.at? p ≠ some .directory) : p.isOuter = false :=
  Bool.eq_false_iff.mpr fun houter => h (at?_of_isOuter d houter)

/-- Without the entries at a place nothing stands there, and what stands elsewhere stays. -/
theorem lookup_filter_ne (entries : List (Location × DiskEntry)) (p q : Location) :
    (entries.filter (·.1 ≠ p)).lookup q = if q = p then none else entries.lookup q := by
  induction entries with
  | nil => exact (ite_self _).symm
  | cons entry rest ih =>
    obtain ⟨place, e⟩ := entry
    by_cases hplace : place = p
    · rw [List.filter_cons_of_neg (by simpa using hplace), ih]
      split
      · rfl
      · rename_i hq
        rw [List.lookup_cons, beq_eq_false_iff_ne.mpr fun heq => hq (heq.trans hplace)]
    · rw [List.filter_cons_of_pos (by simpa using hplace), List.lookup_cons, List.lookup_cons, ih]
      by_cases hq : q = place
      · subst hq
        rw [beq_self_eq_true, if_neg hplace, if_neg hplace]
      · rw [beq_eq_false_iff_ne.mpr hq]

/-- An entry that is put at a place is there, and all others are as before. -/
theorem at?_put (hp : p.isOuter = false) (e : DiskEntry) (q : Location) :
    (d.put p e).at? q = if q = p then some e else d.at? q := by
  rw [at?, at?, put, List.lookup_append, lookup_filter_ne, List.lookup_cons, List.lookup_nil]
  by_cases hq : q = p
  · subst hq
    rw [hp, if_pos rfl, if_pos rfl, beq_self_eq_true]
    rfl
  · rw [if_neg hq, if_neg hq, beq_eq_false_iff_ne.mpr hq]
    split
    · rfl
    · exact Option.or_none

/-- An entry that is taken away is gone, and all others are as before. -/
theorem at?_take (hp : p.isOuter = false) (q : Location) :
    (d.take p).at? q = if q = p then none else d.at? q := by
  rw [at?, at?, take, lookup_filter_ne]
  by_cases hq : q = p
  · subst hq
    rw [hp, if_pos rfl, if_pos rfl]
    rfl
  · rw [if_neg hq, if_neg hq]

/-! ### The way to a place -/

/-- Every directory of one disk is a directory of the other. -/
def KeepsDirectories (d after : Disk) : Prop :=
  ∀ place, d.at? place = some .directory → after.at? place = some .directory

/-- What is put where no directory is leaves all directories. -/
theorem keepsDirectories_put (h : d.at? p ≠ some .directory) (e : DiskEntry) :
    KeepsDirectories d (d.put p e) := by
  intro place hplace
  have hne : place ≠ p := fun heq => h (heq ▸ hplace)
  rw [at?_put (isOuter_of_at?_ne h), if_neg hne, hplace]

/-- What is taken away and is no directory leaves all directories. -/
theorem keepsDirectories_take (h : d.at? p ≠ some .directory) : KeepsDirectories d (d.take p) := by
  intro place hplace
  have hne : place ≠ p := fun heq => h (heq ▸ hplace)
  rw [at?_take (isOuter_of_at?_ne h), if_neg hne, hplace]

/-- A way that leads to a place leads there as long as the directories stay. -/
theorem walk_of_keepsDirectories (h : KeepsDirectories d after) {l start : Location}
    {parts : List Text} (hwalk : d.walk l start parts = .ok p) :
    after.walk l start parts = .ok p := by
  induction parts generalizing start with
  | nil => exact hwalk
  | cons part rest ih =>
    rw [walk] at hwalk ⊢
    split at hwalk
    · exact absurd hwalk (by simp)
    · exact absurd hwalk (by simp)
    · rename_i hdirectory
      rw [h start hdirectory]
      simp only
      split at hwalk
      · exact absurd hwalk (by simp)
      · rename_i hsize
        rw [if_neg hsize]
        exact ih hwalk

/-- A location is led to the same place as long as the directories stay. -/
theorem place_of_keepsDirectories (h : KeepsDirectories d after) {l : Location}
    (hplace : d.place l = .ok p) : after.place l = .ok p := by
  rw [place] at hplace ⊢
  split at hplace
  · exact absurd hplace (by simp)
  · split at hplace
    · exact absurd hplace (by simp)
    · rename_i hsize
      simp only [if_neg hsize]
      exact walk_of_keepsDirectories h hplace

/-! ### Reading what was written -/

variable {l source target : Location} {content : ByteArray}

theorem read_eq_ok_iff :
    d.read l = .ok content ↔ ∃ p, d.place l = .ok p ∧ d.at? p = some (.file content) := by
  rw [read]
  cases d.place l with
  | error e => simp
  | ok p =>
    cases hp : d.at? p with
    | none => simp [hp]
    | some e =>
      cases e with
      | directory => simp [hp]
      | file other => simp [hp]

/-- What can be read is there. -/
theorem has_of_read (h : d.read l = .ok content) : d.has l = .ok true := by
  obtain ⟨p, hplace, hp⟩ := read_eq_ok_iff.mp h
  rw [has, find?, hplace]
  simp only [hp, Option.isSome_some]

/-- A file that is put where no directory is, at the place of a location, is read from there. -/
theorem read_put (hplace : d.place l = .ok p) (hp : d.at? p ≠ some .directory)
    (content : ByteArray) : (d.put p (.file content)).read l = .ok content := by
  refine read_eq_ok_iff.mpr ⟨p, ?_, ?_⟩
  · exact place_of_keepsDirectories (keepsDirectories_put hp _) hplace
  · rw [at?_put (isOuter_of_at?_ne hp), if_pos rfl]

/-- What was written to a location is read from it. -/
theorem read_of_write (h : d.write l content = .ok after) : after.read l = .ok content := by
  rw [write] at h
  split at h
  · exact absurd h (by simp)
  · rename_i p hplace
    split at h
    · exact absurd h (by simp)
    · rename_i hp
      obtain rfl := Except.ok.inj h
      exact read_put hplace (fun heq => hp heq) content

/-- A file that was moved is read where it was moved to. -/
theorem read_of_replace (h : d.replace source target = .ok after)
    (hsource : d.read source = .ok content) : after.read target = .ok content := by
  obtain ⟨q, hq, hfile⟩ := read_eq_ok_iff.mp hsource
  have hnotDirectory : d.at? q ≠ some .directory := by
    rw [hfile]
    simp
  rw [replace, hsource] at h
  simp only [remove, hq] at h
  split at h
  · exact absurd h (by simp)
  · rename_i p hplace
    split at h
    · exact absurd h (by simp)
    · rename_i hp
      obtain rfl := Except.ok.inj h
      -- the source was a file, so that without it the way to the target is the same
      refine read_put (place_of_keepsDirectories (keepsDirectories_take hnotDirectory) hplace) ?_ _
      rw [at?_take (isOuter_of_at?_ne hnotDirectory)]
      split
      · simp
      · exact fun heq => hp heq

theorem read_of_writeText {text : String} (h : d.writeText l text = .ok after) :
    after.read l = .ok text.toUTF8 := by
  rw [writeText] at h
  cases hwrite : d.write l text.toUTF8 with
  | error e => rw [hwrite] at h; cases h
  | ok written =>
    rw [hwrite] at h
    obtain rfl : written = after := Except.ok.inj h
    exact read_of_write hwrite

/-- A file is filled if all was written and the disk takes it. -/
theorem fill_eq_ok {w : Json.Written} (h : d.fill l w = (after, .ok ())) :
    w.trouble = none ∧ d.writeText l w.text = .ok after := by
  rw [fill] at h
  split at h
  · exact absurd (Prod.mk.inj h).2 (by simp)
  · rename_i htext htrouble
    exact ⟨htrouble, htext.trans (congrArg _ (Prod.mk.inj h).1)⟩
  · exact absurd (Prod.mk.inj h).2 (by simp)

/-- The text of the value is read where the file was moved to. -/
theorem read_of_complete {v : Json} (h : d.complete source target v = .ok after) :
    ∃ text, Json.write? v = .ok text ∧ after.read target = .ok text.toUTF8 := by
  rw [complete] at h
  split at h
  · exact absurd h (by simp)
  · rename_i filled hfilled
    obtain ⟨htrouble, htext⟩ := fill_eq_ok hfilled
    refine ⟨_, Json.write?_of_trouble htrouble, ?_⟩
    cases hmove : filled.replace source target with
    | error e => rw [hmove] at h; cases h
    | ok moved =>
      rw [hmove] at h
      obtain rfl : moved = after := Except.ok.inj h
      exact read_of_replace hmove (read_of_writeText htext)

/-- A document that was put in the place of a file is the one that is there afterwards. -/
theorem read_of_replaceDocument {v : Json} (h : (d.replaceDocument l v).2 = .ok ()) :
    ∃ text, Json.write? v = .ok text ∧ (d.replaceDocument l v).1.read l = .ok text.toUTF8 := by
  rw [replaceDocument] at h ⊢
  split at h
  · exact absurd h (by simp)
  · split at h
    · exact absurd h (by simp)
    · split at h
      · exact absurd h (by simp)
      · split at h
        · exact absurd h (by simp)
        · rename_i hcomplete
          exact read_of_complete hcomplete

/-- What was written to its end over a file is the text that is there afterwards. -/
theorem read_of_writeOver {w : Json.Written} (h : (d.writeOver l w).2 = .ok ()) :
    w.trouble = none ∧ (d.writeOver l w).1.read l = .ok w.text.toUTF8 := by
  rw [writeOver] at h ⊢
  split at h
  · exact absurd h (by simp)
  · split at h
    · exact absurd h (by simp)
    · rename_i opened hopened
      obtain ⟨htrouble, htext⟩ := fill_eq_ok (Prod.ext rfl h)
      exact ⟨htrouble, read_of_writeText htext⟩

/-- A document that was written over a file is the one that is there afterwards. -/
theorem read_of_writeDocument {v : Json} (h : (d.writeDocument l v).2 = .ok ()) :
    ∃ text, Json.write? v = .ok text ∧ (d.writeDocument l v).1.read l = .ok text.toUTF8 := by
  obtain ⟨htrouble, hread⟩ := read_of_writeOver h
  exact ⟨_, Json.write?_of_trouble htrouble, hread⟩

/-- The value that a document was written of is read from it. -/
theorem readDocument_of_read {v : Json} {text : String} (h : d.read l = .ok text.toUTF8)
    (htext : Json.write? v = .ok text) (hfaithful : v.IsFaithful) : d.readDocument l = .ok v := by
  rw [readDocument, h]
  simp only [hfaithful text htext]
  rfl

/-- A location from which a value is read is taken. -/
theorem has_of_readDocument {v : Json} (h : d.readDocument l = .ok v) : d.has l = .ok true := by
  rw [readDocument] at h
  split at h
  · exact absurd h (by simp)
  · rename_i hread
    exact has_of_read hread

end Disk

end DosConsole
