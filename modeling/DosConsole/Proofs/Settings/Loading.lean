import DosConsole.Proofs.Disk.Replace
import DosConsole.Proofs.Settings.Memory
import DosConsole.Proofs.Settings.Merging
import DosConsole.Proofs.Settings.Reading
import DosConsole.Settings.File

/-!
# Settings over defaults

What is read from the settings file is laid over the defaults. Settings that came of this are
**settled**: to lay them over the defaults again changes nothing, and no object of theirs stands in
two places (`Settings.IsSettled`). Hence settings that were saved are loaded as they are
(`Settings.IsSettled.load_of_save`), as long as the format is faithful to them, even though the
defaults are merged into what already holds them.

All of this rests on objects having each key once, which is so for everything that is read.
-/

namespace DosConsole.Settings

open Json

/-! ### The objects of the settings -/

/-- No object of the settings stands in two places. -/
def IsPlaced (s : Settings) : Prop :=
  ∃ met, s.memory.Reads [.object s.root] [.object s.values] met ∧ met.Nodup

section IsPlaced

variable {s : Settings}

/-- The values are those that are found behind the object of all values. -/
theorem values_eq {fields : Fields} {met : List Nat}
    (h : s.memory.Reads [.object s.root] [.object fields] met) (hnodup : met.Nodup) :
    s.values = fields :=
  Json.object.inj (h.value_eq hnodup)

theorem isPlaced_of_reads {fields : Fields} {met : List Nat}
    (h : s.memory.Reads [.object s.root] [.object fields] met) (hnodup : met.Nodup) :
    s.IsPlaced := by
  obtain rfl := values_eq h hnodup
  exact ⟨met, h, hnodup⟩

/-- Keys lead to the same by reference as in the values. -/
theorem IsPlaced.get?_eq (h : s.IsPlaced) (key : Text) :
    s.get? key = (Json.object s.values).valueAt? (steps key) := by
  obtain ⟨met, hreads, hnodup⟩ := h
  rw [get?, find?]
  obtain ⟨hnone, hnone'⟩ | ⟨r, v, inner, hr, hv, hinner, hsub⟩ := hreads.follow? (steps key)
  · rw [hnone, hnone']
    rfl
  · rw [hr, hv, Option.map_some, hinner.value_eq (hnodup.sublist hsub)]

/-- What is written of the settings is what is written of their values. -/
theorem IsPlaced.written_eq (h : s.IsPlaced) : s.written = (Json.object s.values).written := by
  obtain ⟨met, hreads, hnodup⟩ := h
  exact hreads.written_eq hnodup

theorem reads_holding (l : Location) (fields : Fields) :
    ∃ met, (holding l fields).memory.Reads [.object (holding l fields).root] [.object fields] met ∧
      met.Nodup := by
  obtain ⟨hmade, hkeys⟩ := Memory.empty.made_makeFields fields
  obtain ⟨met, hreads, hnodup, -⟩ := (hmade.object hkeys).reads
  exact ⟨met, hreads, hnodup⟩

theorem values_holding (l : Location) (fields : Fields) : (holding l fields).values = fields := by
  obtain ⟨met, hreads, hnodup⟩ := reads_holding l fields
  exact values_eq hreads hnodup

/-- Settings that are made have new objects. -/
theorem isPlaced_holding (l : Location) (fields : Fields) : (holding l fields).IsPlaced := by
  obtain ⟨met, hreads, hnodup⟩ := reads_holding l fields
  exact isPlaced_of_reads hreads hnodup

end IsPlaced

/-! ### Settled settings -/

/-- The settings are **settled** on the defaults. -/
structure IsSettled (s : Settings) : Prop where
  proper : (Json.object s.values).IsProper
  rests : mergeFields defaults s.values = s.values
  placed : s.IsPlaced

theorem isProper_defaults : (Json.object defaults).IsProper := by
  refine .object (by decide) ?_
  simp only [defaults, List.forall_mem_cons]
  refine ⟨.object (by decide) ?_, .object (by decide) ?_, .object (by decide) ?_,
    List.forall_mem_nil _⟩
  · simp [IsProper.str, IsProper.int]
  · simp [IsProper.str, IsProper.bool]
  · simp [IsProper.bool]

/-! ### Loading -/

variable {d : Disk} {l : Location}

theorem isSettled_holding {fields : Fields} (hproper : (Json.object fields).IsProper)
    (hrests : mergeFields defaults fields = fields) (l : Location) :
    (holding l fields).IsSettled := by
  refine ⟨?_, ?_, isPlaced_holding l fields⟩
  · rw [values_holding]
    exact hproper
  · rw [values_holding]
    exact hrests

theorem isSettled_defaults (l : Location) : (holding l defaults).IsSettled :=
  isSettled_holding isProper_defaults (Json.object.inj (overlay_object_object.symm.trans
    (overlay_self isProper_defaults))) l

/-- Proper fields that are laid over the defaults are settled. -/
theorem isSettled_mergeFields {fields : Fields} (h : (Json.object fields).IsProper) (l : Location) :
    (holding l (mergeFields defaults fields)).IsSettled :=
  isSettled_holding (h.mergeFields isProper_defaults) (mergeFields_absorb h isProper_defaults) l

theorem isProper_of_readDocument {v : Json} (h : d.readDocument l = .ok v) : v.IsProper := by
  rw [Disk.readDocument] at h
  split at h
  · exact absurd h (by simp)
  · rename_i bytes hread
    rcases hvalue : readBytes bytes with e | w
    · rw [hvalue] at h
      exact absurd h (by simp [Except.mapError])
    · rw [hvalue] at h
      exact Except.ok.inj h ▸ isProper_of_readBytes hvalue

theorem load_of_readDocument {fields : Fields} (h : d.readDocument l = .ok (.object fields)) :
    load d l = (d, .ok (holding l (mergeFields defaults fields), [])) := by
  rw [load, Disk.has_of_readDocument h]
  simp only [h]
  rfl

/-- What is loaded, from whatever is on the disk, are the defaults, or what was read laid over
them. -/
theorem load_cases {after : Disk} {s : Settings} {notices : List Notice}
    (h : load d l = (after, .ok (s, notices))) :
    s = holding l defaults ∨
      ∃ fields, (Json.object fields).IsProper ∧ s = holding l (mergeFields defaults fields) := by
  rw [load] at h
  split at h
  · exact absurd h (by simp)
  · -- there is a file
    split at h
    · rename_i v hread
      have hproper := isProper_of_readDocument hread
      have hdocument := Except.ok.inj (Prod.mk.inj h).2
      unfold ofDocument at hdocument
      split at hdocument
      · exact .inr ⟨_, hproper, (Prod.mk.inj hdocument).1.symm⟩
      · exact .inl (Prod.mk.inj hdocument).1.symm
    · obtain ⟨-, hloaded⟩ := Prod.mk.inj h
      split at hloaded
      · exact .inl (Prod.mk.inj (Except.ok.inj hloaded)).1.symm
      · exact absurd hloaded (by simp)
  · -- there is none, and one with the defaults is written
    split at h
    · exact .inl (Prod.mk.inj (Except.ok.inj (Prod.mk.inj h).2)).1.symm
    · obtain ⟨-, hloaded⟩ := Prod.mk.inj h
      split at hloaded
      · exact .inl (Prod.mk.inj (Except.ok.inj hloaded)).1.symm
      · exact absurd hloaded (by simp)

/-- What is loaded is settled, and has the location it was loaded from. -/
theorem settled_of_load {after : Disk} {s : Settings} {notices : List Notice}
    (h : load d l = (after, .ok (s, notices))) : s.IsSettled ∧ s.location = l := by
  obtain rfl | ⟨fields, hproper, rfl⟩ := load_cases h
  · exact ⟨isSettled_defaults l, rfl⟩
  · exact ⟨isSettled_mergeFields hproper l, rfl⟩

/-! ### Saving -/

/-- To save the settings themselves is to write what is written of them over the file. -/
theorem save_null (s : Settings) (d : Disk) :
    s.save d .null = ((d.writeOver s.location s.written).1,
      (d.writeOver s.location s.written).2.mapError .document) := by
  have hwritten : (if Json.null.isTrue then Json.null.written else s.written) = s.written := rfl
  rw [save, hwritten]
  split
  · rename_i after hwritten
    rw [hwritten]
    rfl
  · rename_i after e hwritten
    rw [hwritten]
    rfl

/-- Settings are saved if their document is written, and otherwise it tells why not. -/
theorem save_cases (s : Settings) (d : Disk) :
    ((s.save d .null).2 = .ok () ∧ (d.writeOver s.location s.written).2 = .ok ()) ∨
      ∃ cause, (s.save d .null).2 = .error (.document cause) := by
  rw [save_null]
  rcases (d.writeOver s.location s.written).2 with cause | ⟨⟩
  · exact .inr ⟨cause, rfl⟩
  · exact .inl ⟨rfl, rfl⟩

/-- Settings that were saved are loaded as they are, without the overrides. -/
theorem IsSettled.load_of_save {s : Settings} (hsettled : s.IsSettled)
    (hsave : (s.save d .null).2 = .ok ()) (hfaithful : (Json.object s.values).IsFaithful) :
    load (s.save d .null).1 s.location =
      ((s.save d .null).1, .ok (holding s.location s.values, [])) := by
  obtain ⟨-, hwritten⟩ | ⟨cause, hcause⟩ := save_cases s d
  · rw [hsettled.placed.written_eq] at hwritten
    obtain ⟨text, htext, hread⟩ := Disk.read_of_writeDocument hwritten
    have hvalues := load_of_readDocument (Disk.readDocument_of_read hread htext hfaithful)
    rw [save_null, hsettled.placed.written_eq]
    rwa [hsettled.rests] at hvalues
  · exact absurd (hcause.symm.trans hsave) (by simp)

/-- **Merging over the defaults.** Laying one object over another follows the law of merging, and
doing so again changes nothing. A file that holds an object is loaded as that object laid over the
defaults, and settings so loaded come back as they are when they were saved. -/
theorem merging_over_defaults {lower upper : Fields} (hupper : (Json.object upper).IsProper) :
    LaidOver upper lower (mergeFields lower upper) ∧
      mergeFields (mergeFields lower upper) upper = mergeFields lower upper ∧
      ∀ (d : Disk) (l : Location) (fields : Fields), d.readDocument l = .ok (.object fields) →
        ∃ s, load d l = (d, .ok (s, [])) ∧ s.values = mergeFields defaults fields ∧
          ((s.save d .null).2 = .ok () → (Json.object s.values).IsFaithful →
            load (s.save d .null).1 l = ((s.save d .null).1, .ok (s, []))) := by
  refine ⟨laidOver_mergeFields hupper, mergeFields_again hupper, fun d l fields hread => ?_⟩
  refine ⟨_, load_of_readDocument hread, values_holding l _, fun hsave hfaithful => ?_⟩
  have hagain := (isSettled_mergeFields (isProper_of_readDocument hread) l).load_of_save hsave
    hfaithful
  rwa [values_holding] at hagain

/-- Fields that go into an object of the defaults, take the place of one, and are new. -/
def edited : Fields := [
  ("shell", .object [("username", .str "ALICE"), ("prompt", .null)]), ("storage", .int 5),
  ("extra", .object [])]

/-- Fields that take the place of all defaults. -/
def bare : Fields := [("shell", .int 0), ("storage", .int 1), ("filesystem", .int 2)]

/-- A disk with a settings file in which these fields stand. -/
def ofBare : Disk :=
  ⟨0, [(⟨.here, ["settings"]⟩,
    .file "\x7b\"shell\":0,\"storage\":1,\"filesystem\":2\x7d".toUTF8)]⟩

theorem isFaithful_bare : (Json.object bare).IsFaithful :=
  isFaithful_of_text (by with_unfolding_all rfl)

/-- Edited fields have their places among the defaults, and settings that were loaded are loaded
again after they were saved. -/
theorem merging_over_defaults_edited :
    let l : Location := ⟨.here, ["settings"]⟩
    let merged : Fields := [
      ("shell", .object [("username", .str "ALICE"), ("history_size", .int 1000),
        ("prompt", .null)]),
      ("storage", .int 5), ("filesystem", .object [("strict_rm", .bool false)]),
      ("extra", .object [])]
    (Json.object edited).IsProper ∧ LaidOver edited defaults merged ∧
      mergeFields merged edited = merged ∧
      ∃ s, load ofBare l = (ofBare, .ok (s, [])) ∧ s.values = bare ∧
        load (s.save ofBare .null).1 l = ((s.save ofBare .null).1, .ok (s, [])) := by
  intro l merged
  have hproper : (Json.object edited).IsProper := by
    refine .object (by decide) ?_
    simp only [edited, List.forall_mem_cons]
    refine ⟨.object (by decide) ?_, .int 5, isProper_empty, List.forall_mem_nil _⟩
    simp [IsProper.str, IsProper.null]
  have hmerged : mergeFields defaults edited = merged := by with_unfolding_all rfl
  have hbare : mergeFields defaults bare = bare := by with_unfolding_all rfl
  have hread : ofBare.readDocument l = .ok (.object bare) := by with_unfolding_all rfl
  obtain ⟨hlaid, hagain, hload⟩ := @merging_over_defaults defaults edited hproper
  obtain ⟨s, hs, hvalues, hreload⟩ := hload ofBare l bare hread
  obtain rfl : holding l bare = s := by
    have hholding := load_of_readDocument hread
    rw [hbare, hs] at hholding
    exact (Prod.mk.inj (Except.ok.inj (Prod.mk.inj hholding).2)).1.symm
  rw [hmerged] at hlaid hagain
  exact ⟨hproper, hlaid, hagain, _, hs, rfl, hreload (by with_unfolding_all rfl) isFaithful_bare⟩

end DosConsole.Settings
