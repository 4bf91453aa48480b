import DosConsole.Disk.Basic
import Mathlib.Data.List.Nodup

/-!
# Where a location leads

If everything on the way is a directory, then where a location leads does not depend on the disk: it
is its **landing**. Whatever is landed on is **settled**, and a settled location lands on itself, so
that a place can be reached by its own name.

The temporary name for a new file beside an old one is settled when its directory is. It is always
fresh: the names in question differ, and there is one more of them than entries on the disk
(`freshBeside_eq_ok`).
-/

namespace DosConsole

namespace Location

/-- Where the parts of a location lead when directories are on the way. -/
def landing (l : Location) : Location :=
  l.parts.foldl step l.start

/-- A location is **settled** when it starts where places do and goes up only at first, where no
name is before it. -/
inductive IsSettled : Location → Prop
  | around (depth : Nat) : IsSettled ⟨.here, List.replicate depth ".."⟩
  | root : IsSettled ⟨.root, []⟩
  | child {l : Location} {part : Text} (around : IsSettled l) (named : part ≠ "..") :
      IsSettled (l.child part)

theorem step_of_ne (l : Location) {part : Text} (h : part ≠ "..") : l.step part = l.child part := by
  rw [step, if_neg h]

theorem isOuter_child (l : Location) {part : Text} (h : part ≠ "..") :
    (l.child part).isOuter = false := by
  simp [isOuter, child, h]

theorem parent_child (l : Location) (part : Text) : (l.child part).parent = l := by
  simp [parent, child]

theorem landing_child (l : Location) (part : Text) :
    (l.child part).landing = l.landing.step part := by
  rw [landing, child, List.foldl_append]
  rfl

theorem isSettled_start (l : Location) : l.start.IsSettled := by
  rw [start]
  split
  · exact .around 0
  · exact .root

theorem up_around (depth : Nat) :
    up ⟨.here, List.replicate depth ".."⟩ = ⟨.here, List.replicate (depth + 1) ".."⟩ := by
  have houter : isOuter ⟨.here, List.replicate depth ".."⟩ = true := by
    simp [isOuter]
  rw [up, houter, child, List.replicate_succ']
  rfl

/-- A step from a settled location leads to a settled one. -/
theorem IsSettled.step {l : Location} (h : l.IsSettled) (part : Text) :
    (l.step part).IsSettled := by
  by_cases hpart : part = ".."
  · rw [Location.step, if_pos hpart]
    cases h with
    | around depth =>
      rw [up_around]
      exact .around (depth + 1)
    | root => exact .root
    | @child around part inside named =>
      rw [up, isOuter_child around named, parent_child]
      exact inside
  · rw [step_of_ne l hpart]
    exact h.child hpart

/-- Wherever a location leads, it is a settled place. -/
theorem isSettled_landing (l : Location) : l.landing.IsSettled := by
  have hparts : ∀ (parts : List Text) (p : Location), p.IsSettled →
      (parts.foldl Location.step p).IsSettled := by
    intro parts
    induction parts with
    | nil => exact fun p hp => hp
    | cons part rest ih => exact fun p hp => ih _ (hp.step part)
  exact hparts l.parts l.start l.isSettled_start

/-- A settled location lands on itself. -/
theorem IsSettled.landing_eq {l : Location} (h : l.IsSettled) : l.landing = l := by
  induction h with
  | around depth =>
    induction depth with
    | zero => rfl
    | succ depth ih =>
      have houter : (⟨.here, List.replicate (depth + 1) ".."⟩ : Location) =
          (⟨.here, List.replicate depth ".."⟩ : Location).child ".." := by
        rw [Location.child, List.replicate_succ']
      rw [houter, landing_child, ih, Location.step, if_pos rfl, up_around, ← houter]
  | root => rfl
  | child inside named ih => rw [landing_child, ih, step_of_ne _ named]

end Location

namespace Disk

variable {d : Disk} {l p : Location}

theorem walk_eq_ok {place : Location} {parts : List Text} (h : d.walk l place parts = .ok p) :
    p = parts.foldl Location.step place := by
  induction parts generalizing place with
  | nil => exact (Except.ok.inj h).symm
  | cons part rest ih =>
    rw [walk] at h
    split at h
    · exact absurd h (by simp)
    · exact absurd h (by simp)
    · split at h
      · exact absurd h (by simp)
      · exact ih h

/-- If a location leads anywhere on a disk then it leads to its landing. -/
theorem place_eq_ok (h : d.place l = .ok p) : p = l.landing := by
  rw [place] at h
  split at h
  · exact absurd h (by simp)
  · split at h
    · exact absurd h (by simp)
    · exact walk_eq_ok h

/-! ### Fresh names -/

theorem eightDigits_inj {m n : Nat} (h : eightDigits m = eightDigits n) : m = n := by
  have hback : ∀ k, Nat.ofDigitChars 10 (eightDigits k) 0 = k := by
    intro k
    rw [eightDigits, Nat.ofDigitChars_append, Nat.ofDigitChars_replicate_zero, Nat.mul_zero,
      Nat.ofDigitChars_ten_toDigits]
  rw [← hback m, h, hback]

/-- The name of a new file that is to take the place of the one with the given name. -/
def temporaryName (name : Text) (n : Nat) : Text :=
  "." ++ name ++ "." ++ String.ofList (eightDigits n) ++ ".tmp"

theorem temporaryName_inj {name : Text} {m n : Nat}
    (h : temporaryName name m = temporaryName name n) : m = n := by
  rw [temporaryName, temporaryName] at h
  have hdigits := List.append_cancel_left (List.append_cancel_right h)
  exact eightDigits_inj (String.ofList_injective (Text.ofString_inj.mp hdigits))

theorem length_temporaryName (name : Text) (n : Nat) :
    (temporaryName name n).length = name.length + (eightDigits n).length + 6 := by
  have hdot : ".".length = 1 := by decide
  have hend : ".tmp".length = 4 := by decide
  simp only [temporaryName, List.length_append, Text.length_ofString, String.length_ofList]
  omega

theorem temporaryName_ne_up (name : Text) (n : Nat) : temporaryName name n ≠ ".." := by
  intro h
  have hlength := length_temporaryName name n
  have hup : (Text.ofString "..").length = 2 := by decide
  rw [h, hup] at hlength
  omega

theorem temporary_eq (directory : Location) (name : Text) (n : Nat) :
    temporary directory name n = directory.child (temporaryName name n) := rfl

theorem temporary_inj {directory : Location} {name : Text} {m n : Nat}
    (h : temporary directory name m = temporary directory name n) : m = n := by
  have hparts := congrArg Location.parts h
  exact temporaryName_inj (List.singleton_inj.mp (List.append_cancel_left hparts))

theorem mem_of_lookup_ne_none {entries : List (Location × DiskEntry)}
    (h : entries.lookup p ≠ none) : p ∈ entries.map (·.1) := by
  obtain ⟨e, he⟩ := Option.ne_none_iff_exists'.mp h
  obtain ⟨before, rest, rfl, -⟩ := List.lookup_eq_some_iff.mp he
  simp

/-- Of more names than there are entries one is free. -/
theorem exists_free (d : Disk) (directory : Location) (name : Text) :
    ∃ n, ((List.range (d.entries.length + 1)).find? fun n =>
      (d.at? (temporary directory name n)).isNone) = some n := by
  refine Option.ne_none_iff_exists'.mp fun hnone => ?_
  have htaken : (List.range (d.entries.length + 1)).map (temporary directory name) ⊆
      d.entries.map (·.1) := by
    intro place hplace
    obtain ⟨n, hn, rfl⟩ := List.mem_map.mp hplace
    have hinner : ¬ (temporary directory name n).isOuter = true :=
      Bool.eq_false_iff.mp (Location.isOuter_child _ (temporaryName_ne_up _ _))
    have hfull := List.find?_eq_none.mp hnone n hn
    rw [at?, if_neg hinner] at hfull
    exact mem_of_lookup_ne_none fun h => hfull (by rw [h]; rfl)
  have hdiffer : ((List.range (d.entries.length + 1)).map (temporary directory name)).Nodup :=
    List.nodup_range.map fun _ _ => temporary_inj
  have hfew := hdiffer.length_le_of_subset htaken
  rw [List.length_map, List.length_range, List.length_map] at hfew
  omega

/-- **Fresh names.** The name for a new file beside a location is one in the directory around it,
and nothing is there. -/
theorem freshBeside_eq_ok {t : Location} (h : d.freshBeside l = .ok t) :
    ∃ directory n, d.place l.parent = .ok directory ∧ t = temporary directory l.name n ∧
      d.at? t = none := by
  rw [freshBeside] at h
  split at h
  · exact absurd h (by simp)
  · rename_i directory hdirectory
    obtain ⟨n, hn⟩ := d.exists_free directory l.name
    simp only [hn, Option.getD_some] at h
    split at h
    · exact absurd h (by simp)
    · obtain rfl := Except.ok.inj h
      exact ⟨directory, n, hdirectory, rfl, by simpa using List.find?_some hn⟩

end Disk

end DosConsole
