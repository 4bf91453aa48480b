import DosConsole.Json.Writer
import Mathlib.Data.List.Forall2

/-!
# What is written of a value

Piece by piece the text of a value is written, or a beginning of it if the writing is stopped
(`written_begins`). Whatever lies ahead, what was written so far is a beginning of the whole, so
that this is an invariant of the writer: it holds of one value if it holds of the values in it
(`begins_writeAt`), and the room that is left for containers is what the induction is on.

The writer sees of each value only its shape. So values of two kinds are written alike when their
shapes are alike all the way down (`Shape.write_eq_of_alike`).
-/

namespace DosConsole.Json

namespace Written

/-- What was written **begins** a text, and is all of it unless the writing was stopped. -/
structure Begins (w : Written) (whole : String) : Prop where
  all : w.trouble = none → w.text = whole
  some : ∃ rest, whole = w.text ++ rest

variable {w more : Written} {whole after : String}

theorem begins_piece (text : String) : (piece text).Begins text :=
  ⟨fun _ => rfl, "", String.append_empty.symm⟩

theorem begins_stopped (cause : WriteError) (whole : String) : (stopped cause).Begins whole :=
  ⟨nofun, whole, String.empty_append.symm⟩

/-- What follows a beginning of a text begins the text that follows. -/
theorem Begins.followedBy (h : w.Begins whole) (hmore : more.Begins after) :
    (w.followedBy more).Begins (whole ++ after) := by
  obtain ⟨rest, hrest⟩ := h.some
  rw [Written.followedBy]
  split
  · rename_i cause hcause
    refine ⟨fun hnone => absurd (hcause.symm.trans hnone) (by simp), rest ++ after, ?_⟩
    rw [hrest, String.append_assoc]
  · rename_i hnone
    obtain rfl := h.all hnone
    obtain ⟨last, rfl⟩ := hmore.some
    exact ⟨fun hall => congrArg (w.text ++ ·) (hmore.all hall), last, String.append_assoc.symm⟩

end Written

namespace Shape

variable {inner : Json → Written} {level : Nat}

theorem begins_writeItem (h : ∀ v, (inner v).Begins (render level v)) (lead : String) (v : Json) :
    (writeItem shape inner lead v).Begins (lead ++ render level v) := by
  rw [writeItem]
  split
  · exact Written.begins_stopped _ _
  · exact (Written.begins_piece lead).followedBy (h v)

theorem begins_writeItems (h : ∀ v, (inner v).Begins (render level v)) (lead : String) (v : Json)
    (rest : List Json) : (writeItems shape inner level lead (v :: rest)).Begins
      (lead ++ render level v ++ renderItems level rest) := by
  induction rest generalizing lead v with
  | nil => exact (begins_writeItem h lead v).followedBy (Written.begins_piece "")
  | cons next more ih =>
    have hmore := ih ("," ++ newLine level) next
    rw [renderItems]
    exact (begins_writeItem h lead v).followedBy hmore

theorem begins_writeFields (h : ∀ v, (inner v).Begins (render level v)) (lead : String)
    (key : Text) (v : Json) (rest : List (Text × Json)) :
    (writeFields inner level lead ((key, v) :: rest)).Begins
      (lead ++ Quoted.write key ++ ": " ++ render level v ++ renderFields level rest) := by
  have hfirst (lead : String) (key : Text) (v : Json) :=
    (Written.begins_piece (lead ++ Quoted.write key ++ ": ")).followedBy (h v)
  induction rest generalizing lead key v with
  | nil => exact (hfirst lead key v).followedBy (Written.begins_piece "")
  | cons f more ih =>
    rw [renderFields]
    exact (hfirst lead key v).followedBy (ih ("," ++ newLine level) f.1 f.2)

/-- A value is begun if those in it are, whether there may be any or not. -/
theorem begins_writeAt {inner : Option (Json → Written)} (v : Json)
    (h : ∀ write ∈ inner, ∀ v, (write v).Begins (render (level + 1) v)) :
    ((shape v).writeAt shape inner level).Begins (render level v) := by
  cases v with
  | null => exact Written.begins_piece _
  | bool b => exact Written.begins_piece _
  | int n =>
    rw [shape, plainText]
    · split
      · exact Written.begins_stopped _ _
      · exact Written.begins_piece _
    · simp
    · simp
  | float x => exact Written.begins_piece _
  | str t => exact Written.begins_piece _
  | list items =>
    obtain _ | ⟨v, rest⟩ := items
    · exact Written.begins_piece _
    obtain _ | write := inner
    · exact Written.begins_stopped _ _
    · have hitems := begins_writeItems (h write rfl) ("[" ++ newLine (level + 1)) v rest
      rw [render, String.append_assoc]
      exact hitems.followedBy (Written.begins_piece _)
  | object fields =>
    obtain _ | ⟨⟨key, v⟩, rest⟩ := fields
    · exact Written.begins_piece _
    obtain _ | write := inner
    · exact Written.begins_stopped _ _
    · have hfields := begins_writeFields (h write rfl) ("\x7b" ++ newLine (level + 1)) key v rest
      rw [render, String.append_assoc]
      exact hfields.followedBy (Written.begins_piece _)

theorem begins_write (room level : Nat) (v : Json) :
    (write shape room level v).Begins (render level v) := by
  induction room generalizing level v with
  | zero => exact begins_writeAt v nofun
  | succ room ih =>
    refine begins_writeAt v fun inner hinner => ?_
    obtain rfl := Option.some.inj hinner
    exact ih (level + 1)

/-! ### Shapes that are alike -/

section Alike

variable {α β : Type} {R : α → β → Prop}

/-- Two shapes are **alike** when nothing can be told apart in them but the values that they hold,
and these are related. -/
inductive Alike (R : α → β → Prop) : Shape α → Shape β → Prop
  | plain (text : Except WriteError String) : Alike R (.plain text) (.plain text)
  | list {items : List α} {others : List β} (inside : List.Forall₂ R items others) :
      Alike R (.list items) (.list others)
  | object {fields : Fields α} {others : Fields β}
      (inside : List.Forall₂ (fun f g => f.1 = g.1 ∧ R f.2 g.2) fields others) :
      Alike R (.object fields) (.object others)
  | circular : Alike R .circular .circular

variable {see : α → Shape α} {look : β → Shape β} {f : α → Written} {g : β → Written}

theorem writeItems_eq_of_alike (hsee : ∀ a b, R a b → Alike R (see a) (look b))
    (hinner : ∀ a b, R a b → f a = g b) {items : List α} {others : List β}
    (h : List.Forall₂ R items others) (lead : String) :
    writeItems see f level lead items = writeItems look g level lead others := by
  induction h generalizing lead with
  | nil => rfl
  | @cons a b _ _ hab _ ih =>
    have hitem : writeItem see f lead a = writeItem look g lead b := by
      have halike := hsee a b hab
      rw [writeItem, writeItem, hinner a b hab]
      generalize see a = x, look b = y at halike ⊢
      cases halike with
      | plain text => cases text <;> rfl
      | list inside => rfl
      | object inside => rfl
      | circular => rfl
    rw [writeItems, writeItems, hitem, ih]

theorem writeFields_eq_of_alike (hinner : ∀ a b, R a b → f a = g b) {fields : Fields α}
    {others : Fields β} (h : List.Forall₂ (fun f g => f.1 = g.1 ∧ R f.2 g.2) fields others)
    (lead : String) : writeFields f level lead fields = writeFields g level lead others := by
  induction h generalizing lead with
  | nil => rfl
  | @cons x y _ _ hxy _ ih =>
    obtain ⟨key, a⟩ := x
    obtain ⟨_, b⟩ := y
    obtain ⟨rfl, hab⟩ := hxy
    rw [writeFields, writeFields, hinner a b hab, ih]

/-- Whatever is written of the values inside, shapes that are alike are written alike if it is the
same. -/
theorem writeAt_eq_of_alike (hsee : ∀ a b, R a b → Alike R (see a) (look b))
    {inner : Option (α → Written)} {others : Option (β → Written)}
    (hinner : Option.Rel (fun f g => ∀ a b, R a b → f a = g b) inner others) {x : Shape α}
    {y : Shape β} (h : Alike R x y) :
    x.writeAt see inner level = y.writeAt look others level := by
  cases h with
  | plain text => cases text <;> rfl
  | circular => rfl
  | list inside =>
    cases inside with
    | nil => rfl
    | cons first rest =>
      cases hinner with
      | none => rfl
      | some hsame =>
        rw [writeAt, writeAt]
        simp only [writeItems_eq_of_alike hsee hsame (.cons first rest)]
  | object inside =>
    cases inside with
    | nil => rfl
    | cons first rest =>
      cases hinner with
      | none => rfl
      | some hsame =>
        rw [writeAt, writeAt]
        simp only [writeFields_eq_of_alike hsame (.cons first rest)]

/-- **Only shapes matter.** If related values have shapes that are alike, they are written alike. -/
theorem write_eq_of_alike (hsee : ∀ a b, R a b → Alike R (see a) (look b)) (room level : Nat)
    {a : α} {b : β} (h : R a b) : write see room level a = write look room level b := by
  induction room generalizing level a b with
  | zero => exact writeAt_eq_of_alike hsee .none (hsee a b h)
  | succ room ih =>
    exact writeAt_eq_of_alike hsee (.some fun _ _ hab => ih (level + 1) hab) (hsee a b h)

end Alike

end Shape

variable {v : Json} {t : String}

/-- What is written of a value begins its text. -/
theorem written_begins (v : Json) : v.written.Begins v.text :=
  Shape.begins_write nestingLimit 0 v

theorem write?_eq_ok_iff : write? v = .ok t ↔ v.written = .piece t := by
  rw [write?]
  split
  · rename_i text hwritten
    rw [hwritten, Written.piece]
    simp
  · rename_i text cause hwritten
    rw [hwritten, Written.piece]
    simp

/-- A value whose writing was not stopped can be written. -/
theorem write?_of_trouble (h : v.written.trouble = none) : write? v = .ok v.written.text :=
  write?_eq_ok_iff.mpr (congrArg (Written.mk v.written.text) h)

/-- A value that can be written has its text written. -/
theorem text_of_write? (h : write? v = .ok t) : t = v.text := by
  have hall := (written_begins v).all
  rw [write?_eq_ok_iff.mp h] at hall
  exact hall rfl

end DosConsole.Json
