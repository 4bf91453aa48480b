import DosConsole.Proofs.Json.Writing
import DosConsole.Proofs.Settings.Fields
import DosConsole.Settings.Memory
import Mathlib.Data.List.Perm.Subperm

/-!
# What references stand for

References **stand for** values when the objects behind them hold what the values hold
(`Memory.Reads`). The relation lists the objects that are met on the way, in order, so that no
object stands in two places just when no number is listed twice.

What references stand for depends on the objects that are listed and on no others
(`Memory.Reads.frame`). Where no object stands in two places it is the value that is found behind
the reference (`Memory.Reads.value_eq`), keys lead to references that stand for what they lead to in
the value (`Memory.Reads.follow?`), and in an object one field can be exchanged and all others stay
(`Memory.ReadsFields.focus`). A value that is made stands in new objects, each in one place
(`Memory.made_make`), and what is written behind a reference is what is written of the value
(`Memory.Reads.written_eq`).
-/

namespace DosConsole

open Json

namespace Ref

/-- The reference is a value that holds no others. -/
def isPlain : Ref → Bool
  | .list _ | .object _ => false
  | _ => true

theorem value_of_isPlain {r : Ref} (h : r.isPlain = true) (fields : Nat → Fields) :
    r.value fields = r.outline := by
  cases r with
  | list items => exact absurd h (by simp [isPlain])
  | object number => exact absurd h (by simp [isPlain])
  | _ => rfl

theorem values_eq_map (fields : Nat → Fields) (refs : List Ref) :
    values fields refs = refs.map (value fields) := by
  induction refs with
  | nil => rfl
  | cons r rest ih => rw [values, ih, List.map_cons]

end Ref

namespace Memory

/-- The references **stand for** the values. The objects behind them are those of the given numbers,
in the order in which they are met. -/
inductive Reads (m : Memory) : List Ref → List Json → List Nat → Prop
  | nil : Reads m [] [] []
  | plain {r : Ref} {rest : List Ref} {vs : List Json} {met : List Nat} (hplain : r.isPlain = true)
      (hrest : Reads m rest vs met) : Reads m (r :: rest) (r.outline :: vs) met
  | list {items rest : List Ref} {ws vs : List Json} {inside met : List Nat}
      (hitems : Reads m items ws inside) (hrest : Reads m rest vs met) :
      Reads m (.list items :: rest) (.list ws :: vs) (inside ++ met)
  | object {number : Nat} {fields : Fields Ref} {rest : List Ref} {ws : Fields} {vs : List Json}
      {inside met : List Nat} (hobject : m.objects[number]? = some fields)
      (hkeys : fields.keys = ws.keys)
      (hfields : Reads m (fields.map Prod.snd) (ws.map Prod.snd) inside)
      (hrest : Reads m rest vs met) :
      Reads m (.object number :: rest) (.object ws :: vs) (number :: inside ++ met)

/-- The fields of an object stand for those of a value, each under its key. -/
structure ReadsFields (m : Memory) (fields : Fields Ref) (ws : Fields) (met : List Nat) : Prop where
  keys : fields.keys = ws.keys
  values : Reads m (fields.map Prod.snd) (ws.map Prod.snd) met

variable {m after : Memory} {r : Ref} {refs rest : List Ref} {v : Json} {vs : List Json}
  {fields : Fields Ref} {ws : Fields} {met more : List Nat} {number : Nat} {key : Text}

/-- An object is found at its number. -/
theorem fieldsOf_eq (h : m.objects[number]? = some fields) : m.fieldsOf number = fields := by
  rw [fieldsOf, List.getD_eq_getElem?_getD, h]
  rfl

theorem lt_size (h : m.objects[number]? = some fields) : number < m.size :=
  (List.getElem?_eq_some_iff.mp h).1

namespace Reads

/-! ### Several references -/

theorem nil_iff : Reads m [] vs met ↔ vs = [] ∧ met = [] := by
  constructor
  · intro h
    cases h with
    | nil => exact ⟨rfl, rfl⟩
  · rintro ⟨rfl, rfl⟩
    exact .nil

theorem list_iff {items : List Ref} :
    Reads m [.list items] [v] met ↔ ∃ ws, v = .list ws ∧ Reads m items ws met := by
  constructor
  · intro h
    cases h with
    | plain hplain hrest => exact absurd hplain (by simp [Ref.isPlain])
    | list hitems hrest =>
      obtain ⟨-, rfl⟩ := nil_iff.mp hrest
      rw [List.append_nil]
      exact ⟨_, rfl, hitems⟩
  · rintro ⟨ws, rfl, hitems⟩
    have h := hitems.list .nil
    rwa [List.append_nil] at h

theorem object_iff :
    Reads m [.object number] [v] met ↔
      ∃ fields ws inside, v = .object ws ∧ met = number :: inside ∧
        m.objects[number]? = some fields ∧ ReadsFields m fields ws inside := by
  constructor
  · intro h
    cases h with
    | plain hplain hrest => exact absurd hplain (by simp [Ref.isPlain])
    | object hobject hkeys hfields hrest =>
      obtain ⟨-, rfl⟩ := nil_iff.mp hrest
      rw [List.append_nil]
      exact ⟨_, _, _, rfl, rfl, hobject, hkeys, hfields⟩
  · rintro ⟨fields, ws, inside, rfl, rfl, hobject, hkeys, hfields⟩
    have h := Reads.object hobject hkeys hfields .nil
    rwa [List.append_nil] at h

theorem plain_iff (hplain : r.isPlain = true) :
    Reads m [r] [v] met ↔ v = r.outline ∧ met = [] := by
  constructor
  · intro h
    cases h with
    | plain _ hrest => exact ⟨rfl, (nil_iff.mp hrest).2⟩
    | list _ _ => exact absurd hplain (by simp [Ref.isPlain])
    | object _ _ _ _ => exact absurd hplain (by simp [Ref.isPlain])
  · rintro ⟨rfl, rfl⟩
    exact .plain hplain .nil

/-- What is met behind the first reference comes first. -/
theorem cons_iff :
    Reads m (r :: rest) vs met ↔
      ∃ v ws here there, vs = v :: ws ∧ met = here ++ there ∧ Reads m [r] [v] here ∧
        Reads m rest ws there := by
  constructor
  · intro h
    cases h with
    | plain hplain hrest => exact ⟨_, _, [], _, rfl, rfl, .plain hplain .nil, hrest⟩
    | list hitems hrest => exact ⟨_, _, _, _, rfl, rfl, list_iff.mpr ⟨_, rfl, hitems⟩, hrest⟩
    | object hobject hkeys hfields hrest =>
      exact ⟨_, _, _, _, rfl, rfl,
        object_iff.mpr ⟨_, _, _, rfl, rfl, hobject, hkeys, hfields⟩, hrest⟩
  · rintro ⟨v, ws, here, there, rfl, rfl, hfirst, hrest⟩
    cases hfirst with
    | plain hplain hnil =>
      obtain ⟨-, rfl⟩ := nil_iff.mp hnil
      exact .plain hplain hrest
    | list hitems hnil =>
      obtain ⟨-, rfl⟩ := nil_iff.mp hnil
      rw [List.append_nil]
      exact .list hitems hrest
    | object hobject hkeys hfields hnil =>
      obtain ⟨-, rfl⟩ := nil_iff.mp hnil
      rw [List.append_nil]
      exact .object hobject hkeys hfields hrest

theorem cons {here : List Nat} (hfirst : Reads m [r] [v] here) (hrest : Reads m rest vs met) :
    Reads m (r :: rest) (v :: vs) (here ++ met) :=
  cons_iff.mpr ⟨_, _, _, _, rfl, rfl, hfirst, hrest⟩

/-! ### Other memories -/

/-- **The frame.** Objects that are not met do not matter. -/
theorem frame (h : Reads m refs vs met) (hsame : ∀ n ∈ met, after.objects[n]? = m.objects[n]?) :
    Reads after refs vs met := by
  induction h with
  | nil => exact .nil
  | plain hplain hrest ih => exact .plain hplain (ih hsame)
  | list hitems hrest ihitems ih =>
    obtain ⟨hinside, hmet⟩ := List.forall_mem_append.mp hsame
    exact .list (ihitems hinside) (ih hmet)
  | object hobject hkeys hfields hrest ihfields ih =>
    obtain ⟨hinside, hmet⟩ := List.forall_mem_append.mp hsame
    obtain ⟨hhere, hinside⟩ := List.forall_mem_cons.mp hinside
    exact .object (hhere.trans hobject) hkeys (ihfields hinside) (ih hmet)

/-- Only objects that there are are met. -/
theorem lt_size (h : Reads m refs vs met) : ∀ n ∈ met, n < m.size := by
  induction h with
  | nil => exact List.forall_mem_nil _
  | plain hplain hrest ih => exact ih
  | list hitems hrest ihitems ih => exact List.forall_mem_append.mpr ⟨ihitems, ih⟩
  | object hobject hkeys hfields hrest ihfields ih =>
    exact List.forall_mem_append.mpr
      ⟨List.forall_mem_cons.mpr ⟨Memory.lt_size hobject, ihfields⟩, ih⟩

/-- No more objects are met than there are, if none is met twice. -/
theorem length_le (h : Reads m refs vs met) (hnodup : met.Nodup) : met.length ≤ m.size := by
  have hsubset : met ⊆ List.range m.size := fun n hn => List.mem_range.mpr (h.lt_size n hn)
  have hlength := (List.subperm_of_subset hnodup hsubset).length_le
  rwa [List.length_range] at hlength

/-! ### The value behind a reference -/

theorem map_eq_of_keys {f : Ref → Json} (hkeys : fields.keys = ws.keys)
    (hvalues : (fields.map Prod.snd).map f = ws.map Prod.snd) :
    fields.map (fun entry => (entry.1, f entry.2)) = ws := by
  induction fields generalizing ws with
  | nil => exact (List.map_eq_nil_iff.mp hkeys.symm).symm
  | cons entry rest ih =>
    obtain _ | ⟨⟨k, w⟩, others⟩ := ws
    · exact absurd hkeys (by simp [Fields.keys])
    · obtain ⟨hkey, hrest⟩ := List.cons.inj hkeys
      obtain ⟨hvalue, hothers⟩ := List.cons.inj hvalues
      rw [List.map_cons, ih hrest hothers, hkey]
      exact congrArg (fun x => (k, x) :: others) hvalue

/-- Where there is room for all objects that are met, the values behind the references are found. -/
theorem values_eq (h : Reads m refs vs met) {room : Nat} (hroom : met.length ≤ room) :
    Ref.values (m.fieldsWithin room) refs = vs := by
  induction h generalizing room with
  | nil => rfl
  | plain hplain hrest ih => rw [Ref.values, ih hroom, Ref.value_of_isPlain hplain]
  | list hitems hrest ihitems ih =>
    rw [List.length_append] at hroom
    rw [Ref.values, Ref.value, ihitems (by omega), ih (by omega)]
  | object hobject hkeys hfields hrest ihfields ih =>
    rw [List.length_append, List.length_cons] at hroom
    obtain _ | room := room
    · omega
    have hinside := @ihfields room (by omega)
    rw [Ref.values_eq_map] at hinside
    rw [Ref.values, Ref.value, fieldsWithin, fieldsOf_eq hobject, map_eq_of_keys hkeys hinside,
      ih (by omega)]

theorem value_eq (h : Reads m [r] [v] met) (hnodup : met.Nodup) : m.value r = v := by
  have hvalues := h.values_eq (h.length_le hnodup)
  exact (List.cons.inj hvalues).1

end Reads

/-! ### The fields of an object -/

namespace ReadsFields

theorem frame (h : ReadsFields m fields ws met)
    (hsame : ∀ n ∈ met, after.objects[n]? = m.objects[n]?) : ReadsFields after fields ws met :=
  ⟨h.keys, h.values.frame hsame⟩

/-- **One field.** What is met behind it, if it is there, lies between what is met behind the fields
before and after it. Whatever takes its place, in a memory in which these have not changed, the
other fields stand for the values that they stood for. -/
theorem focus (h : ReadsFields m fields ws met) (key : Text) :
    ∃ before here behind, met = before ++ (here ++ behind) ∧
      ((fields.get? key = none ∧ ws.get? key = none ∧ here = []) ∨
        ∃ r v, fields.get? key = some r ∧ ws.get? key = some v ∧ Reads m [r] [v] here) ∧
      ∀ (after : Memory) (r : Ref) (v : Json) (now : List Nat),
        (∀ n ∈ before ++ behind, after.objects[n]? = m.objects[n]?) → Reads after [r] [v] now →
          ReadsFields after (fields.put key r) (ws.put key v) (before ++ (now ++ behind)) := by
  induction fields generalizing ws met with
  | nil =>
    obtain rfl : ws = [] := List.map_eq_nil_iff.mp h.keys.symm
    obtain ⟨-, rfl⟩ := Reads.nil_iff.mp h.values
    exact ⟨[], [], [], rfl, .inl ⟨rfl, rfl, rfl⟩, fun after r v now _ hr => ⟨rfl, hr.cons .nil⟩⟩
  | cons entry rest ih =>
    obtain ⟨k, x⟩ := entry
    obtain _ | ⟨⟨l, w⟩, others⟩ := ws
    · exact absurd h.keys (by simp [Fields.keys])
    obtain ⟨rfl, hrestKeys⟩ := List.cons.inj h.keys
    obtain ⟨_, _, here, behind, heq, rfl, hfirst, hrest⟩ := Reads.cons_iff.mp h.values
    obtain ⟨rfl, rfl⟩ := List.cons.inj heq
    simp only [Fields.get?_cons, Fields.put]
    by_cases hkey : key = k
    · subst hkey
      refine ⟨[], here, behind, rfl, .inr ⟨x, w, if_pos rfl, if_pos rfl, hfirst⟩,
        fun after r v now hsame hr => ?_⟩
      rw [if_pos rfl, if_pos rfl]
      refine ⟨congrArg (key :: ·) hrestKeys, hr.cons (hrest.frame ?_)⟩
      exact fun n hn => hsame n hn
    · obtain ⟨before, there, later, rfl, hthere, hput⟩ := ih ⟨hrestKeys, hrest⟩
      refine ⟨here ++ before, there, later, by rw [List.append_assoc], ?_,
        fun after r v now hsame hr => ?_⟩
      · rw [if_neg hkey, if_neg hkey]
        exact hthere
      · rw [List.append_assoc] at hsame
        obtain ⟨hhere, hrestSame⟩ := List.forall_mem_append.mp hsame
        obtain ⟨hputKeys, hputValues⟩ := hput after r v now hrestSame hr
        rw [if_neg (Ne.symm hkey), if_neg (Ne.symm hkey), List.append_assoc]
        exact ⟨congrArg (k :: ·) hputKeys, (hfirst.frame hhere).cons hputValues⟩

end ReadsFields

/-! ### The references that keys lead to -/

/-- Keys lead on from a reference as they do from the value that it stands for. -/
theorem Reads.follow? (h : Reads m [r] [v] met) (keys : List Text) :
    (m.follow? r keys = none ∧ valueAt? v keys = none) ∨
      ∃ s w inner, m.follow? r keys = some s ∧ valueAt? v keys = some w ∧ Reads m [s] [w] inner ∧
        inner.Sublist met := by
  induction keys generalizing r v met with
  | nil => exact .inr ⟨r, v, met, by rw [Memory.follow?], rfl, h, List.Sublist.refl _⟩
  | cons key rest ih =>
    cases r with
    | object number =>
      obtain ⟨fields, ws, inside, rfl, rfl, hobject, hfields⟩ := Reads.object_iff.mp h
      obtain ⟨before, here, behind, rfl, hhere, -⟩ := hfields.focus key
      rw [Memory.follow?, fieldsOf_eq hobject, valueAt?_cons]
      obtain ⟨hnone, hnone', -⟩ | ⟨s, w, hs, hw, hreads⟩ := hhere
      · exact .inl ⟨by rw [hnone], by rw [hnone']; rfl⟩
      · simp only [hs, hw, Option.bind_some]
        obtain hnone | ⟨t, u, inner, ht, hu, hinner, hsub⟩ := ih hreads
        · exact .inl hnone
        · refine .inr ⟨t, u, inner, ht, hu, hinner, hsub.trans ?_⟩
          exact ((List.sublist_append_left here behind).trans
            (List.sublist_append_right before _)).cons number
    | list items =>
      obtain ⟨ws, rfl, -⟩ := Reads.list_iff.mp h
      exact .inl ⟨by rw [Memory.follow?]; simp, rfl⟩
    | _ =>
      obtain ⟨rfl, -⟩ := (Reads.plain_iff rfl).mp h
      exact .inl ⟨by rw [Memory.follow?]; simp, rfl⟩

/-! ### Writing -/

/-- A reference that lies in objects stands for a value, and meets none of them again, nor any
object twice. -/
def Shows (m : Memory) (held : List Nat × Ref) (v : Json) : Prop :=
  ∃ met, Reads m [held.2] [v] met ∧ met.Nodup ∧ ∀ n ∈ met, n ∉ held.1

/-- Several references are seen as the values that they stand for. -/
theorem Reads.forall₂_shows (h : Reads m refs vs met) (hnodup : met.Nodup) (around : List Nat)
    (hapart : ∀ n ∈ met, n ∉ around) :
    List.Forall₂ (fun r v => m.Shows (around, r) v) refs vs := by
  induction refs generalizing vs met with
  | nil =>
    obtain ⟨rfl, -⟩ := Reads.nil_iff.mp h
    exact .nil
  | cons r rest ih =>
    obtain ⟨v, ws, here, there, rfl, rfl, hfirst, hrest⟩ := Reads.cons_iff.mp h
    obtain ⟨hhere, hthere, -⟩ := List.nodup_append.mp hnodup
    obtain ⟨hfree, hfree'⟩ := List.forall_mem_append.mp hapart
    exact .cons ⟨here, hfirst, hhere, hfree⟩ (ih hrest hthere hfree')

theorem forall₂_fields {R : Ref → Json → Prop} (hkeys : fields.keys = ws.keys)
    (h : List.Forall₂ R (fields.map Prod.snd) (ws.map Prod.snd)) :
    List.Forall₂ (fun f g => f.1 = g.1 ∧ R f.2 g.2) fields ws := by
  induction fields generalizing ws with
  | nil =>
    obtain rfl : ws = [] := List.map_eq_nil_iff.mp hkeys.symm
    exact .nil
  | cons entry rest ih =>
    obtain _ | ⟨other, others⟩ := ws
    · exact absurd hkeys (by simp [Fields.keys])
    · obtain ⟨hkey, hrestKeys⟩ := List.cons.inj hkeys
      obtain ⟨hfirst, hrest⟩ := List.forall₂_cons.mp h
      exact .cons ⟨hkey, hfirst⟩ (ih hrestKeys hrest)

/-- What is seen of a reference is what is seen of its value. -/
theorem alike_of_shows (held : List Nat × Ref) (v : Json) (h : m.Shows held v) :
    Shape.Alike m.Shows (m.shape held) v.shape := by
  obtain ⟨around, r⟩ := held
  obtain ⟨met, hreads, hnodup, hapart⟩ := h
  cases r with
  | list items =>
    obtain ⟨ws, rfl, hitems⟩ := Reads.list_iff.mp hreads
    exact .list (List.forall₂_map_left_iff.mpr (hitems.forall₂_shows hnodup around hapart))
  | object number =>
    obtain ⟨fields, ws, inside, rfl, rfl, hobject, hfields⟩ := Reads.object_iff.mp hreads
    obtain ⟨hself, hnodup⟩ := List.nodup_cons.mp hnodup
    obtain ⟨hfree, hinside⟩ := List.forall_mem_cons.mp hapart
    have hvalues := hfields.values.forall₂_shows hnodup (number :: around)
      fun n hn hmem => by
        rcases List.mem_cons.mp hmem with rfl | hmem
        · exact hself hn
        · exact hinside n hn hmem
    rw [shape, if_neg hfree, fieldsOf_eq hobject]
    exact .object (List.forall₂_map_left_iff.mpr (forall₂_fields hfields.keys hvalues))
  | _ =>
    obtain ⟨rfl, -⟩ := (Reads.plain_iff rfl).mp hreads
    exact .plain _

/-- What is written behind a reference is what is written of the value that it stands for. -/
theorem Reads.written_eq (h : Reads m [r] [v] met) (hnodup : met.Nodup) :
    m.written r = v.written :=
  Shape.write_eq_of_alike alike_of_shows nestingLimit 0
    ⟨met, h, hnodup, fun _ _ => List.not_mem_nil⟩

/-! ### New objects -/

/-- Among old objects a new one is not to be seen. -/
theorem objects_new_of_lt (hlt : number < m.size) (fields : Fields Ref) :
    (m.new fields).1.objects[number]? = m.objects[number]? :=
  List.getElem?_append_left hlt

theorem objects_new (m : Memory) (fields : Fields Ref) :
    (m.new fields).1.objects[m.size]? = some fields :=
  List.getElem?_concat_length

theorem size_new (m : Memory) (fields : Fields Ref) : (m.new fields).1.size = m.size + 1 :=
  List.length_append

/-- Values were **made** of new objects, none of which is met twice, and the old ones stayed. -/
structure Made (m after : Memory) (refs : List Ref) (vs : List Json) : Prop where
  size : m.size ≤ after.size
  kept : ∀ n, n < m.size → after.objects[n]? = m.objects[n]?
  reads : ∃ met, Reads after refs vs met ∧ met.Nodup ∧ ∀ n ∈ met, m.size ≤ n

namespace Made

variable {last : Memory}

theorem nil (m : Memory) : Made m m [] [] :=
  ⟨Nat.le_refl _, fun _ _ => rfl, [], .nil, List.nodup_nil, List.forall_mem_nil _⟩

/-- A value that holds no others needs no objects. -/
theorem plain (m : Memory) (hplain : r.isPlain = true) : Made m m [r] [r.outline] :=
  ⟨Nat.le_refl _, fun _ _ => rfl, [], .plain hplain .nil, List.nodup_nil, List.forall_mem_nil _⟩

/-- Values are made one after the other. -/
theorem cons (hfirst : Made m after [r] [v]) (hrest : Made after last rest vs) :
    Made m last (r :: rest) (v :: vs) := by
  obtain ⟨here, hreads, hnodup, hnew⟩ := hfirst.reads
  obtain ⟨there, hmore, hnodup', hnew'⟩ := hrest.reads
  refine ⟨Nat.le_trans hfirst.size hrest.size, fun n hn => ?_, here ++ there, ?_, ?_, ?_⟩
  · exact (hrest.kept n (Nat.lt_of_lt_of_le hn hfirst.size)).trans (hfirst.kept n hn)
  · exact (hreads.frame fun n hn => hrest.kept n (hreads.lt_size n hn)).cons hmore
  · refine List.nodup_append.mpr ⟨hnodup, hnodup', fun a ha b hb heq => ?_⟩
    have := hreads.lt_size a ha
    have := hnew' b hb
    omega
  · refine List.forall_mem_append.mpr ⟨hnew, fun n hn => ?_⟩
    exact Nat.le_trans hfirst.size (hnew' n hn)

theorem list {items : List Ref} (h : Made m after items vs) :
    Made m after [.list items] [.list vs] := by
  obtain ⟨met, hreads, hrest⟩ := h.reads
  exact ⟨h.size, h.kept, met, Reads.list_iff.mpr ⟨vs, rfl, hreads⟩, hrest⟩

/-- A new object is made around fields that were made. -/
theorem object (h : Made m after (fields.map Prod.snd) (ws.map Prod.snd))
    (hkeys : fields.keys = ws.keys) :
    Made m (after.new fields).1 [.object after.size] [.object ws] := by
  obtain ⟨met, hreads, hnodup, hnew⟩ := h.reads
  have hkept (n : Nat) (hn : n < after.size) := objects_new_of_lt hn fields
  refine ⟨?_, fun n hn => ?_, after.size :: met, ?_, ?_, ?_⟩
  · rw [size_new]
    exact Nat.le_succ_of_le h.size
  · exact (hkept n (Nat.lt_of_lt_of_le hn h.size)).trans (h.kept n hn)
  · refine Reads.object_iff.mpr ⟨fields, ws, met, rfl, rfl, objects_new after fields, hkeys, ?_⟩
    exact hreads.frame fun n hn => hkept n (hreads.lt_size n hn)
  · exact List.nodup_cons.mpr ⟨fun hn => Nat.lt_irrefl _ (hreads.lt_size _ hn), hnodup⟩
  · exact List.forall_mem_cons.mpr ⟨h.size, hnew⟩

end Made

mutual

/-- A value that is made stands in new objects. -/
theorem made_make (m : Memory) : (v : Json) → Made m (m.make v).1 [(m.make v).2] [v]
  | .null => .plain (r := .null) m rfl
  | .bool b => .plain (r := .bool b) m rfl
  | .int n => .plain (r := .int n) m rfl
  | .float x => .plain (r := .float x) m rfl
  | .str t => .plain (r := .str t) m rfl
  | .list items => by
    rw [make]
    exact (made_makeItems m items).list
  | .object fields => by
    rw [make]
    exact (made_makeFields m fields).1.object (made_makeFields m fields).2

theorem made_makeItems (m : Memory) :
    (items : List Json) → Made m (m.makeItems items).1 (m.makeItems items).2 items
  | [] => .nil m
  | v :: rest => by
    rw [makeItems]
    exact (made_make m v).cons (made_makeItems _ rest)

theorem made_makeFields (m : Memory) : (ws : List (Text × Json)) →
    Made m (m.makeFields ws).1 ((m.makeFields ws).2.map Prod.snd) (ws.map Prod.snd) ∧
      (m.makeFields ws).2.keys = Fields.keys ws
  | [] => ⟨.nil m, rfl⟩
  | (key, v) :: rest => by
    rw [makeFields]
    obtain ⟨hmade, hkeys⟩ := made_makeFields (m.make v).1 rest
    exact ⟨(made_make m v).cons hmade, congrArg (key :: ·) hkeys⟩

end

end Memory

end DosConsole
