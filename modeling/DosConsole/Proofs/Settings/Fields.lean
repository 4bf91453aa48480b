import DosConsole.Settings.Value
import Mathlib.Data.List.Nodup

/-!
# Fields of objects

An object of the format has each key once. A value is **proper** when this holds of every object in
it (`Json.IsProper`); all that is ever read or set is proper. Fields with each key once are known by
their keys in order and the value of each key (`Fields.ext`).

Putting a value under a key changes that key only (`Fields.get?_put`), and the key comes last unless
it was there (`Fields.keys_put`).
-/

namespace DosConsole.Json

namespace Fields

variable {α : Type} {fields others : Fields α} {key k : Text} {v w : α}

/-- The **keys** of an object, in order. -/
def keys (fields : Fields α) : List Text :=
  fields.map Prod.fst

theorem keys_cons : keys ((k, v) :: fields) = k :: fields.keys :=
  rfl

theorem get?_cons : get? ((k, v) :: fields) key = if key = k then some v else fields.get? key := by
  rw [get?, List.lookup_cons]
  by_cases h : key = k
  · rw [if_pos h, beq_iff_eq.mpr h]
  · rw [if_neg h, beq_eq_false_iff_ne.mpr h]
    rfl

theorem get?_eq_none_iff : fields.get? key = none ↔ key ∉ fields.keys := by
  induction fields with
  | nil => exact iff_of_true rfl List.not_mem_nil
  | cons entry rest ih =>
    obtain ⟨k, v⟩ := entry
    rw [get?_cons, keys_cons, List.mem_cons, not_or, ← ih]
    split
    · rename_i heq
      exact iff_of_false (by simp) fun h => h.1 heq
    · rename_i hne
      exact (and_iff_right hne).symm

theorem mem_keys_of_get? (h : fields.get? key = some v) : key ∈ fields.keys := by
  by_contra hnone
  rw [get?_eq_none_iff.mpr hnone] at h
  exact absurd h (by simp)

/-- What is found under a key is a field. -/
theorem mem_of_get? (h : fields.get? key = some v) : (key, v) ∈ fields := by
  induction fields with
  | nil => exact absurd h (by simp [get?])
  | cons entry rest ih =>
    obtain ⟨k, w⟩ := entry
    rw [get?_cons] at h
    split at h
    · rename_i heq
      rw [heq, ← Option.some.inj h]
      exact List.mem_cons_self
    · exact List.mem_cons_of_mem _ (ih h)

/-- Where each key stands once, every field is found under its key. -/
theorem get?_of_mem (hkeys : fields.keys.Nodup) (h : (key, v) ∈ fields) :
    fields.get? key = some v := by
  induction fields with
  | nil => exact absurd h List.not_mem_nil
  | cons entry rest ih =>
    obtain ⟨k, w⟩ := entry
    obtain ⟨hfirst, hrest⟩ := List.nodup_cons.mp hkeys
    rw [get?_cons]
    rcases List.mem_cons.mp h with heq | hmem
    · obtain ⟨rfl, rfl⟩ := Prod.mk.inj heq
      exact if_pos rfl
    · have hne : key ≠ k := by
        rintro rfl
        exact hfirst (List.mem_map.mpr ⟨(key, v), hmem, rfl⟩)
      rw [if_neg hne]
      exact ih hrest hmem

/-- Fields with each key once are known by their keys in order and the value of each key. -/
theorem ext (hkeys : fields.keys.Nodup) (hsame : fields.keys = others.keys)
    (hget : ∀ key, fields.get? key = others.get? key) : fields = others := by
  induction fields generalizing others with
  | nil => exact (List.map_eq_nil_iff.mp hsame.symm).symm
  | cons entry rest ih =>
    obtain ⟨k, v⟩ := entry
    obtain _ | ⟨⟨l, w⟩, more⟩ := others
    · exact absurd hsame (by simp [keys])
    obtain ⟨hfirst, hrest⟩ := List.nodup_cons.mp hkeys
    obtain ⟨rfl, hmore⟩ := List.cons.inj hsame
    have hvalue : v = w := by
      have := hget k
      rw [get?_cons, get?_cons, if_pos rfl, if_pos rfl] at this
      exact Option.some.inj this
    have hothers (key : Text) : get? rest key = get? more key := by
      by_cases heq : key = k
      · have hgone : key ∉ keys rest := heq ▸ hfirst
        have hgone' : key ∉ keys more := by
          rw [keys, ← hmore]
          exact hgone
        rw [get?_eq_none_iff.mpr hgone, get?_eq_none_iff.mpr hgone']
      · have := hget key
        rwa [get?_cons, get?_cons, if_neg heq, if_neg heq] at this
    rw [hvalue, ih hrest hmore hothers]

/-! ### Putting -/

theorem get?_put : (fields.put k v).get? key = if key = k then some v else fields.get? key := by
  induction fields with
  | nil => rw [put, get?_cons]
  | cons entry rest ih =>
    obtain ⟨l, w⟩ := entry
    rw [put]
    by_cases hl : l = k
    · subst hl
      rw [if_pos rfl, get?_cons, get?_cons]
      split
      · rfl
      · rfl
    · rw [if_neg hl, get?_cons, get?_cons, ih]
      by_cases hkey : key = l
      · rw [if_pos hkey, if_neg (hkey ▸ hl)]
        exact (if_pos hkey).symm
      · rw [if_neg hkey, if_neg hkey]

theorem keys_put :
    (fields.put k v).keys = if k ∈ fields.keys then fields.keys else fields.keys ++ [k] := by
  induction fields with
  | nil => rfl
  | cons entry rest ih =>
    obtain ⟨l, w⟩ := entry
    rw [put]
    by_cases hl : l = k
    · subst hl
      rw [if_pos rfl, keys_cons, keys_cons, if_pos List.mem_cons_self]
    · rw [if_neg hl, keys_cons, keys_cons, ih]
      by_cases hmem : k ∈ keys rest
      · rw [if_pos hmem, if_pos (List.mem_cons_of_mem _ hmem)]
      · have hnot : k ∉ l :: keys rest := by
          rw [List.mem_cons, not_or]
          exact ⟨Ne.symm hl, hmem⟩
        rw [if_neg hmem, if_neg hnot, List.cons_append]

theorem nodup_keys_put (h : fields.keys.Nodup) : (fields.put k v).keys.Nodup := by
  rw [keys_put]
  split
  · exact h
  · rename_i hnew
    exact List.nodup_append.mpr ⟨h, List.nodup_singleton k, by
      rintro a ha b hb rfl
      exact hnew (List.mem_singleton.mp hb ▸ ha)⟩

/-- To put a value where it already stands changes nothing. -/
theorem put_of_get? (h : fields.get? key = some v) : fields.put key v = fields := by
  induction fields with
  | nil => exact absurd h (by simp [get?])
  | cons entry rest ih =>
    obtain ⟨k, w⟩ := entry
    rw [get?_cons] at h
    rw [put]
    by_cases heq : k = key
    · rw [if_pos heq.symm] at h
      rw [if_pos heq, Option.some.inj h]
    · rw [if_neg (Ne.symm heq)] at h
      rw [if_neg heq, ih h]

end Fields

/-! ### Proper values -/

/-- A value is **proper** when every object in it has each key once. -/
inductive IsProper : Json → Prop
  | null : IsProper .null
  | bool (b : Bool) : IsProper (.bool b)
  | int (n : Int) : IsProper (.int n)
  | float (x : Binary64) : IsProper (.float x)
  | str (t : Text) : IsProper (.str t)
  | list {items : List Json} (inside : ∀ v ∈ items, IsProper v) : IsProper (.list items)
  | object {fields : Fields} (keys : fields.keys.Nodup) (inside : ∀ f ∈ fields, IsProper f.2) :
      IsProper (.object fields)

/-- The value is an **object**. -/
def IsObject (v : Json) : Prop :=
  ∃ fields : Fields, v = .object fields

theorem isObject_object (fields : Fields) : (Json.object fields).IsObject :=
  ⟨fields, rfl⟩

section Proper

variable {fields : Fields} {key : Text} {v : Json}

theorem IsProper.nodup (h : IsProper (.object fields)) : fields.keys.Nodup := by
  cases h with
  | object keys inside => exact keys

theorem IsProper.get? (h : IsProper (.object fields)) (hv : fields.get? key = some v) :
    v.IsProper := by
  cases h with
  | object keys inside => exact inside _ (Fields.mem_of_get? hv)

/-- An object is proper if it has each key once and the value of each key is proper. -/
theorem isProper_object (hkeys : fields.keys.Nodup)
    (hget : ∀ key v, fields.get? key = some v → v.IsProper) : IsProper (.object fields) :=
  .object hkeys fun f hf => hget f.1 f.2 (Fields.get?_of_mem hkeys hf)

/-- A proper object stays so when a proper value is put into it. -/
theorem IsProper.put (h : IsProper (.object fields)) (hv : v.IsProper) :
    IsProper (.object (fields.put key v)) := by
  refine isProper_object (Fields.nodup_keys_put h.nodup) fun k w hw => ?_
  rw [Fields.get?_put] at hw
  split at hw
  · exact Option.some.inj hw ▸ hv
  · exact h.get? hw

/-- What holds of all values that are no objects, and of each object if it holds of the values in
it, holds of all proper values. -/
theorem IsProper.induct {P : (v : Json) → v.IsProper → Prop}
    (other : ∀ v h, ¬ v.IsObject → P v h)
    (object : ∀ (fields : Fields) (h : IsProper (.object fields)),
      (∀ key v hv, P v (@IsProper.get? fields key v h hv)) → P (.object fields) h)
    {v : Json} (h : v.IsProper) : P v h := by
  induction h with
  | @object fields hkeys inside ih =>
    exact object fields _ fun key v hv => ih _ (Fields.mem_of_get? hv)
  | _ =>
    refine other _ _ ?_
    rintro ⟨fields, heq⟩
    cases heq

theorem isProper_empty : IsProper (.object []) :=
  .object List.nodup_nil fun _ hf => absurd hf List.not_mem_nil

end Proper

/-! ### The values that keys lead to -/

/-- The value that a list of keys leads to. -/
def valueAt? : Json → List Text → Option Json
  | v, [] => some v
  | .object fields, key :: rest =>
    match Fields.get? fields key with
    | none => none
    | some v => valueAt? v rest
  | _, _ :: _ => none

section Keys

variable {v w : Json} {fields : Fields} {key : Text} {keys more : List Text}

theorem valueAt?_cons :
    valueAt? (.object fields) (key :: more) = (fields.get? key).bind (valueAt? · more) := by
  rw [valueAt?]
  cases fields.get? key with
  | none => rfl
  | some v => rfl

/-- No key leads on from a value that is no object. -/
theorem valueAt?_of_not_isObject (h : ¬ v.IsObject) : valueAt? v (key :: more) = none := by
  cases v with
  | object fields => exact absurd (isObject_object fields) h
  | _ => rfl

/-- Keys are followed one after the other. -/
theorem valueAt?_append (v : Json) (keys more : List Text) :
    valueAt? v (keys ++ more) = (valueAt? v keys).bind (valueAt? · more) := by
  induction keys generalizing v with
  | nil => rfl
  | cons key rest ih =>
    by_cases h : v.IsObject
    · obtain ⟨fields, rfl⟩ := h
      rw [List.cons_append, valueAt?_cons, valueAt?_cons, Option.bind_assoc]
      exact congrArg _ (funext ih)
    · rw [List.cons_append, valueAt?_of_not_isObject h, valueAt?_of_not_isObject h]
      rfl

/-- A value **admits** keys when all that they lead to before their end are objects. -/
def Admits (v : Json) (keys : List Text) : Prop :=
  ∀ way, way <+: keys → way ≠ keys → ∀ w, valueAt? v way = some w → w.IsObject

theorem admits_nil (v : Json) : v.Admits [] :=
  fun _ hbegins hne => absurd (List.prefix_nil.mp hbegins) hne

/-- Only an object admits a key. -/
theorem Admits.isObject (h : v.Admits (key :: more)) : v.IsObject :=
  h [] List.nil_prefix (List.cons_ne_nil _ _).symm v rfl

theorem admits_cons_iff :
    (Json.object fields).Admits (key :: more) ↔
      ∀ w, fields.get? key = some w → w.Admits more := by
  constructor
  · intro h w hw way hbegins hne x hx
    refine h (key :: way) ((List.prefix_cons_inj key).mpr hbegins) ?_ x ?_
    · exact fun heq => hne (List.cons.inj heq).2
    · rw [valueAt?_cons, hw, Option.bind_some, hx]
  · intro h way hbegins hne x hx
    obtain _ | ⟨first, rest⟩ := way
    · obtain rfl : Json.object fields = x := Option.some.inj hx
      exact isObject_object fields
    · obtain ⟨rfl, hrest⟩ := List.cons_prefix_cons.mp hbegins
      rw [valueAt?_cons] at hx
      obtain ⟨w, hw, hx⟩ := Option.bind_eq_some_iff.mp hx
      exact h w hw rest hrest (fun heq => hne (heq ▸ rfl)) x hx

end Keys

end DosConsole.Json
