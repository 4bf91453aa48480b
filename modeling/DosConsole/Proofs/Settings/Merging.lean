import DosConsole.Proofs.Settings.Fields

/-!
# One object laid over another

Merging is described key by key: a key of the upper object gets its value laid over the one below,
and every other key keeps the value of the lower object (`get?_mergeFields`). Its keys are those of
the lower object and behind them the new ones (`keys_mergeFields`). By induction on the keys that
lead inwards this says what lies at every place of the merged object (`laidOver_mergeFields`).

To lay the upper object over the merged one again changes nothing (`mergeFields_again`), and neither
does laying the merged object over the lower one (`mergeFields_absorb`). The first follows from the
values alone. The second also needs the order of the keys, for which those of the lower object come
first (`mergeFields_eq_upper_iff`).
-/

namespace DosConsole.Json

variable {lower upper fields : Fields} {key : Text} {below : Option Json} {u v : Json}

/-! ### What lies under one key -/

/-- A value that is no object takes the place of whatever was there. -/
theorem overlay_of_not_isObject (h : ¬ u.IsObject) : overlay below u = u := by
  rw [overlay]
  exact fun fields heq => h ⟨fields, heq⟩

/-- Any value takes the place of one that is no object, or of none. -/
theorem overlay_of_below (h : ∀ b ∈ below, ¬ b.IsObject) : overlay below u = u := by
  by_cases hu : u.IsObject
  · obtain ⟨fields, rfl⟩ := hu
    rw [overlay]
    exact fun lower heq => h _ heq (isObject_object lower)
  · exact overlay_of_not_isObject hu

/-- What lies below is an object, or else has no bearing. -/
theorem below_cases (below : Option Json) :
    (∃ lower : Fields, below = some (.object lower)) ∨ ∀ b ∈ below, ¬ b.IsObject := by
  by_cases h : ∃ lower : Fields, below = some (.object lower)
  · exact .inl h
  · exact .inr fun b hb ⟨lower, heq⟩ => h ⟨lower, heq ▸ hb⟩

/-- Behind what is no object there is nothing. -/
theorem bind_valueAt?_of_below {more : List Text} (h : ∀ b ∈ below, ¬ b.IsObject) :
    below.bind (valueAt? · (key :: more)) = none :=
  Option.bind_eq_none_iff.mpr fun b hb => valueAt?_of_not_isObject (h b hb)

theorem overlay_object_object :
    overlay (some (.object lower)) (.object upper) = .object (mergeFields lower upper) := by
  rw [overlay]

/-- A key of the upper object gets its value laid over the one below, and every other key keeps the
value of the lower object. -/
theorem get?_mergeFields (hkeys : upper.keys.Nodup) :
    (mergeFields lower upper).get? key =
      match upper.get? key with
      | none => lower.get? key
      | some u => some (overlay (lower.get? key) u) := by
  induction upper generalizing lower with
  | nil => rfl
  | cons entry rest ih =>
    obtain ⟨k, u⟩ := entry
    obtain ⟨hfirst, hrest⟩ := List.nodup_cons.mp hkeys
    rw [mergeFields, ih hrest, Fields.get?_put, Fields.get?_cons]
    -- the rest does not have the key that was put, so that nothing is laid over its value again
    by_cases heq : key = k
    · rw [if_pos heq, if_pos heq, Fields.get?_eq_none_iff.mpr (heq ▸ hfirst), heq]
    · rw [if_neg heq, if_neg heq]

theorem get?_mergeFields_of_none (hkeys : upper.keys.Nodup) (h : upper.get? key = none) :
    (mergeFields lower upper).get? key = lower.get? key := by
  rw [get?_mergeFields hkeys, h]

theorem get?_mergeFields_of_some (hkeys : upper.keys.Nodup) (h : upper.get? key = some u) :
    (mergeFields lower upper).get? key = some (overlay (lower.get? key) u) := by
  rw [get?_mergeFields hkeys, h]

/-- The keys of the lower object keep their order, and the new ones follow in theirs. -/
theorem keys_mergeFields (hkeys : upper.keys.Nodup) :
    (mergeFields lower upper).keys = lower.keys ++ upper.keys.filter (· ∉ lower.keys) := by
  induction upper generalizing lower with
  | nil => exact (List.append_nil _).symm
  | cons entry rest ih =>
    obtain ⟨k, u⟩ := entry
    obtain ⟨hfirst, hrest⟩ := List.nodup_cons.mp hkeys
    rw [mergeFields, ih hrest, Fields.keys_put, Fields.keys_cons]
    by_cases hmem : k ∈ lower.keys
    · rw [if_pos hmem, List.filter_cons_of_neg (by simpa using hmem)]
    · -- none of the later keys is the one that was put, so that it may count as an old one
      have hlater : (Fields.keys rest).filter (· ∉ lower.keys ++ [k]) =
          (Fields.keys rest).filter (· ∉ lower.keys) := by
        refine List.filter_congr fun key hkey => decide_eq_decide.mpr ?_
        have hne : key ≠ k := fun heq => hfirst (heq ▸ hkey)
        simp only [List.mem_append, List.mem_singleton, hne, or_false]
      rw [if_neg hmem, List.filter_cons_of_pos (by simpa using hmem), hlater, List.append_assoc]
      rfl

/-- Merged keys stand once. -/
theorem nodup_keys_mergeFields (hlower : lower.keys.Nodup) (hupper : upper.keys.Nodup) :
    (mergeFields lower upper).keys.Nodup := by
  rw [keys_mergeFields hupper]
  refine List.nodup_append.mpr ⟨hlower, hupper.filter _, fun a ha b hb heq => ?_⟩
  have hnew : b ∉ lower.keys := of_decide_eq_true (List.mem_filter.mp hb).2
  exact hnew (heq ▸ ha)

/-- A proper value laid over a proper one is proper. -/
theorem IsProper.overlay (hu : u.IsProper) (hbelow : ∀ b ∈ below, b.IsProper) :
    (overlay below u).IsProper := by
  induction hu using IsProper.induct generalizing below with
  | other u hu hnot =>
    rw [overlay_of_not_isObject hnot]
    exact hu
  | object upper hupper ih =>
    rcases below_cases below with ⟨lower, rfl⟩ | hfree
    · have hlower : IsProper (.object lower) := hbelow _ rfl
      rw [overlay_object_object]
      refine isProper_object (nodup_keys_mergeFields hlower.nodup hupper.nodup) fun key v hv => ?_
      rcases hget : upper.get? key with _ | w
      · rw [get?_mergeFields_of_none hupper.nodup hget] at hv
        exact hlower.get? hv
      · rw [get?_mergeFields_of_some hupper.nodup hget] at hv
        exact Option.some.inj hv ▸ ih key w hget fun b hb => hlower.get? hb
    · rw [overlay_of_below hfree]
      exact hupper

theorem IsProper.mergeFields (hupper : IsProper (.object upper))
    (hlower : IsProper (.object lower)) : IsProper (.object (mergeFields lower upper)) := by
  rw [← overlay_object_object]
  exact hupper.overlay fun b hb => Option.some.inj hb ▸ hlower

/-! ### What lies at the end of a list of keys -/

/-- Where the upper value leads to something, it is laid over what the lower value leads to. -/
theorem valueAt?_overlay_of_some (hu : u.IsProper) {keys : List Text}
    (h : valueAt? u keys = some v) :
    valueAt? (overlay below u) keys = some (overlay (below.bind (valueAt? · keys)) v) := by
  induction keys generalizing u below with
  | nil =>
    obtain rfl : u = v := Option.some.inj h
    have hself : below.bind (valueAt? · []) = below := by
      obtain _ | b := below
      · rfl
      · rfl
    rw [hself]
    rfl
  | cons key rest ih =>
    have hobject : u.IsObject := by
      by_contra hnot
      rw [valueAt?_of_not_isObject hnot] at h
      exact absurd h (by simp)
    obtain ⟨upper, rfl⟩ := hobject
    rw [valueAt?_cons] at h
    obtain ⟨w, hw, hrest⟩ := Option.bind_eq_some_iff.mp h
    rcases below_cases below with ⟨lower, rfl⟩ | hfree
    · rw [overlay_object_object, valueAt?_cons, get?_mergeFields_of_some hu.nodup hw,
        Option.bind_some, ih (hu.get? hw) hrest, Option.bind_some, valueAt?_cons]
    · rw [overlay_of_below hfree, bind_valueAt?_of_below hfree, overlay_of_below (by simp),
        valueAt?_cons]
      exact h

/-- Where the upper value leads to nothing, although it admits the keys, there lies what the lower
value leads to. -/
theorem valueAt?_overlay_of_none (hu : u.IsProper) {keys : List Text}
    (h : valueAt? u keys = none) (hadmits : u.Admits keys) :
    valueAt? (overlay below u) keys = below.bind (valueAt? · keys) := by
  induction keys generalizing u below with
  | nil => exact absurd h (by simp [valueAt?])
  | cons key rest ih =>
    obtain ⟨upper, rfl⟩ := hadmits.isObject
    rcases below_cases below with ⟨lower, rfl⟩ | hfree
    · rw [overlay_object_object, valueAt?_cons, Option.bind_some, valueAt?_cons]
      rcases hget : upper.get? key with _ | w
      · rw [get?_mergeFields_of_none hu.nodup hget]
      · rw [get?_mergeFields_of_some hu.nodup hget, Option.bind_some]
        rw [valueAt?_cons, hget, Option.bind_some] at h
        exact ih (hu.get? hget) h (admits_cons_iff.mp hadmits w hget)
    · rw [overlay_of_below hfree, bind_valueAt?_of_below hfree, h]

/-- Nothing lies behind a value that is no object. -/
theorem valueAt?_of_blocked {keys way : List Text} (hbegins : way <+: keys) (hne : way ≠ keys)
    (hv : valueAt? u way = some v) (hnot : ¬ v.IsObject) : valueAt? u keys = none := by
  obtain ⟨more, rfl⟩ := hbegins
  rw [valueAt?_append, hv, Option.bind_some]
  obtain _ | ⟨key, rest⟩ := more
  · exact absurd (List.append_nil way).symm hne
  · exact valueAt?_of_not_isObject hnot

/-- **The law of merging.** It says of every list of keys what the merged object has there. -/
structure LaidOver (upper lower merged : Fields) : Prop where
  /-- Where both have an object, these are merged. -/
  merge : ∀ keys (l u : Fields), valueAt? (.object lower) keys = some (.object l) →
    valueAt? (.object upper) keys = some (.object u) →
      valueAt? (.object merged) keys = some (.object (mergeFields l u))
  /-- Anything else in the upper object wins. -/
  win : ∀ keys u, valueAt? (.object upper) keys = some u →
    ¬ (u.IsObject ∧ ∃ l, valueAt? (.object lower) keys = some (.object l)) →
      valueAt? (.object merged) keys = some u
  /-- Behind a value of the upper object that is no object there is nothing. -/
  block : ∀ keys way u, way <+: keys → way ≠ keys → valueAt? (.object upper) way = some u →
    ¬ u.IsObject → valueAt? (.object merged) keys = none
  /-- Everywhere else there is what the lower object has. -/
  stay : ∀ keys, valueAt? (.object upper) keys = none → (Json.object upper).Admits keys →
    valueAt? (.object merged) keys = valueAt? (.object lower) keys
  /-- Wherever objects are merged, the keys of the lower one come first, and the new ones follow. -/
  order : ∀ keys (l u m : Fields), valueAt? (.object lower) keys = some (.object l) →
    valueAt? (.object upper) keys = some (.object u) →
      valueAt? (.object merged) keys = some (.object m) →
        m.keys = l.keys ++ u.keys.filter (· ∉ l.keys)

/-- What keys lead to in a proper value is proper. -/
theorem IsProper.valueAt? (hu : u.IsProper) {keys : List Text}
    (h : valueAt? u keys = some v) : v.IsProper := by
  induction keys generalizing u with
  | nil => exact Option.some.inj h ▸ hu
  | cons key rest ih =>
    by_cases hobject : u.IsObject
    · obtain ⟨fields, rfl⟩ := hobject
      rw [valueAt?_cons] at h
      obtain ⟨w, hw, hrest⟩ := Option.bind_eq_some_iff.mp h
      exact ih (hu.get? hw) hrest
    · rw [valueAt?_of_not_isObject hobject] at h
      exact absurd h (by simp)

theorem laidOver_mergeFields (hupper : IsProper (.object upper)) :
    LaidOver upper lower (mergeFields lower upper) := by
  have hat (keys : List Text) (u : Json) (hu : valueAt? (.object upper) keys = some u) :
      valueAt? (.object (mergeFields lower upper)) keys =
        some (overlay (valueAt? (.object lower) keys) u) := by
    rw [← overlay_object_object]
    exact valueAt?_overlay_of_some hupper hu
  have hboth (keys : List Text) (l u : Fields)
      (hl : valueAt? (.object lower) keys = some (.object l))
      (hu : valueAt? (.object upper) keys = some (.object u)) :
      valueAt? (.object (mergeFields lower upper)) keys = some (.object (mergeFields l u)) := by
    rw [hat keys _ hu, hl, overlay_object_object]
  refine ⟨hboth, fun keys u hu hnot => ?_, fun keys way u hbegins hne hu hobject => ?_,
    fun keys hu hadmits => ?_, fun keys l u m hl hu hm => ?_⟩
  · rw [hat keys u hu]
    by_cases hobject : u.IsObject
    · refine congrArg some (overlay_of_below fun b hb ⟨l, hl⟩ => hnot ⟨hobject, l, ?_⟩)
      exact hl ▸ hb
    · rw [overlay_of_not_isObject hobject]
  · have hsame := hat way u hu
    rw [overlay_of_not_isObject hobject] at hsame
    exact valueAt?_of_blocked hbegins hne hsame hobject
  · rw [← overlay_object_object]
    exact valueAt?_overlay_of_none hupper hu hadmits
  · obtain rfl : mergeFields l u = m :=
      Json.object.inj (Option.some.inj ((hboth keys l u hl hu).symm.trans hm))
    exact keys_mergeFields (hupper.valueAt? hu).nodup

/-! ### Merging again -/

/-- Nothing changes where every value that is laid over an object was there before. -/
theorem mergeFields_eq_lower (hkeys : upper.keys.Nodup)
    (h : ∀ key u, upper.get? key = some u →
      ∃ v, lower.get? key = some v ∧ overlay (some v) u = v) :
    mergeFields lower upper = lower := by
  induction upper with
  | nil => rfl
  | cons entry rest ih =>
    obtain ⟨k, u⟩ := entry
    obtain ⟨hfirst, hrest⟩ := List.nodup_cons.mp hkeys
    obtain ⟨v, hv, hsame⟩ := h k u (by rw [Fields.get?_cons, if_pos rfl])
    rw [mergeFields, hv, hsame, Fields.put_of_get? hv]
    refine ih hrest fun key w hw => h key w ?_
    have hne : key ≠ k := fun heq => hfirst (heq ▸ Fields.mem_keys_of_get? hw)
    rw [Fields.get?_cons, if_neg hne, hw]

/-- A value laid over itself is itself. -/
theorem overlay_self (hv : v.IsProper) : overlay (some v) v = v := by
  induction hv using IsProper.induct with
  | other v _ hnot => exact overlay_of_not_isObject hnot
  | object fields hfields ih =>
    rw [overlay_object_object, mergeFields_eq_lower hfields.nodup]
    exact fun key u hu => ⟨u, hu, ih key u hu⟩

/-- To lay a value over what came of laying it changes nothing. -/
theorem overlay_again (hu : u.IsProper) : overlay (some (overlay below u)) u = overlay below u := by
  induction hu using IsProper.induct generalizing below with
  | other u _ hnot => rw [overlay_of_not_isObject hnot, overlay_of_not_isObject hnot]
  | object upper hupper ih =>
    rcases below_cases below with ⟨lower, rfl⟩ | hfree
    · rw [overlay_object_object, overlay_object_object, mergeFields_eq_lower hupper.nodup]
      exact fun key u hu => ⟨_, get?_mergeFields_of_some hupper.nodup hu, ih key u hu⟩
    · rw [overlay_of_below hfree, overlay_self hupper]

theorem mergeFields_again (hupper : IsProper (.object upper)) :
    mergeFields (mergeFields lower upper) upper = mergeFields lower upper := by
  have hagain : overlay (some (overlay (some (.object lower)) (.object upper))) (.object upper) =
      overlay (some (.object lower)) (.object upper) := overlay_again hupper
  rw [overlay_object_object, overlay_object_object] at hagain
  exact Json.object.inj hagain

/-- An object stays as it is when it is laid over another one, just when the keys of that one come
first in it and each of its values stays as it is when it is laid over the one below. -/
theorem mergeFields_eq_upper_iff (hkeys : upper.keys.Nodup) :
    mergeFields lower upper = upper ↔
      lower.keys <+: upper.keys ∧
        ∀ key u, upper.get? key = some u → overlay (lower.get? key) u = u := by
  constructor
  · intro h
    refine ⟨?_, fun key u hu => ?_⟩
    · rw [← h, keys_mergeFields hkeys]
      exact List.prefix_append _ _
    · have hget : (mergeFields lower upper).get? key = some (overlay (lower.get? key) u) :=
        get?_mergeFields_of_some hkeys hu
      rw [h, hu] at hget
      exact (Option.some.inj hget).symm
  · rintro ⟨⟨new, hnew⟩, hvalues⟩
    -- the keys that are appended are those by which `upper` goes on after the ones of `lower`
    have hsame : (mergeFields lower upper).keys = upper.keys := by
      rw [keys_mergeFields hkeys]
      rw [← hnew] at hkeys ⊢
      obtain ⟨-, -, hdisjoint⟩ := List.nodup_append.mp hkeys
      have hold : lower.keys.filter (· ∉ lower.keys) = [] :=
        List.filter_eq_nil_iff.mpr fun key hkey => by simpa using hkey
      have hall : new.filter (· ∉ lower.keys) = new :=
        List.filter_eq_self.mpr fun key hkey =>
          decide_eq_true fun hmem => hdisjoint key hmem key hkey rfl
      rw [List.filter_append, hold, hall, List.nil_append]
    refine Fields.ext (hsame ▸ hkeys) hsame fun key => ?_
    rcases hget : upper.get? key with _ | u
    · rw [get?_mergeFields_of_none hkeys hget]
      refine Fields.get?_eq_none_iff.mpr fun hmem => Fields.get?_eq_none_iff.mp hget ?_
      exact hnew ▸ List.mem_append_left new hmem
    · rw [get?_mergeFields_of_some hkeys hget, hvalues key u hget]

/-- What came of laying a value over another one stays as it is when it is laid over that one. -/
theorem overlay_absorb (hu : u.IsProper) (hbelow : ∀ b ∈ below, b.IsProper) :
    overlay below (overlay below u) = overlay below u := by
  induction hu using IsProper.induct generalizing below with
  | other u _ hnot => rw [overlay_of_not_isObject hnot, overlay_of_not_isObject hnot]
  | object upper hupper ih =>
    rcases below_cases below with ⟨lower, rfl⟩ | hfree
    · have hlower : IsProper (.object lower) := hbelow _ rfl
      rw [overlay_object_object, overlay_object_object]
      refine congrArg Json.object ((mergeFields_eq_upper_iff ?_).mpr ⟨?_, fun key v hv => ?_⟩)
      · exact nodup_keys_mergeFields hlower.nodup hupper.nodup
      · rw [keys_mergeFields hupper.nodup]
        exact List.prefix_append _ _
      · rcases hget : upper.get? key with _ | w
        · rw [get?_mergeFields_of_none hupper.nodup hget] at hv
          rw [hv, overlay_self (hlower.get? hv)]
        · rw [get?_mergeFields_of_some hupper.nodup hget] at hv
          rw [← Option.some.inj hv]
          exact ih key w hget fun b hb => hlower.get? hb
    · rw [overlay_of_below hfree, overlay_of_below hfree]

theorem mergeFields_absorb (hupper : IsProper (.object upper)) (hlower : IsProper (.object lower)) :
    mergeFields lower (mergeFields lower upper) = mergeFields lower upper := by
  have habsorb : overlay (some (.object lower)) (overlay (some (.object lower)) (.object upper)) =
      overlay (some (.object lower)) (.object upper) :=
    overlay_absorb hupper fun b hb => Option.some.inj hb ▸ hlower
  rw [overlay_object_object, overlay_object_object] at habsorb
  exact Json.object.inj habsorb

end DosConsole.Json
