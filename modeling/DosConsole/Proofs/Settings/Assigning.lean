import DosConsole.Proofs.Settings.Memory
import DosConsole.Proofs.Settings.Merging

/-!
# Assigning a value

For values that are not held by reference, assigning is a function (`Json.assign`). A value is
assigned just when the value that is assigned to admits the keys (`Json.assign_returns_iff`). Then
the keys lead to it (`Json.valueAt?_assign`), and what all other keys lead to stays
(`Json.valueAt?_assign_of_ne`).

Assigning by reference changes one object, and makes those that are missing on the way to it. If no
object is met twice, neither behind the reference that is assigned to nor behind the one that is
assigned, it does to the value what the function does, and again no object is met twice
(`Memory.assign_cases`). If the value is refused nothing has happened to the memory: objects are
only made where one is missing, and on from there nothing is in the way.
-/

namespace DosConsole

namespace Json

/-- Assigns the value that a list of keys leads to. Objects that are missing on the way are
made. -/
def assign (v : Json) : (keys : List Text) → (target : Json) → Except AssignError Json
  | [], _ => .ok v
  | [key], .object fields => .ok (.object (Fields.put fields key v))
  | [_], .list _ => .error .insideList
  | [_], target => .error (.notAssignable target.kind)
  | key :: rest, .object fields =>
    match assign v rest ((Fields.get? fields key).getD (.object [])) with
    | .error e => .error e
    | .ok inner => .ok (.object (Fields.put fields key inner))
  | key :: _, target => .error (obstacle key target)

variable {v target after : Json} {fields : Fields} {key : Text} {keys rest other : List Text}
  {below : Option Json}

/-- The value under the key, or an object that is made for it, is assigned to in turn. -/
theorem assign_cons_object :
    assign v (key :: rest) (.object fields) =
      (assign v rest ((fields.get? key).getD (.object []))).map fun inner =>
        .object (fields.put key inner) := by
  obtain _ | ⟨next, more⟩ := rest
  · rfl
  · rw [assign]
    · cases assign v (next :: more) ((fields.get? key).getD (.object [])) with
      | error e => rfl
      | ok inner => rfl
    · exact List.cons_ne_nil next more

/-- Nothing is assigned to what is no object. -/
theorem assign_cons_of_not_isObject (h : ¬ target.IsObject) :
    ∃ cause, assign v (key :: rest) target = .error cause := by
  cases target with
  | object fields => exact absurd (isObject_object fields) h
  | _ =>
    obtain _ | ⟨next, more⟩ := rest
    · exact ⟨_, rfl⟩
    · exact ⟨_, rfl⟩

theorem assign_cons_eq_ok_iff :
    assign v (key :: rest) target = .ok after ↔
      ∃ (fields : Fields) (inner : Json), target = .object fields ∧
        assign v rest ((fields.get? key).getD (.object [])) = .ok inner ∧
          after = .object (fields.put key inner) := by
  constructor
  · intro h
    have hobject : target.IsObject := by
      by_contra hnot
      obtain ⟨cause, hcause⟩ := assign_cons_of_not_isObject hnot
      rw [hcause] at h
      exact absurd h (by simp)
    obtain ⟨fields, rfl⟩ := hobject
    rw [assign_cons_object] at h
    rcases hinner : assign v rest ((fields.get? key).getD (.object [])) with e | inner
    · rw [hinner] at h
      exact absurd h (by simp [Except.map])
    · rw [hinner] at h
      exact ⟨fields, inner, rfl, hinner, (Except.ok.inj h).symm⟩
  · rintro ⟨fields, inner, rfl, hinner, rfl⟩
    rw [assign_cons_object, hinner]
    rfl

theorem admits_empty (keys : List Text) : (Json.object []).Admits keys := by
  obtain _ | ⟨key, rest⟩ := keys
  · exact admits_nil _
  · exact admits_cons_iff.mpr fun w hw => absurd hw (by simp [Fields.get?])

/-- A value is assigned just when no value on the way is anything but an object. -/
theorem assign_returns_iff : (∃ after, assign v keys target = .ok after) ↔ target.Admits keys := by
  induction keys generalizing target with
  | nil => exact iff_of_true ⟨v, rfl⟩ (admits_nil target)
  | cons key rest ih =>
    constructor
    · rintro ⟨after, h⟩
      obtain ⟨fields, inner, rfl, hinner, -⟩ := assign_cons_eq_ok_iff.mp h
      refine admits_cons_iff.mpr fun w hw => ih.mp ⟨inner, ?_⟩
      rwa [hw] at hinner
    · intro h
      obtain ⟨fields, rfl⟩ := h.isObject
      have hadmits : ((fields.get? key).getD (.object [])).Admits rest := by
        rcases hget : fields.get? key with _ | w
        · exact admits_empty rest
        · exact admits_cons_iff.mp h w hget
      obtain ⟨inner, hinner⟩ := ih.mpr hadmits
      exact ⟨_, assign_cons_eq_ok_iff.mpr ⟨fields, inner, rfl, hinner, rfl⟩⟩

/-- The keys lead to the value that was assigned. -/
theorem valueAt?_assign (h : assign v keys target = .ok after) : valueAt? after keys = some v := by
  induction keys generalizing target after with
  | nil => exact congrArg some (Except.ok.inj h).symm
  | cons key rest ih =>
    obtain ⟨fields, inner, rfl, hinner, rfl⟩ := assign_cons_eq_ok_iff.mp h
    rw [valueAt?_cons, Fields.get?_put, if_pos rfl]
    exact ih hinner

/-- Keys that neither begin those that were assigned to nor go on from them lead to what they led
to. -/
theorem valueAt?_assign_of_ne (h : assign v keys target = .ok after) (hbefore : ¬ other <+: keys)
    (hbehind : ¬ keys <+: other) : valueAt? after other = valueAt? target other := by
  induction keys generalizing target after other with
  | nil => exact absurd List.nil_prefix hbehind
  | cons key rest ih =>
    obtain ⟨fields, inner, rfl, hinner, rfl⟩ := assign_cons_eq_ok_iff.mp h
    obtain _ | ⟨first, more⟩ := other
    · exact absurd List.nil_prefix hbefore
    · rw [valueAt?_cons, valueAt?_cons, Fields.get?_put]
      by_cases heq : first = key
      · subst heq
        rw [List.prefix_cons_inj] at hbefore hbehind
        rw [if_pos rfl, Option.bind_some, ih hinner hbefore hbehind]
        rcases fields.get? first with _ | w
        · -- an object was made here, and behind the keys that are left it held nothing
          obtain _ | ⟨next, last⟩ := more
          · exact absurd List.nil_prefix hbefore
          · rfl
        · rfl
      · rw [if_neg heq]

/-- What comes of assigning is proper. -/
theorem IsProper.assign (htarget : target.IsProper) (hv : v.IsProper)
    (h : assign v keys target = .ok after) : after.IsProper := by
  induction keys generalizing target after with
  | nil => exact Except.ok.inj h ▸ hv
  | cons key rest ih =>
    obtain ⟨fields, inner, rfl, hinner, rfl⟩ := assign_cons_eq_ok_iff.mp h
    refine htarget.put (ih ?_ hinner)
    rcases hget : fields.get? key with _ | w
    · exact isProper_empty
    · exact htarget.get? hget

/-- A value that stays as it is when it is laid over another one still does after an assignment,
unless this puts an object over an object. -/
theorem overlay_assign (htarget : target.IsProper) (hv : v.IsProper)
    (h : assign v keys target = .ok after) (hrests : overlay below target = target)
    (hapart : v.IsObject → ∀ b, below.bind (valueAt? · keys) = some b → ¬ b.IsObject) :
    overlay below after = after := by
  induction keys generalizing target after below with
  | nil =>
    obtain rfl := Except.ok.inj h
    by_cases hobject : v.IsObject
    · refine overlay_of_below fun b hb => hapart hobject b ?_
      rw [Option.mem_def.mp hb]
      rfl
    · exact overlay_of_not_isObject hobject
  | cons key rest ih =>
    obtain ⟨fields, inner, rfl, hinner, rfl⟩ := assign_cons_eq_ok_iff.mp h
    rcases below_cases below with ⟨lower, rfl⟩ | hfree
    · have hproper := htarget.assign hv h
      rw [overlay_object_object] at hrests ⊢
      obtain ⟨hkeys, hvalues⟩ :=
        (mergeFields_eq_upper_iff htarget.nodup).mp (Json.object.inj hrests)
      refine congrArg Json.object ((mergeFields_eq_upper_iff hproper.nodup).mpr
        ⟨hkeys.trans ?_, fun k u hu => ?_⟩)
      · rw [Fields.keys_put]
        split
        · exact List.prefix_rfl
        · exact List.prefix_append _ _
      · rw [Fields.get?_put] at hu
        by_cases heq : k = key
        · subst heq
          rw [if_pos rfl] at hu
          obtain rfl := Option.some.inj hu
          rw [Option.bind_some, valueAt?_cons] at hapart
          rcases hget : fields.get? k with _ | w
          · -- a key that is missing here is missing below, whose keys all are here
            have hmissing : lower.get? k = none := by
              refine Fields.get?_eq_none_iff.mpr fun hmem => ?_
              exact Fields.get?_eq_none_iff.mp hget (hkeys.subset hmem)
            rw [hmissing]
            exact overlay_of_below (by simp)
          · rw [hget] at hinner
            exact ih (htarget.get? hget) hinner (hvalues k w hget) hapart
        · rw [if_neg heq] at hu
          exact hvalues k u hu
    · exact overlay_of_below hfree

end Json

namespace Memory

open Json

variable {m after : Memory} {r s target : Ref} {u v w : Json} {fields : Fields Ref} {ws : Fields}
  {met own now before here behind : List Nat} {number n : Nat} {key : Text} {keys : List Text}

/-! ### One object -/

theorem size_put (m : Memory) (number : Nat) (key : Text) (r : Ref) :
    (m.put number key r).size = m.size :=
  List.length_modify ..

theorem objects_put (h : m.objects[number]? = some fields) (key : Text) (r : Ref) :
    (m.put number key r).objects[number]? = some (fields.put key r) := by
  rw [put, List.getElem?_modify_eq, h]
  rfl

/-- What is put into an object does not concern other objects. -/
theorem objects_put_of_ne (h : n ≠ number) (key : Text) (r : Ref) :
    (m.put number key r).objects[n]? = m.objects[n]? :=
  List.getElem?_modify_ne _ _ (Ne.symm h)

/-- What came of an assignment. The keys lead to the very reference that was assigned, and objects
that were not met before are those behind it, or new. -/
structure Assigned (m after : Memory) (target : Ref) (keys : List Text) (r : Ref) (v : Json)
    (met own : List Nat) : Prop where
  held : after.follow? target keys = some r
  size : m.size ≤ after.size
  kept : ∀ n, n < m.size → n ∉ met → after.objects[n]? = m.objects[n]?
  reads : ∃ now, Reads after [target] [v] now ∧ now.Nodup ∧
    ∀ n ∈ now, n ∈ met ∨ n ∈ own ∨ m.size ≤ n

/-- An object that is met, with what is met behind the field of one key between what is met behind
the others. Nothing is met twice, and nothing of it is met behind the value to be assigned. -/
structure Focus (m : Memory) (number : Nat) (fields : Fields Ref) (ws : Fields) (key : Text)
    (before here behind own : List Nat) : Prop where
  object : m.objects[number]? = some fields
  nodup : (number :: (before ++ (here ++ behind))).Nodup
  old : ∀ n ∈ before ++ (here ++ behind), n < m.size
  apart : ∀ n ∈ own, n ∉ number :: (before ++ (here ++ behind))
  put : ∀ (after : Memory) (r : Ref) (v : Json) (now : List Nat),
    (∀ n ∈ before ++ behind, after.objects[n]? = m.objects[n]?) → Reads after [r] [v] now →
      ReadsFields after (fields.put key r) (ws.put key v) (before ++ (now ++ behind))

namespace Focus

/-- **One step of the way.** Let what stands under a key of an object be exchanged, and let the rest
of the object be as it was. Then the object stands for what it stood for with the other value under
the key. -/
theorem assigned (h : m.Focus number fields ws key before here behind own)
    (hobject : after.objects[number]? = some (fields.put key s)) {rest : List Text}
    (hheld : after.follow? s rest = some r) (hsize : m.size ≤ after.size)
    (hkept : ∀ n, n < m.size → n ∉ number :: here → after.objects[n]? = m.objects[n]?)
    (hnew : Reads after [s] [u] now) (hnow : now.Nodup)
    (hfrom : ∀ n ∈ now, n ∈ here ∨ n ∈ own ∨ m.size ≤ n) :
    Assigned m after (.object number) (key :: rest) r (.object (ws.put key u))
      (number :: (before ++ (here ++ behind))) own := by
  have hnumber := lt_size h.object
  have hold := h.old
  have hapart := h.apart
  obtain ⟨hself, hinside⟩ := List.nodup_cons.mp h.nodup
  simp only [List.nodup_append, List.mem_append, List.mem_cons] at *
  refine ⟨?_, hsize, fun n hn hnot => hkept n hn ?_, number :: (before ++ (now ++ behind)), ?_, ?_,
    ?_⟩
  · rw [follow?, fieldsOf_eq hobject, Fields.get?_put, if_pos rfl]
    exact hheld
  · grind
  · refine Reads.object_iff.mpr ⟨_, _, _, rfl, rfl, hobject, h.put after s u now ?_ hnew⟩
    grind
  · grind
  · grind

/-- The value is put into this object. -/
theorem assign_here (h : m.Focus number fields ws key before here behind own)
    (hr : Reads m [r] [v] own) (hown : own.Nodup) :
    Assigned m (m.put number key r) (.object number) [key] r (.object (ws.put key v))
      (number :: (before ++ (here ++ behind))) own := by
  have hother (n : Nat) (hn : n ≠ number) := objects_put_of_ne (m := m) hn key r
  refine h.assigned (objects_put h.object key r) ?_ (Nat.le_of_eq (size_put m number key r).symm)
    (fun n _ hn => hother n (List.ne_of_not_mem_cons hn)) (hr.frame fun n hn => hother n ?_) hown
    fun n hn => .inr (.inl hn)
  · rw [follow?]
  · rintro rfl
    exact h.apart n hn List.mem_cons_self

/-- What is there is assigned to, and the object itself does not change. -/
theorem assign_inside (h : m.Focus number fields ws key before here behind own)
    (hs : fields.get? key = some s) {rest : List Text}
    (hinside : Assigned m after s rest r u here own) :
    Assigned m after (.object number) (key :: rest) r (.object (ws.put key u))
      (number :: (before ++ (here ++ behind))) own := by
  obtain ⟨now, hnow, hnodup, hfrom⟩ := hinside.reads
  have hnotHere : number ∉ here := fun hmem => (List.nodup_cons.mp h.nodup).1
    (List.mem_append_right _ (List.mem_append_left _ hmem))
  refine h.assigned ?_ hinside.held hinside.size
    (fun n hn hmem => hinside.kept n hn (List.not_mem_of_not_mem_cons hmem)) hnow hnodup hfrom
  rw [Fields.put_of_get? hs, hinside.kept number (lt_size h.object) hnotHere, h.object]

/-- A memory in which a new object was put under a key of an object. -/
def begun (m : Memory) (number : Nat) (key : Text) : Memory :=
  (m.new []).1.put number key (.object m.size)

theorem size_begun (m : Memory) (number : Nat) (key : Text) :
    (begun m number key).size = m.size + 1 :=
  (size_put _ number key _).trans (size_new m [])

theorem objects_begun (hn : n < m.size) (hne : n ≠ number) :
    (begun m number key).objects[n]? = m.objects[n]? :=
  (objects_put_of_ne hne key _).trans (objects_new_of_lt hn [])

theorem reads_begun (hnumber : number < m.size) (key : Text) :
    Reads (begun m number key) [.object m.size] [.object []] [m.size] := by
  have hmade : (begun m number key).objects[m.size]? = some [] :=
    (objects_put_of_ne (Nat.ne_of_gt hnumber) key _).trans (objects_new m [])
  exact Reads.object_iff.mpr ⟨[], [], [], rfl, rfl, hmade, rfl, .nil⟩

/-- An object that was made is assigned to. -/
theorem assign_made (h : m.Focus number fields ws key before [] behind own) {rest : List Text}
    (hmade : Assigned (begun m number key) after (.object m.size) rest r u [m.size] own) :
    Assigned m after (.object number) (key :: rest) r (.object (ws.put key u))
      (number :: (before ++ ([] ++ behind))) own := by
  obtain ⟨now, hnow, hnodup, hfrom⟩ := hmade.reads
  have hnumber := lt_size h.object
  have hsize := size_begun m number key
  have hkept (n : Nat) (hn : n < m.size) :
      after.objects[n]? = (begun m number key).objects[n]? := by
    refine hmade.kept n (by omega) fun hmem => ?_
    rw [List.mem_singleton.mp hmem] at hn
    exact Nat.lt_irrefl _ hn
  refine h.assigned ?_ hmade.held (Nat.le_trans (by omega) hmade.size) (fun n hn hmem => ?_) hnow
    hnodup fun n hn => ?_
  · rw [hkept number hnumber]
    exact objects_put ((objects_new_of_lt hnumber []).trans h.object) key _
  · exact (hkept n hn).trans (objects_begun hn (List.ne_of_not_mem_cons hmem))
  · rcases hfrom n hn with hn | hn | hn
    · exact .inr (.inr (Nat.le_of_eq (List.mem_singleton.mp hn).symm))
    · exact .inr (.inl hn)
    · exact .inr (.inr (by omega))

end Focus

/-! ### All the way -/

/-- What is no object is in the way of both. -/
theorem assign_eq_error (htarget : Reads m [target] [w] met) (hnot : ¬ w.IsObject)
    (rest : List Text) :
    ∃ cause, Json.assign v (key :: rest) w = .error cause ∧
      m.assign r (key :: rest) target = (m, .error cause) := by
  cases target with
  | object number =>
    obtain ⟨fields, ws, inside, rfl, -⟩ := Reads.object_iff.mp htarget
    exact absurd (isObject_object ws) hnot
  | list items =>
    obtain ⟨ws, rfl, -⟩ := Reads.list_iff.mp htarget
    obtain _ | ⟨next, more⟩ := rest
    · exact ⟨_, rfl, rfl⟩
    · exact ⟨_, rfl, rfl⟩
  | _ =>
    obtain ⟨rfl, -⟩ := (Reads.plain_iff rfl).mp htarget
    obtain _ | ⟨next, more⟩ := rest
    · exact ⟨_, rfl, rfl⟩
    · exact ⟨_, rfl, rfl⟩

/-- The reference under a key of an object is assigned to in turn. -/
theorem assign_of_get?_some {next : Text} {rest : List Text}
    (hobject : m.objects[number]? = some fields) (hget : fields.get? key = some s) :
    m.assign r (key :: next :: rest) (.object number) = m.assign r (next :: rest) s := by
  rw [assign, fieldsOf_eq hobject, hget]
  exact List.cons_ne_nil next rest

/-- If there is none, a new object is put there and assigned to. -/
theorem assign_of_get?_none {next : Text} {rest : List Text}
    (hobject : m.objects[number]? = some fields) (hget : fields.get? key = none) :
    m.assign r (key :: next :: rest) (.object number) =
      (Focus.begun m number key).assign r (next :: rest) (.object m.size) := by
  rw [assign, fieldsOf_eq hobject, hget]
  · rfl
  · exact List.cons_ne_nil next rest

/-- A reference that stands for an object is the number of one, on which any key can be focused. -/
theorem exists_focus (htarget : Reads m [target] [.object ws] met) (hnodup : (met ++ own).Nodup)
    (key : Text) :
    ∃ number fields before here behind, target = .object number ∧
      met = number :: (before ++ (here ++ behind)) ∧
        m.Focus number fields ws key before here behind own ∧
          ((fields.get? key = none ∧ ws.get? key = none ∧ here = []) ∨
            ∃ s u, fields.get? key = some s ∧ ws.get? key = some u ∧ Reads m [s] [u] here) := by
  obtain ⟨number, rfl⟩ : ∃ number, target = .object number := by
    cases target with
    | object number => exact ⟨number, rfl⟩
    | list items =>
      obtain ⟨_, heq, -⟩ := Reads.list_iff.mp htarget
      cases heq
    | _ =>
      obtain ⟨heq, -⟩ := (Reads.plain_iff rfl).mp htarget
      cases heq
  obtain ⟨fields, _, inside, heq, rfl, hobject, hfields⟩ := Reads.object_iff.mp htarget
  obtain rfl := Json.object.inj heq
  obtain ⟨before, here, behind, rfl, hhere, hput⟩ := hfields.focus key
  obtain ⟨hmet, -, hapart⟩ := List.nodup_append.mp hnodup
  exact ⟨number, fields, before, here, behind, rfl, rfl, ⟨hobject, hmet, hfields.values.lt_size,
    fun n hn hmem => hapart n hmem n hn rfl, hput⟩, hhere⟩

/-- **Assigning by reference.** If no object is met twice behind the reference that is assigned to
and the one that is assigned, it is refused as it is for the values, and the memory is as it was; or
what comes of it stands for what comes of assigning the value. -/
theorem assign_cases (htarget : Reads m [target] [w] met) (hr : Reads m [r] [v] own)
    (hnodup : (met ++ own).Nodup) (hkeys : keys ≠ []) :
    (∃ cause, Json.assign v keys w = .error cause ∧ m.assign r keys target = (m, .error cause)) ∨
      ∃ w' after, Json.assign v keys w = .ok w' ∧ m.assign r keys target = (after, .ok ()) ∧
        Assigned m after target keys r w' met own := by
  induction keys generalizing m target w met with
  | nil => exact absurd rfl hkeys
  | cons key rest ih =>
    by_cases hobject : w.IsObject
    swap
    · exact .inl (assign_eq_error htarget hobject rest)
    obtain ⟨ws, rfl⟩ := hobject
    obtain ⟨number, fields, before, here, behind, rfl, rfl, hfocus, hhere⟩ :=
      exists_focus htarget hnodup key
    have hown := (List.nodup_append.mp hnodup).2.1
    have hownLt := hr.lt_size
    obtain _ | ⟨next, more⟩ := rest
    · exact .inr ⟨_, _, rfl, rfl, hfocus.assign_here hr hown⟩
    rw [assign_cons_object]
    obtain ⟨hnone, hnone', rfl⟩ | ⟨s, u, hs, hu, hreads⟩ := hhere
    · have hown' : Reads (Focus.begun m number key) [r] [v] own := by
        refine hr.frame fun n hn => Focus.objects_begun (hownLt n hn) ?_
        rintro rfl
        exact hfocus.apart n hn List.mem_cons_self
      rw [assign_of_get?_none hfocus.object hnone, hnone', Option.getD_none]
      obtain ⟨cause, hcause, -⟩ | ⟨inner, after, hinner, hafter, hassigned⟩ :=
        ih (Focus.reads_begun (lt_size hfocus.object) key) hown'
          (List.nodup_cons.mpr ⟨fun hmem => Nat.lt_irrefl _ (hownLt _ hmem), hown⟩)
          (List.cons_ne_nil next more)
      · -- nothing is in the way in an object that was made
        obtain ⟨inner, hinner⟩ := assign_returns_iff.mpr (admits_empty (next :: more))
        exact absurd (hcause.symm.trans hinner) (by simp)
      · exact .inr ⟨_, after, by rw [hinner]; rfl, hafter, hfocus.assign_made hassigned⟩
    · have hhere : (here ++ own).Nodup := by
        refine hnodup.sublist (List.Sublist.append_right ?_ own)
        exact ((List.sublist_append_left here behind).trans
          (List.sublist_append_right before _)).cons number
      rw [assign_of_get?_some hfocus.object hs, hu, Option.getD_some]
      obtain ⟨cause, hcause, hrefused⟩ | ⟨inner, after, hinner, hafter, hassigned⟩ :=
        ih hreads hr hhere (List.cons_ne_nil next more)
      · exact .inl ⟨cause, by rw [hcause]; rfl, hrefused⟩
      · exact .inr ⟨_, after, by rw [hinner]; rfl, hafter, hfocus.assign_inside hs hassigned⟩

end Memory

end DosConsole
