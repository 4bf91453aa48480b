import DosConsole.Json.Reader
import DosConsole.Proofs.Settings.Fields

/-!
# What is read is proper

While a text is read, the containers that are still open hold proper values, and an object among
them has each key once, since a second field with a key takes the place of the first. Every token
keeps this (`Progress.IsProper.step`), so that the value that comes of a text is proper
(`isProper_of_read`).
-/

namespace DosConsole.Json

/-! ### Tokens -/

namespace Token

/-- The value of the token is proper, if it has one. -/
def IsProper (t : Token) : Prop :=
  ∀ v, t = .scalar v → v.IsProper

theorem isProper_fixed : ∀ entry ∈ fixed, entry.2.IsProper := by
  simp [fixed, IsProper, Json.IsProper.null, Json.IsProper.bool, Json.IsProper.float]

theorem isProper_ofNumeral (n : Numeral) : (ofNumeral n).IsProper := by
  intro v hv
  rw [ofNumeral] at hv
  split at hv
  · rename_i w hw
    obtain rfl := Token.scalar.inj hv
    rw [Numeral.value?] at hw
    split at hw
    · split at hw
      · exact absurd hw (by simp)
      · exact Option.some.inj hw ▸ .int _
    · exact Option.some.inj hw ▸ .float _
  · exact absurd hv (by simp)

/-- Tokens hold no values but scalars. -/
theorem isProper_of_take? {t after : Text} {token : Token} (h : take? t = some (token, after)) :
    token.IsProper := by
  rcases Option.or_eq_some_iff.mp h with h | ⟨-, h⟩
  · obtain ⟨entry, hmem, hentry⟩ := List.exists_of_findSome?_eq_some h
    obtain ⟨rest, -, heq⟩ := Option.map_eq_some_iff.mp hentry
    exact (Prod.mk.inj heq).1 ▸ isProper_fixed entry hmem
  · unfold free? at h
    split at h
    · obtain ⟨⟨s, rest⟩, -, heq⟩ := Option.map_eq_some_iff.mp h
      rintro v rfl
      exact Token.scalar.inj (Prod.mk.inj heq).1 ▸ .str s
    · obtain ⟨⟨n, rest⟩, -, heq⟩ := Option.map_eq_some_iff.mp h
      exact (Prod.mk.inj heq).1 ▸ isProper_ofNumeral n

end Token

/-! ### Open containers -/

/-- What an open container holds so far is proper. -/
def Frame.IsProper : Frame → Prop
  | .item done => ∀ v ∈ done, v.IsProper
  | .field done _ => (Json.object done).IsProper

namespace Progress

/-- **The invariant of reading.** All that was read so far is proper. -/
def IsProper : Progress → Prop
  | .value stack | .listStart stack | .objectStart stack => ∀ f ∈ stack, f.IsProper
  | .listRest done stack => (∀ v ∈ done, v.IsProper) ∧ ∀ f ∈ stack, f.IsProper
  | .nextKey done stack | .colon done _ stack | .objectRest done stack =>
    (Json.object done).IsProper ∧ ∀ f ∈ stack, f.IsProper
  | .complete v => v.IsProper

variable {stack : List Frame} {p after : Progress} {v : Json} {t : Token}

/-- A proper value may be handed to any open container. -/
theorem isProper_deliver (hv : v.IsProper) (hstack : ∀ f ∈ stack, f.IsProper) :
    (deliver v stack).IsProper := by
  obtain _ | ⟨f, rest⟩ := stack
  · exact hv
  obtain ⟨hf, hrest⟩ := List.forall_mem_cons.mp hstack
  obtain done | ⟨done, key⟩ := f
  · exact ⟨List.forall_mem_cons.mpr ⟨hv, hf⟩, hrest⟩
  · exact ⟨IsProper.put hf hv, hrest⟩

theorem isProper_enter {c : Container} (hstack : ∀ f ∈ stack, f.IsProper)
    (h : enter c stack = .ok after) : after.IsProper := by
  unfold enter at h
  split at h
  · exact absurd h (by simp)
  · split at h
    · exact Except.ok.inj h ▸ hstack
    · exact Except.ok.inj h ▸ hstack

theorem isProper_begin (ht : t.IsProper) (hstack : ∀ f ∈ stack, f.IsProper)
    (h : begin t stack = .ok after) : after.IsProper := by
  unfold begin at h
  split at h
  · rename_i v
    exact Except.ok.inj h ▸ isProper_deliver (ht v rfl) hstack
  · exact absurd h (by simp)
  · exact isProper_enter hstack h
  · exact isProper_enter hstack h
  · exact absurd h (by simp)

/-- **One token.** What was read stays proper. -/
theorem IsProper.step (hp : p.IsProper) (ht : t.IsProper) (h : p.step t = .ok after) :
    after.IsProper := by
  unfold Progress.step at h
  -- the cases are those of `step`, and what is handed on in each of them comes from `p`
  split at h
  · exact isProper_begin ht hp h
  · exact Except.ok.inj h ▸ isProper_deliver (.list fun _ hv => absurd hv List.not_mem_nil) hp
  · refine isProper_begin ht (List.forall_mem_cons.mpr ⟨?_, hp⟩) h
    exact fun _ hv => absurd hv List.not_mem_nil
  · exact Except.ok.inj h ▸ List.forall_mem_cons.mpr hp
  · refine Except.ok.inj h ▸ isProper_deliver (.list fun v hv => ?_) hp.2
    exact hp.1 v (List.mem_reverse.mp hv)
  · exact Except.ok.inj h ▸ isProper_deliver isProper_empty hp
  · exact Except.ok.inj h ▸ ⟨isProper_empty, hp⟩
  · exact Except.ok.inj h ▸ hp
  · exact Except.ok.inj h ▸ List.forall_mem_cons.mpr hp
  · exact Except.ok.inj h ▸ hp
  · exact Except.ok.inj h ▸ isProper_deliver hp.1 hp.2
  · exact absurd h (by simp)

theorem isProper_of_finish (hp : p.IsProper) (h : p.finish = .ok v) : v.IsProper := by
  unfold finish at h
  split at h
  · exact Except.ok.inj h ▸ hp
  · exact absurd h (by simp)

/-- What comes of reading on from proper values is proper. -/
theorem IsProper.of_run {t : Text} (hp : p.IsProper) (h : p.run t = .ok v) : v.IsProper := by
  fun_induction run p t with
  | case1 p t hend => exact isProper_of_finish hp h
  | case2 => exact absurd h (by simp)
  | case3 => exact absurd h (by simp)
  | case4 p t c rest hmore token after htoken next hnext ih =>
    exact ih (hp.step (Token.isProper_of_take? htoken) hnext) h

end Progress

/-- The value of a text is proper. -/
theorem isProper_of_read {t : Text} {v : Json} (h : read t = .ok v) : v.IsProper := by
  have hstart : (Progress.value []).IsProper := List.forall_mem_nil _
  exact hstart.of_run h

theorem isProper_of_readBytes {bytes : ByteArray} {v : Json} (h : readBytes bytes = .ok v) :
    v.IsProper := by
  rw [readBytes] at h
  split at h
  · exact isProper_of_read h
  · exact absurd h (by simp)

end DosConsole.Json
