import DosConsole.Text.Case
import Mathlib.Data.List.Basic

/-!
# Lower case of names

The lower-case form of a character is never empty, and only the double quote has a double quote in
its form. So a text keeps in lower case what tokens are about: the form of a text that is not empty
is not empty (`lower_ne_nil`), and it holds a double quote only where the text held one
(`quote_mem_of_mem_lower`). What is in lower case stays as it is (`lower_lower`), so that it does
not matter how often a name is taken to lower case on its way to a command.

In the table of runs both are a matter of distance. No run starts so low and moves so far down that
it meets the code of the double quote, or that of a capital letter of ASCII, and what a run moves to
belongs to no run.
-/

namespace DosConsole.Text

/-! ### One character -/

/-- What is no code gives the null character. -/
private theorem toNat_ofNat (n : Nat) : (Char.ofNat n).toNat = n ∨ (Char.ofNat n).toNat = 0 := by
  by_cases hvalid : n.isValidChar
  · rw [Char.ofNat, dif_pos hvalid]
    exact .inl rfl
  · rw [Char.ofNat, dif_neg hvalid]
    exact .inr rfl

/-- Only the code of the double quote gives a double quote. -/
private theorem eq_of_ofNat {n : Nat} (h : Char.ofNat n = '"') : n = 34 := by
  have hcode := toNat_ofNat n
  rw [h] at hcode
  rcases hcode with hcode | hcode
  · exact hcode.symm
  · exact absurd hcode (by decide)

private theorem toLower_eq_self {c : Char} (h : ¬ (65 ≤ c.toNat ∧ c.toNat ≤ 90)) :
    c.toLower = c := by
  delta Char.toLower
  split
  · rename_i hrange
    exact absurd ⟨hrange.1, hrange.2⟩ h
  · rfl

private theorem eq_quote_of_toLower {c : Char} (h : c.toLower = '"') : c = '"' := by
  by_cases hcapital : 65 ≤ c.toNat ∧ c.toNat ≤ 90
  · have hascii : ∀ n < 91, (Char.ofNat n).toLower = '"' → Char.ofNat n = '"' := by decide
    have hc := hascii c.toNat (by omega)
    rw [Char.ofNat_toNat] at hc
    exact hc h
  · rw [toLower_eq_self hcapital] at h
    exact h

/-- What is moved to lower case ends up above the double quote and the capitals of ASCII. -/
private theorem lowerRuns_above : ∀ r ∈ lowerRuns, 90 < r.first + r.shift := by
  decide +kernel

private theorem ne_quote_of_image? {r : CaseRun} (hr : r ∈ lowerRuns) {c d : Char}
    (h : r.image? c = some d) : d ≠ '"' := by
  rintro rfl
  rw [CaseRun.image?] at h
  split at h
  · rename_i hrange
    have hcode := eq_of_ofNat (Option.some.inj h)
    have habove := lowerRuns_above r hr
    omega
  · exact absurd h (by simp)

private theorem lowerExpansions_plain : ∀ e ∈ lowerExpansions, e.2 ≠ [] ∧ 34 ∉ e.2 := by
  decide

private theorem mem_of_lookup {n : Nat} {codes : List Nat}
    (h : lowerExpansions.lookup n = some codes) : (n, codes) ∈ lowerExpansions := by
  obtain ⟨before, after, heq, -⟩ := List.lookup_eq_some_iff.mp h
  exact heq ▸ List.mem_append_right _ List.mem_cons_self

private theorem plain_of_lookup {n : Nat} {codes : List Nat}
    (h : lowerExpansions.lookup n = some codes) : codes ≠ [] ∧ 34 ∉ codes :=
  lowerExpansions_plain (n, codes) (mem_of_lookup h)

theorem lowerChar_ne_nil (c : Char) : lowerChar c ≠ [] := by
  rw [lowerChar]
  split
  · exact List.cons_ne_nil _ _
  · split
    · rename_i codes hlookup
      exact fun h => (plain_of_lookup hlookup).1 (List.map_eq_nil_iff.mp h)
    · exact List.cons_ne_nil _ _

/-- Only the double quote has a double quote in its lower-case form. -/
theorem eq_quote_of_mem_lowerChar {c : Char} (h : '"' ∈ lowerChar c) : c = '"' := by
  rw [lowerChar] at h
  split at h
  · exact eq_quote_of_toLower (List.mem_singleton.mp h).symm
  · split at h
    · rename_i codes hlookup
      obtain ⟨n, hn, hcode⟩ := List.mem_map.mp h
      exact absurd (eq_of_ofNat hcode ▸ hn) (plain_of_lookup hlookup).2
    · cases himage : lowerRuns.findSome? (·.image? c) with
      | none =>
        rw [himage] at h
        exact (List.mem_singleton.mp h).symm
      | some d =>
        rw [himage] at h
        obtain ⟨r, hr, hd⟩ := List.exists_of_findSome?_eq_some himage
        exact absurd (List.mem_singleton.mp h).symm (ne_quote_of_image? hr hd)

/-! ### One character in lower case -/

/-- The code of the first character that a run moves to. -/
def CaseRun.imageFirst (r : CaseRun) : Nat :=
  (r.first + r.shift).toNat

/-- The code of the last character that a run moves to. -/
def CaseRun.imageLast (r : CaseRun) : Nat :=
  (r.last + r.shift).toNat

/-- What the run `r` moves to **avoids** the run `s`: it lies on one side of it, or `s` takes every
second character and it is among the others. -/
def CaseRun.avoids (r s : CaseRun) : Bool :=
  Nat.blt r.imageLast s.first || Nat.blt s.last r.imageFirst ||
    ((Nat.beq r.step 2 || Nat.beq r.first r.last) && Nat.beq s.step 2 &&
      Nat.beq ((r.imageFirst + s.first) % 2) 1)

private theorem lowerRuns_avoid : lowerRuns.all (fun r => lowerRuns.all r.avoids) = true := by
  decide +kernel

/-- What is expanded is in no run's image. -/
private theorem lowerExpansions_avoid :
    ∀ r ∈ lowerRuns, ∀ e ∈ lowerExpansions, r.avoids ⟨e.1, e.1, 1, 0⟩ = true := by
  decide +kernel

private theorem lowerChar_expansion :
    ∀ e ∈ lowerExpansions, ∀ n ∈ e.2, lowerChar (Char.ofNat n) = [Char.ofNat n] := by
  decide +kernel

private theorem toLower_toLower {c : Char} (h : c.toNat < 128) :
    c.toLower.toNat < 128 ∧ c.toLower.toLower = c.toLower := by
  have hascii : ∀ n < 128, (Char.ofNat n).toLower.toNat < 128 ∧
      (Char.ofNat n).toLower.toLower = (Char.ofNat n).toLower := by decide
  have hc := hascii c.toNat h
  rw [Char.ofNat_toNat] at hc
  exact hc

/-- A run does not hold what was moved so as to avoid it. -/
private theorem image?_of_avoids {r s : CaseRun} (hr : r ∈ lowerRuns) (havoids : r.avoids s = true)
    {c d : Char} (hd : d.toNat ≠ 0) (h : r.image? c = some d) : s.image? d = none := by
  have habove := lowerRuns_above r hr
  rw [CaseRun.image?] at h
  split at h
  · rename_i hrange
    have hcode : d.toNat = (c.toNat + r.shift).toNat := by
      rw [← Option.some.inj h] at hd ⊢
      exact (toNat_ofNat _).resolve_right hd
    rw [CaseRun.image?, if_neg]
    intro hin
    simp only [CaseRun.avoids, CaseRun.imageFirst, CaseRun.imageLast, Bool.or_eq_true,
      Bool.and_eq_true, Nat.blt_eq, Nat.beq_eq] at havoids
    obtain ⟨hfirst, hlast, hstep⟩ := hrange
    rcases havoids with (hbelow | hbeyond) | ⟨⟨hsecond, htwo⟩, hodd⟩
    · omega
    · omega
    · -- both are at an even distance from the first of their run, and the two firsts are not
      have heven : (c.toNat - r.first) % 2 = 0 := by
        rcases hsecond with hsecond | hsingle
        · rw [hsecond] at hstep
          exact hstep
        · omega
      rw [htwo] at hin
      omega
  · exact absurd h (by simp)

/-- A character that is neither expanded nor in a run is its own lower-case form. -/
private theorem lowerChar_eq_self {c : Char} (hascii : 128 ≤ c.toNat)
    (hexpansion : lowerExpansions.lookup c.toNat = none)
    (hruns : ∀ r ∈ lowerRuns, r.image? c = none) : lowerChar c = [c] := by
  have hnone : lowerRuns.findSome? (·.image? c) = none := List.findSome?_eq_none_iff.mpr hruns
  rw [lowerChar, if_neg (Nat.not_lt.mpr hascii)]
  simp only [hexpansion, hnone, Option.getD_none]

private theorem lowerChar_image {r : CaseRun} (hr : r ∈ lowerRuns) {c d : Char}
    (h : r.image? c = some d) : lowerChar d = [d] := by
  by_cases hascii : d.toNat < 128
  · -- among the characters of ASCII only the capitals are moved, and no run moves to those
    have hlow : ¬ (65 ≤ d.toNat ∧ d.toNat ≤ 90) := by
      rw [CaseRun.image?] at h
      split at h
      · have habove := lowerRuns_above r hr
        rw [← Option.some.inj h]
        rcases toNat_ofNat (c.toNat + r.shift).toNat with hcode | hcode
        · omega
        · omega
      · exact absurd h (by simp)
    rw [lowerChar, if_pos hascii, toLower_eq_self hlow]
  · have hd : d.toNat ≠ 0 := by omega
    refine lowerChar_eq_self (Nat.not_lt.mp hascii) ?_ fun s hs => ?_
    · rw [List.lookup_eq_none_iff]
      intro e he
      have hout := image?_of_avoids hr (lowerExpansions_avoid r hr e he) hd h
      rw [bne_iff_ne]
      intro heq
      simp [CaseRun.image?, heq] at hout
    · have havoids := List.all_eq_true.mp (List.all_eq_true.mp lowerRuns_avoid r hr) s hs
      exact image?_of_avoids hr havoids hd h

/-- The characters of a lower-case form are their own lower-case forms. -/
theorem lowerChar_of_mem_lowerChar {c d : Char} (h : d ∈ lowerChar c) : lowerChar d = [d] := by
  by_cases hascii : c.toNat < 128
  · rw [lowerChar, if_pos hascii] at h
    obtain rfl := List.mem_singleton.mp h
    obtain ⟨hsmall, hagain⟩ := toLower_toLower hascii
    rw [lowerChar, if_pos hsmall, hagain]
  · cases hexpansion : lowerExpansions.lookup c.toNat with
    | some codes =>
      rw [lowerChar, if_neg hascii, hexpansion] at h
      obtain ⟨n, hn, rfl⟩ := List.mem_map.mp h
      exact lowerChar_expansion _ (mem_of_lookup hexpansion) n hn
    | none =>
      cases himage : lowerRuns.findSome? (·.image? c) with
      | none =>
        have hself := lowerChar_eq_self (Nat.not_lt.mp hascii) hexpansion
          (List.findSome?_eq_none_iff.mp himage)
        rw [hself] at h
        rw [List.mem_singleton.mp h, hself]
      | some e =>
        rw [lowerChar, if_neg hascii, hexpansion, himage] at h
        obtain ⟨r, hr, he⟩ := List.exists_of_findSome?_eq_some himage
        obtain rfl : d = e := List.mem_singleton.mp h
        exact lowerChar_image hr he

/-! ### Texts -/

variable {before t : Text} {c : Symbol}

theorem lowerBetween_ne_nil (before after : Text) (c : Symbol) :
    lowerBetween before after c ≠ [] := by
  rw [lowerBetween]
  split
  · split
    · exact List.cons_ne_nil _ _
    · exact List.cons_ne_nil _ _
  · cases c with
    | half offset => exact List.cons_ne_nil _ _
    | char c => exact fun h => lowerChar_ne_nil c (List.map_eq_nil_iff.mp h)

theorem eq_quote_of_mem_lowerBetween {after : Text} (h : .char '"' ∈ lowerBetween before after c) :
    c = '"' := by
  rw [lowerBetween] at h
  split at h
  · -- neither of the small sigmas is a double quote
    split at h
    · exact absurd (List.mem_singleton.mp h) (by decide)
    · exact absurd (List.mem_singleton.mp h) (by decide)
  · cases c with
    | half offset => exact absurd (List.mem_singleton.mp h) (by simp)
    | char c =>
      obtain ⟨d, hd, heq⟩ := List.mem_map.mp h
      obtain rfl := Symbol.char.inj heq
      rw [eq_quote_of_mem_lowerChar hd]

/-- The lower-case form of a text is empty for the empty text only. -/
theorem lower_ne_nil (h : t ≠ []) : lower t ≠ [] := by
  cases t with
  | nil => exact absurd rfl h
  | cons c rest =>
    rw [lower, lowerAfter]
    exact List.append_ne_nil_of_left_ne_nil (lowerBetween_ne_nil _ _ _) _

/-- A double quote in the lower-case form of a text was in the text. -/
theorem quote_mem_of_mem_lower (h : .char '"' ∈ lower t) : .char '"' ∈ t := by
  rw [lower] at h
  generalize ([] : Text) = before at h
  induction t generalizing before with
  | nil => exact h
  | cons c rest ih =>
    rcases List.mem_append.mp h with hfirst | hrest
    · rw [eq_quote_of_mem_lowerBetween hfirst]
      exact List.mem_cons_self
    · exact List.mem_cons_of_mem _ (ih _ hrest)

/-! ### Texts in lower case -/

/-- A symbol is **in lower case** when it is its own lower-case form. -/
def IsLower (c : Symbol) : Prop :=
  lowerSymbol c = [c]

/-- The capital sigma is not in lower case, so that nothing in lower case depends on its place. -/
private theorem IsLower.ne_sigma (h : IsLower c) : c ≠ 'Σ' := by
  rintro rfl
  have hsmall : lowerSymbol 'Σ' = ['σ'] := by decide +kernel
  rw [IsLower, hsmall] at h
  exact absurd h (by decide)

theorem isLower_of_mem_lowerBetween {after : Text} {d : Symbol}
    (h : d ∈ lowerBetween before after c) : IsLower d := by
  rw [lowerBetween] at h
  split at h
  · -- both small sigmas are in lower case
    split at h
    · rw [List.mem_singleton.mp h, IsLower]
      decide +kernel
    · rw [List.mem_singleton.mp h, IsLower]
      decide +kernel
  · cases c with
    | half offset =>
      rw [List.mem_singleton.mp h]
      rfl
    | char c =>
      obtain ⟨d, hd, rfl⟩ := List.mem_map.mp h
      rw [IsLower, lowerSymbol, lowerChar_of_mem_lowerChar hd, List.map_singleton]

theorem isLower_of_mem_lower {d : Symbol} (h : d ∈ lower t) : IsLower d := by
  rw [lower] at h
  generalize ([] : Text) = before at h
  induction t generalizing before with
  | nil => exact absurd h List.not_mem_nil
  | cons c rest ih =>
    rcases List.mem_append.mp h with hfirst | hrest
    · exact isLower_of_mem_lowerBetween hfirst
    · exact ih _ hrest

theorem lowerAfter_of_isLower (h : ∀ c ∈ t, IsLower c) (before : Text) :
    lowerAfter before t = t := by
  induction t generalizing before with
  | nil => rfl
  | cons c rest ih =>
    obtain ⟨hc, hrest⟩ := List.forall_mem_cons.mp h
    rw [lowerAfter, ih hrest, lowerBetween, if_neg hc.ne_sigma, hc]
    rfl

/-- **Lower case is settled.** The lower-case form of a lower-case form is that form. -/
theorem lower_lower (t : Text) : (lower t).lower = lower t :=
  lowerAfter_of_isLower (fun _ hc => isLower_of_mem_lower hc) []

end DosConsole.Text
