import DosConsole.Program
import DosConsole.Proofs.Settings.Assigning
import DosConsole.Proofs.Settings.Loading

/-!
# Whole numbers in the settings

Asking for the whole number of a key has four outcomes (`Settings.Answers`). The number that the
value stands for is taken, or the value is refused, and the default is used with a notice. But an
infinity stops the program, and so does a value that is refused and cannot be shown in the notice.
So an answer is given just when neither is in the way (`Settings.whole_returns_iff`), and a console
is opened whatever else stands at the key of the history (`Settings.bad_numbers_are_replaced`).
-/

namespace DosConsole

/-- The value is an infinity. -/
def Json.IsInfinite (v : Json) : Prop :=
  ∃ negative, v = .float (.infinite negative)

namespace Settings

variable {s : Settings} {key : Text} {v default : Json} {n : Int} {m : Option Int}

/-! ### Asking for a whole number -/

/-- The value **stands for** a number, which is not below the minimum. -/
def StandsFor (v : Json) (m : Option Int) (n : Int) : Prop :=
  whole? v = .ok (some n) ∧ ∀ k ∈ m, k ≤ n

theorem StandsFor.not_isInfinite (h : StandsFor v m n) : ¬ v.IsInfinite := by
  rintro ⟨negative, rfl⟩
  exact absurd h.1 (by simp [whole?])

/-- Only an infinity is in the way of telling what a value stands for. -/
theorem whole?_cases (v : Json) :
    (v.IsInfinite ∧ whole? v = .error .infinite) ∨ ¬ v.IsInfinite ∧ ∃ n, whole? v = .ok n := by
  by_cases h : v.IsInfinite
  · obtain ⟨negative, rfl⟩ := h
    exact .inl ⟨⟨negative, rfl⟩, rfl⟩
  · refine .inr ⟨h, ?_⟩
    unfold whole?
    split
    · exact ⟨_, rfl⟩
    · exact absurd ⟨_, rfl⟩ h
    · exact ⟨_, rfl⟩
    · exact ⟨_, rfl⟩
    · exact ⟨_, rfl⟩

theorem reaches_elim (n : Int) (m : Option Int) :
    reaches n (m.elim .null .int) = .ok (decide (∀ k ∈ m, k ≤ n)) := by
  obtain _ | k := m
  · rw [Option.elim_none, decide_eq_true (by simp)]
    rfl
  · have hall : (∀ j ∈ some k, j ≤ n) ↔ k ≤ n := by simp
    rw [Option.elim_some, decide_eq_decide.mpr hall]
    rfl

/-- What comes of asking for the whole number of a key with that value. -/
inductive Answers (key : Text) (v default : Json) (m : Option Int) :
    Except SettingsError (Option Int × List Notice) → Prop
  | taken {n : Int} (stands : StandsFor v m n) : Answers key v default m (.ok (some n, []))
  | refused (finite : ¬ v.IsInfinite) (useless : ∀ n, ¬ StandsFor v m n)
      (showable : v.isShowable = true ∧ default.isShowable = true) :
      Answers key v default m (.ok (none, [.settingInvalid key v.literal default.display]))
  | infinite (infinite : v.IsInfinite) : Answers key v default m (.error .infinite)
  | unshowable {cause : Json.ShowError} (useless : ∀ n, ¬ StandsFor v m n)
      (unshowable : ¬ (v.isShowable = true ∧ default.isShowable = true)) :
      Answers key v default m (.error (.unshowable cause))

theorem answers_refusal (hfinite : ¬ v.IsInfinite) (huseless : ∀ n, ¬ StandsFor v m n) :
    Answers key v default m
      ((refusal key v default).map fun notice => (none, [notice])) := by
  rw [refusal]
  by_cases hv : v.isShowable = true
  · rw [Json.quote?_of_isShowable hv]
    by_cases hdefault : default.isShowable = true
    · rw [Json.show?_of_isShowable hdefault]
      exact .refused hfinite huseless ⟨hv, hdefault⟩
    · obtain ⟨cause, hcause⟩ := Json.show?_of_not_isShowable hdefault
      rw [hcause]
      exact .unshowable huseless fun h => hdefault h.2
  · obtain ⟨cause, hcause⟩ := Json.quote?_of_not_isShowable hv
    rw [hcause]
    exact .unshowable huseless fun h => hv h.1

theorem answers_whole (s : Settings) (key : Text) (default : Json) (m : Option Int) :
    Answers key (s.get key default) default m (s.whole key default (m.elim .null .int)) := by
  rw [whole]
  generalize s.get key default = v
  rw [accepted?]
  rcases whole?_cases v with ⟨hinfinite, hwhole⟩ | ⟨hfinite, _ | n, hwhole⟩
  · simp only [hwhole]
    exact .infinite hinfinite
  · simp only [hwhole]
    refine answers_refusal hfinite fun n hn => ?_
    exact absurd (hwhole.symm.trans hn.1) (by simp)
  · simp only [hwhole, reaches_elim, Except.map, decide_eq_true_eq]
    by_cases hreached : ∀ k ∈ m, k ≤ n
    · rw [if_pos hreached]
      exact .taken ⟨hwhole, hreached⟩
    · -- the value stands for no number but the one that is too small
      rw [if_neg hreached]
      refine answers_refusal hfinite fun k hk => hreached ?_
      obtain rfl : n = k := Option.some.inj (Except.ok.inj (hwhole.symm.trans hk.1))
      exact hk.2

/-- Asking for a whole number is **answerable** where there is no infinity, and if the value is
refused, the notice can be given. -/
structure Answerable (v default : Json) (m : Option Int) : Prop where
  finite : ¬ v.IsInfinite
  shown : (∀ n, ¬ StandsFor v m n) → v.isShowable = true ∧ default.isShowable = true

/-- A value that can be shown and is no binary number is in the way of no answer. -/
theorem answerable_of_isShowable (hfloat : ∀ x, v ≠ .float x) (hv : v.isShowable = true)
    (hdefault : default.isShowable = true) : Answerable v default m :=
  ⟨fun ⟨_, hinfinite⟩ => hfloat _ hinfinite, fun _ => ⟨hv, hdefault⟩⟩

/-- The answer is the number that the value stands for, or there is none, with one warning that
quotes the value and the default. -/
theorem whole_of_answerable (h : Answerable (s.get key default) default m) :
    (∃ n, StandsFor (s.get key default) m n ∧
        s.whole key default (m.elim .null .int) = .ok (some n, [])) ∨
      s.whole key default (m.elim .null .int) =
        .ok (none, [.settingInvalid key (s.get key default).literal default.display]) := by
  generalize hanswer : s.whole key default (m.elim .null .int) = answer
  have hanswers := hanswer ▸ answers_whole s key default m
  cases hanswers with
  | taken hstands => exact .inl ⟨_, hstands, rfl⟩
  | refused => exact .inr rfl
  | infinite hinfinite => exact absurd hinfinite h.finite
  | unshowable huseless hunshowable => exact absurd (h.shown huseless) hunshowable

/-- Only these questions are answered. -/
theorem whole_returns_iff :
    (∃ answer, s.whole key default (m.elim .null .int) = .ok answer) ↔
      Answerable (s.get key default) default m := by
  constructor
  · rintro ⟨answer, hanswer⟩
    have hanswers := hanswer ▸ answers_whole s key default m
    cases hanswers with
    | taken hstands => exact ⟨hstands.not_isInfinite, fun h => absurd hstands (h _)⟩
    | refused hfinite huseless hshowable => exact ⟨hfinite, fun _ => hshowable⟩
  · intro h
    obtain ⟨n, -, hwhole⟩ | hwhole := whole_of_answerable h
    · exact ⟨_, hwhole⟩
    · exact ⟨_, hwhole⟩

/-! ### Opening a console -/

/-- All keys but one, and those that lie around and inside its value, have the default values. -/
def HasDefaultsBut (s : Settings) (key : Text) : Prop :=
  ∀ other, ¬ steps other <+: steps key → ¬ steps key <+: steps other →
    s.get? other = (Json.object defaults).valueAt? (steps other)

/-- A single value that is set leaves the other defaults. -/
theorem hasDefaultsBut_of_assign {fields : Json.Fields}
    (h : Json.assign v (steps key) (.object defaults) = .ok (.object fields)) (l : Location) :
    (holding l fields).HasDefaultsBut key := by
  intro other hbefore hbehind
  rw [(isPlaced_holding l fields).get?_eq, values_holding,
    Json.valueAt?_assign_of_ne h hbefore hbehind]

/-- Where the snapshot is by default. -/
def defaultStorage (env : Environment) : Location :=
  (env.homes.own.child ".dosshell").child "vfs.json"

theorem storage_of_hasDefaultsBut {env : Environment} (h : s.HasDefaultsBut historyKey)
    (hoverride : s.overrides.get? "storage.path" = none) (henv : env.storage = []) :
    s.storage env = .ok (defaultStorage env) := by
  have hget : s.get "storage.path" .null = .str "~/.dosshell/vfs.json" := by
    rw [get, h "storage.path" (by decide) (by decide)]
    rfl
  have hvalue : s.storageValue env = .str "~/.dosshell/vfs.json" := by
    rw [storageValue, hoverride]
    exact (if_pos henv).trans hget
  have hpath : Location.ofText "~/.dosshell/vfs.json" =
      ⟨.here, ["~", ".dosshell", "vfs.json"]⟩ := by decide
  have hhome : (⟨.here, ["~", ".dosshell", "vfs.json"]⟩ : Location).expand env.homes =
      .ok ⟨env.homes.own.anchor, env.homes.own.parts ++ ([".dosshell", "vfs.json"] : List Text)⟩ :=
    rfl
  rw [storage, hvalue]
  simp only [hpath, hhome]
  rw [defaultStorage, Location.child, Location.child, List.append_assoc]
  rfl

/-- The limit of the history is not negative, if there is an answer. -/
theorem historyLimit_of_answerable
    (h : Answerable (s.get historyKey (.int 1000)) (.int 1000) (some 0)) :
    ∃ limit notices, s.historyLimit = .ok (limit, notices) ∧ 0 ≤ limit := by
  obtain ⟨n, ⟨-, hleast⟩, hwhole⟩ | hwhole := whole_of_answerable h
  · refine ⟨n, [], ?_, hleast 0 rfl⟩
    rw [Option.elim_some] at hwhole
    rw [historyLimit, hwhole]
    rfl
  · rw [Option.elim_some] at hwhole
    have hlimit : s.historyLimit = .ok (1000, [.settingInvalid historyKey
        (s.get historyKey (.int 1000)).literal (Json.int 1000).display]) := by
      rw [historyLimit, hwhole]
      rfl
    exact ⟨1000, _, hlimit, by decide⟩

/-- A console is opened where the snapshot has a place, and its history is as long as the settings
say. -/
theorem exists_openConsole {p : Program.Setting} {place : Location} {found : Bool} {limit : Int}
    {more : List Notice} (hstorage : p.settings.storage p.environment = .ok place)
    (hfound : p.disk.has place = .ok found) (hlimit : p.settings.historyLimit = .ok (limit, more))
    (given : Option Text) (persist : Bool) :
    ∃ c k, Program.openConsole p given persist = .ok (c, k) ∧ c.history.limit = limit := by
  have hload : ∃ loaded, Snapshot.load p.disk place = .ok loaded := by
    rw [Snapshot.load, hfound]
    cases found with
    | false => exact ⟨_, rfl⟩
    | true => exact ⟨_, rfl⟩
  obtain ⟨⟨tree, notices⟩, hload⟩ := hload
  rw [Program.openConsole]
  simp only [hstorage, hload, hlimit]
  exact ⟨_, _, rfl, rfl⟩

/-- **Bad numbers are replaced.** Where the question is answerable, a key has the whole number that
its value stands for, or a warning is given and it has the default. So a console is opened with a
history whose limit is not negative, whatever the key of that limit holds. -/
theorem bad_numbers_are_replaced {d : Int}
    (hanswerable : Answerable (s.get key (.int d)) (.int d) m) :
    ((∃ n, StandsFor (s.get key (.int d)) m n ∧
        s.integer key (.int d) (m.elim .null .int) = .ok (.int n, [])) ∨
      s.integer key (.int d) (m.elim .null .int) = .ok (.int d,
        [.settingInvalid key (s.get key (.int d)).literal (Json.int d).display])) ∧
    ∀ p : Program.Setting, p.settings.HasDefaultsBut historyKey →
      p.settings.overrides.get? "storage.path" = none → p.environment.storage = [] →
      (∃ found, p.disk.has (defaultStorage p.environment) = .ok found) →
      Answerable (p.settings.get historyKey (.int 1000)) (.int 1000) (some 0) →
      ∀ given persist, ∃ c k, Program.openConsole p given persist = .ok (c, k) ∧
        0 ≤ c.history.limit := by
  constructor
  · obtain ⟨n, hstands, hwhole⟩ | hwhole := whole_of_answerable hanswerable
    · refine .inl ⟨n, hstands, ?_⟩
      rw [integer, hwhole]
      rfl
    · refine .inr ?_
      rw [integer, hwhole]
      rfl
  · intro p hdefaults hoverride henv ⟨found, hfound⟩ hlimit given persist
    have hstorage := storage_of_hasDefaultsBut hdefaults hoverride henv
    obtain ⟨limit, notices, hhistory, hleast⟩ := historyLimit_of_answerable hlimit
    obtain ⟨c, k, hopen, hsize⟩ := exists_openConsole hstorage hfound hhistory given persist
    exact ⟨c, k, hopen, hsize ▸ hleast⟩

/-- The settings of a new installation but for the value of the history. -/
def withHistory (v : Json) : Settings :=
  holding ⟨.here, ["settings"]⟩ [
    ("shell", .object [("username", .str "USER"), ("history_size", v)]),
    ("storage", .object [
      ("path", .str "~/.dosshell/vfs.json"), ("persist", .bool true),
      ("async_writes", .bool true)]),
    ("filesystem", .object [("strict_rm", .bool false)])]

/-- A run with these settings on an empty disk. -/
def runWithHistory (v : Json) : Program.Setting :=
  ⟨withHistory v, ⟨[], [], ⟨⟨.root, []⟩, []⟩⟩, .empty 0, []⟩

theorem hasDefaultsBut_withHistory (v : Json) : (withHistory v).HasDefaultsBut historyKey := by
  refine hasDefaultsBut_of_assign (v := v) ?_ _
  with_unfolding_all rfl

/-- A word and a number that is too small are replaced. -/
theorem bad_numbers_are_replaced_word :
    (withHistory (.str "lots")).integer historyKey (.int 7) (.int 0) =
        .ok (.int 7, [.settingInvalid historyKey "'lots'" "7"]) ∧
    ∃ c k, Program.openConsole (runWithHistory (.int (-1))) none true = .ok (c, k) ∧
      0 ≤ c.history.limit := by
  have hget (v default : Json) : (withHistory v).get historyKey default = v := by
    rw [get, withHistory, (isPlaced_holding _ _).get?_eq, values_holding]
    with_unfolding_all rfl
  have hword : Answerable ((withHistory (.str "lots")).get historyKey (.int 7)) (.int 7)
      (some 0) := by
    rw [hget]
    exact answerable_of_isShowable (by simp) rfl (by decide)
  have hsmall : Answerable ((withHistory (.int (-1))).get historyKey (.int 1000)) (.int 1000)
      (some 0) := by
    rw [hget]
    exact answerable_of_isShowable (by simp) (by decide) (by decide)
  have hplace : (runWithHistory (.int (-1))).disk.has
      (defaultStorage (runWithHistory (.int (-1))).environment) = .ok false := by
    with_unfolding_all rfl
  obtain ⟨hinteger, hopen⟩ := bad_numbers_are_replaced hword
  refine ⟨(hinteger.resolve_left ?_).trans ?_, hopen (runWithHistory (.int (-1)))
    (hasDefaultsBut_withHistory _) rfl rfl ⟨false, hplace⟩ hsmall none true⟩
  · rintro ⟨n, hstands, -⟩
    have hwhole : whole? (.str "lots") = .ok none := by with_unfolding_all rfl
    rw [hget] at hstands
    exact absurd (hwhole.symm.trans hstands.1) (by simp)
  · rw [hget]
    with_unfolding_all rfl

/-- An infinity is not replaced. It stops the program before there is a console. -/
theorem bad_numbers_are_replaced_infinity_excepted :
    let v : Json := .float (.infinite false)
    (withHistory v).integer historyKey (.int 1000) (.int 0) = .error .infinite ∧
      Program.openConsole (runWithHistory v) none true = .error (.settings .infinite, []) := by
  exact ⟨by with_unfolding_all rfl, by with_unfolding_all rfl⟩

end Settings

end DosConsole
