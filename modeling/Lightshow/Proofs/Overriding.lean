/-
What the environment does to a configuration.

The values that the environment overrides are put in one after the other, and what was put in stays
when something goes wrong later.  Only the name of the driver can be wrong, and it comes first, which
is why a configuration is changed either by all overrides or by none.

* `Driver.ofText_eq_ok_iff`, `Driver.ofText_eq_error_iff` -- the names that a driver is known by;
* `Config.run_override` -- the overrides, all at once;
* `Config.override_all_or_none` -- when they fail, what they change, and that they do it only once.
-/
import Lightshow.Config.Basic
import Mathlib.Tactic.SplitIfs

namespace Lightshow

/-! ### Names of drivers -/

namespace Driver

/-- The name of a driver in a text, whatever its case and the white space around it. -/
def nameIn (text : String) : String := (Text.trim text).map Char.toLower

theorem ofName?_eq_some_iff {name : String} {d : Driver} : ofName? name = some d ↔ d.name = name := by
  constructor
  · intro found
    rw [ofName?] at found
    split_ifs at found with hue simulated
    · rw [← Option.some.inj found, hue, Driver.name]
    · rw [← Option.some.inj found, simulated, Driver.name]
  · rintro rfl
    exact ofName?_name d

theorem ofName?_eq_none_iff {name : String} :
    ofName? name = none ↔ name ≠ "hue" ∧ name ≠ "simulated" := by
  rw [ofName?]
  by_cases hue : name = "hue"
  · rw [if_pos hue]
    exact iff_of_false (Option.some_ne_none _) fun h => h.1 hue
  by_cases simulated : name = "simulated"
  · rw [if_neg hue, if_pos simulated]
    exact iff_of_false (Option.some_ne_none _) fun h => h.2 simulated
  · rw [if_neg hue, if_neg simulated]
    exact iff_of_true rfl ⟨hue, simulated⟩

/-- A driver is known by its name. -/
theorem ofText_eq_ok_iff {text : String} {d : Driver} : ofText text = .ok d ↔ d.name = nameIn text := by
  rw [← ofName?_eq_some_iff, ofText, ← nameIn]
  cases ofName? (nameIn text) with
  | none => exact ⟨nofun, nofun⟩
  | some d' => exact ⟨fun h => congrArg some (Except.ok.inj h), fun h => congrArg _ (Option.some.inj h)⟩

/-- Every other name is refused, and the error tells it. -/
theorem ofText_eq_error_iff {text : String} {e : ConfigError} : ofText text = .error e ↔
    (nameIn text ≠ "hue" ∧ nameIn text ≠ "simulated") ∧
      e = .invalid .driver (.unknownDriver (nameIn text)) := by
  rw [← ofName?_eq_none_iff, ofText, ← nameIn]
  cases ofName? (nameIn text) with
  | none => exact ⟨fun h => ⟨rfl, (Except.error.inj h).symm⟩, fun h => congrArg _ h.2.symm⟩
  | some d => exact ⟨nofun, fun h => nomatch h.1⟩

end Driver

namespace Config

variable {c : Config} {env : Environment}

/-! ### The overrides, all at once -/

/-- The driver that the environment asks for, or the one of the configuration. -/
def driverIn (c : Config) (env : Environment) : Except ConfigError Driver :=
  match env driverVariable with
  | none => .ok c.bulb.driver
  | some text => Driver.ofText text

/-- The configuration with a driver, and with the bridge and the user name of the environment. -/
def overridden (c : Config) (env : Environment) (driver : Driver) : Config :=
  { c with bulb := { c.bulb with
    driver
    bridge := (env bridgeVariable).or c.bulb.bridge
    username := (env usernameVariable).or c.bulb.username } }

/-- The driver decides whether the overrides are put in at all. -/
theorem run_override (c : Config) (env : Environment) : (override env).run.run c =
    match c.driverIn env with
    | .ok driver => (.ok (), c.overridden env driver)
    | .error e => (.error e, c) := by
  simp only [override, overriding, driverIn, overridden]
  generalize env bridgeVariable = bridge, env usernameVariable = username
  cases env driverVariable with
  | none => cases bridge <;> cases username <;> rfl
  | some text =>
    dsimp only
    cases Driver.ofText text with
    | error e => rfl
    | ok driver => cases bridge <;> cases username <;> rfl

/-- The only error is a driver that nobody knows. -/
theorem driverIn_eq_error_iff {e : ConfigError} : c.driverIn env = .error e ↔
    ∃ text, env driverVariable = some text ∧
      (Driver.nameIn text ≠ "hue" ∧ Driver.nameIn text ≠ "simulated") ∧
      e = .invalid .driver (.unknownDriver (Driver.nameIn text)) := by
  rw [driverIn]
  cases env driverVariable with
  | none => exact ⟨nofun, fun ⟨_, h, _⟩ => nomatch h⟩
  | some text =>
    refine Driver.ofText_eq_error_iff.trans ⟨fun h => ⟨text, rfl, h⟩, ?_⟩
    rintro ⟨_, ⟨⟩, h⟩
    exact h

/-- A configuration that has the driver already is asked for the same one. -/
theorem driverIn_overridden {driver : Driver} (h : c.driverIn env = .ok driver) :
    (c.overridden env driver).driverIn env = .ok driver := by
  rw [driverIn] at h ⊢
  cases htext : env driverVariable with
  | none => rfl
  | some text =>
    rw [htext] at h
    exact h

theorem overridden_overridden (driver : Driver) :
    (c.overridden env driver).overridden env driver = c.overridden env driver := by
  simp only [overridden]
  cases env bridgeVariable <;> cases env usernameVariable <;> rfl

/-- The overrides fail exactly if the environment asks for a driver that is neither of the two, and
then the configuration stays as it was.  Otherwise each of the three values is the one of the
environment, or stays as it was if that has none; nothing else changes, and the same overrides change
nothing any more. -/
theorem override_all_or_none (c : Config) (env : Environment) :
    ∃ result after, (override env).run.run c = (result, after) ∧
      (∀ e, result = .error e ↔ ∃ text, env driverVariable = some text ∧
        (Driver.nameIn text ≠ "hue" ∧ Driver.nameIn text ≠ "simulated") ∧
        e = .invalid .driver (.unknownDriver (Driver.nameIn text))) ∧
      ((∃ e, result = .error e) → after = c) ∧
      (result = .ok () →
        (∀ text, env driverVariable = some text → after.bulb.driver.name = Driver.nameIn text) ∧
        (env driverVariable = none → after.bulb.driver = c.bulb.driver) ∧
        after.bulb.bridge = (env bridgeVariable).or c.bulb.bridge ∧
        after.bulb.username = (env usernameVariable).or c.bulb.username ∧
        after.bulb.timeout = c.bulb.timeout ∧ after.playback = c.playback ∧
        (override env).run.run after = (.ok (), after)) := by
  cases asked : c.driverIn env with
  | error e =>
    refine ⟨.error e, c, by rw [run_override, asked], fun e' => ?_, fun _ => rfl, nofun⟩
    rw [← driverIn_eq_error_iff, asked, Except.error.injEq, Except.error.injEq]
  | ok driver =>
    refine ⟨.ok (), c.overridden env driver, by rw [run_override, asked], fun e => ?_, nofun, fun _ => ?_⟩
    · rw [← driverIn_eq_error_iff, asked]
      exact iff_of_false nofun nofun
    · have again : (override env).run.run (c.overridden env driver) =
          (.ok (), c.overridden env driver) := by
        rw [run_override, driverIn_overridden asked]
        exact congrArg _ (overridden_overridden driver)
      rw [driverIn] at asked
      refine ⟨fun text set => ?_, fun unset => ?_, rfl, rfl, rfl, rfl, again⟩
      · rw [set] at asked
        exact Driver.ofText_eq_ok_iff.mp asked
      · rw [unset] at asked
        exact (Except.ok.inj asked).symm

/-- A driver that nobody knows keeps the bridge of the environment out as well; a known one is put in
together with it, whatever its case and the blanks around it. -/
theorem override_all_or_none_of_bridge :
    let c : Config := ⟨⟨.simulated, some "b", some "u", 5⟩, ⟨2, 4⟩⟩
    let asking (driver : String) : Environment := fun name =>
      if name = driverVariable then some driver
      else if name = bridgeVariable then some "c" else none
    let c' : Config := ⟨⟨.hue, some "c", some "u", 5⟩, ⟨2, 4⟩⟩
    (override (asking " Laser ")).run.run c = (.error (.invalid .driver (.unknownDriver "laser")), c) ∧
    (override (asking " HUE\n")).run.run c = (.ok (), c') ∧
    (override (asking " HUE\n")).run.run c' = (.ok (), c') := by
  intro c asking c'
  constructor
  · obtain ⟨result, after, run, fails, keeps, -⟩ := override_all_or_none c (asking " Laser ")
    have laser : Driver.nameIn " Laser " = "laser" := by decide +kernel
    have failed : result = .error (.invalid .driver (.unknownDriver "laser")) :=
      (fails _).mpr ⟨_, rfl, by rw [laser]; decide, by rw [laser]⟩
    rw [run, failed, keeps ⟨_, failed⟩]
  · obtain ⟨result, after, run, fails, -, changes⟩ := override_all_or_none c (asking " HUE\n")
    have hue : Driver.nameIn " HUE\n" = "hue" := by decide +kernel
    have worked : result = .ok () := by
      cases result with
      | ok _ => rfl
      | error e =>
        obtain ⟨text, asked, unknown, -⟩ := (fails e).mp rfl
        obtain rfl : " HUE\n" = text := Option.some.inj asked
        exact absurd hue unknown.1
    obtain ⟨known, -, bridge, username, timeout, playback, again⟩ := changes worked
    obtain ⟨⟨driver, _, _, _⟩, _⟩ := after
    obtain rfl := bridge
    obtain rfl := username
    obtain rfl := timeout
    obtain rfl := playback
    cases driver with
    | hue => exact ⟨worked ▸ run, again⟩
    | simulated =>
      have named : Driver.simulated.name = "hue" := (known _ rfl).trans hue
      exact absurd named (by decide)

end Config

end Lightshow
