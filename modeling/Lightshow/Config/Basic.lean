/-
The configuration of a player.

A configuration says which bulb to play on and how long to wait between retries.  Environment
variables can override the bulb, and `Config.validate` refuses what a player could not run with.

* `Config.override` -- what the environment overrides;
* `Config.validate` -- the first thing that is wrong;
* `ConfigError.message` -- the wording of what is wrong.
-/
import Lightshow.Files
import Lightshow.Text.Blank
import Lightshow.Time.Duration

namespace Lightshow

/-- What plays the bulb. -/
inductive Driver where
  /-- A Hue bridge. -/
  | hue
  /-- A bulb in memory, for a dry run. -/
  | simulated
  deriving DecidableEq, Repr

/-- Name of a driver. -/
def Driver.name : Driver → String
  | .hue => "hue"
  | .simulated => "simulated"

/-- The driver of a name. -/
def Driver.ofName? (name : String) : Option Driver :=
  if name = "hue" then some .hue else if name = "simulated" then some .simulated else none

@[simp] theorem Driver.ofName?_name (d : Driver) : ofName? d.name = some d := by
  cases d <;> simp [name, ofName?]

/-- The names of all drivers. -/
def Driver.names : List String := [Driver.hue.name, Driver.simulated.name]

/-- Which bulb to play on. -/
structure BulbConfig where
  driver : Driver
  /-- Host of the bridge, with or without a port, or its base address. -/
  bridge : Option String
  /-- Name under which the bridge knows the player. -/
  username : Option String
  /-- Longest wait for an answer, in seconds. -/
  timeout : UInt64
  deriving DecidableEq

/-- How long to wait between retries, in seconds. -/
structure PlaybackConfig where
  backoffInitial : UInt64
  backoffMax : UInt64
  deriving DecidableEq

/-- A whole configuration. -/
structure Config where
  bulb : BulbConfig
  playback : PlaybackConfig
  deriving DecidableEq

/-- The bulb of an empty configuration. -/
def BulbConfig.usual : BulbConfig := ⟨.hue, none, none, 5⟩

/-- The waits of an empty configuration. -/
def PlaybackConfig.usual : PlaybackConfig := ⟨1, 30⟩

/-- An empty configuration. -/
def Config.usual : Config := ⟨.usual, .usual⟩

/-! ### What can be wrong -/

/-- A value that a configuration has to give. -/
inductive Setting where
  | driver
  | bridge
  | username
  | timeout
  | backoffInitial
  | backoffMax
  deriving DecidableEq, Repr

/-- Where a setting stands in the file. -/
def Setting.key : Setting → String
  | .driver => "bulb.driver"
  | .bridge => "bulb.bridge"
  | .username => "bulb.username"
  | .timeout => "bulb.timeout_secs"
  | .backoffInitial => "playback.backoff_initial_secs"
  | .backoffMax => "playback.backoff_max_secs"

/-- The environment variable of the path of the file. -/
def configVariable : String := "LIGHTSCRIPT_CONFIG"

/-- The environment variable of the driver. -/
def driverVariable : String := "LIGHTSCRIPT_DRIVER"

/-- The environment variable of the bridge. -/
def bridgeVariable : String := "LIGHTSCRIPT_BRIDGE"

/-- The environment variable of the user name. -/
def usernameVariable : String := "LIGHTSCRIPT_USERNAME"

/-- Why a value is no good. -/
inductive BadValue where
  | unknownDriver (name : String)
  | notPositive
  | belowInitial
  deriving DecidableEq, Repr

/-- Wording of why a value is no good. -/
def BadValue.message : BadValue → String
  | .unknownDriver name =>
    "unknown driver '" ++ name ++ "' (expected " ++ " or ".intercalate Driver.names ++ ")"
  | .notPositive => "must be greater than 0"
  | .belowInitial => "must not be less than backoff_initial_secs"

/-- Why there is no configuration. -/
inductive ConfigError where
  | unreadable (path : String) (cause : FileError)
  /-- The file is not YAML, or not that of a configuration. -/
  | malformed (path : String)
  /-- A value is needed that neither the file nor the environment variable of that name gives. -/
  | missing (setting : Setting) (name : String)
  | invalid (setting : Setting) (cause : BadValue)
  deriving DecidableEq, Repr

/-- Wording of the error; what is wrong with malformed text is left open. -/
def ConfigError.message : ConfigError → String
  | .unreadable path cause => "failed to read file " ++ path ++ ": " ++ cause.message
  | .malformed path => "failed to parse YAML in " ++ path ++ ": "
  | .missing setting name =>
    "missing configuration value '" ++ setting.key ++ "' (set it in the config file or "
      ++ name ++ ")"
  | .invalid setting cause =>
    "invalid configuration value for '" ++ setting.key ++ "': " ++ cause.message

/-- The driver that a text names, whatever its case and the white space around it. -/
def Driver.ofText (text : String) : Except ConfigError Driver :=
  let name := (Text.trim text).map Char.toLower
  match ofName? name with
  | some d => .ok d
  | none => .error (.invalid .driver (.unknownDriver name))

/-! ### Overrides and validation -/

/-- The environment variables that are set. -/
abbrev Environment := String → Option String

namespace Config

/-- A change of a configuration: what was changed before something goes wrong stays changed. -/
abbrev Change := ExceptT ConfigError (StateM Config)

/-- A change by the text of an environment variable, if that is set. -/
def overriding (env : Environment) (name : String) (change : String → Change Unit) : Change Unit :=
  match env name with
  | none => pure ()
  | some text => change text

/-- Puts in what the environment overrides, one value after the other. -/
def override (env : Environment) : Change Unit := do
  overriding env driverVariable fun text => do
    let driver ← ExceptT.mk (pure (Driver.ofText text))
    modify fun c => { c with bulb := { c.bulb with driver } }
  overriding env bridgeVariable fun bridge =>
    modify fun c => { c with bulb := { c.bulb with bridge := some bridge } }
  overriding env usernameVariable fun username =>
    modify fun c => { c with bulb := { c.bulb with username := some username } }

/-- The configuration with what the environment overrides. -/
def withOverrides (c : Config) (env : Environment) : Except ConfigError Config :=
  match (override env).run.run c with
  | (.ok (), after) => .ok after
  | (.error e, _) => .error e

/-- Whether a text is given and not empty. -/
def isGiven (text : Option String) : Bool :=
  match text with
  | some s => !s.isEmpty
  | none => false

/-- The first thing that a player could not run with. -/
def validate (c : Config) : Except ConfigError Unit :=
  if c.bulb.driver = .hue ∧ !isGiven c.bulb.bridge then .error (.missing .bridge bridgeVariable)
  else if c.bulb.driver = .hue ∧ !isGiven c.bulb.username then
    .error (.missing .username usernameVariable)
  else if c.bulb.timeout = 0 then .error (.invalid .timeout .notPositive)
  else if c.playback.backoffInitial = 0 then .error (.invalid .backoffInitial .notPositive)
  else if c.playback.backoffMax < c.playback.backoffInitial then
    .error (.invalid .backoffMax .belowInitial)
  else .ok ()

end Config

end Lightshow
