/-
Reading a configuration.

A configuration file is a YAML document with a section for the bulb and one for playback; whatever
is left out has its usual value.  The file that the environment names has to exist, the one with
the usual name need not.

* `Config.ofYaml` -- the configuration that a text spells;
* `Config.load` -- the configuration of a player: file, overrides and validation.
-/
import Lightshow.Config.Basic
import Lightshow.Yaml.Content

namespace Lightshow

open Yaml (Document Node)

/-- The bulb section at a node. -/
def BulbConfig.ofNode? (d : Document) (n : Node) : Option BulbConfig := do
  let fields ← d.fields? n
  let driver ← Document.fieldOr? "driver" (fun n => (d.choice? Driver.names n).bind Driver.ofName?)
    usual.driver fields
  let bridge ← Document.fieldOr? "bridge" d.optionalText? usual.bridge fields
  let username ← Document.fieldOr? "username" d.optionalText? usual.username fields
  let timeout ← Document.fieldOr? "timeout_secs" d.natural? usual.timeout fields
  return ⟨driver, bridge, username, timeout⟩

/-- The playback section at a node. -/
def PlaybackConfig.ofNode? (d : Document) (n : Node) : Option PlaybackConfig := do
  let fields ← d.fields? n
  let initial ← Document.fieldOr? "backoff_initial_secs" d.natural? usual.backoffInitial fields
  let max ← Document.fieldOr? "backoff_max_secs" d.natural? usual.backoffMax fields
  return ⟨initial, max⟩

namespace Config

/-- The configuration in a document. -/
def ofDocument? (d : Document) : Option Config := do
  let fields ← match d.root with
    | some n => d.fields? n
    | none => some []
  let bulb ← Document.fieldOr? "bulb" (BulbConfig.ofNode? d) .usual fields
  let playback ← Document.fieldOr? "playback" (PlaybackConfig.ofNode? d) .usual fields
  return ⟨bulb, playback⟩

/-- The configuration that a text spells; `path` is where the text comes from. -/
def ofYaml (content path : String) : Except ConfigError Config :=
  if (Text.trim content).isEmpty then .ok usual
  else match (Document.ofText? content).bind ofDocument? with
    | some c => .ok c
    | none => .error (.malformed path)

/-- The configuration in a file, as it stands there. -/
def ofFile (files : Files) (path : String) : Except ConfigError Config :=
  match files.read path with
  | .error cause => .error (.unreadable path cause)
  | .ok content => ofYaml content path

/-- Name of the file that is read if the environment names none. -/
def usualPath : String := "lightscript.yaml"

/-- The configuration before the overrides. -/
def inFiles (files : Files) (env : Environment) : Except ConfigError Config :=
  match env configVariable with
  | some path => ofFile files path
  | none => if files.isFile usualPath then ofFile files usualPath else .ok usual

/-- The configuration of a player. -/
def load (files : Files) (env : Environment) : Except ConfigError Config := do
  let c ← inFiles files env
  let c ← c.withOverrides env
  c.validate
  return c

end Config

end Lightshow
