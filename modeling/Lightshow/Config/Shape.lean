/-
Configurations as JSON data.

Everything may be left out, and has its usual value then; what is not set is not written.

* `Config.shape` -- how a configuration is written;
* `Config.ofData_toData` -- nothing is lost.
-/
import Lightshow.Config.Basic
import Lightshow.Json.Shape

namespace Lightshow

open Json (Shape Fields)

/-- The name of a driver. -/
def Driver.shape : Shape := .choice Driver.names

/-- A driver from its data. -/
def Driver.ofData (data : Driver.shape.Data) : Driver :=
  (Driver.ofName? data.val).getD BulbConfig.usual.driver

/-- The data of a driver. -/
def Driver.toData (d : Driver) : Driver.shape.Data :=
  ⟨d.name, by cases d <;> simp [Driver.names, Driver.name]⟩

@[simp] theorem Driver.ofData_toData (d : Driver) : ofData d.toData = d := by
  simp [ofData, toData]

/-- The bulb section. -/
def BulbConfig.shape : Shape :=
  .record "BulbConfig" <| .cons "driver" .optional Driver.shape <|
    .cons "bridge" .optional (.nullable .text) <| .cons "username" .optional (.nullable .text) <|
    .cons "timeout_secs" .optional (.natural 64) .nil

/-- A bulb section from its data. -/
def BulbConfig.ofData : BulbConfig.shape.Data → BulbConfig
  | (driver, bridge, username, timeout, ()) =>
    { driver := (driver.map Driver.ofData).getD usual.driver
      bridge := bridge.getD usual.bridge
      username := username.getD usual.username
      timeout := (timeout.map UInt64.ofFin).getD usual.timeout }

/-- The data of a bulb section. -/
def BulbConfig.toData (c : BulbConfig) : BulbConfig.shape.Data :=
  (some c.driver.toData, c.bridge.map some, c.username.map some, some c.timeout.toFin, ())

@[simp] theorem BulbConfig.ofData_toData (c : BulbConfig) : ofData c.toData = c := by
  rcases c with ⟨driver, bridge, username, timeout⟩
  cases bridge <;> cases username <;> simp [ofData, toData, usual]

/-- The playback section. -/
def PlaybackConfig.shape : Shape :=
  .record "PlaybackConfig" <| .cons "backoff_initial_secs" .optional (.natural 64) <|
    .cons "backoff_max_secs" .optional (.natural 64) .nil

/-- A playback section from its data. -/
def PlaybackConfig.ofData : PlaybackConfig.shape.Data → PlaybackConfig
  | (initial, max, ()) =>
    { backoffInitial := (initial.map UInt64.ofFin).getD usual.backoffInitial
      backoffMax := (max.map UInt64.ofFin).getD usual.backoffMax }

/-- The data of a playback section. -/
def PlaybackConfig.toData (c : PlaybackConfig) : PlaybackConfig.shape.Data :=
  (some c.backoffInitial.toFin, some c.backoffMax.toFin, ())

@[simp] theorem PlaybackConfig.ofData_toData (c : PlaybackConfig) : ofData c.toData = c := by
  simp [ofData, toData]

/-- The two sections. -/
def Config.shape : Shape :=
  .record "Config" <| .cons "bulb" .optional BulbConfig.shape <|
    .cons "playback" .optional PlaybackConfig.shape .nil

/-- A configuration from its data. -/
def Config.ofData : Config.shape.Data → Config
  | (bulb, playback, ()) =>
    { bulb := (bulb.map BulbConfig.ofData).getD .usual
      playback := (playback.map PlaybackConfig.ofData).getD .usual }

/-- The data of a configuration. -/
def Config.toData (c : Config) : Config.shape.Data :=
  (some c.bulb.toData, some c.playback.toData, ())

@[simp] theorem Config.ofData_toData (c : Config) : ofData c.toData = c := by
  simp [ofData, toData]

end Lightshow
