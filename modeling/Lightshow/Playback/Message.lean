/-
What playback reports.

Each report is a value; `Message.level` is its weight and `Message.text` its wording.
-/
import Lightshow.Bulb.Error
import Lightshow.Script
import Lightshow.Time.Duration

namespace Lightshow

/-- Weight of a report. -/
inductive Level where
  | error
  | warn
  | info
  deriving DecidableEq, Repr

/-- The word for a weight. -/
def Level.name : Level → String
  | .error => "ERROR"
  | .warn => "WARN"
  | .info => "INFO"

/-- A request that reaches a running playback from outside. -/
inductive Signal where
  | interrupt
  | terminate
  | reload
  deriving DecidableEq, Repr

/-- A report of playback. -/
inductive Message where
  | initialColor (bulb : String) (rgb : Rgb)
  | switched (commands : Nat)
  | reconnected (bulb : String)
  | retrying (cause : BulbError) (wait : Duration)
  | playbackFailed (cause : BulbError)
  | restoreFailed (cause : BulbError)
  | restored
  | interrupted
  | terminated
  | reloading (path : String)
  | reloadFailed (cause : ScriptError)

namespace Message

/-- Weight of a report. -/
def level : Message → Level
  | retrying .. | restoreFailed _ => .warn
  | playbackFailed _ | reloadFailed _ => .error
  | _ => .info

/-- Wording of a report. -/
def text : Message → String
  | initialColor bulb rgb =>
    "Initial settings of bulb " ++ bulb ++ ": rgb(" ++ toString rgb.red.toNat ++ ", "
      ++ toString rgb.green.toNat ++ ", " ++ toString rgb.blue.toNat ++ ")"
  | switched commands => "Switching to reloaded script (" ++ toString commands ++ " commands)"
  | reconnected bulb => "Reconnected to bulb " ++ bulb
  | retrying cause wait =>
    "Error connecting: " ++ cause.message ++ ". Will retry in " ++ wait.secondsText ++ " seconds."
  | playbackFailed cause => "Playback failed: " ++ cause.message
  | restoreFailed cause => "Could not restore bulb settings: " ++ cause.message
  | restored => "Old bulb settings restored"
  | interrupted => "Interrupt received, stopping after the current command"
  | terminated => "Terminate received, stopping after the current command"
  | reloading path => "Reloading script from " ++ path
  | reloadFailed cause => "Reload failed, keeping current script: " ++ cause.message

/-- A report as one line: its weight and its wording. -/
def line (m : Message) : String := m.level.name ++ " " ++ m.text

end Message

end Lightshow
