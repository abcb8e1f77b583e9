/-
Signals to a running playback.

An interrupt or a termination asks playback to stop.  A reload reads the script file again and
leaves the script for the next pass; if there is none, the current one goes on.
-/
import Lightshow.Playback.Message
import Lightshow.Playback.State

namespace Lightshow

/-- What a signal does to the control of a playback whose script is at `path`, and what is
reported about it. -/
def Signal.handle (files : Files) (path : String) (c : Control) : Signal → List Message × Control
  | .interrupt => ([.interrupted], c.requestStop.2)
  | .terminate => ([.terminated], c.requestStop.2)
  | .reload =>
    match Script.load files path with
    | .ok script => ([.reloading path], c.submit script)
    | .error cause => ([.reloading path, .reloadFailed cause], c)

end Lightshow
