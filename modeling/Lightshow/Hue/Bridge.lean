/-
A bridge that keeps one light.

The bridge answers every reading with its light and merges every change into the state of it; the
time that a change takes is not kept.

* `Hue.Bridge.answer` -- the reply to a request, and the bridge after it.
-/
import Lightshow.Hue.Client

namespace Lightshow.Hue

open Json (Value)

/-- A bridge with its light. -/
structure Bridge where
  light : Value

namespace Bridge

/-- Name of the field with the state of a light. -/
def stateName : String := "state"

/-- The fields of the state. -/
def state (b : Bridge) : List (String × Value) :=
  match b.light.field? stateName with
  | some (.object fields) => fields
  | _ => []

/-- The bridge with a changed state of its light. -/
def withState (b : Bridge) (fields : List (String × Value)) : Bridge :=
  match b.light with
  | .object light => ⟨.object (Json.putField stateName (.object fields) light)⟩
  | _ => b

/-- The bridge after a change. -/
def merge (b : Bridge) (change : List (String × Value)) : Bridge :=
  b.withState ((change.filter (·.1 ≠ transitionName)).foldl
    (fun fields (name, v) => Json.putField name v fields) b.state)

/-- The reply to a change: what succeeded. -/
def success (change : List (String × Value)) : Value :=
  .list (change.map fun entry => .object [("success", .object [entry])])

/-- The reply to a request, and the bridge after it. -/
def answer (r : Request) (b : Bridge) : Outcome × Bridge :=
  match r.body with
  | none => (.reply 200 b.light.write, b)
  | some (.object change) => (.reply 200 (success change).write, b.merge change)
  | some _ => (.reply 400 "", b)

end Bridge

end Lightshow.Hue
