/-
Talking to a Hue bridge.

A light is read by getting its address and changed by putting fields to the address of its state.
The time that changes take is not kept by the bridge: it belongs to the handle, and goes with every
change.  A bridge refuses a request with a list that has an error in it; a status of its own
trouble counts like no reply at all.

* `Hue.Outcome.accepted` -- the body of a reply that carries a request out;
* `Hue.Connector.connect`, `Hue.perform` -- a connect and a call as requests.
-/
import Lightshow.Bulb.Error
import Lightshow.Dialogue
import Lightshow.Hue.Light
import Lightshow.Web.Status
import Lightshow.Web.Url

namespace Lightshow.Hue

open Json (Value)
open Web (Url)

/-- A request to a bridge: without a body it reads, with one it changes. -/
structure Request where
  url : Url
  body : Option Value

/-- What comes back. -/
inductive Outcome where
  | noReply
  | reply (status : Nat) (body : String)

/-- Where an error says that it belongs, and what it says. -/
def errorParts (error : Value) : String × String :=
  let part (name : String) : String := ((error.field? name).bind Value.text?).getD ""
  (part "address", part "description")

/-- The first error in a reply. -/
def firstError? (reply : Value) : Option (String × String) :=
  (reply.items?.getD []).findSome? fun entry => (entry.field? "error").map errorParts

/-- The body of a reply that carries the request out. -/
def Outcome.accepted (url : Url) : Outcome → Except BulbError Value
  | .noReply => .error (.connectivity (.noAnswer url.text))
  | .reply status body =>
    if Web.Status.isServerError status then .error (.connectivity (.status (Web.Status.line status)))
    else if !Web.Status.isSuccess status then .error (.protocol (.status (Web.Status.line status)))
    else match Value.ofText body.toList with
    | .error _ => .error (.protocol .notJson)
    | .ok found =>
      match firstError? found with
      | some (address, description) => .error (.rejected address description)
      | none => .ok found

/-- An open light of a bridge. -/
structure Handle where
  /-- Address of the light, as it was put together. -/
  address : String
  /-- Tenths of a second that changes take, if they were set. -/
  transition : Option UInt16
  deriving DecidableEq, Repr

/-- An operation on a handle sends requests, changes the handle, and may fail. -/
abbrev Operation := Talk BulbError Handle Request fun _ => Outcome

/-- Sends a request to an address. -/
def send (address : String) (body : Option Value) : Operation Value := do
  match Url.parse? address with
  | none => throw (.protocol .badAddress)
  | some url =>
    if !url.isSendable then throw (.protocol (.refusedAddress url.text))
    let outcome ← Talk.ask ⟨url, body⟩
    match outcome.accepted url with
    | .ok reply => pure reply
    | .error cause => throw cause

/-- Reads the state of the light. -/
def fetch : Operation State := do
  let reply ← send (← get).address none
  match State.ofReply reply with
  | .ok state => pure state
  | .error issue => throw (.protocol (.notLight issue.message))

/-- Changes fields of the state of the light. -/
def put (fields : List (String × Value)) : Operation Unit := do
  let handle ← get
  let fields := match handle.transition with
    | some tenths =>
      let (name, v) := naturalField transitionName tenths.toNat
      Json.putField name v fields
    | none => fields
  let _ ← send (handle.address ++ "/state") (some (.object fields))

/-- Sends a call. -/
def perform : (c : Call) → Operation c.Reply
  | .getRgb => do return (← fetch).hsb.toRgb
  | .getHue => do return (← fetch).hsb.hue
  | .getSaturation => do return (← fetch).hsb.saturation
  | .getBrightness => do return (← fetch).hsb.brightness
  | .getTransition => do
    return match (← get).transition with
      | some tenths => secondsOf tenths
      | none => usualTransition
  | .saveSnapshot => do
    let state ← fetch
    return ⟨state.on, state.hsb, (← get).transition.map secondsOf⟩
  | .setRgb rgb => put (colorFields rgb.toHsb)
  | .setHue hue => put [hueField hue]
  | .setSaturation level => put [saturationField level]
  | .setBrightness level => put [brightnessField level]
  | .setHsb hsb => put (colorFields hsb)
  | .setTransition seconds => modify fun h => { h with transition := some (deciseconds seconds) }
  | .turnOn => put [onField true]
  | .turnOff => put [onField false]
  | .restoreSnapshot s => do
    modify fun h => { h with transition := s.transition.map deciseconds }
    -- a colour can only be changed while the light is on
    let (name, v) := onField true
    put (Json.putField name v (colorFields s.hsb))
    if !s.on then put [onField false]

/-- A light of a bridge. -/
structure Connector where
  /-- Address of all that the bridge keeps for the player. -/
  base : String
  /-- Identifier of the light. -/
  light : String

namespace Connector

/-- The light of a bridge, which is given by its host, with or without a port, or by its address. -/
def new (bridge username light : String) : Connector :=
  let bridge := String.ofList (bridge.toList.reverse.dropWhile (· = '/')).reverse
  let given := bridge.startsWith Url.plainStart || bridge.startsWith Url.secureStart
  ⟨(if given then bridge else Url.plainStart ++ bridge) ++ "/api/" ++ username, light⟩

/-- A handle that was not used. -/
def handle (c : Connector) : Handle := ⟨c.base ++ "/lights/" ++ c.light, none⟩

/-- Opens a handle: the light has to be there. -/
def connect (c : Connector) :
    Dialogue Handle Request (fun _ => Outcome) (Except BulbError Handle) := do
  match ← fetch.run.run c.handle with
  | (.ok _, handle) => return .ok handle
  | (.error cause, _) => return .error cause

end Connector

end Lightshow.Hue
