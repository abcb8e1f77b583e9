/-
What can go wrong with a bulb.

Only a failure to reach the bulb is worth retrying; an answer that refuses the call, or that makes
no sense, is final.

* `BulbError.isConnectivity` -- the failures worth retrying;
* `BulbError.message` -- the wording of a failure.
-/
import Lightshow.Bulb.Call

namespace Lightshow

/-- Why a bulb could not be reached. -/
inductive LinkFailure where
  /-- A simulated bulb did not open. -/
  | unreachable (bulb : String)
  /-- A simulated bulb lost a call. -/
  | dropped (bulb : String) (call : Call)
  /-- The bridge answered with a status of its own trouble. -/
  | status (line : String)
  /-- No answer came from an address. -/
  | noAnswer (url : String)

/-- Wording of the failure. -/
def LinkFailure.message : LinkFailure → String
  | .unreachable bulb => "simulated bulb " ++ bulb ++ " unreachable"
  | .dropped bulb call => "simulated bulb " ++ bulb ++ " dropped " ++ call.describe
  | .status line => "bridge returned " ++ line
  | .noAnswer url => "error sending request for url (" ++ url ++ ")"

/-- Why an answer was not understood. -/
inductive Misunderstanding where
  /-- The bridge answered with an unexpected status. -/
  | status (line : String)
  /-- The address to ask is none. -/
  | badAddress
  /-- The address to ask cannot be put into a request. -/
  | refusedAddress (url : String)
  /-- The body of the answer is not JSON. -/
  | notJson
  /-- The body of the answer is JSON, but not what was asked for. -/
  | notLight (reason : String)
  /-- An answer was made senseless on purpose. -/
  | injected (name : String)

/-- Wording of the misunderstanding. -/
def Misunderstanding.message : Misunderstanding → String
  | .status line => "bridge returned " ++ line
  | .badAddress => "builder error"
  | .refusedAddress url => "builder error for url (" ++ url ++ ")"
  | .notJson => "error decoding response body"
  | .notLight reason => reason
  | .injected name => "injected for " ++ name

/-- A failed connect or call. -/
inductive BulbError where
  | connectivity (cause : LinkFailure)
  | rejected (address description : String)
  | protocol (cause : Misunderstanding)

namespace BulbError

/-- Whether the failure is worth retrying. -/
def isConnectivity : BulbError → Bool
  | .connectivity _ => true
  | _ => false

/-- Wording of the failure. -/
def message : BulbError → String
  | .connectivity cause => "cannot reach bulb: " ++ cause.message
  | .rejected address description => "bridge rejected " ++ address ++ ": " ++ description
  | .protocol cause => "unexpected bridge response: " ++ cause.message

end BulbError

end Lightshow
