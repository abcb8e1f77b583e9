/-
Arguments of the program.

* `Arguments.parse` -- the script and the bulb, or the usage line.
-/
namespace Lightshow

/-- What to play, and on which bulb. -/
structure Arguments where
  script : String
  bulb : String
  deriving DecidableEq, Repr

namespace Arguments

/-- Name of the program if it is not told. -/
def programName : String := "lightscript"

/-- How the program is used. -/
def usage (program : String) : String := "Usage: " ++ program ++ " lightscript bulb_number"

/-- The arguments behind the name of the program: two, whatever they look like. -/
def parse : List String → Except String Arguments
  | [_, script, bulb] => .ok ⟨script, bulb⟩
  | program :: _ => .error (usage program)
  | [] => .error (usage programName)

end Arguments

end Lightshow
