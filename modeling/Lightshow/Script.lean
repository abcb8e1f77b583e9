/-
Scripts: reading them from text and files.

A script is the list of commands that a show plays pass after pass.  `Script.parse` rewrites the
text into JSON and reads every element as a command; the first thing that is wrong is the error.

* `Script.parse` -- a script from its text;
* `Script.load` -- a script from a file;
* `ScriptError.message` -- what is reported when there is none.
-/
import Lightshow.Files
import Lightshow.Script.Command
import Lightshow.Script.Text

namespace Lightshow

/-- An ordered list of commands. -/
structure Script where
  commands : List Command
  deriving DecidableEq

/-- What is wrong with one element, or with the list of them. -/
inductive ElementError where
  | bodyNotList
  | badCommand (cause : CommandError)

/-- Wording of what is wrong. -/
def ElementError.message : ElementError → String
  | .bodyNotList => "script body is not a list of commands"
  | .badCommand cause => cause.message

/-- Why there is no script. -/
inductive ScriptError where
  | unreadable (path : String) (cause : FileError)
  | malformed (fault : Json.Fault)
  | invalidCommand (index : Nat) (cause : ElementError)

/-- Wording of the error. -/
def ScriptError.message : ScriptError → String
  | .unreadable path cause => "failed to read script " ++ path ++ ": " ++ cause.message
  | .malformed fault => "invalid script syntax: " ++ fault.message
  | .invalidCommand index cause =>
    "invalid command #" ++ toString index ++ ": " ++ cause.message

namespace Script

/-- The elements from position `index` on as commands, or the first that is none. -/
def commandsOf (index : Nat) : List Json.Value → Except ScriptError (List Command)
  | [] => .ok []
  | v :: rest =>
    match Command.ofValue v with
    | .error cause => .error (.invalidCommand index (.badCommand cause))
    | .ok command =>
      match commandsOf (index + 1) rest with
      | .error e => .error e
      | .ok commands => .ok (command :: commands)

/-- The commands under the data field of a document. -/
def ofDocument (document : Json.Value) : Except ScriptError Script :=
  match (document.field? ScriptText.dataField).bind Json.Value.items? with
  | none => .error (.invalidCommand 0 .bodyNotList)
  | some elements =>
    match commandsOf 0 elements with
    | .error e => .error e
    | .ok commands => .ok ⟨commands⟩

/-- The script that a text spells. -/
def parse (raw : String) : Except ScriptError Script :=
  match Json.Value.ofText (ScriptText.normalize raw).toList with
  | .error fault => .error (.malformed fault)
  | .ok document => ofDocument document

/-- The script in a file. -/
def load (files : Files) (path : String) : Except ScriptError Script :=
  match files.read path with
  | .error cause => .error (.unreadable path cause)
  | .ok raw => parse raw

/-- Number of commands. -/
def length (s : Script) : Nat := s.commands.length

/-- Ticks of one pass, without any time adjustment. -/
def totalTicks (s : Script) : Nat := s.commands.foldr (fun c n => c.delay.toNat + n) 0

end Script

end Lightshow
