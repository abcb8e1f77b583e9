/-
The program: from arguments to an exit code.

The program reads its configuration and the script, plays the script on the bulb, and reports what
it does.  Whatever goes wrong before or during playback becomes a trace with its causes, and the
exit code tells whether there is one.

* `Program.prepare` -- everything before playback;
* `Program.run` -- a whole run, given how a show is played.
-/
import Lightshow.Config.Load
import Lightshow.Playback.Player
import Lightshow.Program.Arguments
import Lightshow.Program.LogFilter
import Lightshow.Time.Ticks

namespace Lightshow.Program

/-- Something that the program reports. -/
inductive Notice where
  | loaded (script : Script) (path : String)
  | simulating
  | playing (bulb : String)
  | played (summary : Summary)
  | playback (message : Message)

namespace Notice

/-- Weight of a notice. -/
def level : Notice → Level
  | playback m => m.level
  | _ => .info

/-- What the notice is about, for a filter. -/
def target : Notice → String
  | playback (.interrupted) | playback (.terminated) | playback (.reloading _)
  | playback (.reloadFailed _) => "lightscript_player::signals"
  | playback _ => "lightscript_player::player"
  | _ => "lightscript"

/-- Wording of a notice. -/
def text : Notice → String
  | loaded script path =>
    "Loaded " ++ toString script.length ++ " commands from " ++ path ++ " ("
      ++ oneDecimal (tickSeconds script.totalTicks) ++ "s per pass)"
  | simulating => "Using simulated bulb; run with RUST_LOG=debug to see bulb calls"
  | playing bulb => "Playing on bulb " ++ bulb
  | played s =>
    "Played " ++ toString s.passes ++ " passes (" ++ toString s.commands ++ " commands, "
      ++ toString s.reconnects ++ " reconnects)"
  | playback m => m.text

/-- A notice as one line: its weight and its wording. -/
def line (n : Notice) : String := n.level.name ++ " " ++ n.text

end Notice

/-! ### Traces -/

/-- What went wrong, and why, the nearest cause first. -/
structure Trace where
  headline : String
  causes : List String

namespace Trace

/-- The lines of a text that starts behind a mark; further lines stand as deep as the first. -/
def indented (mark : String) (text : String) : List String :=
  match text.splitOn "\n" with
  | [] => [mark]
  | first :: rest =>
    (mark ++ first) :: rest.map fun line => String.ofList (List.replicate mark.length ' ') ++ line

/-- The causes, numbered if there are several. -/
def causeLines (causes : List String) : List String :=
  match causes with
  | [one] => indented "    " one
  | _ => causes.zipIdx.flatMap fun (cause, n) =>
    let number := toString n
    indented (String.ofList (List.replicate (5 - number.length) ' ') ++ number ++ ": ") cause

/-- The lines of a trace. -/
def lines (t : Trace) : List String :=
  ("Error: " ++ t.headline).splitOn "\n"
    ++ if t.causes.isEmpty then [] else "" :: "Caused by:" :: causeLines t.causes

/-- The configuration cannot be used. -/
def ofConfig (e : ConfigError) : Trace :=
  ⟨"failed to load configuration", e.message :: match e with
    | .unreadable _ cause => [cause.message]
    | _ => []⟩

/-- The script cannot be played. -/
def ofScript (path : String) (e : ScriptError) : Trace :=
  ⟨"failed to load script " ++ path, e.message :: match e with
    | .unreadable _ cause => [cause.message]
    | .malformed fault => [fault.message]
    | .invalidCommand .. => []⟩

/-- The bulb failed. -/
def ofBulb (e : BulbError) : Trace := ⟨"bulb error: " ++ e.message, [e.message]⟩

/-- There is no place for the show. -/
def homeless : Trace := ⟨"hue driver needs a bridge and a username", []⟩

end Trace

/-! ### Running -/

/-- Where a show is played. -/
inductive Venue where
  /-- On a bulb in memory. -/
  | memory
  /-- On a light of a bridge, which is found by its host and a user name. -/
  | bridge (host username : String)
  deriving DecidableEq, Repr

/-- Everything that playback needs. -/
structure Show where
  config : Config
  script : Script
  /-- Where the script was read and will be read again. -/
  path : String
  bulb : String

/-- The player of a show, before it begins. -/
def Show.player (s : Show) : Player :=
  .new s.bulb s.script (.start (.ofWholeSeconds s.config.playback.backoffInitial)
    (.ofWholeSeconds s.config.playback.backoffMax))

/-- The place that the configuration asks for, if it says where that is. -/
def Show.venue? (s : Show) : Option Venue :=
  match s.config.bulb.driver with
  | .simulated => some .memory
  | .hue => do return .bridge (← s.config.bulb.bridge) (← s.config.bulb.username)

/-- What is reported before playback. -/
def Show.opening (s : Show) : List Notice :=
  .loaded s.script s.path :: match s.venue? with
    | none => []
    | some .memory => [.simulating, .playing s.bulb]
    | some (.bridge ..) => [.playing s.bulb]

/-- Why there is no show. -/
inductive Refusal where
  | usage (line : String)
  | failed (trace : Trace)

/-- Everything before playback. -/
def prepare (arguments : List String) (files : Files) (env : Environment) :
    Except Refusal Show :=
  match Arguments.parse arguments with
  | .error line => .error (.usage line)
  | .ok a =>
    match Config.load files env with
    | .error e => .error (.failed (.ofConfig e))
    | .ok config =>
      match Script.load files a.script with
      | .error e => .error (.failed (.ofScript a.script e))
      | .ok script => .ok ⟨config, script, a.script, a.bulb⟩

/-- The environment variable of the filter. -/
def filterVariable : String := "RUST_LOG"

/-- How a run ended: its exit code, and the lines that it wrote. -/
structure Outcome where
  exit : Nat
  lines : List String
  deriving DecidableEq, Repr

/-- Exit code of a run that failed. -/
def failureExit : Nat := 1

/-- Exit code of a run with wrong arguments. -/
def usageExit : Nat := 2

/-- The end of a run without a show. -/
def Refusal.outcome : Refusal → Outcome
  | .usage line => ⟨usageExit, [line]⟩
  | .failed trace => ⟨failureExit, trace.lines⟩

/-- What stands at the end of a run: a last notice, or a trace. -/
def ending : Except Halt Summary → List Notice × Nat × List String
  | .ok summary => ([.played summary], 0, [])
  | .error (.failed cause) => ([], failureExit, (Trace.ofBulb cause).lines)
  | .error .unfinished => ([], failureExit, [])

/-- A whole run; `hold` plays a show that has a place, and gives what was reported meanwhile and the
result. -/
def run (arguments : List String) (files : Files) (env : Environment)
    (hold : Show → List Message × Except Halt Summary) : Outcome :=
  match prepare arguments files env with
  | .error refusal => refusal.outcome
  | .ok s =>
    let filter := LogFilter.ofText (env filterVariable)
    let shown (notices : List Notice) : List String :=
      (notices.filter fun n => filter.shows n.target n.level).map Notice.line
    match s.venue? with
    | none => ⟨failureExit, shown s.opening ++ Trace.homeless.lines⟩
    | some _ =>
      let (messages, result) := hold s
      let (last, exit, trace) := ending result
      ⟨exit, shown (s.opening ++ messages.map .playback ++ last) ++ trace⟩

end Lightshow.Program
