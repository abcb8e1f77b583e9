/-
The command line.

This layer reads files and variables, writes reports to standard error and lets time pass; what
happens is decided by `Program.prepare` and `Player.dialogue`.  It plays on the simulated bulb; a
bridge cannot be reached from here, and counts as silent.
-/
import Lightshow.Hue.Outlet
import Lightshow.Playback.Studio
import Lightshow.Program.Run

namespace Lightshow

/-- Adds what stands at a path, if anything can be read there. -/
def takeUp (files : Files) (path : String) : IO Files := do
  try
    return files.put path (.file (← IO.FS.readBinFile path))
  catch
    | .inappropriateType .. => return files.put path .directory
    | _ => return files

/-- The variables that the program looks at. -/
def readEnvironment : IO Environment := do
  let names := [configVariable, driverVariable, bridgeVariable, usernameVariable,
    Program.filterVariable]
  let pairs ← names.filterMapM fun name => do return (← IO.getEnv name).map (name, ·)
  return fun name => (pairs.find? (·.1 = name)).map (·.2)

/-- Milliseconds of a pause, as many as the system can wait at once. -/
def milliseconds (d : Duration) : UInt32 := (min (d.nanos / 1000000) 4294967295).toUInt32

/-- The answer to a question, while time passes and reports are written. -/
def answerLive {σ : Type} (answer : (q : Question) → σ → q.Answer × σ) (world : IO.Ref σ)
    (tell : Message → IO Unit) (q : Question) : IO q.Answer := do
  match q with
  | .pause _ length => IO.sleep (milliseconds length)
  | .report m => tell m
  | _ => pure ()
  world.modifyGet (answer q)

/-- Steps after which a playback is given up. -/
def longPlay : Nat := 1000000000000

/-- Plays a show from the beginning to its end. -/
def playLive {σ : Type} (s : Program.Show) (tell : Message → IO Unit) (world : σ)
    (answer : (q : Question) → σ → q.Answer × σ) : IO (Except Halt Summary) := do
  let world ← IO.mkRef world
  let (result, _) ← (Player.dialogue longPlay s.player).hold (answerLive answer world tell)
  return result

/-- Writes lines to standard error. -/
def writeLines (lines : List String) : IO Unit := lines.forM IO.eprintln

/-- A whole run of the program under some name. -/
def runProgram (arguments : List String) : IO UInt32 := do
  let env ← readEnvironment
  let here ← IO.currentDir
  let paths := (env configVariable).getD Config.usualPath :: arguments.drop 1
  let files ← paths.foldlM takeUp (.empty (Files.steps here.toString))
  match Program.prepare arguments files env with
  | .error refusal =>
    writeLines refusal.outcome.lines
    return refusal.outcome.exit.toUInt32
  | .ok s =>
    let filter := LogFilter.ofText (env Program.filterVariable)
    let tell (n : Program.Notice) : IO Unit :=
      writeLines (if filter.shows n.target n.level then [n.line] else [])
    s.opening.forM tell
    let report (m : Message) : IO Unit := tell (.playback m)
    match s.venue? with
    | none =>
      writeLines Program.Trace.homeless.lines
      return Program.failureExit.toUInt32
    | some venue =>
      let result ← match venue with
        | .memory =>
          let seed ← IO.rand 0 (1 <<< 64 - 1)
          let studio := Studio.around (.new s.bulb .dark) (.start [] seed.toUInt64)
          playLive s report studio Studio.answer
        | .bridge host username =>
          let connector := Hue.Connector.new host username s.bulb
          playLive s report (Hue.Outlet.new connector ()) (Hue.Outlet.answer Hue.silence)
      let (last, exit, trace) := Program.ending result
      last.forM tell
      writeLines trace
      return exit.toUInt32

end Lightshow

/-- The program. -/
def main (arguments : List String) : IO UInt32 :=
  Lightshow.runProgram (Lightshow.Arguments.programName :: arguments)
