/-
Playback on a clock of its own, seen from outside.

A stage is a studio whose pauses advance a clock.  Everything that is attempted is logged with the
time, and every report is kept.  Deeds come from outside playback: they make the next attempts
fail, send signals, replace the script file, or leave a script.

* `Stage.after` -- the stage after a deed;
* `Stage.serve` -- the answer to a question, and the stage after it.
-/
import Lightshow.Playback.Player
import Lightshow.Playback.Signal
import Lightshow.Playback.Studio

namespace Lightshow

/-- Something that is done to a playback from outside. -/
inductive Deed where
  /-- The bulb does not open, that many times. -/
  | failConnects (count : Nat)
  /-- Calls are lost, that many times. -/
  | failCalls (count : Nat)
  /-- Calls are refused, that many times. -/
  | rejectCalls (count : Nat)
  /-- Connects are refused, that many times. -/
  | rejectConnects (count : Nat)
  /-- Calls get an answer without sense, that many times. -/
  | garbleCalls (count : Nat)
  | signal (s : Signal)
  /-- Something else, or nothing, stands where the script file was. -/
  | replaceFile (entry : Option Entry)
  /-- A script is left for the next pass. -/
  | submit (script : Script)
  /-- Playback is asked to stop, without a signal. -/
  | stop

/-- A connect or call with its result. -/
inductive Attempt where
  | connect (result : Except BulbError Nat)
  | call (c : Call) (result : Except BulbError c.Reply)

/-- Name of the attempts to connect. -/
def connectName : String := "Connect"

/-- Name of an attempt; a call has its own. -/
def Attempt.name : Attempt → String
  | .connect _ => connectName
  | .call c _ => c.name

/-- A playback in progress, seen from outside. -/
structure Stage where
  studio : Studio
  files : Files
  /-- Where a reload finds the script. -/
  scriptPath : String
  /-- Milliseconds since the start. -/
  clock : Nat
  /-- Connects still to be refused. -/
  rejectedConnects : Nat
  /-- Calls still to be garbled. -/
  garbledCalls : Nat
  /-- Every attempt with its time, newest first. -/
  attempts : List (Nat × Attempt)
  /-- Every report, newest first. -/
  reports : List Message

namespace Stage

/-- A stage before playback. -/
def new (studio : Studio) (files : Files) (scriptPath : String) : Stage :=
  ⟨studio, files, scriptPath, 0, 0, 0, [], []⟩

/-- Changes the bulb. -/
def onBulb (change : Simulated → Simulated) (s : Stage) : Stage :=
  { s with studio := { s.studio with bulb := change s.studio.bulb } }

/-- Changes what playback is told. -/
def onControl (change : Control → Control) (s : Stage) : Stage :=
  { s with studio := { s.studio with control := change s.studio.control } }

/-- The stage after a deed. -/
def after (s : Stage) : Deed → Stage
  | .failConnects count => s.onBulb fun b => { b with failingConnects := count }
  | .failCalls count => s.onBulb fun b => { b with failingCalls := count }
  | .rejectCalls count => s.onBulb fun b => { b with rejectedCalls := count }
  | .rejectConnects count => { s with rejectedConnects := count }
  | .garbleCalls count => { s with garbledCalls := count }
  | .signal signal =>
    let (reports, control) := signal.handle s.files s.scriptPath s.studio.control
    { s.onControl fun _ => control with reports := reports.reverse ++ s.reports }
  | .replaceFile none => { s with files := s.files.remove s.scriptPath }
  | .replaceFile (some entry) => { s with files := s.files.put s.scriptPath entry }
  | .submit script => s.onControl fun c => c.submit script
  | .stop => s.onControl fun c => c.requestStop.2

/-- Logs an attempt. -/
def log (a : Attempt) (s : Stage) : Stage :=
  { s with attempts := (s.clock, a) :: s.attempts }

/-- Opens a handle, unless the connect is refused on purpose. -/
def connect (s : Stage) : Except BulbError Nat × Stage :=
  if 0 < s.rejectedConnects then
    (.error (.rejected s.studio.bulb.address ("injected for " ++ connectName)),
      { s with rejectedConnects := s.rejectedConnects - 1 })
  else
    let (result, studio) := s.studio.answer .connect
    (result, { s with studio })

/-- Sends a call, unless it is garbled on purpose. -/
def perform (handle : Nat) (c : Call) (s : Stage) : Except BulbError c.Reply × Stage :=
  if 0 < s.garbledCalls then
    (.error (.protocol (.injected c.name)), { s with garbledCalls := s.garbledCalls - 1 })
  else
    let (result, studio) := s.studio.answer (.call handle c)
    (result, { s with studio })

/-- The clock at the first millisecond that is not before the end of a pause. -/
def clockAfter (clock : Nat) (length : Duration) : Nat := clock + (length.nanos + 999999) / 1000000

/-- The answer to a question, and the stage after it. -/
def serve : (q : Question) → Stage → q.Answer × Stage
  | .connect, s =>
    let (result, s) := s.connect
    (result, s.log (.connect result))
  | .call handle c, s =>
    let (result, s) := s.perform handle c
    (result, s.log (.call c result))
  | .pause _ length, s => ((), { s with clock := clockAfter s.clock length })
  | .report message, s => ((), { s with reports := message :: s.reports })
  | q, s =>
    let (a, studio) := s.studio.answer q
    (a, { s with studio })

end Stage

end Lightshow
