/-
Playback on a stage with planned incidents.

Incidents are planned for a time or for an attempt (a connect or a call), and consist of deeds.
Those planned for an attempt happen right before it, those planned for a time during the pause
that reaches it.  Playback is stopped at the latest before attempt `lastAttempt` or at `lastTime`.

* `Rehearsal.answer` -- the answer to a question, and the rehearsal after it;
* `Rehearsal.hold` -- a whole playback.
-/
import Lightshow.Playback.Stage

namespace Lightshow

/-- When an incident happens. -/
inductive Moment where
  /-- At that millisecond. -/
  | time (ms : Nat)
  /-- Before that attempt, counted from one. -/
  | attempt (n : Nat)
  /-- Before that attempt of a name, counted from one. -/
  | attemptOf (name : String) (n : Nat)
  deriving DecidableEq, Repr

/-- Something that is planned to happen. -/
structure Incident where
  moment : Moment
  deeds : List Deed

/-- A stage with the incidents that have not happened yet. -/
structure Rehearsal extends Stage where
  planned : List Incident

namespace Rehearsal

/-- Playback is stopped before this attempt. -/
def lastAttempt : Nat := 600

/-- Playback is stopped at this millisecond. -/
def lastTime : Nat := 3600000

/-- The incidents that bound every rehearsal. -/
def bounds : List Incident := [⟨.attempt lastAttempt, [.stop]⟩, ⟨.time lastTime, [.stop]⟩]

/-- A rehearsal that has not begun. -/
def new (studio : Studio) (files : Files) (scriptPath : String) (planned : List Incident) :
    Rehearsal :=
  ⟨.new studio files scriptPath, planned ++ bounds⟩

/-- The incidents of one kind of moment happen, in the order in which they were planned. -/
def meet (due : Moment → Bool) (r : Rehearsal) : Rehearsal :=
  let (now, later) := r.planned.partition fun i => due i.moment
  ⟨(now.flatMap Incident.deeds).foldl Stage.after r.toStage, later⟩

/-- Whether a moment is a time up to a limit. -/
def isBy (limit : Nat) : Moment → Bool
  | .time ms => ms ≤ limit
  | _ => false

/-- The earliest planned time up to a limit. -/
def nextTime? (limit : Nat) (planned : List Incident) : Option Nat :=
  (planned.filterMap fun i => match i.moment with
    | .time ms => if ms ≤ limit then some ms else none
    | _ => none).min?

/-- The incidents of a pause happen in the order of their times, as many rounds of them as `fuel`
allows. -/
def meetUntil (limit : Nat) : (fuel : Nat) → Rehearsal → Rehearsal
  | 0, r => r
  | fuel + 1, r =>
    match nextTime? limit r.planned with
    | none => r
    | some ms => meetUntil limit fuel (r.meet (isBy ms))

/-- The incidents planned for the next attempt, which has that name. -/
def meetAttempt (name : String) (r : Rehearsal) : Rehearsal :=
  let total := r.attempts.length + 1
  let ofName := (r.attempts.filter fun a => a.2.name = name).length + 1
  r.meet fun
    | .time _ => false
    | .attempt n => n = total
    | .attemptOf other n => other = name && n = ofName

/-- The incidents that happen before a question is answered. -/
def meetBefore : Question → Rehearsal → Rehearsal
  | .connect, r => r.meetAttempt connectName
  | .call _ c, r => r.meetAttempt c.name
  | .pause _ length, r => r.meetUntil (Stage.clockAfter r.clock length) r.planned.length
  | _, r => r

/-- The answer to a question, and the rehearsal after it. -/
def answer (q : Question) (r : Rehearsal) : q.Answer × Rehearsal :=
  let r := r.meetBefore q
  let (a, stage) := r.serve q
  (a, { r with toStage := stage })

/-- Rounds of playback that no rehearsal outlasts, if every round takes time or an attempt. -/
def patience : Nat := 200000

/-- A whole playback: its result, and the rehearsal at its end. -/
def hold (p : Player) (r : Rehearsal) : Except Halt Summary × Rehearsal :=
  let ((result, _), r) := (Player.dialogue patience p).run answer r
  (result, r)

end Rehearsal

end Lightshow
