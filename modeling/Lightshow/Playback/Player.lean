/-
Playback: playing a script pass after pass.

Playback opens the bulb, takes a snapshot and turns it on; then it plays passes until a stop is
requested, and puts the snapshot back.  A bulb that cannot be reached is opened again after a
growing wait, and the command it did not take is tried again from its start; any other failure
ends playback, but the snapshot is still put back.

Passes and retries can go on without end, so both are bounded by a fuel; a playback that runs out
of it has no result.

* `Player.run` -- a whole playback;
* `Player.restore` -- putting the snapshot back, in at most `restoreTries` tries.
-/
import Lightshow.Playback.Backoff
import Lightshow.Playback.Execute

namespace Lightshow

/-- Counts of a playback. -/
structure Summary where
  passes : Nat
  commands : Nat
  reconnects : Nat
  deriving DecidableEq, Repr

/-- A playback between two questions. -/
structure Player where
  /-- Identifier of the bulb. -/
  bulb : String
  script : Script
  /-- The command that is being carried out. -/
  current : Option Command
  state : PlaybackState
  backoff : Backoff
  /-- The open handle of the bulb, if there is one. -/
  handle : Option Nat
  summary : Summary

/-- Why a playback has no summary. -/
inductive Halt where
  | failed (cause : BulbError)
  /-- The fuel ran out. -/
  | unfinished

/-- A part of a playback asks questions, changes the player, and may halt. -/
abbrev Playing := Talk Halt Player Question Question.Answer

namespace Player

/-- A player that has not begun. -/
def new (bulb : String) (script : Script) (backoff : Backoff) : Player :=
  ⟨bulb, script, none, .initial, backoff, none, ⟨0, 0, 0⟩⟩

/-- Asks the outside. -/
abbrev ask (q : Question) : Playing q.Answer := Talk.ask q

/-- The answer, or a halt with the failure. -/
def orHalt {α : Type} : Except BulbError α → Playing α
  | .ok a => pure a
  | .error cause => throw (.failed cause)

/-- A part of a playback whose halt is a result. -/
def caught {α : Type} (part : Playing α) : Playing (Except Halt α) :=
  part.within id fun p _ => p

/-- Changes the counts. -/
def count (change : Summary → Summary) : Playing Unit :=
  modify fun p => { p with summary := change p.summary }

/-- Executes a command through a handle; its failure is a result. -/
def attempt (handle : Nat) (c : Command) : Playing (Except BulbError Dispatch) :=
  (execute handle c).within Player.state fun state p => { p with state }

/-- Reports a failure to reach the bulb, and waits. -/
def waitBeforeRetry (cause : BulbError) : Playing Unit := do
  let (wait, backoff) := (← get).backoff.next
  modify fun p => { p with backoff }
  ask (.report (.retrying cause wait))
  ask (.pause .retrying wait)

/-- Opens a handle anew; a failure is a result. -/
def reconnect : Playing (Except BulbError Nat) := do
  match ← ask .connect with
  | .error cause => return .error cause
  | .ok handle =>
    ask (.report (.reconnected (← get).bulb))
    modify fun p => { p with
      handle := some handle
      summary := { p.summary with reconnects := p.summary.reconnects + 1 } }
    return .ok handle

/-- The open handle, or a new one; `none` once a stop has been requested. -/
def openHandle : Playing (Option (Except BulbError Nat)) := do
  match (← get).handle with
  | some handle => return some (.ok handle)
  | none =>
    if ← ask .stopping then return none
    return some (← reconnect)

/-- Halts, unless the failure is worth retrying. -/
def haltIfFinal (cause : BulbError) : Playing Unit :=
  if cause.isConnectivity then pure () else throw (.failed cause)

/-- Executes a command, until the bulb takes it. -/
def dispatch (c : Command) : (fuel : Nat) → Playing Dispatch
  | 0 => throw .unfinished
  | fuel + 1 => do
    match ← openHandle with
    | none => return .skip
    | some (.error cause) =>
      haltIfFinal cause
      waitBeforeRetry cause
      dispatch c fuel
    | some (.ok handle) =>
      match ← attempt handle c with
      | .ok done =>
        modify fun p => { p with backoff := p.backoff.reset }
        return done
      | .error cause =>
        haltIfFinal cause
        modify fun p => { p with handle := none }
        waitBeforeRetry cause
        dispatch c fuel

/-- Counts a command that was executed, and waits after it. -/
def pace : Dispatch → Playing Unit
  | .skip => pure ()
  | .sleep length => do
    count fun s => { s with commands := s.commands + 1 }
    ask (.pause .pacing length)

/-- Carries a command out, with the wait after it. -/
def carryOut (fuel : Nat) (c : Command) : Playing Unit := do
  modify fun p => { p with current := some c }
  pace (← dispatch c fuel)
  modify fun p => { p with current := none }

/-- Plays commands one after the other, as long as no stop is requested. -/
def playCommands (fuel : Nat) : List Command → Playing Unit
  | [] => pure ()
  | c :: rest => do
    if ← ask .stopping then return
    carryOut fuel c
    playCommands fuel rest

/-- The wait in place of a pass over an empty script. -/
def idleTime : Duration := .ofWholeSeconds 1

/-- Goes on with the script that was left, if there is one. -/
def pickUpScript : Playing Unit := do
  match ← ask .nextScript with
  | none => pure ()
  | some script =>
    ask (.report (.switched script.length))
    modify fun p => { p with script }

/-- A pass over the script that was left, or else over the current one. -/
def pass (fuel : Nat) : Playing Unit := do
  pickUpScript
  modify fun p => { p with state := { p.state with timeAdjust := 0 } }
  count fun s => { s with passes := s.passes + 1 }
  let script := (← get).script
  if script.commands.isEmpty then ask (.pause .idling idleTime)
  else playCommands fuel script.commands

/-- Plays passes, as long as no stop is requested. -/
def play : (fuel : Nat) → Playing Unit
  | 0 => throw .unfinished
  | fuel + 1 => do
    if ← ask .stopping then return
    pass fuel
    play fuel

/-- The open handle, or a new one, whether or not a stop has been requested. -/
def reopenHandle : Playing (Except BulbError Nat) := do
  match (← get).handle with
  | some handle => return .ok handle
  | none => reconnect

/-- Opens the bulb if it is not open, and puts a snapshot back; a failure is a result. -/
def tryRestore (snapshot : Snapshot) : Playing (Except BulbError Unit) := do
  match ← reopenHandle with
  | .error cause => return .error cause
  | .ok handle => ask (.call handle (.restoreSnapshot snapshot))

/-- Tries at putting the snapshot back. -/
def restoreTries : Nat := 5

/-- Puts a snapshot back, with one try and that many more; a failure is a result. -/
def restore (snapshot : Snapshot) : (more : Nat) → Playing (Except BulbError Unit)
  | 0 => tryRestore snapshot
  | more + 1 => do
    match ← tryRestore snapshot with
    | .ok () => return .ok ()
    | .error cause =>
      if !cause.isConnectivity then return .error cause
      modify fun p => { p with handle := none }
      waitBeforeRetry cause
      restore snapshot more

/-- Opens the bulb, takes a snapshot and turns it on. -/
def startUp : Playing Snapshot := do
  let handle ← orHalt (← ask .connect)
  let rgb ← orHalt (← ask (.call handle .getRgb))
  ask (.report (.initialColor (← get).bulb rgb))
  let snapshot ← orHalt (← ask (.call handle .saveSnapshot))
  orHalt (← ask (.call handle .turnOn))
  modify fun p => { p with state := { p.state with power := .on }, handle := some handle }
  return snapshot

/-- The end of a playback that was stopped: the snapshot is put back. -/
def finish (snapshot : Snapshot) : Playing Summary := do
  orHalt (← restore snapshot (restoreTries - 1))
  ask (.report .restored)
  return (← get).summary

/-- Reports that the snapshot could not be put back. -/
def reportUnrestored : Except BulbError Unit → Playing Unit
  | .ok () => pure ()
  | .error cause => ask (.report (.restoreFailed cause))

/-- The end of a playback that failed: the snapshot is put back if that works. -/
def abandon (snapshot : Snapshot) (cause : BulbError) : Playing Summary := do
  ask (.report (.playbackFailed cause))
  reportUnrestored (← restore snapshot (restoreTries - 1))
  throw (.failed cause)

/-- The end of a playback, however its passes ended. -/
def close (snapshot : Snapshot) : Except Halt Unit → Playing Summary
  | .ok () => finish snapshot
  | .error .unfinished => throw .unfinished
  | .error (.failed cause) => abandon snapshot cause

/-- A whole playback. -/
def run (fuel : Nat) : Playing Summary := do
  let snapshot ← startUp
  close snapshot (← caught (play fuel))

/-- A whole playback as a dialogue: its result and the player at its end. -/
def dialogue (fuel : Nat) (p : Player) :
    Dialogue Player Question Question.Answer (Except Halt Summary × Player) :=
  (run fuel).run.run p

end Player

end Lightshow
