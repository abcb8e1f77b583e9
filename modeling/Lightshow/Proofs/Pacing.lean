/-
How long playback waits after a command.

The wait after a command follows from the commands of its pass up to it, and from nothing else: a try
that fails leaves the time adjustment as it was, so whatever was lost and tried again, and whatever
earlier passes have done, leaves no trace in it.

* `schedule` -- the commands of a script with their waits;
* `leads_attempt` -- what a try of a command does to the time adjustment, and how it fails.
-/
import Lightshow.Proofs.Course

namespace Lightshow

open Talk Performance

/-! ### Schedules -/

/-- The time adjustment after some commands of a pass. -/
def timeAfter (cmds : List Command) : Int64 :=
  ((cmds.filter fun c => c.instruction = .timeAdjust).foldl
    (fun s c => s.adjustTime (c.param 0)) PlaybackState.initial).timeAdjust

/-- The wait after a command that comes after others in its pass. -/
def waitAfter (past : List Command) (c : Command) : Duration :=
  tickPause c.delay (timeAfter (past ++ [c]))

/-- The commands of a script, each with the wait after it. -/
def schedule (cmds : List Command) : List (Command × Duration) :=
  cmds.mapIdx fun i c => (c, waitAfter (cmds.take i) c)

/-- A time adjustment does not depend on the power. -/
theorem adjustTime_timeAdjust {s s' : PlaybackState} (h : s.timeAdjust = s'.timeAdjust)
    (delta : Int64) : (s.adjustTime delta).timeAdjust = (s'.adjustTime delta).timeAdjust := by
  rw [PlaybackState.adjustTime, PlaybackState.adjustTime, h]

theorem timeAfter_concat (past : List Command) {c : Command} {s : PlaybackState}
    (h : s.timeAdjust = timeAfter past) :
    timeAfter (past ++ [c]) =
      if c.instruction = .timeAdjust then (s.adjustTime (c.param 0)).timeAdjust
      else s.timeAdjust := by
  by_cases adjusts : c.instruction = .timeAdjust
  · rw [if_pos adjusts, timeAfter, List.filter_append, List.foldl_append,
      List.filter_cons_of_pos (by simpa using adjusts)]
    exact (adjustTime_timeAdjust h _).symm
  · rw [if_neg adjusts, h, timeAfter, List.filter_append,
      List.filter_cons_of_neg (by simpa using adjusts), List.filter_nil, List.append_nil, timeAfter]

theorem schedule_concat (past : List Command) (c : Command) :
    schedule (past ++ [c]) = schedule past ++ [(c, waitAfter past c)] := by
  have before : (past.mapIdx fun i c' => (c', waitAfter ((past ++ [c]).take i) c')) =
      past.mapIdx fun i c' => (c', waitAfter (past.take i) c') := by
    refine List.ext_getElem (by simp) fun i h _ => ?_
    have hi : i ≤ past.length := by simp at h; omega
    rw [List.getElem_mapIdx, List.getElem_mapIdx, List.take_append_of_le_length hi]
  rw [schedule, List.mapIdx_append, before, schedule]
  simp

/-- The schedule of the first commands is the first part of the schedule. -/
theorem schedule_prefix {past cmds : List Command} (h : past <+: cmds) :
    schedule past <+: schedule cmds := by
  obtain ⟨rest, rfl⟩ := h
  induction rest generalizing past with
  | nil => exact (List.append_nil past).symm ▸ List.prefix_rfl
  | cons c rest ih =>
    rw [List.append_cons]
    refine List.IsPrefix.trans ?_ ih
    rw [schedule_concat]
    exact List.prefix_append _ _

/-! ### Trying a command -/

namespace Player

/-- What holds after some turns of a try of a command that comes after others in its pass, of its
result, and of the state and the world after it. -/
def Attempted {S : Type} (past : List Command) (c : Command)
    (T : List (Turn S Question Question.Answer Performance)) :
    Except BulbError Dispatch → PlaybackState → Performance → Prop
  | .ok .skip => fun _ w => (∃ check, T = [check] ∧ check.check? = some true) ∧ w.Stopped
  | .ok (.sleep length) => fun state _ =>
    length = waitAfter past c ∧ state.timeAdjust = timeAfter (past ++ [c])
  | .error cause => fun state _ =>
    state.timeAdjust = timeAfter past ∧ T.getLast?.bind Turn.failure? = some cause

section

variable {past : List Command} {c : Command}

/-- An instruction that is no time adjustment leaves the time alone, and a time adjustment cannot
fail. -/
theorem takes_perform_timed (handle : Nat) :
    Takes answer (.whole fun _ _ => True) (fun _ s _ => s.timeAdjust = timeAfter past)
      (perform handle c) (atEnd (fun _ _ s _ => s.timeAdjust = timeAfter (past ++ [c]))
        fun cause m s _ =>
          s.timeAdjust = timeAfter past ∧ m.getLast?.bind Turn.failure? = some cause) := by
  by_cases adjusts : c.instruction = .timeAdjust
  · rw [perform, adjusts]
    refine takes_modify fun _ s _ time => ?_
    show (s.adjustTime (c.param 0)).timeAdjust = _
    rw [timeAfter_concat past time, if_pos adjusts]
  · have steady : Execution.Steady answer (.whole fun _ _ => True)
        (fun _ s _ => s.timeAdjust = timeAfter past) (fun cause m s _ =>
          s.timeAdjust = timeAfter past ∧ m.getLast?.bind Turn.failure? = some cause) handle := by
      refine Execution.steady_of_send (fun _ _ => keeps_ask fun _ _ _ time => ⟨trivial, time⟩)
        (fun call _ => Execution.takes_send (takes_call
          (fun _ _ _ _ time _ => ⟨trivial, time⟩) fun m s w cause time _ => ⟨trivial, time, ?_⟩))
        fun _ _ _ _ time => time
      rw [show Chronicle.step _ _ _ = m ++ [_] from rfl, List.getLast?_concat]
      rfl
    refine (steady.keeps_perform c fun h => absurd h adjusts).mono (fun _ _ _ time => time)
      fun r _ s _ hr => ?_
    cases r with
    | error cause => exact hr
    | ok _ =>
      show s.timeAdjust = _
      rw [timeAfter_concat past hr, if_neg adjusts]

/-- A try of a command finds a stop at once, or it fails and leaves the time alone, or it tells the
wait that the commands of the pass up to it give. -/
theorem leads_attempt (handle : Nat) {p : Player} {w : Performance}
    (time : p.state.timeAdjust = timeAfter past) :
    Leads answer (attempt handle c) p w fun T r p' w' =>
      ∃ result state, r = .ok result ∧ p' = { p with state } ∧ Attempted past c T result state w' := by
  rw [attempt, leads_within, execute]
  show Leads answer (Talk.ask .stopping >>= _) _ _ _
  rw [leads_ask_bind]
  cases stop : (answer .stopping w).1 with
  | true => exact ⟨_, _, rfl, rfl, ⟨_, rfl, rfl⟩, stopped_of_answer (q := .stopping) stop⟩
  | false =>
    refine leads_bind.mpr ((takes_perform_timed handle [] p.state _ time).mono
      fun T r state w' hr => ?_)
    obtain ⟨-, hr⟩ := hr
    rw [Chronicle.whole_after] at hr
    cases r with
    | ok _ => exact ⟨_, _, rfl, rfl, congrArg (tickPause c.delay) hr, hr⟩
    | error cause =>
      obtain ⟨same, failed⟩ := hr
      refine ⟨_, _, rfl, rfl, same, ?_⟩
      obtain ⟨t, last, lost⟩ := Option.bind_eq_some_iff.mp failed
      rw [List.nil_append] at last
      rw [List.map_cons, List.getLast?_cons, List.getLast?_map, last, Option.map_some,
        Option.getD_some, Option.bind_some]
      exact (Turn.failure?_mapAsker _ t).trans lost

end

end Player

end Lightshow
