/-
The waits of a playback that has lost its bulb.

Every wait before a retry follows a failure to reach the bulb, and is twice as long as the wait before
it, as far as the ceiling allows, unless a command has been executed in between.  It makes no
difference whether a connect, a command or a try to put the snapshot back has failed, nor whether
connects have worked in between.

* `Backoff.interval` -- the length of a wait by the number of waits before it;
* `Backed.next`, `Backed.reset` -- what a wait and an executed command do to the retry interval;
* `skipped_iff_executed` -- an execution that does nothing can be told from its turns;
* `retries_back_off` -- the length of every wait of a playback.
-/
import Lightshow.Proofs.Course
import Mathlib.Algebra.Group.Nat.Defs

namespace Lightshow

open Talk

/-! ### The retry interval -/

namespace Backoff

/-- The wait after a streak of `k` waits. -/
def interval (initial ceiling : Duration) (k : Nat) : Duration :=
  (Duration.ofNanos (initial.nanos * 2 ^ k)).min ceiling

end Backoff

/-- The retry interval after a streak of `k` waits. -/
structure Backed (initial ceiling : Duration) (k : Nat) (b : Backoff) : Prop where
  initial_eq : b.initial = initial
  ceiling_eq : b.ceiling = ceiling
  current : b.current.min ceiling = Backoff.interval initial ceiling k

namespace Backed

variable {initial ceiling : Duration} {k : Nat} {b : Backoff}

theorem start (initial ceiling : Duration) : Backed initial ceiling 0 (.start initial ceiling) where
  initial_eq := rfl
  ceiling_eq := rfl
  current := by
    refine Duration.eq_of_nanos ?_
    have short := initial.nanos_le
    simp [Backoff.start, Backoff.interval, Nat.min_eq_left short]

/-- The next wait is the interval of the streak, and the streak is longer by one after it. -/
theorem next (h : Backed initial ceiling k b) :
    b.next.1 = Backoff.interval initial ceiling k ∧ Backed initial ceiling (k + 1) b.next.2 := by
  obtain ⟨hinitial, rfl, hcurrent⟩ := h
  refine ⟨hcurrent, hinitial, rfl, Duration.eq_of_nanos ?_⟩
  -- below the ceiling the interval is exact, and doubled it is the next one
  have short := b.ceiling.nanos_le
  have exactly := congrArg Duration.nanos hcurrent
  have saturated (n : Nat) : (Duration.ofNanos n).nanos = min n Duration.longest := rfl
  simp only [Backoff.interval, Backoff.next, Duration.nanos_min, saturated,
    Duration.nanos_doubled, Nat.pow_succ, ← Nat.mul_assoc] at exactly ⊢
  generalize initial.nanos * 2 ^ k = n at exactly ⊢
  omega

/-- An executed command starts the next streak. -/
theorem reset (h : Backed initial ceiling k b) : Backed initial ceiling 0 b.reset := by
  obtain ⟨rfl, rfl, -⟩ := h
  exact ⟨rfl, rfl, (start b.initial b.ceiling).current⟩

end Backed

/-! ### Streaks of waits -/

namespace Turn

variable {W : Type}

/-- Whether an execution was over at a turn, and had not failed: the wait of a command comes right
after an execution that went through, and one that finds a stop does nothing else. -/
def executed : Turn Player Question Question.Answer W → Bool
  | ⟨_, .pause .pacing _, _, _⟩ => true
  | ⟨p, .stopping, true, _⟩ => p.current.isSome && p.handle.isSome
  | _ => false

/-- Whether a turn was the wait before a retry. -/
def retries : Turn Player Question Question.Answer W → Bool
  | ⟨_, .pause .retrying _, _, _⟩ => true
  | _ => false

end Turn

section

variable {W : Type}

/-- The waits before a retry since the last execution that was over, and had not failed. -/
def streak (T : List (Turn Player Question Question.Answer W)) : Nat :=
  T.foldl (fun k t => if t.executed then 0 else if t.retries then k + 1 else k) 0

theorem streak_concat (T : List (Turn Player Question Question.Answer W))
    (t : Turn Player Question Question.Answer W) : streak (T ++ [t]) =
      if t.executed then 0 else if t.retries then streak T + 1 else streak T := by
  rw [streak, List.foldl_append]
  rfl

end

namespace Player

section

variable {W : Type} (answer : (q : Question) → W → q.Answer × W) (initial ceiling : Duration)

/-- What is so of the wait before a retry: it follows a failure to reach the bulb and the report of
it, and it is as long as the streak of waits before it says. -/
def Spaced (before : List (Turn Player Question Question.Answer W))
    (t : Turn Player Question Question.Answer W) : Prop :=
  ∀ length, t.question = .pause .retrying length →
    length = Backoff.interval initial ceiling (streak before) ∧
    ∃ earlier failed reported cause, before = earlier ++ [failed, reported] ∧
      failed.failure? = some cause ∧ cause.isConnectivity = true ∧
      reported.question = .report (.retrying cause length)

/-- Every wait before a retry is spaced. -/
def patience (W : Type) : Chronicle (List (Turn Player Question Question.Answer W)) Player Question
    Question.Answer W :=
  .whole (Spaced initial ceiling)

/-- The player is as patient as the streak of its waits says. -/
def Patient (m : List (Turn Player Question Question.Answer W)) (p : Player) : Prop :=
  Backed initial ceiling (streak m) p.backoff

/-- The same, with something known of the command that is being carried out. -/
def Abiding (K : Option Command → Prop) (m : List (Turn Player Question Question.Answer W))
    (p : Player) (_ : W) : Prop :=
  Patient initial ceiling m p ∧ K p.current

/-- The same, with an open handle. -/
def Equipped (K : Option Command → Prop) (handle : Nat)
    (m : List (Turn Player Question Question.Answer W)) (p : Player) (w : W) : Prop :=
  Abiding initial ceiling K m p w ∧ p.handle = some handle

/-- The last turn was a failure. -/
def Foiled (K : Option Command → Prop) (cause : BulbError)
    (m : List (Turn Player Question Question.Answer W)) (p : Player) (w : W) : Prop :=
  Abiding initial ceiling K m p w ∧
    ∃ earlier failed, m = earlier ++ [failed] ∧ failed.failure? = some cause

/-- An execution is over; the interval is still that of some streak. -/
def Over (cmd : Command) (d : Dispatch) (m : List (Turn Player Question Question.Answer W))
    (p : Player) (_ : W) : Prop :=
  (∃ k, Backed initial ceiling k p.backoff) ∧ p.current = some cmd ∧ (d = .skip → streak m = 0)

/-- A command has been got through: the interval is the initial one, or nothing was done. -/
def Through (cmd : Command) (d : Dispatch) (m : List (Turn Player Question Question.Answer W))
    (p : Player) (_ : W) : Prop :=
  p.current = some cmd ∧ match d with
    | .skip => Patient initial ceiling m p
    | .sleep _ => Backed initial ceiling 0 p.backoff

/-- The player once its interval has gone on to the next wait. -/
def advanced (p : Player) : Player := { p with backoff := p.backoff.next.2 }

/-- A failure is about to be waited out: the interval has gone on, the streak has not. -/
def Noted (K : Option Command → Prop) (cause : BulbError) (p₀ : Player)
    (m : List (Turn Player Question Question.Answer W)) (p : Player) (w : W) : Prop :=
  Foiled initial ceiling K cause m p₀ w ∧ p = p₀.advanced

/-- The same, and the wait has been announced. -/
def Announced (K : Option Command → Prop) (cause : BulbError) (p₀ : Player)
    (m : List (Turn Player Question Question.Answer W)) (p : Player) (w : W) : Prop :=
  (Abiding initial ceiling K m p₀ w ∧ p = p₀.advanced) ∧
    ∃ earlier failed report, m = earlier ++ [failed, report] ∧ failed.failure? = some cause ∧
      report.question = .report (.retrying cause p₀.backoff.next.1)

variable {answer initial ceiling} {m : List (Turn Player Question Question.Answer W)} {p : Player}
variable {K : Option Command → Prop} {w : W}

/-- A turn that is no wait before a retry and ends no execution leaves the streak as it is. -/
theorem Patient.aside (h : Patient initial ceiling m p) {t : Turn Player Question Question.Answer W}
    (unexecuted : t.executed = false) (unpaused : ∀ length, t.question ≠ .pause .retrying length) :
    (patience initial ceiling W).along m t ∧ Patient initial ceiling (m ++ [t]) p := by
  refine ⟨fun length h => absurd h (unpaused length), ?_⟩
  have unretried : t.retries = false := by
    obtain ⟨p, q, r, w⟩ := t
    rcases q with _ | _ | ⟨_ | _ | _, length⟩ | _ | _ | _ | _
    case pause.retrying => exact absurd rfl (unpaused length)
    all_goals rfl
  have same : streak (m ++ [t]) = streak m := by
    rw [streak_concat, unexecuted, unretried]
    rfl
  rw [Patient, same]
  exact h

theorem keeps_abiding {q : Question} (unpaused : ∀ length, q ≠ .pause .retrying length)
    (unexecuted : ∀ p r w, K p.current →
      (⟨p, q, r, w⟩ : Turn Player Question Question.Answer W).executed = false) :
    Surely answer (ε := Halt) (patience initial ceiling W) (Abiding initial ceiling K) (ask q) := by
  refine keeps_ask fun m p w h => ?_
  obtain ⟨along, patient⟩ := h.1.aside (unexecuted p (answer q w).1 w h.2) unpaused
  exact ⟨along, patient, h.2⟩

/-! ### Waiting before a retry -/

theorem takes_wait_patient (cause : BulbError) (conn : cause.isConnectivity = true) :
    Takes answer (patience initial ceiling W) (Foiled initial ceiling K cause) (waitBeforeRetry cause)
      (atEnd (fun _ => Abiding initial ceiling K) fun _ _ _ _ => False) := by
  refine takes_get_bind fun p => ?_
  -- the interval goes on before the wait, the streak with it
  have reports : Takes answer (ε := Halt) (patience initial ceiling W)
      (Noted initial ceiling K cause p) (ask (.report (.retrying cause p.backoff.next.1)))
      (atEnd (fun _ => Announced initial ceiling K cause p) fun _ _ _ _ => False) := by
    refine takes_ask.mpr fun m p' w h => ?_
    obtain ⟨⟨⟨patient, known⟩, earlier, failed, rfl, failure⟩, rfl⟩ := h
    obtain ⟨along, patient'⟩ := patient.aside
      (t := ⟨p.advanced, .report (.retrying cause p.backoff.next.1), (), w⟩) rfl nofun
    exact ⟨along, ⟨⟨patient', known⟩, rfl⟩, earlier, failed, _, List.append_assoc .., failure, rfl⟩
  have pauses : Takes answer (ε := Halt) (patience initial ceiling W)
      (Announced initial ceiling K cause p) (ask (.pause .retrying p.backoff.next.1))
      (atEnd (fun _ => Abiding initial ceiling K) fun _ _ _ _ => False) := by
    refine takes_ask.mpr fun m p' w h => ?_
    obtain ⟨⟨⟨patient, known⟩, rfl⟩, earlier, failed, report, split, failure, reports⟩ := h
    obtain ⟨length, longer⟩ := patient.next
    refine ⟨fun length' asks => ?_, ?_, known⟩
    · obtain rfl : p.backoff.next.1 = length' := by
        cases asks
        rfl
      exact ⟨length, earlier, failed, report, cause, split, failure, conn, reports⟩
    · change Backed initial ceiling (streak (m ++ [_])) p.backoff.next.2
      rw [streak_concat]
      exact longer
  have both := takes_bind reports (fun _ => pauses) fun _ _ _ _ => False.elim
  refine takes_modify_bind both fun m p' w h => ?_
  obtain ⟨foiled, rfl⟩ := h
  exact ⟨foiled, rfl⟩

/-- A failure that is waited out leaves a player that is as patient as before. -/
theorem recovers_patient : Playing.Recovers answer (patience initial ceiling W)
    (Abiding initial ceiling K) (fun _ m p _ => Patient initial ceiling m p)
    (Foiled initial ceiling K) (Foiled initial ceiling K)
    fun cause m p w => cause.isConnectivity = true ∧ Foiled initial ceiling K cause m p w where
  lost_of_unopened _ _ _ _ hl := hl
  retry _ _ _ _ conn hl := ⟨conn, hl⟩
  drop _ _ _ _ conn hl := ⟨conn, hl⟩
  wait cause m p w h := takes_wait_patient cause h.1 m p w h.2
  final _ _ _ _ _ hl := hl.1.1
  unfinished _ _ _ hi := hi.1

theorem takes_reconnect_patient :
    Takes answer (patience initial ceiling W) (Abiding initial ceiling K) reconnect
      (outcome (Equipped initial ceiling K) (Foiled initial ceiling K)) := by
  have connects : Takes answer (ε := Halt) (patience initial ceiling W) (Abiding initial ceiling K)
      (ask .connect) (outcome (fun _ => Abiding initial ceiling K) (Foiled initial ceiling K)) := by
    refine takes_connect (fun m p w handle h _ => ?_) fun m p w cause h _ => ?_
    · obtain ⟨along, patient⟩ := h.1.aside (t := ⟨p, .connect, .ok handle, w⟩) rfl nofun
      exact ⟨along, patient, h.2⟩
    · obtain ⟨along, patient⟩ := h.1.aside (t := ⟨p, .connect, .error cause, w⟩) rfl nofun
      exact ⟨along, ⟨patient, h.2⟩, m, _, rfl, rfl⟩
  exact Playing.takes_reconnect connects
    (fun _ message => keeps_abiding nofun fun _ _ _ _ => rfl) fun _ _ _ _ h => ⟨h, rfl⟩

/-! ### Getting a command through -/

theorem takes_call_patient (handle : Nat) (call : Call) :
    Takes answer (ε := Halt) (patience initial ceiling W) (Equipped initial ceiling K handle)
      (ask (.call handle call))
      (outcome (fun _ => Equipped initial ceiling K handle) (Foiled initial ceiling K)) := by
  refine takes_call (fun m p w reply h _ => ?_) fun m p w cause h _ => ?_
  · obtain ⟨along, patient⟩ := h.1.1.aside (t := ⟨p, .call handle call, .ok reply, w⟩) rfl nofun
    exact ⟨along, ⟨patient, h.1.2⟩, h.2⟩
  · obtain ⟨along, patient⟩ := h.1.1.aside (t := ⟨p, .call handle call, .error cause, w⟩) rfl nofun
    exact ⟨along, ⟨patient, h.1.2⟩, m, _, rfl, rfl⟩

/-- A try is skipped: its look has found a stop. -/
def Skipped (initial ceiling : Duration) (cmd : Command)
    (m : List (Turn Player Question Question.Answer W)) (p : Player) (_ : W) : Prop :=
  (∃ k, Backed initial ceiling k p.backoff) ∧ p.current = some cmd ∧ streak m = 0

/-- The turn at which a try finds a stop ends an execution. -/
theorem executed_of_skipped {p : Player} {cmd : Command} {handle : Nat}
    (current : p.current = some cmd) (held : p.handle = some handle) (w : W) :
    (⟨p, .stopping, true, w⟩ : Turn Player Question Question.Answer W).executed = true := by
  change (p.current.isSome && p.handle.isSome) = true
  rw [current, held]
  rfl

theorem takes_attempt_patient (handle : Nat) (cmd : Command) :
    Takes answer (patience initial ceiling W) (Equipped initial ceiling (· = some cmd) handle)
      (attempt handle cmd)
      (outcome (Over initial ceiling cmd) (Foiled initial ceiling (· = some cmd))) := by
  refine takes_attempt fun p => ?_
  -- the player while it executes a command is the one that began, but for its settings
  let held (m : List (Turn Player Question Question.Answer W)) (state : PlaybackState) (w : W) : Prop :=
    Equipped initial ceiling (· = some cmd) handle m { p with state } w
  let foiled (cause : BulbError) (m : List (Turn Player Question Question.Answer W))
      (state : PlaybackState) (w : W) : Prop :=
    Foiled initial ceiling (· = some cmd) cause m { p with state } w
  have looks : Takes answer (ε := BulbError)
      ((patience initial ceiling W).comap fun state => { p with state }) held (Talk.ask .stopping)
      (atEnd (fun stop => if stop
        then fun m state w => Skipped initial ceiling cmd m { p with state } w else held)
        fun _ _ _ _ => False) := by
    refine takes_ask.mpr fun m state w h => ?_
    obtain ⟨⟨patient, current⟩, handle⟩ := h
    cases (answer .stopping w).1 with
    | true =>
      refine ⟨nofun, ⟨_, patient⟩, current, ?_⟩
      change streak (m ++ [_]) = 0
      rw [streak_concat]
      exact if_pos (executed_of_skipped (p := { p with state }) current handle w)
    | false =>
      obtain ⟨along, patient'⟩ := patient.aside (t := ⟨{ p with state }, .stopping, false, w⟩) rfl nofun
      exact ⟨along, ⟨patient', current⟩, handle⟩
  have performs : Keeps answer ((patience initial ceiling W).comap fun state => { p with state }) held
      foiled (perform handle cmd) := by
    have sends (call : Call) : Keeps answer ((patience initial ceiling W).comap fun state =>
        { p with state }) held foiled (Execution.send handle call) :=
      Execution.takes_send_within (takes_call_patient handle call)
    refine (Execution.steady_of_send (fun limit positive => keeps_ask fun m state w h => ?_)
      (fun call _ => sends call) fun _ _ _ _ h => h).keeps_perform cmd fun _ _ _ _ h => h
    obtain ⟨along, patient⟩ := h.1.1.aside (t := ⟨{ p with state }, .roll limit positive,
      (answer (.roll limit positive) w).1, w⟩) rfl nofun
    exact ⟨along, ⟨patient, h.1.2⟩, h.2⟩
  refine (Execution.takes_execute looks performs).mono (fun _ _ _ h => h) fun r m state w hr => ?_
  rcases r with cause | (length | _)
  · exact hr
  · exact ⟨⟨_, hr.1.1⟩, hr.1.2, nofun⟩
  · exact ⟨hr.1, hr.2.1, fun _ => hr.2.2⟩

/-- A command is to be carried out, and no handle is open. -/
def Shut (initial ceiling : Duration) (cmd : Command)
    (m : List (Turn Player Question Question.Answer W)) (p : Player) (w : W) : Prop :=
  Abiding initial ceiling (· = some cmd) m p w ∧ p.handle = none

theorem takes_dispatch_patient (cmd : Command) (fuel : Nat) :
    Takes answer (patience initial ceiling W) (Abiding initial ceiling (· = some cmd))
      (dispatch cmd fuel)
      (atEnd (Through initial ceiling cmd) fun _ m p _ => Patient initial ceiling m p) := by
  have looks : Takes answer (ε := Halt) (patience initial ceiling W) (Shut initial ceiling cmd)
      (ask .stopping)
      (atEnd (fun stop => if stop then Through initial ceiling cmd .skip
        else Shut initial ceiling cmd) fun _ _ _ _ => False) := by
    refine takes_ask.mpr fun m p w h => ?_
    -- without a handle there is no execution that could be over
    have unexecuted (stop : Bool) : (⟨p, .stopping, stop, w⟩ :
        Turn Player Question Question.Answer W).executed = false := by
      cases stop with
      | true =>
        change (p.current.isSome && p.handle.isSome) = false
        rw [h.2]
        exact Bool.and_false _
      | false => rfl
    obtain ⟨along, patient⟩ := h.1.1.aside (unexecuted (answer .stopping w).1) nofun
    refine ⟨along, ?_⟩
    generalize (answer .stopping w).1 = stop at patient ⊢
    cases stop with
    | true => exact ⟨h.1.2, patient⟩
    | false => exact ⟨⟨patient, h.1.2⟩, h.2⟩
  have reconnects : Takes answer (patience initial ceiling W) (Shut initial ceiling cmd) reconnect
      (outcome (Equipped initial ceiling (· = some cmd)) (Foiled initial ceiling (· = some cmd))) :=
    takes_reconnect_patient.mono (fun _ _ _ h => h.1) fun _ _ _ _ h => h
  have opens : Takes answer (patience initial ceiling W) (Abiding initial ceiling (· = some cmd))
      openHandle (Playing.looked (Through initial ceiling cmd .skip)
        (Equipped initial ceiling (· = some cmd)) (Foiled initial ceiling (· = some cmd))) :=
    Playing.takes_openHandle (fun _ _ _ _ found h => ⟨h, found⟩)
      (fun _ _ _ closed h => ⟨h, closed⟩) looks reconnects
  refine recovers_patient.takes_dispatch opens (fun handle => takes_attempt_patient handle cmd)
    (fun d m p w h => ?_) fuel
  obtain ⟨⟨k, backed⟩, current, skipped⟩ := h
  refine ⟨current, ?_⟩
  cases d with
  | skip =>
    change Backed initial ceiling (streak m) p.backoff.reset
    rw [skipped rfl]
    exact backed.reset
  | sleep length => exact backed.reset

theorem keeps_carryOut_patient (cmd : Command) (fuel : Nat) :
    Keeps answer (patience initial ceiling W) (Abiding initial ceiling (· = none))
      (fun _ m p _ => Patient initial ceiling m p) (carryOut fuel cmd) := by
  refine Playing.takes_carryOut (fun _ _ _ h => ⟨h.1, rfl⟩) (takes_dispatch_patient cmd fuel)
    (fun d => ?_) fun _ _ _ h => ⟨h.1, rfl⟩
  cases d with
  | skip => exact takes_pure fun _ _ _ h => ⟨h.2, h.1⟩
  | sleep length =>
    have paces : Takes answer (ε := Halt) (patience initial ceiling W)
        (Through initial ceiling cmd (.sleep length)) (ask (.pause .pacing length))
        (atEnd (fun _ => Abiding initial ceiling (· = some cmd))
          fun _ m p _ => Patient initial ceiling m p) := by
      refine takes_ask.mpr fun m p w h => ⟨nofun, ?_, h.1⟩
      change Backed initial ceiling (streak (m ++ [_])) p.backoff
      rw [streak_concat]
      exact h.2
    exact takes_modify_bind paces fun _ _ _ h => h

/-- Whether an execution was over at a turn so far. -/
def executedYet (W : Type) : Chronicle Bool Player Question Question.Answer W :=
  ⟨fun found t => found || t.executed, fun _ _ => True⟩

theorem executedYet_after (found : Bool) (T : List (Turn Player Question Question.Answer W)) :
    (executedYet W).after found T = true ↔ found = true ∨ ∃ t ∈ T, t.executed = true := by
  induction T generalizing found with
  | nil => simp [Chronicle.after]
  | cons t T ih =>
    refine (ih (found || t.executed)).trans ?_
    simp [or_assoc]

/-- A command is tried through an open handle, and no execution was over so far. -/
def Unexecuted (cmd : Command) (handle : Nat) (found : Bool) (p : Player) (_ : W) : Prop :=
  found = false ∧ p.current = some cmd ∧ p.handle = some handle

/-- A try goes over an execution exactly if it is skipped. -/
theorem takes_attempt_executed (handle : Nat) (cmd : Command) :
    Takes answer (executedYet W) (Unexecuted cmd handle) (attempt handle cmd)
      (outcome (fun d found _ _ => d = .skip ↔ found = true) fun _ found _ _ => found = false) := by
  refine takes_attempt fun p => ?_
  have looks : Takes answer (ε := BulbError) ((executedYet W).comap fun state => { p with state })
      (fun found state w => Unexecuted cmd handle found { p with state } w) (Talk.ask .stopping)
      (atEnd (fun stop => if stop then fun found _ _ => found = true
        else fun found state w => Unexecuted cmd handle found { p with state } w)
        fun _ _ _ _ => False) := by
    refine takes_ask.mpr fun found state w h => ⟨trivial, ?_⟩
    obtain ⟨rfl, current, held⟩ := h
    cases (answer .stopping w).1 with
    | true => exact executed_of_skipped (p := { p with state }) current held w
    | false => exact ⟨rfl, current, held⟩
  have performs : Keeps answer ((executedYet W).comap fun state => { p with state })
      (fun found state w => Unexecuted cmd handle found { p with state } w)
      (fun _ found _ _ => found = false) (perform handle cmd) := by
    refine (Execution.steady_of_send (fun _ _ => keeps_ask fun _ _ _ h => ⟨trivial, ?_⟩)
      (fun call _ => Execution.takes_send ?_) fun _ _ _ _ h => h).keeps_perform cmd
      fun _ _ _ _ h => h
    · obtain ⟨rfl, current, held⟩ := h
      exact ⟨rfl, current, held⟩
    · refine takes_call (fun _ _ _ reply h _ => ⟨trivial, ?_⟩) fun _ _ _ cause h _ => ⟨trivial, ?_⟩
      · obtain ⟨rfl, current, held⟩ := h
        exact ⟨rfl, current, held⟩
      · obtain ⟨rfl, -⟩ := h
        rfl
  refine (Execution.takes_execute looks performs).mono (fun _ _ _ h => h) fun r found state w h => ?_
  rcases r with cause | (length | _)
  · exact h
  · refine ⟨fun same => ?_, fun found => absurd (h.1.symm.trans found) Bool.false_ne_true⟩
    cases same
  · exact ⟨fun _ => h, fun _ => rfl⟩

/-- In a try of a command through the open handle, an execution is over at a turn exactly if the try
is skipped. -/
theorem skipped_iff_executed {cmd : Command} {handle : Nat} {p : Player} (current : p.current = some cmd)
    (held : p.handle = some handle) (w : W) :
    Leads answer (attempt handle cmd) p w fun T r _ _ =>
      r = .ok (.ok .skip) ↔ ∃ t ∈ T, t.executed = true := by
  refine (takes_attempt_executed handle cmd false p w ⟨rfl, current, held⟩).mono fun T r _ _ h => ?_
  have found := executedYet_after false T
  rw [Bool.false_eq_true, false_or] at found
  rw [← found]
  rcases r with halt | cause | d
  · exact h.2.elim
  · refine ⟨fun same => ?_, fun executed => absurd (h.2.symm.trans executed) Bool.false_ne_true⟩
    cases same
  · refine Iff.trans ⟨fun same => ?_, fun same => ?_⟩ h.2
    · cases same
      rfl
    · rw [same]

/-! ### A whole playback -/

theorem keeps_play_patient (fuel : Nat) :
    Keeps answer (patience initial ceiling W) (Abiding initial ceiling (· = none))
      (fun _ m p _ => Patient initial ceiling m p) (play fuel) := by
  have passing : Playing.Passing answer (patience initial ceiling W)
      (Abiding initial ceiling (· = none)) :=
    { stopping := keeps_abiding nofun fun p r w idle => by
        cases r with
        | true =>
          change (p.current.isSome && p.handle.isSome) = false
          rw [idle]
          rfl
        | false => rfl
      report := fun _ => keeps_abiding nofun fun _ _ _ _ => rfl
      idling := fun _ => keeps_abiding nofun fun _ _ _ _ => rfl
      nextScript := keeps_abiding nofun fun _ _ _ _ => rfl
      passes := fun _ _ _ _ h => h
      script := fun _ _ _ _ h => h
      timeAdjust := fun _ _ _ _ h => h }
  exact passing.keeps_play (fun _ _ _ h => h.1) keeps_carryOut_patient fuel

theorem takes_restore_patient (snapshot : Snapshot) (more : Nat) :
    Takes answer (patience initial ceiling W) (Abiding initial ceiling K) (restore snapshot more)
      (outcome (fun _ => Abiding initial ceiling K) (Foiled initial ceiling K)) := by
  have reopens : Takes answer (patience initial ceiling W) (Abiding initial ceiling K) reopenHandle
      (outcome (Equipped initial ceiling K) (Foiled initial ceiling K)) :=
    Playing.takes_reopenHandle (fun _ _ _ _ found h => ⟨h, found⟩) (fun _ _ _ _ h => h)
      takes_reconnect_patient
  refine recovers_patient.takes_restore reopens (fun handle => ?_) more
  exact (takes_call_patient handle (.restoreSnapshot snapshot)).mono (fun _ _ _ h => h)
    (outcome_mono (fun _ _ _ _ h => h.1) fun _ _ _ _ h => h)

theorem takes_run_patient (fuel : Nat) :
    Takes answer (patience initial ceiling W) (Abiding initial ceiling (· = none)) (run fuel)
      fun _ _ _ _ => True := by
  have reports (message : Message) : Surely answer (ε := Halt) (patience initial ceiling W)
      (Abiding initial ceiling fun _ => True) (ask (.report message)) :=
    keeps_abiding nofun fun _ _ _ _ => rfl
  have starts : Keeps answer (patience initial ceiling W) (Abiding initial ceiling (· = none))
      (fun _ _ _ _ => True) startUp :=
    keeps_startUp (keeps_abiding nofun fun _ _ _ _ => rfl)
      (fun _ => keeps_abiding nofun fun _ _ _ _ => rfl)
      (fun _ _ => keeps_abiding nofun fun _ _ _ _ => rfl) (fun _ _ _ _ _ => trivial)
      fun _ _ _ _ h => h
  have plays : Takes answer (patience initial ceiling W) (Abiding initial ceiling (· = none))
      (play fuel) fun _ => Abiding initial ceiling fun _ => True := by
    refine (keeps_play_patient fuel).mono (fun _ _ _ h => h) fun r m p w hr => ?_
    cases r with
    | ok _ => exact ⟨hr.1, trivial⟩
    | error halt => exact ⟨hr, trivial⟩
  have closes (snapshot : Snapshot) (ended : Except Halt Unit) :
      Takes answer (patience initial ceiling W) (Abiding initial ceiling fun _ => True)
        (close snapshot ended) (atEnd (fun _ _ _ _ => True) fun _ _ _ _ => True) := by
    have restores : Takes answer (patience initial ceiling W) (Abiding initial ceiling fun _ => True)
        (restore snapshot (restoreTries - 1))
        (outcome (fun _ => Abiding initial ceiling fun _ => True)
          fun _ => Abiding initial ceiling fun _ => True) :=
      (takes_restore_patient snapshot _).mono (fun _ _ _ h => h)
        (outcome_mono (fun _ _ _ _ h => h) fun _ _ _ _ h => h.1)
    exact Playing.takes_close reports restores (reports _) (fun _ => reports _)
      (fun _ _ _ _ _ => trivial) fun _ _ _ _ _ _ => trivial
  exact (Playing.takes_run starts (fun _ => plays) closes).mono (fun _ _ _ h => h)
    fun _ _ _ _ _ => trivial

/-- Every wait before a retry of a playback is spaced. -/
theorem run_spaced (answer : (q : Question) → W → q.Answer × W) (bulb : String) (script : Script)
    (initial ceiling : Duration) (fuel : Nat) (w : W)
    {before later : List (Turn Player Question Question.Answer W)}
    {t : Turn Player Question Question.Answer W}
    (split : (run fuel).turns answer (new bulb script (.start initial ceiling)) w =
      before ++ t :: later) : Spaced initial ceiling before t := by
  have patient : Takes answer (patience initial ceiling W) (Abiding initial ceiling (· = none))
      (run fuel) fun _ _ _ _ => True := takes_run_patient fuel
  obtain ⟨holds, -⟩ := patient [] (new bulb script (.start initial ceiling)) w
    ⟨Backed.start initial ceiling, rfl⟩
  exact Chronicle.good_of_whole holds split

end

/-- Every wait before a retry, in every playback, comes right after a failure to reach the bulb and
the report of it, and lasts as long as the initial interval doubled once for each wait since the last
execution that was over and had not failed, or since the beginning, but at most as long as the
ceiling. -/
theorem retries_back_off {W : Type} (answer : (q : Question) → W → q.Answer × W) (bulb : String)
    (script : Script) (initial ceiling : Duration) (fuel : Nat) (w : W)
    {before later : List (Turn Player Question Question.Answer W)}
    {t : Turn Player Question Question.Answer W} {length : Duration}
    (split : (run fuel).turns answer (new bulb script (.start initial ceiling)) w = before ++ t :: later)
    (asks : t.question = .pause .retrying length) :
    length = (Duration.ofNanos (initial.nanos * 2 ^ streak before)).min ceiling ∧
    ∃ earlier failed reported cause, before = earlier ++ [failed, reported] ∧
      failed.failure? = some cause ∧ cause.isConnectivity = true ∧
      reported.question = .report (.retrying cause length) := by
  have spaced : Spaced initial ceiling before t :=
    run_spaced answer bulb script initial ceiling fuel w split
  exact spaced length asks

/-- A lamp that is lost while it plays and not found again: the streak goes on when its settings are put
back, and the fourth wait lasts eight seconds. -/
theorem retries_back_off_into_restore :
    let turns := (run 5).turns Performance.answer (new "lamp" ⟨[⟨0, .fade, [1]⟩]⟩
      (.start (.ofWholeSeconds 1) (.ofWholeSeconds 30))) (Performance.ofLamp fun
        | 8 => [.failCalls 1, .failConnects 2]
        | 18 => [.stop]
        | 19 => [.failConnects 1]
        | _ => [])
    ∃ before t later, turns = before ++ t :: later ∧
      t.question = .pause .retrying (.ofWholeSeconds 8) ∧ streak before = 3 ∧
      (Duration.ofWholeSeconds 8 = (Duration.ofNanos ((Duration.ofWholeSeconds 1).nanos *
        2 ^ streak before)).min (.ofWholeSeconds 30) ∧
      ∃ earlier failed reported cause, before = earlier ++ [failed, reported] ∧
        failed.failure? = some cause ∧ cause.isConnectivity = true ∧
        reported.question = .report (.retrying cause (.ofWholeSeconds 8))) := by
  intro turns
  obtain ⟨t, split, asks⟩ : ∃ t, turns = turns.take 24 ++ t :: turns.drop 25 ∧
      t.question = .pause .retrying (.ofWholeSeconds 8) := ⟨_, rfl, rfl⟩
  exact ⟨_, _, _, split, asks, rfl, retries_back_off Performance.answer "lamp" ⟨[⟨0, .fade, [1]⟩]⟩
    (.ofWholeSeconds 1) (.ofWholeSeconds 30) 5 _ split asks⟩

end Player

end Lightshow
