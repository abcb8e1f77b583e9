/-
Playback after a failure.

A failed connect or call that is worth retrying costs playback its handle and a wait; then it opens
a new handle and goes on as before.  Getting a command through and putting the snapshot back are the
same moves in turn, and what becomes of a condition along them follows from the moves.

* `takes_openHandle`, `takes_reopenHandle` -- to the handle that is open, or to a new one;
* `Recovers` -- a condition that comes back after every failure that is waited out;
* `Recovers.takes_dispatch`, `Recovers.takes_restore` -- through any number of lost handles.
-/
import Lightshow.Playback.Player
import Lightshow.Proofs.Turns

namespace Lightshow

open Talk

namespace Player

variable {X W α : Type}

/-- What holds after something whose failure is a result. -/
def outcome {ε S : Type} (done : α → X → S → W → Prop) (lost : BulbError → X → S → W → Prop) :
    Except ε (Except BulbError α) → X → S → W → Prop
  | .ok (.ok a) => done a
  | .ok (.error cause) => lost cause
  | .error _ => fun _ _ _ => False

theorem outcome_mono {ε S : Type} {done done' : α → X → S → W → Prop}
    {lost lost' : BulbError → X → S → W → Prop}
    (hdone : ∀ a m s w, done a m s w → done' a m s w)
    (hlost : ∀ cause m s w, lost cause m s w → lost' cause m s w)
    (r : Except ε (Except BulbError α)) (m : X) (s : S) (w : W) (h : outcome done lost r m s w) :
    outcome done' lost' r m s w := by
  rcases r with e | cause | a
  · exact h
  · exact hlost cause m s w h
  · exact hdone a m s w h

section

variable {ε S : Type} {answer : (q : Question) → W → q.Answer × W}
variable {c : Chronicle X S Question Question.Answer W} {pre inv : X → S → W → Prop}
variable {lost : BulbError → X → S → W → Prop}

/-- What is surely kept is kept whether or not the result is a failure. -/
theorem keeps_outcome {part : Talk ε S Question Question.Answer (Except BulbError α)}
    (h : Surely answer c inv part) :
    Takes answer c inv part (outcome (fun _ => inv) fun _ => inv) := by
  refine h.mono (fun _ _ _ hi => hi) fun r m p w hr => ?_
  rcases r with e | cause | a <;> exact hr

/-- A connect opens a handle, or fails. -/
theorem takes_connect {linked : Nat → X → S → W → Prop}
    (opens : ∀ m s w handle, pre m s w → (answer .connect w).1 = .ok handle →
      c.along m ⟨s, .connect, .ok handle, w⟩ ∧
        linked handle (c.step m ⟨s, .connect, .ok handle, w⟩) s (answer .connect w).2)
    (fails : ∀ m s w cause, pre m s w → (answer .connect w).1 = .error cause →
      c.along m ⟨s, .connect, .error cause, w⟩ ∧
        lost cause (c.step m ⟨s, .connect, .error cause, w⟩) s (answer .connect w).2) :
    Takes answer (ε := ε) c pre (Talk.ask .connect) (outcome linked lost) := by
  refine takes_ask.mpr fun m s w hp => ?_
  cases hr : (answer .connect w).1 with
  | ok handle => exact opens m s w handle hp hr
  | error cause => exact fails m s w cause hp hr

/-- A call is carried out, or fails. -/
theorem takes_call {handle : Nat} {call : Call} {done : call.Reply → X → S → W → Prop}
    (works : ∀ m s w reply, pre m s w → (answer (.call handle call) w).1 = .ok reply →
      c.along m ⟨s, .call handle call, .ok reply, w⟩ ∧
        done reply (c.step m ⟨s, .call handle call, .ok reply, w⟩) s
          (answer (.call handle call) w).2)
    (fails : ∀ m s w cause, pre m s w → (answer (.call handle call) w).1 = .error cause →
      c.along m ⟨s, .call handle call, .error cause, w⟩ ∧
        lost cause (c.step m ⟨s, .call handle call, .error cause, w⟩) s
          (answer (.call handle call) w).2) :
    Takes answer (ε := ε) c pre (Talk.ask (.call handle call)) (outcome done lost) := by
  refine takes_ask.mpr fun m s w hp => ?_
  cases hr : (answer (.call handle call) w).1 with
  | ok reply => exact works m s w reply hp hr
  | error cause => exact fails m s w cause hp hr

end

end Player

namespace Playing

open Player hiding ask

variable {X W α : Type} (answer : (q : Question) → W → q.Answer × W)
variable (c : Chronicle X Player Question Question.Answer W) (inv : X → Player → W → Prop)
variable (broken : Halt → X → Player → W → Prop)

/-- What holds after a look for a handle: `stopped` if there is none because of a stop, `ready` of the
handle if there is one, and `unopened` if a new one could not be opened. -/
def looked (stopped : X → Player → W → Prop) (ready : Nat → X → Player → W → Prop)
    (unopened : BulbError → X → Player → W → Prop) :
    Except Halt (Option (Except BulbError Nat)) → X → Player → W → Prop
  | .ok none => stopped
  | .ok (some (.ok handle)) => ready handle
  | .ok (some (.error cause)) => unopened cause
  | .error _ => fun _ _ _ => False

/-- Failures are waited out.  `unopened` holds after a failed connect and `lost` after any failure;
once the handle is dropped, `dropped` holds, and after the wait the invariant does again. -/
structure Recovers (unopened lost dropped : BulbError → X → Player → W → Prop) : Prop where
  lost_of_unopened : ∀ cause m p w, unopened cause m p w → lost cause m p w
  retry : ∀ cause m p w, cause.isConnectivity = true → unopened cause m p w → dropped cause m p w
  drop : ∀ cause m p w, cause.isConnectivity = true → lost cause m p w →
    dropped cause m { p with handle := none } w
  wait : ∀ cause, Takes answer c (dropped cause) (waitBeforeRetry cause)
    (atEnd (fun _ => inv) fun _ _ _ _ => False)
  final : ∀ cause m p w, cause.isConnectivity = false → lost cause m p w →
    broken (.failed cause) m p w
  unfinished : ∀ m p w, inv m p w → broken .unfinished m p w

variable {answer c inv broken}
variable {ready : Nat → X → Player → W → Prop}
variable {unopened lost dropped : BulbError → X → Player → W → Prop}

/-! ### Opening a handle -/

theorem takes_reconnect {shut : X → Player → W → Prop} {linked : Nat → X → Player → W → Prop}
    (connect : Takes answer (ε := Halt) c shut (ask .connect) (outcome linked unopened))
    (report : ∀ handle message,
      Surely answer (ε := Halt) c (linked handle) (ask (.report message)))
    (counted : ∀ handle m p w, linked handle m p w → ready handle m { p with
      handle := some handle
      summary := { p.summary with reconnects := p.summary.reconnects + 1 } } w) :
    Takes answer c shut reconnect (outcome ready unopened) := by
  refine takes_bind connect (fun r => ?_) fun _ _ _ _ => False.elim
  cases r with
  | error cause => exact takes_pure fun _ _ _ hu => hu
  | ok handle =>
    refine Surely.bind keeps_get fun p => (report handle _).bind fun _ => ?_
    exact takes_modify_bind (takes_pure fun _ _ _ hr => hr) (counted handle)

/-- The open handle is ready; without one, a new one is opened unless a stop is found. -/
theorem takes_openHandle {shut clear stopped : X → Player → W → Prop}
    (opened : ∀ handle m p w, p.handle = some handle → inv m p w → ready handle m p w)
    (closed : ∀ m p w, p.handle = none → inv m p w → shut m p w)
    (looks : Takes answer (ε := Halt) c shut (ask .stopping)
      (atEnd (fun stop => if stop then stopped else clear) fun _ _ _ _ => False))
    (reconnects : Takes answer c clear reconnect (outcome ready unopened)) :
    Takes answer c inv openHandle (looked stopped ready unopened) := by
  refine takes_get_bind fun p => ?_
  cases found : p.handle with
  | some handle =>
    refine takes_pure fun m p' w hi => ?_
    obtain ⟨hi, rfl⟩ := hi
    exact opened handle m p' w found hi
  | none =>
    have starts : ∀ m p' w, inv m p' w ∧ p' = p → shut m p' w := by
      rintro m p' w ⟨hi, rfl⟩
      exact closed m p' w found hi
    refine takes_bind (looks.mono starts fun _ _ _ _ h => h) (fun stop => ?_)
      fun _ _ _ _ => False.elim
    cases stop with
    | true => exact takes_pure fun _ _ _ hs => hs
    | false =>
      refine takes_bind reconnects (fun r => ?_) fun _ _ _ _ => False.elim
      cases r with
      | ok handle => exact takes_pure fun _ _ _ hr => hr
      | error cause => exact takes_pure fun _ _ _ hu => hu

theorem takes_reopenHandle {shut : X → Player → W → Prop}
    (opened : ∀ handle m p w, p.handle = some handle → inv m p w → ready handle m p w)
    (closed : ∀ m p w, p.handle = none → inv m p w → shut m p w)
    (reconnects : Takes answer c shut reconnect (outcome ready unopened)) :
    Takes answer c inv reopenHandle (outcome ready unopened) := by
  refine takes_get_bind fun p => ?_
  cases found : p.handle with
  | some handle =>
    refine takes_pure fun m p' w hi => ?_
    obtain ⟨hi, rfl⟩ := hi
    exact opened handle m p' w found hi
  | none =>
    refine reconnects.mono (fun m p' w hi => ?_) fun _ _ _ _ h => h
    obtain ⟨hi, rfl⟩ := hi
    exact closed m p' w found hi

/-! ### Getting a command through -/

theorem keeps_waitBeforeRetry (backoff : ∀ m p w backoff, inv m p w → inv m { p with backoff } w)
    (report : ∀ message, Surely answer (ε := Halt) c inv (ask (.report message)))
    (retrying : ∀ length, Surely answer (ε := Halt) c inv (ask (.pause .retrying length)))
    (cause : BulbError) : Surely answer c inv (waitBeforeRetry cause) := by
  refine keeps_bind keeps_get fun p => ?_
  refine keeps_bind (keeps_modify fun m p w => backoff m p w _) fun _ => ?_
  exact keeps_bind (report _) fun _ => retrying _

/-- A talk goes on only after a failure that is worth retrying. -/
theorem takes_haltIfFinal {pre : X → Player → W → Prop} {cause : BulbError} {next : Playing α}
    {post : Except Halt α → X → Player → W → Prop}
    (goes : cause.isConnectivity = true → Takes answer c pre next post)
    (final : ∀ m p w, cause.isConnectivity = false → pre m p w →
      post (.error (.failed cause)) m p w) :
    Takes answer c pre (haltIfFinal cause >>= fun _ => next) post := by
  cases conn : cause.isConnectivity with
  | true =>
    have passes : Surely answer c pre (haltIfFinal cause) := by
      rw [haltIfFinal, if_pos conn]
      exact keeps_pure
    exact passes.bind fun _ => goes conn
  | false =>
    have halts : Takes answer c pre (haltIfFinal cause)
        (atEnd (fun _ _ _ _ => False) fun halt m p w => post (.error halt) m p w) := by
      rw [haltIfFinal, if_neg (by rw [conn]; exact Bool.false_ne_true)]
      exact takes_throw fun m p w => final m p w conn
    exact takes_bind halts (fun _ _ _ _ impossible => impossible.elim) fun _ _ _ _ h => h

/-- A command is tried again and again until a try is done. -/
theorem Recovers.takes_dispatch (h : Recovers answer c inv broken unopened lost dropped)
    {cmd : Command} {done through : Dispatch → X → Player → W → Prop}
    (opens : Takes answer c inv openHandle (looked (done .skip) ready unopened))
    (tries : ∀ handle, Takes answer c (ready handle) (attempt handle cmd) (outcome through lost))
    (reset : ∀ d m p w, through d m p w → done d m { p with backoff := p.backoff.reset } w)
    (fuel : Nat) : Takes answer c inv (dispatch cmd fuel) (atEnd done broken) := by
  induction fuel with
  | zero => exact takes_throw h.unfinished
  | succ fuel ih =>
    have retries (cause : BulbError) : Takes answer c (dropped cause)
        (waitBeforeRetry cause >>= fun _ => dispatch cmd fuel) (atEnd done broken) :=
      takes_bind (h.wait cause) (fun _ => ih) fun _ _ _ _ => False.elim
    refine takes_bind opens (fun opened => ?_) fun _ _ _ _ => False.elim
    rcases opened with _ | cause | handle
    · exact takes_pure fun _ _ _ hd => hd
    · refine takes_haltIfFinal (fun conn => ?_) fun m p w final hu => ?_
      · exact (retries cause).mono (fun m p w => h.retry cause m p w conn) fun _ _ _ _ hr => hr
      · exact h.final cause m p w final (h.lost_of_unopened cause m p w hu)
    · refine takes_bind (tries handle) (fun r => ?_) fun _ _ _ _ => False.elim
      cases r with
      | ok d => exact takes_modify_bind (takes_pure fun _ _ _ hd => hd) (reset d)
      | error cause =>
        refine takes_haltIfFinal (fun conn => ?_) (h.final cause)
        exact takes_modify_bind (retries cause) fun m p w => h.drop cause m p w conn

/-! ### Putting the snapshot back -/

theorem Recovers.takes_restore (h : Recovers answer c inv broken unopened lost dropped)
    {snapshot : Snapshot} {restored : X → Player → W → Prop}
    (reopens : Takes answer c inv reopenHandle (outcome ready unopened))
    (put : ∀ handle, Takes answer (ε := Halt) c (ready handle)
      (ask (.call handle (.restoreSnapshot snapshot))) (outcome (fun _ => restored) lost))
    (more : Nat) :
    Takes answer c inv (restore snapshot more) (outcome (fun _ => restored) lost) := by
  have tries : Takes answer c inv (tryRestore snapshot) (outcome (fun _ => restored) lost) := by
    refine takes_bind reopens (fun opened => ?_) fun _ _ _ _ => False.elim
    cases opened with
    | error cause => exact takes_pure (h.lost_of_unopened cause)
    | ok handle => exact put handle
  induction more with
  | zero => exact tries
  | succ more ih =>
    refine takes_bind tries (fun r => ?_) fun _ _ _ _ => False.elim
    cases r with
    | ok _ => exact takes_pure fun _ _ _ hr => hr
    | error cause =>
      refine takes_ite (fun _ => takes_pure fun _ _ _ hl => hl) fun conn => ?_
      have conn : cause.isConnectivity = true := by simpa using conn
      have retries := takes_bind (h.wait cause) (fun _ => ih) fun _ _ _ _ => False.elim
      exact takes_modify_bind retries fun m p w => h.drop cause m p w conn

end Playing

end Lightshow
