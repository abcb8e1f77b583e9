/-
The open handle of a playback.

A playback has one handle open at a time, the one it opened last, and sends every call through it.
So what holds of a handle when it is opened, and is kept by the calls through it, holds whenever the
playback sends a call, no matter how many handles it has dropped before.

* `Held` -- what is so of a handle from its opening on;
* `takes_dispatch_held`, `takes_restore_held` -- through any number of lost and new handles;
* `takes_run_held` -- in a whole playback.
-/
import Lightshow.Proofs.Course

namespace Lightshow.Player

open Talk

section

variable {X W : Type} (answer : (q : Question) → W → q.Answer × W)
variable (c : Chronicle X Player Question Question.Answer W) (held : Nat → X → W → Prop)

/-- Something is so of a handle from its opening on: calls through it keep it, and so do all
questions that are no calls. -/
structure Held : Prop where
  connect : ∀ m p w, c.along m ⟨p, .connect, (answer .connect w).1, w⟩ ∧
    ∀ handle, (answer .connect w).1 = .ok handle →
      held handle (c.step m ⟨p, .connect, (answer .connect w).1, w⟩) (answer .connect w).2
  call : ∀ handle call m p w, held handle m w →
    c.along m ⟨p, .call handle call, (answer (.call handle call) w).1, w⟩ ∧
      held handle (c.step m ⟨p, .call handle call, (answer (.call handle call) w).1, w⟩)
        (answer (.call handle call) w).2
  other : ∀ q, q ≠ .connect → (∀ handle call, q ≠ .call handle call) → ∀ m p w,
    c.along m ⟨p, q, (answer q w).1, w⟩ ∧ ∀ handle, held handle m w →
      held handle (c.step m ⟨p, q, (answer q w).1, w⟩) (answer q w).2

/-- It is so of the open handle, if there is one. -/
def Holding (m : X) (p : Player) (w : W) : Prop := ∀ handle ∈ p.handle, held handle m w

/-- It is so of a handle, whoever asks. -/
abbrev Ready (handle : Nat) (m : X) (_ : Player) (w : W) : Prop := held handle m w

/-- A handle is open, and it is so of it. -/
def Open (handle : Nat) (m : X) (p : Player) (w : W) : Prop :=
  p.handle = some handle ∧ held handle m w

/-- No handle is open. -/
def Closed (_ : X) (p : Player) (_ : W) : Prop := p.handle = none

variable {answer c held}

theorem Open.holding {handle : Nat} {m : X} {p : Player} {w : W} (h : Open held handle m p w) :
    Holding held m p w := by
  intro handle' hh
  obtain rfl : handle = handle' := Option.some.inj (h.1.symm.trans hh)
  exact h.2

theorem Closed.holding {m : X} {p : Player} {w : W} (h : Closed m p w) : Holding held m p w := by
  intro handle hh
  exact absurd (h.symm.trans hh) nofun

/-- Nothing has to be so of a handle that is dropped. -/
theorem holding_dropped (m : X) (p : Player) (w : W) : Holding held m { p with handle := none } w :=
  Closed.holding (show Closed m { p with handle := none } w from rfl)

namespace Held

/-! ### Questions -/

theorem keeps_other (h : Held answer c held) {q : Question} (hconnect : q ≠ .connect)
    (hcall : ∀ handle call, q ≠ .call handle call) :
    Surely answer (ε := Halt) c (Holding held) (ask q) :=
  keeps_ask fun m p w hi =>
    ⟨(h.other q hconnect hcall m p w).1, fun handle hh =>
      (h.other q hconnect hcall m p w).2 handle (hi handle hh)⟩

theorem keeps_report (h : Held answer c held) (handle : Nat) (message : Message) :
    Surely answer (ε := Halt) c (Ready held handle) (ask (.report message)) :=
  keeps_ask fun m p w hi =>
    ⟨(h.other (.report message) nofun (fun _ _ => nofun) m p w).1,
      (h.other (.report message) nofun (fun _ _ => nofun) m p w).2 handle hi⟩

theorem keeps_call (h : Held answer c held) (handle : Nat) (call : Call) :
    Surely answer (ε := Halt) c (Ready held handle) (ask (.call handle call)) :=
  keeps_ask fun m p w hi => h.call handle call m p w hi

/-- What holds after a handle was opened, or could not be. -/
def opened (ready : Nat → X → Player → W → Prop) :
    Except Halt (Except BulbError Nat) → X → Player → W → Prop
  | .ok (.ok handle) => ready handle
  | .ok (.error _) => Closed
  | .error _ => fun _ _ _ => False

theorem takes_connect (h : Held answer c held) :
    Takes answer (ε := Halt) c Closed (ask .connect) (opened (Ready held)) := by
  refine takes_ask.mpr fun m p w closed => ?_
  obtain ⟨along, after⟩ := h.connect m p w
  refine ⟨along, ?_⟩
  generalize (answer .connect w).1 = r at after ⊢
  cases r with
  | ok handle => exact after handle rfl
  | error cause => exact closed

theorem opened_eq_outcome (ready : Nat → X → Player → W → Prop) :
    opened ready = outcome ready fun _ => Closed := by
  funext r
  rcases r with _ | _ | _ <;> rfl

theorem takes_reconnect (h : Held answer c held) :
    Takes answer c Closed reconnect (opened (Open held)) := by
  have connects := h.takes_connect
  rw [opened_eq_outcome] at connects ⊢
  exact Playing.takes_reconnect connects h.keeps_report fun _ _ _ _ hr => ⟨rfl, hr⟩

/-! ### Getting a command through -/

theorem open_of_found {handle : Nat} {m : X} {p : Player} {w : W} (found : p.handle = some handle)
    (hi : Holding held m p w) : Open held handle m p w :=
  ⟨found, hi handle found⟩

theorem keeps_waitBeforeRetry (h : Held answer c held) (cause : BulbError) :
    Surely answer c (Holding held) (waitBeforeRetry cause) :=
  Playing.keeps_waitBeforeRetry (fun _ _ _ _ hi => hi) (fun _ => h.keeps_other nofun fun _ _ => nofun)
    (fun _ => h.keeps_other nofun fun _ _ => nofun) cause

/-- Whatever has failed, the handle that is open afterwards, if any, is as it should be. -/
theorem recovers (h : Held answer c held) :
    Playing.Recovers answer c (Holding held) (fun _ => Holding held) (fun _ => Closed)
      (fun _ => Holding held) fun _ => Holding held where
  lost_of_unopened _ _ _ _ := Closed.holding
  retry _ _ _ _ _ := Closed.holding
  drop _ m p w _ _ := holding_dropped m p w
  wait := h.keeps_waitBeforeRetry
  final _ _ _ _ _ hi := hi
  unfinished _ _ _ hi := hi

/-- Whatever becomes of a try, the handle stays open. -/
theorem takes_attempt (h : Held answer c held) (handle : Nat) (cmd : Command) :
    Takes answer c (Open held handle) (attempt handle cmd)
      (outcome (fun _ => Open held handle) fun _ => Open held handle) := by
  refine Player.takes_attempt fun p => ?_
  have open_other {q : Question} (hconnect : q ≠ .connect)
      (hcall : ∀ handle call, q ≠ .call handle call) :
      Surely answer (ε := BulbError) (c.comap fun state => { p with state })
        (fun m state w => Open held handle m { p with state } w) (Talk.ask q) :=
    keeps_ask fun m state w ho =>
      ⟨(h.other q hconnect hcall m { p with state } w).1, ho.1,
        (h.other q hconnect hcall m { p with state } w).2 handle ho.2⟩
  refine (Execution.calm_of_send (open_other nofun fun _ _ => nofun)
    (fun _ _ => open_other nofun fun _ _ => nofun) (fun call _ => ?_)
    fun _ _ _ _ ho => ho).keeps_execute cmd
  refine Execution.keeps_send (keeps_ask fun m state w ho => ?_)
  obtain ⟨along, after⟩ := h.call handle call m { p with state } w ho.2
  exact ⟨along, ho.1, after⟩

theorem takes_dispatch_held (h : Held answer c held) (cmd : Command) (fuel : Nat) :
    Keeps answer c (Holding held) (fun _ => Holding held) (dispatch cmd fuel) := by
  have reconnects := h.takes_reconnect
  rw [opened_eq_outcome] at reconnects
  -- a look for a stop is made without a handle
  have looks : Takes answer (ε := Halt) c Closed (ask .stopping)
      (atEnd (fun stop => if stop then Holding held else Closed) fun _ _ _ _ => False) := by
    refine takes_ask.mpr fun m p w closed => ⟨(h.other .stopping nofun (fun _ _ => nofun) m p w).1, ?_⟩
    cases (answer .stopping w).1 with
    | true => exact Closed.holding closed
    | false => exact closed
  have opens := Playing.takes_openHandle (fun handle _ _ _ => open_of_found)
    (fun _ _ _ closed (_ : Holding held _ _ _) => closed) looks reconnects
  refine h.recovers.takes_dispatch opens (fun handle => ?_) (fun _ _ _ _ hi => hi) fuel
  exact (h.takes_attempt handle cmd).mono (fun _ _ _ ho => ho)
    (outcome_mono (fun _ _ _ _ => Open.holding) fun _ _ _ _ => Open.holding)

/-! ### A whole playback -/

theorem takes_play_held (h : Held answer c held) (fuel : Nat) :
    Keeps answer c (Holding held) (fun _ => Holding held) (play fuel) := by
  have untouched : Untouched answer c (Holding held) :=
    { stopping := h.keeps_other nofun fun _ _ => nofun
      report := fun _ => h.keeps_other nofun fun _ _ => nofun
      pacing := fun _ => h.keeps_other nofun fun _ _ => nofun
      idling := fun _ => h.keeps_other nofun fun _ _ => nofun
      nextScript := h.keeps_other nofun fun _ _ => nofun
      summary := fun _ _ _ _ hi => hi
      script := fun _ _ _ _ hi => hi
      current := fun _ _ _ _ hi => hi
      timeAdjust := fun _ _ _ _ hi => hi }
  exact untouched.keeps_play (fun _ _ _ hi => hi) h.takes_dispatch_held fuel

theorem takes_restore_held (h : Held answer c held) (snapshot : Snapshot) (more : Nat) :
    Takes answer c (Holding held) (restore snapshot more)
      (outcome (fun _ => Holding held) fun _ => Holding held) := by
  have reconnects := h.takes_reconnect
  rw [opened_eq_outcome] at reconnects
  have reopens := Playing.takes_reopenHandle (fun handle _ _ _ => open_of_found)
    (fun _ _ _ closed (_ : Holding held _ _ _) => closed) reconnects
  refine h.recovers.takes_restore reopens (fun handle => ?_) more
  have puts : Surely answer (ε := Halt) c (Open held handle)
      (ask (.call handle (.restoreSnapshot snapshot))) := by
    refine keeps_ask fun m p w ho => ?_
    obtain ⟨along, after⟩ := h.call handle (.restoreSnapshot snapshot) m p w ho.2
    exact ⟨along, ho.1, after⟩
  exact (keeps_outcome puts).mono (fun _ _ _ ho => ho)
    (outcome_mono (fun _ _ _ _ => Open.holding) fun _ _ _ _ => Open.holding)

theorem takes_startUp_held (h : Held answer c held) :
    Takes answer c Closed startUp (atEnd (fun _ => Holding held) fun _ _ _ _ => True) := by
  have connects := h.takes_connect
  rw [opened_eq_outcome] at connects
  have calls (handle : Nat) (call : Call) : Takes answer (ε := Halt) c (Ready held handle)
      (ask (.call handle call)) (outcome (fun _ => Ready held handle) fun _ _ _ _ => True) :=
    (keeps_outcome (h.keeps_call handle call)).mono (fun _ _ _ hr => hr)
      (outcome_mono (fun _ _ _ _ hr => hr) fun _ _ _ _ _ => trivial)
  refine Playing.takes_startUp
    (connects.mono (fun _ _ _ hc => hc)
      (outcome_mono (fun _ _ _ _ hr => hr) fun _ _ _ _ _ => trivial))
    (fun handle => calls handle .getRgb) h.keeps_report (fun handle => calls handle .saveSnapshot)
    (fun handle _ => calls handle .turnOn) (fun handle _ m p w ready => ?_) fun _ _ _ _ _ => trivial
  exact Open.holding ⟨rfl, ready⟩

/-- What holds of a handle from its opening on holds whenever a playback sends a call. -/
theorem takes_run_held (h : Held answer c held) (fuel : Nat) :
    Takes answer c Closed (run fuel) fun _ _ _ _ => True := by
  have reports (message : Message) :
      Surely answer (ε := Halt) c (Holding held) (ask (.report message)) :=
    h.keeps_other nofun fun _ _ => nofun
  have closes (snapshot : Snapshot) (ended : Except Halt Unit) :
      Takes answer c (Holding held) (close snapshot ended)
        (atEnd (fun _ _ _ _ => True) fun _ _ _ _ => True) :=
    Playing.takes_close reports (h.takes_restore_held snapshot _) (reports _) (fun _ => reports _)
      (fun _ _ _ _ _ => trivial) fun _ _ _ _ _ _ => trivial
  have runs := Playing.takes_run h.takes_startUp_held
    (fun _ => keeps_always.mp (h.takes_play_held fuel)) closes
  exact runs.mono (fun _ _ _ hc => hc) fun _ _ _ _ _ => trivial

end Held

end

end Lightshow.Player
