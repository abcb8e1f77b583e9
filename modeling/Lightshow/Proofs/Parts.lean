/-
What the parts of a playback keep.

A part of a playback keeps an invariant if the questions it asks and the changes it makes to the
player do.  Questions and changes are the same few in many parts, so they are grouped:
`Execution.Steady` and `Execution.Calm` are about executing a command, `Player.Unmoved` about
getting it through to the bulb, and `Playing.Passing` and `Player.Untouched` about playing passes.

* `Execution.takes_perform` -- from what single calls and switching do;
* `Execution.Calm.keeps_execute` -- from what they keep;
* `Unmoved.takes_dispatch`, `Unmoved.takes_restore` -- from what a single try does;
* `takes_dispatch_bounded` -- from what a single try does, if the failures run out;
* `Passing.keeps_play` -- from what carrying a command out keeps;
* `Untouched.keeps_play` -- from what getting it through keeps.
-/
import Lightshow.Proofs.Recovery

namespace Lightshow

open Talk

/-- What a look for a stop found, if the turn is one. -/
def Turn.check? {S W : Type} : Turn S Question Question.Answer W → Option Bool
  | ⟨_, .stopping, stop, _⟩ => some stop
  | _ => none

/-! ### Executing a command -/

/-- What a call switches the light to, if it switches it. -/
def Call.switch? : Call → Option Power
  | .turnOn => some .on
  | .turnOff => some .off
  | _ => none

/-- Whether a call puts settings back. -/
def Call.isRestore : Call → Bool
  | .restoreSnapshot _ => true
  | _ => false

/-- Whether a call takes a snapshot or puts one back. -/
def Call.isOfSnapshot : Call → Bool
  | .saveSnapshot | .restoreSnapshot _ => true
  | _ => false

/-- Whether a call sets a colour, or a part of one. -/
def Call.isColour : Call → Bool
  | .setRgb _ | .setHsb _ | .setHue _ | .setSaturation _ | .setBrightness _ => true
  | _ => false

theorem Call.isRestore_of_ordinary {c : Call} (h : c.isOfSnapshot = false) : c.isRestore = false := by
  cases c with
  | restoreSnapshot s => exact absurd h nofun
  | _ => rfl

theorem Call.ordinary_of_colour {c : Call} (h : c.isColour = true) : c.isOfSnapshot = false := by
  cases c with
  | saveSnapshot => exact absurd h nofun
  | restoreSnapshot s => exact absurd h nofun
  | _ => rfl

theorem Call.switch?_of_colour {c : Call} (h : c.isColour = true) : c.switch? = none := by
  cases c with
  | turnOn => exact absurd h nofun
  | turnOff => exact absurd h nofun
  | _ => rfl

/-- Whether a command moves a colour by chance. -/
def Command.isJitter (c : Command) : Bool :=
  match c.instruction with
  | .hsbJitter | .rgbJitter => true
  | _ => false

namespace Execution

variable {X W : Type} (answer : (q : Question) → W → q.Answer × W)
variable (c : Chronicle X PlaybackState Question Question.Answer W)
variable (inv : X → PlaybackState → W → Prop) (broken : BulbError → X → PlaybackState → W → Prop)
variable (handle : Nat)

/-- The invariant is kept by all that an instruction does through a handle, but for adjusting the
time. -/
structure Steady : Prop where
  roll : ∀ limit positive, Surely answer (ε := BulbError) c inv (ask (.roll limit positive))
  send : ∀ call, call.switch? = none → call.isRestore = false →
    Keeps answer c inv broken (send handle call)
  powerOn : Keeps answer c inv broken (powerOn handle)
  powerOff : Keeps answer c inv broken (powerOff handle)

/-- The invariant is kept by all that the execution of a command does through a handle. -/
structure Calm : Prop extends Steady answer c inv broken handle where
  stopping : Surely answer (ε := BulbError) c inv (ask .stopping)
  adjustTime : ∀ m s w delta, inv m s w → inv m (s.adjustTime delta) w

variable {answer c inv broken handle}

/-- A call fails the execution with its own failure. -/
theorem takes_send {pre : X → PlaybackState → W → Prop} {call : Call}
    {done : call.Reply → X → PlaybackState → W → Prop}
    (h : Takes answer (ε := BulbError) c pre (ask (.call handle call))
      (Player.outcome done broken)) :
    Takes answer c pre (send handle call) (atEnd done broken) := by
  refine takes_bind h (fun r => ?_) fun _ _ _ _ => False.elim
  cases r with
  | ok reply => exact takes_pure fun _ _ _ hd => hd
  | error cause => exact takes_throw fun _ _ _ hb => hb

/-- To send a call within an execution is to ask for it. -/
theorem takes_send_within {S : Type} {c : Chronicle X S Question Question.Answer W}
    {put : PlaybackState → S} {pre : X → S → W → Prop} {call : Call}
    {done : call.Reply → X → S → W → Prop} {lost : BulbError → X → S → W → Prop}
    (h : Takes answer (ε := Halt) c pre (Talk.ask (.call handle call)) (Player.outcome done lost)) :
    Takes answer (c.comap put) (fun m s w => pre m (put s) w) (send handle call)
      (atEnd (fun reply m s w => done reply m (put s) w) fun cause m s w => lost cause m (put s) w) := by
  refine takes_send (takes_ask.mpr fun m s w hi => ?_)
  obtain ⟨along, after⟩ := takes_ask.mp h m (put s) w hi
  refine ⟨along, ?_⟩
  change Player.outcome done lost (.ok (answer (.call handle call) w).1)
    (c.step m ⟨put s, .call handle call, (answer (.call handle call) w).1, w⟩) (put s) _ at after
  change Player.outcome _ _ (.ok (answer (.call handle call) w).1)
    (c.step m ⟨put s, .call handle call, (answer (.call handle call) w).1, w⟩) s _
  generalize (answer (.call handle call) w).1 = r at after ⊢
  cases r with
  | ok reply => exact after
  | error cause => exact after

/-- A call keeps what its question keeps, whether or not the bulb takes it. -/
theorem keeps_send {call : Call}
    (h : Surely answer (ε := BulbError) c inv (ask (.call handle call))) :
    Keeps answer c inv (fun _ => inv) (send handle call) :=
  takes_send (Player.keeps_outcome h)

theorem keeps_powerOn_of_send (lights : Keeps answer c inv broken (send handle .turnOn))
    (switched : ∀ m s w power, inv m s w → inv m { s with power } w) :
    Keeps answer c inv broken (powerOn handle) := by
  refine keeps_bind keeps_get fun s => keeps_ite (keeps_bind lights fun _ => ?_) keeps_pure
  exact keeps_modify fun m s w => switched m s w _

theorem keeps_powerOff_of_send (darkens : Keeps answer c inv broken (send handle .turnOff))
    (switched : ∀ m s w power, inv m s w → inv m { s with power } w) :
    Keeps answer c inv broken (powerOff handle) := by
  refine keeps_bind keeps_get fun s => keeps_ite (keeps_bind darkens fun _ => ?_) keeps_pure
  exact keeps_modify fun m s w => switched m s w _

/-- The invariant is kept by an instruction if every call keeps it and the remembered power does not
matter to it. -/
theorem steady_of_send
    (roll : ∀ limit positive, Surely answer (ε := BulbError) c inv (ask (.roll limit positive)))
    (send : ∀ call, call.isRestore = false → Keeps answer c inv broken (send handle call))
    (switched : ∀ m s w power, inv m s w → inv m { s with power } w) :
    Steady answer c inv broken handle where
  roll := roll
  send call _ puts := send call puts
  powerOn := keeps_powerOn_of_send (send _ rfl) switched
  powerOff := keeps_powerOff_of_send (send _ rfl) switched

/-- The same, for a whole command, if the time adjustment does not matter either. -/
theorem calm_of_send (stopping : Surely answer (ε := BulbError) c inv (ask .stopping))
    (roll : ∀ limit positive, Surely answer (ε := BulbError) c inv (ask (.roll limit positive)))
    (send : ∀ call, call.isRestore = false → Keeps answer c inv broken (send handle call))
    (state : ∀ m s s' w, inv m s w → inv m s' w) : Calm answer c inv broken handle :=
  ⟨steady_of_send roll send fun m s w _ => state m s _ w, stopping, fun m s w _ => state m s _ w⟩

theorem keeps_jittered
    (roll : ∀ limit positive, Surely answer (ε := BulbError) c inv (ask (.roll limit positive)))
    (base upper variance : Int64) : Keeps answer c inv broken (jittered base upper variance) := by
  rw [jittered, jitter]
  split
  · exact keeps_pure
  · exact (roll _ _).bind fun _ => keeps_pure

/-- What an instruction takes a condition to, from what its calls do.  Only jitter sets a colour at
once; every other colour comes after the light was turned on, and then `lit` holds. -/
theorem takes_perform {lit : X → PlaybackState → W → Prop} (cmd : Command)
    (roll : ∀ limit positive, Surely answer (ε := BulbError) c inv (ask (.roll limit positive)))
    (send : ∀ call, call.switch? = none → call.isOfSnapshot = false →
      (call.isColour = true → cmd.isJitter = true) → Keeps answer c inv broken (send handle call))
    (powerOn : cmd.isJitter = false →
      Takes answer c inv (powerOn handle) (atEnd (fun _ => lit) broken))
    (powerOff : cmd.isJitter = false → Keeps answer c inv broken (powerOff handle))
    (colour : ∀ call, call.isColour = true →
      Takes answer c lit (Execution.send handle call) (atEnd (fun _ => inv) broken))
    (adjusts : cmd.instruction = .timeAdjust →
      ∀ m s w, inv m s w → inv m (s.adjustTime (cmd.param 0)) w) :
    Keeps answer c inv broken (perform handle cmd) := by
  rw [perform]
  cases does : cmd.instruction with
  | fade => exact send _ rfl rfl nofun
  | timeAdjust => exact keeps_modify (adjusts does)
  | hsb =>
    have calm : cmd.isJitter = false := by rw [Command.isJitter, does]
    refine keeps_ite (powerOff calm) ?_
    exact takes_bind (powerOn calm) (fun _ => colour _ rfl) fun _ _ _ _ hb => hb
  | hsbJitter =>
    have jitters : cmd.isJitter = true := by rw [Command.isJitter, does]
    refine keeps_bind (send _ rfl rfl nofun) fun _ => ?_
    refine keeps_bind (send _ rfl rfl nofun) fun _ => ?_
    refine keeps_bind (send _ rfl rfl nofun) fun _ => ?_
    refine keeps_bind (keeps_jittered roll _ _ _) fun _ => ?_
    refine keeps_bind (keeps_jittered roll _ _ _) fun _ => ?_
    exact keeps_bind (keeps_jittered roll _ _ _) fun _ => send _ rfl rfl fun _ => jitters
  | rgb =>
    have calm : cmd.isJitter = false := by rw [Command.isJitter, does]
    refine keeps_ite (powerOff calm) ?_
    exact takes_bind (powerOn calm) (fun _ => colour _ rfl) fun _ _ _ _ hb => hb
  | rgbJitter =>
    have jitters : cmd.isJitter = true := by rw [Command.isJitter, does]
    refine keeps_bind (send _ rfl rfl nofun) fun _ => ?_
    refine keeps_bind (keeps_jittered roll _ _ _) fun _ => ?_
    refine keeps_bind (keeps_jittered roll _ _ _) fun _ => ?_
    exact keeps_bind (keeps_jittered roll _ _ _) fun _ => send _ rfl rfl fun _ => jitters
  | unknown code => exact keeps_pure

theorem Steady.keeps_perform (h : Steady answer c inv broken handle) (cmd : Command)
    (adjusts : cmd.instruction = .timeAdjust →
      ∀ m s w, inv m s w → inv m (s.adjustTime (cmd.param 0)) w) :
    Keeps answer c inv broken (perform handle cmd) :=
  takes_perform cmd h.roll
    (fun call other ordinary _ => h.send call other (Call.isRestore_of_ordinary ordinary))
    (fun _ => h.powerOn) (fun _ => h.powerOff)
    (fun call colour => h.send call (Call.switch?_of_colour colour)
      (Call.isRestore_of_ordinary (Call.ordinary_of_colour colour))) adjusts

/-- A look for a stop, and then the instruction, unless one is found. -/
theorem takes_execute {pre skipped going gone : X → PlaybackState → W → Prop} {cmd : Command}
    (looks : Takes answer (ε := BulbError) c pre (ask .stopping)
      (atEnd (fun stop => if stop then skipped else going) fun _ _ _ _ => False))
    (performs : Takes answer c going (perform handle cmd) (atEnd (fun _ => gone) broken)) :
    Takes answer c pre (execute handle cmd) (atEnd (fun
      | .skip => skipped
      | .sleep _ => gone) broken) := by
  refine takes_bind looks (fun stop => ?_) fun _ _ _ _ => False.elim
  cases stop with
  | true => exact takes_pure fun _ _ _ hs => hs
  | false =>
    refine takes_bind performs (fun _ => ?_) fun _ _ _ _ hb => hb
    exact takes_get_bind fun s => takes_pure fun _ _ _ hg => hg.1

theorem keeps_execute {cmd : Command}
    (stopping : Surely answer (ε := BulbError) c inv (ask .stopping))
    (performs : Keeps answer c inv broken (perform handle cmd)) :
    Keeps answer c inv broken (execute handle cmd) := by
  have looks : Takes answer (ε := BulbError) c inv (ask .stopping)
      (atEnd (fun stop => if stop then inv else inv) fun _ _ _ _ => False) := by
    simpa only [ite_self] using stopping
  refine (takes_execute looks performs).mono (fun _ _ _ hi => hi) fun r _ _ _ hr => ?_
  rcases r with cause | (_ | _) <;> exact hr

theorem Calm.keeps_execute (h : Calm answer c inv broken handle) (cmd : Command) :
    Keeps answer c inv broken (execute handle cmd) :=
  Execution.keeps_execute h.stopping
    (h.keeps_perform cmd fun _ m s w => h.adjustTime m s w (cmd.param 0))

/-- No command takes a snapshot or puts one back. -/
theorem keeps_execute_of_ordinary
    (stopping : Surely answer (ε := BulbError) c inv (ask .stopping))
    (roll : ∀ limit positive, Surely answer (ε := BulbError) c inv (ask (.roll limit positive)))
    (send : ∀ call, call.isOfSnapshot = false → Keeps answer c inv broken (send handle call))
    (state : ∀ m s s' w, inv m s w → inv m s' w) (cmd : Command) :
    Keeps answer c inv broken (execute handle cmd) := by
  refine Execution.keeps_execute stopping (takes_perform cmd roll (fun call _ ordinary _ => send call ordinary)
    (fun _ => keeps_powerOn_of_send (send _ rfl) fun m s w _ => state m s _ w)
    (fun _ => keeps_powerOff_of_send (send _ rfl) fun m s w _ => state m s _ w)
    (fun call colour => send call (Call.ordinary_of_colour colour)) fun _ m s w => state m s _ w)

end Execution

namespace Playing

open Player hiding ask

variable {X W : Type} (answer : (q : Question) → W → q.Answer × W)
variable (c : Chronicle X Player Question Question.Answer W) (inv : X → Player → W → Prop)

/-! ### Playing passes -/

/-- The invariant is kept by all that playback does, but for carrying commands out. -/
structure Passing : Prop where
  stopping : Surely answer (ε := Halt) c inv (ask .stopping)
  report : ∀ message, Surely answer (ε := Halt) c inv (ask (.report message))
  idling : ∀ length, Surely answer (ε := Halt) c inv (ask (.pause .idling length))
  nextScript : Surely answer (ε := Halt) c inv (ask .nextScript)
  passes : ∀ m p w passes, inv m p w →
    inv m { p with summary := { p.summary with passes } } w
  script : ∀ m p w script, inv m p w → inv m { p with script } w
  timeAdjust : ∀ m p w timeAdjust, inv m p w →
    inv m { p with state := { p.state with timeAdjust } } w

variable {answer c inv} {broken : Halt → X → Player → W → Prop}

theorem Passing.keeps_pickUpScript (h : Passing answer c inv) :
    Keeps answer c inv broken pickUpScript := by
  refine h.nextScript.bind fun left => ?_
  cases left with
  | none => exact keeps_pure
  | some script =>
    exact (h.report _).bind fun _ => keeps_modify fun m p w => h.script m p w _

theorem Passing.keeps_playCommands (h : Passing answer c inv) {fuel : Nat}
    (carries : ∀ cmd, Keeps answer c inv broken (carryOut fuel cmd)) (cmds : List Command) :
    Keeps answer c inv broken (playCommands fuel cmds) := by
  induction cmds with
  | nil => exact keeps_pure
  | cons cmd rest ih =>
    refine h.stopping.bind fun _ => keeps_ite keeps_pure ?_
    exact keeps_bind (carries cmd) fun _ => ih

theorem Passing.keeps_pass (h : Passing answer c inv) {fuel : Nat}
    (carries : ∀ cmd, Keeps answer c inv broken (carryOut fuel cmd)) :
    Keeps answer c inv broken (pass fuel) := by
  refine keeps_bind h.keeps_pickUpScript fun _ => ?_
  refine keeps_bind (keeps_modify fun m p w => h.timeAdjust m p w _) fun _ => ?_
  refine keeps_bind (keeps_modify fun m p w => h.passes m p w _) fun _ => ?_
  refine keeps_bind keeps_get fun p => ?_
  exact keeps_ite (h.idling _).keeps (h.keeps_playCommands carries _)

/-- Playback keeps what carrying every single command out keeps. -/
theorem Passing.keeps_play (h : Passing answer c inv)
    (unfinished : ∀ m p w, inv m p w → broken .unfinished m p w)
    (carries : ∀ cmd fuel, Keeps answer c inv broken (carryOut fuel cmd)) (fuel : Nat) :
    Keeps answer c inv broken (play fuel) := by
  induction fuel with
  | zero => exact takes_throw unfinished
  | succ fuel ih =>
    refine h.stopping.bind fun _ => keeps_ite keeps_pure ?_
    exact keeps_bind (h.keeps_pass fun cmd => carries cmd fuel) fun _ => ih

/-- A command is carried out by getting it through, and by the wait after it. -/
theorem takes_carryOut {during : X → Player → W → Prop} {done : Dispatch → X → Player → W → Prop}
    {cmd : Command} {fuel : Nat}
    (begin : ∀ m p w, inv m p w → during m { p with current := some cmd } w)
    (dispatches : Takes answer c during (dispatch cmd fuel) (atEnd done broken))
    (paces : ∀ d, Takes answer c (done d) (pace d) (atEnd (fun _ => during) broken))
    (finish : ∀ m p w, during m p w → inv m { p with current := none } w) :
    Keeps answer c inv broken (carryOut fuel cmd) := by
  refine takes_modify_bind ?_ begin
  refine takes_bind dispatches (fun d => ?_) fun _ _ _ _ hb => hb
  exact takes_bind (paces d) (fun _ => takes_modify finish) fun _ _ _ _ hb => hb

end Playing

namespace Player

variable {X W : Type} (answer : (q : Question) → W → q.Answer × W)
variable (c : Chronicle X Player Question Question.Answer W) (inv : X → Player → W → Prop)
variable (lost : BulbError → X → Player → W → Prop) (broken : Halt → X → Player → W → Prop)

/-- The invariant is kept while a handle is opened or a failure is waited out; `lost` holds when
something has failed. -/
structure Unmoved : Prop where
  connect : Takes answer (ε := Halt) c inv (ask .connect) (outcome (fun _ => inv) lost)
  stopping : Surely answer (ε := Halt) c inv (ask .stopping)
  retrying : ∀ length, Surely answer (ε := Halt) c inv (ask (.pause .retrying length))
  report : ∀ message, Surely answer (ε := Halt) c inv (ask (.report message))
  backoff : ∀ m p w backoff, inv m p w → inv m { p with backoff } w
  handle : ∀ m p w handle, inv m p w → inv m { p with handle } w
  reconnects : ∀ m p w reconnects, inv m p w →
    inv m { p with summary := { p.summary with reconnects } } w
  retry : ∀ cause m p w, cause.isConnectivity = true → lost cause m p w → inv m p w
  final : ∀ cause m p w, cause.isConnectivity = false → lost cause m p w →
    broken (.failed cause) m p w
  unfinished : ∀ m p w, inv m p w → broken .unfinished m p w

variable {answer c inv lost broken}

/-- Where only a call can be bad, nothing else needs a look. -/
theorem Unmoved.of_each {good : Turn Player Question Question.Answer W → Prop}
    (other : ∀ p q w, (∀ handle call, q ≠ .call handle call) → good ⟨p, q, (answer q w).1, w⟩) :
    Unmoved answer (.each good) (fun _ _ _ => True) (fun _ _ _ _ => True) fun _ _ _ _ => True where
  connect := keeps_outcome (keeps_ask fun _ _ _ _ => ⟨other _ _ _ nofun, trivial⟩)
  stopping := keeps_ask fun _ _ _ _ => ⟨other _ _ _ nofun, trivial⟩
  retrying _ := keeps_ask fun _ _ _ _ => ⟨other _ _ _ nofun, trivial⟩
  report _ := keeps_ask fun _ _ _ _ => ⟨other _ _ _ nofun, trivial⟩
  backoff _ _ _ _ _ := trivial
  handle _ _ _ _ _ := trivial
  reconnects _ _ _ _ _ := trivial
  retry _ _ _ _ _ _ := trivial
  final _ _ _ _ _ _ := trivial
  unfinished _ _ _ _ := trivial

theorem Unmoved.keeps_waitBeforeRetry (h : Unmoved answer c inv lost broken) (cause : BulbError) :
    Surely answer c inv (waitBeforeRetry cause) :=
  Playing.keeps_waitBeforeRetry h.backoff h.report h.retrying cause

/-- What never moves is there again after every failure that is waited out. -/
theorem Unmoved.recovers (h : Unmoved answer c inv lost broken) :
    Playing.Recovers answer c inv broken lost lost fun _ => inv where
  lost_of_unopened _ _ _ _ hl := hl
  retry := h.retry
  drop cause m p w conn hl := h.handle m p w none (h.retry cause m p w conn hl)
  wait := h.keeps_waitBeforeRetry
  final := h.final
  unfinished := h.unfinished

theorem Unmoved.takes_reconnect (h : Unmoved answer c inv lost broken) :
    Takes answer c inv reconnect (outcome (fun _ => inv) lost) := by
  refine Playing.takes_reconnect h.connect (fun _ => h.report) fun handle m p w hi => ?_
  have counted := h.reconnects m p w (p.summary.reconnects + 1) hi
  exact h.handle m _ w (some handle) counted

/-- What holds after a look for a handle: `stopped` if there is none because of a stop. -/
def opening (stopped inv : X → Player → W → Prop) (lost : BulbError → X → Player → W → Prop) :
    Except Halt (Option (Except BulbError Nat)) → X → Player → W → Prop
  | .ok none => stopped
  | .ok (some (.ok _)) => inv
  | .ok (some (.error cause)) => lost cause
  | .error _ => fun _ _ _ => False

/-- Which handle there is makes no difference. -/
theorem looked_eq_opening (stopped inv : X → Player → W → Prop)
    (lost : BulbError → X → Player → W → Prop) :
    Playing.looked stopped (fun _ => inv) lost = opening stopped inv lost := by
  funext r
  rcases r with _ | _ | _ | _ <;> rfl

theorem Unmoved.takes_openHandle (h : Unmoved answer c inv lost broken)
    {stopped : X → Player → W → Prop}
    (looks : Takes answer (ε := Halt) c inv (ask .stopping)
      (atEnd (fun stop => if stop then stopped else inv) fun _ _ _ _ => False)) :
    Takes answer c inv openHandle (opening stopped inv lost) := by
  rw [← looked_eq_opening]
  exact Playing.takes_openHandle (fun _ _ _ _ _ hi => hi) (fun _ _ _ _ hi => hi) looks
    h.takes_reconnect

/-- A handle may be missing because of a stop at any time. -/
theorem Unmoved.keeps_openHandle (h : Unmoved answer c inv lost broken) :
    Takes answer c inv openHandle (opening inv inv lost) := by
  refine h.takes_openHandle (h.stopping.mono (fun _ _ _ hi => hi) fun r m p w hr => ?_)
  cases r with
  | error halt => exact hr
  | ok stop => cases stop <;> exact hr

/-- A command is tried again and again until a try is done. -/
theorem Unmoved.takes_dispatch (h : Unmoved answer c inv lost broken) {cmd : Command}
    {done : Dispatch → X → Player → W → Prop}
    (opens : Takes answer c inv openHandle (opening (done .skip) inv lost))
    (tries : ∀ handle, Takes answer c inv (attempt handle cmd) (outcome done lost))
    (reset : ∀ d m p w backoff, done d m p w → done d m { p with backoff } w) (fuel : Nat) :
    Takes answer c inv (dispatch cmd fuel) (atEnd done broken) := by
  rw [← looked_eq_opening] at opens
  exact h.recovers.takes_dispatch opens tries (fun d m p w => reset d m p w _) fuel

/-- A command that cannot fail is tried once. -/
theorem takes_dispatch_once {cmd : Command} {done : Dispatch → X → Player → W → Prop}
    (sure : ∀ cause m p w, ¬lost cause m p w)
    (opens : Takes answer c inv openHandle (opening (done .skip) inv lost))
    (tries : ∀ handle, Takes answer c inv (attempt handle cmd) (outcome done lost))
    (reset : ∀ d m p w backoff, done d m p w → done d m { p with backoff } w) (fuel : Nat) :
    Takes answer c inv (dispatch cmd (fuel + 1)) (atEnd done fun _ _ _ _ => False) := by
  refine takes_bind opens (fun opened => ?_) fun _ _ _ _ => False.elim
  rcases opened with _ | cause | handle
  · exact takes_pure fun _ _ _ hd => hd
  · exact fun m p w hl => absurd hl (sure cause m p w)
  · refine takes_bind (tries handle) (fun r => ?_) fun _ _ _ _ => False.elim
    cases r with
    | ok d => exact takes_modify_bind (takes_pure fun _ _ _ hd => hd) fun m p w => reset d m p w _
    | error cause => exact fun m p w hl => absurd hl (sure cause m p w)

/-- A command is got through if its failures run out: `inv n` holds while at most `n` of them are to
come, and after every failure they are fewer. -/
theorem takes_dispatch_bounded {inv : Nat → X → Player → W → Prop}
    {lost : Nat → BulbError → X → Player → W → Prop} {cmd : Command}
    {done : Dispatch → X → Player → W → Prop}
    (h : ∀ n, Unmoved answer c (inv n) (lost n) broken)
    (fewer : ∀ n cause m p w, lost n cause m p w →
      cause.isConnectivity = true ∧ ∃ k < n, inv k m p w)
    (opens : ∀ n, Takes answer c (inv n) openHandle (opening (done .skip) (inv n) (lost n)))
    (tries : ∀ n handle, Takes answer c (inv n) (attempt handle cmd) (outcome done (lost n)))
    (reset : ∀ d m p w backoff, done d m p w → done d m { p with backoff } w) (fuel : Nat) :
    ∀ n < fuel, Takes answer c (inv n) (dispatch cmd fuel) (atEnd done fun _ _ _ _ => False) := by
  induction fuel with
  | zero => exact fun n hn => absurd hn n.not_lt_zero
  | succ fuel ih =>
    intro n hn
    have retries (cause : BulbError) : Takes answer c (fun m p w => ∃ k < n, inv k m p w)
        (waitBeforeRetry cause >>= fun _ => dispatch cmd fuel)
        (atEnd done fun _ _ _ _ => False) := by
      rintro m p w ⟨k, hk, hi⟩
      exact ((h k).keeps_waitBeforeRetry cause).bind (fun _ => ih k (by omega)) m p w hi
    have passing (cause : BulbError) (m : X) (p : Player) (w : W)
        (final : cause.isConnectivity = false) (hl : lost n cause m p w) : False := by
      rw [(fewer n cause m p w hl).1] at final
      exact Bool.noConfusion final
    refine takes_bind (opens n) (fun opened => ?_) fun _ _ _ _ => False.elim
    rcases opened with _ | cause | handle
    · exact takes_pure fun _ _ _ hd => hd
    · refine Playing.takes_haltIfFinal (fun _ => ?_) (passing cause)
      exact (retries cause).mono (fun m p w hl => (fewer n cause m p w hl).2) fun _ _ _ _ hr => hr
    · refine takes_bind (tries n handle) (fun r => ?_) fun _ _ _ _ => False.elim
      cases r with
      | ok d => exact takes_modify_bind (takes_pure fun _ _ _ hd => hd) fun m p w => reset d m p w _
      | error cause =>
        refine Playing.takes_haltIfFinal (fun _ => ?_) (passing cause)
        refine takes_modify_bind (retries cause) fun m p w hl => ?_
        obtain ⟨-, k, hk, hi⟩ := fewer n cause m p w hl
        exact ⟨k, hk, (h k).handle m p w none hi⟩

/-- A command that is tried again and again keeps what every single try keeps. -/
theorem Unmoved.keeps_dispatch (h : Unmoved answer c inv lost broken) {cmd : Command}
    (tries : ∀ handle, Takes answer c inv (attempt handle cmd) (outcome (fun _ => inv) lost))
    (fuel : Nat) : Keeps answer c inv broken (dispatch cmd fuel) :=
  h.takes_dispatch h.keeps_openHandle tries (fun _ m p w backoff => h.backoff m p w backoff) fuel

/-- An attempt does what the execution does with the rest of the player around its state. -/
theorem takes_attempt {cmd : Command} {handle : Nat} {done : Dispatch → X → Player → W → Prop}
    (h : ∀ p : Player, Takes answer (c.comap fun state => { p with state })
      (fun m state w => inv m { p with state } w) (execute handle cmd)
      (atEnd (fun d m state w => done d m { p with state } w)
        fun cause m state w => lost cause m { p with state } w)) :
    Takes answer c inv (attempt handle cmd) (outcome done lost) := by
  refine takes_within (fun _ => rfl) fun p => (h p).mono (fun _ _ _ hi => hi) fun r m s w hr => ?_
  cases r with
  | ok d => exact hr
  | error cause => exact hr

theorem Unmoved.takes_restore (h : Unmoved answer c inv lost broken) {snapshot : Snapshot}
    (put : ∀ handle, Takes answer (ε := Halt) c inv
      (ask (.call handle (.restoreSnapshot snapshot))) (outcome (fun _ => inv) lost))
    (more : Nat) : Takes answer c inv (restore snapshot more) (outcome (fun _ => inv) lost) :=
  h.recovers.takes_restore
    (Playing.takes_reopenHandle (fun _ _ _ _ _ hi => hi) (fun _ _ _ _ hi => hi) h.takes_reconnect) put more

/-! ### What playing passes does not touch -/

variable (answer c inv)

/-- The invariant is kept by all that playback does, but for getting commands through. -/
structure Untouched : Prop where
  stopping : Surely answer (ε := Halt) c inv (ask .stopping)
  report : ∀ message, Surely answer (ε := Halt) c inv (ask (.report message))
  pacing : ∀ length, Surely answer (ε := Halt) c inv (ask (.pause .pacing length))
  idling : ∀ length, Surely answer (ε := Halt) c inv (ask (.pause .idling length))
  nextScript : Surely answer (ε := Halt) c inv (ask .nextScript)
  summary : ∀ m p w summary, inv m p w → inv m { p with summary } w
  script : ∀ m p w script, inv m p w → inv m { p with script } w
  current : ∀ m p w current, inv m p w → inv m { p with current } w
  timeAdjust : ∀ m p w timeAdjust, inv m p w →
    inv m { p with state := { p.state with timeAdjust } } w

variable {answer c inv}

/-- Where only a call can be bad, playing passes needs no look. -/
theorem Untouched.of_each {good : Turn Player Question Question.Answer W → Prop}
    (other : ∀ p q w, (∀ handle call, q ≠ .call handle call) → good ⟨p, q, (answer q w).1, w⟩) :
    Untouched answer (.each good) fun _ _ _ => True where
  stopping := keeps_ask fun _ _ _ _ => ⟨other _ _ _ nofun, trivial⟩
  report _ := keeps_ask fun _ _ _ _ => ⟨other _ _ _ nofun, trivial⟩
  pacing _ := keeps_ask fun _ _ _ _ => ⟨other _ _ _ nofun, trivial⟩
  idling _ := keeps_ask fun _ _ _ _ => ⟨other _ _ _ nofun, trivial⟩
  nextScript := keeps_ask fun _ _ _ _ => ⟨other _ _ _ nofun, trivial⟩
  summary _ _ _ _ _ := trivial
  script _ _ _ _ _ := trivial
  current _ _ _ _ _ := trivial
  timeAdjust _ _ _ _ _ := trivial

theorem Untouched.passing (h : Untouched answer c inv) : Playing.Passing answer c inv where
  stopping := h.stopping
  report := h.report
  idling := h.idling
  nextScript := h.nextScript
  passes m p w _ := h.summary m p w _
  script := h.script
  timeAdjust := h.timeAdjust

theorem Untouched.keeps_carryOut (h : Untouched answer c inv) {cmd : Command} {fuel : Nat}
    (dispatches : Keeps answer c inv broken (dispatch cmd fuel)) :
    Keeps answer c inv broken (carryOut fuel cmd) := by
  refine Playing.takes_carryOut (fun m p w => h.current m p w _) dispatches (fun d => ?_)
    fun m p w => h.current m p w _
  cases d with
  | skip => exact keeps_pure
  | sleep length =>
    exact keeps_bind (keeps_modify fun m p w => h.summary m p w _) fun _ => (h.pacing length).keeps

/-- Playback keeps what getting every single command through keeps. -/
theorem Untouched.keeps_play (h : Untouched answer c inv)
    (unfinished : ∀ m p w, inv m p w → broken .unfinished m p w)
    (dispatches : ∀ cmd fuel, Keeps answer c inv broken (dispatch cmd fuel)) (fuel : Nat) :
    Keeps answer c inv broken (play fuel) :=
  h.passing.keeps_play unfinished (fun cmd fuel => h.keeps_carryOut (dispatches cmd fuel)) fuel

end Player

end Lightshow
