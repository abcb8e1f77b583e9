/-
When playback sets colours.

A command that sets a colour turns the light on first, unless it remembers the light to be on.  A
command that moves a colour by chance does not look at the light, and never switches it.  So whatever
fails, only chance sets a colour after the last switch that the bulb carried out was to off.

A bridge is sent a colour by the calls that set one, and by the call that puts settings back, which
turns the light on with the same request.

* `Heedful` -- what a turn may send after the turns before it;
* `takes_run_heeding` -- every turn of a whole playback is heedful;
* `Hue.takes_perform_painting` -- which calls send a colour to a bridge;
* `commands_colour_lit_light` -- colours of commands and the last switch before them.
-/
import Lightshow.Proofs.Fading
import Lightshow.Proofs.PowerMirror

namespace Lightshow

open Talk

/-! ### The last switch -/

section

variable {S W : Type} (T : List (Turn S Question Question.Answer W))

/-- What the bulb was last switched to, if it has carried out a switch. -/
def lastSwitch : Option Power := (switches (told T)).getLast?

theorem lastSwitch_concat (t : Turn S Question Question.Answer W) :
    lastSwitch (T ++ [t]) = (t.told?.bind Call.switch?).or (lastSwitch T) := by
  rw [lastSwitch, told_append, switches_append, List.getLast?_append]
  cases told : t.told? with
  | none => simp [Lightshow.told, switches, told, lastSwitch]
  | some c => cases switch : c.switch? <;> simp [Lightshow.told, switches, told, switch, lastSwitch]

/-- A switch that is carried out is the last one. -/
theorem lastSwitch_switched {c : Call} {power : Power} (switch : c.switch? = some power) (s : S)
    (handle : Nat) (reply : c.Reply) (w : W) :
    lastSwitch (T ++ [⟨s, .call handle c, .ok reply, w⟩]) = some power := by
  rw [lastSwitch_concat]
  exact (congrArg (Option.or · _) switch).trans rfl

/-- A turn that carries out no switch leaves the last one as it is. -/
theorem lastSwitch_other {t : Turn S Question Question.Answer W}
    (other : ∀ c ∈ t.told?, c.switch? = none) : lastSwitch (T ++ [t]) = lastSwitch T := by
  rw [lastSwitch_concat]
  cases told : t.told? with
  | none => rfl
  | some c => rw [Option.bind_some, other c told, Option.none_or]

end

/-! ### Heed -/

/-- What a turn may send after the turns before it: a colour only within a command, which moves it by
chance if the last switch was to off; and a switch not within a command of that kind. -/
def Heedful {W : Type} (T : List (Turn Player Question Question.Answer W))
    (t : Turn Player Question Question.Answer W) : Prop :=
  ∀ c ∈ t.sent?,
    (c.isColour = true → ∃ cmd ∈ t.asker.current,
      lastSwitch T = some .on ∨ cmd.isJitter = true ∧ lastSwitch T = some .off) ∧
    (c.switch?.isSome = true → ∀ cmd ∈ t.asker.current, cmd.isJitter = false)

/-- Every turn is heedful after those before it. -/
abbrev heeding (W : Type) : Chronicle (List (Turn Player Question Question.Answer W)) Player
    Question Question.Answer W :=
  .whole Heedful

section

variable {W : Type} {T : List (Turn Player Question Question.Answer W)} {p : Player} {w : W}

/-- Playback remembers the last switch, and what is known of the command it carries out holds. -/
structure Minds (now : Option Command → Prop) (T : List (Turn Player Question Question.Answer W))
    (p : Player) (_ : W) : Prop where
  last : lastSwitch T = some p.state.power
  current : now p.current

/-- A turn that sends nothing is heedful. -/
theorem Heedful.of_unsent {t : Turn Player Question Question.Answer W} (unsent : t.sent? = none) :
    Heedful T t :=
  fun _ hc => absurd (unsent.symm.trans hc) nofun

/-- A call that neither sets a colour nor switches is heedful. -/
theorem Heedful.of_call {handle : Nat} {c : Call} (colourless : c.isColour = false)
    (other : c.switch? = none) (r : Except BulbError c.Reply) :
    Heedful T ⟨p, .call handle c, r, w⟩ := by
  intro c' hc'
  obtain rfl : c = c' := Option.some.inj hc'
  rw [colourless, other]
  exact ⟨nofun, nofun⟩

variable {now : Option Command → Prop}

/-- A turn that carries out no switch changes nothing that is minded. -/
theorem Minds.next (h : Minds now T p w) {t : Turn Player Question Question.Answer W}
    (other : ∀ c ∈ t.sent?, c.switch? = none) (w' : W) : Minds now (T ++ [t]) p w' :=
  ⟨(lastSwitch_other T fun c hc => other c (Turn.sent?_of_told? hc)).trans h.last, h.current⟩

theorem Minds.after_call (h : Minds now T p w) {handle : Nat} {c : Call} (other : c.switch? = none)
    (r : Except BulbError c.Reply) (v w' : W) :
    Minds now (T ++ [⟨p, .call handle c, r, v⟩]) p w' := by
  refine h.next (fun c' hc' => ?_) w'
  rw [← Option.some.inj hc']
  exact other

/-- Asking anything but a call is heedful. -/
theorem keeps_unsent {ε : Type} {answer : (q : Question) → W → q.Answer × W} {q : Question}
    (hcall : ∀ handle c, q ≠ .call handle c) :
    Surely answer (ε := ε) (heeding W) (Minds now) (ask q) := by
  have unsent (p : Player) (r : q.Answer) (w : W) :
      (⟨p, q, r, w⟩ : Turn Player Question Question.Answer W).sent? = none := by
    cases q with
    | call handle c => exact absurd rfl (hcall handle c)
    | _ => rfl
  refine keeps_ask fun T p w h => ⟨.of_unsent (unsent p _ w), h.next (fun c hc => ?_) _⟩
  exact absurd ((unsent p _ w).symm.trans hc) nofun

end

/-! ### Calls of a command -/

section

variable {W : Type} {answer : (q : Question) → W → q.Answer × W} {cmd : Command} {handle : Nat}
variable {c : Call}

/-- A call that is no switch leaves the last one as it is, whether or not the bulb takes it, and it is
heedful if it sets a colour only by chance or with the light on. -/
theorem takes_other_call (other : c.switch? = none)
    {pre : List (Turn Player Question Question.Answer W) → Player → W → Prop}
    (minds : ∀ T p w, pre T p w → Minds (· = some cmd) T p w)
    (lit : c.isColour = true → cmd.isJitter = true ∨ ∀ T p w, pre T p w → p.state.power = .on) :
    Takes answer (ε := Halt) (heeding W) pre (ask (.call handle c))
      (Player.outcome (fun _ => Minds (· = some cmd)) fun _ => Minds (· = some cmd)) := by
  have heedful (T : List (Turn Player Question Question.Answer W)) (p : Player) (w : W)
      (r : Except BulbError c.Reply) (h : pre T p w) : Heedful T ⟨p, .call handle c, r, w⟩ := by
    intro c' hc'
    obtain rfl : c = c' := Option.some.inj hc'
    rw [other]
    refine ⟨fun colour => ⟨cmd, (minds T p w h).current, ?_⟩, nofun⟩
    rw [(minds T p w h).last]
    cases light : p.state.power with
    | on => exact .inl rfl
    | off =>
      refine .inr ⟨(lit colour).resolve_right fun on => ?_, rfl⟩
      exact absurd (light.symm.trans (on T p w h)) nofun
  exact Player.takes_call
    (fun T p w reply h _ => ⟨heedful T p w _ h, (minds T p w h).after_call other (.ok reply) w _⟩)
    fun T p w cause h _ => ⟨heedful T p w _ h, (minds T p w h).after_call other (.error cause) w _⟩

/-- A command that does not go by chance may switch, and a switch is the last one if the bulb takes
it. -/
theorem takes_switch_call {power : Power} (switch : c.switch? = some power)
    (calm : cmd.isJitter = false) :
    Takes answer (ε := Halt) (heeding W) (Minds (· = some cmd)) (ask (.call handle c))
      (Player.outcome (fun _ T p _ => lastSwitch T = some power ∧ p.current = some cmd)
        fun _ => Minds (· = some cmd)) := by
  have heedful (T : List (Turn Player Question Question.Answer W)) (p : Player) (w : W)
      (r : Except BulbError c.Reply) (current : p.current = some cmd) :
      Heedful T ⟨p, .call handle c, r, w⟩ := by
    intro c' hc'
    obtain rfl : c = c' := Option.some.inj hc'
    refine ⟨fun colour => absurd (switch.symm.trans (Call.switch?_of_colour colour)) nofun,
      fun _ cmd' hcmd' => ?_⟩
    obtain rfl : cmd = cmd' := Option.some.inj (current.symm.trans hcmd')
    exact calm
  refine Player.takes_call (fun T p w reply h _ => ?_) fun T p w cause h _ => ?_
  · exact ⟨heedful T p w _ h.current, lastSwitch_switched T switch p handle reply w, h.current⟩
  · have untold : lastSwitch (T ++ [⟨p, .call handle c, .error cause, w⟩]) = lastSwitch T :=
      lastSwitch_other T fun _ => nofun
    exact ⟨heedful T p w _ h.current, untold.trans h.last, h.current⟩

end

/-! ### Carrying a command out -/

namespace Execution

variable {W : Type} {answer : (q : Question) → W → q.Answer × W} (p : Player) (cmd : Command)

/-- The execution of a command goes on in a player that minds the last switch. -/
abbrev Minding (T : List (Turn Player Question Question.Answer W)) (s : PlaybackState) (w : W) :
    Prop :=
  Minds (· = some cmd) T { p with state := s } w

/-- The turns of an execution are heeded as turns of the player around it. -/
abbrev heedingWithin (W : Type) :
    Chronicle (List (Turn Player Question Question.Answer W)) PlaybackState Question
      Question.Answer W :=
  (heeding W).comap fun state => { p with state }

variable {p cmd} {handle : Nat}

/-- A switch is minded once it is remembered. -/
theorem takes_switch {c : Call} {power : Power} (switch : c.switch? = some power)
    (calm : cmd.isJitter = false) :
    Takes answer (heedingWithin p W) (Minding p cmd)
      (send handle c >>= fun _ => modify fun s => { s with power })
      (atEnd (fun _ T s w => Minding p cmd T s w ∧ s.power = power) fun _ => Minding p cmd) := by
  refine takes_bind (takes_send_within (takes_switch_call switch calm)) (fun _ => ?_)
    fun _ _ _ _ h => h
  exact takes_modify fun T s w h => ⟨⟨h.1, h.2⟩, rfl⟩

theorem takes_powerOn_minding (calm : cmd.isJitter = false) :
    Takes answer (heedingWithin p W) (Minding p cmd) (powerOn handle)
      (atEnd (fun _ T s w => Minding p cmd T s w ∧ s.power = .on) fun _ => Minding p cmd) := by
  refine takes_get_bind fun s => takes_ite (fun _ => ?_) fun lit => takes_pure fun T s' w h => ?_
  · refine (takes_switch rfl calm).mono (fun _ _ _ h => h.1) fun r _ _ _ h => ?_
    cases r <;> exact h
  · -- nothing is sent: the light is on as far as playback knows
    obtain ⟨minds, rfl⟩ := h
    refine ⟨minds, ?_⟩
    cases light : s'.power with
    | on => rfl
    | off => exact absurd light lit

theorem keeps_powerOff_minding (calm : cmd.isJitter = false) :
    Keeps answer (heedingWithin p W) (Minding p cmd) (fun _ => Minding p cmd) (powerOff handle) := by
  refine takes_get_bind fun s => takes_ite (fun _ => ?_) fun _ => takes_pure fun _ _ _ h => h.1
  refine (takes_switch rfl calm).mono (fun _ _ _ h => h.1) fun r _ _ _ h => ?_
  cases r with
  | ok _ => exact h.1
  | error cause => exact h

/-- The execution of a command is heedful, and minds the last switch however it ends. -/
theorem keeps_execute_heeding :
    Keeps answer (heedingWithin p W) (Minding p cmd) (fun _ => Minding p cmd) (execute handle cmd) := by
  have unsent {q : Question} (hcall : ∀ handle c, q ≠ .call handle c) :
      Surely answer (ε := BulbError) (heedingWithin p W) (Minding p cmd) (ask q) :=
    takes_ask_within (keeps_unsent (ε := Halt) hcall)
  refine keeps_execute (unsent fun _ _ => nofun) ?_
  refine takes_perform cmd (fun _ _ => unsent fun _ _ => nofun) (fun c other _ chance => ?_)
    takes_powerOn_minding keeps_powerOff_minding (fun c colour => ?_)
    fun _ _ _ _ h => ⟨h.last, h.current⟩
  · exact takes_send_within (takes_other_call other (fun _ _ _ h => h) fun colour =>
      .inl (chance colour))
  · have lit : Takes answer (ε := Halt) (heeding W)
        (fun T p w => Minds (· = some cmd) T p w ∧ p.state.power = .on) (Talk.ask (.call handle c))
        (Player.outcome (fun _ => Minds (· = some cmd)) fun _ => Minds (· = some cmd)) :=
      takes_other_call (Call.switch?_of_colour colour) (fun _ _ _ h => h.1) fun _ =>
        .inr fun _ _ _ h => h.2
    exact takes_send_within lit

end Execution

/-! ### Playing -/

namespace Player

variable {W : Type} {answer : (q : Question) → W → q.Answer × W}

theorem keeps_restore_call {now : Option Command → Prop} (handle : Nat) (snapshot : Snapshot) :
    Surely answer (ε := Halt) (heeding W) (Minds now)
      (ask (.call handle (.restoreSnapshot snapshot))) :=
  keeps_ask fun _ _ w h => ⟨.of_call rfl rfl _, h.after_call rfl _ w _⟩

/-- What is done about a lost handle sends nothing. -/
theorem minds_unmoved (now : Option Command → Prop) :
    Unmoved answer (heeding W) (Minds now) (fun _ => Minds now) fun _ => Minds now where
  connect := keeps_outcome (keeps_unsent fun _ _ => nofun)
  stopping := keeps_unsent fun _ _ => nofun
  retrying _ := keeps_unsent fun _ _ => nofun
  report _ := keeps_unsent fun _ _ => nofun
  backoff _ _ _ _ h := ⟨h.last, h.current⟩
  handle _ _ _ _ h := ⟨h.last, h.current⟩
  reconnects _ _ _ _ h := ⟨h.last, h.current⟩
  retry _ _ _ _ _ h := h
  final _ _ _ _ _ h := h
  unfinished _ _ _ h := h

theorem keeps_dispatch_heeding (cmd : Command) (fuel : Nat) :
    Keeps answer (heeding W) (Minds (· = some cmd)) (fun _ => Minds (· = some cmd))
      (dispatch cmd fuel) :=
  (minds_unmoved _).keeps_dispatch (fun _ => takes_attempt fun _ => Execution.keeps_execute_heeding)
    fuel

/-- Passes are heedful, and mind the last switch however they end. -/
theorem keeps_play_heeding (fuel : Nat) :
    Takes answer (heeding W) (Minds fun _ => True) (play fuel) fun _ => Minds fun _ => True := by
  have passing : Playing.Passing answer (heeding W) (Minds fun _ => True) :=
    { stopping := keeps_unsent fun _ _ => nofun
      report := fun _ => keeps_unsent fun _ _ => nofun
      idling := fun _ => keeps_unsent fun _ _ => nofun
      nextScript := keeps_unsent fun _ _ => nofun
      passes := fun _ _ _ _ h => ⟨h.last, trivial⟩
      script := fun _ _ _ _ h => ⟨h.last, trivial⟩
      timeAdjust := fun _ _ _ _ h => ⟨h.last, trivial⟩ }
  refine keeps_always.mp (passing.keeps_play (fun _ _ _ h => h) (fun cmd fuel => ?_) fuel)
  -- a command that has failed for good stays the current one, which no longer matters
  have dispatches : Takes answer (heeding W) (Minds (· = some cmd)) (dispatch cmd fuel)
      (atEnd (fun _ => Minds (· = some cmd)) fun _ => Minds fun _ => True) :=
    (keeps_dispatch_heeding cmd fuel).mono (fun _ _ _ h => h) fun r _ _ _ h => by
      cases r with
      | ok _ => exact h
      | error halt => exact ⟨h.last, trivial⟩
  refine Playing.takes_carryOut (fun _ _ _ h => ⟨h.last, rfl⟩) dispatches (fun d => ?_)
    fun _ _ _ h => ⟨h.last, trivial⟩
  cases d with
  | skip => exact takes_pure fun _ _ _ h => h
  | sleep length =>
    have paces : Surely answer (ε := Halt) (heeding W) (Minds (· = some cmd))
        (ask (.pause .pacing length)) := keeps_unsent fun _ _ => nofun
    exact keeps_bind (keeps_modify fun _ _ _ h => ⟨h.last, h.current⟩) fun _ => paces.keeps

/-- A start-up sends its switch before there is any command. -/
theorem takes_startUp_heeding :
    Takes answer (heeding W) (fun _ p _ => p.current = none) startUp
      (atEnd (fun _ => Minds fun _ => True) fun _ _ _ _ => True) := by
  have uncommanded (q : Question) (heedful : ∀ (T : List (Turn Player Question Question.Answer W))
      (p : Player) (r : q.Answer) (w : W), p.current = none → Heedful T ⟨p, q, r, w⟩) :
      Surely answer (ε := Halt) (heeding W) (fun _ p _ => p.current = none) (ask q) :=
    keeps_ask fun T p w idle => ⟨heedful T p _ w idle, idle⟩
  have reads (handle : Nat) (c : Call) (colourless : c.isColour = false) (other : c.switch? = none) :
      Takes answer (ε := Halt) (heeding W) (fun _ p _ => p.current = none) (ask (.call handle c))
        (outcome (fun _ _ p _ => p.current = none) fun _ _ _ _ => True) :=
    (keeps_outcome (uncommanded _ fun _ _ r _ _ => .of_call colourless other r)).mono
      (fun _ _ _ h => h) (outcome_mono (fun _ _ _ _ h => h) fun _ _ _ _ _ => trivial)
  have lights (handle : Nat) : Takes answer (ε := Halt) (heeding W) (fun _ p _ => p.current = none)
      (ask (.call handle .turnOn))
      (outcome (fun _ T _ _ => lastSwitch T = some .on) fun _ _ _ _ => True) := by
    have heedful (T : List (Turn Player Question Question.Answer W)) (p : Player)
        (r : Except BulbError Unit) (w : W) (idle : p.current = none) :
        Heedful T ⟨p, .call handle .turnOn, r, w⟩ := by
      intro c hc
      obtain rfl : Call.turnOn = c := Option.some.inj hc
      exact ⟨nofun, fun _ cmd hcmd => absurd (idle.symm.trans hcmd) nofun⟩
    exact takes_call
      (fun T p w reply idle _ => ⟨heedful T p _ w idle, lastSwitch_switched T rfl p handle reply w⟩)
      fun T p w cause idle _ => ⟨heedful T p _ w idle, trivial⟩
  have connects : Takes answer (ε := Halt) (heeding W) (fun _ p _ => p.current = none) (ask .connect)
      (outcome (fun _ _ p _ => p.current = none) fun _ _ _ _ => True) :=
    (keeps_outcome (uncommanded .connect fun _ _ _ _ _ => .of_unsent rfl)).mono
      (fun _ _ _ h => h) (outcome_mono (fun _ _ _ _ h => h) fun _ _ _ _ _ => trivial)
  exact Playing.takes_startUp connects (fun handle => reads handle .getRgb rfl rfl)
    (fun _ _ => uncommanded _ fun _ _ _ _ _ => .of_unsent rfl)
    (fun handle => reads handle .saveSnapshot rfl rfl) (fun handle _ => lights handle)
    (fun _ _ _ _ _ on => ⟨on, trivial⟩) fun _ _ _ _ _ => trivial

/-- Every turn of a whole playback is heedful. -/
theorem takes_run_heeding (fuel : Nat) :
    Takes answer (heeding W) (fun _ p _ => p.current = none) (run fuel) fun _ _ _ _ => True := by
  have closes (snapshot : Snapshot) (ended : Except Halt Unit) :
      Takes answer (heeding W) (Minds fun _ => True) (close snapshot ended)
        (atEnd (fun _ _ _ _ => True) fun _ _ _ _ => True) :=
    (keeps_close (minds_unmoved _) (fun handle => keeps_outcome (keeps_restore_call handle snapshot))
      ended).mono (fun _ _ _ h => h) fun r _ _ _ _ => by cases r <;> trivial
  refine (Playing.takes_run takes_startUp_heeding (fun _ => keeps_play_heeding fuel) closes).mono
    (fun _ _ _ h => h) fun _ _ _ _ _ => trivial

/-- Within a whole playback, every turn is heedful after those before it. -/
theorem run_heedful (answer : (q : Question) → W → q.Answer × W) (bulb : String) (script : Script)
    (backoff : Backoff) (fuel : Nat) (w : W)
    {before later : List (Turn Player Question Question.Answer W)}
    {t : Turn Player Question Question.Answer W}
    (split : (run fuel).turns answer (new bulb script backoff) w = before ++ t :: later) :
    Heedful before t :=
  Chronicle.good_of_whole (takes_run_heeding fuel [] (new bulb script backoff) w rfl).1 split

end Player

/-! ### Colours on a bridge -/

namespace Hue

open Json

/-- Whether a change sets a colour, or a part of one. -/
def setsColour (change : List (String × Value)) : Bool :=
  change.any fun f => ["hue", "sat", "bri"].contains f.1

/-- The time of a handle is no part of a colour. -/
theorem setsColour_of_timed {h : Handle} {fields : List (String × Value)}
    (sets : setsColour (h.timed fields) = true) : setsColour fields = true := by
  rw [Handle.timed] at sets
  cases time : h.transition with
  | none => simpa only [time] using sets
  | some tenths =>
    rw [time] at sets
    obtain ⟨f, hf, part⟩ := List.any_eq_true.mp sets
    rcases mem_putField hf with rfl | hf
    · have other : ["hue", "sat", "bri"].contains transitionName = false := by decide
      exact absurd (other.symm.trans part) Bool.false_ne_true
    · exact List.any_eq_true.mpr ⟨f, hf, part⟩

/-- A call sends a colour only if it sets one, or together with turning the light on if it puts
settings back. -/
def Paints (c : Call) (change : List (String × Value)) : Prop :=
  setsColour change = true →
    c.isColour = true ∨ c.isRestore = true ∧ (Value.object change).field? "on" = some (.bool true)

/-- The changes of a call send a colour only as it may. -/
def painting (σ : Type) (c : Call) : Chronicle Unit Handle Request (fun _ => Outcome) σ :=
  .each fun t => ∀ change ∈ t.question.change?, Paints c change

section

variable {σ : Type} (network : Request → σ → Outcome × σ) {c : Call}

theorem takes_fetch_painting :
    Takes network (painting σ c) (fun _ _ _ => True) fetch fun _ _ _ _ => True := by
  refine fun m h s _ => (leads_reading_only network h s).mono fun T r h' s' reading => ?_
  refine ⟨Chronicle.holds_each.mpr fun t ht change hc => ?_, trivial⟩
  exact absurd ((reading.2 t ht).symm.trans hc) nofun

theorem takes_put_painting {fields : List (String × Value)}
    (paints : ∀ h : Handle, Paints c (h.timed fields)) :
    Takes network (painting σ c) (fun _ _ _ => True) (put fields) fun _ _ _ _ => True := by
  refine fun m h s _ => (leads_putting network fields h s).mono fun T r h' s' sent => ?_
  refine ⟨Chronicle.holds_each.mpr fun t ht change hc => ?_, trivial⟩
  have body := (sent.2 t ht).symm.trans (Request.body_of_change hc)
  obtain rfl := Value.object.inj (Option.some.inj body)
  exact paints h

/-- A call sends a bridge a colour only if it sets one, or together with turning the light on if it
puts settings back. -/
theorem takes_perform_painting (c : Call) :
    Takes network (painting σ c) (fun _ _ _ => True) (perform c) fun _ _ _ _ => True := by
  have reads {α : Type} (f : State → α) :
      Takes network (painting σ c) (fun _ _ _ => True) (fetch >>= fun state => pure (f state))
        fun _ _ _ _ => True :=
    takes_bind (takes_fetch_painting network) (fun _ => takes_pure fun _ _ _ _ => trivial)
      fun _ _ _ _ _ => trivial
  have colours (fields : List (String × Value)) (colour : c.isColour = true) :
      Takes network (painting σ c) (fun _ _ _ => True) (put fields) fun _ _ _ _ => True :=
    takes_put_painting network fun _ _ => .inl colour
  have switches (on : Bool) :
      Takes network (painting σ c) (fun _ _ _ => True) (put [onField on]) fun _ _ _ _ => True :=
    takes_put_painting network fun _ sets => absurd (setsColour_of_timed sets) nofun
  cases c with
  | getRgb => exact reads _
  | getHue => exact reads _
  | getSaturation => exact reads _
  | getBrightness => exact reads _
  | getTransition => exact takes_get_bind fun _ => takes_pure fun _ _ _ _ => trivial
  | saveSnapshot =>
    refine takes_bind (takes_fetch_painting network) (fun _ => ?_) fun _ _ _ _ _ => trivial
    exact takes_get_bind fun _ => takes_pure fun _ _ _ _ => trivial
  | setRgb rgb => exact colours _ rfl
  | setHue hue => exact colours _ rfl
  | setSaturation level => exact colours _ rfl
  | setBrightness level => exact colours _ rfl
  | setHsb hsb => exact colours _ rfl
  | turnOn => exact switches true
  | turnOff => exact switches false
  | setTransition seconds => exact takes_modify fun _ _ _ _ => trivial
  | restoreSnapshot s =>
    have lit (h : Handle) : Paints (.restoreSnapshot s)
        (h.timed (putField "on" (.bool true) (colorFields s.hsb))) := by
      refine fun _ => .inr ⟨rfl, ?_⟩
      rw [Handle.timed]
      cases h.transition with
      | none => rw [field?_putField, if_pos rfl]
      | some tenths => rw [field?_putField, if_neg (by decide), field?_putField, if_pos rfl]
    refine takes_modify_bind (takes_bind (takes_put_painting network lit) (fun _ => ?_)
      fun _ _ _ _ _ => trivial) fun _ _ _ _ => trivial
    exact takes_ite (fun _ => switches false) fun _ => takes_pure fun _ _ _ _ => trivial

end

namespace Outlet

open Player

/-- Only a turn that sets a colour, or puts settings back, sends a bridge a colour. -/
theorem paints_of_changesAt {σ : Type} {network : Network σ}
    {t : Turn Player Question Question.Answer (Outlet σ)} {change : List (String × Value)}
    (hc : change ∈ changesAt network t) : ∃ c ∈ t.sent?, Paints c change := by
  obtain ⟨p, q, r, o⟩ := t
  cases q with
  | connect =>
    rw [changesAt_connect] at hc
    exact absurd hc List.not_mem_nil
  | call handle c =>
    obtain ⟨t, ht, hchange⟩ := List.mem_filterMap.mp hc
    have holds := (takes_perform_painting network c ()
      (o.handles.getD handle o.connector.handle) o.network trivial).1
    exact ⟨c, rfl, Chronicle.holds_each.mp holds t ht change hchange⟩
  | _ => exact absurd hc List.not_mem_nil

/-- In every playback, whatever fails, a call that sets a colour is one of a command, and the last
switch before it that the bulb carried out was to on, or it was to off and the command moves colours
by chance; and a command of that kind never switches.  A bridge is sent a colour only by such
calls, and by the one that puts settings back, which turns the light on in the same request. -/
theorem commands_colour_lit_light :
    (∀ (W : Type) (answer : (q : Question) → W → q.Answer × W) (bulb : String) (script : Script)
        (backoff : Backoff) (fuel : Nat) (w : W) before t later,
      (run fuel).turns answer (.new bulb script backoff) w = before ++ t :: later →
      ∀ c ∈ t.sent?,
        (c.isColour = true → ∃ cmd ∈ t.asker.current, lastSwitch before = some .on ∨
          cmd.isJitter = true ∧ lastSwitch before = some .off) ∧
        (c.switch?.isSome = true → ∀ cmd ∈ t.asker.current, cmd.isJitter = false)) ∧
    ∀ (σ : Type) (network : Network σ) (connector : Connector) (s : σ) (bulb : String)
        (script : Script) (backoff : Backoff) (fuel : Nat) before t later,
      (run fuel).turns (answer network) (.new bulb script backoff) (.new connector s) =
        before ++ t :: later →
      ∀ change ∈ changesAt network t, setsColour change = true →
        (∃ cmd ∈ t.asker.current, lastSwitch before = some .on ∨
          cmd.isJitter = true ∧ lastSwitch before = some .off) ∨
        ∃ c ∈ t.sent?, c.isRestore = true ∧ (Value.object change).field? "on" = some (.bool true) := by
  refine ⟨fun W answer bulb script backoff fuel w before t later split =>
    run_heedful answer bulb script backoff fuel w split, ?_⟩
  intro σ network connector s bulb script backoff fuel before t later split change hc sets
  obtain ⟨c, sent, paints⟩ := paints_of_changesAt hc
  rcases paints sets with colour | restores
  · exact .inl ((run_heedful _ bulb script backoff fuel _ split c sent).1 colour)
  · exact .inr ⟨c, sent, restores⟩

/-- A command that finds the light off, as the one before it has left it, turns it on and then sends the
bridge its colour. -/
theorem commands_colour_lit_light_turned_off :
    let connector := Connector.new "10.0.0.2" "me" "1"
    let bridge : Bridge := ⟨.object [("state", .object [onField false])]⟩
    let script : Script := ⟨[⟨0, .rgb, [0, 0, 0]⟩, ⟨0, .rgb, [1, 2, 3]⟩]⟩
    let turns := (run 4).turns (answer Bridge.answer) (.new "1" script .usual)
      (.new connector bridge)
    lastSwitch (turns.take 13) = some .off ∧
      ∃ t ∈ turns[14]?, ∃ change ∈ changesAt Bridge.answer t, setsColour change = true ∧
        ∃ cmd ∈ t.asker.current, cmd.isJitter = false ∧ lastSwitch (turns.take 14) = some .on := by
  intro connector bridge script turns
  have dark : lastSwitch (turns.take 13) = some .off := by decide +kernel
  have paints : (turns[14]?.any fun t => (changesAt Bridge.answer t).any setsColour &&
      t.sent?.all (!·.isRestore) && t.asker.current.all (!·.isJitter)) = true := by decide +kernel
  obtain ⟨t, ht, holds⟩ := (Option.any_eq_true _ _).mp paints
  obtain ⟨changes, calm⟩ := Bool.and_eq_true_iff.mp holds
  obtain ⟨changes, sends⟩ := Bool.and_eq_true_iff.mp changes
  obtain ⟨change, hc, sets⟩ := List.any_eq_true.mp changes
  obtain ⟨short, rfl⟩ := List.getElem?_eq_some_iff.mp ht
  have split : turns = turns.take 14 ++ turns[14] :: turns.drop 15 := by
    rw [← List.drop_eq_getElem_cons short, List.take_append_drop]
  obtain ⟨cmd, hcmd, lit⟩ | ⟨c, sent, restores, -⟩ :=
    commands_colour_lit_light.2 _ Bridge.answer connector bridge "1" script .usual 4 _ _ _ split
      change hc sets
  · have steady : cmd.isJitter = false :=
      (Bool.not_eq_true' _).mp ((Option.all_eq_true _ _).mp calm cmd hcmd)
    have on := lit.resolve_right fun chance => absurd (steady.symm.trans chance.1) Bool.false_ne_true
    exact ⟨dark, _, ht, change, hc, sets, cmd, hcmd, steady, on⟩
  · have plain : c.isRestore = false :=
      (Bool.not_eq_true' _).mp ((Option.all_eq_true _ _).mp sends c sent)
    exact absurd (plain.symm.trans restores) Bool.false_ne_true

end Outlet

end Hue

namespace Player

open Performance

/-- A lamp that was turned off by a command is sent a colour by the next one, which goes by chance. -/
theorem chance_colours_dark_light :
    let script : Script := ⟨[⟨0, .hsb, [0, 0, 0]⟩, ⟨0, .hsbJitter, [10, 20, 30]⟩]⟩
    let turns := (run 4).turns answer (new "lamp" script .usual) (.ofLamp fun _ => [])
    ¬∀ before t later, turns = before ++ t :: later →
      t.asker.current.isSome = true → ∀ c ∈ t.sent?, c.isColour = true →
        lastSwitch before = some .on := by
  intro script turns lit
  have dark : lastSwitch (turns.take 19) = some .off := by decide +kernel
  have paints : (turns[19]?.any fun t => t.asker.current.isSome && t.sent?.any Call.isColour) =
      true := by decide +kernel
  obtain ⟨t, ht, sends⟩ := (Option.any_eq_true _ _).mp paints
  obtain ⟨commanded, sends⟩ := Bool.and_eq_true_iff.mp sends
  obtain ⟨c, hc, colour⟩ := (Option.any_eq_true _ _).mp sends
  obtain ⟨short, rfl⟩ := List.getElem?_eq_some_iff.mp ht
  have split : turns = turns.take 19 ++ turns[19] :: turns.drop 20 := by
    rw [← List.drop_eq_getElem_cons short, List.take_append_drop]
  exact absurd (dark.symm.trans (lit _ _ _ split commanded c hc colour)) nofun

end Player

end Lightshow
