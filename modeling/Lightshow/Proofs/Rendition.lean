/-
What playback of plain commands makes of a script.

A command that neither reads the light nor leaves anything to chance is plain.  The calls that it
makes, and the state of playback after it, follow from the state before it.  So what playback of
such commands does follows from its script, as long as no stop is requested and nothing worse
happens than that the bulb cannot be reached: calls that are lost are made again, until the command
has come as far as if none had been lost.

* `Command.calls`, `Command.next` -- a plain command as calls and a change of the state;
* `rendition` -- all that playback of a script makes happen;
* `Fair.leads_play` -- what happens is a beginning of the rendition, or all of it if nothing is
  lost.
-/
import Lightshow.Proofs.Parts

namespace Lightshow

open Talk

/-! ### Plain commands -/

/-- Whether a call sets something that stays set if it is made twice. -/
def Call.isSetting : Call → Bool
  | .setTransition _ | .turnOn | .turnOff | .setHsb _ | .setRgb _ => true
  | _ => false

namespace PlaybackState

/-- The call that turns the bulb off, unless that was the last it was told. -/
def offCalls (s : PlaybackState) : List Call := if s.power = .on then [.turnOff] else []

/-- The call that turns the bulb on, unless that was the last it was told. -/
def onCalls (s : PlaybackState) : List Call := if s.power = .off then [.turnOn] else []

/-- The state at the beginning of a pass. -/
def fresh (s : PlaybackState) : PlaybackState := { s with timeAdjust := 0 }

end PlaybackState

namespace Command

/-- Whether a command neither reads the light nor leaves anything to chance. -/
def isPlain (c : Command) : Bool :=
  match c.instruction with
  | .hsbJitter | .rgbJitter => false
  | _ => true

/-- The calls that a plain command still has to make in a state. -/
def calls (c : Command) (s : PlaybackState) : List Call :=
  match c.instruction with
  | .fade => [.setTransition (fadeSeconds (c.param 0))]
  | .hsb =>
    if c.param 2 = 0 then s.offCalls
    else s.onCalls ++ [.setHsb ⟨toHue (stretchedHue (c.param 0)), toLevel (c.param 1),
      toLevel (c.param 2)⟩]
  | .rgb =>
    if c.param 0 = 0 ∧ c.param 1 = 0 ∧ c.param 2 = 0 then s.offCalls
    else s.onCalls ++ [.setRgb ⟨toLevel (c.param 0), toLevel (c.param 1), toLevel (c.param 2)⟩]
  | _ => []

/-- The state after a plain command. -/
def next (c : Command) (s : PlaybackState) : PlaybackState :=
  match c.instruction with
  | .timeAdjust => s.adjustTime (c.param 0)
  | .hsb => ⟨if c.param 2 = 0 then .off else .on, s.timeAdjust⟩
  | .rgb =>
    ⟨if c.param 0 = 0 ∧ c.param 1 = 0 ∧ c.param 2 = 0 then .off else .on, s.timeAdjust⟩
  | _ => s

end Command

/-! ### Events -/

/-- Something that playback makes happen. -/
inductive Event where
  /-- A pass begins. -/
  | began
  /-- The bulb carries out a call. -/
  | told (c : Call)
  /-- A command is done with: the state after it, and the wait. -/
  | paced (state : PlaybackState) (length : Duration)
  /-- A pass over an empty script is waited for. -/
  | idled (length : Duration)

/-- The call that the bulb carried out, if an event is one. -/
def Event.call? : Event → Option Call
  | .told c => some c
  | _ => none

/-- What happens at a turn, if anything does.  Connects, failed calls, looks for a stop, reports and
waits before a retry are no events. -/
def Turn.event? {W : Type} : Turn Player Question Question.Answer W → Option Event
  | ⟨_, .nextScript, _, _⟩ => some .began
  | ⟨_, .call _ c, .ok _, _⟩ => some (.told c)
  | ⟨p, .pause .pacing length, _, _⟩ => some (.paced p.state length)
  | ⟨_, .pause .idling length, _, _⟩ => some (.idled length)
  | _ => none

/-- What happens at a turn does not depend on the world before it. -/
theorem Turn.event?_world {V W : Type} (p : Player) {q : Question} (r : q.Answer) (v : V) (w : W) :
    (⟨p, q, r, v⟩ : Turn Player Question Question.Answer V).event? =
      (⟨p, q, r, w⟩ : Turn Player Question Question.Answer W).event? := by
  cases q with
  | call handle c => cases r <;> rfl
  | pause purpose length => cases purpose <;> rfl
  | _ => rfl

/-- What happens at some turns, in order. -/
def events {W : Type} (T : List (Turn Player Question Question.Answer W)) : List Event :=
  T.filterMap Turn.event?

theorem events_append {W : Type} (T T' : List (Turn Player Question Question.Answer W)) :
    events (T ++ T') = events T ++ events T' := List.filterMap_append

theorem events_cons {W : Type} (t : Turn Player Question Question.Answer W)
    (T : List (Turn Player Question Question.Answer W)) :
    events (t :: T) = t.event?.toList ++ events T := by
  rw [events, List.filterMap_cons]
  cases t.event? <;> rfl

/-- What happens when a command is carried out. -/
def Command.events (c : Command) (s : PlaybackState) : List Event :=
  (c.calls s).map .told ++ [.paced (c.next s) (tickPause c.delay (c.next s).timeAdjust)]

/-- What happens when commands are carried out, one after the other. -/
def commandEvents : PlaybackState → List Command → List Event
  | _, [] => []
  | s, c :: rest => c.events s ++ commandEvents (c.next s) rest

/-- The state after some commands. -/
def stateAfter (s : PlaybackState) (cmds : List Command) : PlaybackState :=
  cmds.foldl (fun s c => c.next s) s

/-- What happens in a pass over some commands, as far as the fuel goes. -/
def passEvents (cmds : List Command) (fuel : Nat) (s : PlaybackState) : List Event :=
  .began :: if cmds.isEmpty then [.idled Player.idleTime]
    else if fuel = 0 then [] else commandEvents s.fresh cmds

/-- What happens when passes over some commands are played, as far as the fuel goes. -/
def rendition (cmds : List Command) : (fuel : Nat) → PlaybackState → List Event
  | 0, _ => []
  | fuel + 1, s => passEvents cmds fuel s ++ rendition cmds fuel (stateAfter s.fresh cmds)

/-! ### Milestones -/

section

variable {X W : Type} (act : X → Call → X) (x₀ : X)

/-- What events make of what can be seen. -/
def seen (m : List Event) : X := (m.filterMap Event.call?).foldl act x₀

theorem seen_append (m m' : List Event) :
    seen act x₀ (m ++ m') = seen act (seen act x₀ m) m' := by
  rw [seen, List.filterMap_append, List.foldl_append]
  rfl

theorem seen_told (m : List Event) (cs : List Call) :
    seen act x₀ (m ++ cs.map .told) = cs.foldl act (seen act x₀ m) := by
  have calls : (cs.map Event.told).filterMap Event.call? = cs := by
    rw [List.filterMap_map]
    exact List.filterMap_some
  rw [seen, List.filterMap_append, List.foldl_append, calls]
  rfl

/-- An event that is no call is not seen. -/
theorem seen_concat (m : List Event) {e : Event} (h : e.call? = none) :
    seen act x₀ (m ++ [e]) = seen act x₀ m := by
  rw [seen, List.filterMap_append, List.filterMap_cons, h, List.filterMap_nil, List.append_nil]
  rfl

/-- What there is to see when a command is done with. -/
structure Milestone (X : Type) where
  sight : X
  state : PlaybackState
  /-- The wait after the command. -/
  length : Duration

/-- What there is to see at a turn, if a command is done with. -/
def Turn.milestone? (view : W → X) : Turn Player Question Question.Answer W → Option (Milestone X)
  | ⟨p, .pause .pacing length, _, w⟩ => some ⟨view w, p.state, length⟩
  | _ => none

/-- What there is to see whenever a command is done with, in order. -/
def milestones (view : W → X) (T : List (Turn Player Question Question.Answer W)) :
    List (Milestone X) :=
  T.filterMap (Turn.milestone? view)

/-- What events let see, whenever a command is done with. -/
def milestonesOf (act : X → Call → X) : X → List Event → List (Milestone X)
  | _, [] => []
  | x, .told c :: es => milestonesOf act (act x c) es
  | x, .paced state length :: es => ⟨x, state, length⟩ :: milestonesOf act x es
  | x, .began :: es => milestonesOf act x es
  | x, .idled _ :: es => milestonesOf act x es

theorem milestonesOf_append (es es' : List Event) :
    milestonesOf act x₀ (es ++ es') =
      milestonesOf act x₀ es ++ milestonesOf act (seen act x₀ es) es' := by
  induction es generalizing x₀ with
  | nil => rfl
  | cons e es ih =>
    cases e with
    | told c => exact ih (act x₀ c)
    | paced state length => exact congrArg (List.cons _) (ih x₀)
    | began => exact ih x₀
    | idled length => exact ih x₀

theorem milestonesOf_told (cs : List Call) : milestonesOf act x₀ (cs.map .told) = [] := by
  induction cs generalizing x₀ with
  | nil => rfl
  | cons c cs ih => exact ih (act x₀ c)

/-- The first events let see the first milestones. -/
theorem prefix_milestonesOf {es es' : List Event} (h : es <+: es') :
    milestonesOf act x₀ es <+: milestonesOf act x₀ es' := by
  obtain ⟨more, rfl⟩ := h
  rw [milestonesOf_append]
  exact List.prefix_append _ _

/-- If the events make what can be seen whenever a command is done with, the milestones follow from
them. -/
theorem milestones_eq {view : W → X} {T : List (Turn Player Question Question.Answer W)}
    (h : ∀ A t B, T = A ++ t :: B → (∃ length, t.question = .pause .pacing length) →
      view t.world = seen act x₀ (events A)) :
    milestones view T = milestonesOf act x₀ (events T) := by
  induction T generalizing x₀ with
  | nil => rfl
  | cons t T ih =>
    have rest : ∀ x, (∀ es, seen act x₀ (t.event?.toList ++ es) = seen act x es) →
        milestones view T = milestonesOf act x (events T) := fun x same =>
      ih x fun A u B split paces => by
        rw [h (t :: A) u B (congrArg (List.cons t) split) paces, events_cons, same]
    rw [milestones, List.filterMap_cons, ← milestones, events_cons]
    obtain ⟨p, q, r, w⟩ := t
    cases q with
    | call handle c =>
      cases r with
      | ok reply => exact rest (act x₀ c) fun _ => rfl
      | error cause => exact rest x₀ fun _ => rfl
    | pause purpose length =>
      cases purpose with
      | pacing =>
        have now : view w = x₀ := h [] _ T rfl ⟨length, rfl⟩
        show ⟨view w, p.state, length⟩ :: milestones view T =
          ⟨x₀, p.state, length⟩ :: milestonesOf act x₀ (events T)
        rw [now, rest x₀ fun _ => rfl]
      | idling => exact rest x₀ fun _ => rfl
      | retrying => exact rest x₀ fun _ => rfl
    | nextScript => exact rest x₀ fun _ => rfl
    | connect => exact rest x₀ fun _ => rfl
    | stopping => exact rest x₀ fun _ => rfl
    | roll limit positive => exact rest x₀ fun _ => rfl
    | report message => exact rest x₀ fun _ => rfl

end

/-! ### Fair worlds -/

/-- A world that asks for no stop, leaves no script, and at worst cannot be reached.  What can be
seen of it is what the calls make of it; a call that fails may or may not have come through.  If the
world is sure, nothing fails. -/
structure Fair {X W : Type} (answer : (q : Question) → W → q.Answer × W) (act : X → Call → X)
    (view : W → X) (inv : W → Prop) (sure : Prop) : Prop where
  stopping : ∀ w, inv w → (answer .stopping w).1 = false
  nextScript : ∀ w, inv w → (answer .nextScript w).1 = none
  quiet : ∀ w q, inv w → q ≠ .connect → (∀ handle c, q ≠ .call handle c) →
    inv (answer q w).2 ∧ view (answer q w).2 = view w
  connect : ∀ w, inv w → inv (answer .connect w).2 ∧ view (answer .connect w).2 = view w ∧
    ∀ cause, (answer .connect w).1 = .error cause → cause.isConnectivity = true ∧ ¬sure
  call : ∀ w handle c, inv w → c.isSetting = true →
    inv (answer (.call handle c) w).2 ∧
    ((∃ reply, (answer (.call handle c) w).1 = .ok reply) ∧
        view (answer (.call handle c) w).2 = act (view w) c ∨
      (∃ cause, (answer (.call handle c) w).1 = .error cause ∧ cause.isConnectivity = true ∧
          ¬sure) ∧
        (view (answer (.call handle c) w).2 = view w ∨
          view (answer (.call handle c) w).2 = act (view w) c))
  again : ∀ x c, c.isSetting = true → act (act x c) c = act x c

section

variable {X W : Type}

/-- The events so far; and whenever a command is done with, they have made the world what it is. -/
def course (act : X → Call → X) (view : W → X) (x₀ : X) :
    Chronicle (List Event) Player Question Question.Answer W where
  step m t := m ++ t.event?.toList
  along m t := ∀ length, t.question = .pause .pacing length → view t.world = seen act x₀ m

theorem course_after (act : X → Call → X) (view : W → X) (x₀ : X) (m : List Event)
    (T : List (Turn Player Question Question.Answer W)) :
    (course act view x₀).after m T = m ++ events T := by
  induction T generalizing m with
  | nil => exact (List.append_nil m).symm
  | cons t T ih =>
    refine (ih (m ++ t.event?.toList)).trans ?_
    rw [List.append_assoc, events_cons]

end

namespace Fair

variable {X W : Type} {answer : (q : Question) → W → q.Answer × W} {act : X → Call → X}
variable {view : W → X} {inv : W → Prop} {sure : Prop}
variable {x₀ : X} {script : Script}

/-- Where playback is in a command: some of its calls have been carried out, and others are left.
Making those that are left gives what the whole command gives. -/
structure Left (act : X → Call → X) (view : W → X) (inv : W → Prop) (x₀ : X) (m₀ : List Event)
    (calls left : List Call) (m : List Event) (w : W) : Prop where
  made : ∃ done, m = m₀ ++ done.map .told ∧ done ++ left = calls
  fair : inv w
  view : left.foldl act (view w) = calls.foldl act (seen act x₀ m₀)

section

variable {m₀ : List Event} {s₀ : PlaybackState} {c : Command}

/-- The events so far, of an asker whose player is `p` but for the state. -/
abbrev courseOf (act : X → Call → X) (view : W → X) (x₀ : X) (p : Player) :
    Chronicle (List Event) PlaybackState Question Question.Answer W :=
  (course act view x₀).comap fun state => { p with state }

/-- A call is carried out, or it is left to be made again. -/
theorem takes_send (fair : Fair answer act view inv sure) (p : Player) (x₀ : X)
    (m₀ : List Event) (calls left : List Call) (good : PlaybackState → Prop) (handle : Nat)
    {c : Call} (setting : c.isSetting = true) :
    Takes answer (courseOf act view x₀ p)
      (fun m s w => Left act view inv x₀ m₀ calls (c :: left) m w ∧ good s) (Execution.send handle c)
      (atEnd (fun _ m s w => Left act view inv x₀ m₀ calls left m w ∧ good s) fun cause m s w =>
        (Left act view inv x₀ m₀ calls (c :: left) m w ∧ good s) ∧ cause.isConnectivity = true ∧
          ¬sure) := by
  rintro m s w ⟨h, hs⟩
  obtain ⟨done, rfl, hdone⟩ := h.made
  rw [Execution.send, leads_ask_bind]
  obtain ⟨hinv, carried | failed⟩ := fair.call w handle c h.fair setting
  · obtain ⟨⟨reply, hr⟩, hview⟩ := carried
    generalize answer (.call handle c) w = a at hinv hr hview ⊢
    obtain ⟨r, w'⟩ := a
    dsimp only at hr hinv hview
    subst hr
    refine ⟨⟨nofun, trivial⟩, ⟨⟨done ++ [c], ?_, ?_⟩, hinv, ?_⟩, hs⟩
    · show (m₀ ++ done.map .told) ++ [.told c] = _
      rw [List.map_append, List.append_assoc]
      rfl
    · rw [← hdone, List.append_assoc]
      rfl
    · show left.foldl act (view w') = _
      rw [hview]
      exact h.view
  · obtain ⟨⟨cause, hr, conn, unsure⟩, hview⟩ := failed
    generalize answer (.call handle c) w = a at hinv hr hview ⊢
    obtain ⟨r, w'⟩ := a
    dsimp only at hr hinv hview
    subst hr
    refine ⟨⟨nofun, trivial⟩, ⟨⟨⟨done, List.append_nil _, hdone⟩, hinv, ?_⟩, hs⟩, conn, unsure⟩
    show (c :: left).foldl act (view w') = _
    rw [← h.view, List.foldl_cons, List.foldl_cons]
    -- a call that has come through may be made again
    rcases hview with hview | hview
    · rw [hview]
    · rw [hview, fair.again _ _ setting]

/-- The bulb is turned off, unless it is; then other calls are left. -/
theorem takes_powerOff (fair : Fair answer act view inv sure) (p : Player) (x₀ : X)
    (m₀ : List Event) (calls left : List Call) (time : Int64) (handle : Nat) :
    Takes answer (courseOf act view x₀ p)
      (fun m s w => Left act view inv x₀ m₀ calls (s.offCalls ++ left) m w ∧ s.timeAdjust = time)
      (Execution.powerOff handle)
      (atEnd (fun _ m s w => Left act view inv x₀ m₀ calls left m w ∧ s = ⟨.off, time⟩)
        fun cause m s w =>
          (Left act view inv x₀ m₀ calls (s.offCalls ++ left) m w ∧ s.timeAdjust = time) ∧
            cause.isConnectivity = true ∧ ¬sure) := by
  refine takes_get_bind fun s => takes_ite (fun on => ?_) fun off => ?_
  · have calls_on : s.offCalls = [.turnOff] := if_pos on
    have sends := takes_send fair p x₀ m₀ calls left (fun s' => s' = s ∧ s.timeAdjust = time)
      handle (c := .turnOff) rfl
    refine takes_bind (sends.mono ?_ fun _ _ _ _ h => h) (fun _ => takes_modify ?_) ?_
    · rintro m s' w ⟨⟨h, time⟩, rfl⟩
      rw [calls_on] at h
      exact ⟨h, rfl, time⟩
    · rintro m s' w ⟨h, rfl, rfl⟩
      exact ⟨h, rfl⟩
    · rintro cause m s' w ⟨⟨h, rfl, time⟩, failed⟩
      exact ⟨⟨by rw [calls_on]; exact h, time⟩, failed⟩
  · have calls_off : s.offCalls = [] := if_neg off
    refine takes_pure ?_
    rintro m s' w ⟨⟨h, rfl⟩, rfl⟩
    rw [calls_off] at h
    obtain ⟨power, time⟩ := s'
    cases power with
    | on => exact absurd rfl off
    | off => exact ⟨h, rfl⟩

/-- The bulb is turned on, unless it is; then other calls are left. -/
theorem takes_powerOn (fair : Fair answer act view inv sure) (p : Player) (x₀ : X)
    (m₀ : List Event) (calls left : List Call) (time : Int64) (handle : Nat) :
    Takes answer (courseOf act view x₀ p)
      (fun m s w => Left act view inv x₀ m₀ calls (s.onCalls ++ left) m w ∧ s.timeAdjust = time)
      (Execution.powerOn handle)
      (atEnd (fun _ m s w => Left act view inv x₀ m₀ calls left m w ∧ s = ⟨.on, time⟩)
        fun cause m s w =>
          (Left act view inv x₀ m₀ calls (s.onCalls ++ left) m w ∧ s.timeAdjust = time) ∧
            cause.isConnectivity = true ∧ ¬sure) := by
  refine takes_get_bind fun s => takes_ite (fun off => ?_) fun on => ?_
  · have calls_off : s.onCalls = [.turnOn] := if_pos off
    have sends := takes_send fair p x₀ m₀ calls left (fun s' => s' = s ∧ s.timeAdjust = time)
      handle (c := .turnOn) rfl
    refine takes_bind (sends.mono ?_ fun _ _ _ _ h => h) (fun _ => takes_modify ?_) ?_
    · rintro m s' w ⟨⟨h, time⟩, rfl⟩
      rw [calls_off] at h
      exact ⟨h, rfl, time⟩
    · rintro m s' w ⟨h, rfl, rfl⟩
      exact ⟨h, rfl⟩
    · rintro cause m s' w ⟨⟨h, rfl, time⟩, failed⟩
      exact ⟨⟨by rw [calls_off]; exact h, time⟩, failed⟩
  · have calls_on : s.onCalls = [] := if_neg on
    refine takes_pure ?_
    rintro m s' w ⟨⟨h, rfl⟩, rfl⟩
    rw [calls_on] at h
    obtain ⟨power, time⟩ := s'
    cases power with
    | on => exact ⟨h, rfl⟩
    | off => exact absurd rfl on

/-- A command is tried: what it still has to do leads to where it led at first. -/
structure Trying (act : X → Call → X) (view : W → X) (inv : W → Prop) (x₀ : X) (m₀ : List Event)
    (s₀ : PlaybackState) (c : Command) (m : List Event) (s : PlaybackState) (w : W) : Prop where
  left : Left act view inv x₀ m₀ (c.calls s₀) (c.calls s) m w
  next : c.next s = c.next s₀

/-- What holds after a command's calls: they are all made, or the command is to be tried again. -/
def afterTry (act : X → Call → X) (view : W → X) (inv : W → Prop) (sure : Prop) (x₀ : X)
    (m₀ : List Event) (s₀ : PlaybackState) (c : Command) :
    Except BulbError Unit → List Event → PlaybackState → W → Prop
  | .ok _ => fun m s w => Left act view inv x₀ m₀ (c.calls s₀) [] m w ∧ s = c.next s₀
  | .error cause => fun m s w =>
    Trying act view inv x₀ m₀ s₀ c m s w ∧ cause.isConnectivity = true ∧ ¬sure

/-- A colour is set while the bulb is on, and black turns it off. -/
theorem takes_colour (fair : Fair answer act view inv sure) (p : Player) (handle : Nat)
    {black : Prop} [Decidable black] {call : Call} {sends : Execution Unit}
    (calls : ∀ s, c.calls s = if black then s.offCalls else s.onCalls ++ [call])
    (next : ∀ s, c.next s = ⟨if black then .off else .on, s.timeAdjust⟩)
    (sent : Takes answer (courseOf act view x₀ p)
      (fun m s w => Left act view inv x₀ m₀ (c.calls s₀) [call] m w ∧ s = ⟨.on, s₀.timeAdjust⟩) sends
      (atEnd (fun _ m s w => Left act view inv x₀ m₀ (c.calls s₀) [] m w ∧ s = ⟨.on, s₀.timeAdjust⟩)
        fun cause m s w => (Left act view inv x₀ m₀ (c.calls s₀) [call] m w ∧
          s = ⟨.on, s₀.timeAdjust⟩) ∧ cause.isConnectivity = true ∧ ¬sure)) :
    Takes answer (courseOf act view x₀ p) (Trying act view inv x₀ m₀ s₀ c)
      (if black then Execution.powerOff handle else do Execution.powerOn handle; sends)
      (afterTry act view inv sure x₀ m₀ s₀ c) := by
  have time : ∀ {s}, c.next s = c.next s₀ → s.timeAdjust = s₀.timeAdjust := by
    intro s h
    rw [next, next] at h
    exact (PlaybackState.mk.inj h).2
  have back : ∀ {s : PlaybackState}, s.timeAdjust = s₀.timeAdjust → c.next s = c.next s₀ := by
    intro s h
    rw [next, next, h]
  refine takes_ite (fun hb => ?_) fun hb => ?_
  · -- black turns the light off, and that is all
    have calls' : ∀ s, c.calls s = s.offCalls ++ [] := fun s => by
      rw [calls, if_pos hb, List.append_nil]
    have off := takes_powerOff fair p x₀ m₀ (c.calls s₀) [] s₀.timeAdjust handle
    refine off.mono (fun m s w h => ?_) fun r m s w hr => ?_
    · exact ⟨calls' s ▸ h.left, time h.next⟩
    · cases r with
      | ok _ =>
        refine ⟨hr.1, ?_⟩
        rw [next, if_pos hb]
        exact hr.2
      | error cause => exact ⟨⟨by rw [calls' s]; exact hr.1.1, back hr.1.2⟩, hr.2⟩
  · -- the light is turned on before the colour is set; a loss of either leaves both to be tried
    have calls' : ∀ s, c.calls s = s.onCalls ++ [call] := fun s => by rw [calls, if_neg hb]
    have on := takes_powerOn fair p x₀ m₀ (c.calls s₀) [call] s₀.timeAdjust handle
    refine takes_bind (on.mono (fun m s w h => ?_) fun _ _ _ _ h => h) (fun _ => ?_) ?_
    · exact ⟨calls' s ▸ h.left, time h.next⟩
    · refine sent.mono (fun _ _ _ h => h) fun r m s w hr => ?_
      cases r with
      | ok _ =>
        refine ⟨hr.1, ?_⟩
        rw [next, if_neg hb]
        exact hr.2
      | error cause =>
        obtain ⟨⟨h, rfl⟩, failed⟩ := hr
        exact ⟨⟨calls' ⟨.on, s₀.timeAdjust⟩ ▸ h, back rfl⟩, failed⟩
    · exact fun cause m s w h => ⟨⟨by rw [calls' s]; exact h.1.1, back h.1.2⟩, h.2⟩

/-- A plain command makes the calls that it has to make. -/
theorem takes_perform (fair : Fair answer act view inv sure) (p : Player) (handle : Nat)
    (plain : c.isPlain = true) :
    Takes answer (courseOf act view x₀ p) (Trying act view inv x₀ m₀ s₀ c) (perform handle c)
      (afterTry act view inv sure x₀ m₀ s₀ c) := by
  have sent : ∀ {call : Call}, call.isSetting = true → Takes answer (courseOf act view x₀ p)
      (fun m s w => Left act view inv x₀ m₀ (c.calls s₀) [call] m w ∧ s = ⟨.on, s₀.timeAdjust⟩)
      (Execution.send handle call)
      (atEnd (fun _ m s w => Left act view inv x₀ m₀ (c.calls s₀) [] m w ∧ s = ⟨.on, s₀.timeAdjust⟩)
        fun cause m s w => (Left act view inv x₀ m₀ (c.calls s₀) [call] m w ∧
          s = ⟨.on, s₀.timeAdjust⟩) ∧ cause.isConnectivity = true ∧ ¬sure) :=
    takes_send fair p x₀ m₀ (c.calls s₀) [] (· = ⟨.on, s₀.timeAdjust⟩) handle
  -- a command without calls has nothing to try again
  have quiet : (∀ s, c.calls s = []) → ∀ {m s w}, Trying act view inv x₀ m₀ s₀ c m s w →
      Left act view inv x₀ m₀ (c.calls s₀) [] m w := by
    intro none m s w h
    rw [← none s]
    exact h.left
  rw [perform]
  cases does : c.instruction with
  | fade =>
    have calls : ∀ s, c.calls s = [.setTransition (fadeSeconds (c.param 0))] := fun s => by
      rw [Command.calls, does]
    have next : ∀ s, c.next s = s := fun s => by rw [Command.next, does]
    have sends := takes_send fair p x₀ m₀ (c.calls s₀) [] (· = s₀) handle
      (c := .setTransition (fadeSeconds (c.param 0))) rfl
    refine sends.mono (fun m s w h => ?_) fun r m s w hr => ?_
    · have same := h.next
      rw [next, next] at same
      exact ⟨calls s ▸ h.left, same⟩
    · cases r with
      | ok _ => exact ⟨hr.1, hr.2.trans (next s₀).symm⟩
      | error cause =>
        obtain ⟨⟨h, rfl⟩, failed⟩ := hr
        exact ⟨⟨calls s ▸ h, rfl⟩, failed⟩
  | timeAdjust =>
    have calls : ∀ s, c.calls s = [] := fun s => by rw [Command.calls, does]
    have next : ∀ s, c.next s = s.adjustTime (c.param 0) := fun s => by rw [Command.next, does]
    exact takes_modify fun m s w h => ⟨quiet calls h, (next s).symm.trans h.next⟩
  | hsb =>
    exact takes_colour fair p handle (fun s => by rw [Command.calls, does])
      (fun s => by rw [Command.next, does]) (sent rfl)
  | rgb =>
    exact takes_colour fair p handle (fun s => by rw [Command.calls, does])
      (fun s => by rw [Command.next, does]) (sent rfl)
  | unknown code =>
    have calls : ∀ s, c.calls s = [] := fun s => by rw [Command.calls, does]
    have next : ∀ s, c.next s = s := fun s => by rw [Command.next, does]
    exact takes_pure fun m s w h => ⟨quiet calls h, (next s).symm.trans h.next⟩
  | hsbJitter => rw [Command.isPlain, does] at plain; cases plain
  | rgbJitter => rw [Command.isPlain, does] at plain; cases plain

/-- What holds of a player whose command is tried. -/
def Underway (act : X → Call → X) (view : W → X) (inv : W → Prop) (x₀ : X) (script : Script)
    (m₀ : List Event) (s₀ : PlaybackState) (c : Command) (m : List Event) (p : Player) (w : W) :
    Prop :=
  Trying act view inv x₀ m₀ s₀ c m p.state w ∧ p.script = script

/-- What holds after a command: all its calls are made, and it is to be waited for. -/
def tried (act : X → Call → X) (view : W → X) (inv : W → Prop) (x₀ : X) (script : Script)
    (m₀ : List Event) (s₀ : PlaybackState) (c : Command) : Dispatch → List Event → Player → W → Prop
  | .skip => fun _ _ _ => False
  | .sleep length => fun m p w => Left act view inv x₀ m₀ (c.calls s₀) [] m w ∧
      p.state = c.next s₀ ∧ p.script = script ∧
      length = tickPause c.delay (c.next s₀).timeAdjust

/-- What holds after a failure: the bulb could not be reached, and the command is still tried. -/
def missed (act : X → Call → X) (view : W → X) (inv : W → Prop) (sure : Prop) (x₀ : X)
    (script : Script) (m₀ : List Event) (s₀ : PlaybackState) (c : Command) (cause : BulbError)
    (m : List Event) (p : Player) (w : W) : Prop :=
  Underway act view inv x₀ script m₀ s₀ c m p w ∧ cause.isConnectivity = true ∧ ¬sure

/-- What holds when the fuel has run out: some of a number of events have happened. -/
def unfinished (m₀ more : List Event) (halt : Halt) (m : List Event) (_ : Player) (_ : W) : Prop :=
  halt = .unfinished ∧ m <+: m₀ ++ more

theorem Left.move {calls left : List Call} {m : List Event} {w v : W}
    (h : Left act view inv x₀ m₀ calls left m w) (fair : inv v) (same : view v = view w) :
    Left act view inv x₀ m₀ calls left m v :=
  ⟨h.made, fair, by rw [same]; exact h.view⟩

/-- A question that is neither a connect nor a call does not disturb a command. -/
theorem quiet_underway (fair : Fair answer act view inv sure) {m : List Event} {p : Player} {w : W}
    (h : Underway act view inv x₀ script m₀ s₀ c m p w) {q : Question}
    (quiet : Turn.event? (⟨p, q, (answer q w).1, w⟩ : Turn Player Question Question.Answer W) = none)
    (connect : q ≠ .connect) (call : ∀ handle c, q ≠ .call handle c) :
    (course act view x₀).along m ⟨p, q, (answer q w).1, w⟩ ∧
      Underway act view inv x₀ script m₀ s₀ c
        ((course act view x₀).step m ⟨p, q, (answer q w).1, w⟩) p (answer q w).2 := by
  obtain ⟨after, same⟩ := fair.quiet w q h.1.left.fair connect call
  refine ⟨fun length paces => ?_, ?_⟩
  · dsimp only at paces
    subst paces
    exact absurd quiet nofun
  · show Underway act view inv x₀ script m₀ s₀ c (m ++ (Turn.event? _).toList) p _
    rw [quiet]
    show Underway act view inv x₀ script m₀ s₀ c (m ++ []) p _
    rw [List.append_nil]
    exact ⟨⟨h.1.left.move after same, h.1.next⟩, h.2⟩

theorem unmoved (fair : Fair answer act view inv sure) :
    Player.Unmoved answer (course act view x₀) (Underway act view inv x₀ script m₀ s₀ c)
      (missed act view inv sure x₀ script m₀ s₀ c)
      (unfinished m₀ ((c.calls s₀).map .told)) where
  connect := takes_ask.mpr fun m p w h => by
    obtain ⟨after, same, failed⟩ := fair.connect w h.1.left.fair
    have still : Underway act view inv x₀ script m₀ s₀ c m p (answer .connect w).2 :=
      ⟨⟨h.1.left.move after same, h.1.next⟩, h.2⟩
    refine ⟨nofun, ?_⟩
    show Player.outcome _ _ _ (m ++ []) p _
    rw [List.append_nil]
    cases hr : (answer .connect w).1 with
    | ok handle => exact still
    | error cause => exact ⟨still, failed cause hr⟩
  stopping := keeps_ask fun _ _ _ h => quiet_underway fair h rfl nofun fun _ _ => nofun
  retrying _ := keeps_ask fun _ _ _ h => quiet_underway fair h rfl nofun fun _ _ => nofun
  report _ := keeps_ask fun _ _ _ h => quiet_underway fair h rfl nofun fun _ _ => nofun
  backoff _ _ _ _ h := h
  handle _ _ _ _ h := h
  reconnects _ _ _ _ h := h
  retry _ _ _ _ _ h := h.1
  final cause _ _ _ final h := absurd (final.symm.trans h.2.1) nofun
  unfinished m p w h := by
    obtain ⟨done, rfl, hdone⟩ := h.1.left.made
    refine ⟨rfl, (List.prefix_append_right_inj m₀).mpr ?_⟩
    rw [← hdone, List.map_append]
    exact List.prefix_append _ _

theorem takes_attempt (fair : Fair answer act view inv sure) (plain : c.isPlain = true)
    (handle : Nat) :
    Takes answer (course act view x₀) (Underway act view inv x₀ script m₀ s₀ c)
      (Player.attempt handle c)
      (Player.outcome (tried act view inv x₀ script m₀ s₀ c)
        (missed act view inv sure x₀ script m₀ s₀ c)) := by
  refine Player.takes_attempt fun p => ?_
  -- no stop is requested
  have asked : Takes answer (ε := BulbError) (courseOf act view x₀ p)
      (fun m state w => Underway act view inv x₀ script m₀ s₀ c m { p with state } w)
      (Talk.ask .stopping)
      (atEnd (fun stop m state w => stop = false ∧
        Underway act view inv x₀ script m₀ s₀ c m { p with state } w) fun _ _ _ _ => False) := by
    refine takes_ask.mpr fun m s w h => ?_
    obtain ⟨along, after⟩ := quiet_underway fair h (q := .stopping) rfl nofun fun _ _ => nofun
    exact ⟨along, fair.stopping w h.1.left.fair, after⟩
  have performs : Takes answer (courseOf act view x₀ p) (Trying act view inv x₀ m₀ s₀ c)
      (perform handle c) (afterTry act view inv sure x₀ m₀ s₀ c) :=
    takes_perform fair p handle plain
  refine takes_bind asked (fun stop => takes_ite (fun stops => ?_) fun _ => ?_)
    fun _ _ _ _ => False.elim
  · exact takes_pure fun m s w h => absurd (h.1.symm.trans stops) nofun
  · by_cases same : p.script = script
    · refine takes_bind (performs.mono (fun _ _ _ h => h.2.1) fun _ _ _ _ h => h) (fun _ => ?_)
        fun cause m s w h => ⟨⟨h.1, same⟩, h.2⟩
      refine takes_get_bind fun s => takes_pure ?_
      rintro m s' w ⟨⟨left, rfl⟩, rfl⟩
      exact ⟨left, rfl, same, rfl⟩
    · exact fun m s w h => absurd h.2.2 same

theorem takes_openHandle (fair : Fair answer act view inv sure) :
    Takes answer (course act view x₀) (Underway act view inv x₀ script m₀ s₀ c) Player.openHandle
      (Player.opening (fun _ _ _ => False) (Underway act view inv x₀ script m₀ s₀ c)
        (missed act view inv sure x₀ script m₀ s₀ c)) := by
  refine (unmoved fair).takes_openHandle (takes_ask.mpr fun m p w h => ?_)
  obtain ⟨along, after⟩ := quiet_underway fair h (q := .stopping) rfl nofun fun _ _ => nofun
  refine ⟨along, ?_⟩
  rw [fair.stopping w h.1.left.fair] at after ⊢
  exact after

/-- Where playback of a script is, with the events so far and the state. -/
structure At (act : X → Call → X) (view : W → X) (inv : W → Prop) (x₀ : X) (script : Script)
    (m₀ : List Event) (s : PlaybackState) (m : List Event) (p : Player) (w : W) : Prop where
  events : m = m₀
  state : p.state = s
  script : p.script = script
  fair : inv w
  view : view w = seen act x₀ m₀

/-- What holds when playback could not go on: the fuel has run out, at once if nothing is lost. -/
def broken (sure : Prop) (fuel : Nat) (m₀ more : List Event) (halt : Halt) (m : List Event)
    (_ : Player) (_ : W) : Prop :=
  halt = .unfinished ∧ m <+: m₀ ++ more ∧ (fuel = 0 → m = m₀) ∧ (sure → fuel = 0)

theorem takes_dispatch (fair : Fair answer act view inv sure) (plain : c.isPlain = true)
    (fuel : Nat) :
    Takes answer (course act view x₀) (At act view inv x₀ script m₀ s₀) (Player.dispatch c fuel)
      (atEnd (fun d m p w => fuel ≠ 0 ∧ tried act view inv x₀ script m₀ s₀ c d m p w)
        (broken sure fuel m₀ ((c.calls s₀).map .told))) := by
  have begins : ∀ m p w, At act view inv x₀ script m₀ s₀ m p w →
      Underway act view inv x₀ script m₀ s₀ c m p w := by
    intro m p w h
    refine ⟨⟨⟨⟨[], ?_, ?_⟩, h.fair, ?_⟩, ?_⟩, h.script⟩
    · exact h.events.trans (List.append_nil m₀).symm
    · rw [h.state]
      rfl
    · rw [h.state, h.view]
    · rw [h.state]
  have reset : ∀ d m p w backoff, tried act view inv x₀ script m₀ s₀ c d m p w →
      tried act view inv x₀ script m₀ s₀ c d m { p with backoff } w := by
    intro d m p w backoff h
    cases d <;> exact h
  have opens : Takes answer (course act view x₀) (Underway act view inv x₀ script m₀ s₀ c)
      Player.openHandle (Player.opening (tried act view inv x₀ script m₀ s₀ c .skip)
        (Underway act view inv x₀ script m₀ s₀ c) (missed act view inv sure x₀ script m₀ s₀ c)) :=
    takes_openHandle fair
  cases fuel with
  | zero =>
    refine takes_throw fun m p w h => ⟨rfl, ?_, fun _ => h.events, fun _ => rfl⟩
    rw [h.events]
    exact List.prefix_append _ _
  | succ fuel =>
    by_cases certain : sure
    · refine (Player.takes_dispatch_once (fun _ _ _ _ h => h.2.2 certain) opens
        (takes_attempt fair plain) reset fuel).mono begins fun r m p w hr => ?_
      cases r with
      | ok d => exact ⟨nofun, hr⟩
      | error halt => exact hr.elim
    · refine ((unmoved fair).takes_dispatch opens (takes_attempt fair plain) reset
        (fuel + 1)).mono begins fun r m p w hr => ?_
      cases r with
      | ok d => exact ⟨nofun, hr⟩
      | error halt => exact ⟨hr.1, hr.2, nofun, fun h => absurd h certain⟩

theorem takes_pace (fair : Fair answer act view inv sure) (fuel : Nat) (d : Dispatch) :
    Takes answer (course act view x₀)
      (fun m p w => fuel ≠ 0 ∧ tried act view inv x₀ script m₀ s₀ c d m p w) (Player.pace d)
      (atEnd (fun _ m p w => fuel ≠ 0 ∧ At act view inv x₀ script
          (m₀ ++ c.events s₀) (c.next s₀) m p w)
        fun _ _ _ _ => False) := by
  cases d with
  | skip => exact fun m p w h => h.2.elim
  | sleep length =>
    have waits : Takes answer (ε := Halt) (course act view x₀)
        (fun m p w => fuel ≠ 0 ∧ tried act view inv x₀ script m₀ s₀ c (.sleep length) m p w)
        (Player.ask (.pause .pacing length))
        (atEnd (fun _ m p w => fuel ≠ 0 ∧ At act view inv x₀ script
          (m₀ ++ c.events s₀) (c.next s₀) m p w)
        fun _ _ _ _ => False) := by
      refine takes_ask.mpr ?_
      rintro m p w ⟨fueled, left, hstate, hscript, rfl⟩
      obtain ⟨after, same⟩ := fair.quiet w (.pause .pacing _) left.fair nofun fun _ _ => nofun
      obtain ⟨done, rfl, hdone⟩ := left.made
      rw [List.append_nil] at hdone
      subst hdone
      have here : view w = seen act x₀ (m₀ ++ (c.calls s₀).map .told) := by
        rw [seen_told]
        exact left.view
      refine ⟨fun _ _ => here, fueled, ?_, hstate, hscript, after, ?_⟩
      · show m₀ ++ _ ++ [Event.paced p.state _] = _
        rw [hstate, List.append_assoc]
        rfl
      · rw [Command.events, ← List.append_assoc, seen_concat act x₀ _ rfl]
        exact same.trans here
    exact takes_modify_bind waits fun _ _ _ h => h

theorem takes_carryOut (fair : Fair answer act view inv sure) (plain : c.isPlain = true)
    (fuel : Nat) :
    Takes answer (course act view x₀) (At act view inv x₀ script m₀ s₀) (Player.carryOut fuel c)
      (atEnd (fun _ m p w => fuel ≠ 0 ∧ At act view inv x₀ script
          (m₀ ++ c.events s₀) (c.next s₀) m p w)
        (broken sure fuel m₀ (c.events s₀))) := by
  have carried : Takes answer (course act view x₀) (At act view inv x₀ script m₀ s₀)
      (Player.dispatch c fuel >>= fun d => Player.pace d >>= fun _ =>
        modify fun p => { p with current := none })
      (atEnd (fun _ m p w => fuel ≠ 0 ∧ At act view inv x₀ script
          (m₀ ++ c.events s₀) (c.next s₀) m p w)
        (broken sure fuel m₀ (c.events s₀))) := by
    refine takes_bind (takes_dispatch fair plain fuel) (fun d => ?_) fun halt m p w h => ?_
    · refine takes_bind (takes_pace fair fuel d) (fun _ => takes_modify fun m p w h => ?_)
        fun _ _ _ _ => False.elim
      exact ⟨h.1, h.2.events, h.2.state, h.2.script, h.2.fair, h.2.view⟩
    · refine ⟨h.1, h.2.1.trans ?_, h.2.2⟩
      exact (List.prefix_append_right_inj m₀).mpr (List.prefix_append _ _)
  exact takes_modify_bind carried fun m p w h => ⟨h.events, h.state, h.script, h.fair, h.view⟩

theorem takes_stopping (fair : Fair answer act view inv sure) :
    Takes answer (ε := Halt) (course act view x₀) (At act view inv x₀ script m₀ s₀)
      (Player.ask .stopping)
      (atEnd (fun stop m p w => stop = false ∧ At act view inv x₀ script m₀ s₀ m p w)
        fun _ _ _ _ => False) := by
  refine takes_ask.mpr fun m p w h => ?_
  obtain ⟨after, same⟩ := fair.quiet w .stopping h.fair nofun fun _ _ => nofun
  refine ⟨nofun, fair.stopping w h.fair, ?_, h.state, h.script, after, same.trans h.view⟩
  exact (List.append_nil m).trans h.events

theorem takes_playCommands (fair : Fair answer act view inv sure) (fuel : Nat)
    {cmds : List Command} (plain : ∀ c ∈ cmds, c.isPlain = true) (m₀ : List Event)
    (s₀ : PlaybackState) :
    Takes answer (course act view x₀) (At act view inv x₀ script m₀ s₀)
      (Player.playCommands fuel cmds)
      (atEnd (fun _ m p w => (cmds ≠ [] → fuel ≠ 0) ∧
          At act view inv x₀ script (m₀ ++ commandEvents s₀ cmds) (stateAfter s₀ cmds) m p w)
        (broken sure fuel m₀ (commandEvents s₀ cmds))) := by
  induction cmds generalizing m₀ s₀ with
  | nil =>
    refine takes_pure fun m p w h => ⟨fun h => absurd rfl h, ?_⟩
    rw [commandEvents, List.append_nil]
    exact h
  | cons c cmds ih =>
    obtain ⟨hc, hcmds⟩ := List.forall_mem_cons.mp plain
    refine takes_bind (takes_stopping fair) (fun stop => takes_ite (fun stops => ?_) fun _ => ?_)
      fun _ _ _ _ => False.elim
    · exact fun m p w h => absurd (h.1.symm.trans stops) nofun
    · refine takes_bind ((takes_carryOut fair hc fuel).mono (fun _ _ _ h => h.2) fun _ _ _ _ h => h)
        (fun _ => ?_) fun halt m p w h => ?_
      · by_cases fueled : fuel = 0
        · exact fun m p w h => absurd fueled h.1
        · refine (ih hcmds _ _).mono (fun _ _ _ h => h.2) fun r m p w hr => ?_
          cases r with
          | ok _ =>
            refine ⟨fun _ => fueled, ?_⟩
            rw [commandEvents, ← List.append_assoc]
            exact hr.2
          | error halt =>
            refine ⟨hr.1, ?_, fun h => absurd h fueled, hr.2.2.2⟩
            rw [commandEvents, ← List.append_assoc]
            exact hr.2.1
      · refine ⟨h.1, h.2.1.trans ?_, h.2.2⟩
        exact (List.prefix_append_right_inj m₀).mpr (List.prefix_append _ _)

/-! ### Passes -/

/-- A look for a script finds none. -/
theorem takes_pickUpScript (fair : Fair answer act view inv sure) :
    Takes answer (course act view x₀) (At act view inv x₀ script m₀ s₀) Player.pickUpScript
      (atEnd (fun _ => At act view inv x₀ script (m₀ ++ [.began]) s₀) fun _ _ _ _ => False) := by
  have looks : Takes answer (ε := Halt) (course act view x₀) (At act view inv x₀ script m₀ s₀)
      (Player.ask .nextScript)
      (atEnd (fun left m p w => left = none ∧ At act view inv x₀ script (m₀ ++ [.began]) s₀ m p w)
        fun _ _ _ _ => False) := by
    refine takes_ask.mpr fun m p w h => ?_
    obtain ⟨after, same⟩ := fair.quiet w .nextScript h.fair nofun fun _ _ => nofun
    refine ⟨nofun, fair.nextScript w h.fair, ?_, h.state, h.script, after, ?_⟩
    · exact congrArg (· ++ [.began]) h.events
    · rw [seen_concat act x₀ m₀ rfl]
      exact same.trans h.view
  refine takes_bind looks (fun left => ?_) fun _ _ _ _ => False.elim
  cases left with
  | none => exact takes_pure fun _ _ _ h => h.2
  | some script => exact fun _ _ _ h => absurd h.1 nofun

/-- What holds if playback ends in a pass: what has happened is a beginning of the pass, and as much
of it as there is fuel for unless something was lost. -/
def brokenPass (sure : Prop) (fuel : Nat) (m₀ all : List Event) (halt : Halt) (m : List Event)
    (_ : Player) (_ : W) : Prop :=
  halt = .unfinished ∧ m <+: m₀ ++ all ∧ (sure → fuel = 0 ∧ m = m₀ ++ all)

/-- A pass without commands waits. -/
theorem takes_idle (fair : Fair answer act view inv sure) (none : script.commands = [])
    (fuel : Nat) (m₀ : List Event) (s₀ : PlaybackState) :
    Takes answer (ε := Halt) (course act view x₀)
      (At act view inv x₀ script (m₀ ++ [.began]) s₀.fresh)
      (Player.ask (.pause .idling Player.idleTime))
      (atEnd (fun _ => At act view inv x₀ script (m₀ ++ passEvents script.commands fuel s₀)
          (stateAfter s₀.fresh script.commands)) fun _ _ _ _ => False) := by
  refine takes_ask.mpr fun m p w h => ?_
  obtain ⟨after, same⟩ :=
    fair.quiet w (.pause .idling Player.idleTime) h.fair nofun fun _ _ => nofun
  rw [passEvents, none]
  refine ⟨nofun, ?_, h.state, h.script, after, ?_⟩
  · show m ++ [Event.idled Player.idleTime] = _
    rw [h.events, List.append_assoc]
    rfl
  · show view _ = seen act x₀ (m₀ ++ ([Event.began] ++ [Event.idled Player.idleTime]))
    rw [← List.append_assoc, seen_concat act x₀ _ rfl]
    exact same.trans h.view

/-- A pass with commands goes through them. -/
theorem takes_commands (fair : Fair answer act view inv sure)
    (plain : ∀ c ∈ script.commands, c.isPlain = true) (some : script.commands ≠ []) (fuel : Nat)
    (m₀ : List Event) (s₀ : PlaybackState) :
    Takes answer (course act view x₀) (At act view inv x₀ script (m₀ ++ [.began]) s₀.fresh)
      (Player.playCommands fuel script.commands)
      (atEnd (fun _ => At act view inv x₀ script (m₀ ++ passEvents script.commands fuel s₀)
          (stateAfter s₀.fresh script.commands))
        (brokenPass sure fuel m₀ (passEvents script.commands fuel s₀))) := by
  have filled : script.commands.isEmpty = false := List.isEmpty_eq_false_iff.mpr some
  have pass : fuel ≠ 0 → m₀ ++ passEvents script.commands fuel s₀ =
      m₀ ++ [.began] ++ commandEvents s₀.fresh script.commands := by
    intro fueled
    rw [passEvents, filled, if_neg fueled, List.append_assoc]
    rfl
  refine (takes_playCommands fair fuel plain (m₀ ++ [.began]) s₀.fresh).mono
    (fun _ _ _ h => h) fun r m p w hr => ?_
  cases r with
  | ok _ =>
    show At act view inv x₀ script (m₀ ++ passEvents _ _ _) _ m p w
    rw [pass (hr.1 some)]
    exact hr.2
  | error halt =>
    obtain ⟨halted, before, atOnce, fueled⟩ := hr
    by_cases empty : fuel = 0
    · have whole : m = m₀ ++ passEvents script.commands fuel s₀ := by
        rw [atOnce empty, passEvents, filled, if_pos empty]
        rfl
      exact ⟨halted, whole ▸ List.prefix_rfl, fun _ => ⟨empty, whole⟩⟩
    · rw [← pass empty] at before
      exact ⟨halted, before, fun h => absurd (fueled h) empty⟩

theorem takes_pass (fair : Fair answer act view inv sure)
    (plain : ∀ c ∈ script.commands, c.isPlain = true) (fuel : Nat) (m₀ : List Event)
    (s₀ : PlaybackState) :
    Takes answer (course act view x₀) (At act view inv x₀ script m₀ s₀) (Player.pass fuel)
      (atEnd (fun _ => At act view inv x₀ script (m₀ ++ passEvents script.commands fuel s₀)
          (stateAfter s₀.fresh script.commands))
        (brokenPass sure fuel m₀ (passEvents script.commands fuel s₀))) := by
  have plays : Takes answer (course act view x₀)
      (At act view inv x₀ script (m₀ ++ [.began]) s₀.fresh)
      (get >>= fun p => if p.script.commands.isEmpty then Player.ask (.pause .idling Player.idleTime)
        else Player.playCommands fuel p.script.commands)
      (atEnd (fun _ => At act view inv x₀ script (m₀ ++ passEvents script.commands fuel s₀)
          (stateAfter s₀.fresh script.commands))
        (brokenPass sure fuel m₀ (passEvents script.commands fuel s₀))) := by
    refine takes_get_bind fun p => ?_
    -- the script that the pass reads is the one that is played
    by_cases same : p.script = script
    · rw [same]
      refine takes_ite (fun empty => ?_) fun nonempty => ?_
      · exact (takes_idle fair (List.isEmpty_iff.mp empty) fuel m₀ s₀).mono (fun _ _ _ h => h.1)
          fun r m p w hr => by cases r with
            | ok _ => exact hr
            | error halt => exact hr.elim
      · exact (takes_commands fair plain (fun none => nonempty (List.isEmpty_iff.mpr none)) fuel m₀
          s₀).mono (fun _ _ _ h => h.1) fun _ _ _ _ h => h
    · exact fun m p' w h => absurd (h.2 ▸ h.1.script) same
  refine takes_bind (takes_pickUpScript fair) (fun _ => ?_) fun _ _ _ _ => False.elim
  refine takes_modify_bind (Surely.bind (keeps_modify fun m p w h => ?_) fun _ => plays)
    fun m p w h => ?_
  · exact ⟨h.events, h.state, h.script, h.fair, h.view⟩
  · exact ⟨h.events, congrArg PlaybackState.fresh h.state, h.script, h.fair, h.view⟩

/-- Passes go on until the fuel has run out.  What happens is a beginning of the rendition of the
script, and all of it if nothing is lost. -/
theorem keeps_play (fair : Fair answer act view inv sure)
    (plain : ∀ c ∈ script.commands, c.isPlain = true) (fuel : Nat) (m₀ : List Event)
    (s₀ : PlaybackState) :
    Takes answer (course act view x₀) (At act view inv x₀ script m₀ s₀) (Player.play fuel)
      fun r m _ _ => r = .error .unfinished ∧ m <+: m₀ ++ rendition script.commands fuel s₀ ∧
        (sure → m = m₀ ++ rendition script.commands fuel s₀) := by
  induction fuel generalizing m₀ s₀ with
  | zero =>
    refine takes_throw fun m p w h => ?_
    rw [rendition, List.append_nil, h.events]
    exact ⟨rfl, List.prefix_rfl, fun _ => rfl⟩
  | succ fuel ih =>
    refine takes_bind (takes_stopping fair) (fun stop => takes_ite (fun stops => ?_) fun _ => ?_)
      fun _ _ _ _ => False.elim
    · exact fun m p w h => absurd (h.1.symm.trans stops) nofun
    · rw [rendition, ← List.append_assoc]
      refine takes_bind ((takes_pass fair plain fuel m₀ s₀).mono (fun _ _ _ h => h.2)
        fun _ _ _ _ h => h) (fun _ => ih _ _) fun halt m p w h => ?_
      obtain ⟨rfl, before, all⟩ := h
      refine ⟨rfl, before.trans (List.prefix_append _ _), fun certain => ?_⟩
      obtain ⟨rfl, whole⟩ := all certain
      rw [whole, rendition, List.append_nil]

/-- What happens in passes over plain commands, and what can be seen meanwhile. -/
theorem leads_play (fair : Fair answer act view inv sure) {p : Player}
    (plain : ∀ c ∈ p.script.commands, c.isPlain = true) {w : W} (hw : inv w) (fuel : Nat) :
    Leads answer (Player.play fuel) p w fun T r _ _ =>
      r = .error .unfinished ∧ events T <+: rendition p.script.commands fuel p.state ∧
        (sure → events T = rendition p.script.commands fuel p.state) ∧
        ∀ A t B, T = A ++ t :: B → (∃ length, t.question = .pause .pacing length) →
          view t.world = seen act (view w) (events A) := by
  have start : At act view inv (view w) p.script [] p.state [] p w := ⟨rfl, rfl, rfl, hw, rfl⟩
  refine (keeps_play fair plain fuel [] p.state [] p w start).mono fun T r _ _ h => ?_
  rw [course_after, List.nil_append, List.nil_append] at h
  refine ⟨h.2.1, h.2.2.1, h.2.2.2, ?_⟩
  rintro A t B rfl ⟨length, paces⟩
  have along := h.1.along_of_split
  rw [course_after, List.nil_append] at along
  exact along length paces

end

end Fair

end Lightshow
