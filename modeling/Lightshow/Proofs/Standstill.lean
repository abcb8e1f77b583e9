/-
Colours that are moved by nothing.

A command that jitters a colour by nothing makes no draw; it reads the colour in one form and writes what it
read.  The form it writes stays as it was, and so does the rest of the light.  The other form is computed
from it, which makes a difference only if the colour was given in that other form, and a conversion does not
lead back to it.

* `perform_channels_still`, `perform_wheel_still` -- the instructions without their jitter;
* `Studio.takes_execute_still` -- what the execution leaves on show, also if it breaks off;
* `formAfter`, `Simulated.follows_sent` -- the form that the colour was given in last is the one that the
  other is computed from;
* `Studio.leads_still` -- what can come out anew.
-/
import Lightshow.Playback.Studio
import Lightshow.Proofs.Comeback
import Lightshow.Proofs.Parts
import Lightshow.Proofs.Performance
import Lightshow.Proofs.Perturbing

namespace Lightshow

open Talk Execution

/-! ### Jitter by nothing -/

theorem toHue_ofNat (h : UInt16) : toHue (Int64.ofNat h.toNat) = h := by
  have small := h.toNat_lt
  have same := toNat_toHue (Int64.toInt_ofNat_of_lt (by omega)) (Nat.le_of_lt_succ small)
  exact UInt16.toNat_inj.mp same

theorem toLevel_ofNat (v : UInt8) : toLevel (Int64.ofNat v.toNat) = v := by
  have small := v.toNat_lt
  have same := toNat_toLevel (Int64.toInt_ofNat_of_lt (by omega)) (Nat.le_of_lt_succ small)
  exact UInt8.toNat_inj.mp same

/-- Moving a level by nothing asks for no draw. -/
theorem jittered_zero (base upper : Int64) : jittered base upper 0 = pure base := by
  rw [jittered, jitter, dif_pos rfl]

/-- The command moves nothing of a colour. -/
def Command.IsStill (c : Command) : Prop := c.param 0 = 0 ∧ c.param 1 = 0 ∧ c.param 2 = 0

theorem perform_channels_still {cmd : Command} {handle : Nat} (still : cmd.IsStill)
    (does : cmd.instruction = .rgbJitter) :
    perform handle cmd = send handle .getRgb >>= fun rgb => send handle (.setRgb rgb) := by
  obtain ⟨first, second, third⟩ := still
  simp only [perform, does, first, second, third, jittered_zero, pure_bind]
  refine bind_congr fun (rgb : Rgb) => ?_
  rw [toLevel_ofNat, toLevel_ofNat, toLevel_ofNat]

theorem perform_wheel_still {cmd : Command} {handle : Nat} (still : cmd.IsStill)
    (does : cmd.instruction = .hsbJitter) :
    perform handle cmd =
      send handle .getHue >>= fun hue => send handle .getSaturation >>= fun saturation =>
        send handle .getBrightness >>= fun brightness =>
          send handle (.setHsb ⟨hue, saturation, brightness⟩) := by
  obtain ⟨first, second, third⟩ := still
  have unstretched : stretchedHue 0 = 0 := by decide
  simp only [perform, does, first, second, third, unstretched, jittered_zero, pure_bind]
  refine bind_congr fun (hue : UInt16) => bind_congr fun (saturation : UInt8) =>
    bind_congr fun (brightness : UInt8) => ?_
  rw [toHue_ofNat, toLevel_ofNat, toLevel_ofNat]

/-! ### A simulated bulb -/

namespace Simulated

/-- Failures that calls will still meet. -/
def troubles (b : Simulated) : Nat := b.failingCalls + b.rejectedCalls

/-- A call is carried out, unless there is a failure for it to meet. -/
theorem perform_troubled (b : Simulated) (c : Call) :
    (∃ b', perform c b = (.ok (b.light.reply c), b') ∧ b'.light = b.light.after c ∧
      b'.troubles = b.troubles) ∨
    ∃ cause b', perform c b = (.error cause, b') ∧ b'.light = b.light ∧
      b'.troubles + 1 = b.troubles := by
  rw [perform]
  by_cases fails : 0 < b.failingCalls
  · rw [if_pos fails]
    exact Or.inr ⟨_, _, rfl, rfl, by simp only [troubles]; omega⟩
  rw [if_neg fails]
  by_cases rejects : 0 < b.rejectedCalls
  · rw [if_pos rejects]
    exact Or.inr ⟨_, _, rfl, rfl, by simp only [troubles]; omega⟩
  · rw [if_neg rejects]
    exact Or.inl ⟨_, rfl, rfl, rfl⟩

end Simulated

/-- The light after a command that moves its colour by nothing: one form of the colour is written as it
was read, and the other is computed again. -/
def Light.again (l : Light) : Instruction → Light
  | .rgbJitter => l.withRgb l.rgb
  | .hsbJitter => l.withHsb l.hsb
  | _ => l

namespace Studio

/-- The light is on show, no draw was made, and no failure was added. -/
structure Shows (l : Light) (s₀ s : Studio) : Prop where
  light : s.bulb.light = l
  draws : s.draws = s₀.draws
  control : s.control = s₀.control
  troubles : s.bulb.troubles ≤ s₀.bulb.troubles

/-- The same with the state of playback, in the form that talks are judged by. -/
def Still (l : Light) (p : PlaybackState) (s₀ : Studio) : Unit → PlaybackState → Studio → Prop :=
  fun _ p' s => Shows l s₀ s ∧ p' = p

variable {l l' : Light} {p : PlaybackState} {s₀ s : Studio} {handle : Nat} {c : Call}
variable {along : Chronicle Unit PlaybackState Question Question.Answer Studio}

/-- A call that has no parts is one call to the bulb. -/
theorem perform_single (single : inSteps Simulated.perform c = Simulated.perform c) (s : Studio) :
    s.perform c = ((s.bulb.perform c).1, { s with bulb := (s.bulb.perform c).2 }) := by
  rw [perform, single, ite_self]

theorem Shows.performed {b : Simulated} (h : Shows l s₀ s) (light : b.light = l')
    (troubles : b.troubles ≤ s.bulb.troubles) : Shows l' s₀ { s with bulb := b } :=
  ⟨light, h.draws, h.control, Nat.le_trans troubles h.troubles⟩

/-- A call either is carried out, or it finds a failure and leaves the light on show. -/
theorem Shows.perform_cases (h : Shows l s₀ s) (single : inSteps Simulated.perform c = Simulated.perform c) :
    (∃ s', s.perform c = (.ok (l.reply c), s') ∧ Shows (l.after c) s₀ s') ∨
    ∃ cause s', s.perform c = (.error cause, s') ∧ Shows l s₀ s' ∧ 0 < s₀.bulb.troubles := by
  rw [perform_single single]
  obtain ⟨b, hb, light, troubles⟩ | ⟨cause, b, hb, light, troubles⟩ := s.bulb.perform_troubled c
  · rw [hb, h.light]
    rw [h.light] at light
    exact Or.inl ⟨_, rfl, h.performed (b := b) light (by omega)⟩
  · rw [hb]
    have met := h.troubles
    exact Or.inr ⟨cause, _, rfl, h.performed (b := b) (light.trans h.light) (by omega), by omega⟩

/-- The colour that the light has by its three parts is written again, at once or part by part. -/
theorem Shows.restate_cases (h : Shows l s₀ s) :
    (∃ s', s.perform (.setHsb l.hsb) = (.ok (), s') ∧ Shows (l.withHsb l.hsb) s₀ s') ∨
    ∃ cause s', s.perform (.setHsb l.hsb) = (.error cause, s') ∧
      (Shows l s₀ s' ∨ Shows (l.withHsb l.hsb) s₀ s') ∧ 0 < s₀.bulb.troubles := by
  have met := h.troubles
  rw [perform]
  by_cases parts : s.inParts
  · rw [if_pos parts]
    obtain ⟨b₁, hb₁, light₁, troubles₁⟩ | ⟨cause, b₁, hb₁, light₁, troubles₁⟩ :=
      s.bulb.perform_troubled (.setHue l.hsb.hue)
    rotate_left
    · rw [Flaky.inSteps_hue hb₁]
      exact Or.inr ⟨cause, _, rfl, Or.inl (h.performed (light₁.trans h.light) (by omega)), by omega⟩
    -- from here on the light is the one that the whole colour makes
    rw [h.light, show l.after (.setHue l.hsb.hue) = l.withHsb l.hsb from rfl] at light₁
    obtain ⟨b₂, hb₂, light₂, troubles₂⟩ | ⟨cause, b₂, hb₂, light₂, troubles₂⟩ :=
      b₁.perform_troubled (.setSaturation l.hsb.saturation)
    rotate_left
    · rw [Flaky.inSteps_saturation hb₁ hb₂]
      exact Or.inr ⟨cause, _, rfl, Or.inr (h.performed (light₂.trans light₁) (by omega)), by omega⟩
    rw [light₁, show (l.withHsb l.hsb).after (.setSaturation l.hsb.saturation) = l.withHsb l.hsb
      from rfl] at light₂
    rw [Flaky.inSteps_brightness hb₁ hb₂]
    obtain ⟨b₃, hb₃, light₃, troubles₃⟩ | ⟨cause, b₃, hb₃, light₃, troubles₃⟩ :=
      b₂.perform_troubled (.setBrightness l.hsb.brightness)
    · rw [hb₃]
      rw [light₂] at light₃
      exact Or.inl ⟨_, rfl, h.performed light₃ (by omega)⟩
    · rw [hb₃]
      exact Or.inr ⟨cause, _, rfl, Or.inr (h.performed (light₃.trans light₂) (by omega)), by omega⟩
  · rw [if_neg parts]
    obtain ⟨b, hb, light, troubles⟩ | ⟨cause, b, hb, light, troubles⟩ :=
      s.bulb.perform_troubled (.setHsb l.hsb)
    · rw [hb]
      rw [h.light] at light
      exact Or.inl ⟨_, rfl, h.performed (b := b) light (by omega)⟩
    · rw [hb]
      exact Or.inr ⟨cause, _, rfl, Or.inl (h.performed (b := b) (light.trans h.light) (by omega)), by omega⟩

/-! ### The execution -/

/-- How a command that moves its colour by nothing breaks off: the colour may have been written. -/
def Broken (l l' : Light) (p : PlaybackState) (s₀ : Studio) :
    BulbError → Unit → PlaybackState → Studio → Prop :=
  fun _ _ p' s => (Shows l s₀ s ∨ Shows l' s₀ s) ∧ p' = p ∧ 0 < s₀.bulb.troubles

/-- A call without parts, and what it reads. -/
theorem takes_single (free : ∀ m t, along.along m t) (single : inSteps Simulated.perform c = Simulated.perform c) :
    Takes Studio.answer along (Still l p s₀) (send handle c)
      (atEnd (fun reply m p' s => Still (l.after c) p s₀ m p' s ∧ reply = l.reply c)
        (Broken l l' p s₀)) := by
  refine takes_send (takes_ask.mpr fun m p' s h => ⟨free _ _, ?_⟩)
  obtain ⟨shows, same⟩ := h
  obtain ⟨s', hs', shows'⟩ | ⟨cause, s', hs', shows', troubled⟩ := shows.perform_cases single
  · rw [show Studio.answer (.call handle c) s = (.ok (l.reply c), s') from hs']
    exact ⟨⟨shows', same⟩, rfl⟩
  · rw [show Studio.answer (.call handle c) s = (.error cause, s') from hs']
    exact ⟨Or.inl shows', same, troubled⟩

/-- The whole colour, at once or by its three parts. -/
theorem takes_restate (free : ∀ m t, along.along m t) :
    Takes Studio.answer along (Still l p s₀) (send handle (.setHsb l.hsb))
      (atEnd (fun _ => Still (l.withHsb l.hsb) p s₀) (Broken l (l.withHsb l.hsb) p s₀)) := by
  refine takes_send (takes_ask.mpr fun m p' s h => ⟨free _ _, ?_⟩)
  obtain ⟨shows, same⟩ := h
  obtain ⟨s', hs', shows'⟩ | ⟨cause, s', hs', either, troubled⟩ := shows.restate_cases
  · rw [show Studio.answer (.call handle (.setHsb l.hsb)) s = (.ok (), s') from hs']
    exact ⟨shows', same⟩
  · rw [show Studio.answer (.call handle (.setHsb l.hsb)) s = (.error cause, s') from hs']
    exact ⟨either, same, troubled⟩

variable {cmd : Command}

/-- A command that moves its colour by nothing writes the colour again. -/
theorem takes_perform_still (free : ∀ m t, along.along m t) (still : cmd.IsStill)
    (jitters : cmd.isJitter = true) :
    Takes Studio.answer along (Still l p s₀) (Lightshow.perform handle cmd)
      (atEnd (fun _ => Still (l.again cmd.instruction) p s₀)
        (Broken l (l.again cmd.instruction) p s₀)) := by
  rw [Command.isJitter] at jitters
  cases does : cmd.instruction with
  | rgbJitter =>
    rw [perform_channels_still still does]
    refine takes_bind (takes_single free rfl) (fun rgb => takes_and fun read => ?_)
      fun _ _ _ _ broken => broken
    rw [read]
    exact (takes_single free rfl).mono (fun _ _ _ h => h) fun r _ _ _ h => by
      cases r with
      | ok _ => exact h.1
      | error _ => exact h
  | hsbJitter =>
    rw [perform_wheel_still still does]
    refine takes_bind (takes_single free rfl) (fun hue => takes_and fun hueRead => ?_)
      fun _ _ _ _ broken => broken
    refine takes_bind (takes_single free rfl) (fun saturation => takes_and fun saturationRead => ?_)
      fun _ _ _ _ broken => broken
    refine takes_bind (takes_single free rfl) (fun brightness => takes_and fun brightnessRead => ?_)
      fun _ _ _ _ broken => broken
    rw [hueRead, saturationRead, brightnessRead]
    exact takes_restate free
  | fade | timeAdjust | hsb | rgb | unknown _ =>
    rw [does] at jitters
    cases jitters

/-- How the execution of such a command ends: nothing was done if a stop had been requested, and else the
colour was written, unless it broke off. -/
def After (l l' : Light) (p : PlaybackState) (s₀ : Studio) :
    Except BulbError Dispatch → Unit → PlaybackState → Studio → Prop :=
  atEnd (fun
    | .skip => fun m p' s => Still l p s₀ m p' s ∧ s₀.control.stopping = true
    | .sleep _ => Still l' p s₀) (Broken l l' p s₀)

theorem takes_execute_still (free : ∀ m t, along.along m t) (still : cmd.IsStill)
    (jitters : cmd.isJitter = true) :
    Takes Studio.answer along (Still l p s₀) (execute handle cmd)
      (After l (l.again cmd.instruction) p s₀) := by
  refine Execution.takes_execute (takes_ask.mpr fun m p' s h => ⟨free _ _, ?_⟩)
    (takes_perform_still free still jitters)
  show (if s.control.stopping then _ else _ : Unit → PlaybackState → Studio → Prop) m p' s
  cases stop : s.control.stopping with
  | true => exact ⟨h, h.1.control ▸ stop⟩
  | false => exact h

end Studio

/-! ### The form of a colour -/

/-- The two forms that a colour is given in. -/
inductive ColourForm where
  | channels
  | wheel
  deriving DecidableEq, Repr

/-- The form that a call gives the colour in, if it gives one. -/
def Call.form? : Call → Option ColourForm
  | .setRgb _ => some .channels
  | .setHue _ | .setSaturation _ | .setBrightness _ | .setHsb _ | .restoreSnapshot _ => some .wheel
  | _ => none

/-- The form that calls gave the colour in last; before the first of them it has been given by its
channels. -/
def formAfter (calls : List Call) : ColourForm := (calls.filterMap Call.form?).getLast?.getD .channels

theorem formAfter_concat (calls : List Call) (c : Call) :
    formAfter (calls ++ [c]) = c.form?.getD (formAfter calls) := by
  rw [formAfter, List.filterMap_append, List.getLast?_append]
  cases given : c.form? with
  | none => rw [List.filterMap_cons_none given]; rfl
  | some form => rw [List.filterMap_cons_some given]; rfl

/-- The other form of the colour is computed from the given one. -/
def Light.Follows (l : Light) : ColourForm → Prop
  | .channels => l.hsb = l.rgb.toHsb
  | .wheel => l.rgb = l.hsb.toRgb

/-- A call keeps that, for the form that it gives the colour in. -/
theorem Light.Follows.after {l : Light} {form : ColourForm} (h : l.Follows form) (c : Call) :
    (l.after c).Follows (c.form?.getD form) := by
  cases c with
  | setRgb | setHue | setSaturation | setBrightness | setHsb | restoreSnapshot => rfl
  | _ => cases form <;> exact h

namespace Simulated

/-- The bulb after calls, whether or not they are carried out. -/
def sent (b : Simulated) (calls : List Call) : Simulated := calls.foldl (fun b c => (b.perform c).2) b

/-- On the bulb as well, also where a call meets a failure. -/
theorem follows_perform {b : Simulated} (h : b.light.Follows (formAfter b.calls)) (c : Call) :
    (b.perform c).2.light.Follows (formAfter (b.perform c).2.calls) := by
  obtain ⟨b', hb, record⟩ | ⟨cause, b', hb, record⟩ := b.perform_cases c
  · rw [hb, show b'.calls = b.calls ++ [c] from congrArg Prod.fst record,
      show b'.light = b.light.after c from congrArg Prod.snd record, formAfter_concat]
    exact h.after c
  · rw [hb, show b'.calls = b.calls from congrArg Prod.fst record,
      show b'.light = b.light from congrArg Prod.snd record]
    exact h

/-- So does any sequence of them. -/
theorem follows_sent {b : Simulated} (h : b.light.Follows (formAfter b.calls)) (calls : List Call) :
    (b.sent calls).light.Follows (formAfter (b.sent calls).calls) := by
  induction calls generalizing b with
  | nil => exact h
  | cons c calls ih => exact ih (follows_perform h c)

end Simulated

/-- Back from the wheel comes the colour that the light has, or what becomes of one of the six. -/
theorem Light.Follows.toRgb_hsb {l : Light} {form : ColourForm} (h : l.Follows form) :
    l.hsb.toRgb = if form = .channels ∧ l.rgb ∈ Rgb.slipping then l.rgb.slipped else l.rgb := by
  cases form with
  | channels =>
    rw [show l.hsb = l.rgb.toHsb from h, Rgb.toRgb_toHsb]
    simp only [true_and]
  | wheel => exact h.symm

/-- The result of a command that was executed. -/
def Executed (r : Except BulbError Dispatch) : Prop := ∃ length, r = .ok (.sleep length)

theorem Studio.After.cases {l l' : Light} {p p' : PlaybackState} {s₀ s : Studio} {m : Unit}
    {r : Except BulbError Dispatch} (h : After l l' p s₀ r m p' s) :
    p' = p ∧ s.draws = s₀.draws ∧
      (s₀.control.stopping = false → s₀.bulb.troubles = 0 → Executed r) ∧
      (s.bulb.light = l ∧ ¬ Executed r ∨ s.bulb.light = l') := by
  rcases r with cause | length | _
  · obtain ⟨shows, same, troubled⟩ := h
    have stays : ¬ Executed (.error cause) := fun ⟨_, h⟩ => nomatch h
    refine ⟨same, shows.elim Shows.draws Shows.draws, fun _ none => absurd none (by omega), ?_⟩
    exact shows.imp (fun shows => ⟨shows.light, stays⟩) Shows.light
  · obtain ⟨shows, same⟩ := h
    exact ⟨same, shows.draws, fun _ _ => ⟨length, rfl⟩, Or.inr shows.light⟩
  · obtain ⟨⟨shows, same⟩, stop⟩ := h
    have stays : ¬ Executed (.ok .skip) := fun ⟨_, h⟩ => nomatch h
    exact ⟨same, shows.draws, fun go => absurd (go.symm.trans stop) (by decide),
      Or.inl ⟨shows.light, stays⟩⟩

/-- **A command that moves a colour by nothing writes it as it is, and only the other form of it can
come out anew.** -/
theorem Studio.leads_still {cmd : Command} (still : cmd.IsStill) (jitters : cmd.isJitter = true)
    {b : Simulated} (new : b.calls = []) (fresh : b.light.Follows .channels) {s : Studio}
    (calls : List Call) (reached : s.bulb = b.sent calls) (handle : Nat) (p : PlaybackState) :
    Leads Studio.answer (execute handle cmd) p s fun _ r p' s' =>
      let l := s.bulb.light
      let l' := s'.bulb.light
      let form := formAfter s.bulb.calls
      p' = p ∧ s'.draws = s.draws ∧ l'.on = l.on ∧ l'.transition = l.transition ∧
        (s.control.stopping = false → s.bulb.troubles = 0 → Executed r) ∧
        (cmd.instruction = .rgbJitter → l'.rgb = l.rgb ∧ (form = .channels → l'.hsb = l.hsb) ∧
          (l'.hsb = l.hsb ∨ l'.hsb = l.rgb.toHsb) ∧ (Executed r → l'.hsb = l.rgb.toHsb)) ∧
        (cmd.instruction = .hsbJitter → l'.hsb = l.hsb ∧
          (form = .wheel ∨ l.rgb ∉ Rgb.slipping → l'.rgb = l.rgb) ∧
          (l'.rgb = l.rgb ∨ l'.rgb = l.rgb.slipped) ∧
          (Executed r → form = .channels → l.rgb ∈ Rgb.slipping → l'.rgb = l.rgb.slipped)) := by
  have follows : s.bulb.light.Follows (formAfter s.bulb.calls) := by
    rw [reached]
    refine Simulated.follows_sent ?_ calls
    rw [new]
    exact fresh
  have shown : Shows s.bulb.light s s := ⟨rfl, rfl, rfl, Nat.le_refl _⟩
  refine (@takes_execute_still s.bulb.light p s handle (.each fun _ => True) cmd
    (fun _ _ => trivial) still jitters () p s ⟨shown, rfl⟩).mono fun _ r p' s' ⟨_, h⟩ => ?_
  obtain ⟨same, draws, goes, light⟩ := h.cases
  dsimp only
  generalize s.bulb.light = l at *
  generalize s'.bulb.light = l' at *
  generalize formAfter s.bulb.calls = form at *
  cases does : cmd.instruction with
  | rgbJitter =>
    rw [does, show l.again .rgbJitter = l.withRgb l.rgb from rfl] at light
    obtain ⟨rfl, stays⟩ | rfl := light
    · exact ⟨same, draws, rfl, rfl, goes,
        fun _ => ⟨rfl, fun _ => rfl, Or.inl rfl, fun done => absurd done stays⟩, nofun⟩
    · -- the channels are written as they are, and the other form is taken from them
      refine ⟨same, draws, rfl, rfl, goes, fun _ => ⟨rfl, ?_, Or.inr rfl, fun _ => rfl⟩, nofun⟩
      rintro rfl
      exact follows.symm
  | hsbJitter =>
    rw [does, show l.again .hsbJitter = l.withHsb l.hsb from rfl] at light
    obtain ⟨rfl, stays⟩ | rfl := light
    · exact ⟨same, draws, rfl, rfl, goes, nofun,
        fun _ => ⟨rfl, fun _ => rfl, Or.inl rfl, fun done => absurd done stays⟩⟩
    · -- the place on the wheel is written as it is, and the channels come back from it
      have written : (l.withHsb l.hsb).rgb = _ := follows.toRgb_hsb
      refine ⟨same, draws, rfl, rfl, goes, nofun, fun _ => ⟨rfl, fun given => ?_, ?_, fun _ given slips => ?_⟩⟩
      · rw [written, if_neg]
        rintro ⟨rfl, slips⟩
        exact given.elim nofun fun stays => stays slips
      · rw [written]
        exact (ite_eq_or_eq _ _ _).symm
      · rw [written, if_pos ⟨given, slips⟩]
  | fade | timeAdjust | hsb | rgb | unknown _ =>
    rw [Command.isJitter, does] at jitters
    cases jitters

namespace Studio

/-- Moves hue, saturation and brightness by nothing. -/
def stillWheel : Command := ⟨0, .hsbJitter, [0, 0, 0]⟩

/-- Moves the channels by nothing. -/
def stillChannels : Command := ⟨0, .rgbJitter, [0, 0, 0]⟩

/-- A studio with a bulb that was sent calls. -/
def sent (calls : List Call) : Studio := .around ((Simulated.new "1" .dark).sent calls) (.start [] 0)

/-- One level of this blue is lost on the wheel. -/
theorem leads_still_blue :
    stillWheel.IsStill ∧ stillWheel.isJitter = true ∧ (Simulated.new "1" .dark).calls = [] ∧
      Light.dark.Follows .channels ∧
      Leads answer (execute 0 stillWheel) PlaybackState.initial (sent [.turnOn, .setRgb ⟨64, 63, 253⟩])
        fun _ r _ s' => Executed r ∧ s'.bulb.light.on = true ∧ s'.bulb.light.rgb = ⟨63, 63, 253⟩ := by
  have dark : Light.dark.Follows .channels := by
    rw [Light.Follows]
    decide +kernel
  refine ⟨⟨rfl, rfl, rfl⟩, rfl, rfl, dark, ?_⟩
  have form : formAfter (sent [.turnOn, .setRgb ⟨64, 63, 253⟩]).bulb.calls = .channels := rfl
  have slips : (sent [.turnOn, .setRgb ⟨64, 63, 253⟩]).bulb.light.rgb ∈ Rgb.slipping := by decide
  refine (leads_still (s := sent [.turnOn, .setRgb ⟨64, 63, 253⟩]) ⟨rfl, rfl, rfl⟩ rfl rfl dark
    [.turnOn, .setRgb ⟨64, 63, 253⟩] rfl 0 PlaybackState.initial).mono fun _ r p' s' h => ?_
  obtain ⟨-, -, on, -, done, -, wheel⟩ := h
  have done := done rfl rfl
  obtain ⟨-, -, -, slipped⟩ := wheel rfl
  exact ⟨done, on, slipped done form slips⟩

/-- A grey that was given a hue loses it when it is written by its channels, and a blue comes off the
wheel with another level. -/
theorem still_commands_move :
    (Leads answer (execute 0 stillChannels) PlaybackState.initial (sent [.setHsb ⟨2570, 0, 30⟩]) fun _ r _ s' =>
      Executed r ∧ s'.bulb.light.hsb ≠ (sent [.setHsb ⟨2570, 0, 30⟩]).bulb.light.hsb) ∧
    Leads answer (execute 0 stillWheel) PlaybackState.initial (sent [.setRgb ⟨64, 63, 253⟩]) fun _ r _ s' =>
      Executed r ∧ s'.bulb.light.rgb ≠ (sent [.setRgb ⟨64, 63, 253⟩]).bulb.light.rgb := by
  rw [leads_iff, leads_iff]
  refine ⟨⟨⟨_, rfl⟩, ?_⟩, ⟨_, rfl⟩, ?_⟩
  · decide +kernel
  · decide +kernel

end Studio

end Lightshow
