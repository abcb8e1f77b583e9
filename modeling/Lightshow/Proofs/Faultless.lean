/-
Executions without a fault.

A guarded execution breaks off with a fault where an operation on amounts has no result, or a range to draw
from is empty.  That never happens: every execution is its guarded form, whatever its command, its state,
the bulb and the draws.  So a command gets as far as the bulb lets it, and what it writes can be said in
integers without bounds.

* `Guarded.execute` -- an execution with a fault at every operation that can fail;
* `Guarded.execute_eq` -- there is none;
* `Execution.sends_perform` -- a plain command sends its calls, as far as it gets;
* `execute_is_faultless` -- all of it, for any command.
-/
import Lightshow.Proofs.Amounts
import Lightshow.Proofs.Rendition
import Lightshow.Proofs.Standstill

namespace Lightshow

open Talk

/-! ### Guarded executions -/

/-- Why a guarded execution breaks off. -/
inductive Stop where
  /-- An operation had no result. -/
  | fault
  | failed (cause : BulbError)

/-- An execution that also breaks off at a fault. -/
abbrev Guarded := Talk Stop PlaybackState Question Question.Answer

/-- The same execution; it meets no fault. -/
def Execution.guarded {α : Type} (x : Execution α) : Guarded α := ExceptT.adapt Stop.failed x

namespace Guarded

variable {α β : Type}

/-- The result of an operation. -/
def orFault : Option α → Guarded α
  | some a => pure a
  | none => throw .fault

/-- An offset below a limit; the limit must not leave the range empty. -/
def roll (limit : Int64) : Guarded Int64 :=
  if positive : 0 < limit.toInt.toNat then
    return Int64.ofNat (← Talk.ask (.roll limit.toInt.toNat positive) : Fin _).val
  else throw .fault

/-- Moves a channel by chance. -/
def jittered (base upper variance : Int64) : Guarded Int64 :=
  if variance = 0 then pure base
  else do
    let spread := Saturating.abs variance
    let offset ← roll spread
    let half ← orFault (Amount.div? spread 2)
    return min (max (Saturating.sub (Saturating.add base offset) half) 0) upper

open Amount Execution in
/-- The calls of an instruction. -/
def perform (handle : Nat) (c : Command) : Guarded Unit :=
  match c.instruction with
  | .fade => (send handle (.setTransition (fadeSeconds (c.param 0)))).guarded
  | .timeAdjust => modify fun s => s.adjustTime (c.param 0)
  | .hsb =>
    if c.param 2 = 0 then (powerOff handle).guarded
    else do
      (powerOn handle).guarded
      let hue ← orFault ((stretchedHue? (c.param 0)).bind hue?)
      let saturation ← orFault (level? (c.param 1))
      let brightness ← orFault (level? (c.param 2))
      (send handle (.setHsb ⟨hue, saturation, brightness⟩)).guarded
  | .hsbJitter => do
    let variance ← orFault (stretchedHue? (c.param 0))
    let hue ← (send handle .getHue).guarded
    let saturation ← (send handle .getSaturation).guarded
    let brightness ← (send handle .getBrightness).guarded
    let hue ← jittered (Int64.ofNat hue.toNat) hueMax variance
    let hue ← orFault (hue? hue)
    let saturation ← jittered (Int64.ofNat saturation.toNat) levelMax (c.param 1)
    let saturation ← orFault (level? saturation)
    let brightness ← jittered (Int64.ofNat brightness.toNat) levelMax (c.param 2)
    let brightness ← orFault (level? brightness)
    (send handle (.setHsb ⟨hue, saturation, brightness⟩)).guarded
  | .rgb =>
    if c.param 0 = 0 ∧ c.param 1 = 0 ∧ c.param 2 = 0 then (powerOff handle).guarded
    else do
      (powerOn handle).guarded
      let red ← orFault (level? (c.param 0))
      let green ← orFault (level? (c.param 1))
      let blue ← orFault (level? (c.param 2))
      (send handle (.setRgb ⟨red, green, blue⟩)).guarded
  | .rgbJitter => do
    let rgb ← (send handle .getRgb).guarded
    let red ← jittered (Int64.ofNat rgb.red.toNat) levelMax (c.param 0)
    let red ← orFault (level? red)
    let green ← jittered (Int64.ofNat rgb.green.toNat) levelMax (c.param 1)
    let green ← orFault (level? green)
    let blue ← jittered (Int64.ofNat rgb.blue.toNat) levelMax (c.param 2)
    let blue ← orFault (level? blue)
    (send handle (.setRgb ⟨red, green, blue⟩)).guarded
  | .unknown _ => pure ()

/-- A command as calls, and the wait after it. -/
def execute (handle : Nat) (c : Command) : Guarded Dispatch := do
  if ← Talk.ask .stopping then return .skip
  perform handle c
  return .sleep (← orFault (tickPause? c.delay (← get).timeAdjust))

end Guarded

/-! ### No execution meets a fault -/

namespace Execution

variable {α β : Type}

theorem guarded_pure (a : α) : (pure a : Execution α).guarded = pure a := rfl

theorem guarded_bind (x : Execution α) (f : α → Execution β) :
    (x >>= f).guarded = x.guarded >>= fun a => (f a).guarded := by
  show Except.mapError Stop.failed <$> (x.run >>= _) = (Except.mapError Stop.failed <$> x.run) >>= _
  rw [map_bind, bind_map_left]
  refine bind_congr fun r => ?_
  cases r with
  | ok a => rfl
  | error cause => exact map_pure _ _

theorem guarded_ite (p : Prop) [Decidable p] (x y : Execution α) :
    (if p then x else y).guarded = if p then x.guarded else y.guarded := by
  split <;> rfl

/-- The guarded form of an execution meets no fault. -/
theorem leads_guarded {W : Type} {answer : (q : Question) → W → q.Answer × W} {s : PlaybackState}
    {w : W} (x : Execution α) :
    Leads answer x.guarded s w fun _ r _ _ => r ≠ .error .fault := by
  have mapped : x.guarded.run.run s =
      (x.run.run s).bind fun p => .done (p.1.mapError Stop.failed, p.2) := rfl
  show ((x.guarded.run.run s).run answer w).1.1 ≠ .error .fault
  rw [mapped, Dialogue.run_bind]
  show ((x.run.run s).run answer w).1.1.mapError Stop.failed ≠ _
  cases ((x.run.run s).run answer w).1.1 <;> exact nofun

end Execution

namespace Guarded

theorem orFault_some {α : Type} (a : α) : orFault (some a) = pure a := rfl

theorem roll_eq {limit : Int64} {n : Nat} (same : limit.toInt = n) (positive : 0 < n) :
    roll limit = (Execution.ask (.roll n positive)).guarded >>= fun offset =>
      pure (Int64.ofNat offset.val) := by
  obtain rfl : n = limit.toInt.toNat := by omega
  exact dif_pos positive

/-- The magnitude of a variance as an amount. -/
theorem toInt_abs (variance : Int64) :
    (Saturating.abs variance).toInt = (Jitter.spread variance : Int) := by
  rw [Saturating.abs, Saturating.toInt_nearest, Jitter.spread, Saturating.least, Saturating.most]
  omega

/-- Half of an amount that is not negative. -/
theorem toInt_half {v : Int64} {n : Nat} (same : v.toInt = n) : (v / 2).toInt = (n / 2 : Nat) := by
  rw [Int64.toInt_div_of_ne_right _ _ (by decide), same]
  exact (Int.ofNat_tdiv n 2).symm

theorem jittered_eq (base upper variance : Int64) :
    jittered base upper variance = (Execution.jittered base upper variance).guarded := by
  rw [jittered, Execution.jittered, jitter]
  split
  · rfl
  next nonzero =>
  have spread := toInt_abs variance
  have bounded := Jitter.spread_le variance
  have half : Saturating.abs variance / 2 = Int64.ofNat (Jitter.spread variance / 2) :=
    Int64.toInt_inj.mp ((toInt_half spread).trans (Int64.toInt_ofNat_of_lt (by omega)).symm)
  have inside (v : Int64) :
      min (max v 0) upper = Int64.ofInt (min (max v.toInt 0) upper.toInt) := by
    rw [← Int64.ofInt_toInt (min _ _), Amount.toInt_min, Amount.toInt_max]
    rfl
  dsimp only
  rw [Execution.guarded_bind, roll_eq spread (Jitter.spread_pos nonzero), bind_assoc]
  refine bind_congr fun offset => ?_
  rw [pure_bind, Amount.div?_eq (by decide), orFault_some, pure_bind, half, inside]
  rfl

open Execution in
theorem perform_eq (handle : Nat) (c : Command) :
    perform handle c = (Lightshow.perform handle c).guarded := by
  rw [perform, Lightshow.perform]
  cases c.instruction <;>
    simp only [Amount.stretchedHue?_eq, Amount.level?_eq, Amount.hue?_eq, Option.bind_some,
      orFault_some, pure_bind, jittered_eq, guarded_bind, guarded_ite, guarded_pure]
  rfl

theorem execute_eq (handle : Nat) (c : Command) :
    execute handle c = (Lightshow.execute handle c).guarded := by
  rw [execute, Lightshow.execute]
  simp only [Execution.guarded_bind, Execution.guarded_ite, Execution.guarded_pure, perform_eq,
    tickPause?_eq, orFault_some, pure_bind]
  rfl

end Guarded

/-! ### What a plain command sends -/

/-- Calls are sent in order, as far as an execution gets; if it comes to its end, the bulb has carried
all of them out. -/
structure Sends {S W : Type} (calls : List Call) (T : List (Turn S Question Question.Answer W))
    (done : Prop) : Prop where
  sent : T.filterMap Turn.sent? <+: calls
  all : done → T.filterMap Turn.sent? = calls ∧ told T = calls

namespace Execution

variable {W α β : Type} {answer : (q : Question) → W → q.Answer × W} {s : PlaybackState} {w : W}
variable {k l : List Call} (handle : Nat)

theorem sends_bind {x : Execution α} {f : α → Execution β}
    (begins : Leads answer x s w fun T r _ _ => Sends k T (∃ a, r = .ok a))
    (goesOn : ∀ a s' w', Leads answer (f a) s' w' fun T r _ _ => Sends l T (∃ b, r = .ok b)) :
    Leads answer (x >>= f) s w fun T r _ _ => Sends (k ++ l) T (∃ b, r = .ok b) := by
  refine leads_bind.mpr (begins.mono fun T r s' w' h => ?_)
  cases r with
  | ok a =>
    refine (goesOn a s' w').mono fun T' r _ _ h' => ?_
    obtain ⟨sent, carried⟩ := h.all ⟨a, rfl⟩
    constructor
    · rw [List.filterMap_append, sent]
      exact (List.prefix_append_right_inj _).mpr h'.sent
    · intro done
      obtain ⟨sent', carried'⟩ := h'.all done
      rw [List.filterMap_append, told_append, sent, carried, sent', carried']
      exact ⟨rfl, rfl⟩
  | error cause => exact ⟨h.sent.trans (List.prefix_append _ _), nofun⟩

theorem sends_nothing {x : Execution α}
    (h : Leads answer x s w fun T _ _ _ => T = []) :
    Leads answer x s w fun T r _ _ => Sends [] T (∃ a, r = .ok a) := by
  refine h.mono fun T r _ _ none => ?_
  rw [none]
  exact ⟨List.prefix_rfl, fun _ => ⟨rfl, rfl⟩⟩

theorem sends_send (c : Call) :
    Leads answer (send handle c) s w fun T r _ _ => Sends [c] T (∃ a, r = .ok a) := by
  rw [send, leads_ask_bind]
  cases (answer (.call handle c) w).1 with
  | error cause =>
    refine leads_throw.mpr ⟨List.prefix_rfl, ?_⟩
    rintro ⟨a, ended⟩
    cases ended
  | ok reply => exact leads_pure.mpr ⟨List.prefix_rfl, fun _ => ⟨rfl, rfl⟩⟩

theorem sends_powerOn :
    Leads answer (powerOn handle) s w fun T r _ _ => Sends s.onCalls T (∃ a, r = .ok a) := by
  refine leads_bind.mpr (leads_get.mpr ?_)
  show Leads answer (if s.power = .off then _ else _) s w fun T r _ _ => Sends s.onCalls T _
  rw [PlaybackState.onCalls]
  split
  · exact sends_bind (l := []) (sends_send handle .turnOn)
      fun _ _ _ => sends_nothing (leads_modify.mpr rfl)
  · exact sends_nothing (leads_pure.mpr rfl)

theorem sends_powerOff :
    Leads answer (powerOff handle) s w fun T r _ _ => Sends s.offCalls T (∃ a, r = .ok a) := by
  refine leads_bind.mpr (leads_get.mpr ?_)
  show Leads answer (if s.power = .on then _ else _) s w fun T r _ _ => Sends s.offCalls T _
  rw [PlaybackState.offCalls]
  split
  · exact sends_bind (l := []) (sends_send handle .turnOff)
      fun _ _ _ => sends_nothing (leads_modify.mpr rfl)
  · exact sends_nothing (leads_pure.mpr rfl)

/-- A plain command sends its calls. -/
theorem sends_perform {c : Command} (plain : c.isPlain = true) :
    Leads answer (perform handle c) s w fun T r _ _ => Sends (c.calls s) T (∃ a, r = .ok a) := by
  rw [perform, Command.calls]
  cases does : c.instruction with
  | fade => exact sends_send handle _
  | timeAdjust => exact sends_nothing (leads_modify.mpr rfl)
  | hsb =>
    dsimp only
    split
    · exact sends_powerOff handle
    · exact sends_bind (sends_powerOn handle) fun _ _ _ => sends_send handle _
  | rgb =>
    dsimp only
    split
    · exact sends_powerOff handle
    · exact sends_bind (sends_powerOn handle) fun _ _ _ => sends_send handle _
  | unknown code => exact sends_nothing (leads_pure.mpr rfl)
  | hsbJitter => rw [Command.isPlain, does] at plain; cases plain
  | rgbJitter => rw [Command.isPlain, does] at plain; cases plain

/-- A plain command sends its calls, and an executed one waits for its delay and the adjustment that it
leaves. -/
theorem leads_execute (c : Command) :
    Leads answer (execute handle c) s w fun T r s' _ =>
      (c.isPlain = true → Sends (c.calls s) T (Executed r)) ∧
      ∀ length, r = .ok (.sleep length) → length = tickPause c.delay s'.timeAdjust := by
  rw [execute, leads_ask_bind]
  cases (answer .stopping w).1 with
  | true => exact leads_pure.mpr ⟨fun _ => ⟨List.nil_prefix, nofun⟩, nofun⟩
  | false =>
    have performs : Leads answer (perform handle c) s (answer .stopping w).2 fun T r _ _ =>
        c.isPlain = true → Sends (c.calls s) T (∃ a, r = .ok a) := by
      by_cases plain : c.isPlain = true
      · exact (sends_perform handle plain).mono fun T r _ _ h _ => h
      · exact leads_iff.mpr fun plain' => absurd plain' plain
    refine leads_bind.mpr (performs.mono fun T r s' w' h => ?_)
    cases r with
    | ok _ =>
      refine leads_bind.mpr (leads_get.mpr (leads_pure.mpr ⟨fun plain => ?_, ?_⟩))
      · obtain ⟨sent, all⟩ := h plain
        rw [List.append_nil, List.append_nil]
        exact ⟨sent, fun _ => all ⟨_, rfl⟩⟩
      · rintro _ ⟨rfl⟩
        rfl
    | error cause => exact ⟨fun plain => ⟨(h plain).sent, nofun⟩, nofun⟩

end Execution

/-- **Executions meet no fault, and write what integers without bounds would.**  From any state, with any
bulb and any draws: no operation is without a result; a colour and a transition are written as given, with
every channel clamped; and a wait of nothing or less is no wait. -/
theorem execute_is_faultless {W : Type} (answer : (q : Question) → W → q.Answer × W) (handle : Nat)
    (c : Command) (s : PlaybackState) (w : W) :
    Guarded.execute handle c = (execute handle c).guarded ∧
    Leads answer (Guarded.execute handle c) s w (fun _ r _ _ => r ≠ .error .fault) ∧
    Leads answer (execute handle c) s w (fun T r s' _ =>
      (c.instruction = .hsb → c.param 2 ≠ 0 → ∃ colour : Hsb,
        (colour.hue.toNat : Int) = max 0 (min (257 * (c.param 0).toInt) 65535) ∧
        (colour.saturation.toNat : Int) = max 0 (min (c.param 1).toInt 255) ∧
        (colour.brightness.toNat : Int) = max 0 (min (c.param 2).toInt 255) ∧
        Sends (s.onCalls ++ [.setHsb colour]) T (Executed r)) ∧
      (c.instruction = .rgb → ¬(c.param 0 = 0 ∧ c.param 1 = 0 ∧ c.param 2 = 0) → ∃ colour : Rgb,
        (colour.red.toNat : Int) = max 0 (min (c.param 0).toInt 255) ∧
        (colour.green.toNat : Int) = max 0 (min (c.param 1).toInt 255) ∧
        (colour.blue.toNat : Int) = max 0 (min (c.param 2).toInt 255) ∧
        Sends (s.onCalls ++ [.setRgb colour]) T (Executed r)) ∧
      (c.instruction = .fade → ∃ distance : UInt64,
        (distance.toNat : Int) = max 0 (255 - (c.param 0).toInt) ∧
        Sends [.setTransition (distance.toFloat / 300.0)] T (Executed r)) ∧
      ∀ length, r = .ok (.sleep length) → length = tickPause c.delay s'.timeAdjust) ∧
    ∀ delay adjust, tickPause? delay adjust = some (tickPause delay adjust) ∧
      ((delay.toNat : Int) + adjust.toInt ≤ 0 → tickPause delay adjust = .zero) := by
  have equal := Guarded.execute_eq handle c
  refine ⟨equal, ?_, ?_, fun delay adjust => ⟨tickPause?_eq delay adjust, tickPause_of_nonpos⟩⟩
  · rw [equal]
    exact Execution.leads_guarded (execute handle c)
  -- what is sent are the calls of the command from the state at its beginning
  refine (Execution.leads_execute handle c).mono fun T r s' _ ⟨sends, waits⟩ => ⟨?_, ?_, ?_, waits⟩
  · intro does bright
    refine ⟨⟨toHue (stretchedHue (c.param 0)), toLevel (c.param 1), toLevel (c.param 2)⟩,
      toNat_toHue_stretched _, toNat_toLevel_eq _, toNat_toLevel_eq _, ?_⟩
    have calls := sends (by rw [Command.isPlain, does])
    rw [Command.calls, does] at calls
    dsimp only at calls
    rwa [if_neg bright] at calls
  · intro does bright
    refine ⟨⟨toLevel (c.param 0), toLevel (c.param 1), toLevel (c.param 2)⟩,
      toNat_toLevel_eq _, toNat_toLevel_eq _, toNat_toLevel_eq _, ?_⟩
    have calls := sends (by rw [Command.isPlain, does])
    rw [Command.calls, does] at calls
    dsimp only at calls
    rwa [if_neg bright] at calls
  · intro does
    obtain ⟨distance, exact, double⟩ := fadeSeconds_eq (c.param 0)
    refine ⟨distance, exact, ?_⟩
    have calls := sends (by rw [Command.isPlain, does])
    rw [Command.calls, does] at calls
    rwa [double] at calls

/-- The greatest and the least amount as parameters, on a dark lamp: every channel stays at a bound, the
time of a fade does not wrap, and a delay that is taken back is no wait. -/
theorem execute_is_faultless_at_bounds :
    let hsb : Command := ⟨3, .hsb, [Int64.maxValue, Int64.minValue, 999]⟩
    let rgb : Command := ⟨3, .rgb, [Int64.minValue, Int64.maxValue, 7]⟩
    let fade : Command := ⟨3, .fade, [Int64.minValue]⟩
    let s : PlaybackState := ⟨.off, Int64.minValue⟩
    let w := Performance.ofLamp fun _ => []
    let course (c : Command) := (execute 0 c).turns Performance.answer s w
    (∀ c ∈ [hsb, rgb, fade],
      ((Guarded.execute 0 c).ending Performance.answer s w).result = .ok (.sleep .zero)) ∧
    told (course hsb) = [.turnOn, .setHsb ⟨65535, 0, 255⟩] ∧
    told (course rgb) = [.turnOn, .setRgb ⟨0, 255, 7⟩] ∧
    told (course fade) = [.setTransition ((9223372036854776063 : UInt64).toFloat / 300.0)] := by
  intro hsb rgb fade s w course
  have said (c : Command) := execute_is_faultless Performance.answer 0 c s w
  have nothing : tickPause 3 s.timeAdjust = .zero := ((said hsb).2.2.2 3 s.timeAdjust).2 (by decide)
  refine ⟨?_, ?_, ?_, ?_⟩
  · rw [List.forall_mem_cons, List.forall_mem_cons, List.forall_mem_singleton, (said hsb).1, (said rgb).1,
      (said fade).1]
    exact ⟨nothing ▸ rfl, nothing ▸ rfl, nothing ▸ rfl⟩
  · obtain ⟨colours, -⟩ := leads_iff.mp (said hsb).2.2.1
    obtain ⟨⟨hue, saturation, brightness⟩, isHue, isSaturation, isBrightness, sends⟩ :=
      colours rfl (by decide)
    obtain rfl : hue = 65535 := UInt16.toNat_inj.mp (Int.ofNat.inj isHue)
    obtain rfl : saturation = 0 := UInt8.toNat_inj.mp (Int.ofNat.inj isSaturation)
    obtain rfl : brightness = 255 := UInt8.toNat_inj.mp (Int.ofNat.inj isBrightness)
    exact (sends.all ⟨_, rfl⟩).2
  · obtain ⟨-, colours, -⟩ := leads_iff.mp (said rgb).2.2.1
    obtain ⟨⟨red, green, blue⟩, isRed, isGreen, isBlue, sends⟩ := colours rfl (by decide)
    obtain rfl : red = 0 := UInt8.toNat_inj.mp (Int.ofNat.inj isRed)
    obtain rfl : green = 255 := UInt8.toNat_inj.mp (Int.ofNat.inj isGreen)
    obtain rfl : blue = 7 := UInt8.toNat_inj.mp (Int.ofNat.inj isBlue)
    exact (sends.all ⟨_, rfl⟩).2
  · obtain ⟨-, -, fades, -⟩ := leads_iff.mp (said fade).2.2.1
    obtain ⟨distance, isDistance, sends⟩ := fades rfl
    obtain rfl : distance = 9223372036854776063 := UInt64.toNat_inj.mp (Int.ofNat.inj isDistance)
    exact (sends.all ⟨_, rfl⟩).2

end Lightshow
