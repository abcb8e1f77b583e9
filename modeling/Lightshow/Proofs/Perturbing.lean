/-
Colours moved by chance, over calls that get lost.

A command that moves a colour by chance reads the three channels, draws, and writes them.  When a
call is lost on the way, the command is tried again from its start, and reads the channels anew.  By
then a bulb that takes a whole colour in one call has not been written at all, but a bulb that takes
it by its three parts may have been written in part, and the next try starts from there.  So a
channel ends up within as many windows of its variance as it was written times.

* `Drifts` -- a level within a number of windows of another;
* `Jitter.drifts_moved` -- a level moved by a drawn offset stays within one window;
* `Flaky` -- a simulated bulb whose connects and calls are lost by a plan;
* `Channel.moves` -- how often calls have written a channel;
* `Tracks.told` -- what a call that is carried out adds;
* `Trying.set_colour` -- what writing a colour comes to, wherever it breaks off;
* `dispatch_drifts` -- the channels after a whole command;
* `halfway_drifts_twice` -- a hue that was moved by more than one window.
-/
import Lightshow.Proofs.Parts
import Lightshow.Proofs.Performance
import Lightshow.Proofs.Windows

namespace Lightshow

open Talk

/-! ### Windows -/

/-- A level `y` lies within that many windows of a level `x`, where a window is what offsets drawn
below `spread` and shifted down by half of it come to.  Subtraction stops at zero. -/
structure Drifts (moves spread upper x y : Nat) : Prop where
  low : x - moves * (spread / 2) ≤ y
  high : y ≤ min upper (x + moves * (spread - 1 - spread / 2))

namespace Drifts

variable {spread upper x y z : Nat}

theorem rest (fits : x ≤ upper) : Drifts 0 spread upper x x := ⟨by omega, by omega⟩

theorem trans {m n : Nat} (h : Drifts m spread upper x y) (h' : Drifts n spread upper y z) :
    Drifts (m + n) spread upper x z := by
  obtain ⟨low, high⟩ := h
  obtain ⟨low', high'⟩ := h'
  constructor
  · rw [Nat.add_mul]
    omega
  · rw [Nat.add_mul]
    omega

/-- Offsets that are drawn from nothing leave the level where it is. -/
theorem eq_of_zero {m : Nat} (h : Drifts m 0 upper x y) : y = x := by
  obtain ⟨low, high⟩ := h
  simp only [Nat.zero_div, Nat.zero_sub, Nat.mul_zero] at low high
  omega

end Drifts

namespace Jitter

/-- A level moved by an offset below the spread stays within one window. -/
theorem drifts_moved {x upper spread offset : Nat} (fits : x ≤ upper) (small : upper ≤ 65535)
    (below : offset < spread) (bounded : spread ≤ 9223372036854775807) :
    ∃ y : Nat, (moved (Int64.ofNat x) (Int64.ofNat upper) spread offset).toInt = y ∧
      Drifts 1 spread upper x y := by
  have hx : (Int64.ofNat x).toInt = x := Int64.toInt_ofNat_of_lt (by omega)
  have hupper : (Int64.ofNat upper).toInt = upper := Int64.toInt_ofNat_of_lt (by omega)
  rw [toInt_moved (by omega) (by omega) (by omega) below bounded, hx, hupper, clamped]
  refine ⟨(max 0 (min ((x : Int) + offset - (spread / 2 : Nat)) upper)).toNat, by omega, ?_, ?_⟩
  · omega
  · omega

end Jitter

/-! ### Channels -/

/-- One of the three parts of a colour. -/
inductive Channel where
  | hue
  | saturation
  | brightness
  deriving DecidableEq, Repr

namespace Channel

/-- The level of a channel in a colour. -/
def level : Channel → Hsb → Nat
  | .hue, c => c.hue.toNat
  | .saturation, c => c.saturation.toNat
  | .brightness, c => c.brightness.toNat

/-- The upper end of a channel. -/
def upper : Channel → Nat
  | .hue => 65535
  | _ => 255

/-- How many offsets a command draws from for a channel; that of the hue is given on the scale of
levels. -/
def spread (cmd : Command) : Channel → Nat
  | .hue => Jitter.spread (stretchedHue (cmd.param 0))
  | .saturation => Jitter.spread (cmd.param 1)
  | .brightness => Jitter.spread (cmd.param 2)

/-- Whether a call that sets colours sets the channel. -/
def isSetBy : Channel → Call → Bool
  | _, .setHsb _ | .hue, .setHue _ | .saturation, .setSaturation _
  | .brightness, .setBrightness _ => true
  | _, _ => false

/-- How often calls have set the channel. -/
def moves (ch : Channel) (calls : List Call) : Nat := calls.countP ch.isSetBy

/-- The call that sets the channel to its level in a colour. -/
def setter : Channel → Hsb → Call
  | .hue, c => .setHue c.hue
  | .saturation, c => .setSaturation c.saturation
  | .brightness, c => .setBrightness c.brightness

theorem level_le (ch : Channel) (c : Hsb) : ch.level c ≤ ch.upper := by
  cases ch with
  | hue => exact Nat.le_of_lt_succ c.hue.toNat_lt
  | saturation => exact Nat.le_of_lt_succ c.saturation.toNat_lt
  | brightness => exact Nat.le_of_lt_succ c.brightness.toNat_lt

theorem moves_append (ch : Channel) (calls calls' : List Call) :
    ch.moves (calls ++ calls') = ch.moves calls + ch.moves calls' := List.countP_append

theorem moves_setter (ch ch' : Channel) (c : Hsb) :
    ch.moves [ch'.setter c] = if ch = ch' then 1 else 0 := by
  cases ch <;> cases ch' <;> rfl

theorem moves_part (ch ch' : Channel) (calls : List Call) (c : Hsb) :
    ch.moves (calls ++ [ch'.setter c]) = ch.moves calls + if ch = ch' then 1 else 0 := by
  rw [moves_append, moves_setter]

theorem level_setter (ch ch' : Channel) (l : Light) (c : Hsb) :
    ch.level (l.after (ch'.setter c)).hsb = if ch = ch' then ch.level c else ch.level l.hsb := by
  cases ch <;> cases ch' <;> rfl

end Channel

theorem toNat_toHue_eq (v : Int64) : ((toHue v).toNat : Int) = max 0 (min v.toInt 65535) := by
  rw [toHue, Nat.toUInt16, UInt16.toNat_ofNat']
  omega

theorem toNat_toLevel_eq (v : Int64) : ((toLevel v).toNat : Int) = max 0 (min v.toInt 255) := by
  rw [toLevel, Nat.toUInt8, UInt8.toNat_ofNat']
  omega

theorem toNat_toHue {v : Int64} {y : Nat} (h : v.toInt = y) (fits : y ≤ 65535) :
    (toHue v).toNat = y := by
  have := toNat_toHue_eq v
  omega

theorem toNat_toLevel {v : Int64} {y : Nat} (h : v.toInt = y) (fits : y ≤ 255) :
    (toLevel v).toNat = y := by
  have := toNat_toLevel_eq v
  omega

/-! ### Calls that get lost -/

namespace Simulated

/-- One connect more is to fail. -/
def loseConnect (b : Simulated) : Simulated := { b with failingConnects := b.failingConnects + 1 }

/-- One call more is to fail. -/
def loseCall (b : Simulated) : Simulated := { b with failingCalls := b.failingCalls + 1 }

/-- Failures to come. -/
def failing (b : Simulated) : Nat := b.failingConnects + b.failingCalls

/-- Some failures more are to come, and nothing else is different. -/
structure Fails (more : Nat) (b b' : Simulated) : Prop where
  record : b'.record = b.record
  rejectedCalls : b'.rejectedCalls = b.rejectedCalls
  failing : b'.failing = b.failing + more

theorem fails_loseConnect (b : Simulated) : Fails 1 b b.loseConnect :=
  ⟨rfl, rfl, by simp only [failing, loseConnect]; omega⟩

theorem fails_loseCall (b : Simulated) : Fails 1 b b.loseCall := ⟨rfl, rfl, rfl⟩

/-- A connect opens a handle, or is one of the failures to come. -/
theorem connect_failing (b : Simulated) :
    (∃ cause b', b.connect = (.error cause, b') ∧ cause.isConnectivity = true ∧ Fails 1 b' b) ∨
    ∃ handle b', b.connect = (.ok handle, b') ∧ Fails 0 b b' := by
  rw [connect]
  by_cases fails : 0 < b.failingConnects
  · rw [if_pos fails]
    exact Or.inl ⟨_, _, rfl, rfl, rfl, rfl, by simp only [failing]; omega⟩
  · rw [if_neg fails]
    exact Or.inr ⟨_, _, rfl, rfl, rfl, rfl⟩

/-- A call is carried out, or is one of the failures to come. -/
theorem perform_failing {b : Simulated} (accepting : b.rejectedCalls = 0) (c : Call) :
    (∃ cause b', perform c b = (.error cause, b') ∧ cause.isConnectivity = true ∧ Fails 1 b' b) ∨
    ∃ b', perform c b = (.ok (b.light.reply c), b') ∧ b'.record = recordAfter b.record c ∧
      b'.rejectedCalls = 0 ∧ b'.failing = b.failing := by
  rw [perform]
  by_cases fails : 0 < b.failingCalls
  · rw [if_pos fails]
    exact Or.inl ⟨_, _, rfl, rfl, rfl, rfl, by simp only [failing]; omega⟩
  · rw [if_neg fails, if_neg (by omega)]
    exact Or.inr ⟨_, rfl, rfl, accepting, rfl⟩

end Simulated

/-- A simulated bulb, and for every connect and call to come whether it is lost; after the last entry
none is, but for the failures that the bulb itself has pending. -/
structure Flaky where
  studio : Studio
  losses : List Bool

namespace Flaky

/-- The simulated bulb. -/
def bulb (w : Flaky) : Simulated := w.studio.bulb

/-- The colour of the light. -/
def colour (w : Flaky) : Hsb := w.bulb.light.hsb

/-- The simulated bulb as the next connect or call finds it. -/
def met (lose : Simulated → Simulated) (w : Flaky) : Simulated :=
  if w.losses.headD false then lose w.bulb else w.bulb

/-- With the simulated bulb after a connect or call. -/
def left (w : Flaky) (bulb : Simulated) : Flaky := ⟨{ w.studio with bulb }, w.losses.tail⟩

/-- Opens a handle. -/
def connect (w : Flaky) : Except BulbError Nat × Flaky :=
  let (result, bulb) := (w.met Simulated.loseConnect).connect
  (result, w.left bulb)

/-- Sends a call. -/
def send (c : Call) (w : Flaky) : Except BulbError c.Reply × Flaky :=
  let (result, bulb) := (w.met Simulated.loseCall).perform c
  (result, w.left bulb)

/-- Sends a call, a whole colour by its parts if the bulb takes it only so. -/
def perform (c : Call) (w : Flaky) : Except BulbError c.Reply × Flaky :=
  if w.studio.inParts then inSteps send c w else send c w

/-- The answer to a question, and the bulb after it. -/
def answer : (q : Question) → Flaky → q.Answer × Flaky
  | .connect, w => w.connect
  | .call _ c, w => w.perform c
  | q, w =>
    let (a, studio) := w.studio.answer q
    (a, { w with studio })

/-- Failures still to come. -/
def pending (w : Flaky) : Nat := w.losses.count true + w.bulb.failing

/-- What no connect and no call changes: whether a stop has been requested, what the bulb rejects, and
how it takes a colour. -/
def setting (w : Flaky) : Bool × Nat × Bool :=
  (w.studio.control.stopping, w.bulb.rejectedCalls, w.studio.inParts)

theorem left_setting {w : Flaky} {b : Simulated} (h : b.rejectedCalls = w.bulb.rejectedCalls) :
    (w.left b).setting = w.setting :=
  congrArg (fun n => (w.studio.control.stopping, n, w.studio.inParts)) h

/-- A planned loss becomes a failure that the bulb has pending. -/
theorem met_pending {lose : Simulated → Simulated} (loses : ∀ b : Simulated, b.Fails 1 (lose b))
    (w : Flaky) : ∃ more, w.bulb.Fails more (w.met lose) ∧
      w.pending = w.losses.tail.count true + (w.met lose).failing := by
  rw [pending, met]
  rcases w.losses with _ | ⟨_ | _, losses⟩
  · exact ⟨0, ⟨rfl, rfl, rfl⟩, rfl⟩
  · exact ⟨0, ⟨rfl, rfl, rfl⟩, by rw [List.count_cons]; rfl⟩
  · refine ⟨1, loses _, ?_⟩
    rw [List.headD_cons, if_pos rfl, (loses _).failing, List.count_cons_self, List.tail_cons]
    omega

/-- Nothing was done to the light. -/
structure Spared (w w' : Flaky) : Prop where
  setting : w'.setting = w.setting
  record : w'.bulb.record = w.bulb.record

/-- A connect or call failed and left no trace. -/
structure Missed (w w' : Flaky) : Prop extends Spared w w' where
  pending : w'.pending + 1 = w.pending

/-- A call was carried out. -/
structure Told (c : Call) (w w' : Flaky) : Prop where
  setting : w'.setting = w.setting
  record : w'.bulb.record = Simulated.recordAfter w.bulb.record c
  pending : w'.pending = w.pending

theorem Missed.of_fails {lose : Simulated → Simulated} (loses : ∀ b : Simulated, b.Fails 1 (lose b))
    {w : Flaky} {b : Simulated} (h : b.Fails 1 (w.met lose)) : Missed w (w.left b) := by
  obtain ⟨more, found, counted⟩ := w.met_pending loses
  refine ⟨⟨left_setting (h.rejectedCalls.symm.trans found.rejectedCalls),
    h.record.symm.trans found.record⟩, ?_⟩
  rw [counted, h.failing]
  rfl

/-- A connect opens a handle, or is one of the failures to come. -/
theorem connect_cases (w : Flaky) :
    (∃ cause w', w.connect = (.error cause, w') ∧ cause.isConnectivity = true ∧ Missed w w') ∨
    ∃ handle w', w.connect = (.ok handle, w') ∧ Spared w w' ∧ w'.pending = w.pending := by
  rw [connect]
  obtain ⟨cause, b, hb, conn, fails⟩ | ⟨handle, b, hb, keeps⟩ :=
    (w.met Simulated.loseConnect).connect_failing
  · rw [hb]
    exact Or.inl ⟨_, _, rfl, conn, .of_fails Simulated.fails_loseConnect fails⟩
  · obtain ⟨more, found, counted⟩ := w.met_pending Simulated.fails_loseConnect
    rw [hb]
    refine Or.inr ⟨_, _, rfl, ⟨left_setting (keeps.rejectedCalls.trans found.rejectedCalls),
      keeps.record.trans found.record⟩, ?_⟩
    rw [counted, ← Nat.add_zero (Simulated.failing _), ← keeps.failing]
    rfl

/-- A call is carried out, or is one of the failures to come. -/
theorem send_cases {w : Flaky} (accepting : w.bulb.rejectedCalls = 0) (c : Call) :
    (∃ cause w', send c w = (.error cause, w') ∧ cause.isConnectivity = true ∧ Missed w w') ∨
    ∃ w', send c w = (.ok (w.bulb.light.reply c), w') ∧ Told c w w' := by
  obtain ⟨more, found, counted⟩ := w.met_pending Simulated.fails_loseCall
  have light : (w.met Simulated.loseCall).light = w.bulb.light := congrArg Prod.snd found.record
  rw [send]
  obtain ⟨cause, b, hb, conn, fails⟩ | ⟨b, hb, record, rejectedCalls, failing⟩ :=
    Simulated.perform_failing (found.rejectedCalls.trans accepting) c
  · rw [hb]
    exact Or.inl ⟨_, _, rfl, conn, .of_fails Simulated.fails_loseCall fails⟩
  · rw [hb, light]
    refine Or.inr ⟨_, rfl, left_setting (rejectedCalls.trans accepting.symm),
      by rw [← found.record]; exact record, ?_⟩
    rw [counted, ← failing]
    rfl

/-! ### Tries at a command -/

variable {cmd : Command} {w₀ w w' : Flaky} {since : List Call}

/-- What calls since `w₀` have done to the light: every channel has drifted as often as it was set. -/
structure Tracks (cmd : Command) (w₀ : Flaky) (since : List Call) (w : Flaky) : Prop where
  setting : w.setting = w₀.setting
  calls : w.bulb.calls = w₀.bulb.calls ++ since
  drifts : ∀ ch : Channel,
    Drifts (ch.moves since) (ch.spread cmd) ch.upper (ch.level w₀.colour) (ch.level w.colour)

theorem Spared.colour (h : Spared w w') : w'.colour = w.colour :=
  congrArg (fun r => r.2.hsb) h.record

/-- The colour after a call. -/
theorem Told.colour {c : Call} (t : Told c w w') : w'.colour = (w.bulb.light.after c).hsb :=
  congrArg (fun r => r.2.hsb) t.record

theorem Tracks.spared (h : Tracks cmd w₀ since w) (same : Spared w w') :
    Tracks cmd w₀ since w' where
  setting := same.setting.trans h.setting
  calls := (congrArg Prod.fst same.record).trans h.calls
  drifts ch := by
    rw [same.colour]
    exact h.drifts ch

/-- A call that moves what it sets by a window each, and nothing else, adds itself. -/
theorem Tracks.told {c : Call} (h : Tracks cmd w₀ since w) (t : Told c w w')
    (moves : ∀ ch : Channel, Drifts (ch.moves [c]) (ch.spread cmd) ch.upper (ch.level w.colour)
      (ch.level w'.colour)) : Tracks cmd w₀ (since ++ [c]) w' where
  setting := t.setting.trans h.setting
  calls := by
    have calls : w'.bulb.calls = w.bulb.calls ++ [c] := congrArg Prod.fst t.record
    rw [calls, h.calls, List.append_assoc]
  drifts ch := by
    rw [ch.moves_append]
    exact (h.drifts ch).trans (moves ch)

/-- Between two tries at a command, or after the last one, when `n` times a whole colour was set.  A
colour is set in the order of its parts, and every failure costs one hue at most. -/
structure Amid (cmd : Command) (w₀ : Flaky) (n : Nat) (since : List Call) (w : Flaky) : Prop
    extends Tracks cmd w₀ since w where
  brightness : Channel.brightness.moves since = n
  saturation : n ≤ Channel.saturation.moves since
  hue : Channel.saturation.moves since ≤ Channel.hue.moves since
  cost : Channel.hue.moves since + w.pending ≤ w₀.pending + n
  atOnce : w₀.studio.inParts = false → ∀ ch : Channel, ch.moves since = n

theorem Amid.start (w : Flaky) : Amid cmd w 0 [] w where
  setting := rfl
  calls := (List.append_nil _).symm
  drifts ch := .rest (ch.level_le _)
  brightness := rfl
  saturation := Nat.le_refl _
  hue := Nat.le_refl _
  cost := by rw [Channel.moves, List.countP_nil]; omega
  atOnce _ _ := rfl

theorem Amid.spared {n : Nat} (h : Amid cmd w₀ n since w) (same : Spared w w')
    (pending : w'.pending ≤ w.pending) : Amid cmd w₀ n since w' where
  toTracks := h.toTracks.spared same
  brightness := h.brightness
  saturation := h.saturation
  hue := h.hue
  cost := by
    have cost := h.cost
    omega
  atOnce := h.atOnce

/-- A read sets no channel and leaves the light as it is. -/
theorem reads_nothing {c : Call} (reads : c.isWrite = false) :
    (∀ ch : Channel, ch.moves [c] = 0) ∧ ∀ l : Light, l.after c = l := by
  cases c with
  | getRgb | getHue | getSaturation | getBrightness | getTransition | saveSnapshot =>
    exact ⟨fun ch => by cases ch <;> rfl, Light.after_of_read reads⟩
  | _ => exact absurd reads nofun

theorem Amid.read {n : Nat} {c : Call} (h : Amid cmd w₀ n since w) (t : Told c w w')
    (reads : c.isWrite = false) : Amid cmd w₀ n (since ++ [c]) w' ∧ w'.colour = w.colour := by
  obtain ⟨none, leaves⟩ := reads_nothing reads
  have same (ch : Channel) : ch.moves (since ++ [c]) = ch.moves since := by
    rw [ch.moves_append, none]
    rfl
  have colour : w'.colour = w.colour := by
    rw [t.colour, leaves]
    rfl
  refine ⟨⟨h.toTracks.told t fun ch => ?_, ?_, ?_, ?_, ?_, ?_⟩, colour⟩
  · rw [none, colour]
    exact .rest (ch.level_le _)
  · rw [same]
    exact h.brightness
  · rw [same]
    exact h.saturation
  · rw [same, same]
    exact h.hue
  · rw [same, t.pending]
    exact h.cost
  · intro whole ch
    rw [same]
    exact h.atOnce whole ch

/-- A colour that is within one window of the light in every channel. -/
def Near (cmd : Command) (w : Flaky) (target : Hsb) : Prop :=
  ∀ ch : Channel, Drifts 1 (ch.spread cmd) ch.upper (ch.level w.colour) (ch.level target)

/-- A try may begin or go on, with at most `n` failures to come. -/
def Trying (cmd : Command) (w₀ : Flaky) (n : Nat) (w : Flaky) : Prop :=
  w.pending ≤ n ∧ ∃ since, Amid cmd w₀ 0 since w

/-- A try broke off, and fewer than `n` failures are to come. -/
def Lost (cmd : Command) (w₀ : Flaky) (n : Nat) (cause : BulbError) (w : Flaky) : Prop :=
  cause.isConnectivity = true ∧ w.pending < n ∧ ∃ since, Amid cmd w₀ 0 since w

/-- A try went through. -/
def Moved (cmd : Command) (w₀ w : Flaky) : Prop := ∃ since, Amid cmd w₀ 1 since w

theorem Trying.lost {n : Nat} {cause : BulbError} (h : Trying cmd w₀ n w)
    (conn : cause.isConnectivity = true) (m : Missed w w') : Lost cmd w₀ n cause w' := by
  obtain ⟨few, since, h⟩ := h
  have pending := m.pending
  exact ⟨conn, by omega, since, h.spared m.toSpared (by omega)⟩

theorem Trying.spared {n : Nat} (h : Trying cmd w₀ n w) (same : Spared w w')
    (pending : w'.pending = w.pending) : Trying cmd w₀ n w' := by
  obtain ⟨few, since, h⟩ := h
  exact ⟨by omega, since, h.spared same (by omega)⟩

theorem Tracks.accepting (h : Tracks cmd w₀ since w) (accepting : w₀.bulb.rejectedCalls = 0) :
    w.bulb.rejectedCalls = 0 :=
  (congrArg (fun s => s.2.1) h.setting).trans accepting

theorem Tracks.inParts (h : Tracks cmd w₀ since w) : w.studio.inParts = w₀.studio.inParts :=
  congrArg (fun s => s.2.2) h.setting

/-- A bulb that takes a whole colour in one call. -/
theorem Amid.set_at_once {target : Hsb} (h : Amid cmd w₀ 0 since w)
    (accepting : w₀.bulb.rejectedCalls = 0) (near : Near cmd w target) :
    (∃ cause w', send (.setHsb target) w = (.error cause, w') ∧ Lost cmd w₀ w.pending cause w') ∨
    ∃ w', send (.setHsb target) w = (.ok (), w') ∧ Moved cmd w₀ w' := by
  obtain ⟨cause, w', hw, conn, missed⟩ | ⟨w', hw, told⟩ :=
    send_cases (h.accepting accepting) (.setHsb target)
  · have trying : Trying cmd w₀ w.pending w := ⟨Nat.le_refl _, since, h⟩
    exact Or.inl ⟨cause, w', hw, trying.lost conn missed⟩
  · -- one call sets all three, so that they stay in step
    have once (ch : Channel) : ch.moves [.setHsb target] = 1 := by cases ch <;> rfl
    have brightness := h.brightness
    have saturation := h.saturation
    have hue := h.hue
    have cost := h.cost
    have pending := told.pending
    refine Or.inr ⟨w', hw, since ++ [.setHsb target], h.toTracks.told told fun ch => ?_, ?_, ?_, ?_,
      ?_, ?_⟩
    · rw [once, told.colour]
      exact near ch
    · rw [Channel.moves_append, once, brightness]
    · rw [Channel.moves_append, once]
      omega
    · rw [Channel.moves_append, once, Channel.moves_append, once]
      omega
    · rw [Channel.moves_append, once]
      omega
    · intro whole ch
      rw [Channel.moves_append, once, h.atOnce whole]

theorem Told.level_of_ne {target : Hsb} {ch : Channel} (t : Told (ch.setter target) w w')
    (ch' : Channel) (ne : ch' ≠ ch) : ch'.level w'.colour = ch'.level w.colour := by
  rw [t.colour, Channel.level_setter, if_neg ne]
  rfl

/-- One part of a colour moves its channel by a window, and no other. -/
theorem Tracks.part {target : Hsb} {ch : Channel} (h : Tracks cmd w₀ since w)
    (t : Told (ch.setter target) w w')
    (near : Drifts 1 (ch.spread cmd) ch.upper (ch.level w.colour) (ch.level target)) :
    Tracks cmd w₀ (since ++ [ch.setter target]) w' := by
  refine h.told t fun ch' => ?_
  rw [Channel.moves_setter]
  split
  next same =>
    rw [same, t.colour, Channel.level_setter, if_pos rfl]
    exact near
  next ne =>
    rw [t.level_of_ne ch' ne]
    exact .rest (ch'.level_le _)

section

variable {σ : Type} {f : (c : Call) → σ → Except BulbError c.Reply × σ} {target : Hsb}
variable {s s₁ s₂ : σ} {e : BulbError}

theorem inSteps_hue (h : f (.setHue target.hue) s = (.error e, s₁)) :
    inSteps f (.setHsb target) s = (.error e, s₁) := by
  rw [inSteps, h]

theorem inSteps_saturation (h : f (.setHue target.hue) s = (.ok (), s₁))
    (h' : f (.setSaturation target.saturation) s₁ = (.error e, s₂)) :
    inSteps f (.setHsb target) s = (.error e, s₂) := by
  rw [inSteps, h]
  simp only [h']

theorem inSteps_brightness (h : f (.setHue target.hue) s = (.ok (), s₁))
    (h' : f (.setSaturation target.saturation) s₁ = (.ok (), s₂)) :
    inSteps f (.setHsb target) s = f (.setBrightness target.brightness) s₂ := by
  rw [inSteps, h]
  simp only [h']

end

/-- Amid a colour that is set by its parts: the hue has been set, and as long as `more` is one, the
saturation has not. -/
structure Partway (cmd : Command) (w₀ : Flaky) (more : Nat) (since : List Call) (w : Flaky) : Prop
    extends Tracks cmd w₀ since w where
  parts : w₀.studio.inParts = true
  brightness : Channel.brightness.moves since = 0
  saturation : 1 ≤ Channel.saturation.moves since + more
  hue : Channel.saturation.moves since + more ≤ Channel.hue.moves since
  cost : Channel.hue.moves since + w.pending ≤ w₀.pending + 1

theorem Amid.hue_set {target : Hsb} (h : Amid cmd w₀ 0 since w) (parts : w₀.studio.inParts = true)
    (t : Told (Channel.hue.setter target) w w') (near : Near cmd w target) :
    Partway cmd w₀ 1 (since ++ [Channel.hue.setter target]) w' := by
  obtain ⟨tracks, brightness, saturation, hue, cost, -⟩ := h
  have pending := t.pending
  refine ⟨tracks.part t (near .hue), parts, ?_, ?_, ?_, ?_⟩ <;>
    simp only [Channel.moves_part, reduceCtorEq, if_true, if_false] <;> omega

theorem Partway.saturation_set {target : Hsb} (h : Partway cmd w₀ 1 since w)
    (t : Told (Channel.saturation.setter target) w w')
    (near : Drifts 1 (Channel.saturation.spread cmd) 255 (Channel.saturation.level w.colour)
      (Channel.saturation.level target)) :
    Partway cmd w₀ 0 (since ++ [Channel.saturation.setter target]) w' := by
  obtain ⟨tracks, parts, brightness, saturation, hue, cost⟩ := h
  have pending := t.pending
  refine ⟨tracks.part t near, parts, ?_, ?_, ?_, ?_⟩ <;>
    simp only [Channel.moves_part, reduceCtorEq, if_true, if_false] <;> omega

theorem Partway.brightness_set {target : Hsb} (h : Partway cmd w₀ 0 since w)
    (t : Told (Channel.brightness.setter target) w w')
    (near : Drifts 1 (Channel.brightness.spread cmd) 255 (Channel.brightness.level w.colour)
      (Channel.brightness.level target)) : Moved cmd w₀ w' := by
  obtain ⟨tracks, parts, brightness, saturation, hue, cost⟩ := h
  have pending := t.pending
  refine ⟨since ++ [Channel.brightness.setter target], tracks.part t near, ?_, ?_, ?_, ?_,
    fun whole => Bool.noConfusion (parts.symm.trans whole)⟩ <;>
    simp only [Channel.moves_part, reduceCtorEq, if_true, if_false] <;> omega

/-- A colour that was set in part leaves the next try one failure less, for the hue that it costs. -/
theorem Partway.lost {more n : Nat} {cause : BulbError} (h : Partway cmd w₀ more since w)
    (few : w.pending ≤ n) (conn : cause.isConnectivity = true) (m : Missed w w') :
    Lost cmd w₀ n cause w' := by
  obtain ⟨tracks, parts, brightness, saturation, hue, cost⟩ := h
  have pending := m.pending
  exact ⟨conn, by omega, since, tracks.spared m.toSpared, brightness, Nat.zero_le _, by omega,
    by omega, fun whole => Bool.noConfusion (parts.symm.trans whole)⟩

/-- A bulb that takes a colour by its parts. -/
theorem Amid.set_in_parts {target : Hsb} (h : Amid cmd w₀ 0 since w)
    (accepting : w₀.bulb.rejectedCalls = 0) (parts : w₀.studio.inParts = true)
    (near : Near cmd w target) :
    (∃ cause w', inSteps send (.setHsb target) w = (.error cause, w') ∧
      Lost cmd w₀ w.pending cause w') ∨
    ∃ w', inSteps send (.setHsb target) w = (.ok (), w') ∧ Moved cmd w₀ w' := by
  -- the first part that is lost ends the try; the later channels are as they were until then
  obtain ⟨cause, w₁, hw₁, conn, missed⟩ | ⟨w₁, hw₁, told₁⟩ :=
    send_cases (h.accepting accepting) (Channel.hue.setter target)
  · have trying : Trying cmd w₀ w.pending w := ⟨Nat.le_refl _, since, h⟩
    exact Or.inl ⟨cause, w₁, inSteps_hue hw₁, trying.lost conn missed⟩
  have partway₁ := h.hue_set parts told₁ near
  have few₁ : w₁.pending ≤ w.pending := Nat.le_of_eq told₁.pending
  obtain ⟨cause, w₂, hw₂, conn, missed⟩ | ⟨w₂, hw₂, told₂⟩ :=
    send_cases (partway₁.accepting accepting) (Channel.saturation.setter target)
  · exact Or.inl ⟨cause, w₂, inSteps_saturation hw₁ hw₂, partway₁.lost few₁ conn missed⟩
  have near₂ := near .saturation
  rw [← told₁.level_of_ne .saturation nofun] at near₂
  have partway₂ := partway₁.saturation_set told₂ near₂
  have few₂ : w₂.pending ≤ w.pending := Nat.le_trans (Nat.le_of_eq told₂.pending) few₁
  obtain ⟨cause, w₃, hw₃, conn, missed⟩ | ⟨w₃, hw₃, told₃⟩ :=
    send_cases (partway₂.accepting accepting) (Channel.brightness.setter target)
  · exact Or.inl ⟨cause, w₃, (inSteps_brightness hw₁ hw₂).trans hw₃,
      partway₂.lost few₂ conn missed⟩
  have near₃ := near .brightness
  rw [← told₁.level_of_ne .brightness nofun, ← told₂.level_of_ne .brightness nofun] at near₃
  exact Or.inr ⟨w₃, (inSteps_brightness hw₁ hw₂).trans hw₃, partway₂.brightness_set told₃ near₃⟩

/-- A colour is set, wherever that breaks off and however the bulb takes it. -/
theorem Trying.set_colour {n : Nat} {target : Hsb} (h : Trying cmd w₀ n w)
    (accepting : w₀.bulb.rejectedCalls = 0) (near : Near cmd w target) :
    (∃ cause w', perform (.setHsb target) w = (.error cause, w') ∧ Lost cmd w₀ n cause w') ∨
    ∃ reply w', perform (.setHsb target) w = (.ok reply, w') ∧ Moved cmd w₀ w' := by
  obtain ⟨few, since, h⟩ := h
  have sets : (∃ cause w', perform (.setHsb target) w = (.error cause, w') ∧
      Lost cmd w₀ w.pending cause w') ∨
      ∃ w', perform (.setHsb target) w = (.ok (), w') ∧ Moved cmd w₀ w' := by
    rw [perform, h.inParts]
    cases parts : w₀.studio.inParts with
    | true => exact h.set_in_parts accepting parts near
    | false => exact h.set_at_once accepting near
  obtain ⟨cause, w', hw, conn, fewer, amid⟩ | ⟨w', hw, moved⟩ := sets
  · exact Or.inl ⟨cause, w', hw, conn, by omega, amid⟩
  · exact Or.inr ⟨_, w', hw, moved⟩

theorem perform_read {c : Call} (reads : c.isWrite = false) : perform c w = send c w := by
  rw [perform]
  split
  · cases c with
    | setHsb => exact absurd reads nofun
    | _ => rfl
  · rfl

/-- A channel is read, and the light stays as it is. -/
theorem Trying.read {n : Nat} {c : Call} (h : Trying cmd w₀ n w)
    (accepting : w₀.bulb.rejectedCalls = 0) (reads : c.isWrite = false) :
    (∃ cause w', perform c w = (.error cause, w') ∧ Lost cmd w₀ n cause w') ∨
    ∃ w', perform c w = (.ok (w.bulb.light.reply c), w') ∧ Trying cmd w₀ n w' ∧
      w'.colour = w.colour := by
  rw [perform_read reads]
  have h' := h
  obtain ⟨few, since, amid⟩ := h
  obtain ⟨cause, w', hw, conn, missed⟩ | ⟨w', hw, told⟩ := send_cases (amid.accepting accepting) c
  · exact Or.inl ⟨cause, w', hw, h'.lost conn missed⟩
  · obtain ⟨amid, colour⟩ := amid.read told reads
    exact Or.inr ⟨w', hw, ⟨told.pending ▸ few, _, amid⟩, colour⟩

/-! ### The moves of a try -/

section

variable {X S ε : Type} {c : Chronicle X S Question Question.Answer Flaky}
variable {c' : Chronicle X PlaybackState Question Question.Answer Flaky}

/-- A question that neither the bulb nor a stop has to do with. -/
theorem takes_other {P : Flaky → Prop} {q : Question} (free : ∀ m t, c.along m t)
    (same : ∀ w, P w → P (answer q w).2) :
    Surely answer (ε := ε) c (fun _ _ w => P w) (Talk.ask q) :=
  keeps_ask fun _ _ w hi => ⟨free _ _, same w hi⟩

theorem takes_send {P : Flaky → Prop} {handle : Nat} {call : Call}
    {done : call.Reply → Flaky → Prop} {lost : BulbError → Flaky → Prop}
    (free : ∀ m t, c'.along m t)
    (h : ∀ w, P w → (∃ cause w', perform call w = (.error cause, w') ∧ lost cause w') ∨
      ∃ reply w', perform call w = (.ok reply, w') ∧ done reply w') :
    Takes answer c' (fun _ _ w => P w) (Execution.send handle call)
      (atEnd (fun reply _ _ w => done reply w) fun cause _ _ w => lost cause w) := by
  refine Execution.takes_send (takes_ask.mpr fun m s w hi => ⟨free _ _, ?_⟩)
  obtain ⟨cause, w', hw, hl⟩ | ⟨reply, w', hw, hd⟩ := h w hi
  · rw [show answer (.call handle call) w = (.error cause, w') from hw]
    exact hl
  · rw [show answer (.call handle call) w = (.ok reply, w') from hw]
    exact hd

/-- A channel that is moved by chance stays within one window. -/
theorem takes_jittered {P : Flaky → Prop} {broken : BulbError → Flaky → Prop} {x upper : Nat}
    (free : ∀ m t, c'.along m t)
    (roll : ∀ limit positive w, P w → P (answer (.roll limit positive) w).2)
    (fits : x ≤ upper) (small : upper ≤ 65535) (variance : Int64) :
    Takes answer c' (fun _ _ w => P w)
      (Execution.jittered (Int64.ofNat x) (Int64.ofNat upper) variance)
      (atEnd (fun v _ _ w => P w ∧ ∃ y : Nat, v.toInt = y ∧
        Drifts 1 (Jitter.spread variance) upper x y) fun cause _ _ w => broken cause w) := by
  rw [Execution.jittered, jitter]
  split
  next zero =>
    refine takes_pure fun _ _ _ hi => ⟨hi, x, Int64.toInt_ofNat_of_lt (by omega), ?_⟩
    rw [zero]
    exact ⟨by omega, by omega⟩
  next =>
    refine takes_bind (takes_other free (roll _ _)) (fun offset => ?_) fun _ _ _ _ => False.elim
    refine takes_pure fun _ _ _ hi => ⟨hi, ?_⟩
    exact Jitter.drifts_moved fits small offset.isLt (Jitter.spread_le variance)

variable {n : Nat} {handle : Nat} {hsb : Hsb}

theorem takes_read (call : Call) (level : Hsb → call.Reply) (free : ∀ m t, c'.along m t)
    (accepting : w₀.bulb.rejectedCalls = 0) (reads : call.isWrite = false)
    (gives : ∀ l : Light, l.reply call = level l.hsb) :
    Takes answer c' (fun _ _ w => Trying cmd w₀ n w ∧ w.colour = hsb)
      (Execution.send handle call)
      (atEnd (fun reply _ _ w => (Trying cmd w₀ n w ∧ w.colour = hsb) ∧ reply = level hsb)
        fun cause _ _ w => Lost cmd w₀ n cause w) := by
  refine takes_send free ?_
  rintro w ⟨trying, rfl⟩
  obtain lost | ⟨w', hw, trying', colour⟩ := trying.read accepting reads
  · exact Or.inl lost
  · exact Or.inr ⟨_, w', hw, ⟨trying', colour⟩, gives _⟩

theorem near_of_levels {hue saturation brightness : Int64} {x y z : Nat} (hx : hue.toInt = x)
    (hy : saturation.toInt = y) (hz : brightness.toInt = z)
    (nearX : Drifts 1 (Channel.hue.spread cmd) 65535 w.colour.hue.toNat x)
    (nearY : Drifts 1 (Channel.saturation.spread cmd) 255 w.colour.saturation.toNat y)
    (nearZ : Drifts 1 (Channel.brightness.spread cmd) 255 w.colour.brightness.toNat z) :
    Near cmd w ⟨toHue hue, toLevel saturation, toLevel brightness⟩ := by
  have highX := nearX.high
  have highY := nearY.high
  have highZ := nearZ.high
  intro ch
  cases ch with
  | hue =>
    show Drifts _ _ _ _ (toHue hue).toNat
    rw [toNat_toHue hx (by omega)]
    exact nearX
  | saturation =>
    show Drifts _ _ _ _ (toLevel saturation).toNat
    rw [toNat_toLevel hy (by omega)]
    exact nearY
  | brightness =>
    show Drifts _ _ _ _ (toLevel brightness).toNat
    rw [toNat_toLevel hz (by omega)]
    exact nearZ

/-- A draw leaves the bulb alone. -/
theorem trying_roll (limit : Nat) (positive : 0 < limit) (w : Flaky)
    (h : Trying cmd w₀ n w ∧ w.colour = hsb) :
    Trying cmd w₀ n (answer (.roll limit positive) w).2 ∧
      (answer (.roll limit positive) w).2.colour = hsb := by
  obtain ⟨trying, colour⟩ := h
  exact ⟨trying.spared ⟨rfl, rfl⟩ rfl, colour⟩

/-- One try at moving the colour by chance. -/
theorem takes_perform (does : cmd.instruction = .hsbJitter) (free : ∀ m t, c'.along m t)
    (accepting : w₀.bulb.rejectedCalls = 0) :
    Takes answer c' (fun _ _ w => Trying cmd w₀ n w) (Lightshow.perform handle cmd)
      (atEnd (fun _ _ _ w => Moved cmd w₀ w) fun cause _ _ w => Lost cmd w₀ n cause w) := by
  -- reads and draws leave the colour that the try started from, so all windows are around it
  have fromHere (hsb : Hsb) : Takes answer c' (fun _ _ w => Trying cmd w₀ n w ∧ w.colour = hsb)
      (Lightshow.perform handle cmd)
      (atEnd (fun _ _ _ w => Moved cmd w₀ w) fun cause _ _ w => Lost cmd w₀ n cause w) := by
    rw [Lightshow.perform, does]
    refine takes_bind (takes_read .getHue Hsb.hue free accepting rfl fun _ => rfl)
      (fun hue => takes_and fun hueIs => ?_) fun _ _ _ _ hl => hl
    refine takes_bind (takes_read .getSaturation Hsb.saturation free accepting rfl fun _ => rfl)
      (fun saturation => takes_and fun saturationIs => ?_) fun _ _ _ _ hl => hl
    refine takes_bind (takes_read .getBrightness Hsb.brightness free accepting rfl fun _ => rfl)
      (fun brightness => takes_and fun brightnessIs => ?_) fun _ _ _ _ hl => hl
    rw [hueIs, saturationIs, brightnessIs]
    have hueFits := Channel.hue.level_le hsb
    have saturationFits := Channel.saturation.level_le hsb
    have brightnessFits := Channel.brightness.level_le hsb
    refine takes_bind (takes_jittered free trying_roll hueFits (Nat.le_refl _) _)
      (fun hue => takes_and fun hueMoves => ?_) fun _ _ _ _ hl => hl
    refine takes_bind (takes_jittered free trying_roll saturationFits (by decide) _)
      (fun saturation => takes_and fun saturationMoves => ?_) fun _ _ _ _ hl => hl
    refine takes_bind (takes_jittered free trying_roll brightnessFits (by decide) _)
      (fun brightness => takes_and fun brightnessMoves => ?_) fun _ _ _ _ hl => hl
    obtain ⟨x, hx, nearX⟩ := hueMoves
    obtain ⟨y, hy, nearY⟩ := saturationMoves
    obtain ⟨z, hz, nearZ⟩ := brightnessMoves
    refine takes_send free ?_
    rintro w ⟨trying, rfl⟩
    exact trying.set_colour accepting (near_of_levels hx hy hz nearX nearY nearZ)
  exact fun m s w trying => fromHere w.colour m s w ⟨trying, rfl⟩

end

/-! ### The whole command -/

section

variable {n : Nat}

/-- Nothing but calls has to do with the tries. -/
theorem unmoved {c : Chronicle Unit Player Question Question.Answer Flaky}
    (free : ∀ m t, c.along m t) (cmd : Command) (w₀ : Flaky) (n : Nat) :
    Player.Unmoved answer c (fun _ _ w => Trying cmd w₀ n w) (fun cause _ _ w => Lost cmd w₀ n cause w)
      fun _ _ _ _ => True where
  connect := by
    refine takes_ask.mpr fun m p w trying => ⟨free _ _, ?_⟩
    obtain ⟨cause, w', hw, conn, missed⟩ | ⟨handle, w', hw, same, pending⟩ :=
      w.connect_cases
    · rw [show answer .connect w = (.error cause, w') from hw]
      exact trying.lost conn missed
    · rw [show answer .connect w = (.ok handle, w') from hw]
      exact trying.spared same pending
  stopping := takes_other free fun _ h => h
  retrying _ := takes_other free fun _ h => h
  report _ := takes_other free fun _ h => h
  backoff _ _ _ _ h := h
  handle _ _ _ _ h := h
  reconnects _ _ _ _ h := h
  retry _ _ _ _ _ h := ⟨Nat.le_of_lt h.2.1, h.2.2⟩
  final _ _ _ _ _ _ := trivial
  unfinished _ _ _ _ := trivial

/-- No stop is found where none had been requested. -/
theorem takes_stopping {ε S : Type} {c : Chronicle Unit S Question Question.Answer Flaky}
    (stopped : Unit → S → Flaky → Prop) (free : ∀ m t, c.along m t)
    (running : w₀.studio.control.stopping = false) :
    Takes answer (ε := ε) c (fun _ _ w => Trying cmd w₀ n w) (Talk.ask .stopping)
      (atEnd (fun stop => if stop then stopped else fun _ _ w => Trying cmd w₀ n w)
        fun _ _ _ _ => False) := by
  refine takes_ask.mpr fun m s w trying => ⟨free _ _, ?_⟩
  have going : w.studio.control.stopping = false := by
    obtain ⟨-, since, amid⟩ := trying
    exact (congrArg Prod.fst amid.setting).trans running
  show (if w.studio.control.stopping then stopped else fun _ _ w => Trying cmd w₀ n w) _ _ _
  rw [going]
  exact trying

/-- A command that moves the colour by chance is got through with any number of failures. -/
theorem takes_dispatch (does : cmd.instruction = .hsbJitter)
    (running : w₀.studio.control.stopping = false) (accepting : w₀.bulb.rejectedCalls = 0)
    {fuel : Nat} (enough : n < fuel) :
    Takes answer (.each fun _ => True) (fun _ _ w => Trying cmd w₀ n w) (Player.dispatch cmd fuel)
      (atEnd (fun d _ _ w => (∃ length, d = .sleep length) ∧ Moved cmd w₀ w)
        fun _ _ _ _ => False) := by
  have untouched (n : Nat) := unmoved (c := .each fun _ => True) (fun _ _ => trivial) cmd w₀ n
  -- each try that is lost uses up a failure, so there are fewer tries than `fuel`
  refine Player.takes_dispatch_bounded untouched (fun n cause m p w lost => ?_) (fun n => ?_)
    (fun n handle => ?_) (fun _ _ _ _ _ moved => moved) fuel n enough
  · obtain ⟨conn, fewer, amid⟩ := lost
    exact ⟨conn, w.pending, fewer, Nat.le_refl _, amid⟩
  · exact (untouched n).takes_openHandle (takes_stopping _ (fun _ _ => trivial) running)
  · refine Player.takes_attempt fun p => ?_
    refine (Execution.takes_execute
      (takes_stopping (fun _ _ _ => False) (fun _ _ => trivial) running)
      (takes_perform does (fun _ _ => trivial) accepting)).mono (fun _ _ _ hi => hi)
      fun r m s w hr => ?_
    rcases r with cause | length | _
    · exact hr
    · exact ⟨⟨length, rfl⟩, hr⟩
    · exact hr.elim

end

/-- Colours moved by chance come through any failures that pass, and every channel ends up within as
many windows as it was set times: once if the bulb takes a whole colour in one call, and no more often
than there were failures and one try besides. -/
theorem dispatch_drifts {cmd : Command} {fuel : Nat} {p : Player} {w : Flaky}
    (does : cmd.instruction = .hsbJitter) (running : w.studio.control.stopping = false)
    (accepting : w.bulb.rejectedCalls = 0) (enough : w.pending < fuel) :
    Leads answer (Player.dispatch cmd fuel) p w fun _ r _ w' =>
      (∃ length, r = .ok (.sleep length)) ∧ ∃ since, w'.bulb.calls = w.bulb.calls ++ since ∧
        (∀ ch : Channel, Drifts (ch.moves since) (ch.spread cmd) ch.upper (ch.level w.colour)
          (ch.level w'.colour)) ∧
        Channel.brightness.moves since = 1 ∧
        (∀ ch : Channel, 1 ≤ ch.moves since ∧ ch.moves since ≤ w.pending + 1) ∧
        (w.studio.inParts = false → ∀ ch : Channel, ch.moves since = 1) := by
  have start : Trying cmd w w.pending w := ⟨Nat.le_refl _, [], .start w⟩
  refine (takes_dispatch does running accepting enough () p w start).mono fun T r p' w' h => ?_
  obtain ⟨-, h⟩ := h
  cases r with
  | error halt => exact h.elim
  | ok d =>
    obtain ⟨⟨length, rfl⟩, since, amid⟩ := h
    refine ⟨⟨length, rfl⟩, since, amid.calls, amid.drifts, amid.brightness, fun ch => ?_,
      amid.atOnce⟩
    have brightness := amid.brightness
    have saturation := amid.saturation
    have hue := amid.hue
    have cost := amid.cost
    cases ch <;> omega

/-- A blue bulb that takes a colour by its parts and loses the first saturation it is sent, with draws
near the upper end. -/
def halfway : Flaky where
  studio := {
    bulb := .new "1" (Light.dark.withHsb ⟨43690, 255, 255⟩)
    inParts := true
    control := .idle
    draws := .start [18410715276690587648, 18410715276690587648] 0 }
  losses := [false, false, false, false, true]

/-- A player with an open handle. -/
def connected : Player := { Player.new "1" ⟨[]⟩ .usual with handle := some 0 }

/-- Moves the hue by chance, and nothing else. -/
def hueJitter : Command := ⟨0, .hsbJitter, [1, 0, 0]⟩

/-- The lost saturation costs the hue another window. -/
theorem dispatch_drifts_halfway :
    hueJitter.instruction = .hsbJitter ∧ halfway.studio.control.stopping = false ∧
      halfway.bulb.rejectedCalls = 0 ∧ halfway.pending < 2 ∧
      Leads answer (Player.dispatch hueJitter 2) connected halfway fun _ r _ w' =>
        (∃ length, r = .ok (.sleep length)) ∧
          Channel.hue.moves w'.bulb.calls = 2 ∧ Channel.brightness.moves w'.bulb.calls = 1 ∧
          Drifts 2 257 65535 43690 (Channel.hue.level w'.colour) ∧
          Channel.saturation.level w'.colour = 255 := by
  have does : hueJitter.instruction = .hsbJitter := rfl
  have few : halfway.pending < 2 := by decide
  have twice : Leads answer (Player.dispatch hueJitter 2) connected halfway fun _ _ _ w' =>
      Channel.hue.moves w'.bulb.calls = 2 := by
    rw [leads_iff]
    decide +kernel
  refine ⟨does, rfl, rfl, few, ?_⟩
  obtain ⟨through, since, calls, drifts, brightness, -⟩ :=
    dispatch_drifts (p := connected) (w := halfway) does rfl rfl few
  rw [leads_iff] at twice ⊢
  rw [calls] at twice ⊢
  have hue := drifts .hue
  rw [show Channel.hue.moves since = 2 from twice] at hue
  exact ⟨through, twice, brightness, hue, (drifts .saturation).eq_of_zero⟩

/-- Whether a command was executed in the end. -/
def isExecuted : Except Halt Dispatch → Bool
  | .ok (.sleep _) => true
  | _ => false

theorem exists_of_isExecuted {r : Except Halt Dispatch} (h : isExecuted r = true) :
    ∃ length, r = .ok (.sleep length) := by
  rcases r with halt | length | _
  · cases h
  · exact ⟨length, rfl⟩
  · cases h

/-- A hue that has moved by more than one window. -/
theorem halfway_drifts_twice :
    Leads answer (Player.dispatch hueJitter 2) connected halfway fun _ r _ w' =>
      (∃ length, r = .ok (.sleep length)) ∧
        ¬Drifts 1 (Channel.hue.spread hueJitter) Channel.hue.upper
          (Channel.hue.level halfway.colour) (Channel.hue.level w'.colour) := by
  rw [leads_iff]
  have executed :
      isExecuted ((Player.dispatch hueJitter 2).ending answer connected halfway).result = true := by
    decide +kernel
  have reached : Channel.hue.level
      ((Player.dispatch hueJitter 2).ending answer connected halfway).world.colour = 43946 := by
    decide +kernel
  refine ⟨exists_of_isExecuted executed, ?_⟩
  rw [reached]
  intro drifts
  exact absurd drifts.high (by decide +kernel)

end Flaky

end Lightshow
