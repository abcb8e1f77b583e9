/-
The log of a simulated bulb.

What is done to a simulated bulb, through whichever handles, comes from a client that may go on
according to the answers; failures are ordered in between.  The log then tells all about the light: it
lists the calls that were carried out, in order, and its writes, made once more on the light of the
beginning, give the light.

* `Simulated.Act`, `Simulated.act` -- what can be done to a bulb, failures that are ordered included;
* `Light.replay` -- the light that a log leads to;
* `Light.replay_on`, `Light.replay_transition`, `Light.replay_hsb`, `Light.replay_rgb` -- each part of that
  light by the last writes of its kind;
* `Simulated.settles_act` -- one act: it is carried out, or uses up one failure and changes nothing else;
* `Simulated.log_replays` -- the log and the light along everything that a client does.
-/
import Lightshow.Proofs.Performance
import Mathlib.Data.List.Induction

namespace Lightshow

/-- The light that the writes of a log lead to. -/
def Light.replay (l : Light) (calls : List Call) : Light :=
  (calls.filter Call.isWrite).foldl Light.after l

/-- Readings may stand in a log or not. -/
theorem Light.foldl_after (l : Light) (calls : List Call) :
    calls.foldl after l = l.replay calls := by
  induction calls generalizing l with
  | nil => rfl
  | cons c calls ih =>
    rw [List.foldl_cons, ih, replay, replay]
    cases writes : c.isWrite with
    | false => rw [List.filter_cons_of_neg (by simp [writes]), after_of_read writes]
    | true => rw [List.filter_cons_of_pos writes, List.foldl_cons]

/-! ### The last writes of a log -/

namespace Call

/-- What a call switches the light to, if it does. -/
def on? : Call → Option Bool
  | .turnOn => some true
  | .turnOff => some false
  | .restoreSnapshot s => some s.on
  | _ => none

/-- What a call sets the transition to, if it does. -/
def transition? : Call → Option (Option Float)
  | .setTransition seconds => some (some seconds)
  | .restoreSnapshot s => some s.transition
  | _ => none

def hue? : Call → Option UInt16
  | .setRgb rgb => some rgb.toHsb.hue
  | .setHue hue => some hue
  | .setHsb hsb => some hsb.hue
  | .restoreSnapshot s => some s.hsb.hue
  | _ => none

def saturation? : Call → Option UInt8
  | .setRgb rgb => some rgb.toHsb.saturation
  | .setSaturation saturation => some saturation
  | .setHsb hsb => some hsb.saturation
  | .restoreSnapshot s => some s.hsb.saturation
  | _ => none

def brightness? : Call → Option UInt8
  | .setRgb rgb => some rgb.toHsb.brightness
  | .setBrightness brightness => some brightness
  | .setHsb hsb => some hsb.brightness
  | .restoreSnapshot s => some s.hsb.brightness
  | _ => none

/-- The channels that a call gives, if it gives a colour, or nothing if it gives that in another form. -/
def channels? : Call → Option (Option Rgb)
  | .setRgb rgb => some (some rgb)
  | .setHue _ | .setSaturation _ | .setBrightness _ | .setHsb _ | .restoreSnapshot _ => some none
  | _ => none

end Call

namespace Light

variable {X : Type} (l : Light) (calls : List Call)

theorem replay_concat (c : Call) : l.replay (calls ++ [c]) = (l.replay calls).after c := by
  rw [← foldl_after, ← foldl_after, List.foldl_append]
  rfl

/-- What calls set, if they say anything of it, is as the last of them has set it. -/
theorem replay_last (view : Light → X) {sets : Call → Option X}
    (h : ∀ l c, view (l.after c) = (sets c).getD (view l)) :
    view (l.replay calls) = (calls.filterMap sets).getLast?.getD (view l) := by
  induction calls using List.reverseRecOn with
  | nil => rfl
  | append_singleton calls c ih =>
    rw [replay_concat, h, ih, List.filterMap_append, List.getLast?_append]
    cases given : sets c with
    | none => rw [List.filterMap_cons_none given]; rfl
    | some x => rw [List.filterMap_cons_some given]; rfl

/-- The light is on or off as the last switch of the log has left it. -/
theorem replay_on : (l.replay calls).on = (calls.filterMap Call.on?).getLast?.getD l.on :=
  replay_last l calls (·.on) fun _ c => by cases c <;> rfl

theorem replay_transition :
    (l.replay calls).transition = (calls.filterMap Call.transition?).getLast?.getD l.transition :=
  replay_last l calls (·.transition) fun _ c => by cases c <;> rfl

/-- Hue, saturation and brightness are each as they were given last, alone or with a colour. -/
theorem replay_hsb : (l.replay calls).hsb =
    ⟨(calls.filterMap Call.hue?).getLast?.getD l.hsb.hue,
      (calls.filterMap Call.saturation?).getLast?.getD l.hsb.saturation,
      (calls.filterMap Call.brightness?).getLast?.getD l.hsb.brightness⟩ := by
  rw [← replay_last l calls (·.hsb.hue) fun _ c => by cases c <;> rfl,
    ← replay_last l calls (·.hsb.saturation) fun _ c => by cases c <;> rfl,
    ← replay_last l calls (·.hsb.brightness) fun _ c => by cases c <;> rfl]

/-- The channels are those that were given last, or follow from hue, saturation and brightness if the
colour was last given by these. -/
theorem replay_rgb : (l.replay calls).rgb =
    ((calls.filterMap Call.channels?).getLast?.getD (some l.rgb)).getD (l.replay calls).hsb.toRgb := by
  induction calls using List.reverseRecOn with
  | nil => rfl
  | append_singleton calls c ih =>
    rw [replay_concat, List.filterMap_append, List.getLast?_append]
    cases given : c.channels? with
    | none =>
      rw [List.filterMap_cons_none given]
      have kept : ((l.replay calls).after c).rgb = (l.replay calls).rgb ∧
          ((l.replay calls).after c).hsb = (l.replay calls).hsb := by
        cases c <;> first | exact ⟨rfl, rfl⟩ | exact absurd given nofun
      rw [kept.1, kept.2]
      exact ih
    | some channels =>
      rw [List.filterMap_cons_some given]
      cases c <;> cases given <;> rfl

end Light

namespace Simulated

/-! ### What is done to a bulb -/

/-- Something that is done to a simulated bulb. -/
inductive Act where
  | connect
  | call (handle : Nat) (c : Call)
  /-- The next connects are to fail, that many of them. -/
  | failConnects (count : Nat)
  /-- The next calls are to be lost, that many of them. -/
  | failCalls (count : Nat)
  /-- The next calls are to be refused, that many of them. -/
  | rejectCalls (count : Nat)

/-- What comes of an act. -/
@[reducible] def Act.Result : Act → Type
  | .connect => Except BulbError Nat
  | .call _ c => Except BulbError c.Reply
  | .failConnects _ | .failCalls _ | .rejectCalls _ => Unit

/-- What comes of an act, and the bulb after it; all handles lead to the same light. -/
def act : (a : Act) → Simulated → a.Result × Simulated
  | .connect, b => b.connect
  | .call _ c, b => b.perform c
  | .failConnects count, b => ((), { b with failingConnects := count })
  | .failCalls count, b => ((), { b with failingCalls := count })
  | .rejectCalls count, b => ((), { b with rejectedCalls := count })

variable {S : Type}

/-- The call that was carried out at a turn. -/
def carried? : Turn S Act Act.Result Simulated → Option Call
  | ⟨_, .call _ c, .ok _, _⟩ => some c
  | _ => none

/-- Whether a handle was opened at a turn. -/
def isOpening : Turn S Act Act.Result Simulated → Bool
  | ⟨_, .connect, .ok _, _⟩ => true
  | _ => false

/-- What an act may come to, for a bulb whose light is `shown`: it is carried out if no failure is
pending for it, or it uses up one failure and changes nothing else. -/
def Settles (shown : Light) (b : Simulated) : (a : Act) → a.Result → Simulated → Prop
  | .connect, .ok handle, b' =>
    b.failingConnects = 0 ∧ handle = b.connects ∧ b' = { b with connects := b.connects + 1 }
  | .connect, .error cause, b' =>
    cause.isConnectivity = true ∧ b = { b' with failingConnects := b'.failingConnects + 1 }
  | .call _ c, .ok reply, b' =>
    b.failingCalls = 0 ∧ b.rejectedCalls = 0 ∧ reply = shown.reply c ∧
      b' = { b with light := shown.after c, calls := b.calls ++ [c] }
  | .call _ _, .error cause, b' =>
    (cause.isConnectivity = true ∧ b = { b' with failingCalls := b'.failingCalls + 1 }) ∨
    ((∃ address description, cause = .rejected address description) ∧ b.failingCalls = 0 ∧
      b = { b' with rejectedCalls := b'.rejectedCalls + 1 })
  | .failConnects count, _, b' => b' = { b with failingConnects := count }
  | .failCalls count, _, b' => b' = { b with failingCalls := count }
  | .rejectCalls count, _, b' => b' = { b with rejectedCalls := count }

/-- One act, on a bulb in any state. -/
theorem settles_act (a : Act) (b : Simulated) : Settles b.light b a (act a b).1 (act a b).2 := by
  cases a with
  | connect =>
    rw [act, connect]
    by_cases fails : 0 < b.failingConnects
    · rw [if_pos fails]
      refine ⟨rfl, ?_⟩
      dsimp only
      rw [Nat.sub_add_cancel fails]
    · rw [if_neg fails]
      exact ⟨Nat.eq_zero_of_not_pos fails, rfl, rfl⟩
  | call handle c =>
    rw [act, perform]
    by_cases fails : 0 < b.failingCalls
    · rw [if_pos fails]
      refine Or.inl ⟨rfl, ?_⟩
      dsimp only
      rw [Nat.sub_add_cancel fails]
    rw [if_neg fails]
    by_cases rejects : 0 < b.rejectedCalls
    · rw [if_pos rejects]
      refine Or.inr ⟨⟨_, _, rfl⟩, Nat.eq_zero_of_not_pos fails, ?_⟩
      dsimp only
      rw [Nat.sub_add_cancel rejects]
    · rw [if_neg rejects]
      exact ⟨Nat.eq_zero_of_not_pos fails, Nat.eq_zero_of_not_pos rejects, rfl, rfl⟩
  | failConnects count | failCalls count | rejectCalls count => rfl

/-! ### The log -/

/-- A bulb whose log has the calls that were carried out at some turns, and whose light is what the log
makes of the light of the beginning. -/
structure Logged (l : Light) (T : List (Turn S Act Act.Result Simulated)) (b : Simulated) : Prop where
  calls : b.calls = T.filterMap carried?
  connects : b.connects = T.countP isOpening
  light : b.light = l.replay b.calls

/-- What is kept count of: the record, and how many handles were opened. -/
def count (b : Simulated) : (List Call × Light) × Nat := (b.record, b.connects)

/-- The count after another turn. -/
def countAfter (n : (List Call × Light) × Nat) (t : Turn S Act Act.Result Simulated) :
    (List Call × Light) × Nat :=
  ((carried? t).elim n.1 (recordAfter n.1), n.2 + (isOpening t).toNat)

theorem foldl_countAfter (T : List (Turn S Act Act.Result Simulated))
    (n : (List Call × Light) × Nat) :
    T.foldl countAfter n = ((T.filterMap carried?).foldl recordAfter n.1, n.2 + T.countP isOpening) := by
  induction T generalizing n with
  | nil => rfl
  | cons t T ih =>
    rw [List.foldl_cons, ih, countAfter, Nat.add_assoc, List.filterMap_cons, List.countP_cons]
    cases carried? t <;> cases isOpening t <;> simp [Nat.add_comm]

/-- An act adds to the record what was carried out, and to the handles what was opened. -/
theorem count_act (s : S) (a : Act) (b : Simulated) :
    (act a b).2.count = countAfter b.count ⟨s, a, (act a b).1, b⟩ := by
  have settled := settles_act a b
  generalize act a b = out at settled ⊢
  obtain ⟨r, b'⟩ := out
  cases a with
  | connect =>
    cases r with
    | ok handle =>
      obtain ⟨-, -, rfl⟩ := settled
      rfl
    | error cause =>
      obtain ⟨-, rfl⟩ := settled
      rfl
  | call handle c =>
    cases r with
    | ok reply =>
      obtain ⟨-, -, -, rfl⟩ := settled
      rfl
    | error cause => obtain ⟨-, rfl⟩ | ⟨-, -, rfl⟩ := settled <;> rfl
  | failConnects count | failCalls count | rejectCalls count =>
    obtain rfl := settled
    rfl

theorem logged_of_count {l : Light} {identifier : String}
    {T : List (Turn S Act Act.Result Simulated)} {b : Simulated}
    (counted : b.count = T.foldl countAfter (new identifier l).count) : Logged l T b := by
  rw [foldl_countAfter, foldl_recordAfter] at counted
  obtain ⟨record, connects⟩ := Prod.mk.inj counted
  obtain ⟨calls, light⟩ := Prod.mk.inj record
  have calls : b.calls = T.filterMap carried? := calls.trans (List.nil_append _)
  refine ⟨calls, connects.trans (Nat.zero_add _), light.trans ?_⟩
  rw [calls, ← Light.foldl_after]
  rfl

/-- **The light of a simulated bulb is the replay of its log.**  Whatever a client does, through
whichever handles and with whichever failures: the log lists the calls that were carried out, and its
writes lead from the light of the beginning to the light.  That holds at every turn, and there a call is
answered from the replayed light, or else one failure is used up and nothing else changes. -/
theorem log_replays {α : Type} (identifier : String) (l : Light) (x : Dialogue S Act Act.Result α) :
    let T := x.turns act (new identifier l)
    Logged l T (x.run act (new identifier l)).2 ∧
      ∀ before t after, T = before ++ t :: after → Logged l before t.world ∧
        Settles (l.replay (before.filterMap carried?)) t.world t.question t.answer
          (act t.question t.world).2 := by
  intro T
  have counted (s : S) (a : Act) (b : Simulated) (_ : True) :
      (act a b).2.count = countAfter b.count ⟨s, a, (act a b).1, b⟩ ∧ True :=
    ⟨count_act s a b, trivial⟩
  obtain ⟨⟨final, -⟩, along⟩ := Dialogue.view_follows count (fun _ => True) counted x
    (w := new identifier l) trivial
  refine ⟨logged_of_count final, fun before t after split => ?_⟩
  have logged := logged_of_count (along before t after split)
  refine ⟨logged, ?_⟩
  rw [(Dialogue.turns_split split).1, ← logged.calls, ← logged.light]
  exact settles_act t.question t.world

/-- Two handles, a connect that fails, a lost call, a refused one, and a reading: the failures are used up
one by one, and everything else is in the log and on the light. -/
theorem log_replays_through_failures :
    let blue : Call := .setRgb ⟨0, 0, 255⟩
    let acts : List Act := [.connect, .call 0 .turnOn, .failConnects 1, .connect, .connect,
      .failCalls 1, .rejectCalls 1, .call 0 blue, .call 1 blue, .call 0 blue, .call 1 (.setHue 0),
      .call 0 .getRgb, .call 1 (.setTransition 0.5)]
    let x : Dialogue Unit Act Act.Result Unit :=
      acts.foldr (fun a rest => .ask () a fun _ => rest) (.done ())
    let T := x.turns act (new "lamp" .dark)
    let b := (x.run act (new "lamp" .dark)).2
    (b.calls = [.turnOn, blue, .setHue 0, .getRgb, .setTransition 0.5] ∧ b.connects = 2 ∧
      b.light.on = true ∧ b.light.hsb = ⟨0, 255, 255⟩ ∧ b.light.rgb = ⟨255, 0, 0⟩ ∧
      b.light.transition = some 0.5) ∧
    (∃ before w after cause, T = before ++ ⟨(), .call 0 blue, .error cause, w⟩ :: after ∧
      cause.isConnectivity = true ∧ w = { (w.perform blue).2 with failingCalls := 1 }) ∧
    (∃ before w after cause, T = before ++ ⟨(), .call 1 blue, .error cause, w⟩ :: after ∧
      cause.isConnectivity = false ∧ w = { (w.perform blue).2 with rejectedCalls := 1 }) ∧
    ∃ before w after, T = before ++ ⟨(), .call 0 .getRgb, .ok ⟨255, 0, 0⟩, w⟩ :: after ∧
      before.filterMap carried? = [.turnOn, blue, .setHue 0] := by
  intro blue acts x T b
  obtain ⟨logged, turns⟩ := log_replays "lamp" .dark x
  have calls : b.calls = [.turnOn, blue, .setHue 0, .getRgb, .setTransition 0.5] := rfl
  have light := logged.light
  rw [calls] at light
  refine ⟨⟨calls, logged.connects, ?_, ?_, ?_, ?_⟩, ?_, ?_, ?_⟩
  · rw [light, Light.replay_on]
    rfl
  · rw [light, Light.replay_hsb]
    decide +kernel
  · rw [light, Light.replay_rgb]
    decide +kernel
  · rw [light, Light.replay_transition]
    rfl
  · have split : T = T.take 7 ++ ⟨(), .call 0 blue, _, _⟩ :: T.drop 8 := rfl
    obtain ⟨lost, used⟩ | ⟨-, none, -⟩ := (turns _ _ _ split).2
    · exact ⟨_, _, _, _, split, lost, used⟩
    · exact absurd none nofun
  · have split : T = T.take 8 ++ ⟨(), .call 1 blue, _, _⟩ :: T.drop 9 := rfl
    obtain ⟨-, used⟩ | ⟨⟨_, _, refused⟩, -, used⟩ := (turns _ _ _ split).2
    · exact absurd (congrArg failingCalls used) nofun
    · exact ⟨_, _, _, _, split, by rw [refused]; rfl, used⟩
  · obtain ⟨c, w, split⟩ : ∃ c w, T = T.take 11 ++ ⟨(), .call 0 .getRgb, .ok c, w⟩ :: T.drop 12 :=
      ⟨_, _, rfl⟩
    obtain ⟨-, -, read, -⟩ := (turns _ _ _ split).2
    have red : (Light.replay .dark [.turnOn, blue, .setHue 0]).rgb = ⟨255, 0, 0⟩ := by
      rw [Light.replay_rgb, Light.replay_hsb]
      decide +kernel
    obtain rfl : c = ⟨255, 0, 0⟩ := read.trans red
    exact ⟨_, _, _, split, rfl⟩

end Simulated

end Lightshow
