/-
The power that playback remembers is the power of the light.

Playback switches the light only when it remembers it the other way round, and it remembers a
switch as soon as the bulb has taken it.  A failure in between two calls does no harm, as there is
nothing in between a switch and its memory.

* `Execution.mirror_calm` -- nothing that the execution of a command does breaks the mirror;
* `power_mirrors_light` -- from the start-up to the close the memory mirrors the light, and the
  recorded switches take turns.
-/
import Lightshow.Proofs.Course
import Lightshow.Proofs.Parts
import Mathlib.Data.List.Chain

namespace Lightshow

open Talk Performance

/-! ### Switches -/

/-- What the calls switch the light to, in order. -/
def switches (cs : List Call) : List Power := cs.filterMap Call.switch?

theorem switches_append (cs cs' : List Call) :
    switches (cs ++ cs') = switches cs ++ switches cs' := List.filterMap_append

/-- The first switch is on, and no switch is like the one before. -/
def Alternating (l : List Power) : Prop := (∀ s ∈ l.head?, s = .on) ∧ l.IsChain (· ≠ ·)

theorem Alternating.of_prefix {l l' : List Power} (h : Alternating l') (le : l <+: l') :
    Alternating l := by
  obtain ⟨rest, rfl⟩ := le
  refine ⟨fun s hs => h.1 s ?_, h.2.left_of_append⟩
  cases l with
  | nil => exact absurd hs (by simp)
  | cons s' l => exact hs

/-- A switch that is not like the last one keeps the turns. -/
theorem Alternating.append {l : List Power} {last next : Power} (h : Alternating l)
    (hlast : l.getLast? = some last) (ne : last ≠ next) : Alternating (l ++ [next]) := by
  refine ⟨fun s hs => h.1 s ?_, List.isChain_append.mpr ⟨h.2, List.isChain_singleton _, ?_⟩⟩
  · cases l with
    | nil => exact absurd hlast (by simp)
    | cons s' l => exact hs
  · intro s hs s' hs'
    rw [hlast, Option.mem_some_iff] at hs
    rw [List.head?_singleton, Option.mem_some_iff] at hs'
    rw [← hs, ← hs']
    exact ne

/-- A switch sets the light. -/
theorem Light.after_switch (l : Light) {c : Call} {power : Power} (h : c.switch? = some power) :
    (l.after c).on = true ↔ power = .on := by
  cases c with
  | turnOn => cases h; exact ⟨fun _ => rfl, fun _ => rfl⟩
  | turnOff => cases h; exact ⟨nofun, nofun⟩
  | _ => exact absurd h nofun

/-- Of all other calls, only that which puts settings back can turn the light on or off. -/
theorem Light.after_other (l : Light) {c : Call} (other : c.switch? = none)
    (puts : c.isRestore = false) : (l.after c).on = l.on := by
  cases c with
  | turnOn => exact absurd other nofun
  | turnOff => exact absurd other nofun
  | restoreSnapshot s => exact absurd puts nofun
  | _ => rfl

/-! ### The mirror -/

/-- The remembered power is that of the light and of the last recorded switch, and the recorded
switches take turns. -/
structure Mirrors (power : Power) (w : Performance) : Prop where
  plain : w.Plain
  light : power = .on ↔ w.bulb.light.on = true
  last : (switches w.bulb.calls).getLast? = some power
  alternating : Alternating (switches w.bulb.calls)

namespace Mirrors

variable {power : Power} {w w' : Performance}

/-- A world with the same record is mirrored the same way. -/
theorem of_record (h : Mirrors power w) (plain : w'.Plain)
    (record : w'.bulb.record = w.bulb.record) : Mirrors power w' := by
  have calls : w'.bulb.calls = w.bulb.calls := congrArg Prod.fst record
  have light : w'.bulb.light = w.bulb.light := congrArg Prod.snd record
  refine ⟨plain, ?_, ?_, ?_⟩
  · rw [light]
    exact h.light
  · rw [calls]
    exact h.last
  · rw [calls]
    exact h.alternating

/-- A call that does not switch the light leaves the mirror as it is. -/
theorem after_call (h : Mirrors power w) (plain : w'.Plain) {c : Call} (other : c.switch? = none)
    (puts : c.isRestore = false) (record : w'.bulb.record = Simulated.recordAfter w.bulb.record c) :
    Mirrors power w' := by
  have calls : switches w'.bulb.calls = switches w.bulb.calls := by
    rw [show w'.bulb.calls = w.bulb.calls ++ [c] from congrArg Prod.fst record, switches_append,
      switches, switches, List.filterMap_cons_none other]
    exact List.append_nil _
  have light : w'.bulb.light.on = w.bulb.light.on := by
    rw [show w'.bulb.light = w.bulb.light.after c from congrArg Prod.snd record]
    exact Light.after_other _ other puts
  refine ⟨plain, ?_, ?_, ?_⟩
  · rw [light]
    exact h.light
  · rw [calls]
    exact h.last
  · rw [calls]
    exact h.alternating

/-- A switch the other way is mirrored once it is remembered. -/
theorem after_switch (h : Mirrors power w) (plain : w'.Plain) {c : Call} {next : Power}
    (switch : c.switch? = some next) (ne : power ≠ next)
    (record : w'.bulb.record = Simulated.recordAfter w.bulb.record c) : Mirrors next w' := by
  have calls : switches w'.bulb.calls = switches w.bulb.calls ++ [next] := by
    rw [show w'.bulb.calls = w.bulb.calls ++ [c] from congrArg Prod.fst record, switches_append]
    congr 1
    exact List.filterMap_cons_some switch
  refine ⟨plain, ?_, ?_, ?_⟩
  · rw [show w'.bulb.light = w.bulb.light.after c from congrArg Prod.snd record,
      Light.after_switch _ switch]
  · rw [calls]
    exact List.getLast?_concat
  · rw [calls]
    exact h.alternating.append h.last ne

/-- A question other than a call leaves the mirror as it is. -/
theorem after_other (h : Mirrors power w) {q : Question} (other : ∀ handle c, q ≠ .call handle c) :
    Mirrors power (answer q w).2 := by
  obtain ⟨record, plain⟩ := answer_other h.plain other
  exact h.of_record plain record

end Mirrors

/-- At every turn the memory mirrors the light. -/
def mirror : Chronicle Unit PlaybackState Question Question.Answer Performance :=
  .each fun t => Mirrors t.asker.power t.world

namespace Execution

/-- The memory of an execution mirrors the light. -/
abbrev Mirrored (_ : Unit) (s : PlaybackState) (w : Performance) : Prop := Mirrors s.power w

/-- A switch the other way is mirrored when the talk about it is over, whether or not the bulb
took it. -/
theorem leads_switch {s : PlaybackState} {w : Performance} (h : Mirrors s.power w) (handle : Nat)
    {c : Call} {power : Power} (switch : c.switch? = some power) (ne : s.power ≠ power) :
    Leads answer (send handle c >>= fun _ => modify fun s => { s with power }) s w
      fun T _ s' w' => mirror.Holds () T ∧ Mirrors s'.power w' := by
  rw [send, leads_bind, leads_ask_bind]
  obtain ⟨w', hw, record, plain⟩ | ⟨cause, w', hw, record, plain⟩ :=
    answer_call_cases h.plain handle c
  · rw [hw]
    exact ⟨⟨h, trivial⟩, h.after_switch plain switch ne record⟩
  · rw [hw]
    exact ⟨⟨h, trivial⟩, h.of_record plain record⟩

theorem keeps_powerOn (handle : Nat) :
    Keeps answer mirror Mirrored (fun _ => Mirrored) (powerOn handle) := by
  refine keeps_always.mpr fun _ s w h => ?_
  rw [powerOn, leads_bind, leads_get]
  by_cases off : s.power = .off
  · have ne : s.power ≠ .on := by rw [off]; decide
    dsimp only
    rw [if_pos off]
    exact leads_switch h handle rfl ne
  · dsimp only
    rw [if_neg off]
    exact ⟨trivial, h⟩

theorem keeps_powerOff (handle : Nat) :
    Keeps answer mirror Mirrored (fun _ => Mirrored) (powerOff handle) := by
  refine keeps_always.mpr fun _ s w h => ?_
  rw [powerOff, leads_bind, leads_get]
  by_cases on : s.power = .on
  · have ne : s.power ≠ .off := by rw [on]; decide
    dsimp only
    rw [if_pos on]
    exact leads_switch h handle rfl ne
  · dsimp only
    rw [if_neg on]
    exact ⟨trivial, h⟩

/-- A call that is no switch leaves the mirror as it is, whether or not the bulb took it. -/
theorem keeps_other_send (handle : Nat) {c : Call} (other : c.switch? = none)
    (puts : c.isRestore = false) :
    Keeps answer mirror Mirrored (fun _ => Mirrored) (send handle c) := by
  refine keeps_always.mpr fun _ s w h => ?_
  rw [send, leads_ask_bind]
  obtain ⟨w', hw, record, plain⟩ | ⟨cause, w', hw, record, plain⟩ :=
    answer_call_cases h.plain handle c
  · rw [hw]
    exact ⟨⟨h, trivial⟩, h.after_call plain other puts record⟩
  · rw [hw]
    exact ⟨⟨h, trivial⟩, h.of_record plain record⟩

/-- Nothing that the execution of a command does breaks the mirror. -/
theorem mirror_calm (handle : Nat) : Calm answer mirror Mirrored (fun _ => Mirrored) handle where
  stopping := keeps_ask fun _ _ _ h => ⟨h, h.after_other fun _ _ => nofun⟩
  roll _ _ := keeps_ask fun _ _ _ h => ⟨h, h.after_other fun _ _ => nofun⟩
  send _ other puts := keeps_other_send handle other puts
  powerOn := keeps_powerOn handle
  powerOff := keeps_powerOff handle
  adjustTime _ _ _ _ h := h

end Execution

namespace Player

/-- The memory of a player mirrors the light. -/
abbrev Mirrored (_ : Unit) (p : Player) (w : Performance) : Prop := Mirrors p.state.power w

theorem mirror_unmoved :
    Unmoved answer (mirror.comap Player.state) Mirrored (fun _ => Mirrored) fun _ => Mirrored where
  connect := takes_ask.mpr fun _ _ w h => by
    have after := h.after_other (q := .connect) fun _ _ => nofun
    cases hr : (answer .connect w).1 <;> exact ⟨h, after⟩
  stopping := keeps_ask fun _ _ _ h => ⟨h, h.after_other fun _ _ => nofun⟩
  retrying _ := keeps_ask fun _ _ _ h => ⟨h, h.after_other fun _ _ => nofun⟩
  report _ := keeps_ask fun _ _ _ h => ⟨h, h.after_other fun _ _ => nofun⟩
  backoff _ _ _ _ h := h
  handle _ _ _ _ h := h
  reconnects _ _ _ _ h := h
  retry _ _ _ _ _ h := h
  final _ _ _ _ _ h := h
  unfinished _ _ _ h := h

theorem mirror_untouched : Untouched answer (mirror.comap Player.state) Mirrored where
  stopping := keeps_ask fun _ _ _ h => ⟨h, h.after_other fun _ _ => nofun⟩
  report _ := keeps_ask fun _ _ _ h => ⟨h, h.after_other fun _ _ => nofun⟩
  pacing _ := keeps_ask fun _ _ _ h => ⟨h, h.after_other fun _ _ => nofun⟩
  idling _ := keeps_ask fun _ _ _ h => ⟨h, h.after_other fun _ _ => nofun⟩
  nextScript := keeps_ask fun _ _ _ h => ⟨h, h.after_other fun _ _ => nofun⟩
  summary _ _ _ _ h := h
  script _ _ _ _ h := h
  current _ _ _ _ h := h
  timeAdjust _ _ _ _ h := h

/-- Nothing that playback does breaks the mirror. -/
theorem mirror_play (fuel : Nat) :
    Keeps answer (mirror.comap Player.state) Mirrored (fun _ => Mirrored) (play fuel) := by
  refine mirror_untouched.keeps_play (fun _ _ _ h => h) (fun cmd fuel => ?_) fuel
  refine mirror_unmoved.keeps_dispatch (fun handle => takes_attempt fun p => ?_) fuel
  exact (Execution.mirror_calm handle).keeps_execute cmd

/-- A start-up that succeeds leaves the light on, and remembers it. -/
theorem mirrors_begun {p p₁ : Player} {w w₁ : Performance} {snapshot : Snapshot}
    (h : Begun p w snapshot p₁ w₁) (fresh : w.bulb.calls = []) : Mirrors p₁.state.power w₁ := by
  have calls : w₁.bulb.calls = openingCalls := by rw [h.calls, fresh, List.nil_append]
  obtain ⟨handle, hplayer⟩ := h.player
  rw [hplayer]
  refine ⟨h.plain, ?_, ?_, ?_⟩
  · rw [h.light]
    exact ⟨fun _ => rfl, fun _ => rfl⟩
  · rw [calls]
    rfl
  · rw [calls]
    exact ⟨by decide, List.isChain_singleton _⟩

/-- The calls of a whole run begin with those of its start-up; if that succeeds, the calls of the
passes follow, and no switch comes after them. -/
theorem run_switches (p : Player) {w : Performance} (plain : w.Plain) (fuel : Nat) :
    switches (told ((run fuel).turns answer p w)) = [] ∨
      ∃ snapshot p₁ w₁, startUp.ending answer p w = ⟨.ok snapshot, p₁, w₁⟩ ∧
        switches (told ((run fuel).turns answer p w)) =
          switches (openingCalls ++ told ((play fuel).turns answer p₁ w₁)) := by
  obtain ⟨r, p₁, w₁, begun⟩ : ∃ r p₁ w₁, startUp.ending answer p w = ⟨r, p₁, w₁⟩ := ⟨_, _, _, rfl⟩
  have course := startUp_cases p plain
  rw [leads_iff, begun] at course
  obtain ⟨handle, rfl, htold, -⟩ | ⟨cause, rfl, few⟩ := course
  · refine Or.inr ⟨_, p₁, w₁, begun, ?_⟩
    obtain ⟨ended, p₂, w₂, played⟩ :
        ∃ ended p₂ w₂, (play fuel).ending answer p₁ w₁ = ⟨ended, p₂, w₂⟩ := ⟨_, _, _, rfl⟩
    have closing :
        switches (told ((close w.bulb.light.snapshot ended).turns answer p₂ w₂)) = [] := by
      refine List.filterMap_eq_nil_iff.mpr fun c hc => ?_
      rw [close_told answer _ _ _ _ c hc]
      rfl
    rw [(run_begun begun played).1, told_append, told_append, ← List.append_assoc, htold,
      switches_append, closing, List.append_nil]
  · refine Or.inl (List.filterMap_eq_nil_iff.mpr fun c hc => ?_)
    rw [(run_failed begun).1] at hc
    have reading : ∀ c ∈ [Call.getRgb, .saveSnapshot], c.switch? = none := by decide
    exact reading c (few.subset hc)

/-- In a whole run, whatever happens, the recorded switches begin with on and take turns; and from
a successful start-up to the close playback remembers the light to be on exactly when it is. -/
theorem power_mirrors_light (bulb path : String) (light : Light) (draws : Draws) (files : Files)
    (plot : Nat → List Deed) (script : Script) (backoff : Backoff) (fuel : Nat) :
    let p := new bulb script backoff
    let w := Performance.new bulb light draws files path plot
    let done := (run fuel).ending answer p w
    (∀ t ∈ (run fuel).turns answer p w, Alternating (switches t.world.bulb.calls)) ∧
    Alternating (switches done.world.bulb.calls) ∧
    ∀ snapshot p₁ w₁, startUp.ending answer p w = ⟨.ok snapshot, p₁, w₁⟩ →
      let playing := (play fuel).ending answer p₁ w₁
      (∀ t ∈ (play fuel).turns answer p₁ w₁,
        t.asker.state.power = .on ↔ t.world.bulb.light.on = true) ∧
      (playing.state.state.power = .on ↔ playing.world.bulb.light.on = true) := by
  intro p w done
  have plain : w.Plain := rfl
  have kept : ∀ snapshot p₁ w₁, startUp.ending answer p w = ⟨.ok snapshot, p₁, w₁⟩ →
      Begun p w snapshot p₁ w₁ ∧ Leads answer (play fuel) p₁ w₁ fun T _ p' w' =>
        (mirror.comap Player.state).Holds () T ∧ Mirrors p'.state.power w' := by
    intro snapshot p₁ w₁ begun
    have start := begun_of_ending plain begun
    exact ⟨start, keeps_always.mp (mirror_play fuel) () p₁ w₁ (mirrors_begun start rfl)⟩
  -- what is told in the whole run is what is recorded before the close, and then no switch
  have all : Alternating (switches (told ((run fuel).turns answer p w))) := by
    obtain none | ⟨snapshot, p₁, w₁, begun, all⟩ := run_switches p plain fuel
    · rw [none]
      exact ⟨nofun, List.isChain_nil⟩
    · obtain ⟨start, -, mirrored⟩ := kept snapshot p₁ w₁ begun
      have recorded := congrArg Prod.fst (leads_record start.plain (play fuel) p₁).2
      have calls : w₁.bulb.calls = openingCalls := start.calls
      rw [calls] at recorded
      have alternating := mirrored.alternating
      rw [show Simulated.calls _ = _ from recorded] at alternating
      rw [all]
      exact alternating
  refine ⟨fun t ht => ?_, ?_, fun snapshot p₁ w₁ begun => ?_⟩
  · obtain ⟨T, T', split⟩ := List.append_of_mem ht
    have calls : t.world.bulb.calls = told T := congrArg Prod.fst (turn_record plain split)
    rw [calls]
    refine all.of_prefix ?_
    rw [split, told_append, switches_append]
    exact List.prefix_append _ _
  · have calls : done.world.bulb.calls = told ((run fuel).turns answer p w) :=
      congrArg Prod.fst (leads_record plain (run fuel) p).2
    rw [calls]
    exact all
  · obtain ⟨-, holds, mirrored⟩ := kept snapshot p₁ w₁ begun
    refine ⟨fun t ht => ?_, mirrored.light⟩
    have comap := (mirror.comap_turns Player.state () ((play fuel).turns answer p₁ w₁)).2
    have each := Chronicle.holds_each.mp (comap.mp holds) _ (List.mem_map_of_mem ht)
    exact each.light

/-- A lamp that is turned off and on, while one of the calls is lost and one is refused. -/
theorem power_mirrors_light_blinking :
    let p := new "lamp" ⟨[⟨0, .hsb, [0, 0, 0]⟩, ⟨0, .rgb, [0, 255, 255]⟩]⟩ .usual
    let w := Performance.ofLamp fun
      | 9 => [.failCalls 1]
      | 20 => [.rejectCalls 1]
      | _ => []
    let begun := startUp.ending answer p w
    begun.result = .ok Light.dark.snapshot ∧
    (∀ t ∈ (play 9).turns answer begun.state begun.world,
      t.asker.state.power = .on ↔ t.world.bulb.light.on = true) ∧
    Alternating (switches ((run 9).ending answer p w).world.bulb.calls) := by
  intro p w begun
  obtain ⟨-, alternating, mirrored⟩ :=
    power_mirrors_light "lamp" "show.ls" .dark (.start [] 0) (.empty []) _ _ .usual 9
  exact ⟨rfl, (mirrored Light.dark.snapshot begun.state begun.world rfl).1, alternating⟩

end Player

end Lightshow
