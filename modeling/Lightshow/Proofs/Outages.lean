/-
Outages leave no trace.

When the bulb cannot be reached, calls are lost and handles have to be opened again.  For scripts of
plain commands all this is over by the time a command is done with: the calls that the bulb has
recorded, its light, the state of playback and the wait are then what they are without any outage.

* `fair_harmless`, `fair_clear` -- performances with and without outages as fair worlds;
* `milestones_record` -- what there is to see whenever a command is done with, from the events;
* `outages_leave_no_trace` -- a playback with outages beside the same one without.
-/
import Lightshow.Proofs.Course
import Lightshow.Proofs.Forecast
import Lightshow.Proofs.Rendition

namespace Lightshow

open Talk Performance

/-! ### Performances as fair worlds -/

/-- A performance with outages is fair. -/
theorem fair_harmless : Fair answer (fun (x : Unit) _ => x) (fun _ => ()) Harmless False where
  stopping _ h := h.stopping
  nextScript _ h := h.nextScript
  quiet _ q h _ _ := ⟨h.answer q, rfl⟩
  connect _ h := ⟨h.answer .connect, rfl, fun _ failed => ⟨h.connect_error failed, not_false⟩⟩
  call w handle c h _ := by
    refine ⟨h.answer _, ?_⟩
    cases hr : (answer (.call handle c) w).1 with
    | ok reply => exact Or.inl ⟨⟨reply, rfl⟩, rfl⟩
    | error cause => exact Or.inr ⟨⟨cause, rfl, h.call_error hr, not_false⟩, Or.inl rfl⟩
  again _ _ _ := rfl

/-- A performance without outages is sure. -/
theorem fair_clear : Fair answer (fun (x : Unit) _ => x) (fun _ => ()) Clear True where
  stopping _ h := h.stopping
  nextScript _ h := h.nextScript
  quiet _ q h _ _ := ⟨h.answer q, rfl⟩
  connect w h := by
    obtain ⟨handle, w', hw, h'⟩ := h.connect
    rw [hw]
    exact ⟨h', rfl, nofun⟩
  call w handle c h _ := by
    obtain ⟨w', hw, h'⟩ := h.call handle c
    rw [hw]
    exact ⟨h', Or.inl ⟨⟨_, rfl⟩, rfl⟩⟩
  again _ _ _ := rfl

/-! ### Milestones -/

/-- The calls of some events are those that were told. -/
theorem events_calls {W : Type} (T : List (Turn Player Question Question.Answer W)) :
    (events T).filterMap Event.call? = told T := by
  rw [events, List.filterMap_filterMap, told]
  congr 1
  funext t
  obtain ⟨p, q, r, w⟩ := t
  cases q with
  | call handle c => cases r <;> rfl
  | pause purpose length => cases purpose <;> rfl
  | _ => rfl

/-- The calls that are recorded and the light, whenever a command is done with, follow from the
events. -/
theorem milestones_record {α : Type} (x : Dialogue Player Question Question.Answer α)
    {w : Performance} (plain : w.Plain) :
    milestones (fun w => w.bulb.record) (x.turns answer w) =
      milestonesOf Simulated.recordAfter w.bulb.record (events (x.turns answer w)) := by
  refine milestones_eq _ _ fun A t B split _ => ?_
  rw [turn_record plain split, seen, events_calls, Simulated.foldl_recordAfter]
  rfl

/-! ### Outages after a start-up -/

namespace Performance

/-- A plot that begins after a number of questions. -/
def delayed (plot : Nat → List Deed) : Nat → Nat → List Deed
  | 0, n => plot n
  | _ + 1, 0 => []
  | k + 1, n + 1 => delayed plot k n

theorem eq_delayed {plot : Nat → List Deed} {k : Nat} (h : ∀ n < k, plot n = []) :
    plot = delayed (fun n => plot (n + k)) k := by
  funext n
  induction k generalizing plot n with
  | zero => rfl
  | succ k ih =>
    cases n with
    | zero => exact h 0 k.succ_pos
    | succ n => exact ih (fun m hm => h (m + 1) (Nat.succ_lt_succ hm)) n

/-- A performance in which nothing happens from outside. -/
def uneventful (stage : Stage) : Performance := ⟨stage, fun _ => []⟩

/-- Up to the beginning of a plot, a conversation goes as without it. -/
theorem run_delayed {α : Type} (plot : Nat → List Deed)
    (x : Dialogue Player Question Question.Answer α) (stage : Stage) {k : Nat}
    (h : k = (x.turns answer (uneventful stage)).length) :
    x.run answer ⟨stage, delayed plot k⟩ =
        ((x.run answer (uneventful stage)).1, ⟨(x.run answer (uneventful stage)).2.stage, plot⟩) ∧
      events (x.turns answer ⟨stage, delayed plot k⟩) =
        events (x.turns answer (uneventful stage)) := by
  induction x generalizing stage k with
  | done a =>
    subst h
    exact ⟨rfl, rfl⟩
  | ask p q next ih =>
    subst h
    obtain ⟨hrun, hevents⟩ := ih (answer q (uneventful stage)).1
      (answer q (uneventful stage)).2.stage rfl
    refine ⟨hrun, ?_⟩
    -- the first answer is the same, but stands in another world
    rw [Dialogue.turns, Dialogue.turns, events_cons, events_cons]
    refine (congrArg (_ ++ ·) hevents).trans ?_
    exact congrArg (fun e => Option.toList e ++ _) (Turn.event?_world p _ _ _)

end Performance

namespace Player

/-- A call that does not fail. -/
theorem leads_call_clear {α : Type} {p : Player} {w : Performance} (clear : Clear w)
    {handle : Nat} {c : Call} {f : c.Reply → Playing α}
    {post : List (Turn Player Question Question.Answer Performance) → Except Halt α → Player →
      Performance → Prop}
    (h : ∀ w', Clear w' → Leads answer (f (w.bulb.light.reply c)) p w' fun T =>
      post (⟨p, .call handle c, .ok (w.bulb.light.reply c), w⟩ :: T)) :
    Leads answer (ask (.call handle c) >>= fun r => orHalt r >>= f) p w post := by
  rw [leads_ask_bind]
  obtain ⟨w', hw, clear'⟩ := clear.call handle c
  rw [hw]
  exact h w' clear'

/-- How many questions a start-up asks if nothing fails. -/
def openingLength : Nat := 5

/-- A start-up without any failure. -/
theorem startUp_clear (p : Player) {w : Performance} (clear : Clear w) :
    Leads answer startUp p w fun T r p' w' =>
      (∃ snapshot, r = .ok snapshot) ∧ Clear w' ∧ T.length = openingLength ∧
        events T = openingCalls.map .told ∧ p'.state = { p.state with power := .on } ∧
        p'.script = p.script := by
  rw [startUp, leads_ask_bind]
  obtain ⟨handle, w₁, hw₁, clear₁⟩ := clear.connect
  rw [hw₁]
  refine leads_call_clear clear₁ fun w₂ clear₂ => ?_
  rw [leads_bind, leads_get]
  show Leads answer (ask (.report _) >>= _) _ _ _
  rw [leads_ask_bind]
  refine leads_call_clear (clear₂.answer _) fun w₄ clear₄ => ?_
  refine leads_call_clear clear₄ fun w₅ clear₅ => ?_
  exact ⟨⟨_, rfl⟩, clear₅, rfl, rfl, rfl, rfl⟩

/-- What happens in a playback of plain commands that has no outage before it has begun. -/
theorem run_plain (fuel : Nat) {p p₁ : Player} {w w₁ : Performance} {snapshot : Snapshot}
    {inv : Performance → Prop} {sure : Prop}
    (fair : Fair answer (fun (x : Unit) _ => x) (fun _ => ()) inv sure)
    (plain : ∀ c ∈ p₁.script.commands, c.isPlain = true)
    (begun : startUp.ending answer p w = ⟨.ok snapshot, p₁, w₁⟩) (hw : inv w₁) :
    ∃ played, events ((run fuel).turns answer p w) = events (startUp.turns answer p w) ++ played ∧
      played <+: rendition p₁.script.commands fuel p₁.state ∧
      (sure → played = rendition p₁.script.commands fuel p₁.state) := by
  obtain ⟨unfinished, before, all, -⟩ := fair.leads_play plain hw fuel
  refine ⟨_, ?_, before, all⟩
  rw [run_unfinished begun unfinished, events_append]

/-- Outages do not change what happens in a playback of plain commands, nor what there is to see
whenever a command is done with: the calls recorded by then, the light, the state of playback and
the wait.  They only keep playback from going as far. -/
theorem outages_leave_no_trace (bulb path : String) (light : Light) (draws : Draws) (files : Files)
    {plot : Nat → List Deed} (outages : ∀ n, ∀ d ∈ plot n, d.isOutage = true)
    (late : ∀ n < openingLength, plot n = []) {script : Script}
    (plain : ∀ c ∈ script.commands, c.isPlain = true) (backoff : Backoff) (fuel : Nat) :
    let p := Player.new bulb script backoff
    let turns plot := (run fuel).turns answer p (.new bulb light draws files path plot)
    let record (w : Performance) := (w.bulb.calls, w.bulb.light)
    (∃ snapshot, (startUp.ending answer p (.new bulb light draws files path plot)).result =
      .ok snapshot) ∧
    events (turns plot) <+: events (turns fun _ => []) ∧
    milestones record (turns plot) <+: milestones record (turns fun _ => []) := by
  intro p turns record
  let stage : Stage := (Performance.new bulb light draws files path plot).stage
  have calm : Clear (uneventful stage) :=
    ⟨⟨⟨rfl, rfl, rfl, rfl, rfl, rfl⟩, fun _ => List.forall_mem_nil _⟩, rfl, rfl, fun _ => rfl⟩
  -- the start-up without outages
  obtain ⟨⟨snapshot, opened⟩, clear, length, told, state, script'⟩ := startUp_clear p calm
  generalize hp₁ : (startUp.ending answer p (uneventful stage)).state = p₁ at state script'
  generalize hw₁ : (startUp.ending answer p (uneventful stage)).world = w₁ at clear
  have begun : startUp.ending answer p (uneventful stage) = ⟨.ok snapshot, p₁, w₁⟩ := by
    rw [← opened, ← hp₁, ← hw₁]
  -- the start-up before the outages is the same
  obtain ⟨run, happened⟩ := run_delayed (fun n => plot (n + openingLength)) (startUp.run.run p)
    stage length.symm
  rw [← eq_delayed late] at run happened
  have begun' : startUp.ending answer p ⟨stage, plot⟩ =
      ⟨.ok snapshot, p₁, ⟨w₁.stage, fun n => plot (n + openingLength)⟩⟩ := by
    rw [← opened, ← hp₁, ← hw₁]
    exact congrArg (fun r : (_ × _) × _ => (⟨r.1.1, r.1.2, r.2⟩ : Ending _ _ _ _)) run
  have harmless : Harmless ⟨w₁.stage, fun n => plot (n + openingLength)⟩ :=
    ⟨clear.stage, fun n => outages (n + openingLength)⟩
  have plain₁ : ∀ c ∈ p₁.script.commands, c.isPlain = true := by
    rw [script']
    exact plain
  obtain ⟨played, failing, before, -⟩ := run_plain fuel fair_harmless plain₁ begun' harmless
  obtain ⟨whole, unfailing, -, all⟩ := run_plain fuel fair_clear plain₁ begun clear
  have events : events (turns plot) <+: events (turns fun _ => []) := by
    refine failing ▸ unfailing ▸ ?_
    rw [all trivial]
    exact happened ▸ (List.prefix_append_right_inj _).mpr before
  have recorded : ∀ plot, milestones record (turns plot) =
      milestonesOf Simulated.recordAfter ([], light) (Lightshow.events (turns plot)) :=
    fun plot => milestones_record _ rfl
  rw [recorded, recorded]
  exact ⟨⟨snapshot, congrArg Ending.result begun'⟩, events, prefix_milestonesOf _ _ events⟩

/-- A colour is lost after the bulb has been turned on for it, and then a connect. -/
theorem outages_leave_no_trace_between_calls :
    let script : Script := ⟨[⟨0, .rgb, [0, 0, 0]⟩, ⟨0, .rgb, [255, 0, 0]⟩]⟩
    let plot : Nat → List Deed := fun
      | 14 => [.failCalls 1]
      | 18 => [.failConnects 1]
      | _ => []
    let p := Player.new "lamp" script .usual
    let failing := (run 4).turns answer p (.ofLamp plot)
    let clear := (run 4).turns answer p (.ofLamp fun _ => [])
    let record (w : Performance) := (w.bulb.calls, w.bulb.light)
    failing.filterMap Turn.failure? ≠ [] ∧ 2 ≤ (milestones record failing).length ∧
    ((told failing).take 6).map Call.name =
      ["GetRgb", "SaveSnapshot", "TurnOn", "TurnOff", "TurnOn", "SetRgb"] ∧
    events failing <+: events clear ∧ milestones record failing <+: milestones record clear := by
  intro script plot p failing clear record
  have outages : ∀ n, ∀ d ∈ plot n, d.isOutage = true := by
    intro n
    dsimp only [plot]
    split <;> decide
  have late : ∀ n < openingLength, plot n = [] := by decide
  have plain : ∀ c ∈ script.commands, c.isPlain = true := by decide
  obtain ⟨-, events, milestones⟩ := outages_leave_no_trace "lamp" "show.ls" .dark (.start [] 0)
    (.empty []) outages late plain .usual 4
  exact ⟨by decide +kernel, by decide +kernel, by decide +kernel, events, milestones⟩

end Player

end Lightshow
