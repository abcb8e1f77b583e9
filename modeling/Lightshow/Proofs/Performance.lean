/-
Performances: playback on a stage where anything may happen between two questions.

A `Performance` is a stage with a plot, which lists the deeds that come before each question:
failures, signals, other script files, scripts that are left, stops.  As the plot is arbitrary, a
statement about all performances covers every order in which playback and its outside can take
their steps.

* `Performance.answer` -- the answer to a question, and the performance after it;
* `run_rehearsal` -- whatever can be rehearsed can be performed;
* `run_record` -- the calls that a simulated bulb records, and its light, follow from the turns.
-/
import Lightshow.Playback.Rehearsal
import Lightshow.Proofs.Turns

namespace Lightshow

/-- A stage, and what happens before each question to come. -/
structure Performance where
  stage : Stage
  plot : Nat → List Deed

namespace Performance

/-- A performance that has not begun, on a simulated bulb with a light. -/
def new (bulb : String) (light : Light) (draws : Draws) (files : Files) (scriptPath : String)
    (plot : Nat → List Deed) : Performance :=
  ⟨.new (.around (.new bulb light) draws) files scriptPath, plot⟩

/-- A performance with a dark lamp and without files. -/
def ofLamp (plot : Nat → List Deed) : Performance :=
  .new "lamp" .dark (.start [] 0) (.empty []) "show.ls" plot

/-- The simulated bulb. -/
def bulb (w : Performance) : Simulated := w.stage.studio.bulb

/-- The simulated bulb takes a whole colour in one call. -/
def Plain (w : Performance) : Prop := w.stage.studio.inParts = false

/-- The stage that the next question is put to. -/
def met (w : Performance) : Stage := (w.plot 0).foldl Stage.after w.stage

/-- The answer to a question, and the performance after it. -/
def answer (q : Question) (w : Performance) : q.Answer × Performance :=
  let (a, stage) := w.met.serve q
  (a, ⟨stage, fun n => w.plot (n + 1)⟩)

/-- What no deed changes is the same on the stage that the next question is put to. -/
theorem met_eq {X : Type} (view : Stage → X) (h : ∀ s d, view (s.after d) = view s)
    (w : Performance) : view w.met = view w.stage := by
  rw [met]
  generalize w.stage = s
  induction w.plot 0 generalizing s with
  | nil => rfl
  | cons d ds ih => rw [List.foldl_cons, ih, h]

end Performance

/-! ### Rehearsals -/

namespace Rehearsal

/-- Meeting incidents is a number of deeds. -/
theorem meet_deeds (due : Moment → Bool) (r : Rehearsal) :
    ∃ deeds : List Deed, (r.meet due).toStage = deeds.foldl Stage.after r.toStage :=
  ⟨_, rfl⟩

theorem meetUntil_deeds (limit fuel : Nat) (r : Rehearsal) :
    ∃ deeds : List Deed, (r.meetUntil limit fuel).toStage = deeds.foldl Stage.after r.toStage := by
  induction fuel generalizing r with
  | zero => exact ⟨[], rfl⟩
  | succ fuel ih =>
    rw [meetUntil]
    split
    · exact ⟨[], rfl⟩
    · obtain ⟨deeds, h⟩ := meet_deeds (isBy _) r
      obtain ⟨more, h'⟩ := ih (r.meet (isBy _))
      exact ⟨deeds ++ more, by rw [h', h, List.foldl_append]⟩

theorem meetBefore_deeds (q : Question) (r : Rehearsal) :
    ∃ deeds : List Deed, (r.meetBefore q).toStage = deeds.foldl Stage.after r.toStage := by
  cases q with
  | connect => exact meet_deeds _ r
  | call handle c => exact meet_deeds _ r
  | pause purpose length => exact meetUntil_deeds _ _ r
  | stopping => exact ⟨[], rfl⟩
  | nextScript => exact ⟨[], rfl⟩
  | roll limit positive => exact ⟨[], rfl⟩
  | report message => exact ⟨[], rfl⟩

/-- A plot whose first deeds come before those of another. -/
def plotAfter (deeds : List Deed) (plot : Nat → List Deed) : Nat → List Deed
  | 0 => deeds
  | n + 1 => plot n

/-- Whatever can be rehearsed can be performed: some plot gives the same result on the same
stage. -/
theorem run_rehearsal {S α : Type} (x : Dialogue S Question Question.Answer α) (r : Rehearsal) :
    ∃ plot : Nat → List Deed,
      (x.run Performance.answer ⟨r.toStage, plot⟩).1 = (x.run answer r).1 ∧
      (x.run Performance.answer ⟨r.toStage, plot⟩).2.stage = (x.run answer r).2.toStage := by
  induction x generalizing r with
  | done a => exact ⟨fun _ => [], rfl, rfl⟩
  | ask s q next ih =>
    obtain ⟨deeds, hdeeds⟩ := meetBefore_deeds q r
    obtain ⟨plot, hresult, hstage⟩ := ih (answer q r).1 (answer q r).2
    have met : (Performance.mk r.toStage (plotAfter deeds plot)).met = (r.meetBefore q).toStage :=
      hdeeds.symm
    have first : Performance.answer q ⟨r.toStage, plotAfter deeds plot⟩ =
        ((answer q r).1, ⟨(answer q r).2.toStage, plot⟩) := by
      rw [Performance.answer, met]
      rfl
    refine ⟨plotAfter deeds plot, ?_, ?_⟩
    · rw [Dialogue.run, first]
      exact hresult
    · rw [Dialogue.run, first]
      exact hstage

end Rehearsal

/-! ### Records -/

namespace Turn

variable {S W : Type}

/-- The call that was sent at a turn, whether or not the bulb carried it out. -/
def sent? : Turn S Question Question.Answer W → Option Call
  | ⟨_, .call _ c, _, _⟩ => some c
  | _ => none

/-- The call that the bulb carried out at a turn, if that was one. -/
def told? : Turn S Question Question.Answer W → Option Call
  | ⟨_, .call _ c, .ok _, _⟩ => some c
  | _ => none

/-- The failure of the connect or call at a turn, if that was one. -/
def failure? : Turn S Question Question.Answer W → Option BulbError
  | ⟨_, .connect, .error cause, _⟩ => some cause
  | ⟨_, .call .., .error cause, _⟩ => some cause
  | _ => none

theorem sent?_of_asks {t : Turn S Question Question.Answer W} {handle : Nat} {c : Call}
    (asks : t.question = .call handle c) : t.sent? = some c := by
  obtain ⟨s, q, r, w⟩ := t
  cases asks
  rfl

/-- What the bulb carried out was sent to it. -/
theorem sent?_of_told? {t : Turn S Question Question.Answer W} {c : Call} (h : t.told? = some c) :
    t.sent? = some c := by
  obtain ⟨s, q, r, w⟩ := t
  cases q with
  | call handle c' =>
    cases r with
    | ok _ => exact h
    | error cause => exact absurd h nofun
  | _ => exact absurd h nofun

/-- It does not matter when a call was carried out. -/
theorem told?_world (s : S) {q : Question} (r : q.Answer) (v w : W) :
    (⟨s, q, r, v⟩ : Turn S Question Question.Answer W).told? =
      (⟨s, q, r, w⟩ : Turn S Question Question.Answer W).told? := by
  cases q with
  | call handle c => cases r <;> rfl
  | _ => rfl

@[simp] theorem told?_mapAsker {S' : Type} (f : S → S')
    (t : Turn S Question Question.Answer W) : (t.mapAsker f).told? = t.told? := by
  obtain ⟨s, q, r, w⟩ := t
  cases q with
  | call handle c => cases r <;> rfl
  | _ => rfl

@[simp] theorem failure?_mapAsker {S' : Type} (f : S → S')
    (t : Turn S Question Question.Answer W) : (t.mapAsker f).failure? = t.failure? := by
  obtain ⟨s, q, r, w⟩ := t
  cases q with
  | connect => cases r <;> rfl
  | call handle c => cases r <;> rfl
  | _ => rfl

end Turn

/-- The calls that the bulb carried out, in order. -/
def told {S W : Type} (T : List (Turn S Question Question.Answer W)) : List Call :=
  T.filterMap Turn.told?

theorem told_append {S W : Type} (T T' : List (Turn S Question Question.Answer W)) :
    told (T ++ T') = told T ++ told T' := List.filterMap_append

theorem told_cons {S W : Type} (t : Turn S Question Question.Answer W)
    (T : List (Turn S Question Question.Answer W)) : told (t :: T) = t.told?.toList ++ told T := by
  rw [told, List.filterMap_cons]
  cases t.told? <;> rfl

namespace Simulated

/-- The recorded calls and the light. -/
def record (b : Simulated) : List Call × Light := (b.calls, b.light)

/-- A record with a call more. -/
def recordAfter (r : List Call × Light) (c : Call) : List Call × Light :=
  (r.1 ++ [c], r.2.after c)

/-- A record with some calls more lists them all, and the light is what they make of it. -/
theorem foldl_recordAfter (cs : List Call) (r : List Call × Light) :
    cs.foldl recordAfter r = (r.1 ++ cs, cs.foldl Light.after r.2) := by
  induction cs generalizing r with
  | nil => rw [List.append_nil]; rfl
  | cons c cs ih => rw [List.foldl_cons, ih, recordAfter, List.append_assoc]; rfl

/-- A call is carried out and recorded, or it fails and leaves no trace. -/
theorem perform_cases (b : Simulated) (c : Call) :
    (∃ b', perform c b = (.ok (b.light.reply c), b') ∧ b'.record = recordAfter b.record c) ∨
    ∃ cause b', perform c b = (.error cause, b') ∧ b'.record = b.record := by
  rw [perform]
  split
  · exact Or.inr ⟨_, _, rfl, rfl⟩
  split
  · exact Or.inr ⟨_, _, rfl, rfl⟩
  · exact Or.inl ⟨_, rfl, rfl⟩

/-- A connect leaves no trace in the record. -/
theorem connect_record (b : Simulated) : b.connect.2.record = b.record := by
  rw [connect]
  split <;> rfl

end Simulated

namespace Stage

/-- Deeds do not touch what the bulb recorded, nor its light. -/
theorem after_record (s : Stage) (d : Deed) :
    (s.after d).studio.bulb.record = s.studio.bulb.record := by
  cases d with
  | replaceFile entry => cases entry <;> rfl
  | _ => rfl

theorem after_inParts (s : Stage) (d : Deed) :
    (s.after d).studio.inParts = s.studio.inParts := by
  cases d with
  | replaceFile entry => cases entry <;> rfl
  | _ => rfl

/-- A call to the bulb of a stage is carried out and recorded, or it fails and leaves no trace. -/
theorem serve_call_cases {s : Stage} (plain : s.studio.inParts = false) (handle : Nat) (c : Call) :
    (∃ s', s.serve (.call handle c) = (.ok (s.studio.bulb.light.reply c), s') ∧
      s'.studio.bulb.record = Simulated.recordAfter s.studio.bulb.record c ∧
      s'.studio.inParts = false) ∨
    ∃ cause s', s.serve (.call handle c) = (.error cause, s') ∧
      s'.studio.bulb.record = s.studio.bulb.record ∧ s'.studio.inParts = false := by
  rw [serve, perform]
  by_cases garbled : 0 < s.garbledCalls
  · rw [if_pos garbled]
    exact Or.inr ⟨_, _, rfl, rfl, plain⟩
  · rw [if_neg garbled, Studio.answer, Studio.perform, if_neg (by rw [plain]; decide)]
    obtain ⟨b, hb, hrecord⟩ | ⟨cause, b, hb, hrecord⟩ := s.studio.bulb.perform_cases c
    · rw [hb]
      exact Or.inl ⟨_, rfl, hrecord, plain⟩
    · rw [hb]
      exact Or.inr ⟨_, _, rfl, hrecord, plain⟩

/-- A pause only moves the clock. -/
theorem serve_pause (s : Stage) (purpose : Pause) (length : Duration) :
    ∃ clock, s.serve (.pause purpose length) = ((), { s with clock }) :=
  ⟨_, rfl⟩

/-- Only connects and calls change the bulb. -/
theorem serve_bulb {s : Stage} {q : Question} (hconnect : q ≠ .connect)
    (hcall : ∀ handle c, q ≠ .call handle c) : (s.serve q).2.studio.bulb = s.studio.bulb := by
  cases q with
  | connect => exact absurd rfl hconnect
  | call handle c => exact absurd rfl (hcall handle c)
  | pause purpose length =>
    -- the clock must not be computed
    obtain ⟨clock, hs⟩ := s.serve_pause purpose length
    rw [hs]
  | _ => rfl

/-- A question other than a call leaves no trace in the record. -/
theorem serve_record {s : Stage} {q : Question} (h : ∀ handle c, q ≠ .call handle c) :
    (s.serve q).2.studio.bulb.record = s.studio.bulb.record ∧
      (s.serve q).2.studio.inParts = s.studio.inParts := by
  cases q with
  | connect =>
    rw [serve, connect]
    by_cases rejected : 0 < s.rejectedConnects
    · rw [if_pos rejected]
      exact ⟨rfl, rfl⟩
    · rw [if_neg rejected]
      exact ⟨s.studio.bulb.connect_record, rfl⟩
  | call handle c => exact absurd rfl (h handle c)
  | pause purpose length =>
    obtain ⟨clock, hs⟩ := s.serve_pause purpose length
    rw [hs]
    exact ⟨rfl, rfl⟩
  | _ => exact ⟨rfl, rfl⟩

end Stage

namespace Performance

/-- What a turn adds to the record. -/
def recordStep {S : Type} (r : List Call × Light)
    (t : Turn S Question Question.Answer Performance) : List Call × Light :=
  t.told?.elim r (Simulated.recordAfter r)

/-- A call is carried out and recorded, or it fails and leaves no trace. -/
theorem answer_call_cases {w : Performance} (plain : w.Plain) (handle : Nat) (c : Call) :
    (∃ w', answer (.call handle c) w = (.ok (w.bulb.light.reply c), w') ∧
      w'.bulb.record = Simulated.recordAfter w.bulb.record c ∧ w'.Plain) ∨
    ∃ cause w', answer (.call handle c) w = (.error cause, w') ∧
      w'.bulb.record = w.bulb.record ∧ w'.Plain := by
  have record : w.met.studio.bulb.record = w.bulb.record :=
    met_eq (fun s => s.studio.bulb.record) Stage.after_record w
  have light : w.met.studio.bulb.light = w.bulb.light := congrArg Prod.snd record
  have plain : w.met.studio.inParts = false :=
    (met_eq (fun s => s.studio.inParts) Stage.after_inParts w).trans plain
  rw [answer, ← record, ← light]
  obtain ⟨s', hs, hrecord, hplain⟩ | ⟨cause, s', hs, hrecord, hplain⟩ :=
    Stage.serve_call_cases plain handle c
  · rw [hs]
    exact Or.inl ⟨_, rfl, hrecord, hplain⟩
  · rw [hs]
    exact Or.inr ⟨_, _, rfl, hrecord, hplain⟩

/-- A question other than a call leaves no trace in the record. -/
theorem answer_other {w : Performance} (plain : w.Plain) {q : Question}
    (h : ∀ handle c, q ≠ .call handle c) :
    (answer q w).2.bulb.record = w.bulb.record ∧ (answer q w).2.Plain := by
  obtain ⟨hrecord, hplain⟩ := Stage.serve_record (s := w.met) h
  exact ⟨hrecord.trans (met_eq (fun s => s.studio.bulb.record) Stage.after_record w),
    (hplain.trans (met_eq (fun s => s.studio.inParts) Stage.after_inParts w)).trans plain⟩

theorem answer_record {S : Type} (s : S) (q : Question) (w : Performance) (plain : w.Plain) :
    (answer q w).2.bulb.record = recordStep w.bulb.record ⟨s, q, (answer q w).1, w⟩ ∧
      (answer q w).2.Plain := by
  cases q with
  | call handle c =>
    obtain ⟨w', hw, hrecord, hplain⟩ | ⟨cause, w', hw, hrecord, hplain⟩ :=
      answer_call_cases plain handle c
    · rw [hw]
      exact ⟨hrecord, hplain⟩
    · rw [hw]
      exact ⟨hrecord, hplain⟩
  | _ => exact answer_other plain fun _ _ => nofun

theorem foldl_recordStep {S : Type} (T : List (Turn S Question Question.Answer Performance))
    (r : List Call × Light) :
    T.foldl recordStep r = (r.1 ++ told T, (told T).foldl Light.after r.2) := by
  rw [← Simulated.foldl_recordAfter, told, List.foldl_filterMap]
  congr 1
  funext r t
  rw [recordStep]
  cases t.told? <;> rfl

variable {S α : Type} {w : Performance} {x : Dialogue S Question Question.Answer α}

/-- The bulb records the calls that were told to it, and its light is what they make of it. -/
theorem run_record (plain : w.Plain) :
    (x.run answer w).2.bulb.record =
        (w.bulb.calls ++ told (x.turns answer w),
          (told (x.turns answer w)).foldl Light.after w.bulb.light) ∧
      (x.run answer w).2.Plain := by
  obtain ⟨⟨hend, hplain⟩, -⟩ :=
    Dialogue.view_follows (fun w => w.bulb.record) Plain answer_record x plain
  exact ⟨hend.trans (foldl_recordStep _ _), hplain⟩

/-- The same, at any time in between. -/
theorem turn_record (plain : w.Plain)
    {T T' : List (Turn S Question Question.Answer Performance)}
    {t : Turn S Question Question.Answer Performance}
    (split : x.turns answer w = T ++ t :: T') :
    t.world.bulb.record = (w.bulb.calls ++ told T, (told T).foldl Light.after w.bulb.light) := by
  obtain ⟨-, hturns⟩ :=
    Dialogue.view_follows (fun w => w.bulb.record) Plain answer_record x plain
  exact (hturns T t T' split).trans (foldl_recordStep _ _)

/-- The record after a talk. -/
theorem leads_record {ε S α : Type} {w : Performance} (plain : w.Plain)
    (x : Talk ε S Question Question.Answer α) (s : S) :
    Talk.Leads answer x s w fun T _ _ w' => w'.Plain ∧
      w'.bulb.record = (w.bulb.calls ++ told T, (told T).foldl Light.after w.bulb.light) := by
  obtain ⟨hrecord, hplain⟩ := run_record (x := x.run.run s) plain
  exact ⟨hplain, hrecord⟩

end Performance

/-! ### Stops -/

namespace Stage

theorem after_stopping {s : Stage} (d : Deed) (h : s.studio.control.stopping = true) :
    (s.after d).studio.control.stopping = true := by
  cases d with
  | signal signal =>
    cases signal with
    | reload =>
      rw [after, Signal.handle]
      cases Script.load s.files s.scriptPath <;> exact h
    | _ => rfl
  | replaceFile entry => cases entry <;> exact h
  | stop => rfl
  | _ => exact h

theorem foldl_after_stopping {s : Stage} (ds : List Deed) (h : s.studio.control.stopping = true) :
    (ds.foldl after s).studio.control.stopping = true := by
  induction ds generalizing s with
  | nil => exact h
  | cons d ds ih => exact ih (after_stopping d h)

/-- Only a look for a script changes the control. -/
theorem serve_control {s : Stage} {q : Question} (h : q ≠ .nextScript) :
    (s.serve q).2.studio.control = s.studio.control := by
  cases q with
  | nextScript => exact absurd rfl h
  | connect =>
    rw [serve, connect]
    by_cases rejected : 0 < s.rejectedConnects
    · rw [if_pos rejected]
      rfl
    · rw [if_neg rejected]
      rfl
  | call handle c =>
    rw [serve, perform]
    by_cases garbled : 0 < s.garbledCalls
    · rw [if_pos garbled]
      rfl
    · rw [if_neg garbled]
      rfl
  | pause purpose length =>
    obtain ⟨clock, hs⟩ := s.serve_pause purpose length
    rw [hs]
  | _ => rfl

/-- Nothing that playback asks takes back the request of a stop. -/
theorem serve_stopping (s : Stage) (q : Question) :
    (s.serve q).2.studio.control.stopping = s.studio.control.stopping := by
  cases q with
  | nextScript => rfl
  | _ => exact congrArg Control.stopping (serve_control nofun)

/-- No question changes the files. -/
theorem serve_files (q : Question) (s : Stage) :
    (s.serve q).2.files = s.files ∧ (s.serve q).2.scriptPath = s.scriptPath := by
  cases q with
  | connect =>
    rw [serve, connect]
    by_cases rejected : 0 < s.rejectedConnects
    · rw [if_pos rejected]
      exact ⟨rfl, rfl⟩
    · rw [if_neg rejected]
      exact ⟨rfl, rfl⟩
  | call handle c =>
    rw [serve, perform]
    by_cases garbled : 0 < s.garbledCalls
    · rw [if_pos garbled]
      exact ⟨rfl, rfl⟩
    · rw [if_neg garbled]
      exact ⟨rfl, rfl⟩
  | pause purpose length =>
    obtain ⟨clock, hs⟩ := s.serve_pause purpose length
    rw [hs]
    exact ⟨rfl, rfl⟩
  | _ => exact ⟨rfl, rfl⟩

end Stage

namespace Performance

/-- A stop has been requested. -/
def Stopped (w : Performance) : Prop := w.stage.studio.control.stopping = true

/-- What a look for a stop finds, or would find now, is so from then on. -/
theorem stopped_of_answer {w : Performance} {q : Question} (h : (answer .stopping w).1 = true) :
    (answer q w).2.Stopped :=
  (Stage.serve_stopping w.met q).trans h

/-- Once a stop has been requested it is, and every look for it finds it. -/
theorem Stopped.answer {w : Performance} (h : w.Stopped) :
    (answer .stopping w).1 = true ∧ (Performance.answer .stopping w).2.Stopped :=
  ⟨Stage.foldl_after_stopping (w.plot 0) h, Stage.foldl_after_stopping (w.plot 0) h⟩

/-! ### Performances from some question on -/

section

variable {S X α : Type} {n : Nat} {x : Dialogue S Question Question.Answer α} {w : Performance}

/-- Before the first deed of a performance nothing happens to the files. -/
theorem skip_of_idle (idle : ∀ i < n, w.plot i = []) (long : n ≤ (x.turns answer w).length) :
    (x.skip answer n w).2.plot = (fun i => w.plot (n + i)) ∧
      (x.skip answer n w).2.stage.files = w.stage.files ∧
      (x.skip answer n w).2.stage.scriptPath = w.stage.scriptPath := by
  induction n generalizing x w with
  | zero => exact ⟨funext fun i => congrArg w.plot (Nat.zero_add i).symm, rfl, rfl⟩
  | succ n ih =>
    cases x with
    | done a => exact absurd long (Nat.not_succ_le_zero n)
    | ask s q next =>
      have met : w.met = w.stage := by rw [met, idle 0 (Nat.zero_lt_succ n)]; rfl
      obtain ⟨files, path⟩ := w.stage.serve_files q
      have later : (answer q w).2.stage = (w.stage.serve q).2 := congrArg (fun s => (s.serve q).2) met
      obtain ⟨plot, files', path'⟩ := ih (x := next (answer q w).1) (w := (answer q w).2)
        (fun i hi => idle (i + 1) (Nat.succ_lt_succ hi)) (Nat.le_of_succ_le_succ long)
      rw [later] at files' path'
      refine ⟨plot.trans (funext fun i => congrArg w.plot ?_), files'.trans files, path'.trans path⟩
      exact Nat.add_right_comm n i 1

/-- What happened before a question can be told by the stage that the question is put to. -/
theorem filterMap_turns_of_met {tells : Turn S Question Question.Answer Performance → Option X}
    {stage : Stage} (blind : ∀ s q r w w', tells ⟨s, q, r, w⟩ = tells ⟨s, q, r, w'⟩)
    (met : (x.skip answer n w).2.met = stage) :
    (x.turns answer w).filterMap tells = ((x.turns answer w).take n ++
      (x.skip answer n w).1.turns answer ⟨stage,
        Rehearsal.plotAfter [] fun i => (x.skip answer n w).2.plot (i + 1)⟩).filterMap tells := by
  have whole := congrArg (List.filterMap tells) (x.take_append_skip answer n w)
  rw [List.filterMap_append] at whole
  rw [← whole, List.filterMap_append]
  congr 1
  generalize x.skip answer n w = rest at met ⊢
  obtain ⟨y, v⟩ := rest
  cases y with
  | done a => rfl
  | ask s q next =>
    have same : answer q v = answer q ⟨stage, Rehearsal.plotAfter [] fun i => v.plot (i + 1)⟩ := by
      rw [answer, met]
      rfl
    rw [Dialogue.turns, Dialogue.turns, ← same, List.filterMap_cons, List.filterMap_cons, blind]

end

end Performance

end Lightshow
