/-
What playback still does after a stop has been requested.

Playback looks for a stop at four places, and between two looks it makes one stride: it takes up a
script and begins a pass, opens a handle, or tries a command and waits.  A stop that is requested
during a stride is found at the next look, and from then on playback does nothing but look for it
again, until its passes are over.

* `takes_play_strides` -- passes go on in strides;
* `alike_run` -- up to the first look that finds a stop, a conversation is the same without stops;
* `stop_truncates` -- what a playback still does after a stop.
-/
import Lightshow.Proofs.Course

namespace Lightshow

open Talk Performance

/-! ### Strides -/

namespace Turn

variable {S W : Type}

/-- Whether the turn is a wait. -/
def isWait : Turn S Question Question.Answer W → Bool
  | ⟨_, .pause .., _, _⟩ => true
  | _ => false

/-- Whether the turn is a step of an instruction. -/
def isStep : Turn S Question Question.Answer W → Bool
  | ⟨_, .call .., _, _⟩ => true
  | ⟨_, .roll .., _, _⟩ => true
  | _ => false

theorem isWait_of_check {t : Turn S Question Question.Answer W} {stop : Bool}
    (h : t.check? = some stop) : t.isWait = false := by
  obtain ⟨s, q, r, w⟩ := t
  cases q with
  | stopping => rfl
  | _ => exact absurd h nofun

theorem told_of_check {t : Turn S Question Question.Answer W} {stop : Bool}
    (h : t.check? = some stop) : t.told? = none := by
  obtain ⟨s, q, r, w⟩ := t
  cases q with
  | stopping => rfl
  | _ => exact absurd h nofun

theorem check_of_isStep {t : Turn S Question Question.Answer W} (h : t.isStep = true) :
    t.check? = none ∧ t.isWait = false := by
  obtain ⟨s, q, r, w⟩ := t
  cases q with
  | call handle c => exact ⟨rfl, rfl⟩
  | roll limit positive => exact ⟨rfl, rfl⟩
  | _ => exact absurd h nofun

theorem question_of_isStep {t : Turn S Question Question.Answer W} (h : t.isStep = true) :
    t.question ≠ .connect ∧ t.question ≠ .nextScript := by
  obtain ⟨s, q, r, w⟩ := t
  cases q with
  | connect => exact absurd h nofun
  | nextScript => exact absurd h nofun
  | _ => exact ⟨nofun, nofun⟩

theorem isStep_mapAsker {S' : Type} (f : S → S') (t : Turn S Question Question.Answer W) :
    (t.mapAsker f).isStep = t.isStep := by
  obtain ⟨s, q, r, w⟩ := t
  cases q <;> rfl

end Turn

section

variable {W : Type} (answer : (q : Question) → W → q.Answer × W)

/-- A stride is not over: it began with no look that found a stop, and there was no wait yet. -/
def Striding (m : List (Turn Player Question Question.Answer W)) : Prop :=
  ∀ u ∈ m, u.check? ≠ some true ∧ u.isWait = false

/-- What may come after the turns of a stride.  After a stop or a wait there is another look; a
handle is opened and a script is taken up only right after a look; and a call belongs to the try
of a command that began with the look. -/
structure Strides (m : List (Turn Player Question Question.Answer W))
    (t : Turn Player Question Question.Answer W) : Prop where
  goes : t.check? = none → Striding m
  connect : t.question = .connect →
    ∃ check, m = [check] ∧ check.check? = some false ∧ check.asker.handle = none
  look : t.question = .nextScript → ∃ check, m = [check] ∧ check.check? = some false
  call : ∀ handle c, t.question = .call handle c →
    ∃ through cmd p w, m ++ [t] <+: (Player.attempt through cmd).turns answer p w

/-- The turns since the last look for a stop, with that look. -/
def stride :
    Chronicle (List (Turn Player Question Question.Answer W)) Player Question Question.Answer W where
  step m t := if t.check?.isSome then [t] else m ++ [t]
  along := Strides answer

variable {answer}

theorem Striding.concat {m : List (Turn Player Question Question.Answer W)}
    {t : Turn Player Question Question.Answer W} (h : Striding m) (unchecked : t.check? = none)
    (goes : t.isWait = false) : Striding (m ++ [t]) := by
  intro u hu
  rcases List.mem_append.mp hu with hu | hu
  · exact h u hu
  · rw [List.mem_singleton.mp hu, unchecked]
    exact ⟨nofun, goes⟩

theorem stride_step_unchecked {m : List (Turn Player Question Question.Answer W)}
    {t : Turn Player Question Question.Answer W} (unchecked : t.check? = none) :
    (stride answer).step m t = m ++ [t] :=
  if_neg (by rw [unchecked]; decide)

theorem stride_step_checked {m : List (Turn Player Question Question.Answer W)}
    {t : Turn Player Question Question.Answer W} {stop : Bool} (check : t.check? = some stop) :
    (stride answer).step m t = [t] :=
  if_pos (by rw [check]; rfl)

/-- A step goes on with a stride that is not over, if the two belong to one try of a command. -/
theorem Striding.step {m : List (Turn Player Question Question.Answer W)}
    {t : Turn Player Question Question.Answer W} (h : Striding m) (step : t.isStep = true)
    (tried : ∃ through cmd p w, m ++ [t] <+: (Player.attempt through cmd).turns answer p w) :
    Strides answer m t where
  goes _ := h
  connect connects := absurd connects (Turn.question_of_isStep step).1
  look looks := absurd looks (Turn.question_of_isStep step).2
  call _ _ _ := tried

/-- The stride so far stands at the end of all turns. -/
theorem stride_suffix (m T : List (Turn Player Question Question.Answer W)) :
    (stride answer).after m T <:+ m ++ T := by
  induction T generalizing m with
  | nil =>
    rw [List.append_nil]
    exact List.suffix_rfl
  | cons t T ih =>
    refine (ih ((stride answer).step m t)).trans ?_
    cases check : t.check? with
    | some stop =>
      rw [stride_step_checked check]
      exact List.suffix_append m (t :: T)
    | none =>
      rw [stride_step_unchecked check, List.append_assoc]
      exact List.suffix_rfl

/-- As long as there is no look, the stride goes on. -/
theorem stride_unchecked (m : List (Turn Player Question Question.Answer W))
    {T : List (Turn Player Question Question.Answer W)} (unchecked : ∀ t ∈ T, t.check? = none) :
    (stride answer).after m T = m ++ T := by
  induction T generalizing m with
  | nil => exact (List.append_nil m).symm
  | cons t T ih =>
    obtain ⟨here, later⟩ := List.forall_mem_cons.mp unchecked
    show (stride answer).after ((stride answer).step m t) T = _
    rw [stride_step_unchecked here, ih _ later, List.append_assoc]
    rfl

end

namespace Player

section

variable {W : Type} (answer : (q : Question) → W → q.Answer × W)

/-- Wherever playback is, it may look for a stop. -/
abbrev anytime : List (Turn Player Question Question.Answer W) → Player → W → Prop :=
  fun _ _ _ => True

/-- The last turn was a look for a stop. -/
def Checked (stop : Bool) (m : List (Turn Player Question Question.Answer W)) (p : Player) (_ : W) :
    Prop :=
  ∃ w₀, m = [⟨p, .stopping, stop, w₀⟩]

/-- A stride is not over. -/
abbrev underway : List (Turn Player Question Question.Answer W) → Player → W → Prop :=
  fun m _ _ => Striding m

theorem Checked.striding {m : List (Turn Player Question Question.Answer W)} {p : Player} {w : W}
    (h : Checked false m p w) : Striding m := by
  obtain ⟨w₀, rfl⟩ := h
  intro u hu
  rw [List.mem_singleton.mp hu]
  exact ⟨nofun, rfl⟩

theorem takes_check : Takes answer (ε := Halt) (stride answer) anytime (ask .stopping)
    (atEnd Checked fun _ _ _ _ => False) :=
  takes_ask.mpr fun _ _ w _ => ⟨⟨nofun, nofun, nofun, nofun⟩, w, rfl⟩

theorem keeps_report (message : Message) :
    Surely answer (ε := Halt) (stride answer) underway (ask (.report message)) :=
  keeps_ask fun _ _ _ h => ⟨⟨fun _ => h, nofun, nofun, nofun⟩, h.concat rfl rfl⟩

theorem takes_wait {broken : Halt → List (Turn Player Question Question.Answer W) → Player → W → Prop}
    (purpose : Pause) (length : Duration) :
    Takes answer (stride answer) underway (ask (.pause purpose length))
      (atEnd (fun _ => anytime) broken) :=
  takes_ask.mpr fun _ _ _ h => ⟨⟨fun _ => h, nofun, nofun, nofun⟩, trivial⟩

theorem takes_waitBeforeRetry (cause : BulbError) :
    Takes answer (stride answer) underway (waitBeforeRetry cause)
      (atEnd (fun _ => anytime) fun _ _ _ _ => False) := by
  refine Surely.bind keeps_get fun p => Surely.bind (keeps_modify fun _ _ _ h => h) fun _ => ?_
  exact (keeps_report answer _).bind fun _ => takes_wait answer _ _

/-- A wait comes at the end of the stride in which the handle was lost. -/
theorem recovers_strides : Playing.Recovers answer (stride answer) anytime (fun _ => anytime)
    (fun _ => underway) (fun _ => underway) fun _ => underway where
  lost_of_unopened _ _ _ _ h := h
  retry _ _ _ _ _ h := h
  drop _ _ _ _ _ h := h
  wait := takes_waitBeforeRetry answer
  final _ _ _ _ _ _ := trivial
  unfinished _ _ _ h := h

theorem takes_reconnect :
    Takes answer (stride answer) (fun m p w => Checked false m p w ∧ p.handle = none) reconnect
      (outcome (fun _ => anytime) fun _ => underway) := by
  have connects : Takes answer (ε := Halt) (stride answer)
      (fun m p w => Checked false m p w ∧ p.handle = none) (ask .connect)
      (outcome (fun _ => underway) fun _ => underway) := by
    refine takes_connect (fun m p w handle h _ => ?_) fun m p w cause h _ => ?_ <;>
    · have striding := h.1.striding
      obtain ⟨⟨w₀, rfl⟩, closed⟩ := h
      exact ⟨⟨fun _ => striding, fun _ => ⟨_, rfl, rfl, closed⟩, nofun, nofun⟩,
        striding.concat rfl rfl⟩
  exact Playing.takes_reconnect connects (fun _ => keeps_report answer) fun _ _ _ _ _ => trivial

theorem takes_openHandle :
    Takes answer (stride answer) anytime openHandle
      (Playing.looked anytime (fun _ => anytime) fun _ => underway) := by
  have looks : Takes answer (ε := Halt) (stride answer) (fun _ p _ => p.handle = none) (ask .stopping)
      (atEnd (fun stop => if stop then anytime
        else fun m p w => Checked false m p w ∧ p.handle = none) fun _ _ _ _ => False) := by
    refine takes_ask.mpr fun m p w closed => ⟨⟨nofun, nofun, nofun, nofun⟩, ?_⟩
    cases (answer .stopping w).1 with
    | true => exact trivial
    | false => exact ⟨⟨w, rfl⟩, closed⟩
  exact Playing.takes_openHandle (fun _ _ _ _ _ _ => trivial) (fun _ _ _ closed _ => closed) looks
    (takes_reconnect answer)

end

/-! ### Trying a command -/

section

variable {W : Type} (answer : (q : Question) → W → q.Answer × W)

/-- An instruction consists of steps. -/
theorem perform_steps (handle : Nat) (cmd : Command) (s : PlaybackState) (w : W) :
    ∀ t ∈ (perform handle cmd).turns answer s w, t.isStep = true := by
  let steps : Chronicle Unit PlaybackState Question Question.Answer W := .each (·.isStep = true)
  have steady : Execution.Steady answer steps (fun _ _ _ => True) (fun _ _ _ _ => True) handle :=
    Execution.steady_of_send (fun limit positive => keeps_ask fun _ _ _ _ => ⟨rfl, trivial⟩)
      (fun call _ => Execution.keeps_send (keeps_ask fun _ _ _ _ => ⟨rfl, trivial⟩))
      fun _ _ _ _ _ => trivial
  have holds := ((steady.keeps_perform cmd fun _ _ _ _ _ => trivial) () s w trivial).1
  exact Chronicle.holds_each.mp holds

/-- A try of a command is a look for a stop, and if there was none the steps of the command. -/
theorem attempt_steps (handle : Nat) (cmd : Command) (p : Player) (w : W) :
    Leads answer (attempt handle cmd) p w fun T r _ _ =>
      ∃ check steps result, T = check :: steps ∧ r = .ok result ∧
        check.check? = some (answer .stopping w).1 ∧
        ((answer .stopping w).1 = true → steps = [] ∧ result = .ok .skip) ∧
        ∀ t ∈ steps, t.isStep = true := by
  rw [attempt, leads_within, execute]
  show Leads answer (Talk.ask .stopping >>= _) _ _ _
  rw [leads_ask_bind]
  cases stop : (answer .stopping w).1 with
  | true => exact ⟨_, [], _, rfl, rfl, rfl, fun _ => ⟨rfl, rfl⟩, List.forall_mem_nil _⟩
  | false =>
    have steps := perform_steps answer handle cmd p.state (answer .stopping w).2
    refine leads_bind.mpr ?_
    rw [leads_iff]
    cases ((perform handle cmd).ending answer p.state (answer .stopping w).2).result with
    | error cause =>
      refine ⟨_, _, _, rfl, rfl, rfl, nofun, fun t ht => ?_⟩
      obtain ⟨u, hu, rfl⟩ := List.mem_map.mp ht
      rw [Turn.isStep_mapAsker]
      exact steps u hu
    | ok _ =>
      refine ⟨_, _, _, rfl, rfl, rfl, nofun, fun t ht => ?_⟩
      obtain ⟨u, hu, rfl⟩ := List.mem_map.mp ht
      rw [Turn.isStep_mapAsker]
      exact steps u ((List.mem_append.mp hu).elim id fun hu => absurd hu List.not_mem_nil)

/-- What holds after a command: if it was not skipped, its wait is to come. -/
def waitToCome (d : Dispatch) (m : List (Turn Player Question Question.Answer W)) (_ : Player)
    (_ : W) : Prop :=
  d ≠ .skip → Striding m

theorem takes_attempt_stride (handle : Nat) (cmd : Command) :
    Takes answer (stride answer) anytime (attempt handle cmd)
      (outcome waitToCome fun _ => underway) := by
  intro m p w _
  have course := attempt_steps answer handle cmd p w
  rw [leads_iff] at course ⊢
  obtain ⟨check, steps, result, turns, returned, checked, stopped, stepping⟩ := course
  have unchecked : ∀ t ∈ steps, t.check? = none := fun t ht =>
    (Turn.check_of_isStep (stepping t ht)).1
  have striding : (answer .stopping w).1 = false → Striding (check :: steps) := by
    intro goes u hu
    rcases List.mem_cons.mp hu with rfl | hu
    · rw [checked, goes]
      exact ⟨nofun, Turn.isWait_of_check checked⟩
    · rw [unchecked u hu]
      exact ⟨nofun, (Turn.check_of_isStep (stepping u hu)).2⟩
  -- after the look come steps only, and they belong to this try
  have along : ∀ T T', steps = T ++ T' → (stride answer).Holds (check :: T) T' := by
    intro T T' split
    induction T' generalizing T with
    | nil => exact trivial
    | cons t T' ih =>
      have ht : t ∈ steps := split ▸ List.mem_append_right T List.mem_cons_self
      have goes : (answer .stopping w).1 = false := by
        cases goes : (answer .stopping w).1 with
        | true => exact absurd ht ((stopped goes).1 ▸ List.not_mem_nil)
        | false => rfl
      have sofar : Striding (check :: T) := fun u hu =>
        striding goes u (split ▸ List.mem_append_left (t :: T') hu)
      refine ⟨sofar.step (stepping t ht) ⟨handle, cmd, p, w, T', ?_⟩, ?_⟩
      · rw [turns, split, List.append_assoc]
        rfl
      · rw [stride_step_unchecked (unchecked t ht)]
        exact ih (T ++ [t]) (by rw [split, List.append_assoc]; rfl)
  have after : (stride answer).after m (check :: steps) = check :: steps := by
    show (stride answer).after ((stride answer).step m check) steps = _
    rw [stride_step_checked checked, stride_unchecked _ unchecked]
    rfl
  have checks : Strides answer m check := by
    obtain ⟨s, q, r, w'⟩ := check
    cases q with
    | stopping => exact ⟨nofun, nofun, nofun, nofun⟩
    | _ => exact absurd checked nofun
  rw [turns, after, returned]
  refine ⟨⟨checks, ?_⟩, ?_⟩
  · rw [stride_step_checked checked]
    exact along [] steps rfl
  · cases goes : (answer .stopping w).1 with
    | true =>
      rw [(stopped goes).2]
      exact fun skipped => absurd rfl skipped
    | false =>
      cases result with
      | ok d => exact fun _ => striding goes
      | error cause => exact striding goes

theorem takes_dispatch_stride (cmd : Command) (fuel : Nat) :
    Takes answer (stride answer) anytime (dispatch cmd fuel)
      (atEnd waitToCome fun _ => anytime) := by
  have opens : Takes answer (stride answer) anytime openHandle
      (Playing.looked (waitToCome .skip) (fun _ => anytime) fun _ => underway) := by
    refine (takes_openHandle answer).mono (fun _ _ _ h => h) fun r _ _ _ h => ?_
    rcases r with halt | _ | _ | _
    · exact h
    · exact fun skipped => absurd rfl skipped
    · exact h
    · exact h
  exact (recovers_strides answer).takes_dispatch opens
    (fun handle => takes_attempt_stride answer handle cmd) (fun _ _ _ _ h => h) fuel

theorem takes_carryOut_stride (fuel : Nat) (cmd : Command) :
    Takes answer (stride answer) anytime (carryOut fuel cmd)
      (atEnd (fun _ => anytime) fun _ => anytime) := by
  have paces : ∀ d, Takes answer (stride answer) (waitToCome d) (pace d)
      (atEnd (fun _ => anytime) fun _ => anytime) := by
    intro d
    cases d with
    | skip => exact takes_pure fun _ _ _ _ => trivial
    | sleep length =>
      exact takes_modify_bind (takes_wait answer _ _) fun _ _ _ h => h nofun
  exact Playing.takes_carryOut (fun _ _ _ h => h) (takes_dispatch_stride answer cmd fuel) paces
    fun _ _ _ h => h

/-! ### Passes in strides -/

theorem takes_playCommands_stride (fuel : Nat) (cmds : List Command) :
    Takes answer (stride answer) anytime (playCommands fuel cmds)
      (atEnd (fun _ => anytime) fun _ => anytime) := by
  induction cmds with
  | nil => exact takes_pure fun _ _ _ h => h
  | cons cmd rest ih =>
    refine takes_bind (takes_check answer) (fun stop => takes_ite (fun _ => ?_) fun _ => ?_)
      fun _ _ _ _ => False.elim
    · exact takes_pure fun _ _ _ _ => trivial
    · refine takes_bind ((takes_carryOut_stride answer fuel cmd).mono (fun _ _ _ _ => trivial)
        fun _ _ _ _ h => h) (fun _ => ih) fun _ _ _ _ h => h

theorem takes_pass_stride (fuel : Nat) :
    Takes answer (stride answer) (Checked false) (pass fuel)
      (atEnd (fun _ => anytime) fun _ => anytime) := by
  have looks : Takes answer (ε := Halt) (stride answer) (Checked false) (ask .nextScript)
      (atEnd (fun _ => underway) fun _ _ _ _ => False) := by
    refine takes_ask.mpr fun m p w h => ?_
    have striding := h.striding
    obtain ⟨w₀, rfl⟩ := h
    exact ⟨⟨fun _ => striding, nofun, fun _ => ⟨_, rfl, rfl⟩, nofun⟩, striding.concat rfl rfl⟩
  have picks : Takes answer (stride answer) (Checked false) pickUpScript
      (atEnd (fun _ => underway) fun _ _ _ _ => False) := by
    refine takes_bind looks (fun left => ?_) fun _ _ _ _ => False.elim
    cases left with
    | none => exact takes_pure fun _ _ _ h => h
    | some script =>
      exact (keeps_report answer _).bind fun _ => takes_modify fun _ _ _ h => h
  refine takes_bind picks (fun _ => ?_) fun _ _ _ _ => False.elim
  refine Surely.bind (keeps_modify fun _ _ _ h => h) fun _ => ?_
  refine Surely.bind (keeps_modify fun _ _ _ h => h) fun _ => Surely.bind keeps_get fun p => ?_
  refine takes_ite (fun _ => takes_wait answer _ _) fun _ => ?_
  exact (takes_playCommands_stride answer fuel _).mono (fun _ _ _ _ => trivial)
    fun _ _ _ _ h => h

/-- Passes go on in strides. -/
theorem takes_play_strides (fuel : Nat) :
    Takes answer (stride answer) anytime (play fuel) (atEnd (fun _ => anytime) fun _ => anytime) := by
  induction fuel with
  | zero => exact takes_throw fun _ _ _ h => h
  | succ fuel ih =>
    refine takes_bind (takes_check answer) (fun stop => takes_ite (fun _ => ?_) fun goes => ?_)
      fun _ _ _ _ => False.elim
    · exact takes_pure fun _ _ _ _ => trivial
    · rw [Bool.eq_false_iff.mpr goes]
      exact takes_bind (takes_pass_stride answer fuel) (fun _ => ih) fun _ _ _ _ h => h

end

/-! ### What is in flight -/

section

variable {W : Type} (answer : (q : Question) → W → q.Answer × W)

/-- Turns that go on from others without a look for a stop.  A wait is the last of them; a handle is
opened or a script taken up only at once, after a look that found no stop; and calls belong to one
try of a command, whose look found no stop. -/
structure InFlight (A step : List (Turn Player Question Question.Answer W)) : Prop where
  unchecked : ∀ t ∈ step, t.check? = none
  wait : ∀ T t T', step = T ++ t :: T' → t.isWait = true → T' = []
  connect : ∀ T t T', step = T ++ t :: T' → t.question = .connect → T = [] ∧
    ∃ A' check, A = A' ++ [check] ∧ check.check? = some false ∧ check.asker.handle = none
  look : ∀ T t T', step = T ++ t :: T' → t.question = .nextScript → T = [] ∧
    ∃ A' check, A = A' ++ [check] ∧ check.check? = some false
  call : ∀ T t T' handle c, step = T ++ t :: T' → t.question = .call handle c →
    ∃ A' check steps through cmd p w, A = A' ++ check :: steps ∧ check.check? = some false ∧
      check :: (steps ++ T ++ [t]) <+: (attempt through cmd).turns answer p w

variable {answer} {A step : List (Turn Player Question Question.Answer W)}

/-- A look by itself with turns that are none is the look alone. -/
theorem alone_of_check {m T : List (Turn Player Question Question.Answer W)}
    {check : Turn Player Question Question.Answer W} {stop : Bool} (h : m ++ T = [check])
    (checked : check.check? = some stop) (unchecked : ∀ u ∈ T, u.check? = none) :
    T = [] ∧ m = [check] := by
  rcases T with _ | ⟨u, T⟩
  · rw [List.append_nil] at h
    exact ⟨rfl, h⟩
  · have hu : u ∈ [check] := h ▸ List.mem_append_right m List.mem_cons_self
    have none := unchecked u List.mem_cons_self
    rw [List.mem_singleton.mp hu, checked] at none
    exact absurd none nofun

/-- A call that goes on in strides belongs to a try of a command, and the look of that try is the
first of the turns remembered. -/
theorem try_of_call {m T : List (Turn Player Question Question.Answer W)}
    {t : Turn Player Question Question.Answer W} {handle : Nat} {c : Call}
    (strides : Strides answer (m ++ T) t) (unchecked : ∀ u ∈ T ++ [t], u.check? = none)
    (calls : t.question = .call handle c) :
    ∃ check steps through cmd p w, m = check :: steps ∧ check.check? = some false ∧
      check :: (steps ++ T ++ [t]) <+: (attempt through cmd).turns answer p w := by
  obtain ⟨through, cmd, p, w, tried⟩ := strides.call handle c calls
  have course := attempt_steps answer through cmd p w
  rw [leads_iff] at course
  obtain ⟨check, steps, -, turns, -, checked, -, -⟩ := course
  rw [turns] at tried
  rcases m with _ | ⟨check', m⟩
  · -- then the look of the try would be among the turns that are none
    rw [List.nil_append] at tried
    have begins : check ∈ T ++ [t] := by
      rcases h : T ++ [t] with _ | ⟨u, us⟩
      · exact absurd h (List.append_ne_nil_of_right_ne_nil T (List.cons_ne_nil t []))
      · rw [h] at tried
        exact (List.cons_prefix_cons.mp tried).1 ▸ List.mem_cons_self
    exact absurd ((unchecked check begins).symm.trans checked) nofun
  · have same : check' = check := (List.cons_prefix_cons.mp tried).1
    have none := unchecked t (List.mem_append_right T List.mem_cons_self)
    obtain ⟨goes, -⟩ := strides.goes none check' List.mem_cons_self
    refine ⟨check', m, through, cmd, p, w, rfl, ?_, turns ▸ tried⟩
    rw [same, checked] at goes ⊢
    cases stop : (answer .stopping w).1 with
    | true => exact absurd (congrArg some stop) goes
    | false => rfl

theorem inFlight_of_holds (holds : (stride answer).Holds [] (A ++ step))
    (unchecked : ∀ t ∈ step, t.check? = none) : InFlight answer A step := by
  obtain ⟨A', hA⟩ : (stride answer).after [] A <:+ A := stride_suffix [] A
  have striding := ((stride answer).holds_append.mp holds).2
  generalize (stride answer).after [] A = m at hA striding
  have along : ∀ T t T', step = T ++ t :: T' →
      (∀ u ∈ T ++ [t], u.check? = none) ∧ Strides answer (m ++ T) t := by
    intro T t T' split
    rw [List.append_cons] at split
    have upTo : ∀ u ∈ T ++ [t], u.check? = none := fun u hu =>
      unchecked u (split ▸ List.mem_append_left T' hu)
    rw [split, ← List.append_cons] at striding
    have here := striding.along_of_split
    rw [stride_unchecked m fun u hu => upTo u (List.mem_append_left [t] hu)] at here
    exact ⟨upTo, here⟩
  refine ⟨unchecked, fun T t T' split wait => ?_, fun T t T' split q => ?_,
    fun T t T' split q => ?_, fun T t T' handle c split q => ?_⟩
  · rcases T' with _ | ⟨u, T'⟩
    · rfl
    · -- a turn after the wait would have to find the strides unbroken
      obtain ⟨upTo, strides⟩ := along (T ++ [t]) u T' (by rw [split, List.append_assoc]; rfl)
      have none := upTo u (List.mem_append_right _ List.mem_cons_self)
      have ht : t ∈ m ++ (T ++ [t]) :=
        List.mem_append_right m (List.mem_append_right T List.mem_cons_self)
      exact absurd ((strides.goes none t ht).2.symm.trans wait) nofun
  · obtain ⟨upTo, strides⟩ := along T t T' split
    obtain ⟨check, h, checked, closed⟩ := strides.connect q
    obtain ⟨hT, hm⟩ := alone_of_check h checked fun u hu => upTo u (List.mem_append_left [t] hu)
    exact ⟨hT, A', check, by rw [← hA, hm], checked, closed⟩
  · obtain ⟨upTo, strides⟩ := along T t T' split
    obtain ⟨check, h, checked⟩ := strides.look q
    obtain ⟨hT, hm⟩ := alone_of_check h checked fun u hu => upTo u (List.mem_append_left [t] hu)
    exact ⟨hT, A', check, by rw [← hA, hm], checked⟩
  · obtain ⟨upTo, strides⟩ := along T t T' split
    obtain ⟨check, steps, through, cmd, p, w, rfl, found, tried⟩ := try_of_call strides upTo q
    exact ⟨A', check, steps, through, cmd, p, w, hA.symm, found, tried⟩

end

/-! ### After a stop -/

/-- A look that does not miss a stop finds one. -/
theorem found_of_check {W : Type} {t : Turn Player Question Question.Answer W} {stop : Bool}
    (check : t.check? = some stop) (found : t.check? ≠ some false) : t.check? = some true := by
  cases stop with
  | true => exact check
  | false => exact absurd check found

/-- After a stop was found there are only more looks. -/
theorem checks_of_holds {W : Type} {answer : (q : Question) → W → q.Answer × W}
    {m R : List (Turn Player Question Question.Answer W)} (ended : ¬Striding m)
    (holds : (stride answer).Holds m R) (found : ∀ t ∈ R, t.check? ≠ some false) :
    ∀ t ∈ R, t.check? = some true := by
  induction R generalizing m with
  | nil => exact List.forall_mem_nil _
  | cons t R ih =>
    obtain ⟨here, later⟩ := List.forall_mem_cons.mp found
    cases check : t.check? with
    | none => exact absurd (holds.1.goes check) ended
    | some stop =>
      have check := found_of_check check here
      refine List.forall_mem_cons.mpr ⟨check, ih ?_ holds.2 later⟩
      rw [stride_step_checked check]
      exact fun striding => (striding t List.mem_cons_self).1 check

/-- Turns up to the first look, and the others. -/
theorem split_at_check {S W : Type} (B : List (Turn S Question Question.Answer W)) :
    ∃ step rest, B = step ++ rest ∧ (∀ t ∈ step, t.check? = none) ∧
      ∀ t ∈ rest.head?, t.check?.isSome = true := by
  induction B with
  | nil => exact ⟨[], [], rfl, List.forall_mem_nil _, fun t ht => absurd ht (Option.not_mem_none t)⟩
  | cons t B ih =>
    cases check : t.check? with
    | some stop =>
      refine ⟨[], t :: B, rfl, List.forall_mem_nil _, fun u hu => ?_⟩
      rw [← Option.mem_some_iff.mp hu, check]
      rfl
    | none =>
      obtain ⟨step, rest, rfl, unchecked, checked⟩ := ih
      exact ⟨t :: step, rest, rfl, List.forall_mem_cons.mpr ⟨check, unchecked⟩, checked⟩

end Player

namespace Performance

/-- Every look for a stop finds what there is to find. -/
theorem check_found {S α : Type} {x : Dialogue S Question Question.Answer α} {w : Performance}
    {t : Turn S Question Question.Answer Performance} (ht : t ∈ x.turns answer w) {stop : Bool}
    (check : t.check? = some stop) : (answer .stopping t.world).1 = stop := by
  obtain ⟨T, T', split⟩ := List.append_of_mem ht
  have answered := (Dialogue.turns_split split).1
  obtain ⟨s, q, r, w'⟩ := t
  cases q with
  | stopping => exact answered.symm.trans (Option.some.inj check)
  | _ => exact absurd check nofun

/-- Once a stop has been requested, there is one to find at every turn. -/
theorem finds_of_stopped {w : Performance} (h : w.Stopped) {S α : Type}
    (x : Dialogue S Question Question.Answer α) :
    ∀ t ∈ x.turns answer w, (answer .stopping t.world).1 = true := by
  induction x generalizing w with
  | done a => exact List.forall_mem_nil _
  | ask s q next ih =>
    have found := h.answer.1
    exact List.forall_mem_cons.mpr ⟨found, ih _ (stopped_of_answer found)⟩

end Performance

namespace Player

/-- When a stop is to be found, playback goes on with what is in flight, and then only looks for
it. -/
theorem play_after_stop {fuel : Nat} {p : Player} {w : Performance}
    {A B : List (Turn Player Question Question.Answer Performance)}
    (split : (play fuel).turns answer p w = A ++ B)
    (stopped : ∀ t ∈ B.head?, (answer .stopping t.world).1 = true) :
    ∃ step rest, B = step ++ rest ∧ InFlight answer A step ∧ ∀ t ∈ rest, t.check? = some true := by
  have found : ∀ t ∈ B, (answer .stopping t.world).1 = true := by
    rcases B with _ | ⟨t, B⟩
    · exact List.forall_mem_nil _
    · have here := stopped t rfl
      obtain ⟨-, y, hB⟩ := Dialogue.turns_split split
      exact List.forall_mem_cons.mpr ⟨here, hB ▸ finds_of_stopped (stopped_of_answer here) y⟩
  have holds := (takes_play_strides answer fuel [] p w trivial).1
  obtain ⟨step, rest, rfl, unchecked, checked⟩ := split_at_check B
  have inTurns : ∀ t ∈ rest, t ∈ (play fuel).turns answer p w := by
    rw [split]
    exact fun t ht => List.mem_append_right A (List.mem_append_right step ht)
  have finds : ∀ t ∈ rest, t.check? ≠ some false := by
    intro t ht missed
    have stop := found t (List.mem_append_right step ht)
    rw [check_found (inTurns t ht) missed] at stop
    exact absurd stop nofun
  -- what comes before the next look is in flight, and no stride goes on after it
  rw [split, ← List.append_assoc] at holds
  obtain ⟨before, after⟩ := (stride answer).holds_append.mp holds
  refine ⟨step, rest, rfl, inFlight_of_holds before unchecked, ?_⟩
  rcases rest with _ | ⟨t, rest⟩
  · exact List.forall_mem_nil _
  · obtain ⟨stop, check⟩ := Option.isSome_iff_exists.mp (checked t rfl)
    obtain ⟨here, later⟩ := List.forall_mem_cons.mp finds
    have check := found_of_check check here
    refine List.forall_mem_cons.mpr ⟨check, checks_of_holds ?_ after.2 later⟩
    rw [stride_step_checked check]
    exact fun striding => (striding t List.mem_cons_self).1 check

end Player

/-! ### Without stops -/

/-- Whether a deed asks playback to stop. -/
def Deed.stops : Deed → Bool
  | .stop | .signal .interrupt | .signal .terminate => true
  | _ => false

namespace Stage

/-- A stage where no stop has been requested. -/
def unstopped (s : Stage) : Stage := s.onControl fun c => { c with stopping := false }

/-- A stage without the reports, some of which tell of a stop. -/
def unheard (s : Stage) : Stage := { s with reports := [] }

/-- A deed that asks for a stop does nothing else. -/
theorem after_stops (s : Stage) {d : Deed} (stops : d.stops = true) :
    (s.after d).unstopped.unheard = s.unstopped.unheard := by
  cases d with
  | signal signal =>
    cases signal with
    | reload => exact absurd stops nofun
    | _ => rfl
  | stop => rfl
  | _ => exact absurd stops nofun

/-- Any other deed does the same whether or not a stop was requested. -/
theorem after_unstopped (s : Stage) {d : Deed} (stays : d.stops = false) :
    (s.after d).unstopped.unheard = (s.unstopped.unheard.after d).unstopped.unheard ∧
      (s.after d).studio.control.stopping = s.studio.control.stopping := by
  cases d with
  | signal signal =>
    cases signal with
    | reload =>
      have loads : ∀ loaded, Script.load s.files s.scriptPath = loaded →
          Script.load s.unstopped.unheard.files s.unstopped.unheard.scriptPath = loaded :=
        fun _ h => h
      rw [after, after, Signal.handle, Signal.handle]
      cases h : Script.load s.files s.scriptPath with
      | ok script => rw [loads _ h]; exact ⟨rfl, rfl⟩
      | error cause => rw [loads _ h]; exact ⟨rfl, rfl⟩
    | _ => cases stays
  | replaceFile entry => cases entry <;> exact ⟨rfl, rfl⟩
  | stop => cases stays
  | _ => exact ⟨rfl, rfl⟩

/-- Only a look for a stop gets another answer when none was requested. -/
theorem serve_unstopped (s : Stage) {q : Question} (h : q ≠ .stopping) :
    (s.serve q).1 = (s.unstopped.unheard.serve q).1 ∧
      (s.serve q).2.unstopped.unheard = (s.unstopped.unheard.serve q).2.unstopped.unheard := by
  cases q with
  | stopping => exact absurd rfl h
  | connect =>
    rw [serve, serve, connect, connect]
    by_cases rejected : 0 < s.rejectedConnects
    · rw [if_pos rejected, if_pos (show 0 < s.unstopped.unheard.rejectedConnects from rejected)]
      exact ⟨rfl, rfl⟩
    · rw [if_neg rejected, if_neg (show ¬0 < s.unstopped.unheard.rejectedConnects from rejected)]
      exact ⟨rfl, rfl⟩
  | call handle c =>
    rw [serve, serve, perform, perform]
    by_cases garbled : 0 < s.garbledCalls
    · rw [if_pos garbled, if_pos (show 0 < s.unstopped.unheard.garbledCalls from garbled)]
      exact ⟨rfl, rfl⟩
    · rw [if_neg garbled, if_neg (show ¬0 < s.unstopped.unheard.garbledCalls from garbled)]
      exact ⟨rfl, rfl⟩
  | pause purpose length => exact ⟨rfl, rfl⟩
  | _ => exact ⟨rfl, rfl⟩

end Stage

namespace Performance

/-- The same performance without any stop. -/
def unstopped (w : Performance) : Performance :=
  ⟨w.stage.unstopped, fun n => (w.plot n).filter fun d => !d.stops⟩

/-- The second performance is the first without its stops, but that other things may have been
reported. -/
structure Alike (w v : Performance) : Prop where
  stage : v.stage.unstopped.unheard = w.stage.unstopped.unheard
  going : v.stage.studio.control.stopping = false
  plot : ∀ n, v.plot n = (w.plot n).filter fun d => !d.stops

theorem alike_unstopped (w : Performance) : Alike w w.unstopped := ⟨rfl, rfl, fun _ => rfl⟩

theorem Alike.bulb {w v : Performance} (h : Alike w v) : v.bulb = w.bulb := by
  have bulb : v.stage.unstopped.unheard.studio.bulb = w.stage.unstopped.unheard.studio.bulb := by
    rw [h.stage]
  exact bulb

theorem Alike.plain {w v : Performance} (h : Alike w v) (plain : w.Plain) : v.Plain := by
  have inParts : v.stage.unstopped.unheard.studio.inParts =
      w.stage.unstopped.unheard.studio.inParts := by rw [h.stage]
  exact inParts.trans plain

theorem Alike.met {w v : Performance} (h : Alike w v) :
    v.met.unstopped.unheard = w.met.unstopped.unheard ∧
      v.met.studio.control.stopping = false := by
  obtain ⟨stage, going, plot⟩ := h
  rw [Performance.met, Performance.met, plot 0]
  generalize v.stage = s at stage going ⊢
  generalize w.stage = s' at stage ⊢
  induction w.plot 0 generalizing s s' with
  | nil => exact ⟨stage, going⟩
  | cons d ds ih =>
    cases stops : d.stops with
    | true =>
      rw [List.filter_cons_of_neg (by rw [stops]; decide), List.foldl_cons]
      exact ih s going _ (stage.trans (s'.after_stops stops).symm)
    | false =>
      rw [List.filter_cons_of_pos (by rw [stops]; decide), List.foldl_cons, List.foldl_cons]
      obtain ⟨after, goes⟩ := s.after_unstopped stops
      obtain ⟨after', -⟩ := s'.after_unstopped stops
      refine ih _ (goes.trans going) _ ?_
      rw [after, after', stage]

theorem Alike.answer {w v : Performance} (h : Alike w v) (q : Question) :
    (q ≠ .stopping → (answer q v).1 = (answer q w).1) ∧
      Alike (answer q w).2 (answer q v).2 := by
  obtain ⟨met, going⟩ := h.met
  have plot : ∀ n, (Performance.answer q v).2.plot n =
      ((Performance.answer q w).2.plot n).filter fun d => !d.stops := fun n => h.plot (n + 1)
  have goes := (Stage.serve_stopping v.met q).trans going
  by_cases hq : q = .stopping
  · subst hq
    exact ⟨fun h => absurd rfl h, met, going, plot⟩
  · obtain ⟨hv, hv'⟩ := v.met.serve_unstopped hq
    obtain ⟨hw, hw'⟩ := w.met.serve_unstopped hq
    refine ⟨fun _ => ?_, ?_, goes, plot⟩
    · exact hv.trans (met ▸ hw.symm)
    · exact hv'.trans (met ▸ hw'.symm)

/-- Without its stops, a conversation is the same up to the first look that found one. -/
theorem alike_run {S α : Type} (x : Dialogue S Question Question.Answer α) {w v : Performance}
    (h : Alike w v) :
    (∃ T t T', x.turns answer w = T ++ t :: T' ∧ t.check? = some true ∧
      told T <+: told (x.turns answer v)) ∨
    (x.run answer v).1 = (x.run answer w).1 ∧ Alike (x.run answer w).2 (x.run answer v).2 ∧
      told (x.turns answer v) = told (x.turns answer w) := by
  induction x generalizing w v with
  | done a => exact Or.inr ⟨rfl, h, rfl⟩
  | ask s q next ih =>
    obtain ⟨same, after⟩ := h.answer q
    by_cases hr : (answer q v).1 = (answer q w).1
    · rw [Dialogue.turns, Dialogue.turns, Dialogue.run, Dialogue.run]
      dsimp only
      rw [hr]
      obtain ⟨T, t, T', split, found, before⟩ | ⟨result, alike, same⟩ := ih (answer q w).1 after
      · refine Or.inl ⟨_ :: T, t, T', congrArg _ split, found, ?_⟩
        rw [told_cons, told_cons, Turn.told?_world s _ v w]
        exact (List.prefix_append_right_inj _).mpr before
      · refine Or.inr ⟨result, alike, ?_⟩
        rw [told_cons, told_cons, same, Turn.told?_world s _ v w]
    · have hq : q = .stopping := Classical.byContradiction fun hq => hr (same hq)
      subst hq
      have going : (answer .stopping v).1 = false := h.met.2
      rw [going] at hr
      have stop : (answer .stopping w).1 = true := by
        cases found : (answer .stopping w).1 with
        | true => rfl
        | false => exact absurd found.symm hr
      refine Or.inl ⟨[], _, _, rfl, congrArg some stop, List.nil_prefix⟩

end Performance

namespace Player

/-- A start-up does not look for a stop. -/
theorem startUp_unchecked {W : Type} (answer : (q : Question) → W → q.Answer × W) (p : Player)
    (w : W) : ∀ t ∈ startUp.turns answer p w, t.check? = none := by
  let unchecked : Chronicle Unit Player Question Question.Answer W := .each (·.check? = none)
  let any : Unit → Player → W → Prop := fun _ _ _ => True
  have starts : Keeps answer unchecked any (fun _ => any) startUp :=
    keeps_startUp (keeps_ask fun _ _ _ _ => ⟨rfl, trivial⟩)
      (fun _ => keeps_ask fun _ _ _ _ => ⟨rfl, trivial⟩)
      (fun _ _ => keeps_ask fun _ _ _ _ => ⟨rfl, trivial⟩) (fun _ _ _ _ _ => trivial)
      fun _ _ _ _ _ => trivial
  exact Chronicle.holds_each.mp (starts () p w trivial).1

/-- Without its stops, a playback starts up in the same way. -/
theorem startUp_unstopped {p p₁ : Player} {w w₁ : Performance} {snapshot : Snapshot}
    (begun : startUp.ending answer p w = ⟨.ok snapshot, p₁, w₁⟩) :
    ∃ v₁, startUp.ending answer p w.unstopped = ⟨.ok snapshot, p₁, v₁⟩ ∧ Alike w₁ v₁ := by
  obtain ⟨T, t, T', split, found, -⟩ | ⟨result, alike, -⟩ :=
    alike_run (startUp.run.run p) (alike_unstopped w)
  · have ht : t ∈ startUp.turns answer p w := by
      rw [turns, split]
      exact List.mem_append_right T List.mem_cons_self
    rw [startUp_unchecked answer p w t ht] at found
    cases found
  · change Ending.mk ((startUp.run.run p).run answer w).1.1 ((startUp.run.run p).run answer w).1.2
      ((startUp.run.run p).run answer w).2 = _ at begun
    obtain ⟨hresult, hstate, hworld⟩ := Ending.mk.inj begun
    refine ⟨((startUp.run.run p).run answer w.unstopped).2, ?_, hworld ▸ alike⟩
    rw [← hresult, ← hstate, ← result]
    rfl

/-- Whenever a stop is requested in a playback that has started up, its passes go on with what is in
flight and then only look for a stop, until the snapshot is put back; and what the bulb has recorded
until then is a beginning of what it would have recorded without any stop. -/
theorem stop_truncates {fuel : Nat} {p p₁ : Player} {w w₁ : Performance} {snapshot : Snapshot}
    (plain : w.Plain) (begun : startUp.ending answer p w = ⟨.ok snapshot, p₁, w₁⟩) :
    let playing := (play fuel).turns answer p₁ w₁
    let played := (play fuel).ending answer p₁ w₁
    (run fuel).turns answer p w = startUp.turns answer p w ++
      (playing ++ (close snapshot played.result).turns answer played.state played.world) ∧
    (∀ A B, playing = A ++ B → (∀ t ∈ B.head?, (answer .stopping t.world).1 = true) →
      ∃ step rest, B = step ++ rest ∧ InFlight answer A step ∧
        ∀ t ∈ rest, t.check? = some true) ∧
    ∃ v₁, startUp.ending answer p w.unstopped = ⟨.ok snapshot, p₁, v₁⟩ ∧
      ∃ calls more, played.world.bulb.calls = w₁.bulb.calls ++ calls ∧
        ((play fuel).ending answer p₁ v₁).world.bulb.calls = w₁.bulb.calls ++ calls ++ more := by
  intro playing played
  refine ⟨(run_begun begun rfl).1, fun A B split stopped => play_after_stop split stopped, ?_⟩
  obtain ⟨v₁, begun', alike⟩ := startUp_unstopped begun
  have plain₁ : w₁.Plain := (begun_of_ending plain begun).plain
  have record := congrArg Prod.fst (leads_record plain₁ (play fuel) p₁).2
  have record' := congrArg Prod.fst (leads_record (alike.plain plain₁) (play fuel) p₁).2
  have before : told playing <+: told ((play fuel).turns answer p₁ v₁) := by
    obtain ⟨T, t, T', split, found, before⟩ | ⟨-, -, same⟩ :=
      alike_run ((play fuel).run.run p₁) alike
    · -- after the look that finds the first stop nothing is told
      have stop : (answer .stopping t.world).1 = true :=
        check_found (split ▸ List.mem_append_right T List.mem_cons_self) found
      have split : playing = T ++ t :: T' := split
      obtain ⟨step, rest, hB, inFlight, checks⟩ :=
        play_after_stop split fun u hu => Option.mem_some_iff.mp hu ▸ stop
      have none : told (t :: T') = [] := by
        rcases step with _ | ⟨u, step⟩
        · rw [hB]
          exact List.filterMap_eq_nil_iff.mpr fun u hu => Turn.told_of_check (checks u hu)
        · rw [List.cons_append, List.cons.injEq] at hB
          have unchecked := inFlight.unchecked u List.mem_cons_self
          rw [← hB.1, found] at unchecked
          exact absurd unchecked nofun
      rw [split, told_append, none, List.append_nil]
      exact before
    · exact (show told _ = told playing from same) ▸ List.prefix_rfl
  obtain ⟨more, hmore⟩ := before
  refine ⟨v₁, begun', told playing, more, record, ?_⟩
  rw [List.append_assoc, hmore]
  exact record'.trans (congrArg (· ++ _) (congrArg Simulated.calls alike.bulb))

/-- A stop between the two calls of a colour command. -/
theorem stop_truncates_between_calls :
    let p := new "lamp" ⟨[⟨0, .hsb, [0, 0, 0]⟩, ⟨0, .rgb, [255, 0, 0]⟩]⟩ .usual
    let w := Performance.ofLamp fun
      | 14 => [.stop]
      | _ => []
    let begun := startUp.ending answer p w
    let playing := (play 3).turns answer begun.state begun.world
    (told (playing.take 9)).map Call.name = ["TurnOff", "TurnOn"] ∧
    (told (playing.drop 9)).map Call.name = ["SetRgb"] ∧
    ∃ step rest, playing.drop 9 = step ++ rest ∧ InFlight answer (playing.take 9) step ∧
      ∀ t ∈ rest, t.check? = some true := by
  intro p w begun playing
  have plain : w.Plain := rfl
  have began : startUp.ending answer p w =
    ⟨.ok Light.dark.snapshot, begun.state, begun.world⟩ := rfl
  obtain ⟨-, truncated, -⟩ := @stop_truncates 3 p begun.state w begun.world _ plain began
  have stopped : (playing.drop 9).head?.all (fun t => (answer .stopping t.world).1) = true := by
    decide +kernel
  have first : ∀ t ∈ (playing.drop 9).head?, (answer .stopping t.world).1 = true := by
    intro t ht
    rw [Option.mem_def.mp ht] at stopped
    exact stopped
  have split : playing = playing.take 9 ++ playing.drop 9 := (List.take_append_drop 9 playing).symm
  exact ⟨by decide +kernel, by decide +kernel, truncated _ _ split first⟩

end Player

end Lightshow
