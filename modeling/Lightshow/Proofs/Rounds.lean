/-
Passes as rounds of acts.

Passes are played in rounds: playback looks for a stop, and if it finds none it looks for a script and
plays one pass.  A pass consists of acts: one command each, tried until the bulb takes it, and then the
wait after it.  A round that ends with a command begun and not carried out has met a stop, or it is the
last one.

* `Tried`, `Missed`, `Act.CarriedOut` -- the turns of a command that is carried out exactly once;
* `Missed.before_taken`, `Act.CarriedOut.once` -- there is one try in an act that the bulb has taken;
* `Round.Plays` -- the turns of a pass over a script;
* `leads_dispatch`, `leads_playCommands`, `leads_pass` -- what the parts of a pass turn to;
* `leads_play` -- passes are rounds that follow each other.
-/
import Lightshow.Proofs.Pacing
import Lightshow.Proofs.Stopping

namespace Lightshow

open Talk Performance

/-- A turn of a playback that is performed. -/
abbrev Scene := Turn Player Question Question.Answer Performance

namespace Turn

variable {S W : Type}

/-- The script of the pass that begins with a turn, if one does. -/
def script? : Turn Player Question Question.Answer W → Option Script
  | ⟨p, .nextScript, left, _⟩ => some (left.getD p.script)
  | _ => none

/-- Whether playback deals with a missing handle at a turn, or finds out that it is to stop. -/
def isAside : Turn Player Question Question.Answer W → Bool
  | ⟨_, .connect, _, _⟩ => true
  | ⟨_, .report _, _, _⟩ => true
  | ⟨_, .pause .retrying _, _, _⟩ => true
  | ⟨p, .stopping, stop, _⟩ => stop || p.handle.isNone
  | _ => false

/-- Whether the question of a turn is one that only passes ask. -/
def isOfPasses : Turn S Question Question.Answer W → Bool
  | ⟨_, .stopping, _, _⟩ => true
  | ⟨_, .nextScript, _, _⟩ => true
  | ⟨_, .pause .pacing _, _, _⟩ => true
  | ⟨_, .pause .idling _, _, _⟩ => true
  | ⟨_, .roll .., _, _⟩ => true
  | _ => false

/-- Whether a turn is a look for a script. -/
def Looks (t : Turn S Question Question.Answer W) : Prop := t.question = .nextScript

theorem not_looks_of_check {t : Turn S Question Question.Answer W} {stop : Bool}
    (h : t.check? = some stop) : ¬t.Looks := by
  obtain ⟨p, q, r, w⟩ := t
  cases q with
  | nextScript => exact absurd h nofun
  | _ => exact nofun

theorem not_looks_of_question {t : Turn S Question Question.Answer W} {q : Question}
    (asks : t.question = q) (other : q ≠ .nextScript) : ¬t.Looks := by
  rw [Looks, asks]
  exact other

/-- Only passes look for a script. -/
theorem not_looks_of_isOfPasses {t : Turn S Question Question.Answer W} (h : t.isOfPasses = false) :
    ¬t.Looks := by
  obtain ⟨p, q, r, w⟩ := t
  cases q with
  | nextScript => exact absurd h nofun
  | _ => exact nofun

theorem script?_of_not_looks {t : Turn Player Question Question.Answer W} (h : ¬t.Looks) :
    t.script? = none := by
  obtain ⟨p, q, r, w⟩ := t
  cases q with
  | nextScript => exact absurd rfl h
  | _ => rfl

theorem isAside_of_stop {t : Turn Player Question Question.Answer W} (h : t.check? = some true) :
    t.isAside = true := by
  obtain ⟨p, q, r, w⟩ := t
  cases q with
  | stopping => exact Bool.or_eq_true_iff.mpr (.inl (Option.some.inj h))
  | _ => exact absurd h nofun

end Turn

namespace Player

/-! ### Acts -/

/-- The turns of one try of a command, which executes it once through the handle that is open, and the
result. -/
def Tried (c : Command) (T : List Scene) (result : Except BulbError Dispatch) : Prop :=
  ∃ (handle : Nat) (p : Player) (w : Performance), p.handle = some handle ∧
    T = ((execute handle c).turns answer p.state w).map (Turn.mapAsker fun state => { p with state }) ∧
    result = ((execute handle c).ending answer p.state w).result

/-- Tries of a command that have failed, and what playback does between them. -/
inductive Missed (c : Command) : List Scene → Prop
  | nil : Missed c []
  | aside {t : Scene} {T : List Scene} (aside : t.isAside = true) (missed : Missed c T) :
    Missed c (t :: T)
  | lost {T T' : List Scene} {cause : BulbError} (tried : Tried c T (.error cause))
    (missed : Missed c T') : Missed c (T ++ T')

/-- A command that the bulb has taken, with the wait after it. -/
structure Act where
  command : Command
  wait : Duration
  /-- The look for a stop before it. -/
  check : Scene
  misses : List Scene
  /-- The try that did not fail. -/
  taken : List Scene
  pause : Scene

namespace Act

/-- The turns of an act. -/
def turns (a : Act) : List Scene := a.check :: (a.misses ++ (a.taken ++ [a.pause]))

/-- The command of an act and the wait after it. -/
def pace (a : Act) : Command × Duration := (a.command, a.wait)

/-- The command was tried until one try did not fail, and then came the wait that this one told. -/
structure CarriedOut (a : Act) : Prop where
  check : a.check.check? = some false
  misses : Missed a.command a.misses
  taken : Tried a.command a.taken (.ok (.sleep a.wait))
  pause : a.pause.question = .pause .pacing a.wait

end Act

/-- After some acts the next command was begun, and it was not carried out. -/
inductive Dropped (cmds : List Command) (acts : List Act) : List Scene → Prop
  | none : Dropped cmds acts []
  | next {c : Command} {check : Scene} {T : List Scene}
    (next : acts.map Act.command ++ [c] <+: cmds) (looks : check.check?.isSome)
    (missed : Missed c T) : Dropped cmds acts (check :: T)

/-- A try is what playback does to a command at a time. -/
theorem tried_iff {c : Command} {T : List Scene} {result : Except BulbError Dispatch} :
    Tried c T result ↔ ∃ handle p w, p.handle = some handle ∧ (attempt handle c).turns answer p w = T ∧
      ((attempt handle c).ending answer p w).result = .ok result := by
  have executes (handle : Nat) (p : Player) (w : Performance) :
      Leads answer (attempt handle c) p w fun T' r _ _ =>
        T' = ((execute handle c).turns answer p.state w).map (Turn.mapAsker fun state => { p with state }) ∧
        r = .ok ((execute handle c).ending answer p.state w).result :=
    leads_within.mpr ⟨rfl, rfl⟩
  simp only [leads_iff] at executes
  constructor
  · rintro ⟨handle, p, w, opened, rfl, rfl⟩
    exact ⟨handle, p, w, opened, executes handle p w⟩
  · rintro ⟨handle, p, w, opened, rfl, hr⟩
    obtain ⟨turns, ending⟩ := executes handle p w
    exact ⟨handle, p, w, opened, turns, Except.ok.inj (hr.symm.trans ending)⟩

/-- A try begins with a look for a stop by the player whose command it is. -/
theorem turns_attempt (handle : Nat) (c : Command) (p : Player) (w : Performance) :
    ∃ steps, (attempt handle c).turns answer p w =
      ⟨p, .stopping, (answer .stopping w).1, w⟩ :: steps := ⟨_, rfl⟩

/-- A try begins with a look for a stop while a handle is open, and goes on with steps only. -/
theorem Tried.begins {c : Command} {T : List Scene} {result : Except BulbError Dispatch}
    (h : Tried c T result) :
    ∃ p w steps, T = ⟨p, .stopping, (answer .stopping w).1, w⟩ :: steps ∧ p.handle.isNone = false ∧
      ((answer .stopping w).1 = true → result = .ok .skip) ∧ ∀ t ∈ steps, t.isStep = true := by
  obtain ⟨handle, p, w, opened, rfl, hr⟩ := tried_iff.mp h
  obtain ⟨steps, turns⟩ := turns_attempt handle c p w
  have course := attempt_steps answer handle c p w
  rw [leads_iff, turns, hr] at course
  obtain ⟨_, _, _, split, same, -, stopped, stepping⟩ := course
  obtain ⟨-, rfl⟩ := List.cons.inj split
  obtain rfl := Except.ok.inj same
  exact ⟨p, w, steps, turns, by rw [opened]; rfl, fun stop => (stopped stop).2, stepping⟩

/-- Of two tries of a command that begin at the same turn, neither is longer, and the result is one. -/
theorem Tried.unique {c : Command} {T T' T₁ T₂ : List Scene} {result result' : Except BulbError Dispatch}
    (h : Tried c T result) (h' : Tried c T' result') (same : T ++ T₁ = T' ++ T₂) :
    T = T' ∧ result = result' := by
  obtain ⟨handle, p, w, opened, rfl, hr⟩ := tried_iff.mp h
  obtain ⟨handle', p', w', opened', rfl, hr'⟩ := tried_iff.mp h'
  obtain ⟨steps, turns⟩ := turns_attempt handle c p w
  obtain ⟨steps', turns'⟩ := turns_attempt handle' c p' w'
  rw [turns, turns', List.cons_append, List.cons_append, List.cons.injEq] at same
  obtain rfl : p = p' := congrArg Turn.asker same.1
  obtain rfl : w = w' := congrArg Turn.world same.1
  obtain rfl : handle = handle' := Option.some.inj (opened.symm.trans opened')
  exact ⟨rfl, Except.ok.inj (hr.symm.trans hr')⟩

section

variable {c : Command} {T T₁ T₂ : List Scene} {length : Duration}

/-- A try that the bulb has taken comes after all that it has missed. -/
theorem Missed.before_taken {U V : List Scene} (h : Missed c U) (taken : Tried c T (.ok (.sleep length)))
    (split : U ++ V = T₁ ++ (T ++ T₂)) : ∃ T', T₁ = U ++ T' ∧ V = T' ++ (T ++ T₂) := by
  obtain ⟨p, w, steps, begins, opened, stopped, -⟩ := taken.begins
  induction h generalizing T₁ with
  | nil => exact ⟨T₁, rfl, split⟩
  | aside aside _ ih =>
    cases T₁ with
    | nil =>
      -- with an open handle only a look that finds a stop is aside, and then nothing is tried
      rw [begins, List.nil_append, List.cons_append, List.cons_append, List.cons.injEq] at split
      rw [split.1] at aside
      obtain stop | closed := Bool.or_eq_true_iff.mp aside
      · exact absurd (stopped stop) nofun
      · exact absurd closed (by rw [opened]; exact Bool.false_ne_true)
    | cons t T₁ =>
      rw [List.cons_append, List.cons_append, List.cons.injEq] at split
      obtain ⟨T', rfl, rest⟩ := ih split.2
      exact ⟨T', by rw [split.1]; rfl, rest⟩
  | lost tried _ ih =>
    rw [List.append_assoc] at split
    obtain ⟨T', rfl, rest⟩ | ⟨T', lost, rest⟩ := List.append_eq_append_iff.mp split
    · obtain ⟨T'', rfl, later⟩ := ih rest
      exact ⟨T'', (List.append_assoc ..).symm, later⟩
    · cases T' with
      | nil =>
        obtain ⟨T'', none, later⟩ := ih (show _ = [] ++ (T ++ T₂) from rest.symm)
        exact ⟨T'', by rw [List.append_assoc, ← none, lost, List.append_nil, List.append_nil], later⟩
      | cons t T' =>
        cases T₁ with
        | nil => exact absurd (taken.unique tried (rest.trans (by rw [lost]; rfl))).2 nofun
        | cons t' T₁ =>
          -- a try does not begin amid the steps of another
          obtain ⟨_, _, _, begins', -, -, stepping⟩ := tried.begins
          rw [begins', List.cons_append, List.cons.injEq] at lost
          have step := stepping t (lost.2 ▸ List.mem_append_right T₁ List.mem_cons_self)
          rw [begins, List.cons_append, List.cons_append, List.cons.injEq] at rest
          rw [← rest.1] at step
          exact absurd step nofun

/-- An act carries its command out once: there is one try in it that the bulb has taken. -/
def Act.Once (a : Act) : Prop :=
  ∀ (T₁ T T₂ : List Scene) (length : Duration), Tried a.command T (.ok (.sleep length)) →
    a.misses ++ (a.taken ++ [a.pause]) = T₁ ++ (T ++ T₂) → T₁ = a.misses ∧ T = a.taken

theorem Act.CarriedOut.once {a : Act} (h : a.CarriedOut) : a.Once := by
  intro T₁ T T₂ length taken split
  obtain ⟨T', rfl, rest⟩ := h.misses.before_taken taken split
  cases T' with
  | nil => exact ⟨List.append_nil _, (taken.unique h.taken rest.symm).1⟩
  | cons t T' =>
    -- what follows the first turn of the try are its steps and the wait
    obtain ⟨p, w, _, begins, -⟩ := taken.begins
    obtain ⟨_, _, steps, begins', -, -, stepping⟩ := h.taken.begins
    rw [begins', List.cons_append, List.cons_append, List.cons.injEq] at rest
    have inside : (⟨p, .stopping, (answer .stopping w).1, w⟩ : Scene) ∈ steps ++ [a.pause] := by
      rw [rest.2, begins]
      exact List.mem_append_right T' List.mem_cons_self
    rcases List.mem_append.mp inside with step | paused
    · exact absurd (stepping _ step) nofun
    · have asks := h.pause
      rw [← List.mem_singleton.mp paused] at asks
      exact absurd asks nofun

end

/-! ### Rounds -/

/-- A pass, with the looks before it. -/
structure Round where
  /-- The look for a stop. -/
  check : Scene
  /-- The look for a script. -/
  look : Scene
  /-- The report that there was a script. -/
  switch : List Scene
  acts : List Act
  /-- What comes after the last act. -/
  rest : List Scene

namespace Round

/-- The turns of a round after its look for a script. -/
def during (r : Round) : List Scene := r.switch ++ (r.acts.flatMap Act.turns ++ r.rest)

/-- The turns of a round. -/
def turns (r : Round) : List Scene := r.check :: r.look :: r.during

/-- The commands that a round has carried out, each with the wait after it. -/
def paces (r : Round) : List (Command × Duration) := r.acts.map Act.pace

/-- A round finds no stop and one script, and carries out the commands of that script in their order,
each with the wait that the commands up to it give it. -/
structure Plays (r : Round) (played : Script) : Prop where
  check : r.check.check? = some false
  look : r.look.script? = some played
  switch : ∀ t ∈ r.switch, ∃ message, t.question = .report message
  acts : ∀ a ∈ r.acts, a.CarriedOut
  order : r.paces <+: schedule played.commands
  rest : Dropped played.commands r.acts r.rest ∨
    played.commands = [] ∧ ∃ t, r.rest = [t] ∧ t.question = .pause .idling idleTime

/-- A round breaks off for want of fuel, or because of a failure that no retry can help. -/
def Breaks (r : Round) : Halt → Prop
  | .unfinished => True
  | .failed cause => cause.isConnectivity = false ∧ r.rest.getLast?.bind Turn.failure? = some cause

/-- A round carries out all commands of its script, unless it finds a stop. -/
def Ends (r : Round) (played : Script) : Prop :=
  r.paces = schedule played.commands ∨ ∃ t ∈ r.rest, t.check? = some true

end Round

/-! ### Looks for a script -/

theorem Tried.not_looks {c : Command} {T : List Scene} {result : Except BulbError Dispatch}
    (h : Tried c T result) : ∀ t ∈ T, ¬t.Looks := by
  obtain ⟨p, w, steps, rfl, -, -, stepping⟩ := h.begins
  exact List.forall_mem_cons.mpr ⟨nofun, fun t ht => (Turn.question_of_isStep (stepping t ht)).2⟩

theorem Missed.not_looks {c : Command} {T : List Scene} (h : Missed c T) : ∀ t ∈ T, ¬t.Looks := by
  induction h with
  | nil => exact List.forall_mem_nil _
  | @aside t T aside _ ih =>
    refine List.forall_mem_cons.mpr ⟨fun looks => ?_, ih⟩
    obtain ⟨p, q, r, w⟩ := t
    obtain rfl : q = .nextScript := looks
    exact absurd aside nofun
  | lost tried _ ih => exact List.forall_mem_append.mpr ⟨tried.not_looks, ih⟩

theorem Act.CarriedOut.not_looks {a : Act} (h : a.CarriedOut) : ∀ t ∈ a.turns, ¬t.Looks := by
  refine List.forall_mem_cons.mpr ⟨Turn.not_looks_of_check h.check, ?_⟩
  refine List.forall_mem_append.mpr ⟨h.misses.not_looks, List.forall_mem_append.mpr
    ⟨h.taken.not_looks, List.forall_mem_singleton.mpr ?_⟩⟩
  exact Turn.not_looks_of_question h.pause nofun

theorem Dropped.not_looks {cmds : List Command} {acts : List Act} {T : List Scene}
    (h : Dropped cmds acts T) : ∀ t ∈ T, ¬t.Looks := by
  cases h with
  | none => exact List.forall_mem_nil _
  | next _ looks missed =>
    obtain ⟨_, found⟩ := Option.isSome_iff_exists.mp looks
    exact List.forall_mem_cons.mpr ⟨Turn.not_looks_of_check found, missed.not_looks⟩

/-- A round looks for a script once, before everything else that it does. -/
theorem Round.Plays.not_looks {r : Round} {played : Script} (h : r.Plays played) :
    ∀ t ∈ r.during, ¬t.Looks := by
  refine List.forall_mem_append.mpr ⟨fun t ht => ?_, List.forall_mem_append.mpr ⟨fun t ht => ?_, ?_⟩⟩
  · obtain ⟨message, asks⟩ := h.switch t ht
    exact Turn.not_looks_of_question asks nofun
  · obtain ⟨a, ha, ht⟩ := List.mem_flatMap.mp ht
    exact (h.acts a ha).not_looks t ht
  · obtain dropped | ⟨-, t, idle, asks⟩ := h.rest
    · exact dropped.not_looks
    · rw [idle]
      exact List.forall_mem_singleton.mpr (Turn.not_looks_of_question asks nofun)

/-! ### Passes that go on -/

/-- The player later in the same pass, which has carried out some more commands. -/
structure Later (commands : Nat) (p q : Player) : Prop where
  script : q.script = p.script
  passes : q.summary.passes = p.summary.passes
  commands : q.summary.commands = p.summary.commands + commands

theorem Later.refl (p : Player) : Later 0 p p := ⟨rfl, rfl, rfl⟩

theorem Later.trans {n k : Nat} {p q r : Player} (h : Later n p q) (h' : Later k q r) :
    Later (n + k) p r :=
  ⟨h'.script.trans h.script, h'.passes.trans h.passes,
    by rw [h'.commands, h.commands, Nat.add_assoc]⟩

/-- What holds when a command was begun and is not carried out: a stop was found, or playback halts. -/
def Cut (fuel : Nat) (T : List Scene) : Except Halt Unit → Performance → Prop
  | .ok _ => fun w => (∃ t ∈ T, t.check? = some true) ∧ w.Stopped
  | .error .unfinished => fun _ => fuel ≤ T.length
  | .error (.failed cause) => fun _ =>
    cause.isConnectivity = false ∧ T.getLast?.bind Turn.failure? = some cause

theorem Cut.after {fuel fuel' : Nat} {T T' : List Scene} {r : Except Halt Unit} {w : Performance}
    (h : Cut fuel T' r w) (enough : fuel' ≤ T.length + fuel) : Cut fuel' (T ++ T') r w := by
  rcases r with (cause | _) | _
  · obtain ⟨final, last⟩ := h
    obtain ⟨t, ht, failed⟩ := Option.bind_eq_some_iff.mp last
    refine ⟨final, ?_⟩
    rw [List.getLast?_append, ht]
    exact failed
  · have h : fuel ≤ T'.length := h
    show fuel' ≤ (T ++ T').length
    rw [List.length_append]
    omega
  · obtain ⟨⟨t, ht, found⟩, stopped⟩ := h
    exact ⟨⟨t, List.mem_append_right T ht, found⟩, stopped⟩

/-- A failure was met. -/
def Met (cause : BulbError) (T : List Scene) : Prop := ∃ t ∈ T, t.failure? = some cause

theorem Met.append_left {cause : BulbError} {T : List Scene} (h : Met cause T) (T' : List Scene) :
    Met cause (T ++ T') :=
  h.imp fun _ ht => ⟨List.mem_append_left T' ht.1, ht.2⟩

theorem Met.append_right {cause : BulbError} {T' : List Scene} (h : Met cause T') (T : List Scene) :
    Met cause (T ++ T') :=
  h.imp fun _ ht => ⟨List.mem_append_right T ht.1, ht.2⟩

/-! ### Getting a command through -/

section

variable {past : List Command} {c : Command} {fuel : Nat} {p : Player} {w : Performance}

theorem Missed.append {T T' : List Scene} (h : Missed c T) (h' : Missed c T') :
    Missed c (T ++ T') := by
  induction h with
  | nil => exact h'
  | aside aside _ ih => exact .aside aside ih
  | lost tried _ ih => exact List.append_assoc .. ▸ .lost tried ih

theorem missed_asides {T : List Scene} (asides : ∀ t ∈ T, t.isAside = true) : Missed c T := by
  induction T with
  | nil => exact .nil
  | cons t T ih =>
    obtain ⟨here, later⟩ := List.forall_mem_cons.mp asides
    exact .aside here (ih later)

/-- What holds after a command was tried, if need be again and again. -/
def Dispatched (past : List Command) (c : Command) (fuel : Nat) (T : List Scene) :
    Except Halt Dispatch → Player → Performance → Prop
  | .ok (.sleep length) => fun p _ =>
    length = waitAfter past c ∧ p.state.timeAdjust = timeAfter (past ++ [c]) ∧
      ∃ misses taken, T = misses ++ taken ∧ Missed c misses ∧ Tried c taken (.ok (.sleep length))
  | .ok .skip => fun _ w => Missed c T ∧ Cut fuel T (.ok ()) w
  | .error halt => fun _ w => Missed c T ∧ Cut fuel T (.error halt) w

theorem Dispatched.after {fuel' : Nat} {T T' : List Scene} {r : Except Halt Dispatch}
    (h : Dispatched past c fuel T' r p w) (missed : Missed c T) (enough : fuel' ≤ T.length + fuel) :
    Dispatched past c fuel' (T ++ T') r p w := by
  rcases r with halt | length | _
  · exact ⟨missed.append h.1, h.2.after enough⟩
  · obtain ⟨hlength, time, misses, taken, rfl, missed', tried⟩ := h
    exact ⟨hlength, time, T ++ misses, taken, (List.append_assoc ..).symm, missed.append missed', tried⟩
  · exact ⟨missed.append h.1, h.2.after enough⟩

/-- A look for a handle finds one, or a stop, or a failure. -/
theorem leads_openHandle (p : Player) (w : Performance) :
    Leads answer openHandle p w fun T r p' w' =>
      (∀ t ∈ T, t.isAside = true) ∧ Later 0 p p' ∧ p'.state = p.state ∧ ∃ opened, r = .ok opened ∧
        (opened = none → (∃ t ∈ T, t.check? = some true) ∧ w'.Stopped) ∧
        (∀ handle, opened = some (.ok handle) → p'.handle = some handle) ∧
        ∀ cause, opened = some (.error cause) → T.getLast?.bind Turn.failure? = some cause := by
  rw [openHandle, leads_bind, leads_get]
  dsimp only
  cases closed : p.handle with
  | some handle =>
    refine ⟨List.forall_mem_nil _, .refl p, rfl, _, rfl, nofun, fun _ same => ?_, nofun⟩
    exact closed.trans (congrArg some (Except.ok.inj (Option.some.inj same)))
  | none =>
    have aside (stop : Bool) (w : Performance) :
        Turn.isAside (⟨p, .stopping, stop, w⟩ : Scene) = true := by
      show (stop || p.handle.isNone) = true
      rw [closed]
      exact Bool.or_true stop
    show Leads answer (ask .stopping >>= _) _ _ _
    rw [leads_ask_bind]
    cases stop : (answer .stopping w).1 with
    | true =>
      refine ⟨List.forall_mem_singleton.mpr (aside true w), .refl p, rfl, _, rfl, fun _ => ?_,
        nofun, nofun⟩
      exact ⟨⟨_, List.mem_singleton_self _, rfl⟩, stopped_of_answer (q := .stopping) stop⟩
    | false =>
      show Leads answer (reconnect >>= _) _ _ _
      rw [reconnect, bind_assoc, leads_ask_bind]
      generalize answer .connect (answer .stopping w).2 = a
      obtain ⟨cause | handle, w₁⟩ := a
      · refine ⟨?_, .refl p, rfl, _, rfl, nofun, nofun, fun _ same => ?_⟩
        · exact List.forall_mem_cons.mpr ⟨aside false w, List.forall_mem_singleton.mpr rfl⟩
        · rw [← Except.error.inj (Option.some.inj same)]
          rfl
      · refine ⟨?_, ⟨rfl, rfl, rfl⟩, rfl, _, rfl, nofun, fun _ same => ?_, nofun⟩
        · refine List.forall_mem_cons.mpr ⟨aside false w, List.forall_mem_cons.mpr ⟨rfl, ?_⟩⟩
          exact List.forall_mem_singleton.mpr rfl
        · rw [← Except.ok.inj (Option.some.inj same)]
          rfl

/-- A try of a command through the open handle. -/
theorem leads_tried {handle : Nat} (opened : p.handle = some handle)
    (time : p.state.timeAdjust = timeAfter past) :
    Leads answer (attempt handle c) p w fun T r p' w' =>
      ∃ result state, r = .ok result ∧ p' = { p with state } ∧
        Attempted past c T result state w' ∧ Tried c T result := by
  obtain ⟨result, state, returned, same, attempted⟩ := leads_attempt (c := c) (w := w) handle time
  exact ⟨result, state, returned, same, attempted, tried_iff.mpr ⟨handle, p, w, opened, rfl, returned⟩⟩

/-- Playback goes on only after a failure that is worth retrying. -/
theorem leads_haltIfFinal {α : Type} {cause : BulbError} {next : Playing α}
    {post : List Scene → Except Halt α → Player → Performance → Prop}
    (goes : cause.isConnectivity = true → Leads answer next p w post)
    (final : cause.isConnectivity = false → post [] (.error (.failed cause)) p w) :
    Leads answer (haltIfFinal cause >>= fun _ => next) p w post := by
  rw [leads_bind, haltIfFinal]
  cases conn : cause.isConnectivity with
  | true => exact goes conn
  | false => exact final conn

/-- A command is tried again after a report and a wait. -/
theorem leads_retry (cause : BulbError) (time : p.state.timeAdjust = timeAfter past)
    (again : ∀ p' w', p'.state.timeAdjust = timeAfter past → Leads answer (dispatch c fuel) p' w'
      fun T r p'' w'' => Later 0 p' p'' ∧ Dispatched past c fuel T r p'' w'') :
    Leads answer (waitBeforeRetry cause >>= fun _ => dispatch c fuel) p w fun T r p' w' =>
      Later 0 p p' ∧ Dispatched past c (fuel + 1) T r p' w' := by
  have waits : Leads answer (waitBeforeRetry cause) p w fun T r p' _ =>
      r = .ok () ∧ (∀ t ∈ T, t.isAside = true) ∧ T.length = 2 ∧ Later 0 p p' ∧ p'.state = p.state :=
    ⟨rfl, List.forall_mem_cons.mpr ⟨rfl, List.forall_mem_singleton.mpr rfl⟩, rfl, ⟨rfl, rfl, rfl⟩, rfl⟩
  refine leads_bind.mpr (waits.mono fun T r p₁ w₁ h => ?_)
  obtain ⟨rfl, asides, two, later, same⟩ := h
  refine (again p₁ w₁ (same ▸ time)).mono fun T' r p' w' h => ?_
  exact ⟨later.trans h.1, h.2.after (missed_asides asides) (by omega)⟩

/-- A command is tried until a try does not fail or a stop is found, unless playback halts; and it does
not run out of fuel without as many turns. -/
theorem leads_dispatch (fuel : Nat) (time : p.state.timeAdjust = timeAfter past) :
    Leads answer (dispatch c fuel) p w fun T r p' w' =>
      Later 0 p p' ∧ Dispatched past c fuel T r p' w' := by
  induction fuel generalizing p w with
  | zero => exact ⟨.refl p, .nil, Nat.zero_le _⟩
  | succ fuel ih =>
    have again (cause : BulbError) (p' : Player) (time' : p'.state.timeAdjust = timeAfter past)
        (w' : Performance) := leads_retry (w := w') cause time' fun _ _ time'' => ih time''
    rw [dispatch]
    refine leads_bind.mpr ((leads_openHandle p w).mono fun T r p₁ w₁ h => ?_)
    obtain ⟨asides, later, same, opened, rfl, stopped, linked, unopened⟩ := h
    have missed : Missed c T := missed_asides asides
    rw [← same] at time
    -- no handle because of a stop, or because of a failure, or a handle to try the command through
    rcases opened with _ | cause | handle
    · exact ⟨later, (List.append_nil T).symm ▸ missed, (List.append_nil T).symm ▸ stopped rfl⟩
    · refine leads_haltIfFinal (fun _ => ?_) fun final => ?_
      · exact (again cause p₁ time w₁).mono fun T' r p' w' h =>
          ⟨later.trans h.1, h.2.after missed (by omega)⟩
      · rw [List.append_nil]
        exact ⟨later, missed, final, unopened cause rfl⟩
    · refine leads_bind.mpr ((leads_tried (linked handle rfl) time).mono fun T' r p₂ w₂ h => ?_)
      obtain ⟨result, state, rfl, rfl, attempted, tried⟩ := h
      have later' : Later 0 p { p₁ with state, handle := none } :=
        ⟨later.script, later.passes, later.commands⟩
      rcases result with cause | length | _
      · obtain ⟨same', failed⟩ := attempted
        have lost : Missed c (T ++ T') := missed.append (List.append_nil T' ▸ .lost tried .nil)
        refine leads_haltIfFinal (fun _ => ?_) fun final => ?_
        · rw [leads_bind, leads_modify]
          refine (again cause { p₁ with state, handle := none } same' w₂).mono fun T'' r p' w' h => ?_
          rw [List.nil_append, ← List.append_assoc]
          exact ⟨later'.trans h.1, h.2.after lost (by omega)⟩
        · have cut : Cut (fuel + 1) (T ++ T') (.error (.failed cause)) w₂ :=
            Cut.after (r := .error (.failed cause)) ⟨final, failed⟩ (Nat.le_add_left ..)
          rw [List.append_nil]
          exact ⟨⟨later.script, later.passes, later.commands⟩, lost, cut⟩
      · obtain ⟨rfl, time'⟩ := attempted
        have turns : T ++ (T' ++ []) = T ++ T' := by rw [List.append_nil]
        exact ⟨⟨later.script, later.passes, later.commands⟩, rfl, time', T, T', turns, missed, tried⟩
      · obtain ⟨⟨check, rfl, found⟩, stopped⟩ := attempted
        refine ⟨⟨later.script, later.passes, later.commands⟩,
          missed.append (.aside (Turn.isAside_of_stop found) .nil), ?_⟩
        exact ⟨⟨check, List.mem_append_right T (List.mem_singleton_self _), found⟩, stopped⟩

/-- A command makes an act, or it is begun and not carried out. -/
theorem leads_carryOut (check : Scene) (going : check.check? = some false) (fuel : Nat)
    (time : p.state.timeAdjust = timeAfter past) :
    Leads answer (carryOut fuel c) p w fun T r p' w' =>
      (∃ a : Act, a.turns = check :: T ∧ a.pace = (c, waitAfter past c) ∧ a.CarriedOut ∧
        r = .ok () ∧ Later 1 p p' ∧ p'.state.timeAdjust = timeAfter (past ++ [c])) ∨
      Missed c T ∧ Cut fuel T r w' ∧ Later 0 p p' := by
  rw [carryOut, leads_bind, leads_modify]
  have dispatched := leads_dispatch (c := c) (p := { p with current := some c }) (w := w) fuel time
  refine leads_bind.mpr (dispatched.mono fun T r p₁ w₁ h => ?_)
  obtain ⟨later, h⟩ := h
  rcases r with halt | length | _
  · exact .inr ⟨h.1, h.2, later.script, later.passes, later.commands⟩
  · obtain ⟨rfl, time', misses, taken, rfl, missed, tried⟩ := h
    let pause : Scene := ⟨{ p₁ with
      summary := { p₁.summary with commands := p₁.summary.commands + 1 } },
      .pause .pacing (waitAfter past c), (), w₁⟩
    refine .inl ⟨⟨c, waitAfter past c, check, misses, taken, pause⟩, ?_, rfl,
      ⟨going, missed, tried, rfl⟩, rfl, ⟨later.script, later.passes, congrArg (· + 1) later.commands⟩,
      time'⟩
    show check :: (misses ++ (taken ++ [pause])) = check :: (misses ++ taken ++ [pause])
    rw [List.append_assoc]
  · have turns : [] ++ (T ++ ([] ++ [])) = T := List.append_nil T
    exact .inr ⟨turns.symm ▸ h.1, turns.symm ▸ h.2, later.script, later.passes, later.commands⟩

/-! ### Playing commands -/

/-- After a stop no command is begun. -/
theorem leads_playCommands_stopped (stopped : w.Stopped) (fuel : Nat) (cmds : List Command) :
    Leads answer (playCommands fuel cmds) p w fun T r p' w' =>
      (∀ t ∈ T, t.check? = some true) ∧ r = .ok () ∧ p' = p ∧ w'.Stopped := by
  cases cmds with
  | nil => exact ⟨List.forall_mem_nil _, rfl, rfl, stopped⟩
  | cons c rest =>
    obtain ⟨found, still⟩ := stopped.answer
    rw [playCommands, leads_ask_bind, found]
    exact ⟨List.forall_mem_singleton.mpr rfl, rfl, rfl, still⟩

/-- Some of the commands that are left of a pass are carried out, each with the wait that it has in the
schedule, and all of them unless the pass is cut short. -/
structure Played (fuel : Nat) (past cmds : List Command) (acts : List Act) (rest : List Scene)
    (r : Except Halt Unit) (w : Performance) : Prop where
  carriedOut : ∀ a ∈ acts, a.CarriedOut
  order : schedule past ++ acts.map Act.pace <+: schedule (past ++ cmds)
  dropped : Dropped cmds acts rest
  ends : r = .ok () ∧ schedule past ++ acts.map Act.pace = schedule (past ++ cmds) ∨
    Cut fuel rest r w

/-- Nothing was carried out of the commands that are left. -/
theorem Played.of_dropped {cmds : List Command} {rest : List Scene} {r : Except Halt Unit}
    (h : Dropped cmds [] rest) (cut : Cut fuel rest r w) : Played fuel past cmds [] rest r w where
  carriedOut := List.forall_mem_nil _
  order := by
    rw [List.map_nil, List.append_nil]
    exact schedule_prefix (List.prefix_append past cmds)
  dropped := h
  ends := .inr cut

/-- The next command was carried out. -/
theorem Played.cons {cmds : List Command} {acts : List Act} {rest : List Scene}
    {r : Except Halt Unit} {a : Act} (carriedOut : a.CarriedOut) (pace : a.pace = (c, waitAfter past c))
    (h : Played fuel (past ++ [c]) cmds acts rest r w) :
    Played fuel past (c :: cmds) (a :: acts) rest r w := by
  have sofar : schedule past ++ (a :: acts).map Act.pace =
      schedule (past ++ [c]) ++ acts.map Act.pace := by
    rw [schedule_concat, List.map_cons, pace, List.append_cons]
  have whole : schedule (past ++ c :: cmds) = schedule ((past ++ [c]) ++ cmds) := by
    rw [List.append_cons]
  refine ⟨List.forall_mem_cons.mpr ⟨carriedOut, h.carriedOut⟩, ?_, ?_, ?_⟩
  · rw [sofar, whole]
    exact h.order
  · cases h.dropped with
    | none => exact .none
    | next next looks missed =>
      refine .next (List.cons_prefix_cons.mpr ⟨?_, next⟩) looks missed
      exact congrArg Prod.fst pace
  · rw [sofar, whole]
    exact h.ends

/-- The commands that are left of a pass are carried out in their order. -/
theorem leads_playCommands (fuel : Nat) (past cmds : List Command)
    (time : p.state.timeAdjust = timeAfter past) :
    Leads answer (playCommands fuel cmds) p w fun T r p' w' =>
      ∃ acts rest, T = acts.flatMap Act.turns ++ rest ∧ Later acts.length p p' ∧
        Played fuel past cmds acts rest r w' := by
  induction cmds generalizing past p w with
  | nil =>
    have same : schedule past ++ [] = schedule (past ++ []) := by
      rw [List.append_nil, List.append_nil]
    exact ⟨[], [], rfl, .refl p, List.forall_mem_nil _, same ▸ List.prefix_rfl, .none, .inl ⟨rfl, same⟩⟩
  | cons c cmds ih =>
    have next : ([] : List Act).map Act.command ++ [c] <+: c :: cmds := List.prefix_append [c] cmds
    rw [playCommands, leads_ask_bind]
    cases stop : (answer .stopping w).1 with
    | true =>
      have stopped := stopped_of_answer (q := .stopping) stop
      exact ⟨[], _, rfl, .refl p, .of_dropped (.next next rfl .nil)
        ⟨⟨_, List.mem_singleton_self _, rfl⟩, stopped⟩⟩
    | false =>
      let check : Scene := ⟨p, .stopping, false, w⟩
      have carried := leads_carryOut (c := c) (w := (answer .stopping w).2) check rfl fuel time
      refine leads_bind.mpr (carried.mono fun T r p₁ w₁ h => ?_)
      obtain ⟨a, turns, pace, carriedOut, rfl, later, time'⟩ | ⟨missed, cut, later⟩ := h
      · -- the rest is played after one command more
        refine (ih (past ++ [c]) time').mono fun T' r p' w' h => ?_
        obtain ⟨acts, rest, rfl, later', played⟩ := h
        refine ⟨a :: acts, rest, ?_, ?_, played.cons carriedOut pace⟩
        · rw [List.flatMap_cons, turns, List.append_assoc]
          rfl
        · rw [List.length_cons, Nat.add_comm]
          exact later.trans later'
      · have dropped {T' : List Scene} (stops : ∀ t ∈ T', t.check? = some true) :
            Dropped (c :: cmds) [] (check :: (T ++ T')) :=
          .next next rfl (missed.append (missed_asides fun t ht => Turn.isAside_of_stop (stops t ht)))
        rcases r with halt | _
        · have whole : check :: (T ++ []) = check :: T := congrArg _ (List.append_nil T)
          have cut : Cut fuel (check :: T) (.error halt) w₁ := cut.after (T := [check]) (Nat.le_add_left ..)
          exact ⟨[], check :: T, rfl, later, .of_dropped (whole ▸ dropped (List.forall_mem_nil _)) cut⟩
        · -- a stop was found on the way, so the commands that are left are not begun either
          obtain ⟨⟨t, ht, found⟩, stopped⟩ := cut
          refine (leads_playCommands_stopped stopped fuel cmds).mono fun T' r p' w' h => ?_
          obtain ⟨stops, rfl, rfl, stopped'⟩ := h
          have ht' : t ∈ check :: (T ++ T') := List.mem_cons_of_mem check (List.mem_append_left T' ht)
          exact ⟨[], _, rfl, later, .of_dropped (dropped stops) ⟨⟨t, ht', found⟩, stopped'⟩⟩

/-! ### Playing passes -/

theorem leads_pickUpScript :
    Leads answer pickUpScript p w fun T r p' _ =>
      ∃ look switch, T = look :: switch ∧ r = .ok () ∧ look.asker = p ∧
        look.script? = some p'.script ∧ p'.summary = p.summary ∧
        ∀ t ∈ switch, ∃ message, t.question = .report message := by
  rw [pickUpScript, leads_ask_bind]
  generalize answer .nextScript w = a
  obtain ⟨_ | script, w₁⟩ := a
  · exact ⟨_, [], rfl, rfl, rfl, rfl, rfl, List.forall_mem_nil _⟩
  · exact ⟨_, [_], rfl, rfl, rfl, rfl, rfl, List.forall_mem_singleton.mpr ⟨_, rfl⟩⟩

/-- After its looks a pass carries out the commands of its script, or idles if there are none. -/
theorem leads_commands (fuel : Nat) (time : p.state.timeAdjust = 0) :
    Leads answer (if p.script.commands.isEmpty then ask (.pause .idling idleTime)
      else playCommands fuel p.script.commands) p w fun T r p' w' =>
        ∃ acts rest, T = acts.flatMap Act.turns ++ rest ∧ Later acts.length p p' ∧
          (∀ check look switch, check.check? = some false → look.script? = some p.script →
            (∀ t ∈ switch, ∃ message, t.question = .report message) →
            Round.Plays ⟨check, look, switch, acts, rest⟩ p.script) ∧
          (r = .ok () ∧ acts.map Act.pace = schedule p.script.commands ∨ Cut fuel rest r w') := by
  split
  · rename_i empty
    have empty : p.script.commands = [] := List.isEmpty_iff.mp empty
    refine ⟨[], [_], rfl, .refl p, fun check look switch going looks reports => ?_, .inl ⟨rfl, ?_⟩⟩
    · exact ⟨going, looks, reports, List.forall_mem_nil _, List.nil_prefix,
        .inr ⟨empty, _, rfl, rfl⟩⟩
    · rw [empty]
      rfl
  · refine (leads_playCommands fuel [] p.script.commands time).mono fun T r p' w' h => ?_
    obtain ⟨acts, rest, turns, later, played⟩ := h
    refine ⟨acts, rest, turns, later, fun check look switch going looks reports => ?_, played.ends⟩
    exact ⟨going, looks, reports, played.carriedOut, played.order, .inl played.dropped⟩

/-- A pass makes a round over the script that the look for one gives. -/
theorem leads_pass (check : Scene) (going : check.check? = some false) (fuel : Nat) :
    Leads answer (pass fuel) p w fun T r p' w' =>
      ∃ round : Round, round.turns = check :: T ∧ round.look.asker = p ∧ round.Plays p'.script ∧
        p'.summary.passes = p.summary.passes + 1 ∧
        p'.summary.commands = p.summary.commands + round.acts.length ∧
        (r = .ok () ∧ round.paces = schedule p'.script.commands ∨ Cut fuel round.rest r w') := by
  rw [pass]
  refine leads_bind.mpr (leads_pickUpScript.mono fun T r p₁ w₁ h => ?_)
  obtain ⟨look, switch, rfl, rfl, looking, taken, summary, reports⟩ := h
  refine leads_bind.mpr (leads_modify.mpr (leads_bind.mpr (leads_modify.mpr (leads_bind.mpr
    (leads_get.mpr ((leads_commands fuel rfl).mono fun T r p' w' h => ?_))))))
  obtain ⟨acts, rest, rfl, later, plays, ends⟩ := h
  have script : p'.script = p₁.script := later.script
  refine ⟨⟨check, look, switch, acts, rest⟩, rfl, looking, ?_, ?_, ?_, ?_⟩
  · rw [script]
    exact plays check look switch going taken reports
  · rw [later.passes, ← summary]
  · rw [later.commands, ← summary]
  · rw [script]
    exact ends

/-- Rounds that follow each other: each one begins with the script of the one before it, and only the
last one may break off, which is how the passes have ended. -/
inductive Series {α : Type} (ended : Except Halt α) : Script → List Round → Prop
  | nil {script : Script} : Series ended script []
  | cons {script played : Script} {r : Round} {rounds : List Round}
    (begins : r.look.asker.script = script) (plays : r.Plays played)
    (ends : r.Ends played ∨ rounds = [] ∧ ∃ halt, ended = .error halt ∧ r.Breaks halt)
    (rest : Series ended played rounds) : Series ended script (r :: rounds)

/-- What holds of the turns of passes, of how they ended, and of the players before and after them. -/
structure Passes (fuel : Nat) (p : Player) (rounds : List Round) (stop : Option Scene)
    (T : List Scene) (ended : Except Halt Unit) (p' : Player) : Prop where
  turns : T = rounds.flatMap Round.turns ++ stop.toList
  series : Series ended p.script rounds
  found : ∀ t ∈ stop, t.check? = some true
  stopped : ended = .ok () → stop.isSome
  unfinished : ended = .error .unfinished → fuel ≤ T.length
  failed : ∀ cause, ended = .error (.failed cause) → Met cause T
  passes : p'.summary.passes = p.summary.passes + rounds.length
  commands : p'.summary.commands = p.summary.commands + (rounds.flatMap Round.acts).length

section

variable {played : Script} {p₁ : Player} {round : Round}

/-- A round that breaks off is the last one. -/
theorem Passes.last {halt : Halt} (begins : round.look.asker.script = p.script)
    (plays : round.Plays played) (cut : Cut fuel round.rest (.error halt) w)
    (passes : p₁.summary.passes = p.summary.passes + 1)
    (commands : p₁.summary.commands = p.summary.commands + round.acts.length) :
    Passes (fuel + 1) p [round] none round.turns (.error halt) p₁ := by
  have inside {t : Scene} (ht : t ∈ round.rest) : t ∈ round.turns :=
    List.mem_cons_of_mem _ (List.mem_cons_of_mem _ (List.mem_append_right _
      (List.mem_append_right _ ht)))
  have long : round.rest.length + 2 ≤ round.turns.length := by
    simp only [Round.turns, Round.during, List.length_cons, List.length_append]
    omega
  refine ⟨?_, .cons begins plays (.inr ⟨rfl, halt, rfl, ?_⟩) .nil,
    fun t ht => absurd ht (Option.not_mem_none t), nofun, fun unfinished => ?_,
    fun cause failed => ?_, passes, ?_⟩
  · rw [List.flatMap_singleton]
    exact (List.append_nil _).symm
  · cases halt with
    | unfinished => exact trivial
    | failed cause => exact cut
  · cases unfinished
    have enough : fuel ≤ round.rest.length := cut
    omega
  · cases failed
    obtain ⟨t, last, lost⟩ := Option.bind_eq_some_iff.mp cut.2
    exact ⟨t, inside (List.mem_of_getLast? last), lost⟩
  · rw [List.flatMap_singleton]
    exact commands

/-- A round that does not break off is followed by others. -/
theorem Passes.cons {p' : Player} {rounds : List Round} {stop : Option Scene} {T : List Scene}
    {ended : Except Halt Unit} (begins : round.look.asker.script = p.script)
    (plays : round.Plays p₁.script) (ends : round.Ends p₁.script)
    (passes : p₁.summary.passes = p.summary.passes + 1)
    (commands : p₁.summary.commands = p.summary.commands + round.acts.length)
    (h : Passes fuel p₁ rounds stop T ended p') :
    Passes (fuel + 1) p (round :: rounds) stop (round.turns ++ T) ended p' := by
  have long : 2 ≤ round.turns.length := Nat.le_add_left 2 round.during.length
  refine ⟨?_, .cons begins plays (.inl ends) h.series, h.found, h.stopped, fun unfinished => ?_,
    fun cause failed => ?_, ?_, ?_⟩
  · rw [h.turns, List.flatMap_cons, List.append_assoc]
  · rw [List.length_append]
    have := h.unfinished unfinished
    omega
  · exact (h.failed cause failed).append_right _
  · rw [h.passes, passes, List.length_cons, Nat.add_assoc, Nat.add_comm 1]
  · rw [h.commands, commands, List.flatMap_cons, List.length_append, Nat.add_assoc]

end

/-- Passes make rounds until a stop is found, unless a round breaks off. -/
theorem leads_play (fuel : Nat) :
    Leads answer (play fuel) p w fun T r p' _ => ∃ rounds stop, Passes fuel p rounds stop T r p' := by
  induction fuel generalizing p w with
  | zero =>
    rw [play, leads_throw]
    exact ⟨[], none, rfl, .nil, fun t ht => absurd ht (Option.not_mem_none t), nofun,
      fun _ => Nat.zero_le _, nofun, rfl, rfl⟩
  | succ fuel ih =>
    rw [play, leads_ask_bind]
    cases stop : (answer .stopping w).1 with
    | true =>
      exact ⟨[], some _, rfl, .nil, fun t ht => Option.mem_some_iff.mp ht ▸ rfl, fun _ => rfl,
        nofun, nofun, rfl, rfl⟩
    | false =>
      let check : Scene := ⟨p, .stopping, false, w⟩
      refine leads_bind.mpr ((leads_pass check rfl fuel).mono fun T r p₁ w₁ h => ?_)
      obtain ⟨round, turns, looking, plays, passes, commands, ends⟩ := h
      have begins : round.look.asker.script = p.script := congrArg Player.script looking
      rcases r with halt | _
      · have cut : Cut fuel round.rest (.error halt) w₁ := ends.resolve_left fun h => nomatch h.1
        rw [← turns]
        exact ⟨[round], none, .last begins plays cut passes commands⟩
      · refine (ih (p := p₁)).mono fun T' r p' _ h => ?_
        obtain ⟨rounds, stop, h⟩ := h
        have whole : check :: (T ++ T') = round.turns ++ T' := by rw [turns]; rfl
        rw [whole]
        exact ⟨round :: rounds, stop, .cons begins plays (ends.imp And.right And.left) passes commands h⟩

end

/-! ### Rounds that follow each other -/

/-- How passes have ended says the same of their rounds if it is handed on. -/
theorem Series.mono {α β : Type} {ended : Except Halt α} {ended' : Except Halt β} {script : Script}
    {rounds : List Round} (h : Series ended script rounds)
    (imp : ∀ halt, ended = .error halt → ended' = .error halt) : Series ended' script rounds := by
  induction h with
  | nil => exact .nil
  | cons begins plays ends _ ih =>
    refine .cons begins plays (ends.imp_right fun ⟨last, halt, halted, breaks⟩ => ?_) ih
    exact ⟨last, halt, imp halt halted, breaks⟩

/-- Of the rounds that follow each other, each one begins with the script of those before it. -/
theorem Series.at {α : Type} {ended : Except Halt α} {script : Script} {before after : List Round}
    {r : Round} (h : Series ended script (before ++ r :: after)) :
    r.look.asker.script = before.foldl (fun s r => r.look.script?.getD s) script ∧
      ∃ played, r.Plays played ∧
        (r.Ends played ∨ after = [] ∧ ∃ halt, ended = .error halt ∧ r.Breaks halt) := by
  induction before generalizing script with
  | nil =>
    cases h with
    | cons begins plays ends _ => exact ⟨begins, _, plays, ends⟩
  | cons r₀ before ih =>
    cases h with
    | cons _ plays _ rest =>
      rw [List.foldl_cons, plays.look]
      exact ih rest

end Player

end Lightshow
