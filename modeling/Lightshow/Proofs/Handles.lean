/-
The handles of a playback.

Playback has at most one handle in use: it opens one only while it holds none, and sends every call
through the one that it opened last.  A handle through which the bulb could not be reached is out of
use for good, and what comes after goes through one that was opened since.  The reconnects that a
playback counts are the connects that worked, but for the first.

* `Custody` -- the handles that were opened, and the one that is in use;
* `opened_since_loss` -- a handle in use was opened after every loss;
* `takes_run_disciplined` -- playback holds the handle that is in use, and counts the opened ones;
* `calls_use_last_handle` -- which handle the calls of a playback go through.
-/
import Lightshow.Proofs.Course

namespace Lightshow

open Talk

/-! ### Handles in use -/

namespace Turn

variable {S W : Type}

/-- The handle that was opened at a turn, if one was. -/
def opened? : Turn S Question Question.Answer W → Option Nat
  | ⟨_, .connect, .ok handle, _⟩ => some handle
  | _ => none

/-- Whether a call could not reach the bulb. -/
def loses : Turn S Question Question.Answer W → Bool
  | ⟨_, .call .., .error cause, _⟩ => cause.isConnectivity
  | _ => false

end Turn

/-- The handles that were opened, in order. -/
def openings {S W : Type} (T : List (Turn S Question Question.Answer W)) : List Nat :=
  T.filterMap Turn.opened?

theorem mem_openings_cons {S W : Type} {T : List (Turn S Question Question.Answer W)} {handle : Nat}
    (t : Turn S Question Question.Answer W) (h : handle ∈ openings T) :
    handle ∈ openings (t :: T) := by
  obtain ⟨u, hu, opens⟩ := List.mem_filterMap.mp h
  exact List.mem_filterMap.mpr ⟨u, List.mem_cons_of_mem t hu, opens⟩

/-- What has become of the handles of a bulb. -/
structure Custody where
  /-- The handle in use: the last one, until the bulb cannot be reached through it. -/
  inUse : Option Nat
  opened : List Nat

namespace Custody

/-- Nothing has been opened. -/
def empty : Custody := ⟨none, []⟩

variable {S W : Type}

/-- A turn opens a handle, or loses the one in use, or does neither. -/
def after (m : Custody) (t : Turn S Question Question.Answer W) : Custody :=
  match t.opened? with
  | some handle => ⟨some handle, m.opened ++ [handle]⟩
  | none => if t.loses then { m with inUse := none } else m

theorem opened_after (m : Custody) (t : Turn S Question Question.Answer W) :
    (m.after t).opened = m.opened ++ t.opened?.toList := by
  rw [after]
  cases t.opened? with
  | some handle => rfl
  | none => cases t.loses <;> simp

/-- A handle is in use after a turn that opened it, and otherwise only if it was before. -/
theorem inUse_of_after {m : Custody} {t : Turn S Question Question.Answer W} {handle : Nat}
    (h : (m.after t).inUse = some handle) : t.opened? = some handle ∨
      t.opened? = none ∧ t.loses = false ∧ m.inUse = some handle := by
  rw [after] at h
  cases opened : t.opened? with
  | some handle' =>
    rw [opened] at h
    exact .inl h
  | none =>
    rw [opened] at h
    cases lost : t.loses with
    | true =>
      rw [lost] at h
      exact absurd h nofun
    | false =>
      rw [lost] at h
      exact .inr ⟨rfl, rfl, h⟩

/-- The custody after some turns. -/
def of (T : List (Turn S Question Question.Answer W)) : Custody := T.foldl after empty

theorem opened_foldl (m : Custody) (T : List (Turn S Question Question.Answer W)) :
    (T.foldl after m).opened = m.opened ++ openings T := by
  induction T generalizing m with
  | nil => exact (List.append_nil _).symm
  | cons t T ih =>
    rw [List.foldl_cons, ih, opened_after, openings, openings, List.filterMap_cons]
    cases t.opened? <;> simp

theorem opened_of (T : List (Turn S Question Question.Answer W)) : (of T).opened = openings T :=
  opened_foldl empty T

theorem last_of_foldl {m : Custody} (last : ∀ handle ∈ m.inUse, m.opened.getLast? = some handle)
    (T : List (Turn S Question Question.Answer W)) :
    ∀ handle ∈ (T.foldl after m).inUse, (T.foldl after m).opened.getLast? = some handle := by
  induction T generalizing m with
  | nil => exact last
  | cons t T ih =>
    refine ih fun handle hh => ?_
    rw [opened_after]
    obtain opened | ⟨unopened, -, before⟩ := inUse_of_after hh
    · simp [opened]
    · simp [unopened, last handle before]

/-- The handle in use is the one that was opened last. -/
theorem getLast?_of_inUse {T : List (Turn S Question Question.Answer W)} {handle : Nat}
    (h : (of T).inUse = some handle) : (openings T).getLast? = some handle := by
  have last := last_of_foldl (m := empty) nofun T handle h
  change (of T).opened.getLast? = some handle at last
  rw [opened_of] at last
  exact last

/-- A handle comes into use only by being opened. -/
theorem mem_openings_of_inUse {m : Custody} {T : List (Turn S Question Question.Answer W)}
    {handle : Nat} (h : (T.foldl after m).inUse = some handle) :
    handle ∈ openings T ∨ m.inUse = some handle := by
  induction T generalizing m with
  | nil => exact .inr h
  | cons t T ih =>
    obtain later | here := ih h
    · exact .inl (mem_openings_cons t later)
    · obtain opened | ⟨-, -, before⟩ := inUse_of_after here
      · exact .inl (List.mem_filterMap.mpr ⟨t, List.mem_cons_self, opened⟩)
      · exact .inr before

/-- What is in use after a loss has been opened since. -/
theorem opened_since_loss {before between : List (Turn S Question Question.Answer W)}
    {t : Turn S Question Question.Answer W} {handle : Nat} (lost : t.loses = true)
    (h : (of (before ++ t :: between)).inUse = some handle) : handle ∈ openings between := by
  rw [of, List.foldl_append, List.foldl_cons] at h
  obtain opened | here := mem_openings_of_inUse h
  · exact opened
  obtain opened | ⟨-, unlost, -⟩ := inUse_of_after here
  · -- a turn that loses a handle opens none
    obtain ⟨s, q, r, w⟩ := t
    cases q with
    | connect => exact absurd lost nofun
    | _ => exact absurd opened nofun
  · exact absurd (lost.symm.trans unlost) nofun

end Custody

/-! ### Holding the handle in use -/

namespace Player

section

variable {W : Type} (answer : (q : Question) → W → q.Answer × W)

/-- The handle in use goes along with the turns: a connect is made while there is none, and a call
goes through it. -/
def discipline (W : Type) : Chronicle Custody Player Question Question.Answer W where
  step := Custody.after
  along m t := (t.question = .connect → t.asker.handle = none ∧ m.inUse = none) ∧
    ∀ handle call, t.question = .call handle call → m.inUse = some handle

theorem discipline_after (T : List (Turn Player Question Question.Answer W)) :
    (discipline W).after .empty T = .of T := rfl

/-- The player holds the handle in use, and has counted the connects but for the first. -/
structure Keeping (m : Custody) (p : Player) : Prop where
  held : p.handle = m.inUse
  counted : p.summary.reconnects + 1 = m.opened.length

/-- What is so while the player holds a handle. -/
abbrev Holds (handle : Nat) (m : Custody) (p : Player) : Prop :=
  Keeping m p ∧ p.handle = some handle

/-- Something has failed: either the handle was lost by it, and none is in use, or nothing has
changed. -/
structure Failing (cause : BulbError) (m : Custody) (p : Player) : Prop where
  lost : cause.isConnectivity = true → m.inUse = none
  final : cause.isConnectivity = false → p.handle = m.inUse
  counted : p.summary.reconnects + 1 = m.opened.length

/-- A handle is in use that the player has neither taken nor counted yet. -/
structure Linked (handle : Nat) (m : Custody) (p : Player) : Prop where
  inUse : m.inUse = some handle
  uncounted : p.summary.reconnects + 2 = m.opened.length

variable {answer}

/-- A question about something else concerns no handle. -/
theorem discipline_aside (m : Custody) {t : Turn Player Question Question.Answer W}
    (hconnect : t.question ≠ .connect) (hcall : ∀ handle call, t.question ≠ .call handle call) :
    (discipline W).along m t ∧ (discipline W).step m t = m := by
  refine ⟨⟨fun h => absurd h hconnect, fun handle call h => absurd h (hcall handle call)⟩, ?_⟩
  obtain ⟨p, q, r, w⟩ := t
  cases q with
  | connect => exact absurd rfl hconnect
  | call handle call => exact absurd rfl (hcall handle call)
  | _ => rfl

theorem keeps_aside {inv : Custody → Player → Prop} {q : Question} (hconnect : q ≠ .connect)
    (hcall : ∀ handle call, q ≠ .call handle call) :
    Surely answer (ε := Halt) (discipline W) (fun m p _ => inv m p) (ask q) := by
  refine keeps_ask fun m p w hi => ?_
  obtain ⟨along, same⟩ := discipline_aside m (t := ⟨p, q, (answer q w).1, w⟩) hconnect hcall
  rw [same]
  exact ⟨along, hi⟩

theorem takes_reconnect_kept :
    Takes answer (discipline W) (fun m p _ => Keeping m p ∧ p.handle = none) reconnect
      (outcome (fun handle m p _ => Holds handle m p)
        fun _ m p _ => Keeping m p ∧ p.handle = none) := by
  have connects : Takes answer (ε := Halt) (discipline W)
      (fun m p _ => Keeping m p ∧ p.handle = none) (ask .connect)
      (outcome (fun handle m p _ => Linked handle m p)
        fun _ m p _ => Keeping m p ∧ p.handle = none) := by
    refine takes_connect (fun m p w handle hk _ => ?_) fun m p w cause hk _ => ?_
    · obtain ⟨keeping, closed⟩ := hk
      refine ⟨⟨fun _ => ⟨closed, keeping.held.symm.trans closed⟩, nofun⟩, rfl, ?_⟩
      have counted := keeping.counted
      simp [discipline, Custody.opened_after, Turn.opened?, ← counted]
    · obtain ⟨keeping, closed⟩ := hk
      exact ⟨⟨fun _ => ⟨closed, keeping.held.symm.trans closed⟩, nofun⟩, keeping, closed⟩
  refine Playing.takes_reconnect connects (fun handle message => keeps_aside nofun fun _ _ => nofun)
    fun handle m p w linked => ⟨⟨linked.inUse.symm, ?_⟩, rfl⟩
  have uncounted := linked.uncounted
  simp only
  omega

/-- A call goes through the handle that the player holds, and may lose it. -/
theorem takes_call_kept (handle : Nat) (call : Call) :
    Takes answer (ε := Halt) (discipline W) (fun m p _ => Holds handle m p) (ask (.call handle call))
      (outcome (fun _ m p _ => Holds handle m p) fun cause m p _ => Failing cause m p) := by
  have along (m : Custody) (p : Player) (w : W) (r : Except BulbError call.Reply)
      (h : Holds handle m p) : (discipline W).along m ⟨p, .call handle call, r, w⟩ := by
    refine ⟨nofun, fun handle' call' same => ?_⟩
    cases same
    exact h.1.held.symm.trans h.2
  refine takes_call (fun m p w reply h _ => ⟨along m p w _ h, h⟩) fun m p w cause h _ => ?_
  refine ⟨along m p w _ h, fun lost => ?_, fun final => ?_, ?_⟩
  · simp [discipline, Custody.after, Turn.opened?, Turn.loses, lost]
  · simpa [discipline, Custody.after, Turn.opened?, Turn.loses, final] using h.1.held
  · simpa [discipline, Custody.opened_after, Turn.opened?] using h.1.counted

theorem takes_attempt_kept (handle : Nat) (cmd : Command) :
    Takes answer (discipline W) (fun m p _ => Holds handle m p) (attempt handle cmd)
      (outcome (fun _ m p _ => Holds handle m p) fun cause m p _ => Failing cause m p) := by
  refine takes_attempt fun p => ?_
  have aside {q : Question} (hconnect : q ≠ .connect)
      (hcall : ∀ handle call, q ≠ .call handle call) :
      Surely answer (ε := BulbError) ((discipline W).comap fun state => { p with state })
        (fun m state _ => Holds handle m { p with state }) (Talk.ask q) :=
    takes_ask_within (keeps_aside hconnect hcall)
  exact (Execution.calm_of_send (aside nofun fun _ _ => nofun)
    (fun _ _ => aside nofun fun _ _ => nofun)
    (fun call _ => Execution.takes_send_within (takes_call_kept handle call))
    fun _ _ _ _ hi => ⟨⟨hi.1.held, hi.1.counted⟩, hi.2⟩).keeps_execute cmd

theorem keeps_waitBeforeRetry_kept (cause : BulbError) :
    Surely answer (discipline W) (fun m p _ => Keeping m p) (waitBeforeRetry cause) :=
  Playing.keeps_waitBeforeRetry (fun _ _ _ _ hi => ⟨hi.held, hi.counted⟩)
    (fun _ => keeps_aside nofun fun _ _ => nofun) (fun _ => keeps_aside nofun fun _ _ => nofun) cause

/-- A player that has lost its handle, and waited, holds none and none is in use. -/
theorem recovers_kept : Playing.Recovers answer (discipline W) (fun m p _ => Keeping m p)
    (fun _ m p _ => Keeping m p) (fun _ m p _ => Keeping m p ∧ p.handle = none)
    (fun cause m p _ => Failing cause m p) fun _ m p _ => Keeping m p where
  lost_of_unopened _ _ _ _ hu :=
    ⟨fun _ => hu.1.held.symm.trans hu.2, fun _ => hu.1.held, hu.1.counted⟩
  retry _ _ _ _ _ hu := hu.1
  drop _ _ _ _ conn hl := ⟨(hl.lost conn).symm, hl.counted⟩
  wait := keeps_waitBeforeRetry_kept
  final _ _ _ _ final hl := ⟨hl.final final, hl.counted⟩
  unfinished _ _ _ hi := hi

theorem keeps_dispatch_kept (cmd : Command) (fuel : Nat) :
    Takes answer (discipline W) (fun m p _ => Keeping m p) (dispatch cmd fuel)
      (atEnd (fun _ m p _ => Keeping m p) fun _ m p _ => Keeping m p) := by
  have looks : Takes answer (ε := Halt) (discipline W)
      (fun m p _ => Keeping m p ∧ p.handle = none) (ask .stopping)
      (atEnd (fun stop => if stop then fun m p _ => Keeping m p
        else fun m p _ => Keeping m p ∧ p.handle = none) fun _ _ _ _ => False) := by
    have aside : Surely answer (ε := Halt) (discipline W)
        (fun m p _ => Keeping m p ∧ p.handle = none) (ask .stopping) :=
      keeps_aside nofun fun _ _ => nofun
    refine aside.mono (fun _ _ _ hi => hi) fun r m p w hr => ?_
    rcases r with _ | _ | _
    · exact hr
    · exact hr
    · exact hr.1
  have opens : Takes answer (discipline W) (fun m p _ => Keeping m p) openHandle
      (Playing.looked (fun m p _ => Keeping m p) (fun handle m p _ => Holds handle m p)
        fun _ m p _ => Keeping m p ∧ p.handle = none) :=
    Playing.takes_openHandle (fun handle _ _ _ found hi => ⟨hi, found⟩)
      (fun _ _ _ closed hi => ⟨hi, closed⟩) looks takes_reconnect_kept
  have tries (handle : Nat) : Takes answer (discipline W) (fun m p _ => Holds handle m p)
      (attempt handle cmd) (outcome (fun _ m p _ => Keeping m p)
        fun cause m p _ => Failing cause m p) :=
    (takes_attempt_kept handle cmd).mono (fun _ _ _ hi => hi)
      (outcome_mono (fun _ _ _ _ hi => hi.1) fun _ _ _ _ hl => hl)
  exact recovers_kept.takes_dispatch opens tries (fun _ _ _ _ hi => ⟨hi.held, hi.counted⟩) fuel

theorem keeps_play_kept (fuel : Nat) :
    Takes answer (discipline W) (fun m p _ => Keeping m p) (play fuel)
      fun _ m p _ => Keeping m p := by
  have passing : Playing.Passing answer (discipline W) fun m p _ => Keeping m p :=
    { stopping := keeps_aside nofun fun _ _ => nofun
      report := fun _ => keeps_aside nofun fun _ _ => nofun
      idling := fun _ => keeps_aside nofun fun _ _ => nofun
      nextScript := keeps_aside nofun fun _ _ => nofun
      passes := fun _ _ _ _ hi => ⟨hi.held, hi.counted⟩
      script := fun _ _ _ _ hi => ⟨hi.held, hi.counted⟩
      timeAdjust := fun _ _ _ _ hi => ⟨hi.held, hi.counted⟩ }
  refine keeps_always.mp (passing.keeps_play (fun _ _ _ hi => hi) (fun cmd fuel => ?_) fuel)
  refine Playing.takes_carryOut (fun _ _ _ hi => ⟨hi.held, hi.counted⟩)
    (keeps_dispatch_kept cmd fuel) (fun d => ?_) fun _ _ _ hi => ⟨hi.held, hi.counted⟩
  cases d with
  | skip => exact keeps_pure
  | sleep length =>
    have paces : Surely answer (ε := Halt) (discipline W) (fun m p _ => Keeping m p)
        (ask (.pause .pacing length)) :=
      keeps_aside nofun fun _ _ => nofun
    exact keeps_bind (keeps_modify fun _ _ _ hi => ⟨hi.held, hi.counted⟩) fun _ => paces.keeps

theorem takes_restore_kept (snapshot : Snapshot) (more : Nat) :
    Takes answer (discipline W) (fun m p _ => Keeping m p) (restore snapshot more)
      (outcome (fun _ m p _ => Keeping m p) fun cause m p _ => Failing cause m p) := by
  have reopens : Takes answer (discipline W) (fun m p _ => Keeping m p) reopenHandle
      (outcome (fun handle m p _ => Holds handle m p) fun _ m p _ => Keeping m p ∧ p.handle = none) :=
    Playing.takes_reopenHandle (fun handle _ _ _ found hi => ⟨hi, found⟩)
      (fun _ _ _ closed hi => ⟨hi, closed⟩) takes_reconnect_kept
  refine recovers_kept.takes_restore reopens (fun handle => ?_) more
  exact (takes_call_kept handle (.restoreSnapshot snapshot)).mono (fun _ _ _ hi => hi)
    (outcome_mono (fun _ _ _ _ hi => hi.1) fun _ _ _ _ hl => hl)

/-- No handle was opened so far. -/
def Unopened (m : Custody) (p : Player) (_ : W) : Prop :=
  m = .empty ∧ p.handle = none ∧ p.summary.reconnects = 0

/-- The handle in use is the only one that was opened, and no reconnect is counted. -/
def FirstHeld (handle : Nat) (m : Custody) (p : Player) (_ : W) : Prop :=
  m = ⟨some handle, [handle]⟩ ∧ p.summary.reconnects = 0

theorem takes_startUp_kept :
    Takes answer (discipline W) Unopened startUp
      (atEnd (fun _ m p _ => Keeping m p) fun _ _ _ _ => True) := by
  have calls (handle : Nat) (call : Call) : Takes answer (ε := Halt) (discipline W) (FirstHeld handle)
      (ask (.call handle call)) (outcome (fun _ => FirstHeld handle) fun _ _ _ _ => True) := by
    refine takes_call (fun m p w reply hl _ => ⟨⟨nofun, fun handle' call' same => ?_⟩, hl⟩)
      fun m p w cause hl _ => ⟨⟨nofun, fun handle' call' same => ?_⟩, trivial⟩ <;>
    · cases same
      rw [hl.1]
  have connects : Takes answer (ε := Halt) (discipline W) Unopened (ask .connect)
      (outcome FirstHeld fun _ _ _ _ => True) := by
    refine takes_connect (fun m p w handle hn _ => ?_) fun m p w cause hn _ => ?_
    · obtain ⟨rfl, closed, uncounted⟩ := hn
      exact ⟨⟨fun _ => ⟨closed, rfl⟩, nofun⟩, rfl, uncounted⟩
    · obtain ⟨rfl, closed, uncounted⟩ := hn
      exact ⟨⟨fun _ => ⟨closed, rfl⟩, nofun⟩, trivial⟩
  refine Playing.takes_startUp connects (fun handle => calls handle .getRgb)
    (fun handle message => keeps_aside nofun fun _ _ => nofun)
    (fun handle => calls handle .saveSnapshot) (fun handle _ => calls handle .turnOn)
    (fun handle _ m p w hl => ?_) fun _ _ _ _ _ => trivial
  obtain ⟨rfl, uncounted⟩ := hl
  exact ⟨rfl, congrArg (· + 1) uncounted⟩

/-- A playback goes by the handle in use, and its count of reconnects is that of the connects that
worked, but for one. -/
theorem takes_run_disciplined (fuel : Nat) :
    Takes answer (discipline W) Unopened (run fuel)
      (atEnd (fun counts m _ _ => counts.reconnects + 1 = m.opened.length) fun _ _ _ _ => True) := by
  have closes (snapshot : Snapshot) (ended : Except Halt Unit) :
      Takes answer (discipline W) (fun m p _ => Keeping m p) (close snapshot ended)
        (atEnd (fun counts m _ _ => counts.reconnects + 1 = m.opened.length)
          fun _ _ _ _ => True) :=
    Playing.takes_close (fun _ => keeps_aside nofun fun _ _ => nofun)
      (takes_restore_kept snapshot _) (keeps_aside nofun fun _ _ => nofun)
      (fun cause => keeps_aside nofun fun _ _ => nofun) (fun _ _ _ _ hi => hi.counted)
      fun _ _ _ _ _ _ => trivial
  exact Playing.takes_run takes_startUp_kept (fun _ => keeps_play_kept fuel) closes

/-- In every playback, whatever fails: a connect is made only while the player holds no handle and
none is in use; every call goes through the handle that was opened last, and after a call that could
not reach the bulb only through one that was opened since, so that a lost handle is never used again
where every connect gives a new one; and a playback that returns has counted one reconnect less than
the connects that worked. -/
theorem calls_use_last_handle (answer : (q : Question) → W → q.Answer × W) (bulb : String)
    (script : Script) (backoff : Backoff) (fuel : Nat) (w : W) :
    let turns := (run fuel).turns answer (new bulb script backoff) w
    (∀ before t later, turns = before ++ t :: later →
      (t.question = .connect → t.asker.handle = none ∧ (Custody.of before).inUse = none) ∧
      ∀ handle call, t.question = .call handle call →
        (openings before).getLast? = some handle ∧
        ∀ earlier lost between, before = earlier ++ lost :: between → lost.loses = true →
          handle ∈ openings between ∧
          ((openings turns).Nodup → ∀ call', lost.question ≠ .call handle call')) ∧
    ∀ counts, ((run fuel).ending answer (new bulb script backoff) w).result = .ok counts →
      counts.reconnects + 1 = (openings turns).length := by
  intro turns
  have disciplined : Takes answer (discipline W) _ (run fuel) _ := takes_run_disciplined fuel
  obtain ⟨holds, ended⟩ := disciplined .empty (new bulb script backoff) w ⟨rfl, rfl, rfl⟩
  have along (before t later) (split : turns = before ++ t :: later) :
      (discipline W).along (.of before) t := by
    change (discipline W).Holds .empty turns at holds
    rw [split] at holds
    exact holds.along_of_split
  refine ⟨fun before t later split => ?_, fun counts returned => ?_⟩
  · obtain ⟨connects, calls⟩ := along before t later split
    refine ⟨connects, fun handle call asks => ?_⟩
    have inUse := calls handle call asks
    refine ⟨Custody.getLast?_of_inUse inUse, ?_⟩
    rintro earlier lost between rfl loses
    have since : handle ∈ openings between := Custody.opened_since_loss loses inUse
    refine ⟨since, fun distinct call' same => ?_⟩
    -- the lost handle was opened before the loss, and this one after it
    have opened := Custody.getLast?_of_inUse
      ((along earlier lost (between ++ t :: later) (by rw [split]; simp)).2 handle call' same)
    have splits : openings turns =
        openings earlier ++ openings (lost :: between) ++ openings (t :: later) := by
      rw [split, openings, List.filterMap_append, List.filterMap_append]
      rfl
    rw [splits, List.nodup_append, List.nodup_append] at distinct
    exact distinct.1.2.2 handle (List.mem_of_getLast? opened) handle
      (mem_openings_cons lost since) rfl
  · rw [returned, discipline_after] at ended
    rw [← Custody.opened_of]
    exact ended

end

/-- A lamp that is lost while a fade is played, and told to stop once it is found again. -/
def losing : Performance := .ofLamp fun
  | 8 => [.failCalls 1]
  | 14 => [.stop]
  | _ => []

/-- The turns of that playback. -/
def losingTurns : List (Turn Player Question Question.Answer Performance) :=
  (run 4).turns Performance.answer (new "lamp" ⟨[⟨0, .fade, [1]⟩]⟩ .usual) losing

/-- The settings of that lamp are put back through its second handle, as the first one is lost. -/
theorem calls_use_last_handle_after_loss :
    ∃ earlier lost between t later call, losingTurns = (earlier ++ lost :: between) ++ t :: later ∧
      lost.loses = true ∧ t.question = .call 1 call ∧
      (openings (earlier ++ lost :: between)).getLast? = some 1 ∧ 1 ∈ openings between ∧
      (∀ call', lost.question ≠ .call 1 call') ∧
      ∃ counts, ((run 4).ending Performance.answer (new "lamp" ⟨[⟨0, .fade, [1]⟩]⟩ .usual)
          losing).result = .ok counts ∧ counts.reconnects + 1 = (openings losingTurns).length := by
  obtain ⟨handles, counted⟩ := calls_use_last_handle Performance.answer "lamp"
    ⟨[⟨0, .fade, [1]⟩]⟩ .usual 4 losing
  obtain ⟨lost, t, call, split, loses, asks⟩ : ∃ lost t call, losingTurns =
      (losingTurns.take 9 ++ lost :: (losingTurns.drop 10).take 7) ++ t :: losingTurns.drop 18 ∧
      lost.loses = true ∧ t.question = .call 1 call := ⟨_, _, _, rfl, rfl, rfl⟩
  have returns : ((run 4).ending Performance.answer (new "lamp" ⟨[⟨0, .fade, [1]⟩]⟩ .usual)
      losing).result.isOk = true := by decide +kernel
  obtain ⟨last, since⟩ := (handles _ t _ split).2 1 call asks
  obtain ⟨opened, other⟩ := since _ lost _ rfl loses
  have distinct : (openings losingTurns).Nodup := by decide +kernel
  refine ⟨_, lost, _, t, _, call, split, loses, asks, last, opened, other distinct, ?_⟩
  revert counted returns
  cases ((run 4).ending Performance.answer (new "lamp" ⟨[⟨0, .fade, [1]⟩]⟩ .usual) losing).result with
  | ok counts => exact fun counted _ => ⟨counts, rfl, counted counts rfl⟩
  | error halt => exact fun _ => nofun

end Player

end Lightshow
