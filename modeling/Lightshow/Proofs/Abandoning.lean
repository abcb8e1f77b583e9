/-
Playback that has taken the settings of its bulb.

Once playback has taken a snapshot and sent a call to turn the bulb on, there are two ways in which
it returns.  Either that call was the one of its start-up and failed; then playback fails at once and
the bulb is left as it is.  Or the snapshot is put back, in one try or more.

* `startUp_saves` -- a start-up takes one snapshot, and turns the bulb on last of all;
* `play_saves_nothing` -- passes take no snapshot;
* `restored_or_refused` -- what comes after the call that turns the bulb on.
-/
import Lightshow.Proofs.Restoring

namespace Lightshow

open Talk Performance

/-! ### Snapshots that are taken -/

/-- The snapshot that was taken at a turn, if one was. -/
def Turn.saved? {S W : Type} : Turn S Question Question.Answer W → Option Snapshot
  | ⟨_, .call _ .saveSnapshot, .ok snapshot, _⟩ => some snapshot
  | _ => none

/-- The snapshots that were taken, in order. -/
def savings {S W : Type} (T : List (Turn S Question Question.Answer W)) : List Snapshot :=
  T.filterMap Turn.saved?

theorem savings_concat {S W : Type} (T : List (Turn S Question Question.Answer W))
    (t : Turn S Question Question.Answer W) : savings (T ++ [t]) = savings T ++ t.saved?.toList := by
  rw [savings, savings, List.filterMap_append]
  cases saved : t.saved? <;> simp [saved]

theorem saved?_of_ordinary {S W : Type} {s : S} {handle : Nat} {call : Call}
    (ordinary : call.isOfSnapshot = false) (r : Except BulbError call.Reply) (w : W) :
    (⟨s, .call handle call, r, w⟩ : Turn S Question Question.Answer W).saved? = none := by
  cases call with
  | saveSnapshot => exact absurd ordinary nofun
  | _ => rfl

namespace Player

section

variable {W : Type} (answer : (q : Question) → W → q.Answer × W)

/-- Nothing is required of a turn; all of them are remembered. -/
abbrev remembering (W : Type) : Chronicle (List (Turn Player Question Question.Answer W)) Player
    Question Question.Answer W :=
  .whole fun _ _ => True

/-- No turn so far turns the bulb on. -/
def Unlit (T : List (Turn Player Question Question.Answer W)) : Prop :=
  ∀ t ∈ T, t.sent? ≠ some .turnOn

/-- Some turns end in a failure, and only the last of them may have turned the bulb on. -/
def EndsUnlit (cause : BulbError) (T : List (Turn Player Question Question.Answer W)) : Prop :=
  ∃ opening failed, T = opening ++ [failed] ∧ Unlit opening ∧ failed.failure? = some cause

/-- The snapshots so far are these, and no turn has turned the bulb on. -/
def Saved (taken : List Snapshot) (T : List (Turn Player Question Question.Answer W)) (_ : Player)
    (_ : W) : Prop :=
  savings T = taken ∧ Unlit T

theorem Saved.next {taken : List Snapshot} {T : List (Turn Player Question Question.Answer W)}
    {p : Player} {w : W} (h : Saved taken T p w) {t : Turn Player Question Question.Answer W}
    (other : t.sent? ≠ some .turnOn) (w' : W) :
    Saved (taken ++ t.saved?.toList) (T ++ [t]) p w' := by
  obtain ⟨rfl, unlit⟩ := h
  refine ⟨savings_concat T t, fun u hu => ?_⟩
  rcases List.mem_append.mp hu with hu | hu
  · exact unlit u hu
  · rw [List.mem_singleton.mp hu]
    exact other

/-- A start-up takes one snapshot, or it fails and turns the bulb on, if at all, at its last turn. -/
theorem startUp_saves (p : Player) (w : W) :
    Leads answer startUp p w fun T r _ _ => match r with
      | .ok snapshot => savings T = [snapshot]
      | .error halt => ∃ cause, halt = .failed cause ∧ EndsUnlit cause T := by
  have connects : Takes answer (ε := Halt) (remembering W) (Saved []) (ask .connect)
      (outcome (fun _ => Saved []) fun cause m _ _ => EndsUnlit cause m) :=
    takes_connect
      (fun m p w handle h _ => ⟨trivial, h.next (t := ⟨p, .connect, .ok handle, w⟩) nofun _⟩)
      fun m p w cause h _ => ⟨trivial, m, ⟨p, .connect, .error cause, w⟩, rfl, h.2, rfl⟩
  have looks (handle : Nat) : Takes answer (ε := Halt) (remembering W) (Saved [])
      (ask (.call handle .getRgb))
      (outcome (fun _ => Saved []) fun cause m _ _ => EndsUnlit cause m) :=
    takes_call
      (fun m p w reply h _ => ⟨trivial, h.next (t := ⟨p, .call handle .getRgb, .ok reply, w⟩) nofun _⟩)
      fun m p w cause h _ => ⟨trivial, m, ⟨p, .call handle .getRgb, .error cause, w⟩, rfl, h.2, rfl⟩
  have reports (message : Message) : Surely answer (ε := Halt) (remembering W) (Saved [])
      (ask (.report message)) :=
    keeps_ask fun m p w h => ⟨trivial, h.next (t := ⟨p, .report message, (), w⟩) nofun _⟩
  have saves (handle : Nat) : Takes answer (ε := Halt) (remembering W) (Saved [])
      (ask (.call handle .saveSnapshot))
      (outcome (fun snapshot => Saved [snapshot]) fun cause m _ _ => EndsUnlit cause m) :=
    takes_call
      (fun m p w snapshot h _ =>
        ⟨trivial, h.next (t := ⟨p, .call handle .saveSnapshot, .ok snapshot, w⟩) nofun _⟩)
      fun m p w cause h _ =>
        ⟨trivial, m, ⟨p, .call handle .saveSnapshot, .error cause, w⟩, rfl, h.2, rfl⟩
  have lights (handle : Nat) (snapshot : Snapshot) : Takes answer (ε := Halt) (remembering W)
      (Saved [snapshot]) (ask (.call handle .turnOn))
      (outcome (fun _ m _ _ => savings m = [snapshot]) fun cause m _ _ => EndsUnlit cause m) :=
    takes_call
      (fun m p w reply h _ => ⟨trivial, (savings_concat m _).trans (by rw [h.1]; rfl)⟩)
      fun m p w cause h _ => ⟨trivial, m, ⟨p, .call handle .turnOn, .error cause, w⟩, rfl, h.2, rfl⟩
  have starts : Takes answer (remembering W) (Saved []) startUp
      (atEnd (fun snapshot m _ _ => savings m = [snapshot])
        fun halt m _ _ => ∃ cause, halt = .failed cause ∧ EndsUnlit cause m) :=
    Playing.takes_startUp connects looks (fun _ => reports) saves lights (fun _ _ _ _ _ h => h)
      fun cause _ _ _ h => ⟨cause, rfl, h⟩
  have started := starts [] p w ⟨rfl, fun t ht => absurd ht List.not_mem_nil⟩
  refine started.mono fun T r _ _ h => ?_
  obtain ⟨-, ended⟩ := h
  rw [Chronicle.whole_after, List.nil_append] at ended
  cases r with
  | ok snapshot => exact ended
  | error halt => exact ended

/-- Passes take no snapshot. -/
theorem play_saves_nothing (fuel : Nat) (p : Player) (w : W) :
    ∀ t ∈ (play fuel).turns answer p w, t.saved? = none := by
  have other : ∀ p q w, (∀ handle c, q ≠ .call handle c) →
      (⟨p, q, (answer q w).1, w⟩ : Turn Player Question Question.Answer W).saved? = none := by
    intro p q w other
    cases q with
    | call handle c => exact absurd rfl (other handle c)
    | _ => rfl
  have unmoved : Unmoved answer (.each (·.saved? = none)) _ _ _ := .of_each other
  have untouched : Untouched answer (.each (·.saved? = none)) _ := .of_each other
  have tries (cmd : Command) (handle : Nat) : Takes answer (.each (·.saved? = none))
      (fun _ _ _ => True) (attempt handle cmd)
      (outcome (fun _ _ _ _ => True) fun _ _ _ _ => True) :=
    takes_attempt fun p => Execution.keeps_execute_of_ordinary
      (keeps_ask fun _ _ _ _ => ⟨rfl, trivial⟩) (fun _ _ => keeps_ask fun _ _ _ _ => ⟨rfl, trivial⟩)
      (fun call ordinary => Execution.keeps_send
        (keeps_ask fun _ _ _ _ => ⟨saved?_of_ordinary ordinary _ _, trivial⟩))
      (fun _ _ _ _ _ => trivial) cmd
  have plays := untouched.keeps_play (fun _ _ _ _ => trivial)
    (fun cmd fuel => unmoved.keeps_dispatch (tries cmd) fuel) fuel
  exact Chronicle.holds_each.mp (plays () p w trivial).1

end

/-- Once playback has taken a snapshot and sent a call to turn the bulb on, it returns in one of two
ways.  Either the call was the first of its kind and has failed, nothing has happened since, and the
playback fails as the call has; or the playback ends with the tries to put that snapshot back, of
which there is at least one. -/
theorem restored_or_refused {W : Type} {answer : (q : Question) → W → q.Answer × W} {fuel : Nat}
    {p : Player} {w : W} {before later : List (Turn Player Question Question.Answer W)}
    {t : Turn Player Question Question.Answer W} {snapshot : Snapshot}
    (split : (run fuel).turns answer p w = before ++ t :: later) (lights : t.sent? = some .turnOn)
    (saved : snapshot ∈ savings before)
    (returned : ((run fuel).ending answer p w).result ≠ .error .unfinished) :
    (Unlit before ∧ ∃ cause, t.failure? = some cause ∧ later = [] ∧
      ((run fuel).ending answer p w).result = .error (.failed cause)) ∨
    ∃ played closing tries last, later = played ++ closing ∧ Tries restoreTries tries last ∧
      restoreSteps closing = (tries.map .tried).intersperse .waited ∧
      ∀ u ∈ closing, ∀ c ∈ u.sent?, c = .restoreSnapshot snapshot := by
  have opening := startUp_saves answer p w
  obtain ⟨begun, p₁, w₁, starts⟩ :
      ∃ begun p₁ w₁, startUp.ending answer p w = ⟨begun, p₁, w₁⟩ := ⟨_, _, _, rfl⟩
  rw [leads_iff, starts] at opening
  rcases begun with halt | snapshot'
  · -- a start-up that has failed turned the bulb on at its last turn, if at all
    obtain ⟨hturns, hending⟩ : (run fuel).turns answer p w = startUp.turns answer p w ∧
        (run fuel).ending answer p w = ⟨.error halt, p₁, w₁⟩ := run_failed starts
    obtain ⟨cause, rfl, opened, failed, hopened, unlit, failure⟩ := opening
    rw [hturns, hopened] at split
    rcases List.eq_nil_or_concat later with rfl | ⟨rest, last, rfl⟩
    · obtain ⟨rfl, same⟩ := List.append_inj' split rfl
      obtain rfl : failed = t := List.singleton_inj.mp same
      rw [hending]
      exact .inl ⟨unlit, cause, failure, rfl, rfl⟩
    · rw [List.concat_eq_append, ← List.cons_append, ← List.append_assoc] at split
      obtain ⟨rfl, -⟩ := List.append_inj' split rfl
      exact absurd lights (unlit t (List.mem_append_right before List.mem_cons_self))
  · obtain ⟨ended, p₂, w₂, played⟩ :
        ∃ ended p₂ w₂, (play fuel).ending answer p₁ w₁ = ⟨ended, p₂, w₂⟩ := ⟨_, _, _, rfl⟩
    obtain ⟨hturns, hending⟩ := run_begun starts played
    have ended_returned : ended ≠ .error .unfinished := by
      rintro rfl
      exact returned (congrArg Ending.result hending)
    have closed := leads_close answer ended_returned snapshot' p₂ w₂
    rw [leads_iff] at closed
    obtain ⟨tries, last, -, htries, hsteps, -⟩ := closed
    have calls := close_calls answer snapshot' ended p₂ w₂
    generalize (close snapshot' ended).turns answer p₂ w₂ = closing at hturns hsteps calls
    rw [hturns, ← List.append_assoc] at split
    have unlit : t ∉ closing := fun ht => absurd (calls t ht .turnOn lights) nofun
    obtain ⟨rest, -, rfl⟩ | ⟨rest, passed, left⟩ := List.append_eq_append_iff.mp split
    · exact absurd (List.mem_append_right rest List.mem_cons_self) unlit
    rcases rest with _ | ⟨t', played⟩
    · rw [List.nil_append] at left
      exact absurd (left ▸ List.mem_cons_self) unlit
    obtain ⟨rfl, rfl⟩ := List.cons.inj left
    -- the only snapshot is the one of the start-up
    obtain rfl : snapshot = snapshot' := by
      have nothing : savings ((play fuel).turns answer p₁ w₁) = [] :=
        List.filterMap_eq_nil_iff.mpr (play_saves_nothing answer fuel p₁ w₁)
      have all : savings (before ++ t :: played) = [snapshot'] := by
        rw [← passed, savings, List.filterMap_append]
        change savings _ ++ savings _ = _
        rw [opening, nothing, List.append_nil]
      rw [savings, List.filterMap_append] at all
      exact List.mem_singleton.mp (all ▸ List.mem_append_left _ saved)
    exact .inr ⟨played, closing, tries, last, rfl, htries, hsteps, calls⟩

/-- A lamp that refuses a fade while it plays, and is lost at the first try to put its settings
back. -/
def refusing : Performance := .ofLamp fun
  | 8 => [.rejectCalls 1]
  | 10 => [.failCalls 1]
  | _ => []

/-- A player with a fade to play. -/
def fading : Player := new "lamp" ⟨[⟨0, .fade, [1]⟩]⟩ .usual

theorem restored_or_refused_while_playing :
    ∃ before t later snapshot, (run 5).turns answer fading refusing = before ++ t :: later ∧
      t.sent? = some .turnOn ∧ snapshot ∈ savings before ∧
      ((run 5).ending answer fading refusing).result ≠ .error .unfinished ∧
      ∃ played closing tries last, later = played ++ closing ∧ Tries restoreTries tries last ∧
        restoreSteps closing = (tries.map .tried).intersperse .waited ∧
        ∀ u ∈ closing, ∀ c ∈ u.sent?, c = .restoreSnapshot snapshot := by
  obtain ⟨t, split, asks⟩ : ∃ t, (run 5).turns answer fading refusing =
      ((run 5).turns answer fading refusing).take 4 ++
        t :: ((run 5).turns answer fading refusing).drop 5 ∧
      t.question = .call 0 .turnOn := ⟨_, rfl, rfl⟩
  have lights : t.sent? = some .turnOn := Turn.sent?_of_asks asks
  have saves : (savings (((run 5).turns answer fading refusing).take 4)).isEmpty = false := by
    decide +kernel
  obtain ⟨snapshot, saved⟩ := List.exists_mem_of_ne_nil _ (List.isEmpty_eq_false_iff.mp saves)
  obtain ⟨cause, failed⟩ :
      ∃ cause, ((run 5).ending answer fading refusing).result = .error (.failed cause) := ⟨_, rfl⟩
  have returned : ((run 5).ending answer fading refusing).result ≠ .error .unfinished := by
    rw [failed]
    exact nofun
  refine ⟨_, t, _, snapshot, split, lights, saved, returned, ?_⟩
  obtain ⟨-, -, -, nothing, -⟩ | tried := restored_or_refused split lights saved returned
  · have goes : (((run 5).turns answer fading refusing).drop 5).isEmpty = false := rfl
    rw [nothing] at goes
    exact absurd goes nofun
  · exact tried

/-- A lamp that refuses to be turned on when playback starts is left as it is, although playback has
taken its settings: nothing tries to put them back. -/
theorem abandoned_when_refused :
    let p := new "lamp" ⟨[]⟩ .usual
    let w := Performance.ofLamp fun
      | 4 => [.rejectCalls 1]
      | _ => []
    let turns := (run 1).turns answer p w
    (∃ snapshot, snapshot ∈ savings turns) ∧ (∃ t ∈ turns, t.sent? = some .turnOn) ∧
      (∃ cause, ((run 1).ending answer p w).result = .error (.failed cause)) ∧
      restoreSteps turns = [] := by
  intro p w turns
  have saved : (savings turns).isEmpty = false := by decide +kernel
  have untried : (restoreSteps turns).isEmpty = true := by decide +kernel
  have lights : (turns.any fun t => t.sent?.any (·.switch? = some .on)) = true := by decide +kernel
  obtain ⟨t, ht, sends⟩ := List.any_eq_true.mp lights
  obtain ⟨c, sent, switch⟩ := (Option.any_eq_true _ _).mp sends
  have turnsOn : c = .turnOn := by
    cases c with
    | turnOn => rfl
    | _ => exact absurd (of_decide_eq_true switch) nofun
  exact ⟨List.exists_mem_of_ne_nil _ (List.isEmpty_eq_false_iff.mp saved),
    ⟨t, ht, sent.trans (congrArg some turnsOn)⟩, ⟨_, rfl⟩, List.isEmpty_iff.mp untried⟩

end Player

end Lightshow
