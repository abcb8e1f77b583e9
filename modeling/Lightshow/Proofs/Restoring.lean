/-
Putting back what was there before.

However the passes of a playback end, the snapshot of the start-up is put back in at most
`restoreTries` tries, with a wait after every lost one but the last.  Playback succeeds when nothing
was wrong with the bulb but that it could not be reached at times, and one try worked.

* `leads_restore` -- the tries of a restore, and its result;
* `play_finals` -- passes end with the first failure that is not worth retrying, if there is one;
* `run_restores` -- the result of a playback, and the light that it leaves.
-/
import Lightshow.Proofs.Course

namespace Lightshow

open Talk Performance

/-! ### Tries -/

/-- What happens while a snapshot is put back. -/
inductive RestoreStep where
  /-- A failed connect, or a call to put the snapshot back. -/
  | tried (result : Except BulbError Unit)
  | waited

/-- The step at a turn, if there is one. -/
def Turn.restoreStep? {S W : Type} :
    Turn S Question Question.Answer W → Option RestoreStep
  | ⟨_, .connect, .error cause, _⟩ => some (.tried (.error cause))
  | ⟨_, .call _ (.restoreSnapshot _), result, _⟩ => some (.tried result)
  | ⟨_, .pause .retrying _, _, _⟩ => some .waited
  | _ => none

/-- The steps of putting a snapshot back, in order. -/
def restoreSteps {S W : Type} (T : List (Turn S Question Question.Answer W)) : List RestoreStep :=
  T.filterMap Turn.restoreStep?

theorem restoreSteps_append {S W : Type} (T T' : List (Turn S Question Question.Answer W)) :
    restoreSteps (T ++ T') = restoreSteps T ++ restoreSteps T' := List.filterMap_append

/-- A try that did not reach the bulb. -/
def Lost (result : Except BulbError Unit) : Prop :=
  ∃ cause, result = .error cause ∧ cause.isConnectivity = true

/-- Tries up to the first that is not lost, and at most that many. -/
structure Tries (limit : Nat) (tries : List (Except BulbError Unit))
    (result : Except BulbError Unit) : Prop where
  getLast : tries.getLast? = some result
  atMost : tries.length ≤ limit
  lost : ∀ r ∈ tries.dropLast, Lost r
  exhausted : Lost result → tries.length = limit

namespace Tries

variable {limit : Nat} {tries : List (Except BulbError Unit)} {result : Except BulbError Unit}

theorem single (h : Lost result → limit = 0) : Tries (limit + 1) [result] result where
  getLast := rfl
  atMost := Nat.le_add_left 1 limit
  lost := nofun
  exhausted hl := by rw [h hl]; rfl

theorem ne_nil (h : Tries limit tries result) : tries ≠ [] := by
  rintro rfl
  exact absurd h.getLast nofun

/-- After a lost try come the others. -/
theorem cons {r : Except BulbError Unit} (hr : Lost r) (h : Tries limit tries result) :
    Tries (limit + 1) (r :: tries) result := by
  obtain ⟨r', tries, rfl⟩ := List.exists_cons_of_ne_nil h.ne_nil
  refine ⟨h.getLast, Nat.succ_le_succ h.atMost, fun r₀ hr₀ => ?_, fun hl => ?_⟩
  · rw [List.dropLast_cons_cons, List.mem_cons] at hr₀
    rcases hr₀ with rfl | hr₀
    · exact hr
    · exact h.lost r₀ hr₀
  · exact congrArg Nat.succ (h.exhausted hl)

/-- One of the tries worked exactly if the last one did. -/
theorem ok_mem_iff (h : Tries limit tries result) : .ok () ∈ tries ↔ result = .ok () := by
  obtain ⟨front, hfront⟩ := List.getLast?_eq_some_iff.mp h.getLast
  refine ⟨fun hmem => ?_, fun hr => ?_⟩
  · rw [hfront, List.mem_append, List.mem_singleton] at hmem
    rcases hmem with hmem | hmem
    · obtain ⟨cause, hlost, -⟩ := h.lost (.ok ()) (by rw [hfront, List.dropLast_concat]; exact hmem)
      exact absurd hlost nofun
    · exact hmem.symm
  · rw [hfront, hr]
    exact List.mem_append_right front List.mem_cons_self

end Tries

namespace Player

section

variable {W : Type} {answer : (q : Question) → W → q.Answer × W}

/-- What is told to the bulb by a try. -/
def toldBy (snapshot : Snapshot) : Except BulbError Unit → List Call
  | .ok () => [.restoreSnapshot snapshot]
  | .error _ => []

/-- A single try: a connect, if there is no handle, and then the call. -/
theorem leads_tryRestore (snapshot : Snapshot) (p : Player) (w : W) :
    Leads answer (tryRestore snapshot) p w fun T r _ _ =>
      ∃ result, r = .ok result ∧ restoreSteps T = [.tried result] ∧
        told T = toldBy snapshot result := by
  have called : ∀ handle p w, Leads answer (ε := Halt) (ask (.call handle (.restoreSnapshot snapshot)))
      p w fun T r _ _ => ∃ result, r = .ok result ∧ restoreSteps T = [.tried result] ∧
        told T = toldBy snapshot result := by
    intro handle p w
    rw [leads_ask]
    generalize answer (.call handle (.restoreSnapshot snapshot)) w = a
    obtain ⟨result, w'⟩ := a
    cases result with
    | ok _ => exact ⟨.ok (), rfl, rfl, rfl⟩
    | error cause => exact ⟨.error cause, rfl, rfl, rfl⟩
  rw [tryRestore, reopenHandle, bind_assoc, leads_bind, leads_get]
  cases hp : p.handle with
  | some handle =>
    dsimp only
    rw [hp]
    exact called handle p w
  | none =>
    dsimp only
    rw [hp]
    show Leads answer (reconnect >>= _) _ _ _
    rw [reconnect, bind_assoc, leads_ask_bind]
    generalize answer .connect w = a
    obtain ⟨cause | handle, w₁⟩ := a
    · exact ⟨.error cause, rfl, rfl, rfl⟩
    · exact called handle _ _

theorem leads_waitBeforeRetry (cause : BulbError) (p : Player) (w : W) :
    Leads answer (waitBeforeRetry cause) p w fun T r _ _ =>
      r = .ok () ∧ restoreSteps T = [.waited] ∧ told T = [] :=
  ⟨rfl, rfl, rfl⟩

/-- Tries follow each other with a wait in between, and what is told to the bulb is what the last
one tells it. -/
theorem leads_restore (snapshot : Snapshot) (more : Nat) (p : Player) (w : W) :
    Leads answer (restore snapshot more) p w fun T r _ _ =>
      ∃ tries result, r = .ok result ∧ Tries (more + 1) tries result ∧
        restoreSteps T = (tries.map .tried).intersperse .waited ∧
        told T = toldBy snapshot result := by
  induction more generalizing p w with
  | zero =>
    refine (leads_tryRestore snapshot p w).mono fun T r _ _ h => ?_
    obtain ⟨result, hr, hsteps, htold⟩ := h
    exact ⟨[result], result, hr, .single fun _ => rfl, hsteps, htold⟩
  | succ more ih =>
    refine leads_bind.mpr ((leads_tryRestore snapshot p w).mono fun T r p₁ w₁ h => ?_)
    obtain ⟨result, rfl, hsteps, htold⟩ := h
    cases result with
    | ok _ =>
      have unlost : Lost (.ok ()) → more + 1 = 0 := fun h => absurd h.choose_spec.1 nofun
      refine ⟨[.ok ()], .ok (), rfl, .single unlost, ?_, ?_⟩
      · exact (List.append_nil _).symm ▸ hsteps
      · exact (List.append_nil _).symm ▸ htold
    | error cause =>
      by_cases conn : cause.isConnectivity = true
      · have hlost : Lost (.error cause) := ⟨cause, rfl, conn⟩
        dsimp only
        rw [if_neg (by rw [conn]; decide), leads_bind, leads_modify]
        refine leads_bind.mpr ((leads_waitBeforeRetry cause _ w₁).mono fun T₂ r₂ p₂ w₂ h₂ => ?_)
        obtain ⟨rfl, hsteps₂, htold₂⟩ := h₂
        refine (ih p₂ w₂).mono fun T₃ r₃ _ _ h₃ => ?_
        obtain ⟨tries, result, hr, htries, hsteps₃, htold₃⟩ := h₃
        refine ⟨_, result, hr, htries.cons hlost, ?_, ?_⟩
        · obtain ⟨r', rest, rfl⟩ := List.exists_cons_of_ne_nil htries.ne_nil
          rw [restoreSteps_append, List.nil_append, restoreSteps_append, hsteps, hsteps₂, hsteps₃]
          rfl
        · rw [told_append, List.nil_append, told_append, htold, htold₂, htold₃]
          rfl
      · have unlost : Lost (.error cause) → more + 1 = 0 := by
          rintro ⟨_, ⟨⟩, conn'⟩
          exact absurd conn' conn
        dsimp only
        rw [if_pos (by rw [Bool.eq_false_iff.mpr conn]; decide)]
        refine ⟨[.error cause], .error cause, rfl, .single unlost, ?_, ?_⟩
        · exact (List.append_nil _).symm ▸ hsteps
        · exact (List.append_nil _).symm ▸ htold

end

end Player

/-! ### Final failures -/

/-- A failure that is not worth retrying, in a list by itself. -/
def BulbError.final (cause : BulbError) : List BulbError :=
  if cause.isConnectivity then [] else [cause]

/-- The failures that are not worth retrying, in order. -/
def finals {S W : Type} (T : List (Turn S Question Question.Answer W)) : List BulbError :=
  T.flatMap fun t => t.failure?.elim [] BulbError.final

/-- The final failures so far are remembered, and no snapshot is put back. -/
def ledger (S W : Type) : Chronicle (List BulbError) S Question Question.Answer W where
  step m t := m ++ t.failure?.elim [] BulbError.final
  along _ t := ∀ c ∈ t.told?, c.isRestore = false

theorem ledger_after {S W : Type} (m : List BulbError)
    (T : List (Turn S Question Question.Answer W)) : (ledger S W).after m T = m ++ finals T := by
  induction T generalizing m with
  | nil => exact (List.append_nil m).symm
  | cons t T ih =>
    show (ledger S W).after (m ++ _) T = _
    rw [ih, List.append_assoc]
    rfl

theorem ledger_comap {S T W : Type} (f : S → T) : (ledger T W).comap f = ledger S W := by
  simp only [ledger, Chronicle.comap, Turn.failure?_mapAsker, Turn.told?_mapAsker]

theorem ledger_holds {S W : Type} {m : List BulbError}
    {T : List (Turn S Question Question.Answer W)} (h : (ledger S W).Holds m T) :
    ∀ c ∈ told T, c.isRestore = false := by
  induction T generalizing m with
  | nil => exact nofun
  | cons t T ih =>
    intro c hc
    obtain ⟨t', ht', htold⟩ := List.mem_filterMap.mp hc
    rcases List.mem_cons.mp ht' with rfl | ht'
    · exact h.1 c htold
    · exact ih h.2 c (List.mem_filterMap.mpr ⟨t', ht', htold⟩)

namespace Execution

variable {W : Type} (answer : (q : Question) → W → q.Answer × W)

/-- Executing a command, the bulb fails at most once, and that is what the execution fails with. -/
theorem ledger_calm (handle : Nat) : Calm answer (ledger PlaybackState W) (fun m _ _ => m = [])
    (fun cause m _ _ => m = cause.final) handle := by
  refine calm_of_send (keeps_ask fun m _ _ h => ⟨nofun, by rw [h]; rfl⟩)
    (fun _ _ => keeps_ask fun m _ _ h => ⟨nofun, by rw [h]; rfl⟩) (fun c puts => ?_)
    fun _ _ _ _ h => h
  intro m s w h
  rw [send, leads_ask_bind]
  generalize answer (.call handle c) w = a
  obtain ⟨result, w'⟩ := a
  cases result with
  | ok reply =>
    refine ⟨⟨fun c' hc' => ?_, trivial⟩, by rw [h]; rfl⟩
    rw [← Option.mem_some_iff.mp hc']
    exact puts
  | error cause => exact ⟨⟨nofun, trivial⟩, by rw [h]; rfl⟩

end Execution

/-- The final failures that a halted playback has met. -/
def Halt.finals : Halt → List BulbError
  | .failed cause => [cause]
  | .unfinished => []

/-- The final failures that passes ended with. -/
def finalsOf : Except Halt Unit → List BulbError
  | .ok () => []
  | .error halt => halt.finals

namespace Player

section

variable {W : Type} (answer : (q : Question) → W → q.Answer × W)

theorem ledger_unmoved : Unmoved answer (ledger Player W) (fun m _ _ => m = [])
    (fun cause m _ _ => m = cause.final) fun halt m _ _ => m = halt.finals where
  connect := takes_ask.mpr fun m p w h => by
    generalize answer .connect w = a
    obtain ⟨cause | handle, w'⟩ := a
    · exact ⟨nofun, by rw [h]; rfl⟩
    · exact ⟨nofun, by rw [h]; rfl⟩
  stopping := keeps_ask fun m _ _ h => ⟨nofun, by rw [h]; rfl⟩
  retrying _ := keeps_ask fun m _ _ h => ⟨nofun, by rw [h]; rfl⟩
  report _ := keeps_ask fun m _ _ h => ⟨nofun, by rw [h]; rfl⟩
  backoff _ _ _ _ h := h
  handle _ _ _ _ h := h
  reconnects _ _ _ _ h := h
  retry cause m _ _ conn h := by rw [h, BulbError.final, if_pos conn]
  final cause m _ _ final h := by rw [h, BulbError.final, if_neg (by rw [final]; decide)]; rfl
  unfinished _ _ _ h := h

theorem ledger_untouched : Untouched answer (ledger Player W) fun m _ _ => m = [] where
  stopping := keeps_ask fun m _ _ h => ⟨nofun, by rw [h]; rfl⟩
  report _ := keeps_ask fun m _ _ h => ⟨nofun, by rw [h]; rfl⟩
  pacing _ := keeps_ask fun m _ _ h => ⟨nofun, by rw [h]; rfl⟩
  idling _ := keeps_ask fun m _ _ h => ⟨nofun, by rw [h]; rfl⟩
  nextScript := keeps_ask fun m _ _ h => ⟨nofun, by rw [h]; rfl⟩
  summary _ _ _ _ h := h
  script _ _ _ _ h := h
  current _ _ _ _ h := h
  timeAdjust _ _ _ _ h := h

/-- Passes end with the first final failure, if there is one, and put no snapshot back. -/
theorem play_finals (fuel : Nat) (p : Player) (w : W) :
    Leads answer (play fuel) p w fun T r _ _ =>
      finals T = finalsOf r ∧
      ∀ c ∈ told T, c.isRestore = false := by
  have plays : Keeps answer (ledger Player W) (fun m _ _ => m = [])
      (fun halt m _ _ => m = halt.finals) (play fuel) := by
    refine (ledger_untouched answer).keeps_play (fun _ _ _ h => h) (fun cmd fuel => ?_) fuel
    refine (ledger_unmoved answer).keeps_dispatch (fun handle => takes_attempt fun p => ?_) fuel
    rw [ledger_comap]
    exact (Execution.ledger_calm answer handle).keeps_execute cmd
  refine (plays [] p w rfl).mono fun T r _ _ h => ?_
  obtain ⟨holds, accounted⟩ := h
  rw [ledger_after, List.nil_append] at accounted
  refine ⟨?_, ledger_holds holds⟩
  cases r with
  | ok _ => exact accounted
  | error halt => exact accounted

/-! ### The close -/

/-- The result of a playback from how its passes ended and how the restore did. -/
def closeResult (ended : Except Halt Unit) (restored : Except BulbError Unit) (summary : Summary) :
    Except Halt Summary :=
  match ended, restored with
  | .ok (), .ok () => .ok summary
  | .ok (), .error cause => .error (.failed cause)
  | .error halt, _ => .error halt

/-- A playback succeeds exactly if its passes met no final failure and the last try worked.  A final
failure of its passes is its result, and without one a failure of the last try is. -/
theorem closeResult_cases {ended : Except Halt Unit} (returned : ended ≠ .error .unfinished)
    (last : Except BulbError Unit) (summary : Summary) :
    ((∃ counts, closeResult ended last summary = .ok counts) ↔
      finalsOf ended = [] ∧ last = .ok ()) ∧
    (∀ cause ∈ finalsOf ended, closeResult ended last summary = .error (.failed cause)) ∧
    ∀ cause, finalsOf ended = [] → last = .error cause →
      closeResult ended last summary = .error (.failed cause) := by
  rcases ended with (cause | _) | _
  · refine ⟨⟨nofun, nofun⟩, fun cause' met => ?_, fun _ none => absurd none nofun⟩
    rw [List.mem_singleton.mp met]
    rfl
  · exact absurd rfl returned
  · refine ⟨?_, nofun, fun cause _ lost => by rw [lost]; rfl⟩
    cases last with
    | ok _ => exact ⟨fun _ => ⟨rfl, rfl⟩, fun _ => ⟨_, rfl⟩⟩
    | error cause => exact ⟨nofun, nofun⟩

theorem leads_close {ended : Except Halt Unit} (returned : ended ≠ .error .unfinished)
    (snapshot : Snapshot) (p : Player) (w : W) :
    Leads answer (close snapshot ended) p w fun T r p' _ =>
      ∃ tries last, r = closeResult ended last p'.summary ∧ Tries restoreTries tries last ∧
        restoreSteps T = (tries.map .tried).intersperse .waited ∧ told T = toldBy snapshot last := by
  rcases ended with halt | _
  · rcases halt with cause | _
    · rw [close, abandon, leads_ask_bind]
      refine leads_bind.mpr ((leads_restore snapshot (restoreTries - 1) p _).mono fun T r p' _ h => ?_)
      obtain ⟨tries, last, rfl, htries, hsteps, htold⟩ := h
      cases last with
      | ok _ =>
        refine ⟨tries, .ok (), rfl, htries, ?_, ?_⟩
        · exact (List.append_nil _).symm ▸ hsteps
        · exact (List.append_nil _).symm ▸ htold
      | error cause' =>
        refine ⟨tries, .error cause', rfl, htries, ?_, ?_⟩
        · show restoreSteps (T ++ [_]) = _
          rw [restoreSteps_append, hsteps]
          exact List.append_nil _
        · show told (T ++ [_]) = _
          rw [told_append, htold]
          rfl
    · exact absurd rfl returned
  · rw [close, finish]
    refine leads_bind.mpr ((leads_restore snapshot (restoreTries - 1) p w).mono fun T r p' _ h => ?_)
    obtain ⟨tries, last, rfl, htries, hsteps, htold⟩ := h
    cases last with
    | ok _ =>
      refine ⟨tries, .ok (), rfl, htries, ?_, ?_⟩
      · show restoreSteps (T ++ [_]) = _
        rw [restoreSteps_append, hsteps]
        exact List.append_nil _
      · show told (T ++ [_]) = _
        rw [told_append, htold]
        rfl
    | error cause' =>
      refine ⟨tries, .error cause', rfl, htries, ?_, ?_⟩
      · exact (List.append_nil _).symm ▸ hsteps
      · exact (List.append_nil _).symm ▸ htold

end

/-- After a start-up that succeeded, a playback that returns has put the snapshot back in at most
`restoreTries` tries.  It succeeds exactly if its passes met no final failure and one of the tries
worked; a final failure of its passes is its result however the restore went.  If one of the tries
worked, the last recorded call puts back what the light was before. -/
theorem run_restores (bulb path : String) (light : Light) (draws : Draws) (files : Files)
    (plot : Nat → List Deed) (script : Script) (backoff : Backoff) (fuel : Nat)
    {snapshot : Snapshot} {p₁ : Player} {w₁ : Performance}
    (begun : startUp.ending answer (new bulb script backoff)
      (.new bulb light draws files path plot) = ⟨.ok snapshot, p₁, w₁⟩)
    (returned : ((run fuel).ending answer (new bulb script backoff)
      (.new bulb light draws files path plot)).result ≠ .error .unfinished) :
    let p := new bulb script backoff
    let w := Performance.new bulb light draws files path plot
    let playing := (play fuel).turns answer p₁ w₁
    let done := (run fuel).ending answer p w
    ∃ closing tries last,
      (run fuel).turns answer p w = startUp.turns answer p w ++ (playing ++ closing) ∧
      restoreSteps closing = (tries.map .tried).intersperse .waited ∧
      Tries restoreTries tries last ∧
      ((∃ summary, done.result = .ok summary) ↔ finals playing = [] ∧ .ok () ∈ tries) ∧
      (∀ cause ∈ finals playing, done.result = .error (.failed cause)) ∧
      (∀ cause, finals playing = [] → last = .error cause →
        done.result = .error (.failed cause)) ∧
      (.ok () ∈ tries →
        (∃ before, done.world.bulb.calls = before ++ [.restoreSnapshot snapshot] ∧
          ∀ c ∈ before, c.isRestore = false) ∧
        done.world.bulb.light.on = light.on ∧ done.world.bulb.light.hsb = light.hsb ∧
        done.world.bulb.light.transition = light.transition) := by
  intro p w playing done
  have plain : w.Plain := rfl
  have start := begun_of_ending plain begun
  obtain ⟨ended, p₂, w₂, played⟩ :
      ∃ ended p₂ w₂, (play fuel).ending answer p₁ w₁ = ⟨ended, p₂, w₂⟩ := ⟨_, _, _, rfl⟩
  obtain ⟨hturns, hending⟩ := run_begun begun played
  have ended_returned : ended ≠ .error .unfinished := by
    rintro rfl
    exact returned (congrArg Ending.result hending)
  have closed := leads_close answer ended_returned snapshot p₂ w₂
  rw [leads_iff, ← hending] at closed
  obtain ⟨tries, last, hresult, htries, hsteps, htold⟩ := closed
  have playing_finals := play_finals answer fuel p₁ w₁
  rw [leads_iff, played] at playing_finals
  obtain ⟨hfinals, hunrestored⟩ := playing_finals
  change done.result = _ at hresult
  change finals playing = _ at hfinals
  obtain ⟨succeeds, fails, stuck⟩ := closeResult_cases ended_returned last done.state.summary
  rw [← hresult, ← hfinals] at succeeds fails stuck
  refine ⟨_, tries, last, hturns, hsteps, htries, ?_, fails, stuck, fun worked => ?_⟩
  · rw [htries.ok_mem_iff, succeeds]
  · -- the light is what the recorded calls make of it, and the last of them is the restore
    have hlast : last = .ok () := htries.ok_mem_iff.mp worked
    have record := (leads_record plain (run fuel) p).2
    rw [hturns, told_append, told_append, start.told_eq, htold, hlast,
      ← List.append_assoc openingCalls] at record
    have calls : done.world.bulb.calls =
        openingCalls ++ told playing ++ [.restoreSnapshot snapshot] := congrArg Prod.fst record
    have settings : done.world.bulb.light =
        ((openingCalls ++ told playing).foldl Light.after light).after
          (.restoreSnapshot snapshot) :=
      (congrArg Prod.snd record).trans List.foldl_append
    rw [start.snapshot_eq] at settings
    refine ⟨⟨_, calls, fun c hc => ?_⟩, ?_⟩
    · have opening : ∀ c ∈ openingCalls, c.isRestore = false := by decide
      exact (List.mem_append.mp hc).elim (opening c) (hunrestored c)
    · rw [settings]
      exact ⟨rfl, rfl, rfl⟩

/-- A lamp that is stopped while it idles, and twice cannot be reached when it is put back. -/
theorem run_restores_after_outage :
    let p := new "lamp" ⟨[]⟩ .usual
    let w := Performance.ofLamp fun
      | 8 => [.stop]
      | 9 => [.failCalls 1, .failConnects 1]
      | _ => []
    let done := (run 3).ending answer p w
    done.result = .ok ⟨1, 0, 1⟩ ∧ done.world.bulb.light.on = false ∧
      ∃ tries last, Tries restoreTries tries last ∧ .ok () ∈ tries := by
  intro p w done
  have returned : done.result = .ok ⟨1, 0, 1⟩ := rfl
  let begun := startUp.ending answer p w
  obtain ⟨closing, tries, last, -, -, htries, worked, -, -, settings⟩ :=
    run_restores "lamp" "show.ls" .dark (.start [] 0) (.empty []) _ ⟨[]⟩ .usual 3
      (show startUp.ending answer p w = ⟨.ok Light.dark.snapshot, begun.state, begun.world⟩ from rfl)
      (show done.result ≠ _ by rw [returned]; nofun)
  have ok := (worked.mp ⟨_, returned⟩).2
  exact ⟨returned, (settings ok).2.1, tries, last, htries, ok⟩

end Player

end Lightshow
