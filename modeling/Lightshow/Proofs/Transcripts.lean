/-
Whole playbacks, from the start-up to the close.

What comes before the first round is the start-up, and what comes after the last one is the close.
Neither asks what only passes ask, so the turns of a playback are all accounted for: each look for a
script and each wait after a command stands in one of the rounds.

* `Opens`, `Closes` -- what a start-up and a close may do;
* `Transcript.Sound` -- the turns of a playback by what they are for;
* `exists_transcript` -- every playback is a start-up, rounds, and a close;
* `passes_keep_schedule` -- the acts of every round, and what a playback counts.
-/
import Lightshow.Proofs.Rounds
import Mathlib.Data.List.Basic

namespace Lightshow

open Talk Performance

namespace Player

/-! ### Start-up and close -/

/-- A turn of a start-up. -/
def Opens (t : Scene) : Prop := t.isOfPasses = false ∧ ∀ c ∈ t.sent?, c ∈ openingCalls

/-- A turn of a close. -/
def Closes (t : Scene) : Prop := t.isOfPasses = false ∧ ∀ c ∈ t.sent?, c.isRestore = true

section

variable {ε : Type} {q : Player} {good : Scene → Prop}

/-- What is known after turns that are good one by one. -/
theorem leads_of_takes {α : Type} {x : Talk ε Player Question Question.Answer α} {p : Player}
    {w : Performance} {pre : List Scene → Player → Performance → Prop}
    {post : Except ε α → List Scene → Player → Performance → Prop}
    (h : Takes answer (.whole fun _ => good) pre x post) (hp : pre [] p w) :
    Leads answer x p w fun T r p' w' => (∀ t ∈ T, good t) ∧ post r T p' w' := by
  refine (h [] p w hp).mono fun T r p' w' hT => ⟨fun t ht => ?_, ?_⟩
  · obtain ⟨before, after, split⟩ := List.append_of_mem ht
    exact Chronicle.good_of_whole hT.1 split
  · rw [← List.nil_append T, ← Chronicle.whole_after fun _ => good]
    exact hT.2

/-- A question whose turn is good leaves the player where it is. -/
theorem keeps_good_ask {quest : Question} (h : ∀ p w, good ⟨p, quest, (answer quest w).1, w⟩) :
    Surely answer (ε := ε) (.whole fun _ => good) (fun _ p _ => Later 0 q p) (Talk.ask quest) :=
  keeps_ask fun _ p w hp => ⟨h p w, hp⟩

theorem takes_good_call {handle : Nat} {c : Call} (h : ∀ p r w, good ⟨p, .call handle c, r, w⟩) :
    Takes answer (ε := Halt) (.whole fun _ => good) (fun _ p _ => Later 0 q p)
      (ask (.call handle c)) (outcome (fun _ _ p _ => Later 0 q p) fun cause m p _ =>
        Later 0 q p ∧ Met cause m) :=
  takes_call (fun _ p w _ hp _ => ⟨h p _ w, hp⟩) fun m p w _ hp _ =>
    ⟨h p _ w, hp, _, List.mem_append_right m (List.mem_singleton_self _), rfl⟩

theorem takes_good_connect (h : ∀ p r w, good ⟨p, .connect, r, w⟩) :
    Takes answer (ε := Halt) (.whole fun _ => good) (fun _ p _ => Later 0 q p) (ask .connect)
      (outcome (fun _ _ p _ => Later 0 q p) fun cause m p _ => Later 0 q p ∧ Met cause m) :=
  takes_connect (fun _ p w _ hp _ => ⟨h p _ w, hp⟩) fun m p w _ hp _ =>
    ⟨h p _ w, hp, _, List.mem_append_right m (List.mem_singleton_self _), rfl⟩

end

theorem startUp_opens (p : Player) (w : Performance) :
    Leads answer startUp p w fun T r p' _ => (∀ t ∈ T, Opens t) ∧
      ((∃ snapshot, r = .ok snapshot ∧ Later 0 p p') ∨
        ∃ cause, r = .error (.failed cause) ∧ Met cause T) := by
  have opens {handle : Nat} {c : Call} (h : c ∈ openingCalls) (p : Player)
      (r : Except BulbError c.Reply) (w : Performance) : Opens ⟨p, .call handle c, r, w⟩ :=
    ⟨rfl, fun c' hc' => Option.mem_some_iff.mp hc' ▸ h⟩
  have starts : Takes answer (.whole fun _ => Opens) (fun _ p' _ => Later 0 p p') startUp
      (atEnd (fun _ _ p' _ => Later 0 p p') fun halt m _ _ =>
        ∃ cause, halt = .failed cause ∧ Met cause m) :=
    Playing.takes_startUp
      (takes_good_connect fun _ _ _ => ⟨rfl, nofun⟩)
      (fun _ => takes_good_call (opens (by simp [openingCalls])))
      (fun _ _ => keeps_good_ask fun _ _ => ⟨rfl, nofun⟩)
      (fun _ => takes_good_call (opens (by simp [openingCalls])))
      (fun _ _ => takes_good_call (opens (by simp [openingCalls])))
      (fun _ _ _ _ _ h => ⟨h.script, h.passes, h.commands⟩)
      fun cause _ _ _ h => ⟨cause, rfl, h.2⟩
  refine (leads_of_takes starts (.refl p)).mono fun T r p' w' h => ⟨h.1, ?_⟩
  cases r with
  | ok snapshot => exact .inl ⟨snapshot, rfl, h.2⟩
  | error halt =>
    obtain ⟨cause, rfl, met⟩ := h.2
    exact .inr ⟨cause, rfl, met⟩

/-- Putting the snapshot back counts nothing, and it fails only because of a failure that it has met. -/
theorem restore_closes (snapshot : Snapshot) (p : Player) (w : Performance) :
    Leads answer (restore snapshot (restoreTries - 1)) p w fun T r p' _ => (∀ t ∈ T, Closes t) ∧
      Later 0 p p' ∧ ∃ result, r = .ok result ∧ ∀ cause, result = .error cause → Met cause T := by
  let here : List Scene → Player → Performance → Prop := fun _ p' _ => Later 0 p p'
  let lost : BulbError → List Scene → Player → Performance → Prop :=
    fun cause m p' _ => Later 0 p p' ∧ Met cause m
  have report (message : Message) : Surely answer (ε := Halt) (.whole fun _ => Closes) here
      (ask (.report message)) := keeps_good_ask fun _ _ => ⟨rfl, nofun⟩
  have recovers : Playing.Recovers answer (.whole fun _ => Closes) here (fun _ _ _ _ => True) lost lost
      fun _ => here :=
    { lost_of_unopened := fun _ _ _ _ h => h
      retry := fun _ _ _ _ _ h => h.1
      drop := fun _ _ _ _ _ h => ⟨h.1.script, h.1.passes, h.1.commands⟩
      wait := fun cause => Playing.keeps_waitBeforeRetry
        (fun _ _ _ _ h => ⟨h.script, h.passes, h.commands⟩) report
        (fun length => keeps_good_ask fun _ _ => ⟨rfl, nofun⟩) cause
      final := fun _ _ _ _ _ _ => trivial
      unfinished := fun _ _ _ _ => trivial }
  have reopens : Takes answer (.whole fun _ => Closes) here reopenHandle (outcome (fun _ => here) lost) :=
    Playing.takes_reopenHandle (fun _ _ _ _ _ h => h) (fun _ _ _ _ h => h)
      (Playing.takes_reconnect (takes_good_connect fun _ _ _ => ⟨rfl, nofun⟩) (fun _ => report)
        fun _ _ _ _ h => ⟨h.script, h.passes, h.commands⟩)
  have put (handle : Nat) : Takes answer (ε := Halt) (.whole fun _ => Closes) here
      (ask (.call handle (.restoreSnapshot snapshot))) (outcome (fun _ => here) lost) :=
    takes_good_call fun _ _ _ => ⟨rfl, fun c hc => Option.mem_some_iff.mp hc ▸ rfl⟩
  have restores := recovers.takes_restore reopens put (restoreTries - 1)
  refine (leads_of_takes restores (.refl p)).mono fun T r p' w' h => ⟨h.1, ?_⟩
  rcases r with _ | cause | _
  · exact h.2.elim
  · exact ⟨h.2.1, _, rfl, fun _ same => Except.error.inj same ▸ h.2.2⟩
  · exact ⟨h.2, _, rfl, nofun⟩

/-- A close counts nothing, and it fails as the passes did, or because of a failure that it has met. -/
theorem close_closes (snapshot : Snapshot) (ended : Except Halt Unit) (p : Player) (w : Performance) :
    Leads answer (close snapshot ended) p w fun T r _ _ => (∀ t ∈ T, Closes t) ∧
      ((∃ counts, r = .ok counts ∧ ended = .ok () ∧ counts.passes = p.summary.passes ∧
        counts.commands = p.summary.commands) ∨
      (∃ halt, r = .error halt ∧ ended = .error halt) ∨
      ∃ cause, r = .error (.failed cause) ∧ ended = .ok () ∧ Met cause T) := by
  have reported (p : Player) (message : Message) (w : Performance) :
      Closes ⟨p, .report message, (), w⟩ := ⟨rfl, nofun⟩
  rcases ended with (cause | _) | _
  · show Leads answer (ask (.report _) >>= _) _ _ _
    rw [leads_ask_bind]
    refine leads_bind.mpr ((restore_closes snapshot p _).mono fun T r _ w₁ h => ?_)
    obtain ⟨closes, -, result, rfl, -⟩ := h
    have more {T' : List Scene} (closes' : ∀ t ∈ T', Closes t) :
        ∀ t ∈ (⟨p, .report (.playbackFailed cause), (), w⟩ : Scene) :: (T ++ T'), Closes t :=
      List.forall_mem_cons.mpr ⟨reported .., List.forall_mem_append.mpr ⟨closes, closes'⟩⟩
    cases result with
    | ok _ => exact ⟨more (List.forall_mem_nil _), .inr (.inl ⟨_, rfl, rfl⟩)⟩
    | error cause' =>
      exact ⟨more (List.forall_mem_singleton.mpr (reported ..)), .inr (.inl ⟨_, rfl, rfl⟩)⟩
  · exact ⟨List.forall_mem_nil _, .inr (.inl ⟨_, rfl, rfl⟩)⟩
  · show Leads answer (restore snapshot (restoreTries - 1) >>= _) _ _ _
    refine leads_bind.mpr ((restore_closes snapshot p w).mono fun T r p₁ w₁ h => ?_)
    obtain ⟨closes, later, result, rfl, met⟩ := h
    cases result with
    | error cause =>
      obtain ⟨t, ht, failed⟩ := met cause rfl
      refine ⟨List.forall_mem_append.mpr ⟨closes, List.forall_mem_nil _⟩, .inr (.inr ?_)⟩
      exact ⟨cause, rfl, rfl, t, List.mem_append_left _ ht, failed⟩
    | ok _ =>
      refine ⟨List.forall_mem_append.mpr ⟨closes, List.forall_mem_singleton.mpr (reported ..)⟩, .inl ?_⟩
      exact ⟨_, rfl, rfl, later.passes, later.commands⟩

/-! ### Whole playbacks -/

/-- The turns of a playback, by what they are for. -/
structure Transcript where
  /-- The start-up. -/
  opening : List Scene
  rounds : List Round
  /-- The look for a stop that ended the passes, if it found one. -/
  stop : Option Scene
  closing : List Scene

namespace Transcript

/-- All turns of a playback. -/
def turns (s : Transcript) : List Scene :=
  s.opening ++ (s.rounds.flatMap Round.turns ++ (s.stop.toList ++ s.closing))

/-- Passes are played in rounds only; a playback with counts has been stopped, one that runs out of fuel
has had as many turns, and one that fails has met the failure. -/
structure Sound (s : Transcript) (fuel : Nat) (result : Except Halt Summary) : Prop where
  opening : ∀ t ∈ s.opening, Opens t
  closing : ∀ t ∈ s.closing, Closes t
  found : ∀ t ∈ s.stop, t.check? = some true
  stopped : ∀ counts, result = .ok counts → s.stop.isSome
  unfinished : result = .error .unfinished → fuel ≤ s.turns.length
  failed : ∀ cause, result = .error (.failed cause) → Met cause s.turns

end Transcript

/-- What the looks for a script tell is told by the rounds, one after the other. -/
theorem Transcript.Sound.filterMap_turns {X : Type} {s : Transcript} {fuel : Nat}
    {result : Except Halt Summary} {tells : Scene → Option X} (h : s.Sound fuel result)
    (plays : ∀ r ∈ s.rounds, ∃ played, r.Plays played) (silent : ∀ t : Scene, ¬t.Looks → tells t = none) :
    s.turns.filterMap tells = s.rounds.filterMap fun r => tells r.look := by
  have unlooked {T : List Scene} (not_looks : ∀ t ∈ T, ¬t.Looks) : T.filterMap tells = [] :=
    List.filterMap_eq_nil_iff.mpr fun t ht => silent t (not_looks t ht)
  have opening := unlooked fun t ht => Turn.not_looks_of_isOfPasses (h.opening t ht).1
  have closing := unlooked fun t ht => Turn.not_looks_of_isOfPasses (h.closing t ht).1
  have stop : s.stop.toList.filterMap tells = [] := unlooked fun t ht =>
    Turn.not_looks_of_check (h.found t (Option.mem_toList.mp ht))
  have round (r : Round) (hr : r ∈ s.rounds) : r.turns.filterMap tells = (tells r.look).toList := by
    obtain ⟨played, hplayed⟩ := plays r hr
    have check := silent r.check (Turn.not_looks_of_check hplayed.check)
    rw [Round.turns, List.filterMap_cons_none check, List.filterMap_cons, unlooked hplayed.not_looks]
    cases tells r.look <;> rfl
  rw [Transcript.turns, List.filterMap_append, List.filterMap_append, List.filterMap_append, opening,
    closing, stop, List.filterMap_flatMap, List.filterMap_eq_flatMap_toList, List.nil_append,
    List.append_nil, List.append_nil]
  exact List.flatMap_congr round

/-- A playback is a start-up, rounds, and a close. -/
theorem exists_transcript (fuel : Nat) (p : Player) (w : Performance) :
    let result := ((run fuel).ending answer p w).result
    ∃ s : Transcript, (run fuel).turns answer p w = s.turns ∧ s.Sound fuel result ∧
      Series result p.script s.rounds ∧
      ∀ counts, result = .ok counts → counts.passes = p.summary.passes + s.rounds.length ∧
        counts.commands = p.summary.commands + (s.rounds.flatMap Round.acts).length := by
  intro result
  have opening := startUp_opens p w
  rw [leads_iff] at opening
  rcases begun : startUp.ending answer p w with ⟨r, p₁, w₁⟩
  rw [begun] at opening
  obtain ⟨opens, ⟨snapshot, rfl, later⟩ | ⟨cause, rfl, met⟩⟩ := opening
  · rcases played : (play fuel).ending answer p₁ w₁ with ⟨ended, p₂, w₂⟩
    obtain ⟨turns, ending⟩ := run_begun begun played
    have passes := leads_play fuel (p := p₁) (w := w₁)
    have closing := close_closes snapshot ended p₂ w₂
    rw [leads_iff, played] at passes
    rw [leads_iff, ← ending] at closing
    change _ ∧ ((∃ counts, result = _ ∧ _) ∨ (∃ halt, result = _ ∧ _) ∨ ∃ cause, result = _ ∧ _) at closing
    obtain ⟨rounds, stop, passes⟩ := passes
    obtain ⟨closes, closing⟩ := closing
    let s : Transcript := ⟨startUp.turns answer p w, rounds, stop,
      (close snapshot ended).turns answer p₂ w₂⟩
    have whole : s.turns = startUp.turns answer p w ++ ((play fuel).turns answer p₁ w₁ ++ s.closing) := by
      rw [passes.turns, List.append_assoc]
      rfl
    refine ⟨s, turns.trans whole.symm, ?_⟩
    rw [← later.script]
    -- the result is the counts, or how the passes have ended, or what the close could not get through
    obtain ⟨counts, hr, rfl, sum⟩ | ⟨halt, hr, rfl⟩ | ⟨cause, hr, rfl, met⟩ := closing
    · rw [hr]
      refine ⟨⟨opens, closes, passes.found, fun _ _ => passes.stopped rfl, nofun, nofun⟩,
        passes.series.mono nofun, fun _ same => ?_⟩
      obtain rfl := Except.ok.inj same
      rw [sum.1, sum.2, passes.passes, passes.commands, later.passes, later.commands]
      exact ⟨rfl, rfl⟩
    · rw [hr]
      have same (halt' : Halt) (halted : (.error halt : Except Halt Summary) = .error halt') :
          (.error halt : Except Halt Unit) = .error halt' := congrArg _ (Except.error.inj halted)
      refine ⟨⟨opens, closes, passes.found, nofun, fun unfinished => ?_, fun cause failed => ?_⟩,
        passes.series.mono fun _ halted => congrArg _ (Except.error.inj halted), nofun⟩
      · have enough := passes.unfinished (same _ unfinished)
        rw [whole, List.length_append, List.length_append]
        omega
      · rw [whole]
        exact ((passes.failed cause (same _ failed)).append_left _).append_right _
    · rw [hr]
      refine ⟨⟨opens, closes, passes.found, nofun, nofun, fun cause' same => ?_⟩,
        passes.series.mono nofun, nofun⟩
      obtain rfl := Halt.failed.inj (Except.error.inj same)
      rw [whole]
      exact (met.append_right _).append_right _
  · obtain ⟨turns, ending⟩ : (run fuel).turns answer p w = _ ∧ _ := run_failed begun
    have hr : result = .error (.failed cause) := congrArg Ending.result ending
    have whole : startUp.turns answer p w ++ [] = startUp.turns answer p w := List.append_nil _
    rw [hr]
    refine ⟨⟨startUp.turns answer p w, [], none, []⟩, turns.trans whole.symm, ⟨opens, List.forall_mem_nil _,
      fun t ht => absurd ht (Option.not_mem_none t), nofun, nofun, fun cause' same => ?_⟩, .nil, nofun⟩
    obtain rfl := Halt.failed.inj (Except.error.inj same)
    exact met.append_left []

/-- Every playback is a start-up, rounds, and a close.  In every round the commands of its script are
carried out in their order, each exactly once, with the wait that the commands of the pass up to it give
it, and all of them unless a stop is found or the round is the last one and playback breaks off in it. A
playback with counts has counted its rounds and their acts. -/
theorem passes_keep_schedule (bulb path : String) (light : Light) (draws : Draws) (files : Files)
    (plot : Nat → List Deed) (script : Script) (backoff : Backoff) (fuel : Nat) :
    let p := new bulb script backoff
    let w := Performance.new bulb light draws files path plot
    let result := ((run fuel).ending answer p w).result
    ∃ s : Transcript, (run fuel).turns answer p w = s.turns ∧ s.Sound fuel result ∧
      (∀ before r after, s.rounds = before ++ r :: after → ∃ played, r.Plays played ∧
        (∀ a ∈ r.acts, a.Once) ∧
        (r.Ends played ∨ after = [] ∧ ∃ halt, result = .error halt ∧ r.Breaks halt)) ∧
      ∀ counts, result = .ok counts → counts.passes = s.rounds.length ∧
        counts.commands = (s.rounds.flatMap Round.acts).length := by
  intro p w result
  obtain ⟨s, turns, sound, series, counted⟩ := exists_transcript fuel p w
  refine ⟨s, turns, sound, fun before r after split => ?_, fun counts hr => ?_⟩
  · rw [split] at series
    obtain ⟨-, played, plays, ends⟩ := series.at
    exact ⟨played, plays, fun a ha => (plays.acts a ha).once, ends⟩
  · obtain ⟨passes, commands⟩ := counted counts hr
    exact ⟨passes.trans (Nat.zero_add _), commands.trans (Nat.zero_add _)⟩

/-- A lamp that is lost at the second command of a pass, and found again: that pass and the next one wait
equally long after their commands. -/
theorem passes_keep_schedule_through_loss :
    let script : Script := ⟨[⟨1, .timeAdjust, [3]⟩, ⟨2, .fade, [1]⟩]⟩
    let p := new "lamp" script .usual
    let w := Performance.ofLamp fun
      | 12 => [.failCalls 1]
      | 30 => [.stop]
      | _ => []
    let turns := (run 4).turns answer p w
    let paces := [(⟨1, .timeAdjust, [3]⟩, .ofNanos 133333333), (⟨2, .fade, [1]⟩, .ofNanos 166666667)]
    ((run 4).ending answer p w).result.toOption = some ⟨2, 4, 1⟩ ∧
    (turns.filterMap Turn.failure?).length = 1 ∧
    ∃ (s : Transcript) (r r' : Round), turns = s.turns ∧ s.rounds = [r, r'] ∧ r.Plays script ∧
      r'.Plays script ∧ r.paces = paces ∧ r'.paces = paces := by
  intro script p w turns paces
  have counts : ((run 4).ending answer p w).result.toOption = some ⟨2, 4, 1⟩ := by decide +kernel
  obtain ⟨s, hturns, sound, rounds, counted⟩ := passes_keep_schedule "lamp" "show.ls" .dark
    (.start [] 0) (.empty []) _ script .usual 4
  change turns = s.turns at hturns
  obtain ⟨passes, commands⟩ := counted _ (ok_of_toOption counts)
  obtain ⟨r, r', two⟩ := List.length_eq_two.mp passes.symm
  obtain ⟨played, plays, -⟩ := rounds [] r [r'] two
  obtain ⟨played', plays', -⟩ := rounds [r] r' [] two
  have each : ∀ r ∈ s.rounds, ∃ played, r.Plays played := by
    rw [two]
    exact List.forall_mem_cons.mpr ⟨⟨_, plays⟩, List.forall_mem_singleton.mpr ⟨_, plays'⟩⟩
  have scripts : turns.filterMap Turn.script? = [script, script] := by decide +kernel
  rw [hturns, sound.filterMap_turns each fun _ => Turn.script?_of_not_looks, two, List.filterMap_cons,
    plays.look, List.filterMap_cons, plays'.look] at scripts
  obtain ⟨rfl, rfl⟩ : played = script ∧ played' = script := by simpa using scripts
  have waits : schedule script.commands = paces := by decide +kernel
  have order : r.paces <+: paces := waits ▸ plays.order
  have order' : r'.paces <+: paces := waits ▸ plays'.order
  rw [two, List.flatMap_cons, List.flatMap_singleton, List.length_append] at commands
  -- four commands were counted, and neither round can have more than two of them
  have whole : r.paces.length = 2 ∧ r'.paces.length = 2 := by
    have := order.length_le
    have := order'.length_le
    simp only [Round.paces, List.length_map, paces, List.length_cons, List.length_nil] at *
    omega
  exact ⟨counts, by decide +kernel, s, r, r', hturns, two, plays, plays', order.eq_of_length whole.1,
    order'.eq_of_length whole.2⟩

end Player

end Lightshow
