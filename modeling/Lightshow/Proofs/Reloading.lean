/-
Which script a pass plays.

Scripts are left for playback from outside, by a reload that works or by hand, at any time and as
often as one likes; there is one place for them, and playback looks there once in every pass.  So a
pass plays the script that was left last before its look, or the first one of all, and it plays
that script as long as the pass goes on.

* `Stage.after_reload`, `Stage.after_failed_reload` -- what a reload does;
* `answer_nextScript`, `answer_pending` -- what the place holds, and what a look takes;
* `pending_of_split`, `look?_of_split` -- both follow from the turns before;
* `Transcript.look?_of_rounds` -- a look takes what was left since the look before;
* `passes_play_latest` -- the script of a pass, and what becomes of a script that was left.
-/
import Lightshow.Proofs.Transcripts
import Mathlib.Data.List.Induction

namespace Lightshow

open Talk Performance

/-! ### Scripts that are left -/

namespace Stage

/-- The script that a deed leaves, if it leaves one. -/
def left? (s : Stage) : Deed → Option Script
  | .signal .reload => (Script.load s.files s.scriptPath).toOption
  | .submit script => some script
  | _ => none

/-- The scripts that deeds leave, one deed after the other. -/
def lefts (s : Stage) : List Deed → List Script
  | [] => []
  | d :: ds => (s.left? d).toList ++ (s.after d).lefts ds

variable {s : Stage} {script : Script} {cause : ScriptError}

/-- A reload that finds a script is reported, and leaves the script. -/
theorem after_reload (works : Script.load s.files s.scriptPath = .ok script) :
    s.after (.signal .reload) =
      { s.after (.submit script) with reports := .reloading s.scriptPath :: s.reports } := by
  rw [after, Signal.handle, works]
  rfl

/-- A reload that finds no script is reported, and changes nothing else. -/
theorem after_failed_reload (failed : Script.load s.files s.scriptPath = .error cause) :
    s.after (.signal .reload) =
      { s with reports := .reloadFailed cause :: .reloading s.scriptPath :: s.reports } := by
  rw [after, Signal.handle, failed]
  rfl

/-- A script that was found is still left when the file is gone and cannot be loaded again. -/
theorem foldl_after_reloads (works : Script.load s.files s.scriptPath = .ok script)
    (failed : Script.load (s.files.remove s.scriptPath) s.scriptPath = .error cause) :
    [.signal .reload, .replaceFile none, .signal .reload].foldl after s =
      { s.after (.submit script) with
        files := s.files.remove s.scriptPath
        reports := .reloadFailed cause :: .reloading s.scriptPath :: .reloading s.scriptPath ::
          s.reports } := by
  rw [List.foldl_cons, List.foldl_cons, List.foldl_cons, List.foldl_nil, after_reload works]
  exact after_failed_reload failed

theorem after_pending (s : Stage) (d : Deed) :
    (s.after d).studio.control.pending = (s.left? d).or s.studio.control.pending := by
  cases d with
  | signal signal =>
    cases signal with
    | reload =>
      cases load : Script.load s.files s.scriptPath with
      | ok script =>
        rw [after_reload load, left?, load]
        rfl
      | error cause =>
        rw [after_failed_reload load, left?, load]
        rfl
    | _ => rfl
  | replaceFile entry => cases entry <;> rfl
  | _ => rfl

/-- Of several scripts that are left, the last one stays. -/
theorem foldl_after_pending (s : Stage) (ds : List Deed) :
    (ds.foldl after s).studio.control.pending =
      (s.lefts ds).getLast?.or s.studio.control.pending := by
  induction ds generalizing s with
  | nil => rfl
  | cons d ds ih =>
    rw [List.foldl_cons, ih, after_pending, lefts, List.getLast?_append, Option.or_assoc]
    cases s.left? d <;> rfl

end Stage

namespace Performance

/-- The script that is left for the next pass. -/
def pending (w : Performance) : Option Script := w.stage.studio.control.pending

/-- The scripts that are left before the next question. -/
def lefts (w : Performance) : List Script := w.stage.lefts (w.plot 0)

theorem answer_pending (w : Performance) {q : Question} (h : q ≠ .nextScript) :
    (answer q w).2.pending = w.lefts.getLast?.or w.pending := by
  show (w.met.serve q).2.studio.control.pending = _
  rw [Stage.serve_control h]
  exact w.stage.foldl_after_pending (w.plot 0)

/-- A look for a script takes what was left last. -/
theorem answer_nextScript (w : Performance) :
    (answer .nextScript w).1 = w.lefts.getLast?.or w.pending ∧
      (answer .nextScript w).2.pending = none :=
  ⟨w.stage.foldl_after_pending (w.plot 0), rfl⟩

end Performance

/-! ### What a look takes -/

/-- What a look for a script took, if the turn is one. -/
def Turn.look? {S W : Type} : Turn S Question Question.Answer W → Option (Option Script)
  | ⟨_, .nextScript, left, _⟩ => some left
  | _ => none

theorem Turn.script?_of_look? {W : Type} {t : Turn Player Question Question.Answer W}
    {left : Option Script} (h : t.look? = some left) : t.script? = some (left.getD t.asker.script) := by
  obtain ⟨p, q, r, w⟩ := t
  cases q with
  | nextScript => exact congrArg (fun left => some (Option.getD left p.script)) (Option.some.inj h)
  | _ => exact absurd h nofun

theorem Turn.looks_of_script? {W : Type} {t : Turn Player Question Question.Answer W} {script : Script}
    (h : t.script? = some script) : t.Looks := by
  obtain ⟨p, q, r, w⟩ := t
  cases q with
  | nextScript => exact rfl
  | _ => exact absurd h nofun

theorem Turn.look?_of_not_looks {S W : Type} {t : Turn S Question Question.Answer W} (h : ¬t.Looks) :
    t.look? = none := by
  obtain ⟨s, q, r, w⟩ := t
  cases q with
  | nextScript => exact absurd rfl h
  | _ => rfl

/-- The scripts that were left up to the last of some turns, in order. -/
def lefts {S : Type} (T : List (Turn S Question Question.Answer Performance)) : List Script :=
  T.flatMap fun t => t.world.lefts

/-- The script that is left for the next pass after a turn, and the one before it. -/
def leftAfter {S : Type} (left : Option Script) (t : Turn S Question Question.Answer Performance) :
    Option Script :=
  if t.look?.isSome then none else t.world.lefts.getLast?.or left

section

variable {S α : Type} {T T' : List (Turn S Question Question.Answer Performance)}
variable {t : Turn S Question Question.Answer Performance}

theorem lefts_append : lefts (T ++ T') = lefts T ++ lefts T' := List.flatMap_append

theorem lefts_cons : lefts (t :: T) = t.world.lefts ++ lefts T := List.flatMap_cons

theorem getLast?_lefts_concat :
    (lefts (T ++ [t])).getLast? = t.world.lefts.getLast?.or (lefts T).getLast? := by
  rw [lefts_append, List.getLast?_append, lefts_cons, lefts, List.flatMap_nil, List.append_nil]

theorem leftAfter_of_looks (left : Option Script) (h : t.Looks) : leftAfter left t = none := by
  obtain ⟨s, q, r, w⟩ := t
  obtain rfl : q = .nextScript := h
  rfl

theorem leftAfter_of_not_looks (left : Option Script) (h : ¬t.Looks) :
    leftAfter left t = t.world.lefts.getLast?.or left := by
  obtain ⟨s, q, r, w⟩ := t
  cases q with
  | nextScript => exact absurd rfl h
  | _ => rfl

/-- As long as there is no look, what was left last stays. -/
theorem foldl_leftAfter (left : Option Script) (not_looks : ∀ t ∈ T, ¬t.Looks) :
    T.foldl leftAfter left = (lefts T).getLast?.or left := by
  induction T generalizing left with
  | nil => rfl
  | cons t T ih =>
    obtain ⟨here, later⟩ := List.forall_mem_cons.mp not_looks
    rw [List.foldl_cons, ih _ later, leftAfter_of_not_looks left here, lefts_cons, List.getLast?_append,
      Option.or_assoc]

variable {x : Dialogue S Question Question.Answer α} {w : Performance}

/-- What is left for the next pass at a turn follows from the turns before it. -/
theorem pending_of_split (split : x.turns answer w = T ++ t :: T') :
    t.world.pending = T.foldl leftAfter w.pending := by
  refine (Dialogue.view_follows pending (fun _ => True) (fun s q w _ => ⟨?_, trivial⟩) x trivial).2
    T t T' split
  by_cases look : q = .nextScript
  · subst look
    exact (answer_nextScript w).2
  · rw [leftAfter_of_not_looks (t := ⟨s, q, _, w⟩) _ look]
    exact answer_pending w look

/-- A look takes what was left last. -/
theorem look?_of_split (split : x.turns answer w = T ++ t :: T') (looks : t.Looks) :
    t.look? = some (t.world.lefts.getLast?.or (T.foldl leftAfter w.pending)) := by
  rw [← pending_of_split split, ← (answer_nextScript t.world).1]
  obtain ⟨answered, -⟩ := Dialogue.turns_split split
  obtain ⟨s, q, r, v⟩ := t
  obtain rfl : q = .nextScript := looks
  exact congrArg some answered

end

/-! ### A directory with one script -/

/-- A working directory with a script of one command in it. -/
def Files.ofShow : Files := ⟨[], [(["show.ls"], .file "[2, ['f', 3]],".toUTF8)]⟩

theorem Files.steps_show : steps "show.ls" = ["show.ls"] := by
  rw [steps, String.splitOn, if_neg (by decide)]
  iterate 8 rw [String.splitOnAux]
  rfl

theorem Script.load_ofShow : load .ofShow "show.ls" = .ok ⟨[⟨2, .fade, [3]⟩]⟩ := by
  have found : Files.ofShow.find "show.ls" = .ok (.file "[2, ['f', 3]],".toUTF8) := by
    have relative : "show.ls".startsWith "/" = false := by decide +kernel
    have plain : ("show.ls".endsWith "/" || "show.ls".endsWith "/.") = false := by decide +kernel
    rw [Files.find, Files.steps_show, Files.start, relative]
    simp only [plain]
    rfl
  have utf : String.fromUTF8? "[2, ['f', 3]],".toUTF8 = some "[2, ['f', 3]]," := by decide +kernel
  rw [load, Files.read, found]
  simp only [utf]
  exact ok_of_toOption (by decide +kernel)

/-- Without the file there is no script. -/
theorem Script.load_ofShow_remove :
    load (Files.ofShow.remove "show.ls") "show.ls" = .error (.unreadable "show.ls" .notFound) := by
  have relative : "show.ls".startsWith "/" = false := by decide +kernel
  rw [load, Files.read, Files.find, Files.remove, Files.steps_show, Files.start, Files.start, relative]
  rfl

namespace Player

namespace Transcript

/-- The turns up to the look of a round that comes after others. -/
def upTo (s : Transcript) (before : List Round) (r : Round) : List Scene :=
  s.opening ++ (before.flatMap Round.turns ++ [r.check, r.look])

/-- The turns from after the look of the last round, if there was one, up to the look of the next. -/
def since (s : Transcript) (before : List Round) (r : Round) : List Scene :=
  before.getLast?.elim s.opening Round.during ++ [r.check, r.look]

/-- Up to the next look there is left what was left up to this one, and then some more. -/
theorem lefts_upTo_concat (s : Transcript) (before : List Round) (r r' : Round) :
    lefts (s.upTo (before ++ [r]) r') =
      lefts (s.upTo before r) ++ lefts (s.since (before ++ [r]) r') := by
  rw [← lefts_append, upTo, upTo, since, List.getLast?_concat, List.flatMap_append,
    List.flatMap_singleton]
  simp [Round.turns]

end Transcript

section

variable {s : Transcript} {before after : List Round} {r : Round} {p : Player} {w : Performance}
variable {fuel : Nat} {result : Except Halt Summary}

/-- Since the look of the last round nothing was taken. -/
theorem Transcript.foldl_leftAfter_rounds (sound : s.Sound fuel result)
    (plays : ∀ r ∈ before, ∃ played, r.Plays played) (going : r.check.check? = some false) :
    (s.opening ++ (before.flatMap Round.turns ++ [r.check])).foldl leftAfter none =
      (lefts (before.getLast?.elim s.opening Round.during ++ [r.check])).getLast? := by
  have check : ¬r.check.Looks := Turn.not_looks_of_check going
  have unlooked {T : List Scene} (not_looks : ∀ t ∈ T, ¬t.Looks) :
      (T ++ [r.check]).foldl leftAfter none = (lefts (T ++ [r.check])).getLast? := by
    rw [foldl_leftAfter none (List.forall_mem_append.mpr
      ⟨not_looks, List.forall_mem_singleton.mpr check⟩), Option.or_none]
  -- the look of the round before, if there is one, has taken all that was left by then
  rcases before.eq_nil_or_concat with rfl | ⟨before, r', rfl⟩
  · exact unlooked fun t ht => Turn.not_looks_of_isOfPasses (sound.opening t ht).1
  · rw [List.concat_eq_append] at plays ⊢
    obtain ⟨played, plays⟩ := plays r' (List.mem_append_right _ (List.mem_singleton_self r'))
    have looks : r'.look.Looks := Turn.looks_of_script? plays.look
    have whole : s.opening ++ ((before ++ [r']).flatMap Round.turns ++ [r.check]) =
        (s.opening ++ (before.flatMap Round.turns ++ [r'.check])) ++
          r'.look :: (r'.during ++ [r.check]) := by
      simp [Round.turns]
    rw [whole, List.foldl_append, List.foldl_cons, leftAfter_of_looks _ looks, List.getLast?_concat]
    exact unlooked plays.not_looks

/-- The look of a round takes what was left last since the look of the round before. -/
theorem Transcript.look?_of_rounds (turns : (run fuel).turns answer p w = s.turns)
    (fresh : w.pending = none) (sound : s.Sound fuel result)
    (plays : ∀ r ∈ s.rounds, ∃ played, r.Plays played) (split : s.rounds = before ++ r :: after) :
    r.look.look? = some (lefts (s.since before r)).getLast? := by
  rw [split] at plays
  obtain ⟨⟨played, hr⟩, -⟩ := List.forall_mem_cons.mp (List.forall_mem_append.mp plays).2
  have whole : (run fuel).turns answer p w = (s.opening ++ (before.flatMap Round.turns ++ [r.check])) ++
      r.look :: (r.during ++ (after.flatMap Round.turns ++ (s.stop.toList ++ s.closing))) := by
    rw [turns, Transcript.turns, split]
    simp [Round.turns]
  have since : s.since before r =
      (before.getLast?.elim s.opening Round.during ++ [r.check]) ++ [r.look] := by
    rw [Transcript.since, List.append_assoc]
    rfl
  rw [look?_of_split (x := (run fuel).run.run p) whole (Turn.looks_of_script? hr.look), fresh,
    foldl_leftAfter_rounds sound (List.forall_mem_append.mp plays).1 hr.check, since]
  exact congrArg some getLast?_lefts_concat.symm

/-- A round plays what was left last before its look, or else the first script of all. -/
theorem Transcript.script?_of_rounds {script : Script} {ended : Except Halt Summary}
    (taken : ∀ before r after, s.rounds = before ++ r :: after →
      r.look.look? = some (lefts (s.since before r)).getLast?)
    (series : Series ended script s.rounds) (split : s.rounds = before ++ r :: after) :
    r.look.script? = some ((lefts (s.upTo before r)).getLast?.getD script) := by
  have begins {before after : List Round} {r : Round} (split : s.rounds = before ++ r :: after) :
      r.look.asker.script = before.foldl (fun s r => r.look.script?.getD s) script := by
    rw [split] at series
    exact series.at.1
  rw [Turn.script?_of_look? (taken before r after split), begins split]
  -- what the rounds have played is what was left last; the induction goes over the rounds before
  induction before using List.reverseRecOn generalizing r after with
  | nil => rfl
  | append_singleton before r' ih =>
    have split' : s.rounds = before ++ r' :: (r :: after) := by rw [split, List.append_assoc]; rfl
    have before_it := (Turn.script?_of_look? (taken before r' _ split')).trans
      (begins split' ▸ ih split')
    rw [List.foldl_append, List.foldl_cons, List.foldl_nil, before_it, lefts_upTo_concat,
      List.getLast?_append, Option.getD_or]
    rfl

end

/-- A pass plays, from its beginning to its end, the script that was left last before it looked for
one, or the first script of all; a look takes what was left last since the look before; and a
reload that fails leaves everything as it was.  All this is so in whatever order scripts are left,
files change, failures happen and a stop is requested. -/
theorem passes_play_latest (bulb path : String) (light : Light) (draws : Draws) (files : Files)
    (plot : Nat → List Deed) (script : Script) (backoff : Backoff) (fuel : Nat) :
    let p := new bulb script backoff
    let w := Performance.new bulb light draws files path plot
    ∃ s : Transcript, (run fuel).turns answer p w = s.turns ∧
      s.Sound fuel ((run fuel).ending answer p w).result ∧
      (∀ before r after, s.rounds = before ++ r :: after →
        r.Plays ((lefts (s.upTo before r)).getLast?.getD script) ∧
        r.look.look? = some (lefts (s.since before r)).getLast?) ∧
      ∀ (stage : Stage) (cause : ScriptError),
        Script.load stage.files stage.scriptPath = .error cause →
        (stage.after (.signal .reload)).studio.control = stage.studio.control := by
  intro p w
  obtain ⟨s, turns, sound, series, -⟩ := exists_transcript fuel p w
  have plays : ∀ r ∈ s.rounds, ∃ played, r.Plays played := by
    intro r hr
    obtain ⟨before, after, split⟩ := List.append_of_mem hr
    rw [split] at series
    exact series.at.2.imp fun _ => And.left
  have taken (before : List Round) (r : Round) (after : List Round)
      (split : s.rounds = before ++ r :: after) :
      r.look.look? = some (lefts (s.since before r)).getLast? :=
    Transcript.look?_of_rounds turns rfl sound plays split
  refine ⟨s, turns, sound, fun before r after split => ⟨?_, taken before r after split⟩,
    fun stage _ failed => ?_⟩
  · have script := Transcript.script?_of_rounds taken series split
    obtain ⟨played, hr⟩ := plays r (split ▸ List.mem_append_right before List.mem_cons_self)
    exact Option.some.inj (hr.look.symm.trans script) ▸ hr
  · rw [Stage.after_failed_reload failed]

/-- While the first pass waits, a reload finds a script, its file goes, and a reload fails: the next pass
plays the script that was found, and so does the one after it. -/
theorem passes_play_latest_through_reloads :
    let first : Script := ⟨[⟨1, .fade, [1]⟩]⟩
    let second : Script := ⟨[⟨2, .fade, [3]⟩]⟩
    let p := new "lamp" first .usual
    let w := Performance.new "lamp" .dark (.start [] 0) .ofShow "show.ls" fun
      | 10 => [.signal .reload, .replaceFile none, .signal .reload]
      | 24 => [.stop]
      | _ => []
    let gone : Stage := { w.stage with files := Files.ofShow.remove "show.ls" }
    (gone.after (.signal .reload)).studio.control = gone.studio.control ∧
    ∃ (s : Transcript) (r r' r'' : Round), (run 4).turns answer p w = s.turns ∧
      s.rounds = [r, r', r''] ∧ r.Plays first ∧ r'.Plays second ∧ r''.Plays second ∧
      lefts (s.since [] r) = [] ∧ (lefts (s.since [r] r')).getLast? = some second ∧
      lefts (s.since [r, r'] r'') = [] := by
  intro first second p w gone
  obtain ⟨s, turns, sound, rounds, failing⟩ := passes_play_latest "lamp" "show.ls" .dark (.start [] 0)
    .ofShow w.plot first .usual 4
  -- a reload reads a file and cannot be evaluated, so the run is evaluated from the stage after it
  have looks : s.turns.filterMap Turn.look? = [none, some second, none] := by
    rw [← turns]
    obtain ⟨plot, files, path⟩ := skip_of_idle (x := (run 4).run.run p) (n := 10) (w := w) (by decide)
      (by decide +kernel)
    have met := Stage.foldl_after_reloads (s := (((run 4).run.run p).skip answer 10 w).2.stage)
      (by rw [files, path]; exact Script.load_ofShow)
      (by rw [files, path]; exact Script.load_ofShow_remove)
    have here : (((run 4).run.run p).skip answer 10 w).2.plot 0 = _ := congrFun plot 0
    rw [← show _ = [Deed.signal .reload, .replaceFile none, .signal .reload] from here] at met
    refine (filterMap_turns_of_met (x := (run 4).run.run p) (fun s q r w w' => by cases q <;> rfl)
      met).trans ?_
    decide +kernel
  have each : ∀ r ∈ s.rounds, (∃ played, r.Plays played) ∧ r.look.look?.isSome := by
    intro r hr
    obtain ⟨before, after, split⟩ := List.append_of_mem hr
    obtain ⟨plays, taken⟩ := rounds before r after split
    exact ⟨⟨_, plays⟩, by rw [taken]; rfl⟩
  rw [sound.filterMap_turns (fun r hr => (each r hr).1) fun _ => Turn.look?_of_not_looks] at looks
  have three : s.rounds.length = 3 := by
    rw [← List.filterMap_length_eq_length.mpr fun r hr => (each r hr).2, looks]
    rfl
  obtain ⟨r, r', r'', split⟩ := List.length_eq_three.mp three
  obtain ⟨plays, taken⟩ := rounds [] r [r', r''] split
  obtain ⟨plays', taken'⟩ := rounds [r] r' [r''] split
  obtain ⟨plays'', taken''⟩ := rounds [r, r'] r'' [] split
  simp only [split, List.filterMap_cons, List.filterMap_nil, taken, taken', taken'', List.cons.injEq,
    and_true, List.getLast?_eq_none_iff] at looks
  obtain ⟨before, between, after⟩ := looks
  have once : lefts (s.upTo [r] r') = lefts (s.upTo [] r) ++ lefts (s.since [r] r') :=
    s.lefts_upTo_concat [] r r'
  have twice : lefts (s.upTo [r, r'] r'') = lefts (s.upTo [r] r') ++ lefts (s.since [r, r'] r'') :=
    s.lefts_upTo_concat [r] r' r''
  rw [show lefts (s.upTo [] r) = [] from before] at plays once
  rw [once, List.nil_append, between] at plays'
  rw [twice, once, after, List.nil_append, List.append_nil, between] at plays''
  exact ⟨failing gone _ Script.load_ofShow_remove, s, r, r', r'', turns, split, plays, plays', plays'',
    before, between, after⟩

end Player

end Lightshow
