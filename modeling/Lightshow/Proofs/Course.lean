/-
The course of a playback: a start-up, passes, and a close.

Either everything that playback does first succeeds, and then it has the settings that the light
had before and the bulb is on, or playback fails without having changed the light.  After a
start-up come the passes, and after them, however they ended, the close.

* `Playing.takes_run` -- from what the start-up, the passes and the close do;
* `startUp_cases` -- the two ways in which a start-up ends;
* `run_begun`, `run_unfinished`, `run_failed` -- a playback after its start-up;
* `keeps_startUp`, `keeps_close` -- what its two ends keep.
-/
import Lightshow.Proofs.Parts
import Lightshow.Proofs.Performance

namespace Lightshow

namespace Playing

open Talk
open Player hiding ask

variable {X W α β : Type} {answer : (q : Question) → W → q.Answer × W}
variable {c : Chronicle X Player Question Question.Answer W} {pre inv : X → Player → W → Prop}
variable {lost : BulbError → X → Player → W → Prop} {broken : Halt → X → Player → W → Prop}
variable {post : Except Halt β → X → Player → W → Prop}

/-- An answer is passed on, and a failure halts playback. -/
theorem takes_orHalt {part : Playing (Except BulbError α)} {next : α → Playing β}
    {done : α → X → Player → W → Prop} (asks : Takes answer c pre part (outcome done lost))
    (goes : ∀ a, Takes answer c (done a) (next a) post)
    (halts : ∀ cause m p w, lost cause m p w → post (.error (.failed cause)) m p w) :
    Takes answer c pre (part >>= fun r => orHalt r >>= next) post := by
  refine takes_bind asks (fun r => ?_) fun _ _ _ _ => False.elim
  cases r with
  | ok a => exact goes a
  | error cause =>
    have throws : Takes answer c (lost cause) (orHalt (α := α) (.error cause))
        (atEnd (fun _ _ _ _ => False) fun halt m p w => post (.error halt) m p w) :=
      takes_throw (halts cause)
    exact takes_bind throws (fun _ _ _ _ impossible => impossible.elim) fun _ _ _ _ h => h

/-- A start-up goes on from call to call, as long as none fails. -/
theorem takes_startUp {linked : Nat → X → Player → W → Prop}
    {saved lit : Nat → Snapshot → X → Player → W → Prop} {done : Snapshot → X → Player → W → Prop}
    (connect : Takes answer (ε := Halt) c pre (ask .connect) (outcome linked lost))
    (look : ∀ handle, Takes answer (ε := Halt) c (linked handle) (ask (.call handle .getRgb))
      (outcome (fun _ => linked handle) lost))
    (report : ∀ handle message,
      Surely answer (ε := Halt) c (linked handle) (ask (.report message)))
    (save : ∀ handle, Takes answer (ε := Halt) c (linked handle) (ask (.call handle .saveSnapshot))
      (outcome (saved handle) lost))
    (turnOn : ∀ handle snapshot, Takes answer (ε := Halt) c (saved handle snapshot)
      (ask (.call handle .turnOn)) (outcome (fun _ => lit handle snapshot) lost))
    (began : ∀ handle snapshot m p w, lit handle snapshot m p w → done snapshot m { p with
      state := { p.state with power := .on }, handle := some handle } w)
    (halts : ∀ cause m p w, lost cause m p w → broken (.failed cause) m p w) :
    Takes answer c pre startUp (atEnd done broken) := by
  refine takes_orHalt connect (fun handle => ?_) halts
  refine takes_orHalt (look handle) (fun rgb => ?_) halts
  refine Surely.bind keeps_get fun p => (report handle _).bind fun _ => ?_
  refine takes_orHalt (save handle) (fun snapshot => ?_) halts
  refine takes_orHalt (turnOn handle snapshot) (fun _ => ?_) halts
  exact takes_modify_bind (takes_pure fun _ _ _ hd => hd) (began handle snapshot)

/-- However passes ended, the close of a playback puts the snapshot back, unless they are unfinished;
and a playback whose passes failed fails as they did. -/
theorem takes_close {snapshot : Snapshot} {ended : Except Halt Unit} {restored : X → Player → W → Prop}
    {done : Summary → X → Player → W → Prop}
    (report : ∀ message, Surely answer (ε := Halt) c inv (ask (.report message)))
    (restores : Takes answer c inv (restore snapshot (restoreTries - 1))
      (outcome (fun _ => restored) lost))
    (reportRestored : Surely answer (ε := Halt) c restored (ask (.report .restored)))
    (reportLost : ∀ cause,
      Surely answer (ε := Halt) c (lost cause) (ask (.report (.restoreFailed cause))))
    (counts : ∀ m p w, ended = .ok () → restored m p w → done p.summary m p w)
    (halts : ∀ halt m p w, (∀ halt', ended = .error halt' → halt = halt') →
      (inv m p w ∨ restored m p w ∨ ∃ cause, lost cause m p w) → broken halt m p w) :
    Takes answer c inv (close snapshot ended) (atEnd done broken) := by
  rcases ended with (cause | _) | _
  · have same : ∀ halt', (.error (.failed cause) : Except Halt Unit) = .error halt' →
        .failed cause = halt' := fun _ => Except.error.inj
    refine (report _).bind fun _ => takes_bind restores (fun r => ?_) fun _ _ _ _ => False.elim
    cases r with
    | ok _ => exact takes_throw fun m p w hr => halts _ m p w same (.inr (.inl hr))
    | error cause' =>
      refine (reportLost cause').bind fun _ => takes_throw fun m p w hl => ?_
      exact halts _ m p w same (.inr (.inr ⟨cause', hl⟩))
  · exact takes_throw fun m p w hi => halts _ m p w (fun _ => Except.error.inj) (.inl hi)
  · refine takes_orHalt restores (fun _ => ?_) fun cause m p w hl => ?_
    · refine reportRestored.bind fun _ => takes_get_bind fun p => takes_pure fun m p' w hr => ?_
      obtain ⟨hr, rfl⟩ := hr
      exact counts m p' w rfl hr
    · exact halts _ m p w nofun (.inr (.inr ⟨cause, hl⟩))

/-- A playback is its start-up, its passes, and its close. -/
theorem takes_run {began : Snapshot → X → Player → W → Prop}
    {played : Snapshot → Except Halt Unit → X → Player → W → Prop}
    {done : Summary → X → Player → W → Prop} {fuel : Nat}
    (starts : Takes answer c pre startUp (atEnd began broken))
    (plays : ∀ snapshot, Takes answer c (began snapshot) (play fuel) (played snapshot))
    (closes : ∀ snapshot ended,
      Takes answer c (played snapshot ended) (close snapshot ended) (atEnd done broken)) :
    Takes answer c pre (run fuel) (atEnd done broken) := by
  refine takes_bind starts (fun snapshot => ?_) fun _ _ _ _ hb => hb
  have caughts : Takes answer c (began snapshot) (caught (play fuel))
      (atEnd (played snapshot) fun _ _ _ _ => False) :=
    takes_within (fun _ => rfl) fun _ => plays snapshot
  exact takes_bind caughts (closes snapshot) fun _ _ _ _ => False.elim

end Playing

namespace Player

open Talk Performance

section

variable {α : Type} {p : Player} {w : Performance}
variable {post : List (Turn Player Question Question.Answer Performance) → Except Halt α → Player →
  Performance → Prop}

/-- A call whose failure halts playback. -/
theorem leads_call_orHalt (plain : w.Plain) {handle : Nat} {c : Call} {f : c.Reply → Playing α}
    (carried : ∀ w', w'.Plain → w'.bulb.record = Simulated.recordAfter w.bulb.record c →
      Leads answer (f (w.bulb.light.reply c)) p w' fun T =>
        post (⟨p, .call handle c, .ok (w.bulb.light.reply c), w⟩ :: T))
    (lost : ∀ cause w', w'.Plain → w'.bulb.record = w.bulb.record →
      post [⟨p, .call handle c, .error cause, w⟩] (.error (.failed cause)) p w') :
    Leads answer (ask (.call handle c) >>= fun r => orHalt r >>= f) p w post := by
  rw [leads_ask_bind]
  obtain ⟨w', h, record, plain'⟩ | ⟨cause, w', h, record, plain'⟩ :=
    answer_call_cases plain handle c
  · rw [h]
    exact carried w' plain' record
  · rw [h]
    exact lost cause w' plain' record

end

/-- The calls of a start-up. -/
def openingCalls : List Call := [.getRgb, .saveSnapshot, .turnOn]

theorem startUp_cases (p : Player) {w : Performance} (plain : w.Plain) :
    Leads answer startUp p w fun T r p' _ =>
      (∃ handle, r = .ok w.bulb.light.snapshot ∧ told T = openingCalls ∧
        p' = { p with state := { p.state with power := .on }, handle := some handle }) ∨
      ∃ cause, r = .error (.failed cause) ∧ told T <+: [.getRgb, .saveSnapshot] := by
  rw [startUp, leads_ask_bind]
  obtain ⟨record₁, plain₁⟩ := answer_other plain (q := .connect) fun _ _ => nofun
  generalize answer .connect w = a₁ at record₁ plain₁ ⊢
  obtain ⟨cause | handle, w₁⟩ := a₁
  · exact Or.inr ⟨cause, rfl, List.nil_prefix⟩
  dsimp only at record₁ plain₁ ⊢
  refine leads_call_orHalt plain₁ (fun w₂ plain₂ record₂ => ?_) fun cause w₂ _ _ =>
    Or.inr ⟨cause, rfl, List.nil_prefix⟩
  rw [leads_bind, leads_get]
  show Leads answer (ask (.report _) >>= _) _ _ _
  rw [leads_ask_bind]
  obtain ⟨record₃, plain₃⟩ := answer_other plain₂
    (q := .report (.initialColor p.bulb (w₁.bulb.light.reply .getRgb))) fun _ _ => nofun
  generalize answer (.report _) w₂ = a₃ at record₃ plain₃ ⊢
  obtain ⟨_, w₃⟩ := a₃
  refine leads_call_orHalt plain₃ (fun w₄ plain₄ _ => ?_) fun cause w₄ _ _ =>
    Or.inr ⟨cause, rfl, List.prefix_append [Call.getRgb] [Call.saveSnapshot]⟩
  refine leads_call_orHalt plain₄ (fun w₅ _ _ => ?_) fun cause w₅ _ _ =>
    Or.inr ⟨cause, rfl, List.prefix_rfl⟩
  -- nothing so far has touched the light
  have light : w₃.bulb.light = w.bulb.light := by
    have h₂ : w₂.bulb.light = w₁.bulb.light := congrArg Prod.snd record₂
    have h₃ : w₃.bulb.light = w₂.bulb.light := congrArg Prod.snd record₃
    exact h₃.trans (h₂.trans (congrArg Prod.snd record₁))
  refine Or.inl ⟨handle, ?_, rfl, rfl⟩
  show Except.ok (w₃.bulb.light.snapshot) = _
  rw [light]

/-- What is the case when a start-up has succeeded. -/
structure Begun (p : Player) (w : Performance) (snapshot : Snapshot) (p₁ : Player)
    (w₁ : Performance) : Prop where
  snapshot_eq : snapshot = w.bulb.light.snapshot
  told_eq : told (startUp.turns answer p w) = openingCalls
  player : ∃ handle,
    p₁ = { p with state := { p.state with power := .on }, handle := some handle }
  plain : w₁.Plain
  calls : w₁.bulb.calls = w.bulb.calls ++ openingCalls
  light : w₁.bulb.light = { w.bulb.light with on := true }

theorem begun_of_ending {p p₁ : Player} {w w₁ : Performance} {snapshot : Snapshot}
    (plain : w.Plain) (begun : startUp.ending answer p w = ⟨.ok snapshot, p₁, w₁⟩) :
    Begun p w snapshot p₁ w₁ := by
  have course := startUp_cases p plain
  have record := leads_record plain startUp p
  rw [leads_iff, begun] at course record
  obtain ⟨handle, hsnapshot, htold, hplayer⟩ | ⟨cause, hfailed, -⟩ := course
  · rw [htold] at record
    exact ⟨Except.ok.inj hsnapshot, htold, ⟨handle, hplayer⟩, record.1,
      congrArg Prod.fst record.2, congrArg Prod.snd record.2⟩
  · exact absurd hfailed nofun

/-! ### After the start-up -/

section

variable {W : Type} {answer : (q : Question) → W → q.Answer × W} {p p₁ : Player} {w w₁ : W}

theorem ending_caught {α : Type} (answer : (q : Question) → W → q.Answer × W) (x : Playing α)
    (p : Player) (w : W) :
    (caught x).turns answer p w = x.turns answer p w ∧
      (caught x).ending answer p w =
        ⟨.ok (x.ending answer p w).result, (x.ending answer p w).state,
          (x.ending answer p w).world⟩ := by
  have whole : Leads answer (caught x) p w fun T r p' w' =>
      T = x.turns answer p w ∧ (⟨r, p', w'⟩ : Ending Halt Player W (Except Halt α)) =
        ⟨.ok (x.ending answer p w).result, (x.ending answer p w).state,
          (x.ending answer p w).world⟩ := by
    rw [caught, leads_within]
    exact ⟨List.map_id _, rfl⟩
  exact whole

/-- A playback that began well consists of its start-up, its passes and its close. -/
theorem run_begun {fuel : Nat} {snapshot : Snapshot}
    (begun : startUp.ending answer p w = ⟨.ok snapshot, p₁, w₁⟩)
    {ended : Except Halt Unit} {p₂ : Player} {w₂ : W}
    (played : (play fuel).ending answer p₁ w₁ = ⟨ended, p₂, w₂⟩) :
    (run fuel).turns answer p w = startUp.turns answer p w ++
        ((play fuel).turns answer p₁ w₁ ++ (close snapshot ended).turns answer p₂ w₂) ∧
      (run fuel).ending answer p w = (close snapshot ended).ending answer p₂ w₂ := by
  obtain ⟨hturns, hending⟩ := ending_caught answer (play fuel) p₁ w₁
  rw [played] at hending
  obtain ⟨turns₁, ending₁⟩ := bind_of_ok (f := fun snapshot => do
    close snapshot (← caught (play fuel))) begun
  obtain ⟨turns₂, ending₂⟩ := bind_of_ok (f := close snapshot) hending
  rw [hturns] at turns₂
  exact ⟨turns₁.trans (congrArg _ turns₂), ending₁.trans ending₂⟩

/-- A playback whose passes are unfinished consists of its start-up and its passes. -/
theorem run_unfinished {fuel : Nat} {snapshot : Snapshot}
    (begun : startUp.ending answer p w = ⟨.ok snapshot, p₁, w₁⟩)
    (unfinished : ((play fuel).ending answer p₁ w₁).result = .error .unfinished) :
    (run fuel).turns answer p w =
      startUp.turns answer p w ++ (play fuel).turns answer p₁ w₁ := by
  have played : (play fuel).ending answer p₁ w₁ = ⟨.error .unfinished,
      ((play fuel).ending answer p₁ w₁).state, ((play fuel).ending answer p₁ w₁).world⟩ := by
    rw [← unfinished]
  obtain ⟨turns, -⟩ := run_begun begun played
  exact turns.trans (congrArg _ (List.append_nil _))

/-- A playback that did not begin ends with its start-up. -/
theorem run_failed {fuel : Nat} {halt : Halt}
    (begun : startUp.ending answer p w = ⟨.error halt, p₁, w₁⟩) :
    (run fuel).turns answer p w = startUp.turns answer p w ∧
      (run fuel).ending answer p w = ⟨.error halt, p₁, w₁⟩ :=
  bind_of_error begun

/-- A start-up keeps what its questions keep, and what the handle and the power do not matter to. -/
theorem keeps_startUp {X : Type} {c : Chronicle X Player Question Question.Answer W}
    {inv : X → Player → W → Prop} {broken : Halt → X → Player → W → Prop}
    (connect : Surely answer (ε := Halt) c inv (ask .connect))
    (report : ∀ message, Surely answer (ε := Halt) c inv (ask (.report message)))
    (call : ∀ handle call, Surely answer (ε := Halt) c inv (ask (.call handle call)))
    (failed : ∀ cause m p w, inv m p w → broken (.failed cause) m p w)
    (began : ∀ m p w handle, inv m p w →
      inv m { p with state := { p.state with power := .on }, handle := some handle } w) :
    Keeps answer c inv broken startUp :=
  Playing.takes_startUp (keeps_outcome connect) (fun handle => keeps_outcome (call handle .getRgb))
    (fun _ => report) (fun handle => keeps_outcome (call handle .saveSnapshot))
    (fun handle _ => keeps_outcome (call handle .turnOn)) (fun handle _ m p w => began m p w handle)
    failed

/-- However passes ended, the close of a playback keeps what putting the snapshot back does.  Its
result is the counts at the end, and a playback whose passes failed fails as they did. -/
theorem keeps_close {X : Type} {c : Chronicle X Player Question Question.Answer W}
    {inv : X → Player → W → Prop} (h : Unmoved answer c inv (fun _ => inv) fun _ => inv)
    {snapshot : Snapshot} (put : ∀ handle, Takes answer (ε := Halt) c inv
      (ask (.call handle (.restoreSnapshot snapshot))) (outcome (fun _ => inv) fun _ => inv))
    (ended : Except Halt Unit) : Takes answer c inv (close snapshot ended)
      (atEnd (fun counts m p w => inv m p w ∧ p.summary = counts ∧ ended = .ok ())
        fun halt m p w => inv m p w ∧ ∀ halt', ended = .error halt' → halt = halt') := by
  have restores := h.takes_restore put (restoreTries - 1)
  refine Playing.takes_close h.report restores (h.report _) (fun _ => h.report _)
    (fun _ _ _ ok hi => ⟨hi, rfl, ok⟩) fun _ _ _ _ same kept => ?_
  rcases kept with hi | hi | ⟨_, hi⟩ <;> exact ⟨hi, same⟩

/-- All that is sent to the bulb is to put a snapshot back. -/
def PutsBack (snapshot : Snapshot) (t : Turn Player Question Question.Answer W) : Prop :=
  ∀ c ∈ t.sent?, c = .restoreSnapshot snapshot

/-- The only call of a close is the one that puts the snapshot back. -/
theorem close_calls (answer : (q : Question) → W → q.Answer × W) (snapshot : Snapshot)
    (ended : Except Halt Unit) (p : Player) (w : W) :
    ∀ t ∈ (close snapshot ended).turns answer p w, ∀ c ∈ t.sent?, c = .restoreSnapshot snapshot := by
  have other : ∀ p q w, (∀ handle c, q ≠ .call handle c) →
      PutsBack snapshot (⟨p, q, (answer q w).1, w⟩ : Turn Player Question Question.Answer W) := by
    intro p q w other
    cases q with
    | call handle c => exact absurd rfl (other handle c)
    | _ => exact nofun
  have unmoved : Unmoved answer (.each (PutsBack snapshot)) _ _ _ := .of_each other
  have put (handle : Nat) : Takes answer (ε := Halt) (.each (PutsBack snapshot)) (fun _ _ _ => True)
      (ask (.call handle (.restoreSnapshot snapshot)))
      (outcome (fun _ _ _ _ => True) fun _ _ _ _ => True) :=
    keeps_outcome (keeps_ask fun _ _ _ _ =>
      ⟨fun c hc => (Option.mem_some_iff.mp hc).symm, trivial⟩)
  exact Chronicle.holds_each.mp (keeps_close unmoved put ended () p w trivial).1

/-- At most the snapshot is told to the bulb when playback closes. -/
theorem close_told (answer : (q : Question) → W → q.Answer × W) (snapshot : Snapshot)
    (ended : Except Halt Unit) (p : Player) (w : W) :
    ∀ c ∈ told ((close snapshot ended).turns answer p w), c = .restoreSnapshot snapshot := by
  intro c hc
  obtain ⟨t, ht, htold⟩ := List.mem_filterMap.mp hc
  exact close_calls answer snapshot ended p w t ht c (Turn.sent?_of_told? htold)

end

end Player

end Lightshow
