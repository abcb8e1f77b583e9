/-
What is to come in a performance.

A performance is harmless if at most the bulb cannot be reached at times, and clear if not even
that happens.  Whatever is asked, harmless performances stay harmless and clear ones clear.

* `Harmless.answer`, `Harmless.call_error`, `Harmless.connect_error` -- harmless performances;
* `Clear.answer`, `Clear.turns_succeed` -- clear ones.
-/
import Lightshow.Proofs.Performance

namespace Lightshow

open Talk Performance

/-- Whether a deed only makes the bulb unreachable. -/
def Deed.isOutage : Deed → Bool
  | .failConnects _ | .failCalls _ => true
  | _ => false

/-! ### Harmless performances -/

/-- Nothing but that the bulb cannot be reached is to come on a stage. -/
structure Stage.Harmless (s : Stage) : Prop where
  plain : s.studio.inParts = false
  going : s.studio.control.stopping = false
  unleft : s.studio.control.pending = none
  rejectedCalls : s.studio.bulb.rejectedCalls = 0
  rejectedConnects : s.rejectedConnects = 0
  garbledCalls : s.garbledCalls = 0

namespace Stage.Harmless

variable {s : Stage}

theorem after (h : s.Harmless) {d : Deed} (outage : d.isOutage = true) : (s.after d).Harmless := by
  cases d with
  | failConnects count =>
    exact ⟨h.plain, h.going, h.unleft, h.rejectedCalls, h.rejectedConnects, h.garbledCalls⟩
  | failCalls count =>
    exact ⟨h.plain, h.going, h.unleft, h.rejectedCalls, h.rejectedConnects, h.garbledCalls⟩
  | _ => exact absurd outage nofun

theorem foldl_after (h : s.Harmless) {ds : List Deed} (outages : ∀ d ∈ ds, d.isOutage = true) :
    (ds.foldl Stage.after s).Harmless := by
  induction ds generalizing s with
  | nil => exact h
  | cons d ds ih =>
    obtain ⟨hd, hds⟩ := List.forall_mem_cons.mp outages
    exact ih (h.after hd) hds

/-- A connect gives a handle, or the bulb cannot be reached. -/
theorem serve_connect (h : s.Harmless) :
    (∃ handle s', s.serve .connect = (.ok handle, s') ∧ s'.Harmless) ∨
    ∃ cause s', s.serve .connect = (.error cause, s') ∧ cause.isConnectivity = true ∧
      s'.Harmless := by
  rw [serve, connect, if_neg (by rw [h.rejectedConnects]; decide), Studio.answer, Simulated.connect]
  by_cases failing : 0 < s.studio.bulb.failingConnects
  · rw [if_pos failing]
    exact Or.inr ⟨.connectivity (.unreachable s.studio.bulb.identifier), _, rfl, rfl,
      ⟨h.plain, h.going, h.unleft, h.rejectedCalls, h.rejectedConnects, h.garbledCalls⟩⟩
  · rw [if_neg failing]
    exact Or.inl ⟨_, _, rfl,
      ⟨h.plain, h.going, h.unleft, h.rejectedCalls, h.rejectedConnects, h.garbledCalls⟩⟩

/-- A call is carried out, or the bulb cannot be reached. -/
theorem serve_call (h : s.Harmless) (handle : Nat) (c : Call) :
    (∃ s', s.serve (.call handle c) = (.ok (s.studio.bulb.light.reply c), s') ∧ s'.Harmless) ∨
    ∃ cause s', s.serve (.call handle c) = (.error cause, s') ∧ cause.isConnectivity = true ∧
      s'.Harmless := by
  rw [serve, perform, if_neg (by rw [h.garbledCalls]; decide), Studio.answer, Studio.perform,
    if_neg (by rw [h.plain]; decide), Simulated.perform]
  by_cases failing : 0 < s.studio.bulb.failingCalls
  · rw [if_pos failing]
    exact Or.inr ⟨.connectivity (.dropped s.studio.bulb.identifier c), _, rfl, rfl,
      ⟨h.plain, h.going, h.unleft, h.rejectedCalls, h.rejectedConnects, h.garbledCalls⟩⟩
  · rw [if_neg failing, if_neg (by rw [h.rejectedCalls]; decide)]
    exact Or.inl ⟨_, rfl,
      ⟨h.plain, h.going, h.unleft, h.rejectedCalls, h.rejectedConnects, h.garbledCalls⟩⟩

theorem serve (h : s.Harmless) (q : Question) : (s.serve q).2.Harmless := by
  cases q with
  | connect =>
    obtain ⟨_, s', hs, h'⟩ | ⟨_, s', hs, -, h'⟩ := h.serve_connect
    · rw [hs]; exact h'
    · rw [hs]; exact h'
  | call handle c =>
    obtain ⟨s', hs, h'⟩ | ⟨_, s', hs, -, h'⟩ := h.serve_call handle c
    · rw [hs]; exact h'
    · rw [hs]; exact h'
  | nextScript =>
    exact ⟨h.plain, h.going, rfl, h.rejectedCalls, h.rejectedConnects, h.garbledCalls⟩
  | pause purpose length =>
    obtain ⟨clock, hs⟩ := s.serve_pause purpose length
    rw [hs]
    exact ⟨h.plain, h.going, h.unleft, h.rejectedCalls, h.rejectedConnects, h.garbledCalls⟩
  | _ => exact ⟨h.plain, h.going, h.unleft, h.rejectedCalls, h.rejectedConnects, h.garbledCalls⟩

end Stage.Harmless

/-- Nothing but that the bulb cannot be reached is to come in a performance. -/
structure Harmless (w : Performance) : Prop where
  stage : w.stage.Harmless
  plot : ∀ n, ∀ d ∈ w.plot n, d.isOutage = true

namespace Harmless

variable {w : Performance}

theorem met (h : Harmless w) : w.met.Harmless := h.stage.foldl_after (h.plot 0)

theorem answer (h : Harmless w) (q : Question) : Harmless (answer q w).2 :=
  ⟨h.met.serve q, fun n => h.plot (n + 1)⟩

theorem stopping (h : Harmless w) : (Performance.answer .stopping w).1 = false := h.met.going

theorem nextScript (h : Harmless w) : (Performance.answer .nextScript w).1 = none := h.met.unleft

theorem connect_error (h : Harmless w) {cause : BulbError}
    (failed : (Performance.answer .connect w).1 = .error cause) : cause.isConnectivity = true := by
  rw [Performance.answer] at failed
  obtain ⟨_, s', hs, -⟩ | ⟨_, s', hs, conn, -⟩ := h.met.serve_connect
  · rw [hs] at failed
    cases failed
  · rw [hs] at failed
    exact Except.error.inj failed ▸ conn

theorem call_error (h : Harmless w) {handle : Nat} {c : Call} {cause : BulbError}
    (failed : (Performance.answer (.call handle c) w).1 = .error cause) :
    cause.isConnectivity = true := by
  rw [Performance.answer] at failed
  obtain ⟨s', hs, -⟩ | ⟨_, s', hs, conn, -⟩ := h.met.serve_call handle c
  · rw [hs] at failed
    cases failed
  · rw [hs] at failed
    exact Except.error.inj failed ▸ conn

end Harmless

/-! ### Clear performances -/

/-- Nothing at all is to come in a performance. -/
structure Clear (w : Performance) : Prop extends Harmless w where
  failingConnects : w.bulb.failingConnects = 0
  failingCalls : w.bulb.failingCalls = 0
  uneventful : ∀ n, w.plot n = []

namespace Clear

variable {w : Performance}

theorem met_eq (h : Clear w) : w.met = w.stage := by
  rw [Performance.met, h.uneventful 0]
  rfl

theorem connect (h : Clear w) : ∃ handle w', Performance.answer .connect w = (.ok handle, w') ∧
    Clear w' := by
  have harmless := h.toHarmless.answer .connect
  rw [Performance.answer, h.met_eq, Stage.serve, Stage.connect,
    if_neg (by rw [h.stage.rejectedConnects]; decide), Studio.answer, Simulated.connect,
    if_neg (by rw [show w.stage.studio.bulb.failingConnects = 0 from h.failingConnects]; decide)]
    at harmless ⊢
  exact ⟨_, _, rfl, harmless, h.failingConnects, h.failingCalls, fun n => h.uneventful (n + 1)⟩

theorem call (h : Clear w) (handle : Nat) (c : Call) :
    ∃ w', Performance.answer (.call handle c) w = (.ok (w.bulb.light.reply c), w') ∧ Clear w' := by
  have harmless := h.toHarmless.answer (.call handle c)
  rw [Performance.answer, h.met_eq, Stage.serve, Stage.perform,
    if_neg (by rw [h.stage.garbledCalls]; decide), Studio.answer, Studio.perform,
    if_neg (by rw [h.stage.plain]; decide), Simulated.perform,
    if_neg (by rw [show w.stage.studio.bulb.failingCalls = 0 from h.failingCalls]; decide),
    if_neg (by rw [h.stage.rejectedCalls]; decide)] at harmless ⊢
  exact ⟨_, rfl, harmless, h.failingConnects, h.failingCalls, fun n => h.uneventful (n + 1)⟩

theorem answer_quiet (h : Clear w) {q : Question} (hconnect : q ≠ .connect)
    (hcall : ∀ handle c, q ≠ .call handle c) : Clear (Performance.answer q w).2 := by
  have bulb := Stage.serve_bulb (s := w.met) hconnect hcall
  rw [h.met_eq] at bulb
  refine ⟨h.toHarmless.answer q, ?_, ?_, fun n => h.uneventful (n + 1)⟩
  · rw [Performance.answer, h.met_eq]
    exact (congrArg Simulated.failingConnects bulb).trans h.failingConnects
  · rw [Performance.answer, h.met_eq]
    exact (congrArg Simulated.failingCalls bulb).trans h.failingCalls

theorem answer (h : Clear w) (q : Question) : Clear (Performance.answer q w).2 := by
  cases q with
  | connect =>
    obtain ⟨_, w', hw, h'⟩ := h.connect
    rw [hw]
    exact h'
  | call handle c =>
    obtain ⟨w', hw, h'⟩ := h.call handle c
    rw [hw]
    exact h'
  | _ => exact h.answer_quiet nofun fun _ _ => nofun

/-- Nothing that is asked in a clear performance fails. -/
theorem turns_succeed (h : Clear w) {S α : Type} (x : Dialogue S Question Question.Answer α) :
    ∀ t ∈ x.turns Performance.answer w, t.failure? = none := by
  induction x generalizing w with
  | done a => exact fun t ht => absurd ht List.not_mem_nil
  | ask s q next ih =>
    refine List.forall_mem_cons.mpr ⟨?_, ih _ (h.answer q)⟩
    cases q with
    | connect =>
      obtain ⟨_, w', hw, -⟩ := h.connect
      rw [hw]
      rfl
    | call handle c =>
      obtain ⟨w', hw, -⟩ := h.call handle c
      rw [hw]
      rfl
    | _ => rfl

end Clear

end Lightshow
