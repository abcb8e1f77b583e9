/-
The turns of a conversation.

A `Turn` is a question as it was put: who asked, what came back, and the world that was asked.
`Dialogue.turns` lists the turns of a conversation with one world, in order, and a statement about
every moment of a conversation is a statement about its turns.

For talks there is a calculus of outcomes.  `Talk.Leads` says what holds of the turns, the result,
the state and the world after a talk; it is computed from the parts of the talk:

* `leads_pure`, `leads_throw`, `leads_ask`, `leads_modify`, `leads_get` -- the single steps;
* `leads_bind` -- one talk after another;
* `leads_within` -- a talk on a part of the state;
* `Leads.mono` -- a weaker statement.

Statements about all turns of a talk go through a `Chronicle`: what is remembered of the turns so
far, and what has to hold of the next one.  `Talk.Takes` says what a talk takes a condition to, and
`Talk.Keeps` that it keeps an invariant; both follow from the same for the parts of the talk
(`takes_bind`, `keeps_bind` and their companions).
-/
import Lightshow.Dialogue

namespace Lightshow

/-- A result with a value is that value. -/
theorem ok_of_toOption {ε α : Type} {r : Except ε α} {a : α} (h : r.toOption = some a) : r = .ok a := by
  cases r with
  | ok b => exact congrArg _ (Option.some.inj h)
  | error e => exact absurd h nofun

/-- A question as it was put. -/
structure Turn (S Q : Type) (A : Q → Type) (W : Type) where
  asker : S
  question : Q
  answer : A question
  /-- The world before the answer. -/
  world : W

/-- The same turn, with the asker seen as another. -/
def Turn.mapAsker {S T Q W : Type} {A : Q → Type} (f : S → T) (t : Turn S Q A W) :
    Turn T Q A W :=
  ⟨f t.asker, t.question, t.answer, t.world⟩

namespace Dialogue

variable {S T Q W : Type} {A : Q → Type} {α β : Type}

/-- The turns of a conversation with a world, in order. -/
def turns (answer : (q : Q) → W → A q × W) : Dialogue S Q A α → W → List (Turn S Q A W)
  | .done _, _ => []
  | .ask s q next, w =>
    ⟨s, q, (answer q w).1, w⟩ :: (next (answer q w).1).turns answer (answer q w).2

theorem turns_bind (answer : (q : Q) → W → A q × W) (x : Dialogue S Q A α)
    (f : α → Dialogue S Q A β) (w : W) :
    (x.bind f).turns answer w =
      x.turns answer w ++ (f (x.run answer w).1).turns answer (x.run answer w).2 := by
  induction x generalizing w with
  | done a => rfl
  | ask s q next ih =>
    rw [bind, turns, turns, ih]
    rfl

/-- Between two turns of a conversation the world changes by the first of them only. -/
theorem turns_split {answer : (q : Q) → W → A q × W} {x : Dialogue S Q A α} {w : W}
    {T T' : List (Turn S Q A W)} {t : Turn S Q A W} (split : x.turns answer w = T ++ t :: T') :
    t.answer = (answer t.question t.world).1 ∧
      ∃ y : Dialogue S Q A α, T' = y.turns answer (answer t.question t.world).2 := by
  induction x generalizing w T with
  | done a => exact absurd split (by simp [turns])
  | ask s q next ih =>
    rw [turns] at split
    rcases T with _ | ⟨t₀, T⟩
    · rw [List.nil_append, List.cons.injEq] at split
      obtain ⟨rfl, hT'⟩ := split
      exact ⟨rfl, _, hT'.symm⟩
    · rw [List.cons_append, List.cons.injEq] at split
      exact ih _ split.2

/-- What is left of a conversation after some turns, and the world by then. -/
def skip (answer : (q : Q) → W → A q × W) : Nat → Dialogue S Q A α → W → Dialogue S Q A α × W
  | 0, x, w => (x, w)
  | _ + 1, .done a, w => (.done a, w)
  | n + 1, .ask _ q next, w => skip answer n (next (answer q w).1) (answer q w).2

theorem take_append_skip (answer : (q : Q) → W → A q × W) (n : Nat) (x : Dialogue S Q A α) (w : W) :
    (x.turns answer w).take n ++ (x.skip answer n w).1.turns answer (x.skip answer n w).2 =
      x.turns answer w := by
  induction n generalizing x w with
  | zero => rfl
  | succ n ih =>
    cases x with
    | done a => rfl
    | ask s q next => exact congrArg _ (ih (next (answer q w).1) (answer q w).2)

theorem turns_mapAsker (answer : (q : Q) → W → A q × W) (f : S → T) (x : Dialogue S Q A α)
    (w : W) : (x.mapAsker f).turns answer w = (x.turns answer w).map (Turn.mapAsker f) := by
  induction x generalizing w with
  | done a => rfl
  | ask s q next ih =>
    rw [mapAsker, turns, turns, ih]
    rfl

/-- What every answer keeps, a conversation keeps. -/
theorem run_keeps {answer : (q : Q) → W → A q × W} {inv : W → Prop}
    (h : ∀ q w, inv w → inv (answer q w).2) (x : Dialogue S Q A α) {w : W} (hw : inv w) :
    inv (x.run answer w).2 := by
  induction x generalizing w with
  | done a => exact hw
  | ask s q next ih => exact ih _ (h q w hw)

/-- What can be seen of the world at any time follows from the turns before that time, if each turn
changes it in a way that can be told from the turn. -/
theorem view_follows {X : Type} {answer : (q : Q) → W → A q × W} (view : W → X) (inv : W → Prop)
    {step : X → Turn S Q A W → X}
    (h : ∀ s q w, inv w → view (answer q w).2 = step (view w) ⟨s, q, (answer q w).1, w⟩ ∧
      inv (answer q w).2)
    (x : Dialogue S Q A α) {w : W} (hw : inv w) :
    (view (x.run answer w).2 = (x.turns answer w).foldl step (view w) ∧
      inv (x.run answer w).2) ∧
    ∀ T t T', x.turns answer w = T ++ t :: T' → view t.world = T.foldl step (view w) := by
  induction x generalizing w with
  | done a => exact ⟨⟨rfl, hw⟩, fun T t T' hT => absurd hT (by simp [turns])⟩
  | ask s q next ih =>
    obtain ⟨hview, hinv⟩ := h s q w hw
    obtain ⟨hend, hturns⟩ := ih (answer q w).1 hinv
    rw [turns, List.foldl_cons, ← hview]
    refine ⟨hend, fun T t T' hT => ?_⟩
    rcases T with _ | ⟨t₀, T⟩
    · rw [List.nil_append, List.cons.injEq] at hT
      rw [← hT.1]
      rfl
    · rw [List.cons_append, List.cons.injEq] at hT
      obtain ⟨rfl, hT⟩ := hT
      rw [List.foldl_cons, ← hview]
      exact hturns T t T' hT

end Dialogue

/-- How a talk ends: its result, and the state and the world after it. -/
structure Ending (ε S W α : Type) where
  result : Except ε α
  state : S
  world : W

namespace Talk

variable {ε δ S T Q W : Type} {A : Q → Type} {α β : Type}
variable (answer : (q : Q) → W → A q × W)

/-- The turns of a talk from a state, with a world. -/
def turns (x : Talk ε S Q A α) (s : S) (w : W) : List (Turn S Q A W) :=
  (x.run.run s).turns answer w

/-- The end of a talk from a state, with a world. -/
def ending (x : Talk ε S Q A α) (s : S) (w : W) : Ending ε S W α :=
  let ((result, state), world) := (x.run.run s).run answer w
  ⟨result, state, world⟩

/-- What holds of the turns of a talk, of its result, and of the state and the world after it. -/
def Leads (x : Talk ε S Q A α) (s : S) (w : W)
    (post : List (Turn S Q A W) → Except ε α → S → W → Prop) : Prop :=
  post (x.turns answer s w) (x.ending answer s w).result (x.ending answer s w).state
    (x.ending answer s w).world

variable {answer} {x : Talk ε S Q A α} {s : S} {w : W}
variable {post : List (Turn S Q A W) → Except ε α → S → W → Prop}

theorem Leads.mono {post' : List (Turn S Q A W) → Except ε α → S → W → Prop}
    (h : Leads answer x s w post) (imp : ∀ T r s' w', post T r s' w' → post' T r s' w') :
    Leads answer x s w post' :=
  imp _ _ _ _ h

theorem leads_iff : Leads answer x s w post ↔
    post (x.turns answer s w) (x.ending answer s w).result (x.ending answer s w).state
      (x.ending answer s w).world :=
  Iff.rfl

theorem leads_pure {a : α} : Leads answer (pure a) s w post ↔ post [] (.ok a) s w := Iff.rfl

theorem leads_throw {e : ε} : Leads answer (throw e) s w post ↔ post [] (.error e) s w := Iff.rfl

theorem leads_get {post : List (Turn S Q A W) → Except ε S → S → W → Prop} :
    Leads answer get s w post ↔ post [] (.ok s) s w := Iff.rfl

theorem leads_modify {f : S → S} {post : List (Turn S Q A W) → Except ε PUnit → S → W → Prop} :
    Leads answer (modify f) s w post ↔ post [] (.ok ⟨⟩) (f s) w := Iff.rfl

theorem leads_ask {q : Q} {post : List (Turn S Q A W) → Except ε (A q) → S → W → Prop} :
    Leads answer (ask q) s w post ↔
      post [⟨s, q, (answer q w).1, w⟩] (.ok (answer q w).1) s (answer q w).2 := Iff.rfl

/-- The conversation of one talk after another. -/
theorem run_bind (f : α → Talk ε S Q A β) :
    (x >>= f).run.run s = (x.run.run s).bind fun p => match p.1 with
      | .ok a => (f a).run.run p.2
      | .error e => .done (.error e, p.2) := by
  show (x.run.run s).bind _ = _
  congr 1
  funext p
  obtain ⟨r | r, s'⟩ := p <;> rfl

theorem leads_bind {f : α → Talk ε S Q A β}
    {post : List (Turn S Q A W) → Except ε β → S → W → Prop} :
    Leads answer (x >>= f) s w post ↔ Leads answer x s w fun T r s' w' => match r with
      | .ok a => Leads answer (f a) s' w' fun T' => post (T ++ T')
      | .error e => post T (.error e) s' w' := by
  simp only [Leads, turns, ending, run_bind, Dialogue.turns_bind, Dialogue.run_bind]
  obtain ⟨⟨r, s'⟩, w'⟩ := (x.run.run s).run answer w
  cases r with
  | ok a => rfl
  | error e =>
    show post (_ ++ []) _ _ _ ↔ _
    rw [List.append_nil]
    rfl

/-- After a talk with a result, the next one goes on where it ended. -/
theorem bind_of_ok {f : α → Talk ε S Q A β} {a : α} {s' : S} {w' : W}
    (h : x.ending answer s w = ⟨.ok a, s', w'⟩) :
    (x >>= f).turns answer s w = x.turns answer s w ++ (f a).turns answer s' w' ∧
      (x >>= f).ending answer s w = (f a).ending answer s' w' := by
  have whole : Leads answer (x >>= f) s w fun T r s'' w'' =>
      T = x.turns answer s w ++ (f a).turns answer s' w' ∧
        (⟨r, s'', w''⟩ : Ending ε S W β) = (f a).ending answer s' w' := by
    rw [leads_bind, leads_iff, h]
    exact ⟨rfl, rfl⟩
  exact whole

/-- After a talk that broke off, there is no next one. -/
theorem bind_of_error {f : α → Talk ε S Q A β} {e : ε} {s' : S} {w' : W}
    (h : x.ending answer s w = ⟨.error e, s', w'⟩) :
    (x >>= f).turns answer s w = x.turns answer s w ∧
      (x >>= f).ending answer s w = ⟨.error e, s', w'⟩ := by
  have whole : Leads answer (x >>= f) s w fun T r s'' w'' =>
      T = x.turns answer s w ∧ (⟨r, s'', w''⟩ : Ending ε S W β) = ⟨.error e, s', w'⟩ := by
    rw [leads_bind, leads_iff, h]
    exact ⟨rfl, rfl⟩
  exact whole

theorem leads_ask_bind {q : Q} {f : A q → Talk ε S Q A α} :
    Leads answer (ask q >>= f) s w post ↔
      Leads answer (f (answer q w).1) s (answer q w).2
        fun T => post (⟨s, q, (answer q w).1, w⟩ :: T) := by
  rw [leads_bind]
  exact leads_ask

/-- A talk on a part of the state turns the same way, and always gives a result. -/
theorem leads_within {view : S → T} {put : T → S → S} {x : Talk ε T Q A α}
    {post : List (Turn S Q A W) → Except δ (Except ε α) → S → W → Prop} :
    Leads answer (x.within view put) s w post ↔ Leads answer x (view s) w fun T r t w' =>
      post (T.map (Turn.mapAsker fun t => put t s)) (.ok r) (put t s) w' := by
  have within_run : (x.within (δ := δ) view put).run.run s =
      ((x.run.run (view s)).mapAsker fun t => put t s).bind
        fun p => .done (.ok p.1, put p.2 s) := by
    show (Dialogue.bind _ _).bind _ = _
    rw [Dialogue.bind_assoc]
    rfl
  simp only [Leads, turns, ending, within_run, Dialogue.turns_bind, Dialogue.run_bind,
    Dialogue.turns_mapAsker, Dialogue.run_mapAsker]
  show post (_ ++ []) _ _ _ ↔ _
  rw [List.append_nil]
  rfl

end Talk

/-! ### Chronicles -/

/-- What is remembered of the turns so far, and what has to hold of the next turn. -/
structure Chronicle (X S Q : Type) (A : Q → Type) (W : Type) where
  step : X → Turn S Q A W → X
  along : X → Turn S Q A W → Prop

namespace Chronicle

variable {X S Q W : Type} {A : Q → Type} (c : Chronicle X S Q A W)

/-- What is remembered after more turns. -/
def after (x : X) (T : List (Turn S Q A W)) : X := T.foldl c.step x

/-- What has to hold does hold of every turn. -/
def Holds : X → List (Turn S Q A W) → Prop
  | _, [] => True
  | x, t :: T => c.along x t ∧ Holds (c.step x t) T

theorem after_append (x : X) (T T' : List (Turn S Q A W)) :
    c.after x (T ++ T') = c.after (c.after x T) T' := List.foldl_append

theorem holds_append {x : X} {T T' : List (Turn S Q A W)} :
    c.Holds x (T ++ T') ↔ c.Holds x T ∧ c.Holds (c.after x T) T' := by
  induction T generalizing x with
  | nil => exact ⟨fun h => ⟨trivial, h⟩, fun h => h.2⟩
  | cons t T ih =>
    show _ ∧ c.Holds _ (T ++ T') ↔ (_ ∧ _) ∧ _
    rw [ih, and_assoc]
    rfl

/-- At a turn that comes after others, what has to hold after those does. -/
theorem Holds.along_of_split {c : Chronicle X S Q A W} {x : X} {T T' : List (Turn S Q A W)}
    {t : Turn S Q A W} (h : c.Holds x (T ++ t :: T')) : c.along (c.after x T) t :=
  (c.holds_append.mp h).2.1

/-- A chronicle that remembers nothing: every turn is good or not by itself. -/
def each (good : Turn S Q A W → Prop) : Chronicle Unit S Q A W := ⟨fun _ _ => (), fun _ => good⟩

theorem holds_each {good : Turn S Q A W → Prop} {m : Unit} {T : List (Turn S Q A W)} :
    (each good).Holds m T ↔ ∀ t ∈ T, good t := by
  induction T generalizing m with
  | nil => exact ⟨fun _ => nofun, fun _ => trivial⟩
  | cons t T ih => exact (and_congr_right fun _ => ih).trans List.forall_mem_cons.symm

/-- A chronicle that remembers all turns: every turn is good or not by those before it. -/
def whole (good : List (Turn S Q A W) → Turn S Q A W → Prop) :
    Chronicle (List (Turn S Q A W)) S Q A W :=
  ⟨fun T t => T ++ [t], good⟩

theorem whole_after (good : List (Turn S Q A W) → Turn S Q A W → Prop) (T T' : List (Turn S Q A W)) :
    (whole good).after T T' = T ++ T' := by
  induction T' generalizing T with
  | nil => simp [after]
  | cons t T' ih =>
    show (whole good).after (T ++ [t]) T' = _
    rw [ih, List.append_assoc]
    rfl

theorem good_of_whole {good : List (Turn S Q A W) → Turn S Q A W → Prop} {T : List (Turn S Q A W)}
    (h : (whole good).Holds [] T) {before after : List (Turn S Q A W)} {t : Turn S Q A W}
    (split : T = before ++ t :: after) : good before t := by
  rw [split] at h
  have here := h.along_of_split
  rw [whole_after] at here
  exact here

/-- The same chronicle, of askers who are seen as others. -/
def comap {T : Type} (c : Chronicle X T Q A W) (f : S → T) : Chronicle X S Q A W :=
  ⟨fun x t => c.step x (t.mapAsker f), fun x t => c.along x (t.mapAsker f)⟩

theorem comap_turns {T : Type} (c : Chronicle X T Q A W) (f : S → T) (x : X)
    (ts : List (Turn S Q A W)) :
    (c.comap f).after x ts = c.after x (ts.map (Turn.mapAsker f)) ∧
      ((c.comap f).Holds x ts ↔ c.Holds x (ts.map (Turn.mapAsker f))) := by
  induction ts generalizing x with
  | nil => exact ⟨rfl, Iff.rfl⟩
  | cons t ts ih =>
    obtain ⟨hafter, hholds⟩ := ih ((c.comap f).step x t)
    exact ⟨hafter, and_congr_right fun _ => hholds⟩

end Chronicle

namespace Talk

variable {X ε δ S T Q W : Type} {A : Q → Type} {α β : Type}
variable (answer : (q : Q) → W → A q × W)

/-- From wherever `pre` holds, the turns of a talk hold to the chronicle, and afterwards `post` holds
for its result. -/
def Takes (c : Chronicle X S Q A W) (pre : X → S → W → Prop) (x : Talk ε S Q A α)
    (post : Except ε α → X → S → W → Prop) : Prop :=
  ∀ m s w, pre m s w →
    Leads answer x s w fun T r s' w' => c.Holds m T ∧ post r (c.after m T) s' w'

/-- What holds after a talk: `done` if it has a result, and `broken` if it broke off. -/
def atEnd (done : α → X → S → W → Prop) (broken : ε → X → S → W → Prop) :
    Except ε α → X → S → W → Prop
  | .ok a => done a
  | .error e => broken e

/-- A talk keeps an invariant; if it breaks off, `broken` holds. -/
abbrev Keeps (c : Chronicle X S Q A W) (inv : X → S → W → Prop) (broken : ε → X → S → W → Prop)
    (x : Talk ε S Q A α) : Prop :=
  Takes answer c inv x (atEnd (fun _ => inv) broken)

/-- A talk keeps an invariant, and does not break off. -/
abbrev Surely (c : Chronicle X S Q A W) (inv : X → S → W → Prop) (x : Talk ε S Q A α) : Prop :=
  Keeps answer c inv (fun _ _ _ _ => False) x

variable {answer} {c : Chronicle X S Q A W} {x : Talk ε S Q A α}
variable {pre inv : X → S → W → Prop} {post : Except ε α → X → S → W → Prop}
variable {broken : ε → X → S → W → Prop}

theorem Takes.mono {pre' : X → S → W → Prop} {post' : Except ε α → X → S → W → Prop}
    (h : Takes answer c pre x post) (hpre : ∀ m s w, pre' m s w → pre m s w)
    (hpost : ∀ r m s w, post r m s w → post' r m s w) : Takes answer c pre' x post' := by
  intro m s w hi
  refine (h m s w (hpre m s w hi)).mono fun T r s' w' hT => ?_
  exact ⟨hT.1, hpost r _ s' w' hT.2⟩

theorem takes_pure {a : α} (h : ∀ m s w, pre m s w → post (.ok a) m s w) :
    Takes answer c pre (pure a) post :=
  fun m s w hi => ⟨trivial, h m s w hi⟩

theorem takes_throw {e : ε} (h : ∀ m s w, pre m s w → post (.error e) m s w) :
    Takes answer c pre (throw e) post :=
  fun m s w hi => ⟨trivial, h m s w hi⟩

theorem takes_modify {f : S → S} {post : Except ε PUnit → X → S → W → Prop}
    (h : ∀ m s w, pre m s w → post (.ok ⟨⟩) m (f s) w) :
    Takes answer c pre (modify f) post :=
  fun m s w hi => ⟨trivial, h m s w hi⟩

theorem takes_ask {q : Q} {post : Except ε (A q) → X → S → W → Prop} :
    Takes answer c pre (ask q) post ↔
      ∀ m s w, pre m s w → c.along m ⟨s, q, (answer q w).1, w⟩ ∧
        post (.ok (answer q w).1) (c.step m ⟨s, q, (answer q w).1, w⟩) s (answer q w).2 := by
  refine ⟨fun h m s w hi => ?_, fun h m s w hi => ?_⟩
  · obtain ⟨⟨holds, -⟩, reached⟩ := h m s w hi
    exact ⟨holds, reached⟩
  · obtain ⟨holds, reached⟩ := h m s w hi
    exact leads_ask.mpr ⟨⟨holds, trivial⟩, reached⟩

theorem takes_bind {f : α → Talk ε S Q A β} {mid : Except ε α → X → S → W → Prop}
    {post : Except ε β → X → S → W → Prop} (hx : Takes answer c pre x mid)
    (hf : ∀ a, Takes answer c (mid (.ok a)) (f a) post)
    (he : ∀ e m s w, mid (.error e) m s w → post (.error e) m s w) :
    Takes answer c pre (x >>= f) post := by
  intro m s w hi
  refine leads_bind.mpr ((hx m s w hi).mono fun T r s' w' h => ?_)
  obtain ⟨holds, reached⟩ := h
  cases r with
  | error e => exact ⟨holds, he e _ s' w' reached⟩
  | ok a =>
    refine (hf a _ s' w' reached).mono fun T' r' s'' w'' h' => ?_
    rw [c.holds_append, c.after_append]
    exact ⟨⟨holds, h'.1⟩, h'.2⟩

/-- After a talk that keeps the condition and does not break off comes the next one. -/
theorem Surely.bind {f : α → Talk ε S Q A β} {post : Except ε β → X → S → W → Prop}
    (hx : Surely answer c pre x) (hf : ∀ a, Takes answer c pre (f a) post) :
    Takes answer c pre (x >>= f) post :=
  takes_bind hx hf fun _ _ _ _ => False.elim

/-- After a change of the state comes the next talk. -/
theorem takes_modify_bind {f : S → S} {mid : X → S → W → Prop} (hx : Takes answer c mid x post)
    (h : ∀ m s w, pre m s w → mid m (f s) w) : Takes answer c pre (modify f >>= fun _ => x) post :=
  fun m s w hi => leads_bind.mpr (hx m (f s) w (h m s w hi))

theorem Surely.keeps (h : Surely answer c inv x) : Keeps answer c inv broken x := by
  refine h.mono (fun _ _ _ hi => hi) fun r m s w hr => ?_
  cases r with
  | ok a => exact hr
  | error e => exact hr.elim

/-- An invariant that is kept even by a talk that breaks off is kept however the talk ends. -/
theorem keeps_always :
    Keeps answer c inv (fun _ => inv) x ↔ Takes answer c inv x fun _ => inv := by
  refine ⟨fun h => h.mono (fun _ _ _ hi => hi) fun r m s w hr => ?_,
    fun h => h.mono (fun _ _ _ hi => hi) fun r m s w hr => ?_⟩ <;>
  cases r <;> exact hr

/-- A talk that looks at its state goes on according to what it sees. -/
theorem takes_get_bind {f : S → Talk ε S Q A α}
    (h : ∀ s, Takes answer c (fun m s' w => pre m s' w ∧ s' = s) (f s) post) :
    Takes answer c pre (get >>= f) post :=
  fun m s w hi => leads_bind.mpr (h s m s w ⟨hi, rfl⟩)

/-- A talk on a part of the state, with the rest put around the part. -/
theorem takes_within {view : S → T} {put : T → S → S} (put_view : ∀ s, put (view s) s = s)
    {x : Talk ε T Q A α} {post : Except δ (Except ε α) → X → S → W → Prop}
    (h : ∀ s, Takes answer (c.comap fun t => put t s) (fun m t w => pre m (put t s) w) x
      fun r m t w => post (.ok r) m (put t s) w) :
    Takes answer c pre (x.within view put) post := by
  intro m s w hi
  rw [← put_view s] at hi
  refine leads_within.mpr ((h s m (view s) w hi).mono fun T r t w' hT => ?_)
  obtain ⟨hafter, hholds⟩ := c.comap_turns (fun t => put t s) m T
  rw [hholds, hafter] at hT
  exact hT

/-- To ask with a part of the state is to ask with the whole of it. -/
theorem takes_ask_within {put : T → S} {q : Q} {done : A q → X → S → W → Prop}
    {failed : δ → X → S → W → Prop} {broken : ε → X → T → W → Prop}
    (h : Takes answer c pre (ask q) (atEnd done failed)) :
    Takes answer (c.comap put) (fun m t w => pre m (put t) w) (ask q)
      (atEnd (fun a m t w => done a m (put t) w) broken) :=
  takes_ask.mpr fun m t w hi => takes_ask.mp h m (put t) w hi

theorem takes_ite {p : Prop} [Decidable p] {y : Talk ε S Q A α}
    (hx : p → Takes answer c pre x post) (hy : ¬p → Takes answer c pre y post) :
    Takes answer c pre (if p then x else y) post := by
  by_cases h : p
  · rw [if_pos h]
    exact hx h
  · rw [if_neg h]
    exact hy h

/-- What is known already may be used. -/
theorem takes_and {p : Prop} (h : p → Takes answer c pre x post) :
    Takes answer c (fun m s w => pre m s w ∧ p) x post :=
  fun m s w hi => h hi.2 m s w hi.1

theorem keeps_pure {a : α} : Keeps answer c inv broken (pure a) := takes_pure fun _ _ _ h => h

theorem keeps_get : Keeps answer c inv broken get := fun _ _ _ h => ⟨trivial, h⟩

theorem keeps_modify {f : S → S} (h : ∀ m s w, inv m s w → inv m (f s) w) :
    Keeps answer c inv broken (modify f) :=
  takes_modify h

theorem keeps_ask {q : Q} (h : ∀ m s w, inv m s w →
    c.along m ⟨s, q, (answer q w).1, w⟩ ∧
      inv (c.step m ⟨s, q, (answer q w).1, w⟩) s (answer q w).2) :
    Keeps answer c inv broken (ask q) :=
  takes_ask.mpr h

theorem keeps_bind {f : α → Talk ε S Q A β} (hx : Keeps answer c inv broken x)
    (hf : ∀ a, Keeps answer c inv broken (f a)) : Keeps answer c inv broken (x >>= f) :=
  takes_bind hx hf fun _ _ _ _ h => h

theorem keeps_ite {p : Prop} [Decidable p] {y : Talk ε S Q A α}
    (hx : Keeps answer c inv broken x) (hy : Keeps answer c inv broken y) :
    Keeps answer c inv broken (if p then x else y) :=
  takes_ite (fun _ => hx) fun _ => hy

end Talk

end Lightshow
