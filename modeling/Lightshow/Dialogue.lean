/-
Conversations with the outside world.

Playback and the bridge client do nothing by themselves: they ask (open the bulb, send this
call, wait that long) and go on according to the answer.  A `Dialogue` is such a conversation as
a finite tree, one branch for every answer, so a statement about all answers is an induction on
the tree, and `Dialogue.run` holds the conversation with one particular world.

Whoever asks is in some state, and every question stands in the tree together with it.  The world
does not hear the state; it is there for statements about the moment of a question.

* `bind_done`, `bind_assoc` -- dialogues put one after the other form a lawful monad;
* `run_bind` -- holding two dialogues in a row is holding the second where the first left off;
* `run_mapAsker` -- the world answers the question, whoever asks it;
* `Talk` -- a part of a conversation that changes the state it asks out of, and may break off.
-/
namespace Lightshow

/-- A conversation of askers in states `S` that asks questions from `Q`, gets the answers `A`
promises, and ends with a result. -/
inductive Dialogue (S Q : Type) (A : Q → Type) (α : Type) : Type where
  | done (result : α)
  | ask (asker : S) (question : Q) (next : A question → Dialogue S Q A α)

namespace Dialogue

variable {S T Q : Type} {A : Q → Type} {α β γ σ : Type}

/-- The second conversation starts from the result of the first. -/
def bind : Dialogue S Q A α → (α → Dialogue S Q A β) → Dialogue S Q A β
  | .done a, f => f a
  | .ask s q next, f => .ask s q fun r => (next r).bind f

instance : Monad (Dialogue S Q A) where
  pure := .done
  bind := bind

/-- The same conversation, with every asker seen as another. -/
def mapAsker (f : S → T) : Dialogue S Q A α → Dialogue T Q A α
  | .done a => .done a
  | .ask s q next => .ask (f s) q fun r => (next r).mapAsker f

/-- Holds the conversation with a world that answers out of its state. -/
def run (answer : (q : Q) → σ → A q × σ) : Dialogue S Q A α → σ → α × σ
  | .done a, s => (a, s)
  | .ask _ q next, s =>
    let (r, s') := answer q s
    (next r).run answer s'

/-- Holds the conversation with a world that answers by effects. -/
def hold {m : Type → Type} [Monad m] (answer : (q : Q) → m (A q)) : Dialogue S Q A α → m α
  | .done a => pure a
  | .ask _ q next => do (next (← answer q)).hold answer

@[simp] theorem bind_done (x : Dialogue S Q A α) : x.bind .done = x := by
  induction x with
  | done a => rfl
  | ask s q next ih => simp [bind, ih]

theorem bind_assoc (x : Dialogue S Q A α) (f : α → Dialogue S Q A β)
    (g : β → Dialogue S Q A γ) :
    (x.bind f).bind g = x.bind fun a => (f a).bind g := by
  induction x with
  | done a => rfl
  | ask s q next ih => simp [bind, ih]

instance : LawfulMonad (Dialogue S Q A) := LawfulMonad.mk' _
  bind_done (fun _ _ => rfl) bind_assoc

theorem run_bind (answer : (q : Q) → σ → A q × σ) (x : Dialogue S Q A α)
    (f : α → Dialogue S Q A β) (s : σ) :
    (x.bind f).run answer s = (f (x.run answer s).1).run answer (x.run answer s).2 := by
  induction x generalizing s with
  | done a => rfl
  | ask _ q next ih => simp [bind, run, ih]

@[simp] theorem run_mapAsker (answer : (q : Q) → σ → A q × σ) (f : S → T)
    (x : Dialogue S Q A α) (s : σ) : (x.mapAsker f).run answer s = x.run answer s := by
  induction x generalizing s with
  | done a => rfl
  | ask _ q next ih => simp [mapAsker, run, ih]

end Dialogue

/-- A part of a conversation: it changes the state `S` that it asks out of, and may break off with
an `ε`. -/
abbrev Talk (ε S Q : Type) (A : Q → Type) := ExceptT ε (StateT S (Dialogue S Q A))

namespace Talk

variable {ε δ S T Q : Type} {A : Q → Type} {α : Type}

/-- Asks the outside. -/
def ask (q : Q) : Talk ε S Q A (A q) :=
  ExceptT.lift fun s => .ask s q fun r => .done (r, s)

/-- A talk that changes a part of a larger state; that it broke off is a result. -/
def within (view : T → S) (put : S → T → T) (x : Talk ε S Q A α) :
    Talk δ T Q A (Except ε α) :=
  ExceptT.lift fun t =>
    ((x.run.run (view t)).mapAsker fun s => put s t).bind fun (r, s) => .done (r, put s t)

end Talk

end Lightshow
