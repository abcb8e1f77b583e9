/-
Brackets in JSON text.

A scan goes through a text and knows no more than whether it is inside of a string and how many
brackets and braces are open.  That is enough to tell where a list ends: the scan comes out of the
text of a value, and of a text of items, as it went in.

* `Value.Text.past`, `Items.past` -- the text of a value closes what it opens;
* `past_of_ofText` -- so does every whole text that is read as a value.
-/
import Lightshow.Proofs.Grammar

namespace Lightshow.Json

/-- Where in a text a scan stands. -/
inductive Place where
  | outside
  | inString
  /-- In a string, behind a backslash. -/
  | escaped
  deriving DecidableEq

/-- A scan, with the number of brackets and braces that are open. -/
structure Scan where
  place : Place
  opened : Int
  deriving DecidableEq

namespace Scan

/-- The scan goes past a character. -/
def step (s : Scan) (c : Char) : Scan :=
  match s.place with
  | .outside =>
    if c = '"' then { s with place := .inString }
    else if c = '[' ∨ c = '\x7b' then { s with opened := s.opened + 1 }
    else if c = ']' ∨ c = '\x7d' then { s with opened := s.opened - 1 }
    else s
  | .inString =>
    if c = '"' then { s with place := .outside }
    else if c = '\\' then { s with place := .escaped }
    else s
  | .escaped => { s with place := .inString }

/-- The scan goes past a text. -/
def past (s : Scan) (cs : List Char) : Scan := cs.foldl step s

@[simp] theorem past_nil (s : Scan) : s.past [] = s := rfl

@[simp] theorem past_cons (s : Scan) (c : Char) (cs : List Char) :
    s.past (c :: cs) = (s.step c).past cs := rfl

@[simp] theorem past_append (s : Scan) (cs ds : List Char) :
    s.past (cs ++ ds) = (s.past cs).past ds := List.foldl_append

variable {n : Int}

@[simp] theorem step_quote : (⟨.outside, n⟩ : Scan).step '"' = ⟨.inString, n⟩ := rfl

@[simp] theorem step_endQuote : (⟨.inString, n⟩ : Scan).step '"' = ⟨.outside, n⟩ := rfl

@[simp] theorem step_open : (⟨.outside, n⟩ : Scan).step '[' = ⟨.outside, n + 1⟩ := rfl

@[simp] theorem step_close : (⟨.outside, n⟩ : Scan).step ']' = ⟨.outside, n - 1⟩ := rfl

@[simp] theorem step_openBrace : (⟨.outside, n⟩ : Scan).step '\x7b' = ⟨.outside, n + 1⟩ := rfl

@[simp] theorem step_closeBrace : (⟨.outside, n⟩ : Scan).step '\x7d' = ⟨.outside, n - 1⟩ := rfl

/-- Characters that a scan passes over outside of strings. -/
def Idle (c : Char) : Prop :=
  c ≠ '"' ∧ c ≠ '[' ∧ c ≠ '\x7b' ∧ c ≠ ']' ∧ c ≠ '\x7d'

instance (c : Char) : Decidable (Idle c) := inferInstanceAs (Decidable (_ ∧ _))

theorem step_idle {c : Char} (h : Idle c) : (⟨.outside, n⟩ : Scan).step c = ⟨.outside, n⟩ := by
  obtain ⟨quote, bracket, brace, close, closeBrace⟩ := h
  simp [step, quote, bracket, brace, close, closeBrace]

theorem past_idle {cs : List Char} (h : ∀ c ∈ cs, Idle c) :
    (⟨.outside, n⟩ : Scan).past cs = ⟨.outside, n⟩ := by
  induction cs with
  | nil => rfl
  | cons c cs ih =>
    obtain ⟨first, others⟩ := List.forall_mem_cons.mp h
    rw [past_cons, step_idle first, ih others]

theorem idle_of_isBlank {c : Char} (h : isBlank c = true) : Idle c := by
  simp only [isBlank, Bool.or_eq_true, decide_eq_true_eq] at h
  rcases h with ((rfl | rfl) | rfl) | rfl <;> decide

theorem idle_of_isFigure {c : Char} (h : isFigure c = true) : Idle c := by
  have other : ∀ {d : Char}, isFigure d = false → c ≠ d := by
    rintro d hd rfl
    exact absurd (h.symm.trans hd) nofun
  exact ⟨other rfl, other rfl, other rfl, other rfl, other rfl⟩

theorem past_blank {g : List Char} (h : Blank g) : (⟨.outside, n⟩ : Scan).past g = ⟨.outside, n⟩ :=
  past_idle fun c hc => idle_of_isBlank (h c hc)

/-- A scan does not come out of a string before it ends. -/
theorem past_inside {t : List Char} (h : Inside t) :
    (⟨.inString, n⟩ : Scan).past t = ⟨.inString, n⟩ := by
  induction h with
  | nil => rfl
  | plain quote backslash _ ih =>
    rw [past_cons, step]
    simpa [quote, backslash] using ih
  | escape _ _ ih => exact ih

end Scan

open Scan

variable {n : Int}

theorem Leaf.past {t : List Char} {v : Value} (h : Leaf t v) :
    (⟨.outside, n⟩ : Scan).past t = ⟨.outside, n⟩ := by
  cases h with
  | null | yes | no => exact past_idle (by simp [Scan.Idle])
  | positive _ figures => exact past_idle fun c hc => idle_of_isFigure (figures.1 c hc)
  | negative figures =>
    refine past_idle (List.forall_mem_cons.mpr ⟨by decide, fun c hc => ?_⟩)
    exact idle_of_isFigure (figures.1 c hc)
  | text quotes => simp [past_inside quotes.inside]

section

variable {α : Type} {spelled : List Char → α → Prop}
  (idle : ∀ {u : List Char} {a : α} {n : Int}, spelled u a →
    (⟨.outside, n⟩ : Scan).past u = ⟨.outside, n⟩)

include idle

/-- A scan comes out of a text of items as it went in, if it does so for every item. -/
theorem Items.past {first : Bool} {t : List Char} {as : List α} (h : Items Blank spelled first t as) :
    (⟨.outside, n⟩ : Scan).past t = ⟨.outside, n⟩ := by
  have comma : Idle ',' := by decide
  induction h with
  | nil blank => exact past_blank blank
  | first blank spelled _ ih => rw [past_append, past_append, past_blank blank, idle spelled, ih]
  | next blank blank' spelled _ ih =>
    rw [past_append, past_cons, past_append, past_append, past_blank blank, step_idle comma,
      past_blank blank', idle spelled, ih]

theorem FieldText.past {u : List Char} {f : String × α} (h : FieldText spelled u f) :
    (⟨.outside, n⟩ : Scan).past u = ⟨.outside, n⟩ := by
  obtain ⟨quotes, blank, blank', spelled⟩ := h
  have colon : Idle ':' := by decide
  rw [past_cons, step_quote, past_append, past_inside quotes.inside, past_cons, step_endQuote,
    past_append, past_blank blank, past_cons, step_idle colon, past_append, past_blank blank',
    idle spelled]

end

theorem Value.Text.past {limit : Nat} {t : List Char} {v : Value} (h : Value.Text limit t v) :
    (⟨.outside, n⟩ : Scan).past t = ⟨.outside, n⟩ := by
  induction limit generalizing t v n with
  | zero => exact Leaf.past h
  | succ limit ih =>
    cases h with
    | leaf leaf => exact leaf.past
    | list items =>
      rw [past_cons, step_open, past_append, items.past ih, past_cons, step_close, past_nil,
        Int.add_sub_cancel]
    | object fields =>
      rw [past_cons, step_openBrace, past_append, fields.past (FieldText.past ih), past_cons,
        step_closeBrace, past_nil, Int.add_sub_cancel]

theorem past_of_ofText {text : List Char} {v : Value} (h : Value.ofText text = .ok v) :
    (⟨.outside, n⟩ : Scan).past text = ⟨.outside, n⟩ := by
  obtain ⟨g, t, k, rfl, blank, blank', spelled⟩ := Value.ofText_eq_ok_iff.mp h
  rw [past_append, past_append, past_blank blank, spelled.past, past_blank blank']

end Lightshow.Json
