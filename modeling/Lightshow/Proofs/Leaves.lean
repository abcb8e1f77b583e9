/-
What the readers of numbers and strings take.

A text goes through a reader the same way whatever stands behind it, as long as that ends it: a
number ends in front of what cannot go on with it, a string at its closing quote.  So a reader
splits its text into what it takes and what it leaves, and what it takes can be put elsewhere.

* `Reads` -- a reader takes something off the front of a text;
* `Figures`, `figures_readDigits` -- the text of a number, of which it reads the same elsewhere;
* `Inside` -- text inside of a string, which the first quote that is not escaped ends;
* `Quotes`, `quotes_readString`, `Quotes.reads` -- the text of a string: exactly what is read as it.
-/
import Lightshow.Proofs.Reading
import Mathlib.Data.List.TakeWhile

namespace Lightshow.Json

/-- What a reader takes off the front of a text, with the text that it leaves. -/
def taken? {α : Type} {p : List Char → Prop} :
    Except Stop (α × { rest : List Char // p rest }) → Option (α × List Char)
  | .ok (a, rest) => some (a, rest.1)
  | .error _ => none

/-- A reader takes something off the front of a text and leaves the rest. -/
def Reads {α : Type} {p : List Char → List Char → Prop}
    (read : (cs : List Char) → Except Stop (α × { rest : List Char // p cs rest }))
    (cs : List Char) (a : α) (rest : List Char) : Prop :=
  taken? (read cs) = some (a, rest)

section
variable {α : Type} {p : List Char → List Char → Prop}
  {read : (cs : List Char) → Except Stop (α × { rest : List Char // p cs rest })}

theorem reads_iff {cs : List Char} {a : α} {rest : List Char} :
    Reads read cs a rest ↔ ∃ h, read cs = .ok (a, ⟨rest, h⟩) := by
  rw [Reads]
  cases read cs with
  | error stop => simp [taken?]
  | ok r =>
    obtain ⟨b, left, h⟩ := r
    simp only [taken?, Option.some.injEq, Prod.mk.injEq, Except.ok.injEq, Subtype.mk.injEq]
    constructor
    · rintro ⟨rfl, rfl⟩
      exact ⟨h, rfl, rfl⟩
    · rintro ⟨_, same⟩
      exact same
end

/-! ### Numbers -/

/-- Characters that the text of a number can have. -/
def isFigure (c : Char) : Bool :=
  c.isDigit || c = '.' || c = 'e' || c = 'E' || c = '+' || c = '-'

theorem isFigure_of_digit {c : Char} (h : c.isDigit = true) : isFigure c = true := by
  simp [isFigure, h]

/-- A reader of numbers takes nothing but figures, and takes the same in front of whatever ends a
number. -/
def Figures {p : List Char → List Char → Prop}
    (read : (cs : List Char) → Except Stop (Number × { rest : List Char // p cs rest }))
    (t : List Char) (n : Number) : Prop :=
  (∀ c ∈ t, isFigure c = true) ∧ ∀ next, EndsNumber next → Reads read (t ++ next) n next

theorem taken_endDouble (positive : Bool) (significand : Nat) (exponent : Int) (cs : List Char) :
    taken? (endDouble positive significand exponent cs) =
      (doubleOf positive significand exponent).map fun x => (.real x, cs) := by
  rw [endDouble]
  cases doubleOf positive significand exponent <;> rfl

theorem figures_endDouble {p s e cs n rest} (h : Reads (endDouble p s e) cs n rest) :
    cs = rest ∧ Figures (endDouble p s e) [] n := by
  rw [Reads, taken_endDouble, Option.map_eq_some_iff] at h
  obtain ⟨x, hx, same⟩ := h
  obtain ⟨rfl, rfl⟩ := Prod.mk.inj same
  refine ⟨rfl, by simp, fun next _ => ?_⟩
  rw [Reads, taken_endDouble, hx]
  rfl

/-- The digits of an exponent, and what is left behind them. -/
def exponentDigits (exponent : Nat) (cs : List Char) : Option Nat × List Char :=
  ((readExponentDigits exponent cs).1, (readExponentDigits exponent cs).2.1)

theorem exponentDigits_end (exponent : Nat) {cs : List Char} (ends : EndsNumber cs) :
    exponentDigits exponent cs = (some exponent, cs) := by
  rcases cs with _ | ⟨c, cs⟩
  · rfl
  · have := (ends c rfl).1
    simp [exponentDigits, readExponentDigits, this]

theorem exponentDigits_cons (exponent : Nat) (c : Char) (cs : List Char) :
    exponentDigits exponent (c :: cs) =
      if c.isDigit then
        if exponent * 10 + digitValue c < 1 <<< 31 then
          exponentDigits (exponent * 10 + digitValue c) cs
        else (none, cs)
      else (some exponent, c :: cs) := by
  simp only [exponentDigits, readExponentDigits]
  split
  · split <;> rfl
  · rfl

theorem exponentDigits_append (exponent : Nat) (cs : List Char) :
    ∃ t, cs = t ++ (exponentDigits exponent cs).2 ∧ (∀ c ∈ t, c.isDigit = true) ∧
      ∀ next, (exponentDigits exponent cs).1 = none ∨ EndsNumber next →
        exponentDigits exponent (t ++ next) = ((exponentDigits exponent cs).1, next) := by
  -- the digits stop in the middle once they do not fit, and then whatever may stand behind them
  induction cs generalizing exponent with
  | nil => exact ⟨[], rfl, by simp, fun next ends => exponentDigits_end _ (ends.resolve_left nofun)⟩
  | cons c cs ih =>
    rw [exponentDigits_cons]
    split_ifs with digit small
    · obtain ⟨t, ht, digits, same⟩ := ih (exponent * 10 + digitValue c)
      refine ⟨c :: t, by rw [List.cons_append, ← ht], by simpa [digit] using digits, fun next h => ?_⟩
      rw [List.cons_append, exponentDigits_cons, if_pos digit, if_pos small, same next h]
    · refine ⟨[c], rfl, by simpa using digit, fun next _ => ?_⟩
      rw [List.singleton_append, exponentDigits_cons, if_pos digit, if_neg small]
    · exact ⟨[], rfl, by simp, fun next h => exponentDigits_end _ (h.resolve_left nofun)⟩

theorem taken_readPower (positive : Bool) (significand : Nat) (scale : Int) (grows : Bool) (c : Char)
    (cs : List Char) :
    taken? (readPower positive significand scale grows (c :: cs)) =
      if c.isDigit then
        match exponentDigits (digitValue c) cs with
        | (some exponent, after) =>
          (doubleOf positive significand (if grows then scale + exponent else scale - exponent)).map
            fun x => (.real x, after)
        | (none, after) =>
          if significand ≠ 0 ∧ grows then none
          else some (.real (if positive then 0.0 else -0.0), after.dropWhile Char.isDigit)
      else none := by
  rw [readPower, exponentDigits]
  by_cases digit : c.isDigit = true
  · rw [if_pos digit, if_pos digit]
    rcases readExponentDigits (digitValue c) cs with ⟨_ | exponent, after, h⟩
    · dsimp only
      by_cases large : significand ≠ 0 ∧ grows = true
      · rw [if_pos large, if_pos large]
        rfl
      · rw [if_neg large, if_neg large]
        rfl
    · dsimp only
      rw [← taken_endDouble]
      generalize (if grows = true then scale + (exponent : Int) else scale - exponent) = total
      cases endDouble positive significand total after <;> rfl
  · rw [if_neg digit, if_neg digit]
    rfl

theorem figures_readPower {p s k g cs n rest} (h : Reads (readPower p s k g) cs n rest) :
    ∃ t, cs = t ++ rest ∧ Figures (readPower p s k g) t n := by
  rcases cs with _ | ⟨c, cs⟩
  · cases h
  rw [Reads, taken_readPower] at h
  by_cases digit : c.isDigit = true
  case neg => rw [if_neg digit] at h; cases h
  rw [if_pos digit] at h
  obtain ⟨t, ht, digits, same⟩ := exponentDigits_append (digitValue c) cs
  split at h
  case h_1 e after he =>
    rw [he] at ht same
    obtain ⟨x, hx, found⟩ := Option.map_eq_some_iff.mp h
    obtain ⟨rfl, rfl⟩ := Prod.mk.inj found
    refine ⟨c :: t, by rw [ht, List.cons_append], ?_, fun next ends => ?_⟩
    · simpa [isFigure_of_digit digit] using fun d hd => isFigure_of_digit (digits d hd)
    · rw [Reads, List.cons_append, taken_readPower, if_pos digit, same next (.inr ends)]
      dsimp only
      rw [hx]
      rfl
  case h_2 after he =>
    rw [he] at ht same
    by_cases fits : s ≠ 0 ∧ g = true
    case pos => rw [if_pos fits] at h; cases h
    rw [if_neg fits] at h
    obtain ⟨rfl, rfl⟩ := Prod.mk.inj (Option.some.inj h)
    -- the number is zero, and the digits that are left of the exponent are skipped
    have more : ∀ d ∈ after.takeWhile Char.isDigit, d.isDigit = true := fun d hd =>
      List.mem_takeWhile_imp hd
    refine ⟨c :: (t ++ after.takeWhile Char.isDigit), ?_, ?_, fun next ends => ?_⟩
    · rw [ht, List.cons_append, List.append_assoc, List.takeWhile_append_dropWhile]
    · intro d hd
      rcases List.mem_cons.mp hd with rfl | hd
      · exact isFigure_of_digit digit
      · exact isFigure_of_digit ((List.mem_append.mp hd).elim (digits d) (more d))
    · rw [Reads, List.cons_append, List.append_assoc, taken_readPower, if_pos digit,
        same _ (.inl rfl)]
      dsimp only
      rw [if_neg fits, List.dropWhile_append_of_pos more, dropWhile_digits ends]

/-- The digits of an exponent, without a sign in front of them. -/
def unsigned (cs : List Char) : List Char :=
  match cs with
  | '+' :: rest => rest
  | '-' :: rest => rest
  | rest => rest

theorem taken_readExponent (positive : Bool) (significand : Nat) (scale : Int) (cs : List Char) :
    ∃ grows, taken? (readExponent positive significand scale cs) =
      taken? (readPower positive significand scale grows (unsigned cs)) := by
  rw [readExponent.eq_def]
  split
  case h_1 rest =>
    refine ⟨true, ?_⟩
    rw [unsigned]
    cases readPower positive significand scale true rest <;> rfl
  case h_2 rest =>
    refine ⟨false, ?_⟩
    rw [unsigned]
    cases readPower positive significand scale false rest <;> rfl
  case h_3 plus minus =>
    refine ⟨true, ?_⟩
    rw [unsigned]
    · exact plus
    · exact minus

/-- An exponent is its digits, with a sign in front of them or without one. -/
theorem figures_readExponent {p s k cs n rest} (h : Reads (readExponent p s k) cs n rest) :
    ∃ t, cs = t ++ rest ∧ Figures (readExponent p s k) t n := by
  have signed : ∀ {c : Char} {g : Bool}, isFigure c = true →
      (∀ r, taken? (readExponent p s k (c :: r)) = taken? (readPower p s k g r)) →
      ∀ {r}, Reads (readExponent p s k) (c :: r) n rest →
        ∃ t, c :: r = t ++ rest ∧ Figures (readExponent p s k) t n := by
    intro c g figure same r h
    rw [Reads, same] at h
    obtain ⟨t, ht, figures, reads⟩ := figures_readPower h
    refine ⟨c :: t, by rw [ht, List.cons_append], by simpa [figure] using figures, fun next ends => ?_⟩
    rw [Reads, List.cons_append, same]
    exact reads next ends
  rcases cs with _ | ⟨c, cs⟩
  · cases h
  by_cases plus : c = '+'
  · subst plus
    refine signed (g := true) rfl (fun r => ?_) h
    rw [readExponent]
    cases readPower p s k true r <;> rfl
  by_cases minus : c = '-'
  · subst minus
    refine signed (g := false) rfl (fun r => ?_) h
    rw [readExponent]
    cases readPower p s k false r <;> rfl
  have same : ∀ r, readExponent p s k (c :: r) = readPower p s k true (c :: r) := by
    intro r
    rw [readExponent]
    · rintro _ ⟨⟩
      exact plus rfl
    · rintro _ ⟨⟩
      exact minus rfl
  rw [Reads, same] at h
  obtain ⟨t, ht, figures, reads⟩ := figures_readPower h
  rcases t with _ | ⟨d, t⟩
  · exact absurd (reads [] (fun _ => nofun)) nofun
  obtain ⟨rfl, -⟩ := List.cons.inj ht
  refine ⟨c :: t, ht, figures, fun next ends => ?_⟩
  rw [Reads, List.cons_append, same]
  exact reads next ends

theorem taken_readScale_exponent {c : Char} (e : c = 'e' ∨ c = 'E') (positive : Bool)
    (significand : Nat) (scale : Int) (cs : List Char) :
    taken? (readScale positive significand scale (c :: cs)) =
      taken? (readExponent positive significand scale cs) := by
  rw [readScale, if_pos e]
  cases readExponent positive significand scale cs <;> rfl

theorem readScale_none {cs : List Char} (none : ∀ c ∈ cs.head?, c ≠ 'e' ∧ c ≠ 'E')
    (positive : Bool) (significand : Nat) (scale : Int) :
    readScale positive significand scale cs = endDouble positive significand scale cs := by
  rcases cs with _ | ⟨c, cs⟩
  · rfl
  · have := none c rfl
    rw [readScale, if_neg (by simpa using this)]

theorem EndsNumber.no_exponent {cs : List Char} (h : EndsNumber cs) :
    ∀ c ∈ cs.head?, c ≠ 'e' ∧ c ≠ 'E' := fun c hc => (h c hc).2.2

/-- A double goes on with an exponent, or it ends. -/
theorem readScale_cases {p s k cs n rest} (h : Reads (readScale p s k) cs n rest) :
    (∃ c after, cs = c :: after ∧ (c = 'e' ∨ c = 'E') ∧ Reads (readExponent p s k) after n rest) ∨
      (∀ c ∈ cs.head?, c ≠ 'e' ∧ c ≠ 'E') ∧ Reads (endDouble p s k) cs n rest := by
  by_cases scaled : ∃ c after, cs = c :: after ∧ (c = 'e' ∨ c = 'E')
  · obtain ⟨c, after, rfl, e⟩ := scaled
    rw [Reads, taken_readScale_exponent e] at h
    exact .inl ⟨c, after, rfl, e, h⟩
  · have none : ∀ c ∈ cs.head?, c ≠ 'e' ∧ c ≠ 'E' := by
      intro c hc
      obtain ⟨after, rfl⟩ := List.head?_eq_some_iff.mp hc
      exact ⟨fun e => scaled ⟨c, after, rfl, .inl e⟩, fun e => scaled ⟨c, after, rfl, .inr e⟩⟩
    rw [Reads, readScale_none none] at h
    exact .inr ⟨none, h⟩

theorem figures_readScale {p s k cs n rest} (h : Reads (readScale p s k) cs n rest) :
    ∃ t, cs = t ++ rest ∧ Figures (readScale p s k) t n := by
  rcases readScale_cases h with ⟨c, cs, rfl, e, h⟩ | ⟨-, h⟩
  · obtain ⟨t, rfl, figures, reads⟩ := figures_readExponent h
    have figure : isFigure c = true := by rcases e with rfl | rfl <;> rfl
    refine ⟨c :: t, rfl, by simpa [figure] using figures, fun next ends => ?_⟩
    rw [Reads, List.cons_append, taken_readScale_exponent e]
    exact reads next ends
  · obtain ⟨rfl, figures, reads⟩ := figures_endDouble h
    refine ⟨[], rfl, figures, fun next ends => ?_⟩
    rw [Reads, List.nil_append, readScale_none ends.no_exponent]
    exact reads next ends

/-- Characters of a kind are all that is taken while they last, if none stands behind them. -/
theorem span_append {p : Char → Bool} {t after : List Char} (all : ∀ d ∈ t, p d = true)
    (ends : ∀ c ∈ after.head?, p c = false) :
    (t ++ after).takeWhile p = t ∧ (t ++ after).dropWhile p = after := by
  have none : after.takeWhile p = [] ∧ after.dropWhile p = after := by
    rcases after with _ | ⟨c, after⟩
    · exact ⟨rfl, rfl⟩
    · have := ends c rfl
      simp [this]
  rw [List.takeWhile_append_of_pos all, List.dropWhile_append_of_pos all, none.1, none.2,
    List.append_nil]
  exact ⟨rfl, rfl⟩

theorem span_unique {p : Char → Bool} {t u r s : List Char} (ht : ∀ d ∈ t, p d = true)
    (hr : ∀ c ∈ r.head?, p c = false) (hu : ∀ d ∈ u, p d = true) (hs : ∀ c ∈ s.head?, p c = false)
    (same : t ++ r = u ++ s) : t = u := by
  rw [← (span_append ht hr).1, same, (span_append hu hs).1]

theorem stops_dropWhile (cs : List Char) :
    ∀ c ∈ (cs.dropWhile Char.isDigit).head?, c.isDigit = false := by
  intro c hc
  have := List.head?_dropWhile_not Char.isDigit cs
  rw [Option.mem_def.mp hc] at this
  simpa using this

theorem taken_readAfterInteger_point (positive : Bool) (significand dropped : Nat)
    {cs : List Char} (digits : cs.takeWhile Char.isDigit ≠ []) :
    taken? (readAfterInteger positive significand dropped ('.' :: cs)) =
      taken? (readScale positive (fitDigits significand (cs.takeWhile Char.isDigit)).1
        ((dropped : Int) - (fitDigits significand (cs.takeWhile Char.isDigit)).2)
        (cs.dropWhile Char.isDigit)) := by
  rw [readAfterInteger]
  dsimp only
  rw [if_neg (by simpa using digits)]
  cases readScale positive (fitDigits significand (cs.takeWhile Char.isDigit)).1
    ((dropped : Int) - (fitDigits significand (cs.takeWhile Char.isDigit)).2)
    (cs.dropWhile Char.isDigit) <;> rfl

theorem taken_readAfterInteger_exponent {c : Char} (e : c = 'e' ∨ c = 'E') (positive : Bool)
    (significand dropped : Nat) (cs : List Char) :
    taken? (readAfterInteger positive significand dropped (c :: cs)) =
      taken? (readExponent positive significand dropped cs) := by
  rw [readAfterInteger]
  · rw [if_pos (e.imp_right .inl)]
    exact taken_readScale_exponent e _ _ _ _
  · rintro rfl
    simp at e

theorem taken_readAfterInteger_end {cs : List Char}
    (plain : ∀ c ∈ cs.head?, c ≠ '.' ∧ c ≠ 'e' ∧ c ≠ 'E') (positive : Bool)
    (significand dropped : Nat) :
    taken? (readAfterInteger positive significand dropped cs) =
      if 0 < dropped then taken? (endDouble positive significand dropped cs)
      else some (endInteger positive significand, cs) := by
  rcases cs with _ | ⟨c, cs⟩
  · rw [readAfterInteger]
    split_ifs <;> rfl
  · obtain ⟨point, lower, upper⟩ := plain c rfl
    rw [readAfterInteger]
    · by_cases d : 0 < dropped
      · rw [if_pos (.inr (.inr d)), if_pos d, readScale_none fun x hx => ?_]
        exact Option.some.inj hx ▸ ⟨lower, upper⟩
      · rw [if_neg (by simp [lower, upper, d]), if_neg d]
        rfl
    · exact point

/-- What holds of the first character in front of one text and of the other text's first one. -/
theorem head_append {q : Char → Prop} {t rest next : List Char} (front : ∀ c ∈ (t ++ rest).head?, q c)
    (behind : ∀ c ∈ next.head?, q c) : ∀ c ∈ (t ++ next).head?, q c := by
  rcases t with _ | ⟨c, t⟩
  · exact behind
  · exact front

/-- Digits are all of them in front of another text as well, if what follows them there was taken
from behind them and the other text ends a number. -/
theorem span_digits {cs t rest next : List Char} (ht : cs.dropWhile Char.isDigit = t ++ rest)
    (ends : EndsNumber next) :
    (cs.takeWhile Char.isDigit ++ (t ++ next)).takeWhile Char.isDigit = cs.takeWhile Char.isDigit ∧
      (cs.takeWhile Char.isDigit ++ (t ++ next)).dropWhile Char.isDigit = t ++ next :=
  span_append (fun _ => List.mem_takeWhile_imp)
    (head_append (ht ▸ stops_dropWhile cs) fun c hc => (ends c hc).1)

theorem figures_of_span {cs t : List Char} (figures : ∀ c ∈ t, isFigure c = true) :
    ∀ c ∈ cs.takeWhile Char.isDigit ++ t, isFigure c = true := fun c hc =>
  (List.mem_append.mp hc).elim (fun hc => isFigure_of_digit (List.mem_takeWhile_imp hc)) (figures c)

/-- Behind the digits of a number, it ends or goes on with a point or an exponent. -/
theorem readAfterInteger_cases {p s d cs n rest} (h : Reads (readAfterInteger p s d) cs n rest) :
    (∀ c ∈ cs.head?, c ≠ '.' ∧ c ≠ 'e' ∧ c ≠ 'E') ∨
    (∃ after, cs = '.' :: after ∧ after.takeWhile Char.isDigit ≠ [] ∧
      Reads (readScale p (fitDigits s (after.takeWhile Char.isDigit)).1
        ((d : Int) - (fitDigits s (after.takeWhile Char.isDigit)).2))
        (after.dropWhile Char.isDigit) n rest) ∨
    ∃ c after, cs = c :: after ∧ (c = 'e' ∨ c = 'E') ∧ Reads (readExponent p s d) after n rest := by
  rcases cs with _ | ⟨c, cs⟩
  · exact .inl fun _ => nofun
  by_cases point : c = '.'
  · subst point
    by_cases digits : cs.takeWhile Char.isDigit = []
    · obtain ⟨_, h⟩ := reads_iff.mp h
      rw [readAfterInteger] at h
      simp only [digits, List.isEmpty_nil, if_true] at h
      split_ifs at h <;> cases h
    · rw [Reads, taken_readAfterInteger_point p s d digits] at h
      exact .inr (.inl ⟨cs, rfl, digits, h⟩)
  by_cases e : c = 'e' ∨ c = 'E'
  · rw [Reads, taken_readAfterInteger_exponent e] at h
    exact .inr (.inr ⟨c, cs, rfl, e, h⟩)
  · rw [not_or] at e
    exact .inl fun x hx => Option.some.inj hx ▸ ⟨point, e⟩

theorem figures_readAfterInteger {p s d cs n rest} (h : Reads (readAfterInteger p s d) cs n rest) :
    ∃ t, cs = t ++ rest ∧ Figures (readAfterInteger p s d) t n := by
  rcases readAfterInteger_cases h with plain | ⟨cs, rfl, digits, h⟩ | ⟨c, cs, rfl, e, h⟩
  · rw [Reads, taken_readAfterInteger_end plain] at h
    have same : cs = rest := by
      split_ifs at h
      · exact (figures_endDouble h).1
      · exact (Prod.mk.inj (Option.some.inj h)).2
    refine ⟨[], same, by simp, fun next ends => ?_⟩
    rw [Reads, List.nil_append, taken_readAfterInteger_end fun c hc => (ends c hc).2]
    split_ifs at h ⊢
    · exact (figures_endDouble h).2.2 next ends
    · rw [(Prod.mk.inj (Option.some.inj h)).1]
  · obtain ⟨t, ht, figures, reads⟩ := figures_readScale h
    refine ⟨'.' :: (cs.takeWhile Char.isDigit ++ t), ?_,
      List.forall_mem_cons.mpr ⟨rfl, figures_of_span figures⟩, fun next ends => ?_⟩
    · rw [List.cons_append, List.append_assoc, ← ht, List.takeWhile_append_dropWhile]
    · obtain ⟨front, back⟩ := span_digits ht ends
      rw [Reads, List.cons_append, List.append_assoc, taken_readAfterInteger_point p s d, front, back]
      · exact reads next ends
      · rwa [front]
  · obtain ⟨t, rfl, figures, reads⟩ := figures_readExponent h
    have figure : isFigure c = true := by rcases e with rfl | rfl <;> rfl
    refine ⟨c :: t, rfl, by simpa [figure] using figures, fun next ends => ?_⟩
    rw [Reads, List.cons_append, taken_readAfterInteger_exponent e]
    exact reads next ends

theorem taken_readDigits_zero {cs : List Char} (stops : ∀ c ∈ cs.head?, c.isDigit = false)
    (positive : Bool) :
    taken? (readDigits positive ('0' :: cs)) = taken? (readAfterInteger positive 0 0 cs) := by
  rw [readDigits.eq_def]
  dsimp only
  rw [if_pos rfl]
  rcases cs with _ | ⟨c, cs⟩
  · rfl
  · dsimp only
    rw [if_neg (by simp [stops c rfl])]
    cases readAfterInteger positive 0 0 (c :: cs) <;> rfl

theorem taken_readDigits_other {c : Char} (digit : c.isDigit = true) (zero : c ≠ '0')
    (positive : Bool) (cs : List Char) :
    taken? (readDigits positive (c :: cs)) =
      taken? (readAfterInteger positive
        (fitDigits (digitValue c) (cs.takeWhile Char.isDigit)).1
        ((cs.takeWhile Char.isDigit).length -
          (fitDigits (digitValue c) (cs.takeWhile Char.isDigit)).2)
        (cs.dropWhile Char.isDigit)) := by
  rw [readDigits.eq_def]
  dsimp only
  rw [if_neg zero, if_pos digit]
  cases readAfterInteger positive (fitDigits (digitValue c) (cs.takeWhile Char.isDigit)).1
    ((cs.takeWhile Char.isDigit).length -
      (fitDigits (digitValue c) (cs.takeWhile Char.isDigit)).2) (cs.dropWhile Char.isDigit) <;> rfl

/-- No digit stands behind a leading zero. -/
theorem stops_of_leading_zero {p cs n rest} (h : Reads (readDigits p) ('0' :: cs) n rest) :
    ∀ c ∈ cs.head?, c.isDigit = false := by
  rintro c hc
  obtain ⟨cs, rfl⟩ := List.head?_eq_some_iff.mp hc
  obtain ⟨_, h⟩ := reads_iff.mp h
  rw [readDigits.eq_def] at h
  dsimp only at h
  rw [if_pos rfl] at h
  by_contra digit
  rw [if_pos (by simpa using digit)] at h
  cases h

/-- A number begins with a digit. -/
theorem figures_readDigits {p cs n rest} (h : Reads (readDigits p) cs n rest) :
    ∃ c t, cs = c :: (t ++ rest) ∧ c.isDigit = true ∧ Figures (readDigits p) (c :: t) n := by
  rcases cs with _ | ⟨c, cs⟩
  · cases h
  by_cases zero : c = '0'
  · subst zero
    have stops := stops_of_leading_zero h
    rw [Reads, taken_readDigits_zero stops] at h
    obtain ⟨t, rfl, figures, reads⟩ := figures_readAfterInteger h
    refine ⟨'0', t, rfl, rfl, by simpa [isFigure] using figures, fun next ends => ?_⟩
    rw [Reads, List.cons_append,
      taken_readDigits_zero (head_append stops fun x hx => (ends x hx).1)]
    exact reads next ends
  · by_cases digit : c.isDigit = true
    case neg =>
      obtain ⟨_, h⟩ := reads_iff.mp h
      rw [readDigits.eq_def] at h
      dsimp only at h
      rw [if_neg zero, if_neg digit] at h
      cases h
    rw [Reads, taken_readDigits_other digit zero] at h
    obtain ⟨t, ht, figures, reads⟩ := figures_readAfterInteger h
    refine ⟨c, cs.takeWhile Char.isDigit ++ t, ?_, digit,
      List.forall_mem_cons.mpr ⟨isFigure_of_digit digit, figures_of_span figures⟩,
      fun next ends => ?_⟩
    · rw [List.append_assoc, ← ht, List.takeWhile_append_dropWhile]
    · obtain ⟨front, back⟩ := span_digits ht ends
      rw [Reads, List.cons_append, List.append_assoc, taken_readDigits_other digit zero, front, back]
      exact reads next ends

/-! ### Strings -/

theorem hex_range {c : Char} {n : Nat} (h : Numeral.digit? 16 c = some n) :
    (48 ≤ c.toNat ∧ c.toNat ≤ 57) ∨ (97 ≤ c.toNat ∧ c.toNat ≤ 102) ∨
      (65 ≤ c.toNat ∧ c.toNat ≤ 70) := by
  simp only [Numeral.digit?, Option.filter_eq_some_iff] at h
  obtain ⟨h, -⟩ := h
  split at h
  case isTrue digit =>
    simp only [Char.isDigit, Bool.and_eq_true, decide_eq_true_eq] at digit
    exact .inl digit
  case isFalse =>
    split at h
    case isTrue lower =>
      simp only [Bool.and_eq_true, decide_eq_true_eq] at lower
      exact .inr (.inl lower)
    case isFalse =>
      split at h
      case isTrue upper =>
        simp only [Bool.and_eq_true, decide_eq_true_eq] at upper
        exact .inr (.inr upper)
      case isFalse => cases h

/-- Text inside of a string: every quote in it is escaped, and no comma is. -/
inductive Inside : List Char → Prop
  | nil : Inside []
  | plain {c : Char} {t : List Char} : c ≠ '"' → c ≠ '\\' → Inside t → Inside (c :: t)
  | escape {c : Char} {t : List Char} : c ≠ ',' → Inside t → Inside ('\\' :: c :: t)

theorem Inside.append {t u : List Char} (ht : Inside t) (hu : Inside u) : Inside (t ++ u) := by
  induction ht with
  | nil => exact hu
  | plain quote backslash _ ih => exact .plain quote backslash ih
  | escape comma _ ih => exact .escape comma ih

/-- A text inside of a string ends at the first quote that is not escaped. -/
theorem Inside.ends {t u r s : List Char} (ht : Inside t) (hu : Inside u)
    (same : t ++ '"' :: r = u ++ '"' :: s) : t = u ∧ r = s := by
  induction ht generalizing u with
  | nil =>
    cases hu with
    | nil => exact ⟨rfl, (List.cons.inj same).2⟩
    | plain quote => exact absurd (List.cons.inj same).1.symm quote
    | escape => exact absurd (List.cons.inj same).1 (by decide)
  | plain quote backslash _ ih =>
    cases hu with
    | nil => exact absurd (List.cons.inj same).1 quote
    | plain _ _ hu =>
      obtain ⟨rfl, tails⟩ := List.cons.inj same
      obtain ⟨rfl, rfl⟩ := ih hu tails
      exact ⟨rfl, rfl⟩
    | escape => exact absurd (List.cons.inj same).1 backslash
  | escape _ _ ih =>
    cases hu with
    | nil => exact absurd (List.cons.inj same).1 (by decide)
    | plain _ backslash => exact absurd (List.cons.inj same).1.symm backslash
    | escape _ hu =>
      obtain ⟨rfl, tails⟩ := List.cons.inj (List.cons.inj same).2
      obtain ⟨rfl, rfl⟩ := ih hu tails
      exact ⟨rfl, rfl⟩

/-- A comma inside of a string parts it into two texts that are inside of one. -/
theorem Inside.split_comma {t u : List Char} (h : Inside (t ++ ',' :: u)) : Inside t ∧ Inside u := by
  generalize whole : t ++ ',' :: u = w at h
  induction h generalizing t with
  | nil => simp at whole
  | plain quote backslash inside ih =>
    rcases t with _ | ⟨c, t⟩
    · obtain ⟨rfl, rfl⟩ := List.cons.inj whole
      exact ⟨.nil, inside⟩
    · obtain ⟨rfl, tails⟩ := List.cons.inj whole
      exact ⟨.plain quote backslash (ih tails).1, (ih tails).2⟩
  | escape comma inside ih =>
    rcases t with _ | ⟨c, _ | ⟨d, t⟩⟩
    · exact absurd (List.cons.inj whole).1 (by decide)
    · exact absurd (List.cons.inj (List.cons.inj whole).2).1.symm comma
    · obtain ⟨rfl, escaped⟩ := List.cons.inj whole
      obtain ⟨rfl, tails⟩ := List.cons.inj escaped
      exact ⟨.escape comma (ih tails).1, (ih tails).2⟩

/-- What stands behind the backslash of an escape. -/
structure Escapes (t : List Char) (d : Char) : Prop where
  inside : Inside ('\\' :: t)
  visible : ∀ c ∈ t, 0x20 ≤ c.toNat ∧ c ≠ ','
  reads : ∀ next, Reads readEscape (t ++ next) d next

/-- What stands between the quotes of a string. -/
inductive Quotes : List Char → List Char → Prop
  | nil : Quotes [] []
  | plain {c : Char} {t ds : List Char} : c ≠ '"' → c ≠ '\\' → 0x20 ≤ c.toNat → Quotes t ds →
      Quotes (c :: t) (c :: ds)
  | escape {e t ds : List Char} {d : Char} : Escapes e d → Quotes t ds →
      Quotes ('\\' :: (e ++ t)) (d :: ds)

theorem Quotes.inside {t ds : List Char} (h : Quotes t ds) : Inside t := by
  induction h with
  | nil => exact .nil
  | plain quote backslash _ _ ih => exact .plain quote backslash ih
  | escape escapes _ ih => exact escapes.inside.append ih

theorem Quotes.visible {t ds : List Char} (h : Quotes t ds) : ∀ c ∈ t, 0x20 ≤ c.toNat := by
  induction h with
  | nil => exact nofun
  | plain _ _ visible _ ih => exact List.forall_mem_cons.mpr ⟨visible, ih⟩
  | escape escapes _ ih =>
    refine List.forall_mem_cons.mpr ⟨by decide, fun c hc => ?_⟩
    exact (List.mem_append.mp hc).elim (fun hc => (escapes.visible c hc).1) (ih c)

/-- A comma in the text of a string is a comma of the string. -/
theorem Quotes.comma {t u ds : List Char} (h : Quotes (t ++ ',' :: u) ds) : ',' ∈ ds := by
  generalize whole : t ++ ',' :: u = w at h
  induction h generalizing t with
  | nil => simp at whole
  | plain _ _ _ _ ih =>
    rcases t with _ | ⟨c, t⟩
    · exact (List.cons.inj whole).1 ▸ List.mem_cons_self
    · exact List.mem_cons_of_mem _ (ih (List.cons.inj whole).2)
  | @escape e v ds d escapes _ ih =>
    refine List.mem_cons_of_mem _ ?_
    -- the comma stands behind the escape
    rcases t with _ | ⟨c, t⟩
    · exact absurd (List.cons.inj whole).1 (by decide)
    · have tails := (List.cons.inj whole).2
      rcases List.append_eq_append_iff.mp tails with ⟨k, rfl, hk⟩ | ⟨k, rfl, hk⟩
      · rcases k with _ | ⟨x, k⟩
        · exact ih (t := []) hk
        · obtain ⟨rfl, -⟩ := List.cons.inj hk
          exact absurd rfl (escapes.visible ',' (by simp)).2
      · exact ih hk.symm

theorem taken_readHex (a b c d : Char) (rest : List Char) :
    taken? (readHex (a :: b :: c :: d :: rest)) =
      (Numeral.number? 16 [a, b, c, d]).map fun unit => (unit, rest) := by
  have bytes : 4 ≤ byteLength (List.take 4 (a :: b :: c :: d :: rest)) :=
    length_le_byteLength [a, b, c, d]
  rw [readHex, if_neg (Nat.not_lt.mpr bytes)]
  cases Numeral.number? 16 [a, b, c, d] <;> rfl

/-- Four hexadecimal digits. -/
structure HexDigits (t : List Char) (unit : Nat) : Prop where
  digits : ∀ c ∈ t, ∃ n, Numeral.digit? 16 c = some n
  reads : ∀ next, Reads readHex (t ++ next) unit next

theorem readHex_short {cs : List Char} (short : cs.length < 4) : taken? (readHex cs) = none := by
  rw [readHex]
  · split_ifs <;> rfl
  · rintro a b c d rest rfl
    simp only [List.length_cons] at short
    omega

theorem digits_of_number {base : Nat} {cs : List Char} {n : Nat} (h : Numeral.number? base cs = some n) :
    ∀ c ∈ cs, ∃ d, Numeral.digit? base c = some d := by
  -- a fold that comes to a number has come past digits only, wherever it started
  have run : ∀ (cs : List Char) (start : Option Nat),
      (cs.foldl (fun n? c => do return (← n?) * base + (← Numeral.digit? base c)) start).isSome = true →
        start.isSome = true ∧ ∀ c ∈ cs, ∃ d, Numeral.digit? base c = some d := by
    intro cs
    induction cs with
    | nil => exact fun start h => ⟨h, by simp⟩
    | cons c cs ih =>
      intro start h
      obtain ⟨first, others⟩ := ih _ h
      cases start with
      | none => cases first
      | some s =>
        cases hd : Numeral.digit? base c with
        | none => simp [hd] at first
        | some d => exact ⟨rfl, List.forall_mem_cons.mpr ⟨⟨d, hd⟩, others⟩⟩
  exact (run cs (some 0) (by rw [← Numeral.number?, h]; rfl)).2

/-- A code is read from four digits. -/
theorem hexDigits_readHex {cs rest : List Char} {unit : Nat} (h : Reads readHex cs unit rest) :
    ∃ t, cs = t ++ rest ∧ HexDigits t unit := by
  match cs, h with
  | a :: b :: c :: d :: cs, h =>
    rw [Reads, taken_readHex, Option.map_eq_some_iff] at h
    obtain ⟨u, hu, same⟩ := h
    obtain ⟨rfl, rfl⟩ := Prod.mk.inj same
    refine ⟨[a, b, c, d], rfl, digits_of_number hu, fun next => ?_⟩
    rw [Reads, List.cons_append, List.cons_append, List.cons_append, List.singleton_append,
      taken_readHex, hu]
    rfl
  | [], h | [_], h | [_, _], h | [_, _, _], h =>
    rw [Reads, readHex_short (by simp)] at h
    cases h

/-- Digits stand inside of a string as they are. -/
theorem HexDigits.plain {t : List Char} {unit : Nat} (h : HexDigits t unit) :
    Inside t ∧ ∀ c ∈ t, 0x20 ≤ c.toNat ∧ c ≠ ',' := by
  have range := fun c hc => hex_range (h.digits c hc).choose_spec
  have visible : ∀ c ∈ t, 0x20 ≤ c.toNat ∧ c ≠ ',' := fun c hc => by
    have := range c hc
    refine ⟨by omega, ?_⟩
    rintro rfl
    simp at this
  refine ⟨?_, visible⟩
  have plain : ∀ c ∈ t, c ≠ '"' ∧ c ≠ '\\' := by
    intro c hc
    have := range c hc
    constructor <;> rintro rfl <;> simp at this
  clear range visible h
  induction t with
  | nil => exact .nil
  | cons c t ih =>
    obtain ⟨first, others⟩ := List.forall_mem_cons.mp plain
    exact .plain first.1 first.2 (ih others)

theorem taken_readLowSurrogate (high : Nat) (cs : List Char) :
    taken? (readLowSurrogate high ('\\' :: 'u' :: cs)) =
      (taken? (readHex cs)).bind fun r =>
        if 0xDC00 ≤ r.1 ∧ r.1 ≤ 0xDFFF then
          some (Char.ofNat ((high - 0xD800) * 0x400 + (r.1 - 0xDC00) + 0x10000), r.2)
        else none := by
  rw [readLowSurrogate]
  rcases readHex cs with _ | ⟨low, last, _⟩
  · rfl
  · show taken? (if _ then _ else _) = if _ then _ else _
    split_ifs <;> rfl

/-- The second half of a character is a code of its own. -/
theorem hex_of_readLowSurrogate {high : Nat} {cs rest : List Char} {d : Char}
    (h : Reads (readLowSurrogate high) cs d rest) :
    ∃ more low, cs = '\\' :: 'u' :: more ∧ Reads readHex more low rest ∧
      (0xDC00 ≤ low ∧ low ≤ 0xDFFF) ∧
      d = Char.ofNat ((high - 0xD800) * 0x400 + (low - 0xDC00) + 0x10000) := by
  by_cases escape : ∃ more, cs = '\\' :: 'u' :: more
  case neg =>
    rw [Reads, readLowSurrogate.eq_def] at h
    split at h
    case h_1 more => exact absurd ⟨more, rfl⟩ escape
    all_goals cases h
  obtain ⟨more, rfl⟩ := escape
  rw [Reads, taken_readLowSurrogate, Option.bind_eq_some_iff] at h
  obtain ⟨⟨low, last⟩, hlow, h⟩ := h
  dsimp only at h
  by_cases range : 0xDC00 ≤ low ∧ low ≤ 0xDFFF
  case neg => rw [if_neg range] at h; cases h
  rw [if_pos range] at h
  obtain ⟨rfl, rfl⟩ := Prod.mk.inj (Option.some.inj h)
  exact ⟨more, low, rfl, hlow, range, rfl⟩

/-- The second half of a character that is written as two escapes. -/
theorem escapes_readLowSurrogate {high : Nat} {cs rest : List Char} {d : Char}
    (h : Reads (readLowSurrogate high) cs d rest) :
    ∃ t, cs = t ++ rest ∧ Inside t ∧ (∀ c ∈ t, 0x20 ≤ c.toNat ∧ c ≠ ',') ∧
      ∀ next, Reads (readLowSurrogate high) (t ++ next) d next := by
  obtain ⟨more, low, rfl, hlow, range, same⟩ := hex_of_readLowSurrogate h
  obtain ⟨t, rfl, digits⟩ := hexDigits_readHex hlow
  obtain ⟨inside, visible⟩ := digits.plain
  refine ⟨'\\' :: 'u' :: t, rfl, .escape (by decide) inside, by simpa using visible, fun next => ?_⟩
  rw [Reads, List.cons_append, List.cons_append, taken_readLowSurrogate, digits.reads next,
    Option.bind_some, if_pos range, same]

theorem taken_readEscape_code (cs : List Char) :
    taken? (readEscape ('u' :: cs)) = (taken? (readHex cs)).bind fun r =>
      if 0xDC00 ≤ r.1 ∧ r.1 ≤ 0xDFFF then none
      else if 0xD800 ≤ r.1 ∧ r.1 ≤ 0xDBFF then taken? (readLowSurrogate r.1 r.2)
      else some (Char.ofNat r.1, r.2) := by
  show taken? (readHex cs >>= _) = _
  rcases readHex cs with _ | ⟨unit, after, _⟩
  · rfl
  · show taken? (if _ then _ else if _ then _ else _) = if _ then _ else if _ then _ else _
    split_ifs
    · rfl
    · cases readLowSurrogate unit after <;> rfl
    · rfl

/-- What an escape of one character stands for. -/
def escape? (c : Char) : Option Char :=
  if c = '"' ∨ c = '\\' ∨ c = '/' then some c
  else if c = 'b' then some '\x08'
  else if c = 'f' then some '\x0c'
  else if c = 'n' then some '\n'
  else if c = 'r' then some '\r'
  else if c = 't' then some '\t'
  else none

theorem taken_readEscape_short {c : Char} (code : c ≠ 'u') (cs : List Char) :
    taken? (readEscape (c :: cs)) = (escape? c).map fun d => (d, cs) := by
  rw [readEscape, escape?]
  dsimp only
  rw [if_neg code]
  split_ifs <;> rfl

theorem visible_of_escape {c d : Char} (h : escape? c = some d) : 0x20 ≤ c.toNat ∧ c ≠ ',' := by
  rw [escape?] at h
  split_ifs at h with simple b f n r t
  · rcases simple with rfl | rfl | rfl <;> decide
  all_goals subst c; decide

/-- An escape is a letter, or a code, or two codes for the halves of one character. -/
theorem escapes_readEscape {cs rest : List Char} {d : Char} (h : Reads readEscape cs d rest) :
    ∃ t, cs = t ++ rest ∧ Escapes t d := by
  rcases cs with _ | ⟨c, cs⟩
  · cases h
  by_cases code : c = 'u'
  · subst code
    rw [Reads, taken_readEscape_code, Option.bind_eq_some_iff] at h
    obtain ⟨⟨unit, after⟩, hunit, h⟩ := h
    obtain ⟨t, rfl, digits⟩ := hexDigits_readHex hunit
    obtain ⟨inside, visible⟩ := digits.plain
    dsimp only at h
    by_cases low : 0xDC00 ≤ unit ∧ unit ≤ 0xDFFF
    · rw [if_pos low] at h
      cases h
    rw [if_neg low] at h
    by_cases high : 0xD800 ≤ unit ∧ unit ≤ 0xDBFF
    · rw [if_pos high] at h
      obtain ⟨u, rfl, inside', visible', reads⟩ := escapes_readLowSurrogate h
      refine ⟨'u' :: (t ++ u), by simp, .escape (by decide) (inside.append inside'), ?_, fun next => ?_⟩
      · simpa using fun c hc => hc.elim (visible c) (visible' c)
      · rw [Reads, List.cons_append, List.append_assoc, taken_readEscape_code,
          digits.reads (u ++ next), Option.bind_some, if_neg low, if_pos high]
        exact reads next
    · rw [if_neg high] at h
      obtain ⟨rfl, rfl⟩ := Prod.mk.inj (Option.some.inj h)
      refine ⟨'u' :: t, rfl, .escape (by decide) inside, by simpa using visible, fun next => ?_⟩
      rw [Reads, List.cons_append, taken_readEscape_code, digits.reads next, Option.bind_some,
        if_neg low, if_neg high]
  · rw [Reads, taken_readEscape_short code, Option.map_eq_some_iff] at h
    obtain ⟨x, hx, same⟩ := h
    obtain ⟨rfl, rfl⟩ := Prod.mk.inj same
    have visible := visible_of_escape hx
    refine ⟨[c], rfl, .escape visible.2 .nil, by simpa using visible, fun next => ?_⟩
    rw [Reads, List.singleton_append, taken_readEscape_short code, hx]
    rfl

theorem taken_readString_quote (cs : List Char) :
    taken? (readString ('"' :: cs)) = some ([], cs) := by
  rw [readString, if_pos rfl]
  rfl

theorem taken_readString_escape (cs : List Char) :
    taken? (readString ('\\' :: cs)) = (taken? (readEscape cs)).bind fun r =>
      (taken? (readString r.2)).map fun s => (r.1 :: s.1, s.2) := by
  rw [readString, if_neg (by decide), if_pos rfl]
  rcases readEscape cs with _ | ⟨d, after, _⟩
  · rfl
  · simp only [taken?, Option.bind_some]
    cases readString after <;> rfl

theorem taken_readString_plain {c : Char} (quote : c ≠ '"') (backslash : c ≠ '\\') (cs : List Char) :
    taken? (readString (c :: cs)) = if c.toNat < 0x20 then none else
      (taken? (readString cs)).map fun s => (c :: s.1, s.2) := by
  rw [readString, if_neg quote, if_neg backslash]
  split_ifs
  · rfl
  · cases readString cs <;> rfl

theorem Quotes.reads {t ds : List Char} (h : Quotes t ds) (next : List Char) :
    Reads readString (t ++ '"' :: next) ds next := by
  induction h with
  | nil => exact taken_readString_quote next
  | plain quote backslash visible _ ih =>
    rw [Reads, List.cons_append, taken_readString_plain quote backslash,
      if_neg (Nat.not_lt.mpr visible), ih]
    rfl
  | escape escapes _ ih =>
    rw [Reads, List.cons_append, List.append_assoc, taken_readString_escape, escapes.reads,
      Option.bind_some, ih]
    rfl

/-- A string is read from its text, whatever follows its closing quote. -/
theorem quotes_readString {cs ds rest : List Char} (h : Reads readString cs ds rest) :
    ∃ t, cs = t ++ '"' :: rest ∧ Quotes t ds := by
  induction hn : cs.length using Nat.strongRecOn generalizing cs ds rest with
  | ind n ih =>
    subst hn
    rcases cs with _ | ⟨c, cs⟩
    · rw [Reads, readString] at h
      cases h
    by_cases quote : c = '"'
    · subst quote
      rw [Reads, taken_readString_quote] at h
      obtain ⟨rfl, rfl⟩ := Prod.mk.inj (Option.some.inj h)
      exact ⟨[], rfl, .nil⟩
    by_cases backslash : c = '\\'
    · subst backslash
      rw [Reads, taken_readString_escape, Option.bind_eq_some_iff] at h
      obtain ⟨⟨d, after⟩, hd, h⟩ := h
      obtain ⟨⟨ds, last⟩, hds, same⟩ := Option.map_eq_some_iff.mp h
      obtain ⟨rfl, rfl⟩ := Prod.mk.inj same
      obtain ⟨e, rfl, escape⟩ := escapes_readEscape hd
      obtain ⟨t, rfl, string⟩ := ih after.length
        (by simp only [List.length_cons, List.length_append]; omega) hds rfl
      exact ⟨'\\' :: (e ++ t), by simp, .escape escape string⟩
    · rw [Reads, taken_readString_plain quote backslash] at h
      split_ifs at h with control
      obtain ⟨⟨ds, last⟩, hds, same⟩ := Option.map_eq_some_iff.mp h
      obtain ⟨rfl, rfl⟩ := Prod.mk.inj same
      obtain ⟨t, rfl, string⟩ := ih cs.length (by simp) hds rfl
      exact ⟨c :: t, rfl, .plain quote backslash (Nat.not_lt.mp control) string⟩

end Lightshow.Json
