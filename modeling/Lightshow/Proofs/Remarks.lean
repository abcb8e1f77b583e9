/-
Comments in a script.

A comment at the end of a line leaves nothing in the document but a blank, in front of the line
feed that ends it.  A line that ends with the text is another matter: the comment reaches over the
bracket that was to close the list, and the document is none.

* `Padded`, `Value.ofText_padded` -- blanks in front of line feeds change nothing;
* `Script.parse_remark` -- what becomes of a script when a comment is added to a line.
-/
import Mathlib
import Lightshow.Proofs.Balance
import Lightshow.Proofs.Document

namespace Lightshow.Json

/-! ### Blanks in front of line feeds -/

/-- The second text has blanks in front of some line feeds of the first, and does without some of
its carriage returns. -/
inductive Padded : List Char → List Char → Prop
  | nil : Padded [] []
  | keep {c : Char} {a b : List Char} : Padded a b → Padded (c :: a) (c :: b)
  | pad {a b : List Char} : Padded a b → Padded ('\n' :: a) (' ' :: '\n' :: b)
  | drop {a b : List Char} : Padded a b → Padded ('\r' :: a) b

namespace Padded

variable {a b c d w : List Char}

theorem refl (a : List Char) : Padded a a := by
  induction a with
  | nil => exact .nil
  | cons c a ih => exact .keep ih

theorem append (h : Padded a b) (k : Padded c d) : Padded (a ++ c) (b ++ d) := by
  induction h with
  | nil => exact k
  | keep _ ih => exact .keep ih
  | pad _ ih => exact .pad ih
  | drop _ ih => exact .drop ih

theorem split (h : Padded (a ++ c) w) : ∃ b d, w = b ++ d ∧ Padded a b ∧ Padded c d := by
  induction a generalizing w with
  | nil => exact ⟨[], w, rfl, .nil, h⟩
  | cons x a ih =>
    cases h with
    | keep h =>
      obtain ⟨b, d, rfl, front, rest⟩ := ih h
      exact ⟨x :: b, d, rfl, .keep front, rest⟩
    | pad h =>
      obtain ⟨b, d, rfl, front, rest⟩ := ih h
      exact ⟨' ' :: '\n' :: b, d, rfl, .pad front, rest⟩
    | drop h =>
      obtain ⟨b, d, rfl, front, rest⟩ := ih h
      exact ⟨b, d, rfl, .drop front, rest⟩

/-- A text without line feeds and carriage returns stays as it is. -/
theorem eq_of_visible (visible : ∀ x ∈ a, 0x20 ≤ x.toNat) (h : Padded a b) : b = a := by
  induction h with
  | nil => rfl
  | keep _ ih => rw [ih (List.forall_mem_cons.mp visible).2]
  | pad => exact absurd (visible '\n' List.mem_cons_self) (by decide)
  | drop => exact absurd (visible '\r' List.mem_cons_self) (by decide)

theorem cons {x : Char} (visible : 0x20 ≤ x.toNat) (h : Padded (x :: c) w) :
    ∃ d, w = x :: d ∧ Padded c d := by
  obtain ⟨b, d, rfl, front, rest⟩ := split (a := [x]) h
  rw [eq_of_visible (by simpa using visible) front]
  exact ⟨d, rfl, rest⟩

theorem blank (h : Padded a b) (blank : Blank a) : Blank b := by
  induction h with
  | nil => exact .nil
  | keep _ ih =>
    obtain ⟨first, others⟩ := List.forall_mem_cons.mp blank
    exact List.forall_mem_cons.mpr ⟨first, ih others⟩
  | pad _ ih =>
    obtain ⟨first, others⟩ := List.forall_mem_cons.mp blank
    exact List.forall_mem_cons.mpr ⟨rfl, List.forall_mem_cons.mpr ⟨rfl, ih others⟩⟩
  | drop _ ih => exact ih (List.forall_mem_cons.mp blank).2

end Padded

theorem visible_of_isFigure {c : Char} (h : isFigure c = true) : 0x20 ≤ c.toNat := by
  simp only [isFigure, Bool.or_eq_true, decide_eq_true_eq] at h
  rcases h with ((((digit | rfl) | rfl) | rfl) | rfl) | rfl
  · simp only [Char.isDigit, Bool.and_eq_true, decide_eq_true_eq] at digit
    have : 48 ≤ c.toNat := digit.1
    omega
  all_goals decide

theorem Leaf.visible {t : List Char} {v : Value} (h : Leaf t v) : ∀ c ∈ t, 0x20 ≤ c.toNat := by
  cases h with
  | null | yes | no => simp
  | positive _ figures => exact fun c hc => visible_of_isFigure (figures.1 c hc)
  | negative figures =>
    refine List.forall_mem_cons.mpr ⟨by decide, fun c hc => ?_⟩
    exact visible_of_isFigure (figures.1 c hc)
  | text quotes =>
    intro c hc
    rcases List.mem_cons.mp hc with rfl | hc
    · decide
    · rcases List.mem_append.mp hc with hc | hc
      · exact quotes.visible c hc
      · rw [List.mem_singleton.mp hc]
        decide

theorem Leaf.padded {t u : List Char} {v : Value} (h : Leaf t v) (padded : Padded t u) : Leaf u v :=
  padded.eq_of_visible h.visible ▸ h

section

variable {α : Type} {spelled : List Char → α → Prop}
  (item : ∀ {t u : List Char} {a : α}, spelled t a → Padded t u → spelled u a)

include item

theorem Items.padded {first : Bool} {t u : List Char} {as : List α}
    (h : Items Blank spelled first t as) (padded : Padded t u) : Items Blank spelled first u as := by
  induction h generalizing u with
  | nil blank => exact .nil (padded.blank blank)
  | first blank spells _ ih =>
    obtain ⟨g, u, rfl, gap, rest⟩ := padded.split
    obtain ⟨u, k, rfl, here, others⟩ := rest.split
    exact .first (gap.blank blank) (item spells here) (ih others)
  | next blank blank' spells _ ih =>
    obtain ⟨g, u, rfl, gap, rest⟩ := padded.split
    obtain ⟨w, rfl, behind⟩ := rest.cons (by decide)
    obtain ⟨h, w, rfl, gap', behind⟩ := behind.split
    obtain ⟨w, k, rfl, here, others⟩ := behind.split
    exact .next (gap.blank blank) (gap'.blank blank') (item spells here) (ih others)

theorem FieldText.padded {t u : List Char} {f : String × α} (h : FieldText spelled t f)
    (padded : Padded t u) : FieldText spelled u f := by
  obtain ⟨quotes, blank, blank', spells⟩ := h
  obtain ⟨u, rfl, string⟩ := padded.cons (by decide)
  obtain ⟨k, u, rfl, name, quote⟩ := string.split
  obtain ⟨u, rfl, rest⟩ := quote.cons (by decide)
  obtain ⟨g, u, rfl, gap, colon⟩ := rest.split
  obtain ⟨u, rfl, behind⟩ := colon.cons (by decide)
  obtain ⟨h, u, rfl, gap', value⟩ := behind.split
  rw [name.eq_of_visible quotes.visible]
  exact .mk quotes (gap.blank blank) (gap'.blank blank') (item spells value)

end

theorem Value.Text.padded {limit : Nat} {t u : List Char} {v : Value} (h : Value.Text limit t v)
    (padded : Padded t u) : Value.Text limit u v := by
  induction limit generalizing t u v with
  | zero => exact Leaf.padded h padded
  | succ limit ih =>
    cases h with
    | leaf leaf => exact Layer.leaf (leaf.padded padded)
    | list items =>
      obtain ⟨u, rfl, rest⟩ := padded.cons (by decide)
      obtain ⟨u, k, rfl, inner, close⟩ := rest.split
      obtain rfl := close.eq_of_visible (by simp)
      exact Layer.list (items.padded @ih inner)
    | object fields =>
      obtain ⟨u, rfl, rest⟩ := padded.cons (by decide)
      obtain ⟨u, k, rfl, inner, close⟩ := rest.split
      obtain rfl := close.eq_of_visible (by simp)
      exact Layer.object (fields.padded (@FieldText.padded _ _ @ih) inner)

/-- Blanks in front of line feeds do not change what a text is read as. -/
theorem Value.ofText_padded {t u : List Char} {v : Value} (h : Value.ofText t = .ok v)
    (padded : Padded t u) : Value.ofText u = .ok v := by
  obtain ⟨g, t, k, rfl, blank, blank', text⟩ := Value.ofText_eq_ok_iff.mp h
  obtain ⟨g, u, rfl, gap, rest⟩ := padded.split
  obtain ⟨u, k, rfl, here, gap'⟩ := rest.split
  exact Value.ofText_eq_ok_iff.mpr
    ⟨g, u, k, rfl, gap.blank blank, gap'.blank blank', text.padded here⟩

end Lightshow.Json

namespace Lightshow

open Json ScriptText

/-! ### Comments -/

/-- Where a line ends: at a line feed, with or without a carriage return in front, or with the
text. -/
inductive LineEnd : List Char → Prop
  | feed (rest : List Char) : LineEnd ('\n' :: rest)
  | carriage (rest : List Char) : LineEnd ('\r' :: '\n' :: rest)
  | last : LineEnd []

/-- A comment, with a blank in front of it. -/
def remark (t : List Char) : List Char := ' ' :: '/' :: '/' :: t

variable {l r t : List Char}

theorem dropLastComma_cons {c : Char} (h : c ≠ ',') (cs : List Char) :
    dropLastComma (c :: cs) = c :: dropLastComma cs := by
  have plain : ',' ∉ [c] := by simpa using h.symm
  rw [← List.singleton_append, dropLastComma_append, dropLastComma_of_not_mem plain]
  split_ifs with comma
  · rfl
  · rw [dropLastComma_of_not_mem comma]
    rfl

theorem LineEnd.dropLastComma (h : LineEnd r) : LineEnd (dropLastComma r) := by
  cases h with
  | feed rest =>
    rw [dropLastComma_cons (by decide)]
    exact .feed _
  | carriage rest =>
    rw [dropLastComma_cons (by decide), dropLastComma_cons (by decide)]
    exact .carriage _
  | last => exact .last

/-- The last comma is the same one when a comment without commas is added. -/
theorem dropLastComma_remark (comma : ',' ∉ t) (h : LineEnd r) (l : List Char) :
    ∃ l' r', LineEnd r' ∧ (r' = [] ↔ r = []) ∧ dropLastComma (l ++ r) = l' ++ r' ∧
      dropLastComma (l ++ (remark t ++ r)) = l' ++ (remark t ++ r') := by
  have plain : ',' ∉ remark t := by simpa [remark] using comma
  rw [dropLastComma_append, dropLastComma_append l, dropLastComma_append (remark t),
    dropLastComma_of_not_mem plain]
  by_cases behind : ',' ∈ r
  · rw [if_pos behind, if_pos (List.mem_append_right _ behind), if_pos behind]
    refine ⟨l, _, h.dropLastComma, ?_, rfl, rfl⟩
    cases h with
    | feed rest => simp [dropLastComma_cons]
    | carriage rest => simp [dropLastComma_cons]
    | last => rfl
  · have none : ',' ∉ remark t ++ r := fun hc => (List.mem_append.mp hc).elim plain behind
    rw [if_neg behind, if_neg none]
    exact ⟨ScriptText.dropLastComma l, r, h, Iff.rfl, rfl, rfl⟩

/-- The rest of a text, after a comment is added in front of it. -/
theorem strictText_remark (apart : ∀ c ∈ r.head?, isHexish c = false ∧ c ≠ '/') (l t : List Char) :
    ∃ inside, strictText (l ++ r) = strictText l ++ (dropComments inside (decimalHex r)).map strictMark ∧
      strictText (l ++ (remark t ++ r)) = strictText l ++
        (if inside then [] else [' ']) ++ (dropComments true (decimalHex (t ++ r))).map strictMark := by
  have blank : Apart l (remark t ++ r) := Apart.of_head fun c hc => Option.some.inj hc ▸ by decide
  have slash : isHexish '/' = false := by decide
  have comment : decimalHex (remark t ++ r) = ' ' :: '/' :: '/' :: decimalHex (t ++ r) := by
    rw [remark, List.cons_append, List.cons_append, List.cons_append, decimalHex_plain (by decide),
      decimalHex_plain slash, decimalHex_plain slash]
  refine ⟨endsInside false (decimalHex l), ?_, ?_⟩
  · exact strictText_append (Apart.of_head fun c hc => (apart c hc).1)
      fun hr => (apart '/' hr).2 rfl
  · rw [strictText_append blank (by simp [remark]), comment, List.append_assoc]
    cases endsInside false (decimalHex l) <;> rfl

/-- In front of a line feed, a comment is at most a blank. -/
theorem padded_remark (line : '\n' ∉ t) (h : LineEnd r) (some_r : r ≠ []) (l tail : List Char) :
    Padded (strictText (l ++ (r ++ tail))) (strictText (l ++ (remark t ++ (r ++ tail)))) := by
  have apart : ∀ c ∈ (r ++ tail).head?, isHexish c = false ∧ c ≠ '/' := by
    cases h with
    | feed rest => exact fun c hc => Option.some.inj hc ▸ by decide
    | carriage rest => exact fun c hc => Option.some.inj hc ▸ by decide
    | last => exact absurd rfl some_r
  obtain ⟨inside, old, new⟩ := strictText_remark apart l t
  rw [old, new, List.append_assoc]
  refine (Padded.refl _).append ?_
  cases h with
  | feed rest =>
    have plain : '\n' ∉ decimalHex t := mt (mem_decimalHex (by decide)).mp line
    rw [List.cons_append, decimalHex_barrier (by decide), decimalHex_plain (by decide),
      dropComments_line plain, dropComments]
    cases inside with
    | true => exact Padded.refl _
    | false => exact .pad (Padded.refl _)
  | carriage rest =>
    have plain : '\n' ∉ decimalHex (t ++ ['\r']) :=
      mt (mem_decimalHex (by decide)).mp (by simpa using line)
    rw [List.cons_append, List.cons_append, List.append_cons, decimalHex_barrier (by decide),
      decimalHex_plain (by decide), decimalHex_plain (by decide), dropComments_line plain]
    cases inside with
    | true => exact Padded.refl _
    | false => exact .drop (.pad (Padded.refl _))
  | last => exact absurd rfl some_r

/-- A comment at the end of the text reaches over what closes the list. -/
theorem strictText_last_remark (line : '\n' ∉ t) (l : List Char) :
    strictText (l ++ (remark t ++ [' ', ']'])) = strictText (l ++ [' ', ']']) ∨
      strictText (l ++ [' ', ']']) = strictText l ++ [' ', ']'] ∧
        strictText (l ++ (remark t ++ [' ', ']'])) = strictText l ++ [' '] := by
  have apart : ∀ c ∈ [' ', ']'].head?, isHexish c = false ∧ c ≠ '/' :=
    fun c hc => Option.some.inj hc ▸ by decide
  obtain ⟨inside, old, new⟩ := strictText_remark apart l t
  have plain : '\n' ∉ decimalHex (t ++ [' ', ']']) :=
    mt (mem_decimalHex (by decide)).mp (by simpa using line)
  rw [old, new, (dropComments_comment plain).1, List.map_nil, List.append_nil]
  cases inside with
  | true => exact .inl rfl
  | false => exact .inr ⟨rfl, rfl⟩

/-- A text that closes all brackets does not close them without the last one. -/
theorem past_cut {s : Scan} (h : s.past [' ', ']', ' ', '\x7d'] = ⟨.outside, 0⟩) :
    s.past [' ', ' ', '\x7d'] ≠ ⟨.outside, 0⟩ := by
  obtain ⟨place, opened⟩ := s
  cases place with
  | outside =>
    simp [Scan.past, Scan.step] at h ⊢
    omega
  | inString => simp [Scan.past, Scan.step] at h
  | escaped => simp [Scan.past, Scan.step] at h

/-- **A comment that is added at the end of a line changes nothing**, except at the end of a text
that has no line feed there: then it can make the text malformed, but no other script. -/
theorem Script.parse_remark {s : Script} (h : Script.parse (String.ofList (l ++ r)) = .ok s)
    (stop : LineEnd r) (line : '\n' ∉ t) (comma : ',' ∉ t) :
    Script.parse (String.ofList (l ++ (remark t ++ r))) = .ok s ∨
      r = [] ∧ ∃ fault, Script.parse (String.ofList (l ++ (remark t ++ r))) = .error (.malformed fault) := by
  obtain ⟨l', r', stop', none, old, new⟩ := dropLastComma_remark comma stop l
  obtain ⟨document, read, hs⟩ := Script.parse_eq_ok_iff.mp h
  rw [normalize_toList, String.toList_ofList, old, List.append_assoc] at read
  have text := normalize_toList (String.ofList (l ++ (remark t ++ r)))
  rw [String.toList_ofList, new, List.append_assoc, List.append_assoc] at text
  by_cases last : r = []
  · obtain rfl := none.mpr last
    rw [List.nil_append] at read text
    rcases strictText_last_remark line l' with same | ⟨closed, cut⟩
    · left
      rw [same] at text
      exact Script.parse_eq_ok_iff.mpr ⟨document, text ▸ read, hs⟩
    · refine .inr ⟨last, ?_⟩
      have front : ∀ tail, '\x7b' :: ' ' :: (fieldText ++ (strictText l' ++ tail)) =
          ('\x7b' :: ' ' :: (fieldText ++ strictText l')) ++ tail := by simp
      rw [closed, List.append_assoc, front] at read
      rw [cut, List.append_assoc, front] at text
      cases result : Value.ofText (normalize (String.ofList (l ++ (remark t ++ r)))).toList with
      | error fault =>
        refine ⟨fault, ?_⟩
        rw [Script.parse, result]
      | ok v =>
        -- the document closed all brackets, and one of them is gone
        have closes := past_of_ofText (n := 0) read
        have cuts := past_of_ofText (n := 0) (text ▸ result)
        rw [Scan.past_append] at closes cuts
        exact absurd cuts (past_cut closes)
  · left
    have padded := padded_remark line stop' (mt none.mp last) l' [' ', ']']
    refine Script.parse_eq_ok_iff.mpr ⟨document, ?_, hs⟩
    rw [text]
    refine Value.ofText_padded read ?_
    exact .keep (.keep ((Padded.refl _).append (padded.append (Padded.refl _))))

theorem Script.parse_remark_fade :
    (Script.parse (String.ofList ("[1, ['f', 2]],".toList ++ "\n".toList)) = .ok ⟨[⟨1, .fade, [2]⟩]⟩ ∧
      LineEnd "\n".toList ∧ '\n' ∉ " slow".toList ∧ ',' ∉ " slow".toList) ∧
      (Script.parse (String.ofList ("[1, ['f', 2]],".toList ++ (remark " slow".toList ++ "\n".toList))) =
          .ok ⟨[⟨1, .fade, [2]⟩]⟩ ∨
        "\n".toList = [] ∧ ∃ fault, Script.parse (String.ofList ("[1, ['f', 2]],".toList ++
          (remark " slow".toList ++ "\n".toList))) = .error (.malformed fault)) := by
  have parsed : Script.parse (String.ofList ("[1, ['f', 2]],".toList ++ "\n".toList)) =
      .ok ⟨[⟨1, .fade, [2]⟩]⟩ := by cbv
  have stop : LineEnd "\n".toList := .feed []
  have line : '\n' ∉ " slow".toList := by decide
  have comma : ',' ∉ " slow".toList := by decide
  exact ⟨⟨parsed, stop, line, comma⟩, Script.parse_remark parsed stop line comma⟩

/-- A script without a line feed at its end, and a comment that makes it malformed. -/
theorem Script.parse_last_remark :
    Script.parse "[1, ['f', 2]]," = .ok ⟨[⟨1, .fade, [2]⟩]⟩ ∧
      (Script.parse "[1, ['f', 2]], // done").toOption = none :=
  ⟨by cbv, by decide +kernel⟩

end Lightshow
