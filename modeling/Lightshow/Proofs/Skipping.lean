/-
Passing over the values that nobody asks for.

A value is passed over without being built.  Lists and objects are not recursed into but kept as a list
of what is open, so the statement that an induction over a value needs is about everything that is open
around it: behind the text of the value, its surroundings go on as they would behind any other value.

* `left_skipNumber`, `Quotes.left_skipString` -- what is read as a number or a string is passed over;
* `Value.Text.left_skipInside` -- so is the text of every value, whatever is open around it;
* `Value.Text.left_skipValue` -- the case of a value with nothing open around it.
-/
import Lightshow.Proofs.Grammar

namespace Lightshow.Json

/-! ### Numbers -/

theorem head_any_iff {p : Char → Bool} {cs : List Char} :
    cs.head?.any p = true ↔ ∃ c rest, cs = c :: rest ∧ p c = true := by
  cases cs <;> simp

theorem left_skipExponent (cs : List Char) : left? (skipExponent cs) =
    if (unsigned cs).head?.any Char.isDigit then some ((unsigned cs).dropWhile Char.isDigit)
    else none := by
  rw [skipExponent.eq_def]
  split
  rename_i digits h same
  have whole : unsigned cs = digits := by
    split at same
    case h_3 plus minus =>
      rw [unsigned]
      · exact congrArg Subtype.val same
      · exact plus
      · exact minus
    all_goals exact congrArg Subtype.val same
  rw [whole]
  split_ifs
  · rfl
  · cases digits <;> rfl

theorem left_skipScale_exponent {c : Char} (e : c = 'e' ∨ c = 'E') (cs : List Char) :
    left? (skipScale (c :: cs)) = left? (skipExponent cs) := by
  rw [skipScale, if_pos e]
  cases skipExponent cs <;> rfl

theorem left_skipScale_none {cs : List Char} (none : ∀ c ∈ cs.head?, c ≠ 'e' ∧ c ≠ 'E') :
    left? (skipScale cs) = some cs := by
  rcases cs with _ | ⟨c, cs⟩
  · rfl
  · rw [skipScale, if_neg (by simpa using none c rfl)]
    rfl

theorem left_skipFraction_point {cs : List Char} (digits : cs.takeWhile Char.isDigit ≠ []) :
    left? (skipFraction ('.' :: cs)) = left? (skipScale (cs.dropWhile Char.isDigit)) := by
  have begins : cs.head?.any Char.isDigit = true := by
    rcases cs with _ | ⟨c, cs⟩
    · exact absurd rfl digits
    · by_contra other
      exact digits (List.takeWhile_cons_of_neg other)
  rw [skipFraction, if_pos begins]
  change left? (skipScale (cs.dropWhile Char.isDigit) >>= _) = _
  cases skipScale (cs.dropWhile Char.isDigit) <;> rfl

theorem skipFraction_other {cs : List Char} (other : ∀ c ∈ cs.head?, c ≠ '.') :
    skipFraction cs = skipScale cs := by
  rw [skipFraction.eq_def]
  split
  · exact absurd rfl (other '.' rfl)
  · rfl

/-- What is left behind the digits of an exponent begins with no digit. -/
theorem exponentDigits_dropWhile (exponent : Nat) (cs : List Char) :
    (∀ e, (exponentDigits exponent cs).1 = some e →
      (exponentDigits exponent cs).2 = cs.dropWhile Char.isDigit) ∧
    (exponentDigits exponent cs).2.dropWhile Char.isDigit = cs.dropWhile Char.isDigit := by
  induction cs generalizing exponent with
  | nil => exact ⟨fun _ _ => rfl, rfl⟩
  | cons c cs ih =>
    rw [exponentDigits_cons, List.dropWhile_cons]
    split_ifs
    · exact ih _
    · exact ⟨nofun, rfl⟩
    · exact ⟨fun _ _ => rfl, List.dropWhile_cons_of_neg ‹_›⟩

theorem rest_of_readPower {p s k g cs n rest} (h : Reads (readPower p s k g) cs n rest) :
    (∃ c after, cs = c :: after ∧ c.isDigit = true) ∧ rest = cs.dropWhile Char.isDigit := by
  rcases cs with _ | ⟨c, cs⟩
  · cases h
  rw [Reads, taken_readPower] at h
  by_cases digit : c.isDigit = true
  case neg => rw [if_neg digit] at h; cases h
  rw [if_pos digit] at h
  refine ⟨⟨c, cs, rfl, digit⟩, ?_⟩
  obtain ⟨whole, zero⟩ := exponentDigits_dropWhile (digitValue c) cs
  rw [List.dropWhile_cons_of_pos digit]
  split at h
  case h_1 e after he =>
    obtain ⟨x, -, found⟩ := Option.map_eq_some_iff.mp h
    obtain ⟨-, rfl⟩ := Prod.mk.inj found
    rw [he] at whole
    exact whole e rfl
  case h_2 after he =>
    by_cases fits : s ≠ 0 ∧ g = true
    case pos => rw [if_pos fits] at h; cases h
    rw [if_neg fits] at h
    obtain ⟨-, rfl⟩ := Prod.mk.inj (Option.some.inj h)
    rw [he] at zero
    exact zero

theorem Reads.left_skipExponent {p s k cs n rest} (h : Reads (readExponent p s k) cs n rest) :
    left? (skipExponent cs) = some rest := by
  obtain ⟨g, same⟩ := taken_readExponent p s k cs
  rw [Reads, same] at h
  obtain ⟨⟨c, after, begins, digit⟩, rfl⟩ := rest_of_readPower h
  rw [Json.left_skipExponent, if_pos (by rw [begins]; exact digit)]

theorem Reads.left_skipScale {p s k cs n rest} (h : Reads (readScale p s k) cs n rest) :
    left? (skipScale cs) = some rest := by
  rcases readScale_cases h with ⟨c, after, rfl, e, h⟩ | ⟨none, h⟩
  · rw [left_skipScale_exponent e, h.left_skipExponent]
  · rw [left_skipScale_none none, (figures_endDouble h).1]

theorem Reads.left_skipFraction {p s d cs n rest} (h : Reads (readAfterInteger p s d) cs n rest) :
    left? (skipFraction cs) = some rest := by
  rcases readAfterInteger_cases h with plain | ⟨after, rfl, digits, h⟩ | ⟨c, after, rfl, e, h⟩
  · rw [Reads, taken_readAfterInteger_end plain] at h
    have same : cs = rest := by
      split_ifs at h
      · exact (figures_endDouble h).1
      · exact (Prod.mk.inj (Option.some.inj h)).2
    rw [skipFraction_other fun c hc => (plain c hc).1, left_skipScale_none fun c hc => (plain c hc).2,
      same]
  · rw [left_skipFraction_point digits, h.left_skipScale]
  · have other : ∀ x ∈ (c :: after).head?, x ≠ '.' := by
      rintro x ⟨⟩
      rcases e with rfl | rfl <;> decide
    rw [skipFraction_other other, left_skipScale_exponent e, h.left_skipExponent]

/-- What is read as a number is passed over. -/
theorem Reads.left_skipNumber {p cs n rest} (h : Reads (readDigits p) cs n rest) :
    left? (skipNumber cs) = some rest := by
  obtain ⟨c, t, rfl, digit, -⟩ := figures_readDigits h
  rw [skipNumber]
  by_cases zero : c = '0'
  · subst zero
    have stops := stops_of_leading_zero h
    rw [Reads, taken_readDigits_zero stops] at h
    have none : ¬(t ++ rest).head?.any Char.isDigit = true := by
      rw [head_any_iff]
      rintro ⟨d, after, same, isDigit⟩
      rw [stops d (by rw [same]; rfl)] at isDigit
      cases isDigit
    rw [if_pos rfl, if_neg none, ← Reads.left_skipFraction h]
    cases skipFraction (t ++ rest) <;> rfl
  · rw [Reads, taken_readDigits_other digit zero] at h
    rw [if_neg zero, if_pos digit, ← Reads.left_skipFraction h]
    change left? (skipFraction ((t ++ rest).dropWhile Char.isDigit) >>= _) = _
    cases skipFraction ((t ++ rest).dropWhile Char.isDigit) <;> rfl

/-! ### Strings -/

theorem left_skipString_quote (cs : List Char) : left? (skipString ('"' :: cs)) = some cs := by
  rw [skipString, if_pos rfl]
  rfl

theorem left_skipString_escape (cs : List Char) :
    left? (skipString ('\\' :: cs)) = (left? (skipEscape cs)).bind fun r => left? (skipString r) := by
  rw [skipString, if_neg (by decide), if_pos rfl]
  rcases skipEscape cs with _ | ⟨after, _⟩
  · rfl
  · change _ = left? (skipString after)
    dsimp only
    cases skipString after <;> rfl

theorem left_skipString_plain {c : Char} (quote : c ≠ '"') (backslash : c ≠ '\\')
    (visible : 0x20 ≤ c.toNat) (cs : List Char) :
    left? (skipString (c :: cs)) = left? (skipString cs) := by
  rw [skipString, if_neg quote, if_neg backslash, if_neg (Nat.not_lt.mpr visible)]
  cases skipString cs <;> rfl

theorem left_skipEscape_code (cs : List Char) :
    left? (skipEscape ('u' :: cs)) = (taken? (readHex cs)).map (·.2) := by
  rw [skipEscape, if_pos rfl]
  cases readHex cs <;> rfl

theorem left_skipEscape_short {c d : Char} (short : escape? c = some d) (cs : List Char) :
    left? (skipEscape (c :: cs)) = some cs := by
  have known : c ≠ 'u' ∧ "\"\\/bfnrt".toList.contains c = true := by
    rw [escape?] at short
    split_ifs at short with simple b f n r t
    · rcases simple with rfl | rfl | rfl <;> decide
    all_goals subst c; decide
  rw [skipEscape, if_neg known.1, if_pos known.2]
  rfl

/-- A character written as two codes is passed over as two escapes. -/
theorem Escapes.left_skipString {e : List Char} {d : Char} (h : Escapes e d) (next : List Char) :
    left? (skipString ('\\' :: (e ++ next))) = left? (skipString next) := by
  have read := h.reads next
  rcases e with _ | ⟨c, e⟩
  · exact absurd (h.reads []) nofun
  rw [List.cons_append] at read ⊢
  rw [left_skipString_escape]
  by_cases code : c = 'u'
  · subst code
    rw [Reads, taken_readEscape_code, Option.bind_eq_some_iff] at read
    obtain ⟨⟨unit, after⟩, hunit, read⟩ := read
    rw [left_skipEscape_code, hunit, Option.map_some, Option.bind_some]
    dsimp only at read ⊢
    by_cases low : 0xDC00 ≤ unit ∧ unit ≤ 0xDFFF
    case pos => rw [if_pos low] at read; cases read
    rw [if_neg low] at read
    by_cases high : 0xD800 ≤ unit ∧ unit ≤ 0xDBFF
    · rw [if_pos high] at read
      obtain ⟨more, half, rfl, hhalf, -⟩ := hex_of_readLowSurrogate read
      rw [left_skipString_escape, left_skipEscape_code, hhalf, Option.map_some, Option.bind_some]
    · rw [if_neg high] at read
      rw [(Prod.mk.inj (Option.some.inj read)).2]
  · rw [Reads, taken_readEscape_short code, Option.map_eq_some_iff] at read
    obtain ⟨x, short, same⟩ := read
    rw [left_skipEscape_short short, (Prod.mk.inj same).2, Option.bind_some]

/-- What is read as a string is passed over. -/
theorem Quotes.left_skipString {t ds : List Char} (h : Quotes t ds) (next : List Char) :
    left? (skipString (t ++ '"' :: next)) = some next := by
  induction h with
  | nil => exact left_skipString_quote next
  | plain quote backslash visible _ ih =>
    rw [List.cons_append, left_skipString_plain quote backslash visible, ih]
  | escape escapes _ ih =>
    rw [List.cons_append, List.append_assoc, escapes.left_skipString, ih]

/-! ### Values -/

section

variable {enclosing outer : List Enclosing} {cs rest : List Char} {c : Char}

theorem left_skipInside_opening (opening : c = '[' ∨ c = '\x7b') (h : skipBlanks cs = c :: rest) :
    left? (skipInside enclosing cs) =
      left? (skipRest ((if c = '[' then .list else .object) :: enclosing) false rest) := by
  rw [skipInside.eq_def]
  split
  case h_1 h' => cases h.symm.trans h'
  case h_2 h' =>
    obtain ⟨rfl, rfl⟩ := List.cons.inj (h.symm.trans h')
    rw [if_pos opening]
    cases skipRest ((if c = '[' then .list else .object) :: enclosing) false rest <;> rfl

theorem left_skipInside_simple (list : c ≠ '[') (object : c ≠ '\x7b') (h : skipBlanks cs = c :: rest) :
    left? (skipInside enclosing cs) =
      (left? (skipSimple c rest)).bind fun after => left? (skipRest enclosing true after) := by
  rw [skipInside.eq_def]
  split
  case h_1 h' => cases h.symm.trans h'
  case h_2 h' =>
    obtain ⟨rfl, rfl⟩ := List.cons.inj (h.symm.trans h')
    rw [if_neg (not_or.mpr ⟨list, object⟩)]
    rcases skipSimple c rest with _ | ⟨after, _⟩
    · rfl
    · change _ = left? (skipRest enclosing true after)
      dsimp only
      cases skipRest enclosing true after <;> rfl

theorem left_skipName (h : skipBlanks cs = '"' :: rest) :
    left? (skipName cs) = (left? (skipString rest)).bind fun colon => left? (readColon colon) := by
  rw [skipName.eq_def]
  split
  case h_1 h' => cases h.symm.trans h'
  case h_2 h' =>
    obtain ⟨rfl, rfl⟩ := List.cons.inj (h.symm.trans h')
    rw [if_pos rfl]
    rcases skipString rest with _ | ⟨colon, _⟩
    · rfl
    · change _ = left? (readColon colon)
      change left? (readColon colon >>= _) = _
      cases readColon colon <;> rfl

/-- What is left behind an entry of what is open, and behind all that comes after it. -/
def entryLeft? (e : Enclosing) (outer : List Enclosing) (entry : List Char) : Option (List Char) :=
  match e with
  | .list => left? (skipInside (.list :: outer) entry)
  | .object =>
    (left? (skipName entry)).bind fun value => left? (skipInside (.object :: outer) value)

theorem left_skipRest (e : Enclosing) (comma : Bool) (h : skipBlanks cs = c :: rest) :
    left? (skipRest (e :: outer) comma cs) =
      if c = e.close then left? (skipRest outer true rest)
      else if comma && c ≠ ',' then none
      else entryLeft? e outer (if comma then rest else c :: rest) := by
  rw [skipRest.eq_def]
  dsimp only
  split
  case h_1 h' => cases h.symm.trans h'
  case h_2 h' =>
    obtain ⟨rfl, rfl⟩ := List.cons.inj (h.symm.trans h')
    by_cases close : c = e.close
    · rw [if_pos close, if_pos close]
      cases skipRest outer true rest <;> rfl
    rw [if_neg close, if_neg close]
    by_cases missing : (comma && c ≠ ',') = true
    · rw [if_pos missing, if_pos missing]
      rfl
    rw [if_neg missing, if_neg missing]
    generalize chosen : (if comma = true then (⟨rest, _⟩ : { t : List Char // t.length ≤ cs.length })
      else ⟨c :: rest, _⟩) = entry
    have whole : (if comma then rest else c :: rest) = entry.1 := by
      rw [← chosen]
      cases comma <;> rfl
    rw [whole]
    obtain ⟨entry, _⟩ := entry
    cases e with
    | list =>
      rw [entryLeft?]
      cases skipInside (.list :: outer) entry <;> rfl
    | object =>
      rw [entryLeft?]
      rcases skipName entry with _ | ⟨value, _⟩
      · rfl
      · change _ = left? (skipInside (.object :: outer) value)
        dsimp only
        cases skipInside (.object :: outer) value <;> rfl

/-- The text of an entry: behind blanks and in front of whatever ends a number, it is passed over. -/
structure Passed (e : Enclosing) (outer : List Enclosing) (u : List Char) : Prop where
  begins : ∃ c v, u = c :: v ∧ isBlank c = false ∧ c ≠ e.close
  passes : ∀ g more, Blank g → EndsNumber more →
    entryLeft? e outer (g ++ (u ++ more)) = left? (skipRest (e :: outer) true more)

theorem close_solid (e : Enclosing) : isBlank e.close = false ∧ e.close ≠ ',' := by
  cases e <;> decide

/-- The rest of a list or object is passed over up to what closes it. -/
theorem Items.left_skipRest {α : Type} {spelled : List Char → α → Prop} {e : Enclosing}
    (passed : ∀ {u : List Char} {a : α}, spelled u a → Passed e outer u) {first : Bool}
    {t : List Char} {as : List α} (h : Items Blank spelled first t as) (rest : List Char) :
    left? (skipRest (e :: outer) (!first) (t ++ e.close :: rest)) = left? (skipRest outer true rest) := by
  have ends : EndsNumber (e.close :: rest) := fun d hd => Option.some.inj hd ▸ by cases e <;> decide
  induction h with
  | @nil first g blank =>
    have close : skipBlanks (g ++ e.close :: rest) = e.close :: rest :=
      (skipBlanks_append blank _).trans (skipBlanks_cons (close_solid e).1 rest)
    rw [Json.left_skipRest e _ close, if_pos rfl]
  | @first g u t a as blank spelled others ih =>
    obtain ⟨⟨c, v, rfl, solid, open_⟩, passes⟩ := passed spelled
    have start : skipBlanks (g ++ (c :: v ++ t) ++ e.close :: rest) =
        c :: (v ++ (t ++ e.close :: rest)) := by
      rw [List.append_assoc, skipBlanks_append blank, List.append_assoc]
      exact skipBlanks_cons solid _
    have read := passes [] _ .nil (others.endsNumber ends)
    rw [Json.left_skipRest e _ start, if_neg open_]
    exact read.trans ih
  | @next g h u t a as blank blank' spelled others ih =>
    have comma : skipBlanks (g ++ ',' :: (h ++ (u ++ t)) ++ e.close :: rest) =
        ',' :: (h ++ (u ++ t) ++ e.close :: rest) := by
      rw [List.append_assoc, skipBlanks_append blank]
      exact skipBlanks_cons rfl _
    have read := (passed spelled).passes h _ blank' (others.endsNumber ends)
    rw [Json.left_skipRest e _ comma, if_neg (close_solid e).2.symm, if_neg (by simp), Bool.not_false,
      if_pos rfl, List.append_assoc, List.append_assoc]
    exact read.trans ih

/-- What is read as a value that opens nothing is passed over. -/
theorem Leaf.left_skipSimple {t : List Char} {v : Value} (h : Leaf t v) (ends : EndsNumber rest) :
    ∃ c u, t = c :: u ∧ isBlank c = false ∧ c ≠ '[' ∧ c ≠ '\x7b' ∧
      left? (skipSimple c (u ++ rest)) = some rest := by
  cases h with
  | null =>
    refine ⟨_, _, rfl, rfl, by decide, by decide, ?_⟩
    rw [skipSimple, if_pos rfl]
    exact readWord_append _ rest
  | yes =>
    refine ⟨_, _, rfl, rfl, by decide, by decide, ?_⟩
    rw [skipSimple, if_neg (by decide), if_pos rfl]
    exact readWord_append _ rest
  | no =>
    refine ⟨_, _, rfl, rfl, by decide, by decide, ?_⟩
    rw [skipSimple, if_neg (by decide), if_neg (by decide), if_pos rfl]
    exact readWord_append _ rest
  | @positive c u n digit figures =>
    have other {d : Char} : d.isDigit = false → c ≠ d := ne_of_digit digit
    have read : left? (skipNumber (c :: (u ++ rest))) = some rest :=
      Reads.left_skipNumber (figures.2 rest ends)
    refine ⟨c, u, rfl, isBlank_of_digit digit, other rfl, other rfl, ?_⟩
    rw [skipSimple, if_neg (other rfl), if_neg (other rfl), if_neg (other rfl), if_neg (other rfl),
      if_pos digit, ← read]
    cases skipNumber (c :: (u ++ rest)) <;> rfl
  | @negative u n figures =>
    refine ⟨_, _, rfl, rfl, by decide, by decide, ?_⟩
    rw [skipSimple, if_neg (by decide), if_neg (by decide), if_neg (by decide), if_pos rfl,
      ← Reads.left_skipNumber (figures.2 rest ends)]
    cases skipNumber (u ++ rest) <;> rfl
  | @text u ds quotes =>
    refine ⟨_, _, rfl, rfl, by decide, by decide, ?_⟩
    rw [skipSimple, if_neg (by decide), if_neg (by decide), if_neg (by decide), if_neg (by decide),
      if_neg (by decide), if_pos rfl, List.append_assoc, List.singleton_append,
      ← quotes.left_skipString rest]
    cases skipString (u ++ '"' :: rest) <;> rfl

theorem Leaf.left_skipInside {t : List Char} {v : Value} (h : Leaf t v) (enclosing : List Enclosing)
    {g : List Char} (blank : Blank g) (ends : EndsNumber rest) :
    left? (skipInside enclosing (g ++ (t ++ rest))) = left? (skipRest enclosing true rest) := by
  obtain ⟨c, u, rfl, solid, list, object, skips⟩ := h.left_skipSimple ends
  rw [left_skipInside_simple list object (skipBlanks_text blank solid), skips, Option.bind_some]

/-- A field is passed over if its value is. -/
theorem FieldText.passed {α : Type} {spelled : List Char → α → Prop}
    (passes : ∀ {u : List Char} {a : α}, spelled u a → ∀ {g more : List Char}, Blank g →
      EndsNumber more → left? (skipInside (.object :: outer) (g ++ (u ++ more))) =
        left? (skipRest (.object :: outer) true more))
    {u : List Char} {f : String × α} (h : FieldText spelled u f) : Passed .object outer u := by
  obtain @⟨k, ds, g, l, v, a, quotes, blank, blank', spelled⟩ := h
  refine ⟨⟨'"', _, rfl, rfl, by decide⟩, fun g' more blank'' ends => ?_⟩
  have whole : k ++ '"' :: (g ++ ':' :: (l ++ v)) ++ more =
      k ++ '"' :: (g ++ ':' :: (l ++ (v ++ more))) := by simp
  rw [entryLeft?, left_skipName (skipBlanks_text blank'' rfl), whole, quotes.left_skipString,
    Option.bind_some, left_readColon_blank blank, Option.bind_some, passes spelled blank' ends]

end

namespace Value.Text

/-- **The text of a value is passed over, whatever is open around it.** -/
theorem left_skipInside {limit : Nat} {t : List Char} {v : Value} (h : Value.Text limit t v)
    (enclosing : List Enclosing) {g rest : List Char} (blank : Blank g) (ends : EndsNumber rest) :
    left? (skipInside enclosing (g ++ (t ++ rest))) = left? (skipRest enclosing true rest) := by
  induction limit generalizing t v enclosing g rest with
  | zero => exact Leaf.left_skipInside h enclosing blank ends
  | succ limit ih =>
    cases h with
    | leaf h => exact h.left_skipInside enclosing blank ends
    | @list t items hitems =>
      have passed {u : List Char} {a : Value} (h : Value.Text limit u a) : Passed .list enclosing u := by
        obtain ⟨c, v, rfl, solid, close⟩ := h.spelling.begins
        exact ⟨⟨c, v, rfl, solid, close⟩, fun g more blank ends => ih h _ blank ends⟩
      have read := hitems.left_skipRest passed rest
      rw [left_skipInside_opening (.inl rfl) (skipBlanks_text blank rfl), if_pos rfl, List.append_assoc]
      exact read
    | @object t fields hfields =>
      have read := hfields.left_skipRest (fun field => field.passed fun h => ih h (.object :: enclosing)) rest
      rw [left_skipInside_opening (.inr rfl) (skipBlanks_text blank rfl), if_neg (by decide),
        List.append_assoc]
      exact read

/-- The text of a value is passed over. -/
theorem left_skipValue {limit : Nat} {t : List Char} {v : Value} (h : Value.Text limit t v)
    {g rest : List Char} (blank : Blank g) (ends : EndsNumber rest) :
    left? (skipValue (g ++ (t ++ rest))) = some rest := by
  rw [skipValue, h.left_skipInside [] blank ends, skipRest.eq_def]
  rfl

end Value.Text

end Lightshow.Json
