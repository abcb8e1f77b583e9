/-
The texts that are read as JSON values.

`Value.Text` spells out which texts a value has when its lists and objects are nested at most so
deep.  It is the reader read backwards: whatever the reader takes is such a text, and every such
text is taken, behind blanks and in front of whatever ends a number.

* `Value.Text.of_reads`, `Value.Text.spelling` -- a value is read from exactly its texts;
* `Value.ofText_eq_ok_iff` -- the whole texts that are read as a value are its texts with blanks
  around them.
-/
import Lightshow.Proofs.Items

namespace Lightshow.Json

/-! ### Values -/

/-- Text of a value that is no list and no object. -/
inductive Leaf : List Char → Value → Prop
  | null : Leaf ['n', 'u', 'l', 'l'] .null
  | yes : Leaf ['t', 'r', 'u', 'e'] (.bool true)
  | no : Leaf ['f', 'a', 'l', 's', 'e'] (.bool false)
  | positive {c : Char} {t : List Char} {n : Number} : c.isDigit = true →
      Figures (readDigits true) (c :: t) n → Leaf (c :: t) (.number n)
  | negative {t : List Char} {n : Number} : Figures (readDigits false) t n →
      Leaf ('-' :: t) (.number n)
  | text {t ds : List Char} : Quotes t ds → Leaf ('"' :: (t ++ ['"'])) (.text (String.ofList ds))

/-- Text of a value whose items and fields have texts of their own. -/
inductive Layer (spelled : List Char → Value → Prop) : List Char → Value → Prop
  | leaf {t : List Char} {v : Value} : Leaf t v → Layer spelled t v
  | list {t : List Char} {items : List Value} : Items Blank spelled true t items →
      Layer spelled ('[' :: (t ++ [']'])) (.list items)
  | object {t : List Char} {fields : List (String × Value)} :
      Items Blank (FieldText spelled) true t fields →
      Layer spelled ('\x7b' :: (t ++ ['\x7d']))
        (.object (fields.foldl (fun o (k, v) => putField k v o) []))

/-- Text of a value whose lists and objects are nested at most so deep. -/
def Value.Text : (limit : Nat) → List Char → Value → Prop
  | 0 => Leaf
  | limit + 1 => Layer (Value.Text limit)

theorem Value.Text.leaf {t : List Char} {v : Value} (h : Leaf t v) (limit : Nat) :
    Value.Text limit t v := by
  cases limit with
  | zero => exact h
  | succ limit => exact Layer.leaf h

/-- What begins with no opening bracket is no list and no object. -/
theorem Value.Text.leaf_of_head {limit : Nat} {c : Char} {t : List Char} {v : Value}
    (h : Value.Text limit (c :: t) v) (list : c ≠ '[') (object : c ≠ '\x7b') : Leaf (c :: t) v := by
  cases limit with
  | zero => exact h
  | succ limit =>
    generalize whole : c :: t = w at h
    cases h with
    | leaf h => exact whole ▸ h
    | list => exact absurd (List.cons.inj whole).1 list
    | object => exact absurd (List.cons.inj whole).1 object

theorem Value.Text.leaf_of_value {limit : Nat} {t : List Char} {v : Value} (h : Value.Text limit t v)
    (list : ∀ items, v ≠ .list items) (object : ∀ fields, v ≠ .object fields) : Leaf t v := by
  cases limit with
  | zero => exact h
  | succ limit =>
    cases h with
    | leaf h => exact h
    | list => exact absurd rfl (list _)
    | object => exact absurd rfl (object _)

/-- More nesting is no harm. -/
theorem Value.Text.succ {limit : Nat} {t : List Char} {v : Value} (h : Value.Text limit t v) :
    Value.Text (limit + 1) t v := by
  induction limit generalizing t v with
  | zero => exact Layer.leaf h
  | succ limit ih =>
    cases h with
    | leaf leaf => exact Layer.leaf leaf
    | list items => exact Layer.list (items.imp ih)
    | object fields =>
      refine Layer.object (fields.imp ?_)
      rintro u f ⟨quotes, blank, blank', text⟩
      exact .mk quotes blank blank' (ih text)

theorem not_blank_of_isFigure {c : Char} (h : isFigure c = true) : isBlank c = false := by
  rw [Bool.eq_false_iff]
  intro blank
  simp only [isBlank, Bool.or_eq_true, decide_eq_true_eq] at blank
  rcases blank with ((rfl | rfl) | rfl) | rfl <;> cases h

/-- The text of a value ends with no blank. -/
theorem Value.Text.ends {limit : Nat} {t : List Char} {v : Value} (h : Value.Text limit t v) :
    ∃ u c, t = u ++ [c] ∧ isBlank c = false := by
  -- a number ends with a figure, be it the only one
  have figures : ∀ {c : Char} {t : List Char}, (∀ x ∈ t, isFigure x = true) → isFigure c = true →
      ∃ u d, c :: t = u ++ [d] ∧ isBlank d = false := by
    intro c t ht hc
    rcases List.eq_nil_or_concat t with rfl | ⟨t, d, rfl⟩
    · exact ⟨[], c, rfl, not_blank_of_isFigure hc⟩
    · exact ⟨c :: t, d, by simp, not_blank_of_isFigure (ht d (by simp))⟩
  have leaf : Leaf t v → ∃ u c, t = u ++ [c] ∧ isBlank c = false := by
    rintro (_ | _ | _ | ⟨digit, fig⟩ | fig | _)
    · exact ⟨['n', 'u', 'l'], 'l', rfl, rfl⟩
    · exact ⟨['t', 'r', 'u'], 'e', rfl, rfl⟩
    · exact ⟨['f', 'a', 'l', 's'], 'e', rfl, rfl⟩
    · exact figures (fun x hx => fig.1 x (List.mem_cons_of_mem _ hx)) (isFigure_of_digit digit)
    · exact figures fig.1 rfl
    · exact ⟨_, '"', (List.cons_append ..).symm, rfl⟩
  cases limit with
  | zero => exact leaf h
  | succ limit =>
    cases h with
    | leaf h => exact leaf h
    | list => exact ⟨_, ']', (List.cons_append ..).symm, rfl⟩
    | object => exact ⟨_, '\x7d', (List.cons_append ..).symm, rfl⟩

theorem readWord_append (word rest : List Char) :
    (readWord word (word ++ rest)).toOption.map (·.1) = some rest := by
  induction word with
  | nil => rfl
  | cons w word ih =>
    rw [List.cons_append, readWord, if_pos rfl]
    rcases hr : readWord word (word ++ rest) with _ | ⟨last, _⟩
    · rw [hr] at ih
      cases ih
    · rw [hr] at ih
      exact ih

theorem append_of_readWord {word cs rest : List Char}
    (h : (readWord word cs).toOption.map (·.1) = some rest) : cs = word ++ rest := by
  induction word generalizing cs with
  | nil => exact Option.some.inj h
  | cons w word ih =>
    rcases cs with _ | ⟨c, cs⟩
    · cases h
    rw [readWord] at h
    split_ifs at h with same
    · subst same
      rcases hr : readWord word cs with _ | ⟨last, _⟩
      · rw [hr] at h
        cases h
      · rw [hr] at h
        rw [@ih cs (by rw [hr]; exact h), List.cons_append]
    · cases h

section

variable {limit : Nat} {cs rest : List Char}

theorem taken_readValue_nil (h : skipBlanks cs = []) : taken? (readValue limit cs) = none := by
  rw [readValue.eq_def]
  split
  case h_1 => rfl
  case h_2 h' => exact absurd (h.symm.trans h') nofun

/-- What is read of a list or an object, by its first character. -/
def inner? (limit : Nat) (c : Char) (rest : List Char) : Option (Value × List Char) :=
  match limit with
  | 0 => none
  | limit + 1 =>
    if c = '[' then
      (taken? (readItems (readValue limit) true rest)).map fun r => (.list r.1, r.2.drop 1)
    else
      (taken? (readFields (readValue limit) true rest)).map fun r =>
        (.object (r.1.foldl (fun o (k, v) => putField k v o) []), r.2.drop 1)

theorem taken_readValue {c : Char} (h : skipBlanks cs = c :: rest) :
    taken? (readValue limit cs) =
      if c = 'n' then (left? (readWord ['u', 'l', 'l'] rest)).map fun r => (.null, r)
      else if c = 't' then (left? (readWord ['r', 'u', 'e'] rest)).map fun r => (.bool true, r)
      else if c = 'f' then (left? (readWord ['a', 'l', 's', 'e'] rest)).map fun r => (.bool false, r)
      else if c = '-' then (taken? (readDigits false rest)).map fun r => (.number r.1, r.2)
      else if c.isDigit then (taken? (readDigits true (c :: rest))).map fun r => (.number r.1, r.2)
      else if c = '"' then (taken? (readString rest)).map fun r => (.text (String.ofList r.1), r.2)
      else if c = '[' ∨ c = '\x7b' then inner? limit c rest
      else none := by
  rw [readValue.eq_def]
  split
  case h_1 h' => exact absurd (h.symm.trans h') nofun
  case h_2 h' =>
    obtain ⟨rfl, rfl⟩ := List.cons.inj (h.symm.trans h')
    dsimp only
    by_cases n : c = 'n'
    · rw [if_pos n, if_pos n]
      cases readWord ['u', 'l', 'l'] rest <;> rfl
    rw [if_neg n, if_neg n]
    by_cases t : c = 't'
    · rw [if_pos t, if_pos t]
      cases readWord ['r', 'u', 'e'] rest <;> rfl
    rw [if_neg t, if_neg t]
    by_cases f : c = 'f'
    · rw [if_pos f, if_pos f]
      cases readWord ['a', 'l', 's', 'e'] rest <;> rfl
    rw [if_neg f, if_neg f]
    by_cases minus : c = '-'
    · rw [if_pos minus, if_pos minus]
      cases readDigits false rest <;> rfl
    rw [if_neg minus, if_neg minus]
    by_cases digit : c.isDigit = true
    · rw [if_pos digit, if_pos digit]
      cases readDigits true (c :: rest) <;> rfl
    rw [if_neg digit, if_neg digit]
    by_cases quote : c = '"'
    · rw [if_pos quote, if_pos quote]
      cases readString rest <;> rfl
    rw [if_neg quote, if_neg quote]
    by_cases bracket : c = '['
    · rw [if_pos bracket, if_pos (.inl bracket)]
      cases limit with
      | zero => rfl
      | succ limit =>
        rw [inner?, if_pos bracket]
        dsimp only
        cases readItems (readValue limit) true rest <;> rfl
    rw [if_neg bracket]
    by_cases brace : c = '\x7b'
    · rw [if_pos brace, if_pos (.inr brace)]
      cases limit with
      | zero => rfl
      | succ limit =>
        rw [inner?, if_neg bracket]
        dsimp only
        cases readFields (readValue limit) true rest <;> rfl
    rw [if_neg brace, if_neg (by simp [bracket, brace])]
    rfl

theorem taken_readValue_opening {c : Char} (opening : c = '[' ∨ c = '\x7b')
    (h : skipBlanks cs = c :: rest) : taken? (readValue limit cs) = inner? limit c rest := by
  have other : ∀ {d : Char}, d ≠ '[' → d ≠ '\x7b' → c ≠ d := by
    rintro d bracket brace rfl
    exact opening.elim bracket brace
  have digit : ¬c.isDigit = true := by rcases opening with rfl | rfl <;> decide
  rw [taken_readValue h, if_neg (other (by decide) (by decide)),
    if_neg (other (by decide) (by decide)), if_neg (other (by decide) (by decide)),
    if_neg (other (by decide) (by decide)), if_neg digit, if_neg (other (by decide) (by decide)),
    if_pos opening]

theorem skipBlanks_text {g u : List Char} {c : Char} (blank : Blank g) (solid : isBlank c = false) :
    skipBlanks (g ++ (c :: u ++ rest)) = c :: (u ++ rest) :=
  (skipBlanks_append blank _).trans (skipBlanks_cons solid _)

/-- What is read as a value is a text of a value that is no list and no object, or it begins with a
bracket. -/
theorem leaf_or_inner {v : Value} (h : Reads (readValue limit) cs v rest) :
    ∃ g, Blank g ∧ ((∃ t, cs = g ++ (t ++ rest) ∧ Leaf t v) ∨
      ∃ c r, cs = g ++ c :: r ∧ (c = '[' ∨ c = '\x7b') ∧ inner? limit c r = some (v, rest)) := by
  obtain ⟨g, blank, hg⟩ := exists_blank cs
  refine ⟨g, blank, ?_⟩
  rcases hcs : skipBlanks cs with _ | ⟨c, r⟩
  · rw [Reads, taken_readValue_nil hcs] at h
    cases h
  rw [hcs] at hg
  rw [Reads, taken_readValue hcs] at h
  -- the three words are read alike
  have word : ∀ {letters : List Char} {w : Value}, (left? (readWord letters r)).map
      (fun r => (w, r)) = some (v, rest) → w = v ∧ c :: r = (c :: letters) ++ rest := by
    intro letters w h
    obtain ⟨last, hlast, same⟩ := Option.map_eq_some_iff.mp h
    obtain ⟨rfl, rfl⟩ := Prod.mk.inj same
    exact ⟨rfl, congrArg (c :: ·) (append_of_readWord hlast)⟩
  split_ifs at h with hn ht hf minus digit quote opening
  · subst hn
    obtain ⟨rfl, hr⟩ := word h
    exact .inl ⟨_, by rw [hg, hr], .null⟩
  · subst ht
    obtain ⟨rfl, hr⟩ := word h
    exact .inl ⟨_, by rw [hg, hr], .yes⟩
  · subst hf
    obtain ⟨rfl, hr⟩ := word h
    exact .inl ⟨_, by rw [hg, hr], .no⟩
  · subst minus
    obtain ⟨⟨n, last⟩, hread, same⟩ := Option.map_eq_some_iff.mp h
    obtain ⟨rfl, rfl⟩ := Prod.mk.inj same
    obtain ⟨d, t, hr, -, figures⟩ := figures_readDigits hread
    exact .inl ⟨'-' :: d :: t, by rw [hg, hr]; rfl, .negative figures⟩
  · obtain ⟨⟨n, last⟩, hread, same⟩ := Option.map_eq_some_iff.mp h
    obtain ⟨rfl, rfl⟩ := Prod.mk.inj same
    obtain ⟨d, t, hr, digit, figures⟩ := figures_readDigits hread
    exact .inl ⟨d :: t, by rw [hg, hr]; rfl, .positive digit figures⟩
  · subst quote
    obtain ⟨⟨ds, last⟩, hread, same⟩ := Option.map_eq_some_iff.mp h
    obtain ⟨rfl, rfl⟩ := Prod.mk.inj same
    obtain ⟨t, hr, quotes⟩ := quotes_readString hread
    exact .inl ⟨'"' :: (t ++ ['"']), by rw [hg, hr]; simp, .text quotes⟩
  · exact .inr ⟨c, r, hg, opening, h⟩

/-- A value that is read has a text. -/
theorem Value.Text.of_reads {v : Value} (h : Reads (readValue limit) cs v rest) :
    ∃ g t, cs = g ++ (t ++ rest) ∧ Blank g ∧ Value.Text limit t v := by
  induction limit generalizing cs rest v with
  | zero =>
    obtain ⟨g, blank, ⟨t, ht, leaf⟩ | ⟨c, r, -, -, none⟩⟩ := leaf_or_inner h
    · exact ⟨g, t, ht, blank, leaf⟩
    · cases none
  | succ limit ih =>
    obtain ⟨g, blank, ⟨t, ht, leaf⟩ | ⟨c, r, hc, opening, inner⟩⟩ := leaf_or_inner h
    · exact ⟨g, t, ht, blank, Layer.leaf leaf⟩
    rw [inner?] at inner
    rcases opening with rfl | rfl
    · rw [if_pos rfl] at inner
      obtain ⟨⟨items, last⟩, hread, same⟩ := Option.map_eq_some_iff.mp inner
      obtain ⟨rfl, rfl⟩ := Prod.mk.inj same
      obtain ⟨t, more, rfl, rfl, hitems⟩ := Items.of_reads ih hread
      exact ⟨g, '[' :: (t ++ [']']), by rw [hc]; simp, blank, Layer.list hitems⟩
    · rw [if_neg (by decide)] at inner
      obtain ⟨⟨fields, last⟩, hread, same⟩ := Option.map_eq_some_iff.mp inner
      obtain ⟨rfl, rfl⟩ := Prod.mk.inj same
      obtain ⟨t, more, rfl, rfl, hfields⟩ := Items.of_reads_fields ih hread
      exact ⟨g, '\x7b' :: (t ++ ['\x7d']), by rw [hc]; simp, blank, Layer.object hfields⟩

/-- A string is read whatever follows it. -/
theorem Quotes.readValue {t ds g : List Char} (h : Quotes t ds) (blank : Blank g) (next : List Char) :
    Reads (readValue limit) (g ++ ('"' :: (t ++ ['"']) ++ next)) (.text (String.ofList ds)) next := by
  rw [Reads, taken_readValue (skipBlanks_text blank rfl), if_neg (by decide), if_neg (by decide),
    if_neg (by decide), if_neg (by decide), if_neg (by decide), if_pos rfl, List.append_assoc,
    List.singleton_append, h.reads]
  rfl

/-- A text of a value is read as that value. -/
theorem Leaf.spelling {t : List Char} {v : Value} (h : Leaf t v) :
    Spelling (readValue limit) t v := by
  cases h with
  | null =>
    refine ⟨⟨_, _, rfl, by decide, by decide⟩, fun g rest blank _ => ?_⟩
    rw [Reads, taken_readValue (skipBlanks_text blank rfl), if_pos rfl, left?, readWord_append]
    rfl
  | yes =>
    refine ⟨⟨_, _, rfl, by decide, by decide⟩, fun g rest blank _ => ?_⟩
    rw [Reads, taken_readValue (skipBlanks_text blank rfl), if_neg (by decide), if_pos rfl, left?,
      readWord_append]
    rfl
  | no =>
    refine ⟨⟨_, _, rfl, by decide, by decide⟩, fun g rest blank _ => ?_⟩
    rw [Reads, taken_readValue (skipBlanks_text blank rfl), if_neg (by decide), if_neg (by decide),
      if_pos rfl, left?, readWord_append]
    rfl
  | @positive c t n digit figures =>
    have other : ∀ {d : Char}, d.isDigit = false → c ≠ d := ne_of_digit digit
    refine ⟨⟨_, _, rfl, isBlank_of_digit digit, other rfl⟩, fun g rest blank ends => ?_⟩
    have read : taken? (readDigits true (c :: (t ++ rest))) = some (n, rest) := figures.2 rest ends
    rw [Reads, taken_readValue (skipBlanks_text blank (isBlank_of_digit digit)),
      if_neg (other rfl), if_neg (other rfl), if_neg (other rfl), if_neg (other rfl), if_pos digit,
      read]
    rfl
  | negative figures =>
    refine ⟨⟨_, _, rfl, by decide, by decide⟩, fun g rest blank ends => ?_⟩
    rw [Reads, taken_readValue (skipBlanks_text blank rfl), if_neg (by decide), if_neg (by decide),
      if_neg (by decide), if_pos rfl, figures.2 rest ends]
    rfl
  | text quotes =>
    exact ⟨⟨_, _, rfl, by decide, by decide⟩, fun g rest blank _ => quotes.readValue blank rest⟩

theorem Value.Text.spelling {t : List Char} {v : Value} (h : Value.Text limit t v) :
    Spelling (readValue limit) t v := by
  induction limit generalizing t v with
  | zero => exact Leaf.spelling h
  | succ limit ih =>
    cases h with
    | leaf leaf => exact leaf.spelling
    | @list t items hitems =>
      refine ⟨⟨_, _, rfl, by decide, by decide⟩, fun g rest blank ends => ?_⟩
      have read := hitems.reads ih rest
      rw [Reads, taken_readValue_opening (.inl rfl) (skipBlanks_text blank rfl), inner?, if_pos rfl,
        List.append_assoc, List.singleton_append, read]
      rfl
    | @object t fields hfields =>
      refine ⟨⟨_, _, rfl, by decide, by decide⟩, fun g rest blank ends => ?_⟩
      have read := hfields.reads_fields ih rest
      rw [Reads, taken_readValue_opening (.inr rfl) (skipBlanks_text blank rfl), inner?,
        if_neg (by decide), List.append_assoc, List.singleton_append, read]
      rfl

/-- A list among the items of a list is read inside out. -/
theorem Front.taken_list {t : List Char} {vs : List Value}
    (front : Front Blank (Value.Text (limit + 1)) t vs) (cs : List Char) :
    taken? (readItems (readValue (limit + 1)) true (t ++ '[' :: cs)) =
      (taken? (readItems (readValue limit) true cs)).bind fun r =>
        (taken? (readItems (readValue (limit + 1)) false (r.2.drop 1))).map fun s =>
          (vs ++ .list r.1 :: s.1, s.2) := by
  rw [front.taken Value.Text.spelling rfl (by decide), taken_readItems_item rfl (by decide),
    taken_readValue_opening (.inl rfl) (skipBlanks_cons rfl cs), inner?, if_pos rfl]
  cases taken? (readItems (readValue limit) true cs) with
  | none => rfl
  | some r =>
    dsimp only [Option.map_some, Option.bind_some]
    rw [Option.map_map]
    rfl

theorem readEnd_eq_ok_iff : readEnd cs = .ok () ↔ Blank cs := by
  rw [readEnd]
  constructor
  · intro h
    split at h
    case h_1 none => exact blank_of_skipBlanks none
    case h_2 => cases h
  · intro h
    rw [skipBlanks_of_blank h]

theorem Value.ofText_eq_ok_iff_reads {text : List Char} {v : Value} : Value.ofText text = .ok v ↔
    ∃ rest, Reads (readValue nestingLimit) text v rest ∧ Blank rest := by
  rw [Value.ofText, wholeText]
  simp only [Reads, ← readEnd_eq_ok_iff]
  rcases readValue nestingLimit text with _ | ⟨w, rest, _⟩
  · simp [taken?]
  · simp only [taken?, Option.some.injEq, Prod.mk.injEq]
    rcases hend : readEnd rest with stop | ⟨⟩
    · constructor
      · intro h
        cases h
      · rintro ⟨_, ⟨-, rfl⟩, fine⟩
        cases hend.symm.trans fine
    · constructor
      · intro h
        exact ⟨rest, ⟨Except.ok.inj h, rfl⟩, hend⟩
      · rintro ⟨_, ⟨rfl, rfl⟩, -⟩
        rfl

/-- The whole texts that are read as a value are its texts with blanks around them. -/
theorem Value.ofText_eq_ok_iff {text : List Char} {v : Value} : Value.ofText text = .ok v ↔
    ∃ g t h, text = g ++ (t ++ h) ∧ Blank g ∧ Blank h ∧ Value.Text nestingLimit t v := by
  rw [Value.ofText_eq_ok_iff_reads]
  constructor
  · rintro ⟨h, read, blank⟩
    obtain ⟨g, t, ht, blank', spelled⟩ := Value.Text.of_reads read
    exact ⟨g, t, h, ht, blank', blank, spelled⟩
  · rintro ⟨g, t, h, rfl, blank, blank', spelled⟩
    have ends : EndsNumber h := List.append_nil h ▸ EndsNumber.blank blank' fun _ => nofun
    exact ⟨h, spelled.spelling.reads g h blank ends, blank'⟩

end

/-! ### Parts of a value -/

theorem mem_of_mem_foldl_putField {fields front : List (String × Value)} {f : String × Value}
    (h : f ∈ fields.foldl (fun o (k, v) => putField k v o) front) : f ∈ front ∨ f ∈ fields := by
  induction fields generalizing front with
  | nil => exact .inl h
  | cons g fields ih =>
    rcases ih h with here | later
    · rcases mem_putField here with rfl | before
      · exact .inr List.mem_cons_self
      · exact .inl before
    · exact .inr (List.mem_cons_of_mem g later)

theorem Ordered.foldl_putField {front : List (String × Value)} (h : Ordered front)
    (fields : List (String × Value)) :
    Ordered (fields.foldl (fun o (k, v) => Json.putField k v o) front) := by
  induction fields generalizing front with
  | nil => exact h
  | cons f fields ih => exact ih (h.putField f.1 f.2)

namespace Value.Text

variable {limit : Nat} {t : List Char}

/-- An item of a list has a text. -/
theorem exists_item {items : List Value} (h : Value.Text limit t (.list items)) :
    ∀ v ∈ items, ∃ limit u, Value.Text limit u v := by
  intro v hv
  cases limit with
  | zero => cases h
  | succ limit =>
    cases h with
    | leaf leaf => cases leaf
    | list items =>
      obtain ⟨u, text⟩ := items.exists_text v hv
      exact ⟨limit, u, text⟩

/-- The fields of an object are in order. -/
theorem ordered {fields : List (String × Value)} (h : Value.Text limit t (.object fields)) :
    Ordered fields := by
  cases limit with
  | zero => cases h
  | succ limit =>
    generalize whole : Value.object fields = v at h
    cases h with
    | leaf leaf => cases leaf <;> cases whole
    | list => cases whole
    | object => exact Value.object.inj whole ▸ Ordered.foldl_putField List.Pairwise.nil _

/-- A field of an object has a text. -/
theorem exists_field {document v : Value} {name : String} (h : Value.Text limit t document)
    (found : document.field? name = some v) : ∃ limit u, Value.Text limit u v := by
  cases limit with
  | zero => cases h <;> cases found
  | succ limit =>
    cases h with
    | leaf leaf => cases leaf <;> cases found
    | list => cases found
    | object fields =>
      rcases mem_of_mem_foldl_putField (mem_of_field? found) with none | here
      · exact absurd none List.not_mem_nil
      obtain ⟨_, _, _, _, text⟩ := fields.exists_text _ here
      exact ⟨limit, _, text⟩

/-- A text is the text of one value. -/
theorem unique {v w : Value} (h : Value.Text limit t v) (leaf : Leaf t w) : v = w := by
  have here := h.spelling.reads [] [] .nil fun _ => nofun
  have there := (Value.Text.leaf leaf limit).spelling.reads [] [] .nil fun _ => nofun
  exact (Prod.mk.inj (Option.some.inj (here.symm.trans there))).1

end Value.Text

end Lightshow.Json
