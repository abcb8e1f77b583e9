/-
Hexadecimal numbers of other widths.

A hexadecimal number of two digits is replaced whatever stands behind it.  So the other digits of a
longer one are left, and run on behind the decimal of the first two: if they are decimal digits, the
parameter is read as the number that is spelled then, which is smaller than the one that was
written.  All other widths, and digits that do not go on, make the text no script.

The place of a parameter is told by what a script there is read as, not by a grammar: whatever
integer is put there, the text is a script with that integer for that parameter.

* `WellFormed`, `ParamPlace` -- texts of scripts, and the places of parameters in them;
* `ParamPlace.holds` -- around such a place there is the text of a frame, on its own;
* `Joined` -- what a longer hexadecimal number is read as;
* `parse_wide_hex` -- exactly such numbers are accepted, and none for what it is.
-/
import Lightshow.Proofs.Enclosure
import Lightshow.Proofs.Separator
import Lightshow.Proofs.Slots

namespace Lightshow

namespace Json

/-- Another character in the place of one inside of a string. -/
theorem Inside.set {s t : List Char} {c d : Char} (h : Inside (s ++ c :: t)) (backslash : c ≠ '\\')
    (plain : d ≠ '"' ∧ d ≠ '\\' ∧ d ≠ ',') : Inside (s ++ d :: t) := by
  generalize whole : s ++ c :: t = w at h
  induction h generalizing s with
  | nil => simp at whole
  | plain quote slash inside ih =>
    rcases s with _ | ⟨e, s⟩
    · obtain ⟨rfl, rfl⟩ := List.cons.inj whole
      exact .plain plain.1 plain.2.1 inside
    · obtain ⟨rfl, tails⟩ := List.cons.inj whole
      exact .plain quote slash (ih tails)
  | escape comma inside ih =>
    rcases s with _ | ⟨e, _ | ⟨e', s⟩⟩
    · exact absurd (List.cons.inj whole).1 backslash
    · obtain ⟨rfl, tails⟩ := List.cons.inj whole
      obtain ⟨rfl, rfl⟩ := List.cons.inj tails
      exact .escape plain.2.2 inside
    · obtain ⟨rfl, tails⟩ := List.cons.inj whole
      obtain ⟨rfl, tails'⟩ := List.cons.inj tails
      exact .escape comma (ih tails')

/-- An integer is spelled in digits, or in digits behind a minus sign. -/
theorem toList_toString (q : Int64) :
    (∃ n : Nat, q.toInt = n ∧ (toString q).toList = Nat.toDigits 10 n) ∨
      ∃ n : Nat, (toString q).toList = '-' :: Nat.toDigits 10 n := by
  have text : (toString q).toList = (toString q.toInt).toList := rfl
  rw [text]
  cases q.toInt with
  | ofNat n => exact .inl ⟨n, rfl, toList_toString_nat n⟩
  | negSucc n =>
    refine .inr ⟨n + 1, ?_⟩
    rw [show toString (Int.negSucc n) = "-" ++ toString (n + 1) from rfl, String.toList_append,
      toList_toString_nat]
    rfl

theorem minus_not_mem_toDigits (n : Nat) : '-' ∉ Nat.toDigits 10 n := fun minus =>
  absurd (Nat.isDigit_of_mem_toDigits (by decide) (by decide) minus) (by decide)

/-- A minus sign stands in front of an integer. -/
theorem eq_nil_of_negative {x z : List Char} {q : Int64} (h : x ++ '-' :: z = (toString q).toList) :
    x = [] := by
  rcases x with _ | ⟨c, x⟩
  · rfl
  · rcases toList_toString q with ⟨n, -, digits⟩ | ⟨n, digits⟩
    · rw [digits] at h
      exact absurd (h ▸ by simp) (minus_not_mem_toDigits n)
    · rw [digits] at h
      have tail : x ++ '-' :: z = Nat.toDigits 10 n := (List.cons.inj h).2
      exact absurd (tail ▸ by simp) (minus_not_mem_toDigits n)

end Json

open Json

namespace ScriptText

variable {a b cs : List Char}

/-- The last comma does not depend on a text without one. -/
theorem exists_without_comma (l r : List Char) :
    ∃ l' r', ∀ x, ',' ∉ x → dropLastComma (l ++ (x ++ r)) = l' ++ (x ++ r') := by
  by_cases behind : ',' ∈ r
  · refine ⟨l, dropLastComma r, fun x plain => ?_⟩
    rw [dropLastComma_append, if_pos (List.mem_append_right x behind), dropLastComma_append,
      if_pos behind]
  · refine ⟨dropLastComma l, r, fun x plain => ?_⟩
    rw [dropLastComma_append, if_neg (by simp [plain, behind])]

theorem endsInside_append (inside : Bool) (h : b.head? ≠ some '/') :
    endsInside inside (a ++ b) = endsInside (endsInside inside a) b := by
  fun_induction endsInside inside a with
  | case1 inside => rfl
  | case2 inside rest ih => rw [List.cons_append, endsInside, ih]
  | case3 inside rest ih => rw [List.cons_append, List.cons_append, endsInside, ih]
  | case4 inside c rest line slashes ih =>
    have slashes' := slashes_append h slashes
    rw [List.cons_append, endsInside, ih]
    all_goals assumption

/-- The characters of hexadecimal numbers are no marks. -/
theorem strictMark_of_isHexish {c : Char} (h : isHexish c = true) : strictMark c = c := by
  have other : ∀ {d : Char}, isHexish d = false → c ≠ d := by
    rintro d none rfl
    exact absurd (h.symm.trans none) nofun
  rw [strictMark, if_neg (other (by decide)), if_neg (other (by decide)), if_neg (other (by decide))]

theorem isHexish_decimalHex (h : ∀ c ∈ cs, isHexish c = true) :
    ∀ c ∈ decimalHex cs, isHexish c = true := by
  intro c hc
  by_contra other
  rw [Bool.not_eq_true] at other
  exact absurd ((h c ((mem_decimalHex other).mp hc)).symm.trans other) nofun

theorem marked_of_isHexish (h : ∀ c ∈ cs, isHexish c = true) : marked cs = decimalHex cs :=
  (List.map_congr_left fun c hc => strictMark_of_isHexish (isHexish_decimalHex h c hc)).trans
    (List.map_id _)

theorem isHexish_of_isStop {c : Char} (h : Frame.isStop c = true) : isHexish c = false := by
  simp only [Frame.isStop, isBlank, Bool.or_eq_true, decide_eq_true_eq] at h
  rcases h with ((((rfl | rfl) | rfl) | rfl) | rfl) | rfl <;> decide

theorem uncommented_of_isHexish (h : ∀ c ∈ cs, isHexish c = true) : Uncommented cs := fun slashes =>
  absurd (h '/' (slashes.subset List.mem_cons_self)) (by decide)

end ScriptText

namespace Script

open ScriptText

/-! ### Places of parameters -/

/-- A text that is a script, closed by no bracket of its own. -/
structure WellFormed (raw : String) (s : Script) : Prop where
  parsed : Script.parse raw = .ok s
  list : ∃ vs, Value.ofText ('[' :: (rewritten raw.toList ++ [']'])) = .ok (.list vs)

/-- The text in front of a parameter and behind it: whatever integer is put there, the text is a
script with that integer for the parameter `j` of the command `i`. -/
def ParamPlace (front back : String) (i j : Nat) : Prop :=
  ∀ p : Int64, ∃ s, WellFormed (front ++ toString p ++ back) s ∧
    s.commands[i]?.bind (·.params[j]?) = some p

variable {raw : String} {s : Script}

/-- A text that closes its brackets inside of a list closes them all. -/
theorem past_of_list {body : List Char} {vs : List Value}
    (list : Value.ofText ('[' :: (body ++ [']'])) = .ok (.list vs)) :
    (⟨.outside, 2⟩ : Scan).past body = ⟨.outside, 2⟩ := by
  have closes : ((⟨.outside, 2⟩ : Scan).past body).step ']' = ⟨.outside, 1⟩ := by
    have both := past_of_ofText (n := 1) list
    rwa [Scan.past_cons, Scan.step_open, Scan.past_append] at both
  generalize (⟨.outside, 2⟩ : Scan).past body = scan at closes
  obtain ⟨place, opened⟩ := scan
  cases place with
  | outside =>
    rw [Scan.step_close] at closes
    have one : opened - 1 = 1 := congrArg Scan.opened closes
    rw [show opened = 2 by omega]
  | inString => exact absurd (congrArg Scan.place closes) nofun
  | escaped => exact absurd (congrArg Scan.place closes) nofun

/-- The rewritten text of such a script is a text of its commands. -/
theorem WellFormed.items (h : WellFormed raw s) :
    (normalize raw).toList = '{' :: ' ' :: (fieldText ++
      (rewritten raw.toList ++ [' ', ']'] ++ [' ', '}'])) ∧
    ∃ vs, Items Blank (Value.Text itemLimit) true (rewritten raw.toList) vs ∧ ReadAs vs s.commands := by
  obtain ⟨parsed, vs, list⟩ := h
  have whole := normalize_toList raw
  rw [strictText_closed, ← rewritten_eq] at whole
  cases commented : endsInside false (decimalHex (dropLastComma raw.toList)) with
  | true =>
    -- a comment at the end would take the bracket that closes the list
    obtain ⟨document, read, -⟩ := parse_eq_ok_iff.mp parsed
    have front : ∀ tail, '{' :: ' ' :: (fieldText ++ (rewritten raw.toList ++ tail)) =
        ('{' :: ' ' :: fieldText) ++ (rewritten raw.toList ++ tail) := fun _ => rfl
    rw [whole, commented, if_pos rfl, List.append_nil, front] at read
    have closes := past_of_ofText (n := 0) read
    rw [Scan.past_append, show (⟨.outside, 0⟩ : Scan).past ('{' :: ' ' :: fieldText) = ⟨.outside, 2⟩ by
      decide, Scan.past_append, past_of_list list] at closes
    exact absurd closes (by decide)
  | false =>
    rw [commented] at whole
    have items := items_of_list parsed whole list
    exact ⟨whole, vs, items, readAs_of_items items whole parsed⟩

/-- The text around the place of a parameter: what stands in front of it and behind it when the last
comma went, and the frame that this is rewritten to. -/
structure ParamPlace.Holds (front back : String) (i j : Nat) (l r : List Char) (f : Frame) : Prop where
  comma : ∀ x, ',' ∉ x → dropLastComma (front.toList ++ (x ++ back.toList)) = l ++ (x ++ r)
  outside : endsInside false (decimalHex l) = false
  closed : strictText (r ++ [' ', ']']) = strictText r ++ [' ', ']']
  text : f.Text 123 (strictText l) (strictText r)
  param : ∀ v, (f.fill v)[i]?.bind (·.param? j) = v.integer?
  behind : j + 1 = f.front.length

/-- A negative number is left as it is, unless a comment takes it. -/
theorem strictText_negative (l r : List Char) {d : Char} (digit : d.isDigit = true) (zero : d ≠ '0') :
    strictText (l ++ '-' :: d :: r) = if endsInside false (decimalHex l) then
      strictText l ++ (dropComments true (decimalHex r)).map strictMark
    else strictText l ++ '-' :: d :: strictText r := by
  have other : ∀ {c : Char}, c.isDigit = false → d ≠ c := by
    rintro c none rfl
    exact absurd (digit.symm.trans none) nofun
  have apart : Apart l ('-' :: d :: r) := Apart.of_head fun c hc => Option.some.inj hc ▸ by decide
  rw [strictText_append apart (by simp), decimalHex_plain (by decide), decimalHex_cons d
    fun _ _ _ _ same _ => zero (List.cons.inj same).1]
  cases endsInside false (decimalHex l) with
  | true =>
    have gone : dropComments true ('-' :: d :: decimalHex r) = dropComments true (decimalHex r) := by
      rw [dropComments, if_pos rfl, dropComments, if_pos rfl]
      · exact other rfl
      · exact fun _ slash _ => other (c := '/') rfl slash
      · decide
      · exact fun _ slash _ => absurd slash (by decide)
    rw [gone, if_pos rfl]
  | false =>
    rw [dropComments_cons (by simp), dropComments_cons fun slash => absurd slash (other rfl),
      List.map_cons, List.map_cons, strictMark_of_isHexish (isHexish_of_digit digit)]
    rfl

/-- Another digit behind a minus sign in a code or a parameter, if the list is read with it. -/
theorem exists_text_of_digit {limit : Nat} {f : Frame} {a b x y more last : List Char} {c d : Char}
    {v : Value} {ws : List Value} (frame : f.Text limit a b)
    (text : Value.Text limit (x ++ '-' :: c :: y) v) (digit : c.isDigit = true) (digit' : d.isDigit = true)
    (kind : (∃ code, v = .text code) ∨ ∃ q, v.integer? = some q)
    (read : Reads (readItems (readValue (limit + 2)) true) (a ++ ((x ++ '-' :: d :: y) ++ (b ++ more)))
      ws last) : ∃ w, Value.Text limit (x ++ '-' :: d :: y) w := by
  have other : ∀ {c e : Char}, c.isDigit = true → e.isDigit = false → c ≠ e := by
    rintro c e digit none rfl
    exact absurd (digit.symm.trans none) nofun
  have joins : ∀ e, x ++ '-' :: e :: y = (x ++ ['-']) ++ e :: y := by simp
  rcases kind with ⟨code, rfl⟩ | ⟨q, integer⟩
  · obtain ⟨u, ds, whole, quotes, -⟩ := text.of_text
    rw [joins] at whole
    obtain ⟨x', y', opens, rfl, rfl⟩ := exists_between whole (other digit rfl) (other digit rfl)
    have inside : Inside (x' ++ d :: y') := quotes.inside.set (other digit rfl)
      ⟨other digit' rfl, other digit' rfl, other digit' rfl⟩
    have part : x ++ '-' :: d :: (y' ++ ['"']) = '"' :: ((x' ++ d :: y') ++ ['"']) := by
      rw [joins, opens]
      simp
    rw [part] at read ⊢
    exact frame.string_of_reads inside read
  · have spelled := text.eq_toString integer
    obtain rfl := eq_nil_of_negative spelled
    refine frame.text_of_reads (.inr rfl) (fun e he => Frame.isStop_of_isFigure ?_) (frame.stops more) read
    have figures := figures_toString q
    rw [← spelled] at figures
    rcases List.mem_cons.mp he with rfl | he
    · rfl
    rcases List.mem_cons.mp he with rfl | he
    · exact isFigure_of_digit digit'
    · exact figures e (by simp [he])

section

variable {front back : String} {i j : Nat} {l r : List Char}

/-- The document of a text with something in a place that has no comma. -/
theorem normalize_place
    (comma : ∀ x, ',' ∉ x → dropLastComma (front.toList ++ (x ++ back.toList)) = l ++ (x ++ r))
    {x : String} (plain : ',' ∉ x.toList) : (normalize (front ++ x ++ back)).toList =
      '{' :: ' ' :: (fieldText ++ (strictText (l ++ (x.toList ++ (r ++ [' ', ']']))) ++ [' ', '}'])) := by
  rw [normalize_toList, String.toList_append, String.toList_append, List.append_assoc, comma _ plain,
    List.append_assoc, List.append_assoc]

theorem not_mem_toString {c : Char} (digit : c.isDigit = false) (minus : c ≠ '-') (p : Int64) :
    c ∉ (toString p).toList :=
  not_mem_of_digits (digits_toString p) digit minus

/-- A place of a parameter is in no comment. -/
theorem ParamPlace.outside (place : ParamPlace front back i j)
    (comma : ∀ x, ',' ∉ x → dropLastComma (front.toList ++ (x ++ back.toList)) = l ++ (x ++ r)) :
    endsInside false (decimalHex l) = false := by
  by_contra commented
  rw [Bool.not_eq_false] at commented
  obtain ⟨s₁, ⟨parsed₁, -⟩, param₁⟩ := place (-1)
  obtain ⟨s₂, ⟨parsed₂, -⟩, param₂⟩ := place (-2)
  -- the two texts are the same without the comment
  have text : ∀ {d : Char}, d.isDigit = true → d ≠ '0' → strictText (l ++ '-' :: d :: (r ++ [' ', ']'])) =
      strictText l ++ (dropComments true (decimalHex (r ++ [' ', ']']))).map strictMark := by
    intro d digit zero
    rw [strictText_negative _ _ digit zero, commented, if_pos rfl]
  have whole₁ := normalize_place comma (not_mem_toString rfl (by decide) (-1))
  have whole₂ := normalize_place comma (not_mem_toString rfl (by decide) (-2))
  have same : normalize (front ++ toString (-1 : Int64) ++ back) =
      normalize (front ++ toString (-2 : Int64) ++ back) := by
    rw [← String.toList_inj, whole₁, whole₂]
    show '{' :: ' ' :: (fieldText ++ (strictText (l ++ '-' :: '1' :: (r ++ [' ', ']'])) ++ _)) =
      '{' :: ' ' :: (fieldText ++ (strictText (l ++ '-' :: '2' :: (r ++ [' ', ']'])) ++ _))
    rw [text rfl (by decide), text rfl (by decide)]
  rw [Script.parse, same, ← Script.parse, parsed₂] at parsed₁
  rw [← Except.ok.inj parsed₁, param₂] at param₁
  exact absurd param₁ (by decide)

/-- A negative number in a place of a parameter stays as it is. -/
theorem rewritten_negative (outside : endsInside false (decimalHex l) = false)
    (comma : ∀ x, ',' ∉ x → dropLastComma (front.toList ++ (x ++ back.toList)) = l ++ (x ++ r))
    {p : Int64} {d : Char} (spelled : (toString p).toList = ['-', d]) (digit : d.isDigit = true)
    (zero : d ≠ '0') :
    rewritten (front ++ toString p ++ back).toList = strictText l ++ '-' :: d :: strictText r := by
  rw [String.toList_append, String.toList_append, rewritten_eq, List.append_assoc,
    comma _ (not_mem_toString rfl (by decide) p), spelled,
    show l ++ (['-', d] ++ r) = l ++ '-' :: d :: r from rfl, strictText_negative l r digit zero, outside,
    if_neg (by decide)]

theorem ParamPlace.holds (place : ParamPlace front back i j) :
    ∃ l r f, ParamPlace.Holds front back i j l r f := by
  obtain ⟨l, r, comma⟩ := exists_without_comma front.toList back.toList
  have outside := place.outside comma
  obtain ⟨s₁, well₁, param₁⟩ := place (-1)
  obtain ⟨s₂, well₂, param₂⟩ := place (-2)
  obtain ⟨whole₁, vs₁, items₁, read₁⟩ := well₁.items
  obtain ⟨whole₂, vs₂, items₂, read₂⟩ := well₂.items
  rw [rewritten_negative outside comma (d := '1') rfl rfl (by decide)] at items₁ whole₁
  rw [rewritten_negative outside comma (d := '2') rfl rfl (by decide)] at items₂ whole₂
  obtain ⟨f, x, y, a, b, v, ha, hb, rfl, text, frame⟩ := @exists_frame 123 _ _ _ _ items₁ read₁
  -- the digit belongs to the number
  obtain ⟨y, rfl, hr⟩ : ∃ z, y = '1' :: z ∧ strictText r = z ++ b := by
    rcases y with _ | ⟨c, y⟩
    · have stop := frame.stops [] '1' (by rw [← show '1' :: strictText r = b from hb]; rfl)
      exact absurd stop (by decide)
    · obtain ⟨rfl, hr⟩ := List.cons.inj hb
      exact ⟨y, rfl, hr⟩
  have kind := (f.part_of_readAs read₁).imp And.right id
  have read := (items₂.append_blank (g := [' ']) (by decide)).reads Value.Text.spelling [' ', '}']
  have other : strictText l ++ '-' :: '2' :: strictText r ++ [' '] ++ [']', ' ', '}'] =
      a ++ ((x ++ '-' :: '2' :: y) ++ (b ++ [' ', ']', ' ', '}'])) := by
    rw [ha, hr]
    simp
  rw [other] at read
  obtain ⟨w, text'⟩ := exists_text_of_digit frame text rfl rfl kind read
  have items : Items Blank (Value.Text itemLimit) true (strictText l ++ '-' :: '2' :: strictText r)
      (f.fill w) := by
    have same : strictText l ++ '-' :: '2' :: strictText r = a ++ ((x ++ '-' :: '2' :: y) ++ b) := by
      rw [ha, hr]
      simp
    exact same ▸ frame.items text'
  have read₃ := readAs_of_items items whole₂ well₂.parsed
  -- the two numbers are read for the same parameter, so it is the part that was left out
  have old := (read₁.param? i j).trans param₁
  have new := (read₃.param? i j).trans param₂
  rcases f.param?_fill i j with ⟨behind, param⟩ | fixed
  · have spelled := text.eq_toString ((param v).symm.trans old)
    obtain rfl := eq_nil_of_negative spelled
    obtain rfl : y = [] := (List.cons.inj (List.cons.inj spelled).2).2
    rw [List.append_nil] at ha
    rw [List.nil_append] at hr
    have closed : strictText (r ++ [' ', ']']) = strictText r ++ [' ', ']'] := by
      have whole := normalize_place comma (not_mem_toString rfl (by decide) (-1))
      rw [show l ++ ((toString (-1 : Int64)).toList ++ (r ++ [' ', ']'])) =
        l ++ '-' :: '1' :: (r ++ [' ', ']']) from rfl, strictText_negative _ _ rfl (by decide), outside,
        if_neg (by decide), whole₁] at whole
      have padded : strictText (r ++ [' ', ']']) ++ [' ', '}'] =
          (strictText r ++ [' ', ']']) ++ [' ', '}'] := by simpa using whole.symm
      exact List.append_cancel_right padded
    exact ⟨l, r, f, comma, outside, closed, by rwa [ha, hr], param, behind⟩
  · rw [fixed v w, new] at old
    exact absurd old (by decide)

namespace ParamPlace.Holds

variable {f : Frame}

/-- No hexadecimal number begins in front of the place. -/
theorem apart_front (h : Holds front back i j l r f) (y : List Char) : Apart l y := by
  have outside := h.outside
  obtain ⟨u, g, comma, blank⟩ := h.text.comma fun none => by
    have behind := h.behind
    rw [none] at behind
    cases behind
  obtain ⟨p, q, rfl, hexish, apart⟩ := exists_hexish_end l
  rcases List.eq_nil_or_concat q with rfl | ⟨q', d, hq⟩
  · rw [List.append_nil]
    exact apart y
  have slash : q.head? ≠ some '/' := fun slash =>
    absurd (hexish '/' (List.mem_of_mem_head? slash)) (by decide)
  have slash' : (decimalHex q).head? ≠ some '/' := mt (head_decimalHex (by decide)).mp slash
  have feed : '\n' ∉ decimalHex q := fun feed =>
    absurd (isHexish_decimalHex hexish '\n' feed) (by decide)
  -- the characters at the end are left in front of the place
  have shown : strictText (p ++ q) = strictText p ++ marked q := by
    rw [decimalHex_append (apart q), endsInside_append false slash'] at outside
    have begins : endsInside false (decimalHex p) = false := by
      by_contra commented
      rw [Bool.not_eq_false] at commented
      rw [commented, (dropComments_comment feed).2] at outside
      exact absurd outside nofun
    rw [strictText_append (apart q) slash, begins,
      ← strictText_of_uncommented (uncommented_of_isHexish hexish)]
    rfl
  have some_q : marked q ≠ [] := marked_ne_nil (by rw [hq]; simp)
  obtain ⟨m, c, hm⟩ := (List.eq_nil_or_concat (marked q)).resolve_left some_q
  obtain ⟨n, e, hn, stop⟩ : ∃ n e, ',' :: g = n ++ [e] ∧ Frame.isStop e = true := by
    rcases List.eq_nil_or_concat g with rfl | ⟨g, e, rfl⟩
    · exact ⟨[], ',', rfl, rfl⟩
    · exact ⟨',' :: g, e, by simp, by simp [Frame.isStop, blank e (by simp)]⟩
  rw [shown, hm, hn, List.concat_eq_append, ← List.append_assoc, ← List.append_assoc] at comma
  obtain rfl := (List.cons.inj (List.append_inj' comma rfl).2).1
  have last : isHexish c = true := isHexish_marked hexish c (by rw [hm]; simp)
  exact absurd (last.symm.trans (isHexish_of_isStop stop)) nofun

/-- No hexadecimal number ends behind the place. -/
theorem apart_back (h : Holds front back i j l r f) (x : List Char) : Apart x (r ++ [' ', ']']) := by
  have stops := h.text.stops [' ', ']']
  rw [← h.closed] at stops
  obtain ⟨s, e, same, hexish, apart⟩ := exists_hexish_front (r ++ [' ', ']'])
  rw [same] at stops ⊢
  rcases s with _ | ⟨c, s⟩
  · exact apart x
  have slash : '/' ∉ decimalHex (c :: s) := fun slash =>
    absurd (isHexish_decimalHex hexish '/' slash) (by decide)
  rw [strictText_piece slash (decimalHex_append (apart (c :: s)))] at stops
  obtain ⟨d, m, hm⟩ := List.exists_cons_of_ne_nil (marked_ne_nil (List.cons_ne_nil c s))
  have first : isHexish d = true := isHexish_marked hexish d (by rw [hm]; exact List.mem_cons_self)
  have stop : Frame.isStop d = true := stops d (by rw [← marked, hm]; rfl)
  exact absurd (first.symm.trans (isHexish_of_isStop stop)) (by decide)

/-- Characters of numbers in the place are rewritten by themselves. -/
theorem normalize (h : Holds front back i j l r f) {x : String} (some_x : x.toList ≠ [])
    (hexish : ∀ c ∈ x.toList, isHexish c = true) : (normalize (front ++ x ++ back)).toList =
      '{' :: ' ' :: (fieldText ++ ((strictText l ++ (decimalHex x.toList ++ strictText r)) ++
        [' ', ']'] ++ [' ', '}'])) := by
  have other : ∀ {c : Char}, isHexish c = false → c ∉ x.toList := fun none mem =>
    absurd ((hexish _ mem).symm.trans none) nofun
  have slash : (x.toList ++ (r ++ [' ', ']'])).head? ≠ some '/' := by
    rw [List.head?_append_of_ne_nil _ some_x]
    exact fun slash => other (by decide) (List.mem_of_mem_head? slash)
  have slash' : '/' ∉ decimalHex x.toList := mt (mem_decimalHex (by decide)).mp (other (by decide))
  rw [normalize_place h.comma (other (by decide)), strictText_append (h.apart_front _) slash, h.outside,
    ← strictText, strictText_piece slash' (decimalHex_append (h.apart_back _)), ← marked,
    marked_of_isHexish hexish, h.closed]
  simp

end ParamPlace.Holds

/-! ### Longer numbers -/

/-- What a hexadecimal number of more than two digits is read as: the first two as they should be,
and the others, which must be decimal, behind them. -/
inductive Joined : List Char → Int64 → Prop
  | mk {a b : Char} {rest : List Char} {n : Nat} {q : Int64} :
      Numeral.number? 16 [a, b] = some n → 0 < n → rest ≠ [] → (∀ d ∈ rest, d.isDigit = true) →
      q.toInt = Nat.ofDigitChars 10 rest n → Joined (a :: b :: rest) q

/-- The integers that a longer number is rewritten to. -/
theorem decimalHex_eq_toString_iff {ds : List Char} {q : Int64}
    (hex : ∀ d ∈ ds, (Numeral.digit? 16 d).isSome = true) (width : ds.length ≠ 2) :
    decimalHex ('0' :: 'x' :: ds) = (toString q).toList ↔ Joined ds q := by
  have noX : ∀ {es : List Char}, (∀ d ∈ es, (Numeral.digit? 16 d).isSome = true) → 'x' ∉ es :=
    fun hex mem => absurd (hex 'x' mem) (by decide)
  constructor
  · intro same
    have stays : 'x' ∉ decimalHex (['0'] ++ 'x' :: ds) := by
      rw [show ['0'] ++ 'x' :: ds = '0' :: 'x' :: ds from rfl, same]
      exact not_mem_toString rfl (by decide) q
    rcases ds with _ | ⟨a, _ | ⟨b, rest⟩⟩
    · exact absurd (mem_decimalHex_x ['0'] (by simp)) stays
    · exact absurd (mem_decimalHex_x ['0'] (by simp)) stays
    obtain ⟨ha, hb, hrest⟩ : _ ∧ _ ∧ ∀ d ∈ rest, _ := by simpa using hex
    obtain ⟨m, hm⟩ := Option.isSome_iff_exists.mp ha
    obtain ⟨k, hk⟩ := Option.isSome_iff_exists.mp hb
    have number : Numeral.number? 16 [a, b] = some (m * 16 + k) := by
      simp [Numeral.number?, hm, hk]
    have some_rest : rest ≠ [] := by
      rintro rfl
      exact width rfl
    rw [decimalHex_hex number, decimalHex_of_not_mem (noX hrest)] at same
    -- what stands behind the first two digits is part of an integer, and no sign
    have digits : ∀ d ∈ rest, d.isDigit = true := by
      intro d hd
      refine (digits_toString q d (same ▸ List.mem_append_right _ hd)).resolve_right ?_
      rintro rfl
      exact absurd (hrest '-' hd) (by decide)
    obtain ⟨n, value, spelled⟩ : ∃ n : Nat, q.toInt = n ∧ (toString q).toList = Nat.toDigits 10 n := by
      refine (toList_toString q).resolve_right ?_
      rintro ⟨n, negative⟩
      obtain ⟨d, t, hd⟩ := List.exists_cons_of_ne_nil (Nat.toDigits_ne_nil (n := m * 16 + k) (b := 10))
      rw [negative, hd] at same
      have minus : '-' ∈ Nat.toDigits 10 (m * 16 + k) := by
        rw [hd, (List.cons.inj same).1]
        exact List.mem_cons_self
      exact minus_not_mem_toDigits _ minus
    rw [spelled] at same
    have positive : 0 < m * 16 + k := by
      by_contra none
      rw [Nat.eq_zero_of_not_pos none, Nat.toDigits_zero] at same
      exact some_rest (eq_zero_of_toDigits same.symm).2
    refine .mk number positive some_rest digits ?_
    rw [toDigits_append digits positive] at same
    have one := congrArg (Nat.ofDigitChars 10 · 0) same
    rw [Nat.ofDigitChars_toDigits (by decide) (by decide),
      Nat.ofDigitChars_toDigits (by decide) (by decide)] at one
    rw [value, one]
  · rintro ⟨number, positive, some_rest, digits, value⟩
    rw [decimalHex_hex number, decimalHex_of_not_mem (noX fun d hd => hex d (by simp [hd])),
      toDigits_append digits positive]
    have text : (toString q).toList = (toString q.toInt).toList := rfl
    rw [text, value]
    exact (toList_toString_nat _).symm

/-- The same digits in a larger base, behind no smaller number, spell a larger one. -/
theorem exists_number_gt {ds : List Char} (digits : ∀ d ∈ ds, d.isDigit = true) {k m : Nat}
    (h : k ≤ m) (positive : 0 < m) (larger : k < m ∨ ds ≠ []) :
    ∃ m', ds.foldl (fun n? c => do return (← n?) * 16 + (← Numeral.digit? 16 c)) (some m) = some m' ∧
      Nat.ofDigitChars 10 ds k < m' := by
  induction ds generalizing k m with
  | nil => exact ⟨m, rfl, larger.resolve_right (· rfl)⟩
  | cons d ds ih =>
    obtain ⟨first, others⟩ := List.forall_mem_cons.mp digits
    have value : Numeral.digit? 16 d = some (digitValue d) := by
      have small : d.toNat - 48 < 10 := digitValue_lt first
      simp only [Numeral.digit?, first, if_true, digitValue, Option.filter_eq_some_iff,
        decide_eq_true_eq, true_and]
      omega
    have longer : 10 * k + (d.toNat - '0'.toNat) < m * 16 + digitValue d := by
      rw [show d.toNat - '0'.toNat = digitValue d from rfl]
      omega
    rw [List.foldl_cons, value, Nat.ofDigitChars_cons]
    exact ih others (Nat.le_of_lt longer) (Nat.zero_lt_of_lt longer) (.inl longer)

/-- A longer number is read as a smaller one. -/
theorem Joined.lt {ds : List Char} {q : Int64} (h : Joined ds q) :
    ∃ m : Nat, Numeral.number? 16 ds = some m ∧ q.toInt < m := by
  obtain @⟨a, b, rest, n, q, number, positive, some_rest, digits, value⟩ := h
  obtain ⟨m, whole, larger⟩ := exists_number_gt digits (Nat.le_refl n) positive (.inr some_rest)
  refine ⟨m, ?_, by rw [value]; exact Int.ofNat_lt.mpr larger⟩
  rw [← whole, ← number]
  rfl

variable {digits : String}

theorem toList_hex (digits : String) : ("0x" ++ digits).toList = '0' :: 'x' :: digits.toList :=
  String.toList_append

/-- The characters of a hexadecimal number. -/
theorem isHexish_hex (hex : ∀ d ∈ digits.toList, (Numeral.digit? 16 d).isSome = true) :
    ∀ c ∈ ("0x" ++ digits).toList, isHexish c = true := by
  rw [toList_hex]
  refine List.forall_mem_cons.mpr ⟨by decide, List.forall_mem_cons.mpr ⟨by decide, fun c hc => ?_⟩⟩
  simp [isHexish, hex c hc]

/-- What a hexadecimal number is rewritten to begins like a number. -/
theorem exists_digit_decimalHex (cs : List Char) :
    ∃ d t, decimalHex ('0' :: cs) = d :: t ∧ d.isDigit = true := by
  by_cases front : ∃ a b n rest, '0' :: cs = '0' :: 'x' :: a :: b :: rest ∧
      Numeral.number? 16 [a, b] = some n
  · obtain ⟨a, b, n, rest, same, number⟩ := front
    obtain ⟨d, t, digits⟩ := List.exists_cons_of_ne_nil (Nat.toDigits_ne_nil (n := n) (b := 10))
    have digit : d.isDigit = true := Nat.isDigit_of_mem_toDigits (by decide) (by decide)
      (digits ▸ List.mem_cons_self : d ∈ Nat.toDigits 10 n)
    rw [same, decimalHex_hex number, digits]
    exact ⟨d, t ++ decimalHex rest, rfl, digit⟩
  · rw [decimalHex_cons '0' fun a b n rest same number => front ⟨a, b, n, rest, same, number⟩]
    exact ⟨'0', decimalHex cs, rfl, rfl⟩

/-- A longer number that is rewritten to an integer is read as that integer. -/
theorem ParamPlace.Holds.parse_hex {f : Frame} (h : Holds front back i j l r f)
    (hex : ∀ d ∈ digits.toList, (Numeral.digit? 16 d).isSome = true) {q : Int64}
    (same : decimalHex ("0x" ++ digits).toList = (toString q).toList) :
    Script.parse (front ++ ("0x" ++ digits) ++ back) = Script.parse (front ++ toString q ++ back) := by
  have hexish := isHexish_hex hex
  have some_hex : ("0x" ++ digits).toList ≠ [] := by
    rw [toList_hex]
    exact List.cons_ne_nil _ _
  have some_q : (toString q).toList ≠ [] := same ▸ decimalHex_ne_nil some_hex
  have hexish_q : ∀ c ∈ (toString q).toList, isHexish c = true := same ▸ isHexish_decimalHex hexish
  have whole := h.normalize some_hex hexish
  have whole_q := h.normalize some_q hexish_q
  rw [decimalHex_of_not_mem (not_mem_toString rfl (by decide) q), ← same, ← whole,
    String.toList_inj] at whole_q
  rw [Script.parse, Script.parse, whole_q]

/-- A longer number that is accepted is rewritten to an integer. -/
theorem ParamPlace.Holds.exists_integer {f : Frame} (h : Holds front back i j l r f)
    (hex : ∀ d ∈ digits.toList, (Numeral.digit? 16 d).isSome = true)
    (parsed : Script.parse (front ++ ("0x" ++ digits) ++ back) = .ok s) :
    ∃ q : Int64, decimalHex ("0x" ++ digits).toList = (toString q).toList := by
  have hexish := isHexish_decimalHex (isHexish_hex hex)
  have whole := h.normalize (by rw [toList_hex]; exact List.cons_ne_nil _ _) (isHexish_hex hex)
  obtain ⟨d, t, begins, digit⟩ := exists_digit_decimalHex ('x' :: digits.toList)
  rw [← toList_hex] at begins
  rw [begins] at whole hexish ⊢
  -- something is read in the place, and it is the whole number
  obtain ⟨v, text⟩ : ∃ v, Value.Text 123 (d :: t) v := by
    have goes : ∀ c ∈ d :: t, Frame.isStop c = false := fun c hc => by
      by_contra stop
      rw [Bool.not_eq_false] at stop
      exact absurd ((hexish c hc).symm.trans (isHexish_of_isStop stop)) nofun
    have front : strictText l ++ (d :: t ++ strictText r) ++ [' ', ']'] ++ [' ', '}'] =
        strictText l ++ (d :: t ++ (strictText r ++ [' ', ']', ' ', '}'])) := by simp
    rw [front] at whole
    obtain ⟨vs, rest, read, -⟩ := exists_items_of_parse parsed whole
    exact h.text.text_of_reads (.inl digit) goes (h.text.stops _) read
  have read := readAs_of_items (h.text.items text) whole parsed
  rcases Frame.part_of_readAs read with ⟨none, -⟩ | ⟨q, integer⟩
  · have behind := h.behind
    rw [none] at behind
    cases behind
  · exact ⟨q, text.eq_toString integer⟩

/-- **A hexadecimal number that has not two digits is accepted only if it is read as another one.**  In
the place of a parameter, it must have more than two, the first two not zero and the others decimal;
then the decimal of the first two with the others behind it is the parameter, if that is an integer
of 64 bits, and it is smaller than the number that was written. -/
theorem parse_wide_hex {front back digits : String} {i j : Nat} (place : ParamPlace front back i j)
    (hex : ∀ d ∈ digits.toList, (Numeral.digit? 16 d).isSome = true)
    (width : digits.toList.length ≠ 2) :
    (∀ s, Script.parse (front ++ ("0x" ++ digits) ++ back) = .ok s ↔
      ∃ q, Joined digits.toList q ∧ Script.parse (front ++ toString q ++ back) = .ok s) ∧
    ∀ q, Joined digits.toList q → ∃ s m,
      Script.parse (front ++ ("0x" ++ digits) ++ back) = .ok s ∧
        s.commands[i]?.bind (·.params[j]?) = some q ∧ Numeral.number? 16 digits.toList = some m ∧
        q.toInt < m := by
  obtain ⟨l, r, f, h⟩ := place.holds
  have rewritten : ∀ {q}, decimalHex ("0x" ++ digits).toList = (toString q).toList ↔
      Joined digits.toList q := fun {q} => toList_hex digits ▸ decimalHex_eq_toString_iff hex width
  refine ⟨fun s => ⟨fun parsed => ?_, fun ⟨q, joined, parsed⟩ => ?_⟩, fun q joined => ?_⟩
  · obtain ⟨q, same⟩ := h.exists_integer hex parsed
    exact ⟨q, rewritten.mp same, (h.parse_hex hex same).symm.trans parsed⟩
  · exact (h.parse_hex hex (rewritten.mpr joined)).trans parsed
  · obtain ⟨s, well, param⟩ := place q
    obtain ⟨m, number, smaller⟩ := joined.lt
    exact ⟨s, m, (h.parse_hex hex (rewritten.mpr joined)).trans well.parsed, param, number, smaller⟩

/-- Every text of tuples is that of a script, closed by no bracket of its own. -/
theorem WellFormed.of_spelled {tuples : List Tuple} (h : Spelled raw.toList tuples) :
    WellFormed raw ⟨tuples.map Tuple.command⟩ := by
  obtain ⟨v, rewrites, items⟩ := h.rewrites
  refine ⟨parse_of_rewrites rewrites items, tuples.map fun e => .list e.items, ?_⟩
  have body : rewritten raw.toList = v := by
    have strict := rewrites.strict [] nofun
    rwa [List.append_nil, show strictText [] = [] from rfl, List.append_nil] at strict
  have list : Value.Text nestingLimit _ (.list _) := Layer.list (items.imp Value.Text.succ)
  rw [body]
  exact Value.ofText_eq_ok_iff.mpr ⟨[], _, [], by simp, .nil, .nil, list⟩

theorem paramPlace_fade : ParamPlace "[0, ['f', " "]]," 0 0 := by
  intro p
  have space : Gap [' '] := .blank rfl .nil
  have short : ∀ a b n, Numeral.number? 16 [a, b] = some n → ¬['0', 'x', a, b] <:+: "f".toList :=
    fun a b n _ infix_ => absurd infix_.length_le (by simp)
  have code : CodeText "'f'".toList "f" := .single ⟨by simp, by simp, by decide, short⟩
  have params : Items Gap ParamText false _ [p] := .next .nil space (.decimal p) (.nil .nil)
  have inner : Enclosed InstructionText _ ("f", [p]) := .brackets (.mk .nil code params)
  have enough : (Instruction.ofCode "f").arity ≤ [p].length := by
    show (Instruction.ofCode "f").arity ≤ 1
    decide
  have tuple : TupleText _ ⟨0, "f", [p], enough⟩ := .mk .nil .nil space .nil inner
  have first : Items Gap (Enclosed TupleText) true _ _ := .first .nil (.brackets tuple) (.nil .nil)
  have spelled : Spelled ("[0, ['f', " ++ toString p ++ "]],").toList [⟨0, "f", [p], enough⟩] := by
    have whole := Spelled.tuples (g := []) (List.cons_ne_nil _ _) first .nil (by simp)
    have zero : (toString (0 : UInt32)).toList = ['0'] := rfl
    simpa [zero] using whole
  exact ⟨_, .of_spelled spelled, rfl⟩

theorem parse_wide_hex_fade :
    (ParamPlace "[0, ['f', " "]]," 0 0 ∧ (∀ d ∈ "1234".toList, (Numeral.digit? 16 d).isSome = true) ∧
      "1234".toList.length ≠ 2 ∧ Joined "1234".toList 1834) ∧
      ∃ s m, Script.parse ("[0, ['f', " ++ ("0x" ++ "1234") ++ "]],") = .ok s ∧
        s.commands[0]?.bind (·.params[0]?) = some 1834 ∧ Numeral.number? 16 "1234".toList = some m ∧
        (1834 : Int64).toInt < m := by
  have hex : ∀ d ∈ "1234".toList, (Numeral.digit? 16 d).isSome = true := by simp [Numeral.digit?]
  have width : "1234".toList.length ≠ 2 := by simp
  have joined : Joined ['1', '2', '3', '4'] 1834 :=
    .mk (n := 18) (by decide) (by decide) (by decide) (by simp) (by decide)
  exact ⟨⟨paramPlace_fade, hex, width, joined⟩,
    (parse_wide_hex paramPlace_fade hex width).2 1834 joined⟩

/-- In a place of a parameter, a number of four digits is accepted, and is another integer than it
spells. -/
theorem parse_hex_of_four :
    ParamPlace "[0, ['f', " "]]," 0 0 ∧
      Script.parse "[0, ['f', 0x1234]]," = .ok ⟨[⟨0, .fade, [1834]⟩]⟩ ∧
      Numeral.number? 16 "1234".toList = some 4660 :=
  ⟨paramPlace_fade, by cbv, by decide +kernel⟩

end

end Script

end Lightshow
