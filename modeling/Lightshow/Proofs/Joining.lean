/-
Two texts written together.

When the character between two texts goes, what they become is hardly more than what each of them
becomes: only a hexadecimal number or a comment can arise where they meet.  Where neither does, the
rewritten texts stand next to each other; inside of a string, what arises is still inside of it,
unless it is a comment, which takes the closing quote along.

* `strictText_joined` -- texts that are rewritten one after the other;
* `inside_marked`, `strictText_string` -- texts inside of a string.
-/
import Lightshow.Proofs.Rewriting
import Mathlib.Data.List.Induction

namespace Lightshow.Json

/-! ### Strings -/

theorem Inside.of_plain {s t : List Char} (plain : ∀ c ∈ s, c ≠ '"' ∧ c ≠ '\\') (h : Inside t) :
    Inside (s ++ t) := by
  induction s with
  | nil => exact h
  | cons c s ih =>
    obtain ⟨first, others⟩ := List.forall_mem_cons.mp plain
    exact .plain first.1 first.2 (ih others)

theorem Inside.drop_plain {s t : List Char} (plain : ∀ c ∈ s, c ≠ '"' ∧ c ≠ '\\')
    (h : Inside (s ++ t)) : Inside t := by
  induction s with
  | nil => exact h
  | cons c s ih =>
    obtain ⟨first, others⟩ := List.forall_mem_cons.mp plain
    generalize whole : c :: s ++ t = w at h
    cases h with
    | nil => cases whole
    | plain _ _ inside =>
      obtain ⟨rfl, rfl⟩ := List.cons.inj whole
      exact ih others inside
    | escape => exact absurd (List.cons.inj whole).1 first.2

/-- The characters at the end of a text inside of a string can be replaced, as long as a backslash
in front of them keeps what it escapes. -/
theorem Inside.replace {s t z u : List Char} (h : Inside (s ++ t))
    (plain : ∀ c ∈ z, c ≠ '"' ∧ c ≠ '\\' ∧ c ≠ ',') (keeps : z = [] → t = []) (hu : Inside u) :
    Inside (s ++ (z ++ u)) := by
  have behind : Inside (z ++ u) := hu.of_plain fun c hc => ⟨(plain c hc).1, (plain c hc).2.1⟩
  generalize whole : s ++ t = w at h
  induction h generalizing s with
  | nil =>
    obtain ⟨rfl, -⟩ := List.append_eq_nil_iff.mp whole
    exact behind
  | plain quote backslash _ ih =>
    rcases s with _ | ⟨d, s⟩
    · exact behind
    · obtain ⟨rfl, tails⟩ := List.cons.inj whole
      exact .plain quote backslash (ih tails)
  | escape comma _ ih =>
    rcases s with _ | ⟨d, _ | ⟨e, s⟩⟩
    · exact behind
    · -- the backslash is the last character, and escapes one of the replaced ones
      obtain ⟨rfl, tails⟩ := List.cons.inj whole
      rcases z with _ | ⟨e, z⟩
      · rw [keeps rfl] at tails
        cases tails
      · obtain ⟨first, others⟩ := List.forall_mem_cons.mp plain
        exact .escape first.2.2 (hu.of_plain fun c hc => ⟨(others c hc).1, (others c hc).2.1⟩)
    · obtain ⟨rfl, tails⟩ := List.cons.inj whole
      obtain ⟨rfl, tails'⟩ := List.cons.inj tails
      exact .escape comma (ih tails')

/-- A text inside of a string that is cut off does not go on to a quote past a control character. -/
theorem Inside.not_quotes {s e tail m r ds : List Char} (h : Inside (s ++ e))
    (cut : ∀ k r, tail = k ++ '"' :: r → ∃ c ∈ k, c.toNat < 0x20) (same : s ++ tail = m ++ '"' :: r) :
    ¬Quotes m ds := by
  intro quotes
  rcases List.append_eq_append_iff.mp same with ⟨k, rfl, behind⟩ | ⟨k, rfl, behind⟩
  · obtain ⟨c, hc, control⟩ := cut k r behind
    have visible := quotes.visible c (List.mem_append_right s hc)
    omega
  · rcases k with _ | ⟨c, k⟩
    · obtain ⟨c, hc, -⟩ := cut [] r behind.symm
      cases hc
    · -- the quote is one of the text
      obtain ⟨rfl, -⟩ := List.cons.inj behind
      have early : (m ++ '"' :: k ++ e) ++ '"' :: [] = m ++ '"' :: (k ++ e ++ '"' :: []) := by simp
      obtain ⟨longer, -⟩ := h.ends quotes.inside early
      simpa using congrArg List.length longer

end Lightshow.Json

namespace Lightshow.ScriptText

open Json

variable {x y : List Char}

/-! ### Rewriting over a gap -/

/-- What stands in front of the hexadecimal characters at the end of a text is apart from everything
behind it. -/
theorem exists_hexish_end (x : List Char) : ∃ p r, x = p ++ r ∧ (∀ c ∈ r, isHexish c = true) ∧
    ∀ y, Apart p y := by
  induction x using List.reverseRecOn with
  | nil => exact ⟨[], [], rfl, nofun, fun y => Apart.of_nil⟩
  | append_singleton x c ih =>
    by_cases hexish : isHexish c = true
    · obtain ⟨p, r, rfl, all, apart⟩ := ih
      refine ⟨p, r ++ [c], List.append_assoc .., fun d hd => ?_, apart⟩
      exact (List.mem_append.mp hd).elim (all d) fun same => List.mem_singleton.mp same ▸ hexish
    · exact ⟨x ++ [c], [], (List.append_nil _).symm, nofun,
        fun y => Apart.of_last (Bool.eq_false_iff.mpr hexish)⟩

theorem exists_hexish_front (y : List Char) : ∃ s e, y = s ++ e ∧ (∀ c ∈ s, isHexish c = true) ∧
    ∀ x, Apart x e := by
  refine ⟨y.takeWhile isHexish, y.dropWhile isHexish, List.takeWhile_append_dropWhile.symm,
    fun c hc => List.mem_takeWhile_imp hc, fun x => Apart.of_head fun c hc => ?_⟩
  have := List.head?_dropWhile_not isHexish y
  rw [Option.mem_def.mp hc] at this
  simpa using this

theorem isHexish_marked (h : ∀ c ∈ x, isHexish c = true) : ∀ c ∈ marked x, isHexish c = true := by
  intro c hc
  obtain ⟨d, hd, rfl⟩ := List.mem_map.mp hc
  rw [isHexish_strictMark]
  by_contra other
  rw [Bool.not_eq_true] at other
  exact absurd ((h d ((mem_decimalHex other).mp hd)).symm.trans other) nofun

theorem marked_ne_nil (h : x ≠ []) : marked x ≠ [] :=
  mt List.map_eq_nil_iff.mp (decimalHex_ne_nil h)

theorem plain_of_isHexish {c : Char} (h : isHexish c = true) : c ≠ '"' ∧ c ≠ '\\' ∧ c ≠ ',' := by
  refine ⟨?_, ?_, ?_⟩ <;> (rintro rfl; exact absurd h (by decide))

/-- A text inside of a string stays one without a comma of its own. -/
theorem inside_marked (h : Inside (marked x ++ ',' :: marked y)) : Inside (marked (x ++ y)) := by
  -- what is rewritten anew stands between `p` and `e`, and has no quote and no backslash
  obtain ⟨p, r, rfl, hr, apart⟩ := exists_hexish_end x
  obtain ⟨s, e, rfl, hs, apart'⟩ := exists_hexish_front y
  have middle : ∀ c ∈ marked (r ++ s), isHexish c = true := isHexish_marked fun c hc =>
    (List.mem_append.mp hc).elim (hr c) (hs c)
  have whole : (p ++ r) ++ (s ++ e) = p ++ ((r ++ s) ++ e) := by simp
  rw [marked_append (apart r), marked_append (apart' s)] at h
  rw [whole, marked_append (apart _), marked_append (apart' _)]
  obtain ⟨front, behind⟩ := h.split_comma
  have last : Inside (marked e) := behind.drop_plain fun c hc =>
    have plain := plain_of_isHexish (isHexish_marked hs c hc)
    ⟨plain.1, plain.2.1⟩
  refine front.replace (fun c hc => plain_of_isHexish (middle c hc)) (fun none => ?_) last
  by_contra some_r
  have some_r : r ≠ [] := fun none => some_r (by rw [none]; rfl)
  exact marked_ne_nil (List.append_ne_nil_of_left_ne_nil some_r s) none

theorem mem_of_mem_marked (h : ',' ∈ marked x) : ',' ∈ x := by
  obtain ⟨c, hc, same⟩ := List.mem_map.mp h
  have comma : c = ',' := by
    rw [strictMark] at same
    split_ifs at same <;> simp_all
  subst comma
  exact (mem_decimalHex (by decide)).mp hc

theorem head_marked {c : Char} (h : x.head? = some c) (zero : c ≠ '0') :
    (marked x).head? = some (strictMark c) := by
  obtain ⟨t, rfl⟩ := List.head?_eq_some_iff.mp h
  rw [marked, decimalHex_cons c fun _ _ _ _ same _ => zero (List.cons.inj same).1]
  rfl

/-- Two texts are rewritten one after the other if the first ends with no `x` behind a character that
is part of no number, and the second begins with no `x` and no slash. -/
theorem strictText_joined {p f : List Char} {c : Char} (hx : Uncommented x) (hy : Uncommented y)
    (same : marked x = p ++ c :: f) (barrier : isHexish c = false) (plain : 'x' ∉ f)
    (begins : ∀ d ∈ (marked y).head?, d ≠ 'x' ∧ d ≠ '/') :
    strictText (x ++ y ++ [' ', ']']) = marked x ++ (marked y ++ [' ', ']']) := by
  have slash : y.head? ≠ some '/' := fun slash => (begins _ (head_marked slash (by decide))).2 rfl
  have noX : y.head? ≠ some 'x' := fun noX => (begins _ (head_marked noX (by decide))).1 rfl
  have apart : Apart x y := by
    obtain ⟨a, d, b, rfl, rfl, rfl, rfl⟩ := marked_split barrier same
    rw [isHexish_strictMark] at barrier
    exact .of_barrier barrier (.of_plain (fun stays => plain (List.mem_map.mpr ⟨'x', stays, rfl⟩)) noX)
  rw [strictText_marked (hx.append hy fun _ => slash), marked_append apart, List.append_assoc]

theorem dropComments_slashes {a : List Char} (h : Uncommented (a ++ ['/'])) (b : List Char) :
    dropComments false (a ++ '/' :: '/' :: b) = a ++ dropComments true b := by
  induction a with
  | nil => rfl
  | cons c a ih =>
    obtain ⟨first, others⟩ := uncommented_cons.mp h
    rw [List.cons_append, dropComments_cons ?_, ih others]
    · rfl
    · rcases a with _ | ⟨d, a⟩
      · exact fun slash => absurd rfl (first slash)
      · exact first

theorem head_dropComments (cs : List Char) : ∀ c ∈ (dropComments true cs).head?, c = '\n' := by
  generalize inside : true = i
  fun_induction dropComments i cs with
  | case1 => simp
  | case2 => exact fun c hc => (Option.some.inj hc).symm
  | case3 i rest ih => exact ih rfl
  | case4 c rest _ _ ih => exact ih rfl
  | case5 i c rest _ _ outside => exact absurd inside.symm outside

/-- Two slashes that come together begin a comment, and nothing is left of the line behind them. -/
theorem strictText_slashes {a : List Char} (h : Uncommented (a ++ ['/'])) (b : List Char) :
    ∃ k, strictText (a ++ '/' :: '/' :: b) = marked a ++ k ∧ ∀ c ∈ k.head?, c = '\n' := by
  have slash : isHexish '/' = false := by decide
  have plain : Uncommented (decimalHex a ++ ['/']) := decimalHex_barrier slash a [] ▸ h.decimalHex
  refine ⟨(dropComments true (decimalHex b)).map strictMark, ?_, ?_⟩
  · rw [strictText, decimalHex_barrier slash, decimalHex_plain slash, dropComments_slashes plain,
      List.map_append, marked]
  · intro c hc
    rw [List.head?_map] at hc
    obtain ⟨d, hd, rfl⟩ := Option.map_eq_some_iff.mp hc
    rw [head_dropComments _ d hd]
    rfl

/-- Without a comma in it, a string is still a string, or the rest of its line is gone. -/
theorem strictText_string {front a b back : List Char} (hx : Uncommented x) (hy : Uncommented y)
    (begins : marked x = front ++ '"' :: a) (ends : marked y = b ++ '"' :: back)
    (inside : Inside (a ++ ',' :: b)) :
    (∃ m, Inside m ∧ strictText (x ++ y ++ [' ', ']']) =
        front ++ '"' :: (m ++ '"' :: (back ++ [' ', ']']))) ∨
      ∃ q e k, Inside (q ++ e) ∧ strictText (x ++ y ++ [' ', ']']) = front ++ '"' :: (q ++ k) ∧
        ∀ c ∈ k.head?, c = '\n' := by
  obtain ⟨x, d, x', rfl, quote, rfl, rfl⟩ := marked_split (by decide) begins
  obtain ⟨y, d', y', rfl, quote', rfl, rfl⟩ := marked_split (by decide) ends
  have hexish : isHexish d = false := by rw [← isHexish_strictMark, quote]; decide
  have hexish' : isHexish d' = false := by rw [← isHexish_strictMark, quote']; decide
  by_cases slashes : (x ++ d :: x').getLast? = some '/' → (y ++ d' :: y').head? ≠ some '/'
  · refine .inl ⟨marked (x' ++ y), inside_marked inside, ?_⟩
    have whole : (x ++ d :: x') ++ (y ++ d' :: y') = x ++ d :: ((x' ++ y) ++ d' :: y') := by simp
    rw [strictText_marked (hx.append hy slashes), whole, marked_barrier hexish, marked_barrier hexish',
      quote, quote']
    simp
  · -- the slashes on both sides of the comma begin a comment
    rw [Classical.not_imp, not_not] at slashes
    obtain ⟨last, first⟩ := slashes
    obtain ⟨p, rfl⟩ : ∃ p, x' = p ++ ['/'] := by
      rcases List.eq_nil_or_concat x' with rfl | ⟨p, e, rfl⟩
      · obtain rfl : d = '/' := by simpa using last
        exact absurd quote (by decide)
      · rw [List.concat_eq_append, ← List.cons_append, ← List.append_assoc,
          List.getLast?_concat] at last
        obtain rfl := Option.some.inj last
        exact ⟨p, List.concat_eq_append⟩
    obtain ⟨r, rfl⟩ : ∃ r, y = '/' :: r := by
      rcases y with _ | ⟨e, r⟩
      · obtain rfl := Option.some.inj first
        exact absurd quote' (by decide)
      · exact ⟨r, by rw [Option.some.inj first]⟩
    rw [marked_barrier (by decide)] at inside
    have start : Uncommented ((x ++ d :: p) ++ ['/']) := by simpa using hx
    obtain ⟨k, cut, line⟩ := strictText_slashes start (r ++ d' :: y' ++ [' ', ']'])
    have whole : x ++ d :: (p ++ ['/']) ++ ('/' :: r ++ d' :: y') ++ [' ', ']'] =
        (x ++ d :: p) ++ '/' :: '/' :: (r ++ d' :: y' ++ [' ', ']']) := by
      simp
    refine .inr ⟨marked p, ['/'], k, inside.split_comma.1, ?_, line⟩
    rw [whole, cut, marked_barrier hexish, quote, List.append_assoc, List.cons_append]

end Lightshow.ScriptText
