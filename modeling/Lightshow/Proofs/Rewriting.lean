/-
How script text is rewritten, piece by piece.

The rewriting goes over the whole text once for every convenience, but what becomes of a piece of
the text hardly depends on what stands around it: the last comma goes from the last piece that has
one, a hexadecimal number is spread over two pieces only if the second begins in the middle of it,
and a comment reaches from its piece to the end of the line.

* `dropLastComma_append`, `decimalHex_append`, `dropComments_append` -- the steps on two pieces;
* `normalize_toList` -- the document around a script;
* `Rewrites` -- pieces that become the same whatever follows them, and how they are put together.
-/
import Lightshow.Proofs.Leaves
import Lightshow.Script.Text

namespace Lightshow.ScriptText

variable {a b cs : List Char}

/-! ### The last comma -/

theorem dropLastComma_of_not_mem (h : ',' ∉ cs) : dropLastComma cs = cs := by
  rw [dropLastComma, List.erase_of_not_mem (by simpa using h), List.reverse_reverse]

/-- The last comma goes from the second piece if there is one, and else from the first. -/
theorem dropLastComma_append (a b : List Char) : dropLastComma (a ++ b) =
    if ',' ∈ b then a ++ dropLastComma b else dropLastComma a ++ b := by
  split_ifs with comma
  · rw [dropLastComma, List.reverse_append, List.erase_append_left _ (by simpa using comma)]
    simp [dropLastComma]
  · rw [dropLastComma, List.reverse_append, List.erase_append_right _ (by simpa using comma)]
    simp [dropLastComma]

theorem dropLastComma_split (a : List Char) (h : ',' ∉ b) : dropLastComma (a ++ ',' :: b) = a ++ b := by
  have comma : dropLastComma (',' :: b) = b := by
    have := dropLastComma_append [','] b
    rwa [if_neg h, List.singleton_append] at this
  rw [dropLastComma_append, if_pos List.mem_cons_self, comma]

theorem mem_of_mem_dropLastComma {c : Char} (h : c ∈ dropLastComma cs) : c ∈ cs := by
  rw [dropLastComma, List.mem_reverse] at h
  exact List.mem_reverse.mp (List.mem_of_mem_erase h)

theorem exists_last_comma (h : ',' ∈ cs) : ∃ x y, cs = x ++ ',' :: y ∧ ',' ∉ y := by
  obtain ⟨x, y, same, first⟩ := List.eq_append_cons_of_mem (List.mem_reverse.mpr h)
  refine ⟨y.reverse, x.reverse, ?_, by simpa using first⟩
  rw [← List.reverse_reverse cs, same]
  simp

/-! ### Hexadecimal numbers -/

/-- Characters of a hexadecimal number. -/
def isHexish (c : Char) : Bool := (Numeral.digit? 16 c).isSome || c = 'x'

theorem isHexish_of_digit {c : Char} (h : c.isDigit = true) : isHexish c = true := by
  have small : c.toNat - 48 < 16 := by
    simp only [Char.isDigit, Bool.and_eq_true, decide_eq_true_eq] at h
    have : c.toNat ≤ 57 := h.2
    omega
  simp [isHexish, Numeral.digit?, h, small]

theorem decimalHex_hex {a b : Char} {n : Nat} (h : Numeral.number? 16 [a, b] = some n)
    (cs : List Char) : decimalHex ('0' :: 'x' :: a :: b :: cs) = Nat.toDigits 10 n ++ decimalHex cs := by
  rw [decimalHex, h]

theorem decimalHex_cons (c : Char) (h : ∀ a b n rest, c :: cs = '0' :: 'x' :: a :: b :: rest →
    Numeral.number? 16 [a, b] ≠ some n) : decimalHex (c :: cs) = c :: decimalHex cs := by
  rw [decimalHex.eq_def]
  split
  case h_1 a b rest same =>
    obtain ⟨rfl, rfl⟩ := List.cons.inj same
    cases number : Numeral.number? 16 [a, b] with
    | none => rfl
    | some n => exact absurd number (h a b n rest rfl)
  case h_2 same =>
    obtain ⟨rfl, rfl⟩ := List.cons.inj same
    rfl
  case h_3 same => exact absurd same nofun

/-- A text is empty, or a hexadecimal number stands at its front, or none does. -/
theorem decimalHex_induction {motive : List Char → Prop} (nil : motive [])
    (hex : ∀ a b n rest, Numeral.number? 16 [a, b] = some n → motive rest →
      motive ('0' :: 'x' :: a :: b :: rest))
    (char : ∀ c rest, (∀ a b n more, c :: rest = '0' :: 'x' :: a :: b :: more →
      Numeral.number? 16 [a, b] ≠ some n) → motive rest → motive (c :: rest)) (cs : List Char) :
    motive cs := by
  induction hn : cs.length using Nat.strongRecOn generalizing cs with
  | ind n ih =>
    subst hn
    rcases cs with _ | ⟨c, cs⟩
    · exact nil
    by_cases front : ∃ a b n rest, c :: cs = '0' :: 'x' :: a :: b :: rest ∧
        Numeral.number? 16 [a, b] = some n
    · obtain ⟨a, b, n, rest, same, number⟩ := front
      rw [same] at ih ⊢
      exact hex a b n rest number (ih rest.length (by simp only [List.length_cons]; omega) rest rfl)
    · exact char c cs (fun a b n more same number => front ⟨a, b, n, more, same, number⟩)
        (ih cs.length (Nat.lt_succ_self _) cs rfl)

theorem decimalHex_of_not_mem (h : 'x' ∉ cs) : decimalHex cs = cs := by
  induction cs with
  | nil => rfl
  | cons c cs ih =>
    rw [List.mem_cons, not_or] at h
    rw [decimalHex_cons c ?_, ih h.2]
    rintro a b n rest same -
    exact h.2 ((List.cons.inj same).2 ▸ List.mem_cons_self)

/-- No hexadecimal number begins in the first text and ends in the second. -/
def Apart (a b : List Char) : Prop :=
  ∀ l r c d n, l <:+ a → r <+: b → l ≠ [] → r ≠ [] → l ++ r = ['0', 'x', c, d] →
    Numeral.number? 16 [c, d] ≠ some n

theorem Apart.of_suffix {a a' : List Char} (h : Apart a b) (suffix : a' <:+ a) : Apart a' b :=
  fun l r c d n hl => h l r c d n (hl.trans suffix)

/-- Every character of a hexadecimal number is one of those. -/
theorem isHexish_of_number {c d : Char} {n : Nat} (h : Numeral.number? 16 [c, d] = some n) :
    ∀ x ∈ ['0', 'x', c, d], isHexish x = true := by
  have digits := Json.digits_of_number h
  have hexish : ∀ x ∈ [c, d], isHexish x = true := by
    intro x hx
    obtain ⟨m, hm⟩ := digits x hx
    simp [isHexish, hm]
  simpa [show isHexish '0' = true by decide, show isHexish 'x' = true by decide] using hexish

theorem Apart.of_head (h : ∀ c ∈ b.head?, isHexish c = false) : Apart a b := by
  intro l r c d n _ hr _ some_r whole number
  obtain ⟨x, r', rfl⟩ := List.exists_cons_of_ne_nil some_r
  obtain ⟨rest, rfl⟩ := hr
  have hexish := isHexish_of_number number x (whole ▸ by simp)
  exact absurd (hexish.symm.trans (h x rfl)) nofun

theorem Apart.of_nil : Apart [] b := fun _ _ _ _ _ hl _ some_l =>
  absurd (List.suffix_nil.mp hl) some_l

/-- A number does not begin in front of what is no part of one. -/
theorem Apart.of_barrier {c : Char} {a' : List Char} (hexish : isHexish c = false) (h : Apart a' b) :
    Apart (a ++ c :: a') b := by
  intro l r x y n hl hr some_l some_r whole number
  have other : ¬c :: a' <:+ l := fun suffix =>
    have mem : c ∈ ['0', 'x', x, y] := whole ▸ List.mem_append_left r (suffix.subset List.mem_cons_self)
    absurd ((isHexish_of_number number c mem).symm.trans hexish) nofun
  rcases List.suffix_or_suffix_of_suffix hl (List.suffix_append a (c :: a')) with suffix | suffix
  · rcases List.suffix_cons_iff.mp suffix with rfl | suffix
    · exact absurd (List.suffix_refl _) other
    · exact h l r x y n suffix hr some_l some_r whole number
  · exact absurd suffix other

theorem Apart.of_last {c : Char} (h : isHexish c = false) : Apart (a ++ [c]) b :=
  .of_barrier h .of_nil

/-- Two texts are rewritten one after the other if no hexadecimal number is spread over them. -/
theorem decimalHex_append (h : Apart a b) : decimalHex (a ++ b) = decimalHex a ++ decimalHex b := by
  induction a using decimalHex_induction with
  | nil => rfl
  | hex x y n rest number ih =>
    have behind := ih (h.of_suffix (List.suffix_append ['0', 'x', x, y] rest))
    rw [decimalHex_hex number, List.cons_append, List.cons_append, List.cons_append,
      List.cons_append, decimalHex_hex number, behind, List.append_assoc]
  | char c a here ih =>
    rw [decimalHex_cons c here, List.cons_append, List.cons_append, decimalHex_cons c ?_,
      ih (h.of_suffix (List.suffix_cons c a))]
    -- a number that begins here ends in the first text, or is spread over both
    intro x y n rest same number
    have four : '0' :: 'x' :: x :: y :: rest = ['0', 'x', x, y] ++ rest := rfl
    rw [← List.cons_append, four] at same
    rcases List.append_eq_append_iff.mp same with ⟨r, whole, hr⟩ | ⟨r, whole, hr⟩
    · rcases r with _ | ⟨z, r⟩
      · rw [List.append_nil] at whole
        exact here x y n [] whole.symm number
      · exact h (c :: a) (z :: r) x y n (List.suffix_refl _) ⟨rest, hr.symm⟩ nofun nofun
          whole.symm number
    · exact here x y n r (by simpa using whole) number

theorem not_mem_of_number {c d : Char} {n : Nat} (h : Numeral.number? 16 [c, d] = some n) :
    'x' ∉ [c, d] := by
  intro hx
  obtain ⟨m, hm⟩ := Json.digits_of_number h 'x' hx
  rw [show Numeral.digit? 16 'x' = none by decide] at hm
  exact absurd hm nofun

/-- An `x` with fewer than two characters behind it stays in the text. -/
theorem mem_decimalHex_x (p : List Char) {k : List Char} (short : k.length < 2) :
    'x' ∈ decimalHex (p ++ 'x' :: k) := by
  have apart : Apart p ('x' :: k) := by
    rintro l r c d n - ⟨rest, same⟩ some_l some_r whole number
    have mem : ∀ {l}, l ++ r = [c, d] → False := by
      intro l whole
      obtain ⟨e, r, rfl⟩ := List.exists_cons_of_ne_nil some_r
      obtain rfl := (List.cons.inj same).1
      exact not_mem_of_number number (whole ▸ by simp)
    rcases l with _ | ⟨_, _ | ⟨_, l⟩⟩
    · exact some_l rfl
    · rw [show r = ['x', c, d] from (List.cons.inj whole).2] at same
      have long : 2 ≤ k.length := by
        rw [← (List.cons.inj same).2]
        exact Nat.le_add_left 2 rest.length
      omega
    · exact mem (List.cons.inj (List.cons.inj whole).2).2
  rw [decimalHex_append apart, decimalHex_cons 'x' fun _ _ _ _ same _ =>
    absurd (List.cons.inj same).1 (by decide)]
  simp

/-- A number that begins in the first text is spread over both only if an `x` stays in the first or
the second begins with it. -/
theorem Apart.of_plain (plain : 'x' ∉ decimalHex a) (h : b.head? ≠ some 'x') : Apart a b := by
  rintro l r c d n ⟨p, rfl⟩ ⟨rest, rfl⟩ some_l some_r whole -
  rcases l with _ | ⟨_, _ | ⟨_, l⟩⟩
  · exact some_l rfl
  · rw [show r = ['x', c, d] from (List.cons.inj whole).2] at h
    exact h rfl
  · obtain ⟨-, rfl, whole⟩ : _ ∧ _ = 'x' ∧ l ++ r = [c, d] := by simpa using whole
    have short : l.length < 2 := by
      have both := congrArg List.length whole
      have behind := List.length_pos_iff.mpr some_r
      rw [List.length_append] at both
      simp only [List.length_cons, List.length_nil] at both
      omega
    rw [List.append_cons] at plain
    exact plain (mem_decimalHex_x _ short)

theorem decimalHex_plain {c : Char} (h : isHexish c = false) (cs : List Char) :
    decimalHex (c :: cs) = c :: decimalHex cs :=
  decimalHex_cons c fun a b n rest same _ => absurd h (by rw [(List.cons.inj same).1]; decide)

theorem decimalHex_barrier {c : Char} (h : isHexish c = false) (a b : List Char) :
    decimalHex (a ++ c :: b) = decimalHex a ++ c :: decimalHex b := by
  have apart : Apart a (c :: b) := Apart.of_head fun d hd => Option.some.inj hd ▸ h
  rw [decimalHex_append apart, decimalHex_plain h]

theorem not_mem_toDigits {c : Char} (h : isHexish c = false) (n : Nat) : c ∉ Nat.toDigits 10 n := by
  intro hc
  have digit := Nat.isDigit_of_mem_toDigits (by decide) (by decide) hc
  exact absurd ((isHexish_of_digit digit).symm.trans h) nofun

/-- What is no part of a hexadecimal number stays in the text, and nothing of that kind comes in. -/
theorem mem_decimalHex {c : Char} (h : isHexish c = false) : c ∈ decimalHex cs ↔ c ∈ cs := by
  induction cs using decimalHex_induction with
  | nil => rfl
  | hex x y n rest number ih =>
    have digits := not_mem_toDigits h n
    have other : c ∉ ['0', 'x', x, y] := fun hc =>
      absurd ((isHexish_of_number number c hc).symm.trans h) nofun
    rw [decimalHex_hex number, List.mem_append, ih,
      show '0' :: 'x' :: x :: y :: rest = ['0', 'x', x, y] ++ rest from rfl, List.mem_append]
    simp only [digits, other]
  | char d cs here ih => rw [decimalHex_cons d here, List.mem_cons, List.mem_cons, ih]

theorem decimalHex_ne_nil (h : cs ≠ []) : decimalHex cs ≠ [] := by
  cases cs using decimalHex_induction with
  | nil => exact absurd rfl h
  | hex x y n rest number =>
    rw [decimalHex_hex number]
    exact List.append_ne_nil_of_left_ne_nil Nat.toDigits_ne_nil _
  | char c cs here =>
    rw [decimalHex_cons c here]
    exact nofun

theorem head_decimalHex {c : Char} (h : isHexish c = false) :
    (decimalHex cs).head? = some c ↔ cs.head? = some c := by
  cases cs using decimalHex_induction with
  | nil => rfl
  | hex x y n rest number =>
    obtain ⟨e, ds, hds⟩ := List.exists_cons_of_ne_nil (Nat.toDigits_ne_nil (n := n) (b := 10))
    have digits := not_mem_toDigits h n
    rw [hds] at digits
    rw [decimalHex_hex number, hds, List.cons_append, List.head?_cons, List.head?_cons]
    constructor
    · intro same
      exact absurd (Option.some.inj same ▸ List.mem_cons_self) digits
    · intro same
      rw [← Option.some.inj same] at h
      exact absurd h nofun
  | char d cs here =>
    rw [decimalHex_cons d here]
    rfl

/-- A character that is no part of a hexadecimal number has one place in both texts. -/
theorem decimalHex_split {c : Char} (h : isHexish c = false) {u v : List Char}
    (same : decimalHex cs = u ++ c :: v) :
    ∃ a b, cs = a ++ c :: b ∧ decimalHex a = u ∧ decimalHex b = v := by
  induction cs using decimalHex_induction generalizing u with
  | nil => simp [decimalHex] at same
  | hex x y n rest number ih =>
    rw [decimalHex_hex number] at same
    -- the character stands behind the number
    obtain ⟨u, rfl, behind⟩ : ∃ w, u = Nat.toDigits 10 n ++ w ∧ decimalHex rest = w ++ c :: v := by
      rcases List.append_eq_append_iff.mp same with ⟨k, hu, behind⟩ | ⟨k, spelled, behind⟩
      · exact ⟨k, hu, behind⟩
      · rcases k with _ | ⟨e, k⟩
        · exact ⟨[], by simpa using spelled.symm, behind.symm⟩
        · obtain ⟨rfl, -⟩ := List.cons.inj behind
          exact absurd (spelled ▸ by simp) (not_mem_toDigits h n)
    obtain ⟨a, b, rfl, rfl, rfl⟩ := ih behind
    exact ⟨'0' :: 'x' :: x :: y :: a, b, rfl, decimalHex_hex number a, rfl⟩
  | char d cs here ih =>
    rw [decimalHex_cons d here] at same
    rcases u with _ | ⟨e, u⟩
    · obtain ⟨rfl, rfl⟩ := List.cons.inj same
      exact ⟨[], cs, rfl, rfl, rfl⟩
    · obtain ⟨rfl, behind⟩ := List.cons.inj same
      obtain ⟨a, b, rfl, rfl, rfl⟩ := ih behind
      refine ⟨d :: a, b, rfl, decimalHex_cons d fun x y n rest whole => ?_, rfl⟩
      exact here x y n (rest ++ c :: b) (by rw [← List.cons_append, whole]; rfl)

/-! ### Comments -/

/-- Whether a comment is open at the end of a text; `inside` says that one is open in front. -/
def endsInside (inside : Bool) : List Char → Bool
  | [] => inside
  | '\n' :: rest => endsInside false rest
  | '/' :: '/' :: rest => endsInside true rest
  | _ :: rest => endsInside inside rest

/-- Two slashes next to each other stand in one of two texts, if the second begins with none. -/
theorem slashes_append (h : b.head? ≠ some '/') {c : Char} {rest : List Char}
    (slashes : ∀ more, c = '/' → rest = '/' :: more → False) :
    ∀ more, c = '/' → rest ++ b = '/' :: more → False := by
  intro more slash same
  rcases rest with _ | ⟨d, rest⟩
  · exact h (by rw [show b = _ from same]; rfl)
  · exact slashes rest slash (by rw [(List.cons.inj same).1])

theorem dropComments_append (inside : Bool) (h : b.head? ≠ some '/') :
    dropComments inside (a ++ b) =
      dropComments inside a ++ dropComments (endsInside inside a) b := by
  fun_induction dropComments inside a with
  | case1 inside => rfl
  | case2 inside rest ih =>
    rw [List.cons_append, dropComments, endsInside, ih]
    rfl
  | case3 inside rest ih => rw [List.cons_append, List.cons_append, dropComments, endsInside, ih]
  | case4 c rest line slashes ih =>
    have slashes' := slashes_append h slashes
    rw [List.cons_append, dropComments, endsInside, if_pos rfl, ih]
    all_goals assumption
  | case5 inside c rest line slashes outside ih =>
    have slashes' := slashes_append h slashes
    obtain rfl := eq_false_of_ne_true outside
    rw [List.cons_append, dropComments, endsInside, if_neg outside, ih, List.cons_append]
    all_goals assumption

/-- Nothing is left of a comment. -/
theorem dropComments_comment (h : '\n' ∉ cs) :
    dropComments true cs = [] ∧ endsInside true cs = true := by
  generalize inside : true = i
  fun_induction dropComments i cs with
  | case1 => exact ⟨rfl, inside ▸ rfl⟩
  | case2 => exact absurd List.mem_cons_self h
  | case3 i rest ih =>
    subst inside
    exact ih (fun line => h (by simp [line])) rfl
  | case4 c rest line slashes ih =>
    rw [endsInside]
    · exact ih (fun line => h (List.mem_cons_of_mem c line)) rfl
    · exact line
    · exact slashes
  | case5 i c rest line slashes outside ih => exact absurd inside.symm outside

/-- A comment ends with its line. -/
theorem dropComments_line (h : '\n' ∉ a) (b : List Char) :
    dropComments true (a ++ '\n' :: b) = '\n' :: dropComments false b := by
  obtain ⟨none, open_⟩ := dropComments_comment h
  rw [dropComments_append true (by simp), none, open_]
  rfl

/-- A text without two slashes next to each other has no comments. -/
def Uncommented (cs : List Char) : Prop := ¬['/', '/'] <:+: cs

instance (cs : List Char) : Decidable (Uncommented cs) := inferInstanceAs (Decidable (¬_))

theorem uncommented_cons {c : Char} :
    Uncommented (c :: cs) ↔ (c = '/' → cs.head? ≠ some '/') ∧ Uncommented cs := by
  have two : ['/', '/'] <+: c :: cs ↔ c = '/' ∧ cs.head? = some '/' := by
    rw [List.cons_prefix_cons]
    rcases cs with _ | ⟨d, cs⟩ <;> simp [List.cons_prefix_cons, eq_comm]
  rw [Uncommented, List.infix_cons_iff, two, not_or, not_and]
  rfl

theorem Uncommented.append (ha : Uncommented a) (hb : Uncommented b)
    (h : a.getLast? = some '/' → b.head? ≠ some '/') : Uncommented (a ++ b) := by
  induction a with
  | nil => exact hb
  | cons c a ih =>
    obtain ⟨first, others⟩ := uncommented_cons.mp ha
    rw [List.cons_append, uncommented_cons]
    rcases a with _ | ⟨d, a⟩
    · exact ⟨fun slash => h (by rw [slash]; rfl), hb⟩
    · exact ⟨first, ih others (by rwa [List.getLast?_cons_cons] at h)⟩

theorem Uncommented.decimalHex (h : Uncommented cs) : Uncommented (decimalHex cs) := by
  induction cs using decimalHex_induction with
  | nil => exact h
  | hex x y n rest number ih =>
    have digits : '/' ∉ Nat.toDigits 10 n := not_mem_toDigits (by decide) n
    rw [decimalHex_hex number]
    refine append ?_ (ih fun slashes => h (slashes.trans ⟨['0', 'x', x, y], [], by simp⟩)) ?_
    · exact fun slashes => digits (slashes.subset List.mem_cons_self)
    · exact fun last => absurd (List.mem_of_getLast? last) digits
  | char c cs here ih =>
    obtain ⟨first, others⟩ := uncommented_cons.mp h
    rw [decimalHex_cons c here, uncommented_cons]
    exact ⟨fun slash => mt (head_decimalHex (by decide)).mp (first slash), ih others⟩

theorem dropComments_cons {c : Char} (h : c = '/' → cs.head? ≠ some '/') :
    dropComments false (c :: cs) = c :: dropComments false cs := by
  by_cases line : c = '\n'
  · subst line
    rfl
  · rw [dropComments, if_neg (by decide)]
    · exact line
    · rintro rest rfl rfl
      exact h rfl rfl

theorem endsInside_cons {c : Char} (h : c = '/' → cs.head? ≠ some '/') :
    endsInside false (c :: cs) = endsInside false cs := by
  by_cases line : c = '\n'
  · subst line
    rfl
  · rw [endsInside]
    · exact line
    · rintro rest rfl rfl
      exact h rfl rfl

theorem dropComments_uncommented (h : Uncommented cs) :
    dropComments false cs = cs ∧ endsInside false cs = false := by
  induction cs with
  | nil => exact ⟨rfl, rfl⟩
  | cons c cs ih =>
    obtain ⟨first, others⟩ := uncommented_cons.mp h
    rw [dropComments_cons first, endsInside_cons first, (ih others).1]
    exact ⟨rfl, (ih others).2⟩

/-! ### All steps -/

/-- What becomes of a text after its last comma went. -/
def strictText (cs : List Char) : List Char := (dropComments false (decimalHex cs)).map strictMark

theorem rewritten_eq (cs : List Char) : rewritten cs = strictText (dropLastComma cs) := rfl

theorem strictText_append (apart : Apart a b) (slash : b.head? ≠ some '/') :
    strictText (a ++ b) = strictText a ++
      (dropComments (endsInside false (decimalHex a)) (decimalHex b)).map strictMark := by
  have slash' : (decimalHex b).head? ≠ some '/' := mt (head_decimalHex (by decide)).mp slash
  rw [strictText, decimalHex_append apart, dropComments_append false slash', List.map_append]
  rfl

/-- A piece without slashes is rewritten by itself if no hexadecimal number goes beyond it. -/
theorem strictText_piece (slash : '/' ∉ b) {rest : List Char}
    (hex : decimalHex (a ++ rest) = b ++ decimalHex rest) :
    strictText (a ++ rest) = b.map strictMark ++ strictText rest := by
  rw [strictText, hex, strictText]
  clear hex
  induction b with
  | nil => rfl
  | cons c b ih =>
    rw [List.mem_cons, not_or] at slash
    rw [List.cons_append, dropComments_cons fun same => absurd same.symm slash.1, List.map_cons,
      ih slash.2]
    rfl

/-- What becomes of a text without comments. -/
def marked (cs : List Char) : List Char := (decimalHex cs).map strictMark

theorem strictText_of_uncommented (h : Uncommented cs) : strictText cs = marked cs := by
  rw [strictText, (dropComments_uncommented h.decimalHex).1, marked]

theorem isHexish_strictMark (c : Char) : isHexish (strictMark c) = isHexish c := by
  rw [strictMark]
  split_ifs with quote opening closing
  · subst quote; decide
  · subst opening; decide
  · subst closing; decide
  · rfl

theorem marked_append (h : Apart a b) : marked (a ++ b) = marked a ++ marked b := by
  rw [marked, decimalHex_append h, List.map_append, marked, marked]

theorem marked_barrier {c : Char} (h : isHexish c = false) (a b : List Char) :
    marked (a ++ c :: b) = marked a ++ strictMark c :: marked b := by
  rw [marked, decimalHex_barrier h, List.map_append, List.map_cons, marked, marked]

theorem marked_split {c : Char} (h : isHexish c = false) {u v : List Char}
    (same : marked cs = u ++ c :: v) :
    ∃ a d b, cs = a ++ d :: b ∧ strictMark d = c ∧ marked a = u ∧ marked b = v := by
  obtain ⟨front, back, whole, rfl, behind⟩ := List.map_eq_append_iff.mp same
  obtain ⟨d, back, rfl, rfl, rfl⟩ := List.map_eq_cons_iff.mp behind
  obtain ⟨a, b, rfl, rfl, rfl⟩ := decimalHex_split (isHexish_strictMark d ▸ h) whole
  exact ⟨a, d, b, rfl, rfl, rfl, rfl⟩

/-- The rewritten text of a script without comments is followed by what closes the list. -/
theorem strictText_marked (h : Uncommented cs) :
    strictText (cs ++ [' ', ']']) = marked cs ++ [' ', ']'] := by
  have whole : Uncommented (cs ++ [' ', ']']) := h.append (by decide) fun _ => by decide
  rw [strictText_of_uncommented whole, marked_barrier (by decide)]
  rfl

theorem not_mem_of_digits (h : ∀ c ∈ a, c.isDigit = true ∨ c = '-') {d : Char}
    (digit : d.isDigit = false) (minus : d ≠ '-') : d ∉ a := by
  intro hd
  rcases h d hd with digit' | rfl
  · exact absurd (digit'.symm.trans digit) nofun
  · exact minus rfl

theorem map_strictMark_of_digits (h : ∀ c ∈ a, c.isDigit = true ∨ c = '-') :
    a.map strictMark = a := by
  refine (List.map_congr_left fun c hc => ?_).trans (List.map_id a)
  have other : ∀ {d : Char}, d.isDigit = false → d ≠ '-' → c ≠ d := fun digit minus same =>
    not_mem_of_digits h digit minus (same ▸ hc)
  rw [strictMark, if_neg (other rfl (by decide)), if_neg (other rfl (by decide)),
    if_neg (other rfl (by decide))]
  rfl

/-- Pieces that become a strict text in front of any text that does not begin with an `x`. -/
structure Rewrites (a b : List Char) : Prop where
  head : a.head? ≠ some 'x'
  strict : ∀ rest : List Char, rest.head? ≠ some 'x' → strictText (a ++ rest) = b ++ strictText rest

namespace Rewrites

theorem nil : Rewrites [] [] := ⟨nofun, fun _ _ => rfl⟩

theorem append {a b c d : List Char} (h : Rewrites a b) (k : Rewrites c d) :
    Rewrites (a ++ c) (b ++ d) where
  head := by
    rcases a with _ | ⟨x, a⟩
    · exact k.head
    · exact h.head
  strict rest hrest := by
    have next : (c ++ rest).head? ≠ some 'x' := by
      rcases c with _ | ⟨x, c⟩
      · exact hrest
      · exact k.head
    rw [List.append_assoc, h.strict _ next, k.strict rest hrest, List.append_assoc]

/-- A piece that has no slash and that no hexadecimal number goes beyond. -/
theorem of_decimalHex {c : List Char} (head : a.head? ≠ some 'x') (slash : '/' ∉ b)
    (hex : ∀ rest : List Char, rest.head? ≠ some 'x' → decimalHex (a ++ rest) = b ++ decimalHex rest)
    (marks : b.map strictMark = c) : Rewrites a c :=
  ⟨head, fun rest hrest => marks ▸ strictText_piece slash (hex rest hrest)⟩

theorem char {c : Char} (h : isHexish c = false) (slash : c ≠ '/') : Rewrites [c] [strictMark c] := by
  refine of_decimalHex (b := [c]) ?_ (by simpa using slash.symm)
    (fun rest _ => decimalHex_plain h rest) rfl
  rintro same
  obtain rfl := Option.some.inj same
  exact absurd h nofun

/-- Decimal digits, with a sign or without. -/
theorem number (h : ∀ c ∈ a, c.isDigit = true ∨ c = '-') : Rewrites a a := by
  have noX : 'x' ∉ a := not_mem_of_digits h rfl (by decide)
  refine of_decimalHex (fun hx => noX (List.mem_of_head? hx)) (not_mem_of_digits h rfl (by decide))
    (fun rest hrest => ?_) (map_strictMark_of_digits h)
  rw [decimalHex_append ?_, decimalHex_of_not_mem noX]
  -- only the zero of a hexadecimal number can stand in the digits
  intro l r c d n hl hr _ some_r whole _
  rcases l with _ | ⟨zero, _ | ⟨x, l⟩⟩
  · contradiction
  · obtain ⟨rest', rfl⟩ := hr
    rw [show r = ['x', c, d] from (List.cons.inj whole).2] at hrest
    exact hrest rfl
  · have : 'x' ∈ zero :: x :: l := by
      rw [(List.cons.inj (List.cons.inj whole).2).1]
      simp
    exact noX (hl.subset this)

/-- A hexadecimal number of two digits. -/
theorem hex {c d : Char} {n : Nat} (h : Numeral.number? 16 [c, d] = some n) :
    Rewrites ['0', 'x', c, d] (Nat.toDigits 10 n) := by
  have digits : ∀ e ∈ Nat.toDigits 10 n, e.isDigit = true ∨ e = '-' := fun e he =>
    .inl (Nat.isDigit_of_mem_toDigits (by decide) (by decide) he)
  exact of_decimalHex nofun (not_mem_of_digits digits rfl (by decide))
    (fun rest _ => decimalHex_hex h rest) (map_strictMark_of_digits digits)

/-- A comment, with the end of its line. -/
theorem comment (h : '\n' ∉ a) : Rewrites ('/' :: '/' :: (a ++ ['\n'])) ['\n'] where
  head := nofun
  strict rest _ := by
    have line : decimalHex (a ++ '\n' :: rest) = decimalHex a ++ '\n' :: decimalHex rest :=
      decimalHex_barrier (by decide) a rest
    have plain : '\n' ∉ decimalHex a := mt (mem_decimalHex (by decide)).mp h
    have slash : isHexish '/' = false := by decide
    rw [List.cons_append, List.cons_append, List.append_assoc, List.singleton_append, strictText,
      decimalHex_plain slash, decimalHex_plain slash, line, dropComments, dropComments_line plain]
    rfl

end Rewrites

/-! ### The document -/

/-- The field that a script is the value of, up to its first item. -/
def fieldText : List Char := ['"', 'd', 'a', 't', 'a', '"', ':', ' ', '[', ' ']

theorem strictText_fieldText (cs : List Char) :
    strictText (fieldText ++ cs) = fieldText ++ strictText cs := by
  have apart : Apart fieldText cs := Apart.of_last (a := fieldText.dropLast) (c := ' ') (by decide)
  refine strictText_piece (b := fieldText) (by decide) ?_
  rw [decimalHex_append apart, decimalHex_of_not_mem (by decide)]

/-- The document of a script: the rewritten text behind the name of the field, in braces. -/
theorem normalize_toList (raw : String) : (normalize raw).toList =
    '\x7b' :: ' ' :: (fieldText ++ (strictText (dropLastComma raw.toList ++ [' ', ']']) ++
      [' ', '\x7d'])) := by
  have whole : wrapped raw.toList = fieldText ++ (raw.toList ++ [' ', ']']) := by
    rw [← List.append_assoc]
    rfl
  have comma : dropLastComma (wrapped raw.toList) =
      fieldText ++ (dropLastComma raw.toList ++ [' ', ']']) := by
    rw [whole, dropLastComma_append, dropLastComma_append raw.toList,
      if_neg (by decide : ',' ∉ [' ', ']']),
      dropLastComma_of_not_mem (by decide : ',' ∉ fieldText)]
    split_ifs with h
    · rfl
    · rw [dropLastComma_of_not_mem fun hc => h (List.mem_append_left _ hc)]
  rw [normalize, String.toList_ofList, rewritten_eq, comma, strictText_fieldText]
  simp

end Lightshow.ScriptText
