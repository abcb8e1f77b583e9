/-
What is written reads back.

A value that is written and then read is the same value, whatever follows its text.  That is said here
of truth values and naturals, and of lists and objects of such values, as long as these are not nested
too deep for the reader.

* `readString_quoted`, `readDigits_toDigits` -- strings and integers;
* `Spells` -- a text that an item is read from;
* `Value.ReadsBack` -- values that are read back from their text, and how they are made of each other;
* `Value.ofText_write` -- the whole text of such a value.
-/
import Lightshow.Json.Reader
import Mathlib.Tactic.SplitIfs

namespace Lightshow.Json

/-! ### Naturals -/

theorem le_ofDigitChars (ds : List Char) (n : Nat) : n ≤ Nat.ofDigitChars 10 ds n := by
  induction ds generalizing n with
  | nil => exact Nat.le_refl n
  | cons d ds ih =>
    rw [Nat.ofDigitChars_cons]
    exact Nat.le_trans (by omega) (ih _)

/-- Digits whose number fits into 64 bits are all taken. -/
theorem fitDigits_all {n : Nat} {ds : List Char} (h : Nat.ofDigitChars 10 ds n < 1 <<< 64) :
    fitDigits n ds = (Nat.ofDigitChars 10 ds n, ds.length) := by
  induction ds generalizing n with
  | nil => rfl
  | cons d ds ih =>
    have longer : n * 10 + digitValue d = 10 * n + (d.toNat - '0'.toNat) := by
      rw [Nat.mul_comm]
      rfl
    rw [Nat.ofDigitChars_cons] at h ⊢
    have small : 10 * n + (d.toNat - '0'.toNat) < 1 <<< 64 := Nat.lt_of_le_of_lt (le_ofDigitChars ds _) h
    rw [fitDigits, longer, if_pos small, ih h]
    rfl

/-- Only zero is written with a leading zero. -/
theorem eq_zero_of_toDigits {n : Nat} {ds : List Char} (h : Nat.toDigits 10 n = '0' :: ds) :
    n = 0 ∧ ds = [] := by
  induction n using Nat.strongRecOn generalizing ds with
  | ind n ih =>
    rw [Nat.toDigits_eq_if (by decide)] at h
    split at h
    · obtain ⟨zero, none⟩ := List.cons.inj h
      exact ⟨Nat.digitChar_eq_zero.mp zero, none.symm⟩
    · obtain ⟨d, front, hfront⟩ := List.exists_cons_of_ne_nil (Nat.toDigits_ne_nil (n := n / 10) (b := 10))
      rw [hfront, List.cons_append] at h
      rw [(List.cons.inj h).1] at hfront
      have zero := (ih (n / 10) (by omega) hfront).1
      omega

/-- What cannot be taken for a part of the number in front of it. -/
def EndsNumber (rest : List Char) : Prop :=
  ∀ c ∈ rest.head?, c.isDigit = false ∧ c ≠ '.' ∧ c ≠ 'e' ∧ c ≠ 'E'

theorem takeWhile_digits {rest : List Char} (ends : EndsNumber rest) :
    rest.takeWhile Char.isDigit = [] := by
  rcases rest with _ | ⟨c, rest⟩
  · rfl
  · rw [List.takeWhile_cons, (ends c rfl).1]
    rfl

theorem dropWhile_digits {rest : List Char} (ends : EndsNumber rest) :
    rest.dropWhile Char.isDigit = rest := by
  rcases rest with _ | ⟨c, rest⟩
  · rfl
  · rw [List.dropWhile_cons, (ends c rfl).1]
    rfl

theorem readAfterInteger_end (positive : Bool) (n : Nat) {rest : List Char} (ends : EndsNumber rest) :
    readAfterInteger positive n 0 rest = .ok (endInteger positive n, ⟨rest, Nat.le_refl _⟩) := by
  rcases rest with _ | ⟨c, rest⟩
  · rfl
  · obtain ⟨-, point, lower, upper⟩ := ends c rfl
    have whole : ¬(c = 'e' ∨ c = 'E' ∨ 0 < 0) := by
      rintro (h | h | h)
      · exact lower h
      · exact upper h
      · exact absurd h (Nat.lt_irrefl 0)
    rw [readAfterInteger]
    · exact if_neg whole
    · exact point

/-- An integer of 64 bits is read from its digits, behind its sign. -/
theorem readDigits_toDigits (positive : Bool) {n : Nat} (h : n < 1 <<< 64) {rest : List Char}
    (ends : EndsNumber rest) : ∃ shorter, readDigits positive (Nat.toDigits 10 n ++ rest) =
      .ok (endInteger positive n, ⟨rest, shorter⟩) := by
  obtain ⟨c, ds, hds⟩ := List.exists_cons_of_ne_nil (Nat.toDigits_ne_nil (n := n) (b := 10))
  have digits : ∀ d ∈ c :: ds, d.isDigit = true := by
    rw [← hds]
    exact fun d hd => Nat.isDigit_of_mem_toDigits (by decide) (by decide) hd
  obtain ⟨first, others⟩ := List.forall_mem_cons.mp digits
  have spelled : Nat.ofDigitChars 10 ds (digitValue c) = n := by
    have whole := Nat.ofDigitChars_ten_toDigits (n := n)
    rw [hds, Nat.ofDigitChars_cons, Nat.mul_zero, Nat.zero_add] at whole
    exact whole
  rw [hds, List.cons_append, readDigits.eq_def]
  dsimp only
  by_cases zero : c = '0'
  · -- a zero in front is the whole number
    subst zero
    obtain ⟨rfl, rfl⟩ := eq_zero_of_toDigits hds
    rw [if_pos rfl]
    rcases rest with _ | ⟨d, rest⟩
    · exact ⟨_, rfl⟩
    · have alone : ¬d.isDigit = true := by
        rw [(ends d rfl).1]
        exact nofun
      rw [List.nil_append]
      dsimp only
      rw [if_neg alone, readAfterInteger_end positive 0 ends]
      exact ⟨_, rfl⟩
  · rw [if_neg zero, if_pos first]
    have taken : (ds ++ rest).takeWhile Char.isDigit = ds := by
      rw [List.takeWhile_append_of_pos others, takeWhile_digits ends, List.append_nil]
    have left : (ds ++ rest).dropWhile Char.isDigit = rest := by
      rw [List.dropWhile_append_of_pos others, dropWhile_digits ends]
    rw [taken, fitDigits_all (spelled ▸ h), spelled]
    dsimp only
    rw [Nat.sub_self, readAfterInteger_end positive n (left.symm ▸ ends)]
    have shorter : rest.length < (c :: (ds ++ rest)).length := by
      rw [List.length_cons, List.length_append]
      omega
    exact ⟨shorter, congrArg (fun r => Except.ok (endInteger positive n, r)) (Subtype.ext left)⟩

/-! ### Strings -/

/-- An escape stands for its character. -/
theorem readString_escape {cs after ds last : List Char} {d : Char}
    (first : ∃ h, readEscape cs = .ok (d, ⟨after, h⟩))
    (others : ∃ h, readString after = .ok (ds, ⟨last, h⟩)) :
    ∃ h, readString ('\\' :: cs) = .ok (d :: ds, ⟨last, h⟩) := by
  obtain ⟨_, first⟩ := first
  obtain ⟨_, others⟩ := others
  rw [readString.eq_def]
  dsimp only
  rw [if_neg (by decide), if_pos rfl, first]
  dsimp only
  rw [others]
  exact ⟨_, rfl⟩

theorem length_le_byteLength (cs : List Char) : cs.length ≤ byteLength cs := by
  induction cs with
  | nil => exact Nat.le_refl 0
  | cons c cs ih =>
    have first := c.utf8Size_pos
    rw [byteLength, List.foldr_cons, ← byteLength, List.length_cons]
    omega

/-- A control character is read from its code. -/
theorem readEscape_code {c : Char} (h : c.toNat < 0x20) (more : List Char) :
    ∃ shorter, readEscape ('u' :: '0' :: '0' :: hexDigit (c.toNat / 16) :: hexDigit (c.toNat % 16) ::
      more) = .ok (c, ⟨more, shorter⟩) := by
  have high : c.toNat / 16 < 16 := by omega
  have low : c.toNat % 16 < 16 := Nat.mod_lt _ (by decide)
  have spelled : Numeral.number? 16 ['0', '0', hexDigit (c.toNat / 16), hexDigit (c.toNat % 16)] =
      some c.toNat := by
    have digits : (c.toNat / 16) * 16 + c.toNat % 16 = c.toNat := by omega
    have zero : Numeral.digit? 16 '0' = some 0 := by decide
    simp [Numeral.number?, hexDigit, zero, Numeral.digit?_digitChar high (Nat.le_refl 16),
      Numeral.digit?_digitChar low (Nat.le_refl 16), digits]
  have hex : ∃ shorter, readHex ('0' :: '0' :: hexDigit (c.toNat / 16) ::
      hexDigit (c.toNat % 16) :: more) = .ok (c.toNat, ⟨more, shorter⟩) := by
    have bytes : 4 ≤ byteLength (List.take 4 ('0' :: '0' :: hexDigit (c.toNat / 16) ::
        hexDigit (c.toNat % 16) :: more)) :=
      length_le_byteLength ['0', '0', hexDigit (c.toNat / 16), hexDigit (c.toNat % 16)]
    rw [readHex, if_neg (Nat.not_lt.mpr bytes), spelled]
    exact ⟨_, rfl⟩
  obtain ⟨_, hex⟩ := hex
  have small : ¬(0xDC00 ≤ c.toNat ∧ c.toNat ≤ 0xDFFF) := by omega
  have small' : ¬(0xD800 ≤ c.toNat ∧ c.toNat ≤ 0xDBFF) := by omega
  have shorter : more.length < ('u' :: '0' :: '0' :: hexDigit (c.toNat / 16) ::
      hexDigit (c.toNat % 16) :: more).length := by
    simp only [List.length_cons]
    omega
  refine ⟨shorter, ?_⟩
  show (readHex _ >>= _) = _
  rw [hex]
  show (if _ then _ else if _ then _ else _) = _
  rw [if_neg small, if_neg small', Char.ofNat_toNat]

/-- A character is read from what it is written as. -/
theorem readString_escaped (c : Char) {cs ds last : List Char}
    (others : ∃ h, readString cs = .ok (ds, ⟨last, h⟩)) :
    ∃ h, readString (escaped c ++ cs) = .ok (c :: ds, ⟨last, h⟩) := by
  generalize written : escaped c = text
  rw [escaped] at written
  split_ifs at written with quote backslash b f n r t code
  · subst quote written
    exact readString_escape ⟨Nat.lt_succ_self _, rfl⟩ others
  · subst backslash written
    exact readString_escape ⟨Nat.lt_succ_self _, rfl⟩ others
  · subst b written
    exact readString_escape ⟨Nat.lt_succ_self _, rfl⟩ others
  · subst f written
    exact readString_escape ⟨Nat.lt_succ_self _, rfl⟩ others
  · subst n written
    exact readString_escape ⟨Nat.lt_succ_self _, rfl⟩ others
  · subst r written
    exact readString_escape ⟨Nat.lt_succ_self _, rfl⟩ others
  · subst t written
    exact readString_escape ⟨Nat.lt_succ_self _, rfl⟩ others
  · subst written
    exact readString_escape (readEscape_code code cs) others
  · subst written
    obtain ⟨_, others⟩ := others
    rw [List.singleton_append, readString.eq_def]
    dsimp only
    rw [if_neg quote, if_neg backslash, if_neg code, others]
    exact ⟨_, rfl⟩

/-- A string is read from its characters as they are written, up to the closing quote. -/
theorem readString_quoted (cs rest : List Char) :
    ∃ h, readString (cs.flatMap escaped ++ '"' :: rest) = .ok (cs, ⟨rest, h⟩) := by
  induction cs with
  | nil =>
    rw [List.flatMap_nil, List.nil_append, readString.eq_def]
    exact ⟨_, rfl⟩
  | cons c cs ih =>
    rw [List.flatMap_cons, List.append_assoc]
    exact readString_escaped c ih

/-! ### Fields -/

/-- Fields in the order of their names, each name once. -/
def Ordered (fields : List (String × Value)) : Prop := fields.Pairwise fun f g => f.1 < g.1

theorem field?_cons (name : String) (f : String × Value) (fields : List (String × Value)) :
    (Value.object (f :: fields)).field? name =
      if f.1 = name then some f.2 else (Value.object fields).field? name := by
  rw [Value.field?, List.find?_cons]
  by_cases h : f.1 = name
  · rw [if_pos h, decide_eq_true h]
    rfl
  · rw [if_neg h, decide_eq_false h]
    rfl

/-- A field that was put is found, and the others as before. -/
theorem field?_putField (name key : String) (v : Value) (fields : List (String × Value)) :
    (Value.object (putField key v fields)).field? name =
      if key = name then some v else (Value.object fields).field? name := by
  induction fields with
  | nil => exact field?_cons name (key, v) []
  | cons f fields ih =>
    rw [putField]
    by_cases same : key = f.1
    · rw [if_pos same, field?_cons, field?_cons]
      by_cases h : key = name
      · rw [if_pos h, if_pos h]
      · rw [if_neg h, if_neg h, if_neg (same ▸ h)]
    · rw [if_neg same]
      by_cases before : key < f.1
      · rw [if_pos before, field?_cons]
      · rw [if_neg before, field?_cons, ih, field?_cons]
        by_cases h : key = name
        · rw [if_pos h, if_pos h, if_neg fun h' => same (h.trans h'.symm)]
        · rw [if_neg h, if_neg h]

/-- A field that is found is there. -/
theorem mem_of_field? {name : String} {v : Value} {fields : List (String × Value)}
    (h : (Value.object fields).field? name = some v) : (name, v) ∈ fields := by
  induction fields with
  | nil => exact absurd h nofun
  | cons f fields ih =>
    rw [field?_cons] at h
    split at h
    case isTrue same =>
      obtain ⟨k, w⟩ := f
      obtain rfl : k = name := same
      obtain rfl := Option.some.inj h
      exact List.mem_cons_self
    case isFalse => exact List.mem_cons_of_mem f (ih h)

theorem field?_eq_none {name : String} {fields : List (String × Value)}
    (h : ∀ f ∈ fields, f.1 ≠ name) : (Value.object fields).field? name = none := by
  cases found : (Value.object fields).field? name with
  | none => rfl
  | some v => exact absurd rfl (h (name, v) (mem_of_field? found))

theorem mem_putField {f : String × Value} {name : String} {v : Value}
    {fields : List (String × Value)} (h : f ∈ putField name v fields) :
    f = (name, v) ∨ f ∈ fields := by
  induction fields with
  | nil => exact Or.inl (List.mem_singleton.mp h)
  | cons g fields ih =>
    rw [putField] at h
    split at h
    · rcases List.mem_cons.mp h with h | h
      · exact Or.inl h
      · exact Or.inr (List.mem_cons_of_mem g h)
    · split at h
      · exact List.mem_cons.mp h
      · rcases List.mem_cons.mp h with rfl | h
        · exact Or.inr List.mem_cons_self
        · exact (ih h).imp_right (List.mem_cons_of_mem g)

/-- Putting a field keeps the order. -/
theorem Ordered.putField {fields : List (String × Value)} (h : Ordered fields) (name : String)
    (v : Value) : Ordered (putField name v fields) := by
  induction fields with
  | nil => exact List.pairwise_singleton _ _
  | cons f fields ih =>
    obtain ⟨first, others⟩ := List.pairwise_cons.mp h
    rw [Json.putField]
    by_cases same : name = f.1
    · rw [if_pos same]
      exact List.pairwise_cons.mpr ⟨fun g hg => same ▸ first g hg, others⟩
    · rw [if_neg same]
      by_cases before : name < f.1
      · rw [if_pos before]
        refine List.pairwise_cons.mpr ⟨fun g hg => ?_, h⟩
        rcases List.mem_cons.mp hg with rfl | hg
        · exact before
        · exact String.lt_trans before (first g hg)
      · rw [if_neg before]
        refine List.pairwise_cons.mpr ⟨fun g hg => ?_, ih others⟩
        rcases mem_putField hg with rfl | hg
        · exact String.not_le.mp fun le => same (String.le_antisymm le (String.not_lt.mp before))
        · exact first g hg

/-- A field behind all others is put at the end. -/
theorem putField_last {name : String} {fields : List (String × Value)}
    (last : ∀ f ∈ fields, f.1 < name) (v : Value) :
    putField name v fields = fields ++ [(name, v)] := by
  induction fields with
  | nil => rfl
  | cons f fields ih =>
    obtain ⟨hf, hfields⟩ := List.forall_mem_cons.mp last
    have other : name ≠ f.1 := fun h => String.lt_irrefl _ (h ▸ hf)
    rw [putField, if_neg other, if_neg (String.lt_asymm hf), ih hfields]
    rfl

/-- Fields in order are put where they stand. -/
theorem foldl_putField (front : List (String × Value)) {fields : List (String × Value)}
    (ordered : Ordered (front ++ fields)) :
    fields.foldl (fun o (k, v) => putField k v o) front = front ++ fields := by
  induction fields generalizing front with
  | nil => exact (List.append_nil front).symm
  | cons f fields ih =>
    have last : ∀ g ∈ front, g.1 < f.1 := fun g hg =>
      (List.pairwise_append.mp ordered).2.2 g hg f List.mem_cons_self
    rw [List.append_cons] at ordered ⊢
    rw [List.foldl_cons]
    show fields.foldl _ (putField f.1 f.2 front) = _
    rw [putField_last last]
    exact ih _ ordered

/-! ### Lists and objects -/

/-- What may follow an item: a comma, what closes a list or an object, or nothing. -/
def EndsItem (rest : List Char) : Prop := ∀ c ∈ rest.head?, c = ',' ∨ c = ']' ∨ c = '}'

theorem EndsItem.number {rest : List Char} (h : EndsItem rest) : EndsNumber rest := by
  intro c hc
  rcases h c hc with rfl | rfl | rfl <;> decide

/-- A text of an item: it begins like one, and the item is read from it whatever follows. -/
structure Spells {α : Type} (item : (cs : List Char) → Except Stop (α × Shorter cs))
    (text : List Char) (a : α) : Prop where
  begins : ∀ c ∈ text.head?, isBlank c = false ∧ c ≠ ']'
  read : ∀ rest, EndsItem rest → ∃ h, item (text ++ rest) = .ok (a, ⟨rest, h⟩)

section

variable {α : Type} {item : (cs : List Char) → Except Stop (α × Shorter cs)}

theorem skipBlanks_cons {c : Char} (h : isBlank c = false) (cs : List Char) :
    skipBlanks (c :: cs) = c :: cs := by
  rw [skipBlanks, List.dropWhile_cons, h]
  rfl

/-- An item is not empty. -/
theorem Spells.exists_cons {text : List Char} {a : α} (h : Spells item text a) :
    ∃ c more, text = c :: more ∧ (isBlank c = false ∧ c ≠ ']') ∧
      ∀ rest, EndsItem rest → ∃ h, item (c :: (more ++ rest)) = .ok (a, ⟨rest, h⟩) := by
  rcases text with _ | ⟨c, more⟩
  · obtain ⟨shorter, -⟩ := h.read [] (fun _ => nofun)
    exact absurd shorter (Nat.lt_irrefl 0)
  · exact ⟨c, more, rfl, h.begins c rfl, h.read⟩

theorem nextItem?_first {c : Char} (cs : List Char) (blank : isBlank c = false) (bracket : c ≠ ']') :
    ∃ h, nextItem? true (c :: cs) = .ok (some ⟨c :: cs, h⟩) := by
  rw [nextItem?]
  split
  case h_1 h => cases (skipBlanks_cons blank cs).symm.trans h
  case h_2 d rest h =>
    obtain ⟨rfl, rfl⟩ := List.cons.inj ((skipBlanks_cons blank cs).symm.trans h)
    rw [if_neg bracket, if_pos rfl]
    exact ⟨Nat.le_refl _, rfl⟩

theorem nextItem?_comma {c : Char} (cs : List Char) (blank : isBlank c = false) (bracket : c ≠ ']') :
    ∃ h, nextItem? false (',' :: c :: cs) = .ok (some ⟨c :: cs, h⟩) := by
  rw [nextItem?]
  split
  case h_1 h => cases (skipBlanks_cons rfl (c :: cs)).symm.trans h
  case h_2 d rest h =>
    obtain ⟨rfl, rfl⟩ := List.cons.inj ((skipBlanks_cons rfl (c :: cs)).symm.trans h)
    rw [if_neg (by decide), if_neg (by decide), if_pos rfl]
    split
    case h_1 h => cases (skipBlanks_cons blank cs).symm.trans h
    case h_2 d rest h =>
      obtain ⟨rfl, rfl⟩ := List.cons.inj ((skipBlanks_cons blank cs).symm.trans h)
      rw [if_neg bracket]
      exact ⟨Nat.le_succ _, rfl⟩

/-- The texts of items, each behind a comma. -/
def behindCommas (pieces : List (List Char × α)) : List Char :=
  pieces.flatMap fun p => ',' :: p.1

theorem endsItem_behindCommas (pieces : List (List Char × α)) {close : Char} {rest : List Char}
    (closes : close = ']' ∨ close = '\x7d') : EndsItem (behindCommas pieces ++ close :: rest) := by
  rcases pieces with _ | ⟨p, pieces⟩
  · exact fun c hc => Or.inr (Option.some.inj hc ▸ closes)
  · exact fun c hc => Or.inl (Option.some.inj hc).symm

/-- An item is read, and then the others. -/
theorem readItems_cons {first : Bool} {cs start after last : List Char} {a : α} {as : List α}
    (next : ∃ h, nextItem? first cs = .ok (some ⟨start, h⟩))
    (read : ∃ h, item start = .ok (a, ⟨after, h⟩))
    (others : ∃ h, readItems item false after = .ok (as, ⟨last, h⟩)) :
    ∃ h, readItems item first cs = .ok (a :: as, ⟨last, h⟩) := by
  obtain ⟨_, next⟩ := next
  obtain ⟨_, read⟩ := read
  obtain ⟨_, others⟩ := others
  rw [readItems.eq_def, next]
  dsimp only
  rw [read]
  dsimp only
  rw [others]
  exact ⟨_, rfl⟩

/-- The other items of a list, up to what closes it. -/
theorem readItems_others {pieces : List (List Char × α)} (h : ∀ p ∈ pieces, Spells item p.1 p.2)
    (rest : List Char) :
    ∃ shorter, readItems item false (behindCommas pieces ++ ']' :: rest) =
      .ok (pieces.map (·.2), ⟨']' :: rest, shorter⟩) := by
  induction pieces with
  | nil =>
    rw [readItems.eq_def]
    exact ⟨_, rfl⟩
  | cons p pieces ih =>
    obtain ⟨text, a⟩ := p
    obtain ⟨hp, hpieces⟩ := List.forall_mem_cons.mp h
    dsimp only at hp
    obtain ⟨c, more, rfl, ⟨blank, bracket⟩, reads⟩ := hp.exists_cons
    have whole : behindCommas ((c :: more, a) :: pieces) ++ ']' :: rest =
        ',' :: c :: (more ++ (behindCommas pieces ++ ']' :: rest)) := by
      simp [behindCommas]
    rw [whole]
    exact readItems_cons (nextItem?_comma _ blank bracket)
      (reads _ (endsItem_behindCommas pieces (Or.inl rfl))) (ih hpieces)

/-- The items of a list are read from their texts with commas between them. -/
theorem readItems_spelled {pieces : List (List Char × α)} (h : ∀ p ∈ pieces, Spells item p.1 p.2)
    (rest : List Char) :
    ∃ shorter, readItems item true ((behindCommas pieces).drop 1 ++ ']' :: rest) =
      .ok (pieces.map (·.2), ⟨']' :: rest, shorter⟩) := by
  rcases pieces with _ | ⟨⟨text, a⟩, pieces⟩
  · show ∃ _, readItems item true (']' :: rest) = _
    rw [readItems.eq_def]
    exact ⟨_, rfl⟩
  · obtain ⟨hp, hpieces⟩ := List.forall_mem_cons.mp h
    dsimp only at hp
    obtain ⟨c, more, rfl, ⟨blank, bracket⟩, reads⟩ := hp.exists_cons
    have whole : (behindCommas ((c :: more, a) :: pieces)).drop 1 ++ ']' :: rest =
        c :: (more ++ (behindCommas pieces ++ ']' :: rest)) := by
      simp [behindCommas]
    rw [whole]
    exact readItems_cons (nextItem?_first _ blank bracket)
      (reads _ (endsItem_behindCommas pieces (Or.inl rfl))) (readItems_others hpieces rest)

/-- The text of a field, up to the text of its value. -/
def nameText (name : String) : List Char := '"' :: (name.toList.flatMap escaped ++ ['"', ':'])

/-- The text of a field with its name and its value. -/
def fieldPiece (p : String × List Char × α) : List Char × String × α :=
  (nameText p.1 ++ p.2.1, p.1, p.2.2)

/-- A field is read, and then the others. -/
theorem readFields_cons {first : Bool} {cs text after last : List Char} {name : String} {a : α}
    {fields : List (String × α)}
    (next : ∃ h, nextField? first cs =
      .ok (some ⟨name.toList.flatMap escaped ++ '"' :: ':' :: (text ++ after), h⟩))
    (read : ∃ h, item (text ++ after) = .ok (a, ⟨after, h⟩))
    (others : ∃ h, readFields item false after = .ok (fields, ⟨last, h⟩)) :
    ∃ h, readFields item first cs = .ok ((name, a) :: fields, ⟨last, h⟩) := by
  obtain ⟨_, next⟩ := next
  obtain ⟨_, named⟩ := readString_quoted name.toList (':' :: (text ++ after))
  have colon : readColon (':' :: (text ++ after)) = .ok ⟨text ++ after, Nat.lt_succ_self _⟩ := rfl
  obtain ⟨_, read⟩ := read
  obtain ⟨_, others⟩ := others
  rw [readFields.eq_def, next]
  dsimp only
  rw [named]
  dsimp only
  rw [colon]
  dsimp only
  rw [read]
  dsimp only
  rw [others, String.ofList_toList]
  exact ⟨_, rfl⟩

theorem nextField?_first (cs : List Char) :
    ∃ h, nextField? true ('"' :: cs) = .ok (some ⟨cs, h⟩) :=
  ⟨Nat.lt_succ_self _, rfl⟩

theorem nextField?_comma (cs : List Char) :
    ∃ h, nextField? false (',' :: '"' :: cs) = .ok (some ⟨cs, h⟩) :=
  ⟨Nat.lt_succ_of_le (Nat.le_succ _), rfl⟩

/-- The other fields of an object, up to what closes it. -/
theorem readFields_others {pieces : List (String × List Char × α)}
    (h : ∀ p ∈ pieces, Spells item p.2.1 p.2.2) (rest : List Char) :
    ∃ shorter, readFields item false (behindCommas (pieces.map fieldPiece) ++ '\x7d' :: rest) =
      .ok (pieces.map fun p => (p.1, p.2.2), ⟨'\x7d' :: rest, shorter⟩) := by
  induction pieces with
  | nil =>
    rw [readFields.eq_def]
    exact ⟨_, rfl⟩
  | cons p pieces ih =>
    obtain ⟨name, text, a⟩ := p
    obtain ⟨hp, hpieces⟩ := List.forall_mem_cons.mp h
    have whole : behindCommas (((name, text, a) :: pieces).map fieldPiece) ++ '\x7d' :: rest =
        ',' :: '"' :: (name.toList.flatMap escaped ++
          '"' :: ':' :: (text ++ (behindCommas (pieces.map fieldPiece) ++ '\x7d' :: rest))) := by
      simp [behindCommas, fieldPiece, nameText]
    rw [whole]
    exact readFields_cons (nextField?_comma _)
      (hp.read _ (endsItem_behindCommas _ (Or.inr rfl))) (ih hpieces)

/-- The fields of an object are read from their texts with commas between them. -/
theorem readFields_spelled {pieces : List (String × List Char × α)}
    (h : ∀ p ∈ pieces, Spells item p.2.1 p.2.2) (rest : List Char) :
    ∃ shorter,
      readFields item true ((behindCommas (pieces.map fieldPiece)).drop 1 ++ '\x7d' :: rest) =
        .ok (pieces.map fun p => (p.1, p.2.2), ⟨'\x7d' :: rest, shorter⟩) := by
  rcases pieces with _ | ⟨⟨name, text, a⟩, pieces⟩
  · show ∃ _, readFields item true ('\x7d' :: rest) = _
    rw [readFields.eq_def]
    exact ⟨_, rfl⟩
  · obtain ⟨hp, hpieces⟩ := List.forall_mem_cons.mp h
    have whole : (behindCommas (((name, text, a) :: pieces).map fieldPiece)).drop 1 ++
        '\x7d' :: rest = '"' :: (name.toList.flatMap escaped ++
          '"' :: ':' :: (text ++ (behindCommas (pieces.map fieldPiece) ++ '\x7d' :: rest))) := by
      simp [behindCommas, fieldPiece, nameText]
    rw [whole]
    exact readFields_cons (nextField?_first _)
      (hp.read _ (endsItem_behindCommas _ (Or.inr rfl))) (readFields_others hpieces rest)

end

/-! ### Values -/

section

variable {limit : Nat} {cs rest : List Char}

theorem ne_of_digit {c d : Char} (hc : c.isDigit = true) (hd : d.isDigit = false) : c ≠ d := by
  rintro rfl
  exact absurd (hc.symm.trans hd) nofun

theorem isBlank_of_digit {c : Char} (h : c.isDigit = true) : isBlank c = false := by
  have other : ∀ {d : Char}, d.isDigit = false → decide (c = d) = false := fun hd =>
    decide_eq_false (ne_of_digit h hd)
  rw [isBlank, other rfl, other rfl, other rfl, other rfl]
  rfl

/-- How a value is read that is told by its first character. -/
inductive Begun (rest : List Char) : Nat → List Char → Value → Prop where
  | text {limit : Nat} {cs text : List Char} (read : ∃ h, readString cs = .ok (text, ⟨rest, h⟩)) :
    Begun rest limit ('"' :: cs) (.text (String.ofList text))
  | digit {limit : Nat} {c : Char} {cs : List Char} {n : Number} (digit : c.isDigit = true)
      (read : ∃ h, readDigits true (c :: cs) = .ok (n, ⟨rest, h⟩)) : Begun rest limit (c :: cs) (.number n)
  | list {limit : Nat} {cs : List Char} {items : List Value}
      (read : ∃ h, readItems (readValue limit) true cs = .ok (items, ⟨']' :: rest, h⟩)) :
    Begun rest (limit + 1) ('[' :: cs) (.list items)
  | object {limit : Nat} {cs : List Char} {fields : List (String × Value)}
      (read : ∃ h, readFields (readValue limit) true cs = .ok (fields, ⟨'\x7d' :: rest, h⟩)) :
    Begun rest (limit + 1) ('\x7b' :: cs)
      (.object (fields.foldl (fun o (k, v) => putField k v o) []))
  | null {limit : Nat} : Begun rest limit ('n' :: 'u' :: 'l' :: 'l' :: rest) .null
  | true {limit : Nat} : Begun rest limit ('t' :: 'r' :: 'u' :: 'e' :: rest) (.bool true)
  | false {limit : Nat} : Begun rest limit ('f' :: 'a' :: 'l' :: 's' :: 'e' :: rest) (.bool false)

theorem Begun.shorter {v : Value} (h : Begun rest limit cs v) : rest.length < cs.length := by
  cases h with
  | text read => exact Nat.lt_succ_of_lt read.1
  | digit _ read => exact read.1
  | list read | object read => exact Nat.lt_succ_of_le (Nat.le_of_lt read.1)
  | null | true | false =>
    simp only [List.length_cons]
    omega

theorem Begun.visible {v : Value} (h : Begun rest limit cs v) : skipBlanks cs = cs := by
  cases h with
  | digit digit read => exact skipBlanks_cons (isBlank_of_digit digit) _
  | _ => exact skipBlanks_cons rfl _

theorem Begun.readValue {v : Value} (h : Begun rest limit cs v) :
    ∃ h, readValue limit cs = .ok (v, ⟨rest, h⟩) := by
  have shorter := h.shorter
  refine ⟨shorter, ?_⟩
  rw [Json.readValue.eq_def]
  split
  case h_1 none => exact absurd shorter (by rw [← h.visible, none]; exact Nat.not_lt_zero _)
  case h_2 c more some =>
    obtain rfl : cs = c :: more := h.visible.symm.trans some
    cases h with
    | text read | list read | object read =>
      obtain ⟨_, read⟩ := read
      simp only [Char.reduceEq, if_false, if_true]
      rw [if_neg (by decide), read]
      rfl
    | digit digit read =>
      obtain ⟨_, read⟩ := read
      have other : ∀ {d : Char}, d.isDigit = .false → c ≠ d := ne_of_digit digit
      rw [if_neg (other rfl), if_neg (other rfl), if_neg (other rfl), if_neg (other rfl),
        if_pos digit, read]
      rfl
    | null =>
      rw [if_pos rfl]
      rfl
    | true =>
      rw [if_neg (by decide), if_pos rfl]
      rfl
    | false =>
      rw [if_neg (by decide), if_neg (by decide), if_pos rfl]
      rfl

/-- A value that is read from what is written for it. -/
abbrev Value.ReadsBack (limit : Nat) (v : Value) : Prop :=
  Spells (readValue limit) v.write.toList v

/-- What is written for the items of a list. -/
theorem write_list (items : List Value) : (Value.list items).write.toList =
    '[' :: ((behindCommas (items.map fun v => (v.write.toList, v))).drop 1 ++ [']']) := by
  have others : ∀ v, (Value.writeItems (v :: items.drop 1)).toList =
      v.write.toList ++ behindCommas ((items.drop 1).map fun v => (v.write.toList, v)) := by
    induction items.drop 1 with
    | nil => simp [Value.writeItems, behindCommas]
    | cons w items ih =>
      intro v
      rw [Value.writeItems, String.toList_append, String.toList_append, ih]
      · simp [behindCommas]
      · exact nofun
  rw [Value.write, String.toList_append, String.toList_append]
  rcases items with _ | ⟨v, items⟩
  · rfl
  · rw [show items = (v :: items).drop 1 from rfl, others]
    simp [behindCommas]

/-- What is written for the fields of an object. -/
theorem write_object (fields : List (String × Value)) : (Value.object fields).write.toList =
    '\x7b' :: ((behindCommas ((fields.map fun f => (f.1, f.2.write.toList, f.2)).map
      fieldPiece)).drop 1 ++ ['\x7d']) := by
  have others : ∀ f, (Value.writeFields (f :: fields.drop 1)).toList =
      nameText f.1 ++ f.2.write.toList ++ behindCommas
        (((fields.drop 1).map fun f => (f.1, f.2.write.toList, f.2)).map fieldPiece) := by
    induction fields.drop 1 with
    | nil => simp [Value.writeFields, behindCommas, nameText, quoted]
    | cons g fields ih =>
      intro f
      rw [Value.writeFields, String.toList_append, String.toList_append, ih]
      · simp [behindCommas, fieldPiece, nameText, quoted]
      · exact nofun
  rw [Value.write, String.toList_append, String.toList_append]
  rcases fields with _ | ⟨f, fields⟩
  · rfl
  · rw [show fields = (f :: fields).drop 1 from rfl, others]
    simp [behindCommas, fieldPiece]

namespace ReadsBack

theorem bool (b : Bool) : (Value.bool b).ReadsBack limit := by
  cases b with
  | true => exact ⟨fun c hc => Option.some.inj hc ▸ by decide, fun _ _ => Begun.true.readValue⟩
  | false => exact ⟨fun c hc => Option.some.inj hc ▸ by decide, fun _ _ => Begun.false.readValue⟩

theorem natural (n : UInt64) : (Value.number (.natural n)).ReadsBack limit := by
  have written : (Value.number (.natural n)).write.toList = Nat.toDigits 10 n.toNat := by
    rw [Value.write, Number.write, Nat.toString_eq_ofList_toDigits, String.toList_ofList]
  obtain ⟨c, ds, hds⟩ := List.exists_cons_of_ne_nil (Nat.toDigits_ne_nil (n := n.toNat) (b := 10))
  have digit : c.isDigit = true :=
    Nat.isDigit_of_mem_toDigits (by decide) (by decide) (hds ▸ List.mem_cons_self)
  rw [Value.ReadsBack, written]
  rw [hds]
  refine ⟨fun d hd => ?_, fun rest ends => ?_⟩
  · rw [← Option.some.inj hd]
    exact ⟨isBlank_of_digit digit, ne_of_digit digit rfl⟩
  · have read := readDigits_toDigits true n.toNat_lt ends.number
    rw [hds, endInteger, if_pos rfl, Nat.toUInt64_eq, UInt64.ofNat_toNat] at read
    exact (Begun.digit digit read).readValue

theorem list {items : List Value} (h : ∀ v ∈ items, v.ReadsBack limit) :
    (Value.list items).ReadsBack (limit + 1) := by
  rw [Value.ReadsBack, write_list]
  refine ⟨fun c hc => Option.some.inj hc ▸ by decide, fun rest _ => ?_⟩
  have spelled : ∀ p ∈ items.map fun v => (v.write.toList, v), Spells (readValue limit) p.1 p.2 :=
    List.forall_mem_map.mpr h
  have read := readItems_spelled spelled rest
  have values : (items.map fun v => (v.write.toList, v)).map (·.2) = items := by
    rw [List.map_map]
    exact List.map_id items
  rw [values] at read
  rw [List.cons_append, List.append_assoc]
  exact (Begun.list read).readValue

theorem object {fields : List (String × Value)} (ordered : Ordered fields)
    (h : ∀ f ∈ fields, f.2.ReadsBack limit) : (Value.object fields).ReadsBack (limit + 1) := by
  rw [Value.ReadsBack, write_object]
  refine ⟨fun c hc => Option.some.inj hc ▸ by decide, fun rest _ => ?_⟩
  have spelled : ∀ p ∈ fields.map fun f => (f.1, f.2.write.toList, f.2),
      Spells (readValue limit) p.2.1 p.2.2 := List.forall_mem_map.mpr h
  have read := readFields_spelled spelled rest
  have values : (fields.map fun f => (f.1, f.2.write.toList, f.2)).map
      (fun p => (p.1, p.2.2)) = fields := by
    rw [List.map_map]
    exact List.map_id fields
  rw [values] at read
  have whole := (Begun.object read).readValue
  rw [foldl_putField [] ordered, List.nil_append] at whole
  rw [List.cons_append, List.append_assoc]
  exact whole

end ReadsBack

/-- The whole text of a value is read as that value. -/
theorem Value.ofText_write {v : Value} (h : v.ReadsBack nestingLimit) :
    Value.ofText v.write.toList = .ok v := by
  have read := h.read [] fun _ => nofun
  rw [List.append_nil] at read
  obtain ⟨_, read⟩ := read
  rw [Value.ofText, wholeText, read]
  rfl

end

end Lightshow.Json
