/-
One item of a list and the text around it.

A slot is a text of items with one of them left out.  Whatever text of an item is put there, the
whole is a text of items again, and every character of such a text that is neither a blank nor a
comma is part of an item, which has a slot around it.  A command is a list of lists, so there are
three slots around each of its parts, one in the other.

* `Slot`, `Items.slot` -- the text around an item, and the item that a character is part of;
* `Frame`, `Frame.Text` -- a list of commands with one part of a command left out, and its text;
* `exists_frame`, `Frame.Text.items`, `Frame.Text.text_of_reads` -- the part that a character is in,
  the texts that can be put there, and what is read of them.
-/
import Lightshow.Proofs.Elements

namespace Lightshow

namespace Json

/-! ### Slots -/

/-- The text of items in front of one of them, and behind it. -/
structure Slot {α : Type} (gap : List Char → Prop) (spelled : List Char → α → Prop)
    (front back : List Char) (before after : List α) : Prop where
  front : Front gap spelled front before
  back : Items gap spelled false back after

section

variable {α : Type} {gap : List Char → Prop} {spelled : List Char → α → Prop}

theorem Slot.items {front back u : List Char} {before after : List α} {v : α}
    (slot : Slot gap spelled front back before after) (spells : spelled u v) :
    Items gap spelled true (front ++ (u ++ back)) (before ++ v :: after) := by
  obtain ⟨opens, others⟩ := slot
  cases opens with
  | nil blank => exact .first blank spells others
  | comma some_before items blank =>
    rw [List.append_assoc, List.cons_append]
    exact items.append_next (fun _ => some_before) blank spells others

/-- A character is part of the first text or of the second. -/
theorem part_or_behind {a b u r : List Char} {c : Char} (same : a ++ c :: b = u ++ r) :
    (∃ y, u = a ++ c :: y ∧ b = y ++ r) ∨ ∃ k, a = u ++ k ∧ k ++ c :: b = r := by
  rcases List.append_eq_append_iff.mp same with ⟨k, rfl, behind⟩ | ⟨k, rfl, behind⟩
  · rcases k with _ | ⟨d, k⟩
    · exact .inr ⟨[], by simp, behind⟩
    · obtain ⟨rfl, rfl⟩ := List.cons.inj behind
      exact .inl ⟨k, rfl, rfl⟩
  · exact .inr ⟨k, rfl, behind.symm⟩

theorem exists_behind {a b g r : List Char} {c : Char} (same : a ++ c :: b = g ++ r) (h : c ∉ g) :
    ∃ k, a = g ++ k ∧ k ++ c :: b = r := by
  rcases part_or_behind same with ⟨y, rfl, -⟩ | behind
  · exact absurd (by simp) h
  · exact behind

/-- What stands in front of an item in a text of items. -/
theorem Items.part {a b : List Char} {c : Char} {first : Bool} {as : List α}
    (items : Items Blank spelled first (a ++ c :: b) as) (solid : isBlank c = false) (comma : c ≠ ',') :
    ∃ front x y back before v after, a = front ++ x ∧ b = y ++ back ∧ as = before ++ v :: after ∧
      spelled (x ++ c :: y) v ∧ Items Blank spelled false back after ∧
      (first = true ∧ before = [] ∧ Blank front ∨ ∃ t h, front = t ++ ',' :: h ∧ Blank h ∧
        Items Blank spelled first t before ∧ (first = true → before ≠ [])) := by
  have other : ∀ {g : List Char}, Blank g → c ∉ g := fun blank hc =>
    absurd ((blank c hc).symm.trans solid) nofun
  generalize whole : a ++ c :: b = t at items
  induction items generalizing a with
  | nil blank => exact absurd (whole ▸ by simp) (other blank)
  | @first g u t v as blank spells others ih =>
    obtain ⟨k, rfl, here⟩ := exists_behind whole (other blank)
    rcases part_or_behind here with ⟨y, rfl, rfl⟩ | ⟨k, rfl, behind⟩
    · exact ⟨g, k, y, t, [], v, as, rfl, rfl, rfl, spells, others, .inl ⟨rfl, rfl, blank⟩⟩
    · obtain ⟨_, x, y, back, before, w, after, rfl, rfl, rfl, spells', later,
        ⟨h, -⟩ | ⟨t, h, rfl, blank', items, -⟩⟩ := ih behind
      · cases h
      · exact ⟨(g ++ (u ++ t)) ++ ',' :: h, x, y, back, v :: before, w, after, by simp, rfl, rfl,
          spells', later, .inr ⟨_, h, rfl, blank', .first blank spells items, nofun⟩⟩
  | @next g h u t v as blank blank' spells others ih =>
    obtain ⟨k, rfl, separated⟩ := exists_behind whole (other blank)
    obtain ⟨k, rfl, here⟩ := exists_behind (g := ',' :: h) separated (by simp [comma, other blank'])
    rcases part_or_behind here with ⟨y, rfl, rfl⟩ | ⟨k, rfl, behind⟩
    · exact ⟨g ++ ',' :: h, k, y, t, [], v, as, by simp, rfl, rfl, spells, others,
        .inr ⟨g, h, rfl, blank', .nil blank, nofun⟩⟩
    · obtain ⟨_, x, y, back, before, w, after, rfl, rfl, rfl, spells', later,
        ⟨h, -⟩ | ⟨t, l, rfl, blank'', items, -⟩⟩ := ih behind
      · cases h
      · exact ⟨(g ++ ',' :: (h ++ (u ++ t))) ++ ',' :: l, x, y, back, v :: before, w, after,
          by simp, rfl, rfl, spells', later,
          .inr ⟨_, l, rfl, blank'', .next blank blank' spells items, nofun⟩⟩

/-- A character that is neither a blank nor a comma is part of an item. -/
theorem Items.slot {a b : List Char} {c : Char} {as : List α}
    (items : Items Blank spelled true (a ++ c :: b) as) (solid : isBlank c = false) (comma : c ≠ ',') :
    ∃ front x y back before v after, a = front ++ x ∧ b = y ++ back ∧ as = before ++ v :: after ∧
      spelled (x ++ c :: y) v ∧ Slot Blank spelled front back before after := by
  obtain ⟨front, x, y, back, before, v, after, ha, hb, has, spells, others, opens⟩ :=
    items.part solid comma
  refine ⟨front, x, y, back, before, v, after, ha, hb, has, spells, ?_, others⟩
  rcases opens with ⟨-, rfl, blank⟩ | ⟨t, h, rfl, blank, items, some_before⟩
  · exact .nil blank
  · exact .comma (some_before rfl) items blank

end

end Json

open Json

/-! ### Parts of a command -/

/-- A list of commands with one part of a command left out: the other commands, the delay, and the
other parts. -/
structure Frame where
  before : List Value
  delay : Value
  front : List Value
  back : List Value
  after : List Value

namespace Frame

/-- The list with a value for that part. -/
def fill (f : Frame) (v : Value) : List Value :=
  f.before ++ .list [f.delay, .list (f.front ++ v :: f.back)] :: f.after

/-- The text in front of the part and behind it: a slot in a list in a list. -/
inductive Text (limit : Nat) : List Char → List Char → Frame → Prop
  | mk {t t' k k' p p' : List Char} {f : Frame} :
      Slot Blank (Value.Text (limit + 2)) t t' f.before f.after →
      Slot Blank (Value.Text (limit + 1)) k k' [f.delay] [] →
      Slot Blank (Value.Text limit) p p' f.front f.back →
      Text limit (t ++ '[' :: (k ++ '[' :: p)) (p' ++ ']' :: (k' ++ ']' :: t')) f

variable {limit : Nat} {a b : List Char} {f : Frame}

/-- A text of a value in place of the part. -/
theorem Text.items (h : f.Text limit a b) {u : List Char} {v : Value} (text : Value.Text limit u v) :
    Items Blank (Value.Text (limit + 2)) true (a ++ (u ++ b)) (f.fill v) := by
  obtain ⟨tuples, pair, parts⟩ := h
  have inner : Value.Text (limit + 1) _ (.list (f.front ++ v :: f.back)) :=
    Layer.list (parts.items text)
  have tuple : Value.Text (limit + 2) _ (.list ([f.delay] ++ [.list (f.front ++ v :: f.back)])) :=
    Layer.list (pair.items inner)
  have whole := tuples.items tuple
  simpa [fill] using whole

/-- A list of commands that is read with a text in place of the part: there an item begins. -/
theorem Text.reads_item (h : f.Text limit a b) {c : Char} (solid : isBlank c = false)
    (bracket : c ≠ ']') {cs last : List Char} {ws : List Value}
    (read : Reads (readItems (readValue (limit + 2)) true) (a ++ c :: cs) ws last) :
    ∃ u v rest, c :: cs = u ++ rest ∧ Value.Text limit u v ∧
      ∃ g d more, rest = g ++ d :: more ∧ Blank g ∧ (d = ',' ∨ d = ']') := by
  obtain ⟨tuples, pair, parts⟩ := h
  rw [List.append_assoc, List.cons_append, List.append_assoc, List.cons_append, Reads,
    tuples.front.taken_list, pair.front.taken_list] at read
  obtain ⟨_, inner, -⟩ := Option.bind_eq_some_iff.mp read
  obtain ⟨⟨ws, rest⟩, inner, -⟩ := Option.bind_eq_some_iff.mp inner
  exact parts.front.reads_item solid bracket inner

/-- What ends an item in a list. -/
def isStop (c : Char) : Bool := isBlank c || c = ',' || c = ']'

theorem isStop_of_isFigure {c : Char} (h : isFigure c = true) : isStop c = false := by
  rw [isStop, not_blank_of_isFigure h]
  have other : ∀ {d : Char}, isFigure d = false → c ≠ d := by
    rintro d none rfl
    exact absurd (h.symm.trans none) nofun
  simp [other (d := ',') rfl, other (d := ']') rfl]

/-- A list of commands that is read with something like a number in place of the part: then it is the
text of a value. -/
theorem Text.text_of_reads (h : f.Text limit a b) {c : Char} {z more last : List Char}
    {ws : List Value} (begins : c.isDigit = true ∨ c = '-') (goes : ∀ d ∈ c :: z, isStop d = false)
    (stops : ∀ d ∈ more.head?, isStop d = true)
    (read : Reads (readItems (readValue (limit + 2)) true) (a ++ (c :: z ++ more)) ws last) :
    ∃ v, Value.Text limit (c :: z) v := by
  have figure : isFigure c = true := by
    rcases begins with digit | rfl
    · exact isFigure_of_digit digit
    · rfl
  have bracket : c ≠ ']' := by
    rintro rfl
    cases figure
  obtain ⟨u, v, rest, same, text, g, d, after, rfl, blank, stop⟩ :=
    h.reads_item (not_blank_of_isFigure figure) bracket read
  refine ⟨v, ?_⟩
  -- both texts go on up to what ends an item
  have figures : ∀ e ∈ u, isFigure e = true := by
    obtain ⟨e, w, rfl, -⟩ := text.spelling.begins
    obtain ⟨rfl, -⟩ := List.cons.inj same
    exact text.figures begins
  have ends : ∀ e ∈ (g ++ d :: after).head?, isStop e = true :=
    blank.head (fun blank => by simp [isStop, blank]) (by rcases stop with rfl | rfl <;> rfl) after
  have one : c :: z = u := span_unique (p := fun e => !isStop e)
    (fun e he => by simp [goes e he]) (fun e he => by simp [stops e he])
    (fun e he => by simp [isStop_of_isFigure (figures e he)]) (fun e he => by simp [ends e he]) same
  exact one ▸ text

/-- What stands behind the part ends it. -/
theorem Text.stops (h : f.Text limit a b) (more : List Char) : ∀ d ∈ (b ++ more).head?, isStop d = true := by
  obtain ⟨-, -, -, others⟩ := h
  generalize f.back = back at others
  have stop : ∀ {c : Char}, isBlank c = true → isStop c = true := fun blank => by simp [isStop, blank]
  cases others with
  | nil blank =>
    rw [List.append_assoc]
    exact blank.head stop rfl _
  | next blank =>
    rw [List.append_assoc, List.append_assoc]
    exact blank.head stop rfl _

/-- Behind other parts, a part begins behind a comma. -/
theorem Text.comma (h : f.Text limit a b) (others : f.front ≠ []) :
    ∃ u g, a = u ++ ',' :: g ∧ Blank g := by
  obtain @⟨t, _, k, _, _, _, _, -, -, opens, -⟩ := h
  generalize f.front = front at opens others
  cases opens with
  | nil => exact absurd rfl others
  | @comma p g _ _ _ blank => exact ⟨t ++ '[' :: (k ++ '[' :: p), g, by simp, blank⟩

/-- A list of commands that is read with something like a string in place of the part. -/
theorem Text.string_of_reads (h : f.Text limit a b) {z more last : List Char} {ws : List Value}
    (inside : Inside z)
    (read : Reads (readItems (readValue (limit + 2)) true) (a ++ ('"' :: (z ++ ['"']) ++ more)) ws last) :
    ∃ v, Value.Text limit ('"' :: (z ++ ['"'])) v := by
  obtain ⟨u, v, rest, same, text, -⟩ := h.reads_item rfl (by decide) read
  obtain ⟨c, u, rfl, -⟩ := text.spelling.begins
  obtain ⟨rfl, behind⟩ := List.cons.inj same
  obtain ⟨q, ds, rfl, quotes, -⟩ := text.string
  have closes : z ++ '"' :: more = q ++ '"' :: rest := by simpa using behind
  obtain ⟨rfl, -⟩ := inside.ends quotes.inside closes
  exact ⟨v, text⟩

end Frame

/-- What stands between brackets or quotes. -/
theorem exists_between {x y u : List Char} {c o e : Char} (same : x ++ c :: y = o :: (u ++ [e]))
    (opens : c ≠ o) (closes : c ≠ e) : ∃ x' y', x = o :: x' ∧ y = y' ++ [e] ∧ u = x' ++ c :: y' := by
  obtain ⟨k, rfl, behind⟩ := exists_behind (g := [o]) same (by simpa using opens)
  rcases part_or_behind behind with ⟨y, rfl, rfl⟩ | ⟨l, rfl, last⟩
  · exact ⟨k, y, rfl, rfl, rfl⟩
  · rcases l with _ | ⟨d, l⟩
    · exact absurd (List.cons.inj last).1 closes
    · exact absurd (List.cons.inj last).2 (by simp)

theorem Script.ReadAs.exists_command {vs : List Value} {v : Value} {commands : List Command}
    (h : Script.ReadAs vs commands) (hv : v ∈ vs) : ∃ c, Command.ofValue v = .ok c := by
  induction h with
  | nil => exact absurd hv List.not_mem_nil
  | cons first _ ih =>
    rcases List.mem_cons.mp hv with rfl | hv
    · exact ⟨_, first⟩
    · exact ih hv

/-- The part of a command that was left out is the code, or an integer. -/
theorem Frame.part_of_readAs {f : Frame} {v : Value} {commands : List Command}
    (h : Script.ReadAs (f.fill v) commands) :
    f.front = [] ∧ (∃ code, v = .text code) ∨ ∃ q, v.integer? = some q := by
  obtain ⟨c, command⟩ := h.exists_command (List.mem_append_right _ List.mem_cons_self)
  obtain ⟨delay, code, ps, same, -, -, params, -⟩ := Command.parts_of_ofValue command
  obtain ⟨-, parts⟩ : f.delay = delay ∧ f.front ++ v :: f.back = .text code :: ps := by simpa using same
  rcases front : f.front with _ | ⟨head, front'⟩
  · rw [front] at parts
    exact .inl ⟨rfl, code, (List.cons.inj parts).1⟩
  · rw [front] at parts
    obtain rfl : front' ++ v :: f.back = ps := (List.cons.inj parts).2
    have mem : v.integer? ∈ c.params.map some := params ▸ List.mem_map_of_mem (by simp)
    obtain ⟨q, -, integer⟩ := List.mem_map.mp mem
    exact .inr ⟨q, integer.symm⟩

/-- A minus sign in a list of commands is part of a code or a parameter. -/
theorem exists_frame {limit : Nat} {a b : List Char} {vs : List Value} {commands : List Command}
    (items : Items Blank (Value.Text (limit + 2)) true (a ++ '-' :: b) vs)
    (read : Script.ReadAs vs commands) : ∃ (f : Frame) (x y a' b' : List Char) (v : Value),
      a = a' ++ x ∧ b = y ++ b' ∧ vs = f.fill v ∧ Value.Text limit (x ++ '-' :: y) v ∧
        f.Text limit a' b' := by
  obtain ⟨t, x, y, t', before, tuple, after, rfl, rfl, rfl, text, tuples⟩ :=
    items.slot rfl (by decide)
  obtain ⟨c, command⟩ := read.exists_command (List.mem_append_right _ List.mem_cons_self)
  obtain ⟨delay, code, ps, rfl, ticks, -⟩ := Command.parts_of_ofValue command
  obtain ⟨u, same, pair⟩ := text.of_list
  obtain ⟨x, y, rfl, rfl, rfl⟩ := exists_between same (by decide) (by decide)
  obtain ⟨k, x, y, k', front, v, back, rfl, rfl, both, text, slot⟩ := pair.slot rfl (by decide)
  rcases front with _ | ⟨d, _ | ⟨e, front⟩⟩
  · -- the delay is written in digits
    obtain ⟨rfl, rfl⟩ := List.cons.inj both
    rw [Command.delay_of_delayOf? ticks, Value.Text.delay_iff] at text
    have digits : (toString c.delay).toList = Nat.toDigits 10 c.delay.toNat :=
      toList_toString_nat c.delay.toNat
    have minus : '-' ∈ Nat.toDigits 10 c.delay.toNat := by
      rw [← digits, ← text]
      simp
    exact absurd (Nat.isDigit_of_mem_toDigits (by decide) (by decide) minus) (by decide)
  · obtain ⟨rfl, single⟩ := List.cons.inj both
    obtain ⟨rfl, rfl⟩ := List.cons.inj single
    obtain ⟨u, same, parts⟩ := text.of_list
    obtain ⟨x, y, rfl, rfl, rfl⟩ := exists_between same (by decide) (by decide)
    obtain ⟨p, x, y, p', front, v, back, rfl, rfl, all, text, inner⟩ := parts.slot rfl (by decide)
    refine ⟨⟨before, delay, front, back, after⟩, x, y, t ++ '[' :: (k ++ '[' :: p),
      p' ++ ']' :: (k' ++ ']' :: t'), v, by simp, by simp, ?_, text, .mk tuples slot inner⟩
    rw [Frame.fill, all]
  · simp at both

/-! ### Parameters -/

/-- The integer that stands for a parameter of a command. -/
def Json.Value.param? (v : Value) (j : Nat) : Option Int64 :=
  (((v.items?.bind (·[1]?)).bind Value.items?).bind (·[j + 1]?)).bind Value.integer?

theorem Json.Value.param?_eq {v : Value} {c : Command} (h : Command.ofValue v = .ok c) (j : Nat) :
    v.param? j = c.params[j]? := by
  obtain ⟨delay, code, ps, rfl, -, -, params, -⟩ := Command.parts_of_ofValue h
  show ps[j]?.bind Value.integer? = _
  have same : (ps.map Value.integer?)[j]? = (c.params.map some)[j]? := congrArg (·[j]?) params
  rw [List.getElem?_map, List.getElem?_map] at same
  cases hp : ps[j]? with
  | none =>
    rw [hp] at same
    exact (Option.map_eq_none_iff.mp same.symm).symm
  | some p =>
    rw [hp] at same
    obtain ⟨q, hq, integer⟩ := Option.map_eq_some_iff.mp same.symm
    exact integer.symm.trans hq.symm

theorem Script.ReadAs.param? {vs : List Value} {commands : List Command}
    (h : Script.ReadAs vs commands) (i j : Nat) :
    vs[i]?.bind (·.param? j) = commands[i]?.bind (·.params[j]?) := by
  induction h generalizing i with
  | nil => rfl
  | cons first _ ih =>
    rcases i with _ | i
    · exact Value.param?_eq first j
    · exact ih i

theorem getElem?_middle {α : Type} (before after : List α) (v w : α) {i : Nat}
    (h : i ≠ before.length) : (before ++ v :: after)[i]? = (before ++ w :: after)[i]? := by
  rcases Nat.lt_or_gt_of_ne h with early | late
  · rw [List.getElem?_append_left early, List.getElem?_append_left early]
  · obtain ⟨k, rfl⟩ := Nat.exists_eq_add_of_lt late
    rw [List.getElem?_append_right (by omega), List.getElem?_append_right (by omega),
      show before.length + k + 1 - before.length = k + 1 by omega, List.getElem?_cons_succ,
      List.getElem?_cons_succ]

/-- A parameter is the part that was left out, or one of the others. -/
theorem Frame.param?_fill (f : Frame) (i j : Nat) :
    (j + 1 = f.front.length ∧ ∀ v, (f.fill v)[i]?.bind (·.param? j) = v.integer?) ∨
      ∀ v w, (f.fill v)[i]?.bind (·.param? j) = (f.fill w)[i]?.bind (·.param? j) := by
  by_cases command : i = f.before.length
  · have found : ∀ v, (f.fill v)[i]?.bind (·.param? j) =
        (f.front ++ v :: f.back)[j + 1]?.bind Value.integer? := by
      intro v
      rw [command, fill, List.getElem?_append_right (Nat.le_refl _), Nat.sub_self]
      rfl
    by_cases part : j + 1 = f.front.length
    · refine .inl ⟨part, fun v => ?_⟩
      rw [found, part, List.getElem?_append_right (Nat.le_refl _), Nat.sub_self]
      rfl
    · refine .inr fun v w => ?_
      rw [found, found, getElem?_middle f.front f.back v w part]
  · refine .inr fun v w => ?_
    rw [fill, fill, getElem?_middle f.before f.after _ _ command]

end Lightshow
