/-
Every way of writing a script down.

A list of commands can be written in many ways: brackets or braces, either kind of quotes,
parameters in decimal or in hexadecimal, and blanks and comments between any two tokens.
`Spelled` is the relation between a text and what is written in it, and all of these texts are
parsed to the same script.

* `Gap`, `ParamText`, `CodeText`, `TupleText`, `Spelled` -- the texts, from the tokens up;
* `Script.parse_spelled` -- a script is parsed from each of its texts.
-/
import Lightshow.Proofs.Document
import Lightshow.Proofs.Integers

namespace Lightshow

open Json ScriptText

/-! ### Texts of a script -/

/-- What may stand between two tokens: blanks, and comments with the end of their line. -/
inductive Gap : List Char → Prop
  | nil : Gap []
  | blank {c : Char} {g : List Char} : isBlank c = true → Gap g → Gap (c :: g)
  | comment {t g : List Char} : '\n' ∉ t → Gap g → Gap ('/' :: '/' :: (t ++ '\n' :: g))

/-- A code that the rewriting leaves alone. -/
structure PlainCode (code : List Char) : Prop where
  visible : ∀ c ∈ code, 0x20 ≤ c.toNat
  marks : ∀ c ∈ code, c ∉ ['\'', '"', '\\', '\x7b', '\x7d']
  slashes : Uncommented code
  hex : ∀ a b n, Numeral.number? 16 [a, b] = some n → ¬['0', 'x', a, b] <:+: code

/-- A code in quotes of either kind. -/
inductive CodeText : List Char → String → Prop
  | single {code : String} : PlainCode code.toList →
      CodeText ('\'' :: (code.toList ++ ['\''])) code
  | double {code : String} : PlainCode code.toList →
      CodeText ('"' :: (code.toList ++ ['"'])) code

/-- A parameter in decimal or, up to 255, as two hexadecimal digits. -/
inductive ParamText : List Char → Int64 → Prop
  | decimal (p : Int64) : ParamText (toString p).toList p
  | hex {a b : Char} {n : Nat} : Numeral.number? 16 [a, b] = some n →
      ParamText ['0', 'x', a, b] (Int64.ofNat n)

/-- Text in brackets or in braces. -/
inductive Enclosed {α : Type} (inner : List Char → α → Prop) : List Char → α → Prop
  | brackets {t : List Char} {a : α} : inner t a → Enclosed inner ('[' :: (t ++ [']'])) a
  | braces {t : List Char} {a : α} : inner t a → Enclosed inner ('\x7b' :: (t ++ ['\x7d'])) a

/-- A code, and its parameters behind commas. -/
inductive InstructionText : List Char → String × List Int64 → Prop
  | mk {g u t : List Char} {code : String} {params : List Int64} : Gap g → CodeText u code →
      Items Gap ParamText false t params → InstructionText (g ++ (u ++ t)) (code, params)

/-- What is written for a command: no fewer parameters than the code takes. -/
structure Tuple where
  delay : UInt32
  code : String
  params : List Int64
  enough : (Instruction.ofCode code).arity ≤ params.length

/-- The command that is meant. -/
def Tuple.command (e : Tuple) : Command := ⟨e.delay, Instruction.ofCode e.code, e.params⟩

/-- A delay, and the enclosed instruction behind a comma. -/
inductive TupleText : List Char → Tuple → Prop
  | mk {g h k l u : List Char} {e : Tuple} : Gap g → Gap h → Gap k → Gap l →
      Enclosed InstructionText u (e.code, e.params) →
      TupleText (g ++ ((toString e.delay).toList ++ (h ++ ',' :: (k ++ (u ++ l))))) e

/-- Tuples with commas between them and one behind the last; what follows it has no comma. -/
inductive Spelled : List Char → List Tuple → Prop
  | empty {g : List Char} : Gap g → Spelled g []
  | tuples {t g : List Char} {tuples : List Tuple} : tuples ≠ [] →
      Items Gap (Enclosed TupleText) true t tuples → Gap g → ',' ∉ g →
      Spelled (t ++ ',' :: g) tuples

/-! ### Tokens -/

theorem Gap.rewrites {g : List Char} (h : Gap g) : ∃ b, Rewrites g b ∧ Blank b := by
  induction h with
  | nil => exact ⟨[], .nil, .nil⟩
  | @blank c g blank _ ih =>
    obtain ⟨b, rewrites, blank'⟩ := ih
    have plain : isHexish c = false ∧ c ≠ '/' ∧ strictMark c = c := by
      simp only [isBlank, Bool.or_eq_true, decide_eq_true_eq] at blank
      rcases blank with ((rfl | rfl) | rfl) | rfl <;> decide
    have char := Rewrites.char plain.1 plain.2.1
    rw [plain.2.2] at char
    exact ⟨c :: b, char.append rewrites, List.forall_mem_cons.mpr ⟨blank, blank'⟩⟩
  | @comment t g line _ ih =>
    obtain ⟨b, rewrites, blank⟩ := ih
    refine ⟨'\n' :: b, ?_, List.forall_mem_cons.mpr ⟨rfl, blank⟩⟩
    have piece := (Rewrites.comment line).append rewrites
    rwa [List.cons_append, List.cons_append, List.append_assoc] at piece

theorem number_lt {a b : Char} {n : Nat} (h : Numeral.number? 16 [a, b] = some n) : n < 256 := by
  have digit : ∀ {c : Char} {d : Nat}, Numeral.digit? 16 c = some d → d < 16 := by
    intro c d hd
    simp only [Numeral.digit?, Option.filter_eq_some_iff] at hd
    simpa using hd.2
  obtain ⟨x, hx⟩ := digits_of_number h a (by simp)
  obtain ⟨y, hy⟩ := digits_of_number h b (by simp)
  have := digit hx
  have := digit hy
  simp [Numeral.number?, hx, hy] at h
  omega

theorem ParamText.rewrites {u : List Char} {p : Int64} (h : ParamText u p) :
    ∃ t, Rewrites u t ∧ Leaf t (integerValue p) := by
  refine ⟨(toString p).toList, ?_, leaf_integerValue p⟩
  cases h with
  | decimal => exact .number (digits_toString p)
  | @hex a b n number =>
    have small : n < 256 := number_lt number
    have same : (Int64.ofNat n).toInt = n := by
      rw [← Int64.ofInt_eq_ofNat, Int64.toInt_ofInt_of_le (by omega) (by omega)]
    show Rewrites _ (toString (Int64.ofNat n).toInt).toList
    rw [same, show toString (n : Int) = toString n from rfl, toList_toString_nat]
    exact .hex number

theorem PlainCode.decimalHex_eq {code : List Char} (h : PlainCode code) : decimalHex code = code := by
  have hex := h.hex
  clear h
  induction code with
  | nil => rfl
  | cons c code ih =>
    rw [decimalHex_cons, ih fun a b n number infix_ => hex a b n number (List.infix_cons infix_)]
    intro a b n rest same number
    exact hex a b n number ⟨[], rest, same.symm⟩

theorem PlainCode.quotes {code : List Char} (h : PlainCode code) : Quotes code code := by
  obtain ⟨visible, marks, -, -⟩ := h
  induction code with
  | nil => exact .nil
  | cons c code ih =>
    rw [List.forall_mem_cons] at visible marks
    refine .plain ?_ ?_ visible.1 (ih visible.2 marks.2)
    all_goals
      rintro rfl
      exact marks.1 (by decide)

/-- A code in quotes becomes the same code in double quotes. -/
theorem PlainCode.rewrites {code : List Char} (h : PlainCode code) {q : Char}
    (quote : q = '\'' ∨ q = '"') : Rewrites (q :: (code ++ [q])) ('"' :: (code ++ ['"'])) where
  head := by
    rcases quote with rfl | rfl <;> nofun
  strict rest hrest := by
    obtain ⟨hexish, slash, mark⟩ : isHexish q = false ∧ q ≠ '/' ∧ strictMark q = '"' := by
      rcases quote with rfl | rfl <;> decide
    have apart : Apart (q :: code) (q :: rest) := Apart.of_head fun c hc => Option.some.inj hc ▸ hexish
    have whole : decimalHex (q :: code) = q :: code := by rw [decimalHex_plain hexish, h.decimalHex_eq]
    have uncommented : Uncommented (q :: code) := by
      intro infix_
      rcases List.infix_cons_iff.mp infix_ with ⟨more, same⟩ | infix_
      · exact slash (List.cons.inj same).1.symm
      · exact h.slashes infix_
    obtain ⟨same, outside⟩ := dropComments_uncommented uncommented
    have marks : (q :: code).map strictMark = '"' :: code := by
      rw [List.map_cons, mark]
      refine congrArg ('"' :: ·) ((List.map_congr_left fun c hc => ?_).trans (List.map_id code))
      have other := h.marks c hc
      simp only [List.mem_cons, not_or] at other
      rw [strictMark, if_neg other.1, if_neg other.2.2.2.1, if_neg other.2.2.2.2.1]
      rfl
    have behind := (Rewrites.char hexish slash).strict rest hrest
    rw [mark, List.singleton_append] at behind
    rw [List.cons_append, List.append_assoc, List.singleton_append, ← List.cons_append,
      strictText_append apart fun hq => slash (Option.some.inj hq), whole, outside, strictText, whole,
      same, marks, ← strictText, behind]
    simp

theorem CodeText.rewrites {u : List Char} {code : String} (h : CodeText u code) :
    ∃ t, Rewrites u t ∧ Leaf t (.text code) := by
  have leaf : PlainCode code.toList → Leaf ('"' :: (code.toList ++ ['"'])) (.text code) := by
    intro plain
    have leaf := Leaf.text plain.quotes
    rwa [String.ofList_toList] at leaf
  cases h with
  | single plain => exact ⟨_, plain.rewrites (.inl rfl), leaf plain⟩
  | double plain => exact ⟨_, plain.rewrites (.inr rfl), leaf plain⟩

/-! ### Lists -/

/-- Items become items if each of them does. -/
theorem rewrites_items {α β : Type} {written : List Char → α → Prop} (read : List Char → β → Prop)
    (f : α → β) (item : ∀ {u : List Char} {a : α}, written u a → ∃ v, Rewrites u v ∧ read v (f a))
    {first : Bool} {t : List Char} {as : List α} (h : Items Gap written first t as) :
    ∃ v, Rewrites t v ∧ Items Blank read first v (as.map f) := by
  induction h with
  | nil gap =>
    obtain ⟨b, rewrites, blank⟩ := gap.rewrites
    exact ⟨b, rewrites, .nil blank⟩
  | first gap written _ ih =>
    obtain ⟨b, gap, blank⟩ := gap.rewrites
    obtain ⟨u, here, read⟩ := item written
    obtain ⟨v, others, items⟩ := ih
    exact ⟨_, gap.append (here.append others), .first blank read items⟩
  | next gap gap' written _ ih =>
    obtain ⟨b, gap, blank⟩ := gap.rewrites
    obtain ⟨b', gap', blank'⟩ := gap'.rewrites
    obtain ⟨u, here, read⟩ := item written
    obtain ⟨v, others, items⟩ := ih
    have comma : Rewrites [','] [','] := Rewrites.char (by decide) (by decide)
    exact ⟨b ++ ',' :: (b' ++ (u ++ v)), gap.append (comma.append (gap'.append (here.append others))),
      .next blank blank' read items⟩

/-- What is enclosed becomes a list. -/
theorem Enclosed.rewrites {α : Type} {inner : List Char → α → Prop} (limit : Nat)
    (f : α → List Value) (item : ∀ {t : List Char} {a : α}, inner t a →
      ∃ v, Rewrites t v ∧ Items Blank (Value.Text limit) true v (f a))
    {u : List Char} {a : α} (h : Enclosed inner u a) :
    ∃ v, Rewrites u v ∧ Value.Text (limit + 1) v (.list (f a)) := by
  cases h with
  | brackets inner =>
    obtain ⟨v, rewrites, items⟩ := item inner
    have opens : Rewrites ['['] ['['] := Rewrites.char (by decide) (by decide)
    have closes : Rewrites [']'] [']'] := Rewrites.char (by decide) (by decide)
    exact ⟨_, opens.append (rewrites.append closes), Layer.list items⟩
  | braces inner =>
    obtain ⟨v, rewrites, items⟩ := item inner
    have opens : Rewrites ['\x7b'] ['['] := Rewrites.char (by decide) (by decide)
    have closes : Rewrites ['\x7d'] [']'] := Rewrites.char (by decide) (by decide)
    exact ⟨_, opens.append (rewrites.append closes), Layer.list items⟩

/-- The items of an instruction. -/
def instructionItems (i : String × List Int64) : List Value := .text i.1 :: i.2.map integerValue

theorem InstructionText.rewrites (limit : Nat) {t : List Char} {i : String × List Int64}
    (h : InstructionText t i) :
    ∃ v, Rewrites t v ∧ Items Blank (Value.Text limit) true v (instructionItems i) := by
  obtain ⟨gap, code, params⟩ := h
  obtain ⟨b, gap, blank⟩ := gap.rewrites
  obtain ⟨u, code, leaf⟩ := code.rewrites
  obtain ⟨v, params, items⟩ := rewrites_items (Value.Text limit) integerValue
    (fun written => by
      obtain ⟨v, rewrites, leaf⟩ := written.rewrites
      exact ⟨v, rewrites, .leaf leaf limit⟩) params
  exact ⟨_, gap.append (code.append params), .first blank (.leaf leaf limit) items⟩

/-- The items of a tuple. -/
def Tuple.items (e : Tuple) : List Value :=
  [.number (endInteger true e.delay.toNat), .list (instructionItems (e.code, e.params))]

theorem TupleText.rewrites (limit : Nat) {t : List Char} {e : Tuple} (h : TupleText t e) :
    ∃ v, Rewrites t v ∧ Items Blank (Value.Text (limit + 1)) true v e.items := by
  obtain ⟨gap, behind, front, last, inner⟩ := h
  obtain ⟨b, gap, blank⟩ := gap.rewrites
  obtain ⟨b₁, behind, blank₁⟩ := behind.rewrites
  obtain ⟨b₂, front, blank₂⟩ := front.rewrites
  obtain ⟨b₃, last, blank₃⟩ := last.rewrites
  obtain ⟨u, inner, text⟩ := Enclosed.rewrites limit instructionItems
    (fun h => h.rewrites limit) inner
  have small := e.delay.toNat_lt
  have digits : (toString e.delay).toList = Nat.toDigits 10 e.delay.toNat :=
    toList_toString_nat e.delay.toNat
  have delay : Rewrites (toString e.delay).toList (toString e.delay).toList := by
    refine .number fun c hc => .inl ?_
    rw [digits] at hc
    exact Nat.isDigit_of_mem_toDigits (by decide) (by decide) hc
  have leaf : Leaf (toString e.delay).toList (.number (endInteger true e.delay.toNat)) :=
    digits ▸ leaf_toDigits (Nat.lt_trans small (by decide))
  have comma : Rewrites [','] [','] := Rewrites.char (by decide) (by decide)
  exact ⟨b ++ ((toString e.delay).toList ++ (b₁ ++ ',' :: (b₂ ++ (u ++ b₃)))),
    gap.append (delay.append (behind.append (comma.append (front.append (inner.append last))))),
    .first blank (.leaf leaf _) (.next blank₁ blank₂ text (.nil blank₃))⟩

/-! ### Scripts -/

theorem paramsOf_integerValue (params : List Int64) :
    Command.paramsOf (params.map integerValue) = .ok params := by
  induction params with
  | nil => rfl
  | cons p params ih =>
    rw [List.map_cons, Command.paramsOf, integer?_integerValue, ih]

/-- The items of a tuple are read as its command. -/
theorem Command.ofValue_pair {delay : Value} {ticks : UInt32}
    (h : Command.delayOf? delay = some ticks) (parts : List Value) :
    Command.ofValue (.list [delay, .list parts]) = Command.ofInstruction ticks parts := by
  simp only [Command.ofValue, Value.items?, h]

theorem Tuple.ofValue_items (e : Tuple) : Command.ofValue (.list e.items) = .ok e.command := by
  have small : e.delay.toNat < 1 <<< 32 := e.delay.toNat_lt
  have word : e.delay.toNat.toUInt64.toNat = e.delay.toNat :=
    UInt64.toNat_ofNat_of_lt' (Nat.lt_trans small (by decide))
  have delay : Command.delayOf? (.number (endInteger true e.delay.toNat)) = some e.delay := by
    show (if e.delay.toNat.toUInt64.toNat < 1 <<< 32 then _ else _) = _
    rw [word, if_pos small]
    refine congrArg some (UInt32.toNat_inj.mp ?_)
    rw [UInt64.toNat_toUInt32, word, Nat.mod_eq_of_lt e.delay.toNat_lt]
  rw [Tuple.items, Command.ofValue_pair delay, instructionItems, Command.ofInstruction]
  dsimp only [Value.text?]
  rw [paramsOf_integerValue]
  dsimp only
  rw [if_neg (Nat.not_lt.mpr e.enough)]
  rfl

/-- A gap stays one without its last comma. -/
theorem Gap.dropLastComma {g : List Char} (h : Gap g) : Gap (dropLastComma g) := by
  induction h with
  | nil => exact .nil
  | @blank c g blank gap ih =>
    have plain : ',' ∉ [c] := by
      rw [List.mem_singleton]
      rintro rfl
      cases blank
    rw [← List.singleton_append, dropLastComma_append, dropLastComma_of_not_mem plain]
    split_ifs
    · exact .blank blank ih
    · exact .blank blank gap
  | @comment t g line gap ih =>
    have piece : ∀ {t g : List Char}, '\n' ∉ t → Gap g → Gap (['/', '/'] ++ t ++ ['\n'] ++ g) := by
      intro t g line gap
      simpa using Gap.comment line gap
    have whole : '/' :: '/' :: (t ++ '\n' :: g) = ['/', '/'] ++ t ++ ['\n'] ++ g := by simp
    rw [whole, dropLastComma_append, dropLastComma_append, dropLastComma_append ['/', '/'],
      if_neg (by decide : ',' ∉ ['\n']), dropLastComma_of_not_mem (by decide : ',' ∉ ['/', '/'])]
    split_ifs with later here
    · exact piece line ih
    · exact piece (fun hn => line (mem_of_mem_dropLastComma hn)) gap
    · exact piece line gap

/-- Without its last comma, the text of the tuples stands between blanks. -/
theorem Spelled.rewrites {cs : List Char} {tuples : List Tuple} (h : Spelled cs tuples) :
    ∃ v, Rewrites (ScriptText.dropLastComma cs) v ∧
      Items Blank (Value.Text Script.itemLimit) true v (tuples.map fun e => .list e.items) := by
  cases h with
  | empty gap =>
    obtain ⟨b, rewrites, blank⟩ := gap.dropLastComma.rewrites
    exact ⟨b, rewrites, .nil blank⟩
  | tuples _ items gap comma =>
    obtain ⟨v, rewrites, items⟩ := rewrites_items (Value.Text Script.itemLimit)
      (fun e : Tuple => .list e.items)
      (fun written => written.rewrites 124 Tuple.items fun h => h.rewrites 123) items
    obtain ⟨b, gap, blank⟩ := gap.rewrites
    rw [dropLastComma_split _ comma]
    exact ⟨v ++ b, rewrites.append gap, items.append_blank blank⟩

/-- A text that becomes items of tuples is parsed as their commands. -/
theorem Script.parse_of_rewrites {text : String} {tuples : List Tuple} {v : List Char}
    (rewrites : Rewrites (dropLastComma text.toList) v)
    (items : Items Blank (Value.Text itemLimit) true v (tuples.map fun e => .list e.items)) :
    Script.parse text = .ok ⟨tuples.map Tuple.command⟩ := by
  have whole : (normalize text).toList =
      '\x7b' :: ' ' :: (fieldText ++ (v ++ [' '] ++ [']', ' ', '\x7d'])) := by
    have close : strictText [' ', ']'] = [' ', ']'] := by decide
    rw [normalize_toList, rewrites.strict _ (by decide), close]
    simp
  have read := (items.append_blank (g := [' ']) (by decide)).reads
    (fun spelled => spelled.spelling) [' ', '\x7d']
  refine parse_of_items read whole ?_
  rw [ReadAs, List.forall₂_map_left_iff, List.forall₂_map_right_iff, List.forall₂_same]
  exact fun e _ => e.ofValue_items

/-- **A script is parsed from each of its texts.** -/
theorem Script.parse_spelled {text : String} {tuples : List Tuple}
    (h : Spelled text.toList tuples) : Script.parse text = .ok ⟨tuples.map Tuple.command⟩ := by
  obtain ⟨v, rewrites, items⟩ := h.rewrites
  exact parse_of_rewrites rewrites items

theorem Script.parse_spelled_fade :
    Spelled "\x7b1, ['f', 0x0A]\x7d, // on\n".toList [⟨1, "f", [10], by decide⟩] ∧
      Script.parse "\x7b1, ['f', 0x0A]\x7d, // on\n" = .ok ⟨[⟨1, .fade, [10]⟩]⟩ := by
  have space : Gap [' '] := .blank rfl .nil
  have short : ∀ a b n, Numeral.number? 16 [a, b] = some n → ¬['0', 'x', a, b] <:+: "f".toList :=
    fun a b n _ infix_ => absurd infix_.length_le (by simp)
  have code : CodeText "'f'".toList "f" := .single ⟨by simp, by simp, by decide, short⟩
  have param : ParamText "0x0A".toList 10 := ParamText.hex (n := 10) (by decide)
  have params : Items Gap ParamText false ", 0x0A".toList [10] := .next .nil space param (.nil .nil)
  have instruction : InstructionText "'f', 0x0A".toList ("f", [10]) := .mk .nil code params
  have inner : Enclosed InstructionText "['f', 0x0A]".toList ("f", [10]) := .brackets instruction
  have tuple : TupleText "1, ['f', 0x0A]".toList ⟨1, "f", [10], by decide⟩ := by
    have one : (toString (1 : UInt32)).toList = ['1'] := rfl
    have written := TupleText.mk (e := ⟨1, "f", [10], by decide⟩) .nil .nil space .nil inner
    rwa [one] at written
  have first : Items Gap (Enclosed TupleText) true "\x7b1, ['f', 0x0A]\x7d".toList
      [⟨1, "f", [10], by decide⟩] := Items.first Gap.nil (Enclosed.braces tuple) (Items.nil Gap.nil)
  have comment : Gap " // on\n".toList := .blank rfl (.comment (t := " on".toList) (by decide) .nil)
  have spelled : Spelled "\x7b1, ['f', 0x0A]\x7d, // on\n".toList [⟨1, "f", [10], by decide⟩] :=
    .tuples (List.cons_ne_nil _ _) first comment (by decide)
  exact ⟨spelled, Script.parse_spelled spelled⟩

end Lightshow
