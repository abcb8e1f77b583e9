/-
The last comma in a list of commands.

A command is a pair of a delay and a list, so the last comma stands in one of three places: behind
the last delay, in the last code, or in front of the last parameter.  What the reader makes of the
text without it depends on the place: behind a delay it stops, and in front of a parameter it goes
on only if another parameter stands directly in front, whose digits then run on.

* `lastComma_of_items` -- the three places;
* `taken_readItems_delay`, `adjacent_of_reads` -- what is read without the comma.
-/
import Lightshow.Proofs.Document
import Lightshow.Proofs.Integers

namespace Lightshow.Json

variable {limit : Nat}

/-- Nothing is read if two items stand next to each other without a comma. -/
theorem Front.taken_missing {t u g cs : List Char} {vs : List Value} {v : Value}
    (front : Front Blank (Value.Text limit) t vs) (text : Value.Text limit u v)
    (read : Reads (readValue limit) (u ++ cs) v cs) {c : Char} {more : List Char}
    (behind : cs = g ++ c :: more) (blank : Blank g) (solid : isBlank c = false) (comma : c ≠ ',')
    (bracket : c ≠ ']') : taken? (readItems (readValue limit) true (t ++ (u ++ cs))) = none := by
  obtain ⟨d, w, rfl, solid', bracket'⟩ := text.spelling.begins
  rw [List.cons_append] at read ⊢
  rw [front.taken Value.Text.spelling solid' bracket', taken_readItems_item solid' bracket', read,
    Option.bind_some, behind, taken_readItems_missing blank solid comma bracket]
  rfl

/-- The item behind such a text is read by itself, up to a comma or the end of the list. -/
theorem Front.reads_item {t cs last : List Char} {vs ws : List Value} {c : Char}
    (front : Front Blank (Value.Text limit) t vs) (solid : isBlank c = false) (bracket : c ≠ ']')
    (h : Reads (readItems (readValue limit) true) (t ++ c :: cs) ws last) :
    ∃ u v rest, c :: cs = u ++ rest ∧ Value.Text limit u v ∧
      ∃ g d more, rest = g ++ d :: more ∧ Blank g ∧ (d = ',' ∨ d = ']') := by
  rw [Reads, front.taken Value.Text.spelling solid bracket, taken_readItems_item solid bracket] at h
  obtain ⟨⟨as, left⟩, h, -⟩ := Option.map_eq_some_iff.mp h
  obtain ⟨⟨v, rest⟩, hv, h⟩ := Option.bind_eq_some_iff.mp h
  obtain ⟨⟨bs, left'⟩, hbs, -⟩ := Option.map_eq_some_iff.mp h
  obtain ⟨g, u, same, blank, text⟩ := Value.Text.of_reads hv
  refine ⟨u, v, rest, ?_, text, stop_of_readItems hbs⟩
  rcases g with _ | ⟨d, g⟩
  · exact same
  · obtain ⟨rfl, -⟩ := List.cons.inj same
    cases (blank c List.mem_cons_self).symm.trans solid

/-- What begins like a number has nothing but figures. -/
theorem Value.Text.figures {c : Char} {t : List Char} {v : Value} (h : Value.Text limit (c :: t) v)
    (begins : c.isDigit = true ∨ c = '-') : ∀ d ∈ c :: t, isFigure d = true := by
  have other : ∀ {d : Char}, d.isDigit = false → d ≠ '-' → c ≠ d := by
    rintro d digit minus rfl
    exact begins.elim (fun yes => absurd (yes.symm.trans digit) nofun) minus
  have leaf := h.leaf_of_head (other rfl (by decide)) (other rfl (by decide))
  generalize whole : c :: t = w at leaf
  cases leaf with
  | null | yes | no | text => exact absurd (List.cons.inj whole).1 (other rfl (by decide))
  | positive _ figures => exact figures.1
  | negative figures => exact List.forall_mem_cons.mpr ⟨rfl, figures.1⟩

theorem Value.Text.of_number {t : List Char} {n : Number} (h : Value.Text limit t (.number n)) :
    ∀ c ∈ t, isFigure c = true := by
  cases h.leaf_of_value nofun nofun with
  | positive _ figures => exact figures.1
  | negative figures => exact List.forall_mem_cons.mpr ⟨rfl, figures.1⟩

/-- What begins with a quote is a string. -/
theorem Value.Text.string {t : List Char} {v : Value} (h : Value.Text limit ('"' :: t) v) :
    ∃ u ds, t = u ++ ['"'] ∧ Quotes u ds ∧ v = .text (String.ofList ds) := by
  have leaf := h.leaf_of_head (by decide) (by decide)
  generalize whole : '"' :: t = w at leaf
  cases leaf with
  | null | yes | no | negative => exact absurd (List.cons.inj whole).1 (by decide)
  | positive digit =>
    obtain ⟨rfl, -⟩ := List.cons.inj whole
    cases digit
  | text quotes => exact ⟨_, _, (List.cons.inj whole).2, quotes, rfl⟩

theorem Value.Text.of_text {t : List Char} {s : String} (h : Value.Text limit t (.text s)) :
    ∃ u ds, t = '"' :: (u ++ ['"']) ∧ Quotes u ds ∧ s = String.ofList ds := by
  cases h.leaf_of_value nofun nofun with
  | text quotes => exact ⟨_, _, rfl, quotes, rfl⟩

theorem Value.Text.of_list {t : List Char} {items : List Value}
    (h : Value.Text (limit + 1) t (.list items)) :
    ∃ u, t = '[' :: (u ++ [']']) ∧ Items Blank (Value.Text limit) true u items := by
  cases h with
  | leaf h => cases h
  | list items => exact ⟨_, rfl, items⟩

end Lightshow.Json

namespace Lightshow

open Json ScriptText

theorem Command.integers_of_paramsOf {vs : List Value} {ps : List Int64}
    (h : Command.paramsOf vs = .ok ps) : vs.map Value.integer? = ps.map some := by
  induction vs generalizing ps with
  | nil => rw [← Except.ok.inj h]; rfl
  | cons v vs ih =>
    rw [paramsOf] at h
    cases first : v.integer? with
    | none => rw [first] at h; cases h
    | some p =>
      rw [first] at h
      cases others : paramsOf vs with
      | error e => rw [others] at h; cases h
      | ok qs =>
        rw [others] at h
        rw [← Except.ok.inj h, List.map_cons, List.map_cons, first, ih others]

theorem Command.parts_of_ofInstruction {delay : UInt32} {data : List Value} {c : Command}
    (h : Command.ofInstruction delay data = .ok c) :
    ∃ code ps, data = .text code :: ps ∧ c.delay = delay ∧ c.instruction = .ofCode code ∧
      ps.map Value.integer? = c.params.map some ∧ c.instruction.arity ≤ c.params.length := by
  rcases data with _ | ⟨head, ps⟩
  · cases h
  rw [ofInstruction] at h
  cases text : head.text? with
  | none => rw [text] at h; cases h
  | some code =>
    rw [text] at h
    dsimp only at h
    cases params : paramsOf ps with
    | error e => rw [params] at h; cases h
    | ok qs =>
      rw [params] at h
      dsimp only at h
      split_ifs at h with few
      obtain rfl := Except.ok.inj h
      obtain rfl : head = .text code := by
        cases head with
        | text => rw [Option.some.inj text]
        | _ => cases text
      exact ⟨code, ps, rfl, rfl, rfl, integers_of_paramsOf params, Nat.not_lt.mp few⟩

/-- A command is a delay and a list of a code and enough integers. -/
theorem Command.parts_of_ofValue {v : Value} {c : Command} (h : Command.ofValue v = .ok c) :
    ∃ delay code ps, v = .list [delay, .list (.text code :: ps)] ∧ delayOf? delay = some c.delay ∧
      c.instruction = .ofCode code ∧ ps.map Value.integer? = c.params.map some ∧
      c.instruction.arity ≤ c.params.length := by
  have list : ∀ {w : Value} {items : List Value}, w.items? = some items → w = .list items := by
    intro w items h
    cases w with
    | list => rw [Option.some.inj h]
    | _ => cases h
  rw [ofValue] at h
  split at h
  case h_1 | h_3 => cases h
  case h_2 delay data pair =>
    cases ticks : delayOf? delay with
    | none => rw [ticks] at h; cases h
    | some d =>
      rw [ticks] at h
      dsimp only at h
      cases parts : data.items? with
      | none => rw [parts] at h; cases h
      | some items =>
        rw [parts] at h
        obtain ⟨code, ps, rfl, rfl, instruction, params, enough⟩ := parts_of_ofInstruction h
        exact ⟨delay, code, ps, by rw [list pair, list parts], ticks, instruction, params, enough⟩

theorem Script.ReadAs.concat {vs : List Value} {v : Value} {commands : List Command}
    (h : Script.ReadAs (vs ++ [v]) commands) :
    ∃ front c, commands = front ++ [c] ∧ Script.ReadAs vs front ∧ Command.ofValue v = .ok c := by
  induction vs generalizing commands with
  | nil =>
    obtain ⟨c, _, read, others, rfl⟩ := List.forall₂_cons_left_iff.mp h
    obtain rfl := List.forall₂_nil_left_iff.mp others
    exact ⟨[], c, rfl, .nil, read⟩
  | cons w vs ih =>
    obtain ⟨c, _, read, others, rfl⟩ := List.forall₂_cons_left_iff.mp h
    obtain ⟨front, d, rfl, others, last⟩ := ih others
    exact ⟨c :: front, d, rfl, .cons read others, last⟩

/-! ### Where the last comma stands -/

theorem eq_of_last_comma {x y x' y' : List Char} (same : x ++ ',' :: y = x' ++ ',' :: y')
    (h : ',' ∉ y) (h' : ',' ∉ y') : x = x' ∧ y = y' := by
  have unique : ∀ {u v : List Char}, ',' ∉ v → ∀ {k}, ',' :: v = k ++ ',' :: u → k = [] := by
    rintro u v none (_ | ⟨c, k⟩) same
    · rfl
    · exact absurd ((List.cons.inj same).2 ▸ by simp) none
  rcases List.append_eq_append_iff.mp same with ⟨k, rfl, behind⟩ | ⟨k, rfl, behind⟩
  · obtain rfl := unique h behind
    exact ⟨(List.append_nil x).symm, (List.cons.inj behind).2⟩
  · obtain rfl := unique h' behind
    exact ⟨List.append_nil x', (List.cons.inj behind).2.symm⟩

/-- What stands around the parts of the last command: the other commands, the delay and two brackets
in front of them, and two brackets behind them. -/
inductive Around (limit : Nat) : List Char → List Char → List Value → Value → Prop
  | mk {t k g h : List Char} {vs : List Value} {delay : Value} :
      Front Blank (Value.Text (limit + 2)) t vs → Front Blank (Value.Text (limit + 1)) k [delay] →
      Blank g → Blank h →
      Around limit (t ++ '[' :: (k ++ ['['])) (']' :: (g ++ ']' :: h)) vs delay

/-- The text of a list of commands in front of its last comma and behind it. -/
inductive LastComma (limit : Nat) : List Char → List Char → List Value → Prop
  | delay {t g u h k more : List Char} {vs parts : List Value} {delay : Value} :
      Front Blank (Value.Text (limit + 2)) t vs → Blank g → Value.Text (limit + 1) u delay → Blank h →
      Blank k → LastComma limit (t ++ '[' :: (g ++ (u ++ h))) (k ++ '[' :: more)
        (vs ++ [.list [delay, .list parts]])
  | code {front back g a b h ds : List Char} {vs : List Value} {delay : Value} :
      Around limit front back vs delay → Blank g → Quotes (a ++ ',' :: b) ds → Blank h →
      LastComma limit (front ++ (g ++ '"' :: a)) (b ++ '"' :: (h ++ back))
        (vs ++ [.list [delay, .list [.text (String.ofList ds)]]])
  | param {front back t u g h w k : List Char} {vs parts : List Value} {delay v p : Value} :
      Around limit front back vs delay → Front Blank (Value.Text limit) t parts →
      Value.Text limit u v → Blank g → Blank h → Value.Text limit w p → Blank k →
      LastComma limit (front ++ (t ++ (u ++ g))) (h ++ (w ++ (k ++ back)))
        (vs ++ [.list [delay, .list (parts ++ [v, p])]])

variable {limit : Nat}

/-- The last comma stands behind the delay, in the code or between parameters. -/
theorem lastComma_of_items {x y : List Char} {vs : List Value} {commands : List Command}
    (items : Items Blank (Value.Text (limit + 2)) true (x ++ ',' :: y) vs)
    (read : Script.ReadAs vs commands) (last : ',' ∉ y) : LastComma limit x y vs := by
  have some_vs : vs ≠ [] := by
    rintro rfl
    exact items.gap_of_nil.no_comma (by simp)
  obtain ⟨bs, v, t, u, h, rfl, whole, front, text, blank_h⟩ := items.split_last some_vs
  obtain ⟨-, c, -, -, command⟩ := read.concat
  obtain ⟨delay, code, ps, rfl, -, -, integers, -⟩ := Command.parts_of_ofValue command
  obtain ⟨u, rfl, pair⟩ := text.of_list
  obtain ⟨k, u, g, rfl, delayed, text, blank_g⟩ := @Items.split_concat _ _ _ _ [delay] _ pair
  obtain ⟨z, rfl, parts⟩ := text.of_list
  have around : Around limit _ _ bs delay := .mk front delayed blank_g blank_h
  rcases List.eq_nil_or_concat ps with rfl | ⟨ps, p, rfl⟩
  · -- without parameters, the last comma stands in the code or in front of it
    obtain ⟨e, u, r, rfl, empty, text, blank_r⟩ := @Items.split_concat _ _ _ _ [] _ parts
    obtain ⟨q, ds, rfl, quotes, rfl⟩ := text.of_text
    have blank_e := empty.gap_of_nil
    by_cases comma : ',' ∈ q
    · obtain ⟨a, b, rfl, last_b⟩ := exists_last_comma comma
      have same : x ++ ',' :: y = (t ++ '[' :: (k ++ ['[']) ++ (e ++ '"' :: a)) ++
          ',' :: (b ++ '"' :: (r ++ ']' :: (g ++ ']' :: h))) := by
        rw [whole]
        simp
      obtain ⟨rfl, rfl⟩ := eq_of_last_comma same last
        (by simp [last_b, blank_r.no_comma, blank_g.no_comma, blank_h.no_comma])
      exact .code around blank_e quotes blank_r
    · cases delayed with
      | @comma k l _ _ delayed blank_l =>
        obtain ⟨i, u, j, rfl, empty, text, blank_j⟩ := @Items.split_concat _ _ _ _ [] _ delayed
        have same : x ++ ',' :: y = (t ++ '[' :: (i ++ (u ++ j))) ++ ',' :: (l ++ '[' ::
            ((e ++ ('"' :: (q ++ ['"']) ++ r)) ++ ']' :: (g ++ ']' :: h))) := by
          rw [whole]
          simp
        obtain ⟨rfl, rfl⟩ := eq_of_last_comma same last (by simp [comma, blank_l.no_comma,
          blank_e.no_comma, blank_r.no_comma, blank_g.no_comma, blank_h.no_comma])
        exact .delay front empty.gap_of_nil text blank_j blank_l
  · -- otherwise it stands in front of the last parameter
    rw [List.concat_eq_append] at parts integers ⊢
    obtain ⟨e, w, r, rfl, others, param, blank_r⟩ :=
      @Items.split_concat _ _ _ _ (.text code :: ps) _ parts
    have plain : ',' ∉ w := by
      rw [List.map_append] at integers
      obtain ⟨_, _, -, -, integers⟩ := List.map_eq_append_iff.mp integers.symm
      obtain ⟨i, _, -, integer, -⟩ := List.map_eq_cons_iff.mp integers
      rw [param.eq_toString integer.symm]
      exact not_mem_of_digits (digits_toString i) rfl (by decide)
    cases others with
    | @comma e l _ _ others blank_l =>
      obtain ⟨init, v, both⟩ : ∃ init v, Value.text code :: ps = init ++ [v] :=
        ⟨_, _, (List.dropLast_append_getLast (List.cons_ne_nil _ ps)).symm⟩
      rw [both] at others
      obtain ⟨i, u, j, rfl, others, before, blank_j⟩ := others.split_concat
      have same : x ++ ',' :: y = (t ++ '[' :: (k ++ ['[']) ++ (i ++ (u ++ j))) ++
          ',' :: (l ++ (w ++ (r ++ ']' :: (g ++ ']' :: h)))) := by
        rw [whole]
        simp
      obtain ⟨rfl, rfl⟩ := eq_of_last_comma same last (by simp [plain, blank_l.no_comma,
        blank_r.no_comma, blank_g.no_comma, blank_h.no_comma])
      show LastComma _ _ _ (bs ++ [.list [delay, .list ((.text code :: ps) ++ [p])]])
      rw [both, List.append_assoc init]
      exact .param around others before blank_j blank_l param blank_r

/-! ### Reading on without the comma -/

section

variable {front back more : List Char} {vs parts : List Value} {delay : Value}

theorem Around.items {z : List Char} (h : Around limit front back vs delay)
    (items : Items Blank (Value.Text limit) true z parts) :
    Items Blank (Value.Text (limit + 2)) true (front ++ (z ++ back))
      (vs ++ [.list [delay, .list parts]]) := by
  cases h with
  | @mk t k g h _ _ others delayed blank blank' =>
    have text : Value.Text (limit + 1) ('[' :: (z ++ [']'])) (.list parts) := Layer.list items
    have pair : Value.Text (limit + 2) _ (.list ([delay] ++ [.list parts])) :=
      Layer.list (delayed.items text blank)
    have whole := others.items pair blank'
    simpa using whole

/-- What is read of the parts of the last command. -/
theorem Around.reads_parts {ws : List Value} {last : List Char} (h : Around limit front back vs delay)
    (read : Reads (readItems (readValue (limit + 2)) true) (front ++ more) ws last) :
    ∃ parts rest, Reads (readItems (readValue limit) true) more parts rest := by
  cases h with
  | @mk t k g h _ _ others delayed blank blank' =>
    rw [List.append_assoc, List.cons_append, List.append_assoc, List.singleton_append, Reads,
      others.taken_list, delayed.taken_list] at read
    obtain ⟨_, inner, -⟩ := Option.bind_eq_some_iff.mp read
    obtain ⟨⟨parts, rest⟩, inner, -⟩ := Option.bind_eq_some_iff.mp inner
    exact ⟨parts, rest, inner⟩

theorem head_of_toString (i : Int64) :
    ∃ c t, (toString i).toList = c :: t ∧ (c.isDigit = true ∨ c = '-') := by
  have spelling : Spelling (readValue 0) _ _ := (leaf_integerValue i).spelling
  obtain ⟨c, t, same, -⟩ := spelling.begins
  exact ⟨c, t, same, digits_toString i c (same ▸ List.mem_cons_self)⟩

theorem figures_toString (i : Int64) : ∀ c ∈ (toString i).toList, isFigure c = true := by
  intro c hc
  rcases digits_toString i c hc with digit | rfl
  · exact isFigure_of_digit digit
  · rfl

/-- The first character of blanks and what follows them. -/
theorem Json.Blank.head {g : List Char} {d : Char} {q : Char → Prop} (h : Blank g)
    (blank : ∀ {c}, isBlank c = true → q c) (hd : q d) (rest : List Char) :
    ∀ c ∈ (g ++ d :: rest).head?, q c := by
  intro c hc
  rcases g with _ | ⟨e, g⟩
  · exact Option.some.inj hc ▸ hd
  · exact Option.some.inj hc ▸ blank (h e List.mem_cons_self)

theorem not_figure_of_blank {c : Char} (h : isBlank c = true) : isFigure c = false := by
  rw [Bool.eq_false_iff]
  intro figure
  exact absurd ((not_blank_of_isFigure figure).symm.trans h) nofun

variable {t u g h w k last : List Char} {v p : Value} {ws : List Value} {i j : Int64}

/-- Behind a quote, the list is read only if a string is. -/
theorem string_of_reads {cs : List Char} (others : Front Blank (Value.Text limit) t parts)
    (read : Reads (readItems (readValue limit) true) (t ++ '"' :: cs) ws last) :
    ∃ q ds rest, cs = q ++ '"' :: rest ∧ Quotes q ds := by
  obtain ⟨u, v, rest, same, text, -⟩ := others.reads_item rfl (by decide) read
  obtain ⟨c, u, rfl, -⟩ := text.spelling.begins
  obtain ⟨rfl, behind⟩ := List.cons.inj same
  obtain ⟨q, ds, rfl, quotes, -⟩ := text.string
  exact ⟨q, ds, rest, by simpa using behind, quotes⟩

/-- Two integers next to each other are read as one number. -/
theorem text_of_adjacent (others : Front Blank (Value.Text limit) t parts)
    (before : Value.Text limit u v) (integer : v.integer? = some i) (param : Value.Text limit w p)
    (integer' : p.integer? = some j) (blank : Blank k)
    (read : Reads (readItems (readValue limit) true) (t ++ (u ++ (w ++ (k ++ ']' :: more)))) ws last) :
    ∃ r, Value.Text limit (u ++ w) r := by
  obtain ⟨c, u', begins, number⟩ := head_of_toString i
  rw [← before.eq_toString integer] at begins
  obtain ⟨_, _, same, solid, bracket⟩ := before.spelling.begins
  obtain ⟨rfl, -⟩ := List.cons.inj (begins.symm.trans same)
  have whole : u ++ (w ++ (k ++ ']' :: more)) = c :: (u' ++ (w ++ (k ++ ']' :: more))) := by
    rw [begins, List.cons_append]
  rw [whole] at read
  obtain ⟨a, r, rest, same, text, g, e, after, rfl, blank', stop⟩ :=
    others.reads_item solid bracket read
  rw [← whole, ← List.append_assoc] at same
  -- both texts go on up to what is no figure
  have figures : ∀ x ∈ u ++ w, isFigure x = true := by
    rw [before.eq_toString integer, param.eq_toString integer']
    exact fun x hx => (List.mem_append.mp hx).elim (figures_toString i x) (figures_toString j x)
  have figures' : ∀ x ∈ a, isFigure x = true := by
    obtain ⟨x, a, rfl, -⟩ := text.spelling.begins
    rw [begins] at same
    obtain ⟨rfl, -⟩ := List.cons.inj same
    exact text.figures number
  have stops : isFigure e = false := by rcases stop with rfl | rfl <;> rfl
  have one : u ++ w = a := span_unique figures (blank.head not_figure_of_blank rfl more) figures'
    (blank'.head not_figure_of_blank stops after) same
  exact ⟨r, one ▸ text⟩

/-- Without a comma in front of a parameter, the list is read only if another one stands directly in
front of it, and then the two are read as one. -/
theorem adjacent_of_reads (others : Front Blank (Value.Text limit) t parts)
    (before : Value.Text limit u v) (known : (∃ s, v = .text s) ∨ ∃ i, v.integer? = some i)
    (blank_g : Blank g) (blank_h : Blank h) (param : Value.Text limit w p)
    (integer : p.integer? = some j) (blank_k : Blank k)
    (read : Reads (readItems (readValue limit) true)
      (t ++ (u ++ (g ++ (h ++ (w ++ (k ++ ']' :: more)))))) ws last) :
    g = [] ∧ h = [] ∧ ∃ i r, v.integer? = some i ∧ Value.Text limit (u ++ w) r := by
  obtain ⟨d, w', begins, number⟩ := head_of_toString j
  rw [← param.eq_toString integer] at begins
  have other : ∀ {c : Char}, c.isDigit = false → c ≠ '-' → d ≠ c := by
    rintro c digit minus rfl
    exact number.elim (fun yes => absurd (yes.symm.trans digit) nofun) minus
  have solid : isBlank d = false := by
    rcases number with digit | rfl
    · exact isBlank_of_digit digit
    · rfl
  have cut : g ++ (h ++ (w ++ (k ++ ']' :: more))) = (g ++ h) ++ d :: (w' ++ (k ++ ']' :: more)) := by
    simp [begins]
  -- a value that can be read up to the gap would be followed by one without a comma
  have missing : ¬Reads (readValue limit) (u ++ (g ++ (h ++ (w ++ (k ++ ']' :: more))))) v
      (g ++ (h ++ (w ++ (k ++ ']' :: more)))) := by
    intro item
    have none := others.taken_missing before item cut (blank_g.append blank_h) solid
      (other rfl (by decide)) (other rfl (by decide))
    exact absurd (none.symm.trans read) nofun
  rcases known with ⟨s, rfl⟩ | ⟨i, known⟩
  · obtain ⟨q, ds, rfl, quotes, rfl⟩ := before.of_text
    exact absurd (quotes.readValue .nil _) missing
  · have gap : g ++ h = [] := by
      rcases same : g ++ h with _ | ⟨c, gap⟩
      · rfl
      · have blank := blank_g.append blank_h
        rw [same] at blank cut
        have ends := EndsNumber.of_blank (blank c List.mem_cons_self)
          (gap ++ d :: (w' ++ (k ++ ']' :: more)))
        rw [← List.cons_append, ← cut] at ends
        exact absurd (before.spelling.reads [] _ .nil ends) missing
    obtain ⟨rfl, rfl⟩ := List.append_eq_nil_iff.mp gap
    obtain ⟨r, text⟩ := text_of_adjacent others before known param integer blank_k read
    exact ⟨rfl, rfl, i, r, known, text⟩

/-- Without the comma behind a delay, nothing is read. -/
theorem taken_readItems_delay (tuples : Front Blank (Value.Text (limit + 2)) t vs) (blank_g : Blank g)
    (text : Value.Text (limit + 1) u delay) (blank_h : Blank h) (blank_k : Blank k) :
    taken? (readItems (readValue (limit + 2)) true
      (t ++ '[' :: (g ++ (u ++ (h ++ (k ++ '[' :: more)))))) = none := by
  have ends : EndsNumber (h ++ (k ++ '[' :: more)) :=
    .blank blank_h (.blank blank_k fun c hc => Option.some.inj hc ▸ by decide)
  have read := text.spelling.reads [] _ .nil ends
  have cut : h ++ (k ++ '[' :: more) = (h ++ k) ++ '[' :: more := by simp
  rw [tuples.taken_list, (Front.nil blank_g).taken_missing text read cut (blank_h.append blank_k) rfl
    (by decide) (by decide)]
  rfl

end

end Lightshow
