/-
Leaving out the separator behind the last command.

A separator may stand behind the last command, and the rewriting drops the last comma whether it is
that one or not.  Without the separator, a comma of the last command goes.  Mostly the text that is
left is no list; the exceptions are those of `Damaged`.

* `Damaged` -- what can become of the last command;
* `Script.parse_without_separator` -- nothing else can become of a script.
-/
import Mathlib
import Lightshow.Proofs.Joining
import Lightshow.Proofs.LastComma

namespace Lightshow

open Json ScriptText

/-! ### Damage -/

/-- What can become of the last command of a script that lacks the last separator: its last two
parameters are written together, or its code, which has a comma, is another one. -/
inductive Damaged : Command → Command → Prop
  | joined {delay : UInt32} {instruction : Instruction} {params : List Int64} {p q r : Int64} :
      instruction.arity < (params ++ [p, q]).length → toString r = toString p ++ toString q →
      Damaged ⟨delay, instruction, params ++ [p, q]⟩ ⟨delay, instruction, params ++ [r]⟩
  | code {delay : UInt32} {code code' : String} : ',' ∈ code.toList →
      Damaged ⟨delay, .ofCode code, []⟩ ⟨delay, .ofCode code', []⟩

variable {limit : Nat} {delay : Value} {c c' : Command}

theorem Damaged.of_code {ds ds' : List Char} (comma : ',' ∈ ds)
    (h : Command.ofValue (.list [delay, .list [.text (String.ofList ds)]]) = .ok c)
    (h' : Command.ofValue (.list [delay, .list [.text (String.ofList ds')]]) = .ok c') :
    Damaged c c' := by
  obtain ⟨_, _, _, ⟨⟩, ticks, instruction, params, -⟩ := Command.parts_of_ofValue h
  obtain ⟨_, _, _, ⟨⟩, ticks', instruction', params', -⟩ := Command.parts_of_ofValue h'
  obtain ⟨d, instruction, params⟩ := c
  obtain ⟨d', instruction', params'⟩ := c'
  dsimp only at *
  obtain rfl := Option.some.inj (ticks.symm.trans ticks')
  obtain rfl := List.map_eq_nil_iff.mp params.symm
  obtain rfl := List.map_eq_nil_iff.mp params'.symm
  subst instruction instruction'
  exact .code (by rwa [String.toList_ofList])

theorem params_of_append {vs ws : List Value} {ps qs : List Int64}
    (h : (vs ++ ws).map Value.integer? = ps.map some) (last : ws.map Value.integer? = qs.map some) :
    ∃ front, ps = front ++ qs ∧ vs.map Value.integer? = front.map some := by
  rw [List.map_append] at h
  obtain ⟨front, back, rfl, hfront, hback⟩ := List.map_eq_append_iff.mp h.symm
  have same := List.map_injective_iff.mpr (fun _ _ => Option.some.inj) (hback.trans last)
  exact ⟨front, by rw [same], hfront.symm⟩

theorem Damaged.of_joined {parts : List Value} {v p r : Value} {i j : Int64}
    (before : v.integer? = some i) (last : p.integer? = some j)
    (text : Value.Text limit ((toString i).toList ++ (toString j).toList) r)
    (h : Command.ofValue (.list [delay, .list (parts ++ [v, p])]) = .ok c)
    (h' : Command.ofValue (.list [delay, .list (parts ++ [r])]) = .ok c') : Damaged c c' := by
  obtain ⟨_, code, ps, same, ticks, instruction, params, -⟩ := Command.parts_of_ofValue h
  obtain ⟨_, code', ps', same', ticks', instruction', params', enough⟩ := Command.parts_of_ofValue h'
  rcases parts with _ | ⟨head, parts⟩
  · -- a code is no integer
    obtain ⟨-, rfl, -⟩ : _ ∧ v = .text code ∧ _ := by simpa using same
    cases before
  obtain ⟨rfl, rfl, rfl⟩ : delay = _ ∧ head = .text code ∧ parts ++ [v, p] = ps := by simpa using same
  obtain ⟨rfl, rfl, rfl⟩ : delay = _ ∧ code = code' ∧ parts ++ [r] = ps' := by simpa using same'
  obtain ⟨k, joined⟩ : ∃ k, r.integer? = some k := by
    rw [List.map_append] at params'
    obtain ⟨_, _, -, -, integers⟩ := List.map_eq_append_iff.mp params'.symm
    obtain ⟨k, _, -, joined, -⟩ := List.map_eq_cons_iff.mp integers
    exact ⟨k, joined.symm⟩
  have two : [v, p].map Value.integer? = [i, j].map some := by simp [before, last]
  have one : [r].map Value.integer? = [k].map some := by simp [joined]
  obtain ⟨front, hfront, others⟩ := params_of_append params two
  obtain ⟨front', hfront', others'⟩ := params_of_append params' one
  have same : front = front' :=
    List.map_injective_iff.mpr (fun _ _ => Option.some.inj) (others.symm.trans others')
  obtain ⟨d, instruction, params⟩ := c
  obtain ⟨d', instruction', params'⟩ := c'
  dsimp only at *
  obtain rfl := Option.some.inj (ticks.symm.trans ticks')
  subst instruction instruction' hfront hfront' same
  refine .joined ?_ ?_
  · simp only [List.length_append, List.length_cons, List.length_nil] at enough ⊢
    omega
  · rw [← String.toList_inj, String.toList_append, text.eq_toString joined]

/-! ### Scripts -/

theorem Script.ReadAs.eq {vs : List Value} {commands commands' : List Command}
    (h : Script.ReadAs vs commands) (h' : Script.ReadAs vs commands') : commands = commands' := by
  refine List.right_unique_forall₂' (fun v c c' hc hc' => ?_) h h'
  exact Except.ok.inj (hc.symm.trans hc')

/-- Commands of two scripts that differ in the last item. -/
theorem Script.ReadAs.last {vs : List Value} {v w : Value} {commands commands' : List Command}
    (h : Script.ReadAs (vs ++ [v]) commands) (h' : Script.ReadAs (vs ++ [w]) commands') :
    ∃ front c c', commands = front ++ [c] ∧ commands' = front ++ [c'] ∧
      Command.ofValue v = .ok c ∧ Command.ofValue w = .ok c' := by
  obtain ⟨front, c, rfl, others, last⟩ := h.concat
  obtain ⟨front', c', rfl, others', last'⟩ := h'.concat
  exact ⟨front, c, c', rfl, by rw [others.eq others'], last, last'⟩

namespace Script

variable {raw : String} {s : Script} {body : List Char} {vs : List Value}

/-- A script whose text is a text of items has those items. -/
theorem readAs_of_items (items : Items Blank (Value.Text itemLimit) true body vs)
    (whole : (normalize raw).toList =
      '\x7b' :: ' ' :: (fieldText ++ (body ++ [' ', ']'] ++ [' ', '\x7d'])))
    (h : Script.parse raw = .ok s) : ReadAs vs s.commands := by
  rw [List.append_assoc] at whole
  obtain ⟨vs', rest, read, commands⟩ := exists_items_of_parse h whole
  have closed := (items.append_blank (g := [' ']) (by decide)).reads Value.Text.spelling [' ', '\x7d']
  rw [List.append_assoc] at closed
  obtain ⟨rfl, same⟩ := Prod.mk.inj (Option.some.inj (closed.symm.trans read))
  exact commands (List.cons.inj same).2.symm

/-- An accepted script whose text is a list by itself is a text of items. -/
theorem items_of_list (h : Script.parse raw = .ok s)
    (whole : (normalize raw).toList =
      '\x7b' :: ' ' :: (fieldText ++ (body ++ [' ', ']'] ++ [' ', '\x7d'])))
    (list : Value.ofText ('[' :: (body ++ [']'])) = .ok (.list vs)) :
    Items Blank (Value.Text itemLimit) true body vs := by
  -- the text is one of items, which may be nested deeper than those of a script
  have deep : Items Blank (Value.Text (itemLimit + 1)) true body vs := by
    obtain ⟨g, t, r, same, blank_g, blank_r, text⟩ := Value.ofText_eq_ok_iff.mp list
    obtain ⟨u, rfl, items⟩ := Value.Text.of_list text
    obtain rfl : g = [] := by
      rcases g with _ | ⟨c, g⟩
      · rfl
      · exact absurd ((List.cons.inj same).1 ▸ blank_g c List.mem_cons_self) nofun
    rcases List.eq_nil_or_concat r with rfl | ⟨r, c, rfl⟩
    · obtain rfl : body = u := by simpa using same
      exact items
    · -- what closes the list is the last character
      have close : ('[' :: body) ++ [']'] = ('[' :: (u ++ ']' :: r)) ++ [c] := by simpa using same
      obtain rfl := (List.cons.inj (List.append_inj' close rfl).2).1
      exact absurd (blank_r ']' (by simp)) nofun
  rw [List.append_assoc] at whole
  obtain ⟨vs', rest, read, -⟩ := exists_items_of_parse h whole
  obtain ⟨t, r, same, hr, items⟩ := Items.of_reads (fun read => Value.Text.of_reads read) read
  obtain rfl := (List.cons.inj hr).2
  have closed := (deep.append_blank (g := [' ']) (by decide)).reads Value.Text.spelling [' ', '\x7d']
  have closed' := (items.imp Value.Text.succ).reads Value.Text.spelling rest
  rw [List.append_assoc] at closed
  rw [← same] at closed'
  obtain ⟨rfl, behind⟩ := Prod.mk.inj (Option.some.inj (closed.symm.trans closed'))
  obtain rfl := (List.cons.inj behind).2
  have padded : (body ++ [' ']) ++ [']', ' ', '\x7d'] = t ++ [']', ' ', '\x7d'] := by
    simpa using same
  obtain rfl := List.append_cancel_right padded
  exact items.of_append_blank rfl Value.Text.ends

variable {x y front back t u g h w k : List Char} {bs parts : List Value} {delay v p : Value}
  {commands : List Command} {s' : Script}

/-- The parameters of a command are integers behind a code. -/
theorem integers_of_command {c : Command}
    (h : Command.ofValue (.list [delay, .list (parts ++ [v, p])]) = .ok c) :
    ((∃ code, v = .text code) ∨ ∃ i, v.integer? = some i) ∧ ∃ j, p.integer? = some j := by
  obtain ⟨_, code, ps, same, -, -, params, -⟩ := Command.parts_of_ofValue h
  have integers : ∀ q ∈ ps, ∃ i, q.integer? = some i := by
    intro q hq
    have mem : q.integer? ∈ c.params.map some := params ▸ List.mem_map_of_mem hq
    obtain ⟨i, -, hi⟩ := List.mem_map.mp mem
    exact ⟨i, hi.symm⟩
  rcases parts with _ | ⟨head, parts⟩
  · obtain ⟨-, rfl, rfl⟩ : _ ∧ v = .text code ∧ [p] = ps := by simpa using same
    exact ⟨.inl ⟨code, rfl⟩, integers p (by simp)⟩
  · obtain ⟨-, -, rfl⟩ : _ ∧ _ ∧ parts ++ [v, p] = ps := by simpa using same
    exact ⟨.inr (integers v (by simp)), integers p (by simp)⟩

theorem natural_of_delay {delay : Value} {d : UInt32} (h : Command.delayOf? delay = some d) :
    ∃ n, delay = .number n := by
  cases delay with
  | number n => exact ⟨n, rfl⟩
  | _ => cases h

/-- A script without comments, in front of its last comma and behind it. -/
structure Cut (raw : String) (x y : List Char) : Prop where
  whole : raw.toList = x ++ ',' :: y
  last : ',' ∉ y
  front : Uncommented x
  back : Uncommented y

theorem exists_cut (uncommented : Uncommented raw.toList) (comma : ',' ∈ raw.toList) :
    ∃ x y, Cut raw x y := by
  obtain ⟨x, y, whole, last⟩ := exists_last_comma comma
  refine ⟨x, y, whole, last, fun slashes => uncommented ?_, fun slashes => uncommented ?_⟩
  · exact whole ▸ slashes.trans ⟨[], ',' :: y, by simp⟩
  · exact whole ▸ slashes.trans ⟨x ++ [','], [], by simp⟩

theorem Cut.normalize {text : List Char} (cut : Cut raw x y)
    (strict : strictText (x ++ y ++ [' ', ']']) = text) :
    (normalize raw).toList = '\x7b' :: ' ' :: (fieldText ++ (text ++ [' ', '\x7d'])) := by
  rw [normalize_toList, cut.whole, dropLastComma_split x cut.last, strict]

theorem ends_of_blank {c : Char} (h : isBlank c = true) : c ≠ 'x' ∧ c ≠ '/' := by
  constructor <;> (rintro rfl; cases h)

/-- The comma behind the last delay is not missing from an accepted script. -/
theorem no_comma_behind_delay {more : List Char} (cut : Cut raw x y)
    (tuples : Front Blank (Value.Text itemLimit) t bs) (blank_g : Blank g)
    (text : Value.Text 124 u delay) (blank_h : Blank h) (blank_k : Blank k)
    (begins : marked x = t ++ '[' :: (g ++ (u ++ h))) (ends : marked y = k ++ '[' :: more)
    (old : ReadAs (bs ++ [.list [delay, .list parts]]) commands)
    (accepted : Script.parse raw = .ok s) : False := by
  obtain ⟨-, c, -, -, command⟩ := old.concat
  obtain ⟨_, _, _, ⟨⟩, ticks, -⟩ := Command.parts_of_ofValue command
  obtain ⟨n, rfl⟩ := natural_of_delay ticks
  have plain : 'x' ∉ g ++ (u ++ h) := by
    simp only [List.mem_append, not_or]
    exact ⟨fun hx => absurd (blank_g 'x' hx) nofun, fun hx => absurd (text.of_number 'x' hx) nofun,
      fun hx => absurd (blank_h 'x' hx) nofun⟩
  have first : ∀ d ∈ (marked y).head?, d ≠ 'x' ∧ d ≠ '/' :=
    ends ▸ blank_k.head ends_of_blank (by decide) more
  have strict := strictText_joined cut.front cut.back begins (by decide) plain first
  obtain ⟨ws, rest, read, -⟩ := exists_items_of_parse accepted (cut.normalize strict)
  rw [begins, ends] at read
  have none : taken? (readItems (readValue itemLimit) true
      (t ++ '[' :: (g ++ (u ++ (h ++ (k ++ '[' :: (more ++ [' ', ']', ' ', '\x7d']))))))) = none :=
    taken_readItems_delay tuples blank_g text blank_h blank_k
  have whole : t ++ '[' :: (g ++ (u ++ h)) ++ (k ++ '[' :: more ++ [' ', ']']) ++ [' ', '\x7d'] =
      t ++ '[' :: (g ++ (u ++ (h ++ (k ++ '[' :: (more ++ [' ', ']', ' ', '\x7d']))))) := by
    simp
  rw [Reads, whole, none] at read
  cases read

/-- Behind a character that is part of no number, what stands in front of the last comma has no
`x`. -/
theorem exists_barrier (around : Around limit front back bs delay)
    (others : Front Blank (Value.Text limit) t parts) (before : Value.Text limit u v)
    (known : (∃ code, v = .text code) ∨ ∃ i, v.integer? = some i) (blank : Blank g) :
    ∃ p c f, front ++ (t ++ (u ++ g)) = p ++ c :: f ∧ isHexish c = false ∧ 'x' ∉ f := by
  have noX : ∀ {g : List Char}, Blank g → 'x' ∉ g := fun blank hx => absurd (blank 'x' hx) nofun
  rcases known with ⟨code, rfl⟩ | ⟨i, integer⟩
  · obtain ⟨q, ds, rfl, -, -⟩ := before.of_text
    exact ⟨front ++ (t ++ '"' :: q), '"', g, by simp, by decide, noX blank⟩
  · have digits : 'x' ∉ u := by
      rw [before.eq_toString integer]
      exact not_mem_of_digits (digits_toString i) rfl (by decide)
    cases others with
    | nil blank' =>
      cases around with
      | @mk t' k =>
        exact ⟨t' ++ '[' :: k, '[', t ++ (u ++ g), by simp, by decide,
          by simp [noX blank', digits, noX blank]⟩
    | @comma t h _ _ _ blank' =>
      exact ⟨front ++ t, ',', h ++ (u ++ g), by simp, by decide,
        by simp [noX blank', digits, noX blank]⟩

/-- The last two parameters of the last command are joined when the comma between them goes. -/
theorem damaged_of_param (cut : Cut raw x y) (around : Around 123 front back bs delay)
    (others : Front Blank (Value.Text 123) t parts) (before : Value.Text 123 u v) (blank_g : Blank g)
    (blank_h : Blank h) (param : Value.Text 123 w p) (blank_k : Blank k)
    (begins : marked x = front ++ (t ++ (u ++ g))) (ends : marked y = h ++ (w ++ (k ++ back)))
    (old : ReadAs (bs ++ [.list [delay, .list (parts ++ [v, p])]]) commands)
    (accepted : Script.parse raw = .ok s) :
    ∃ front c c', commands = front ++ [c] ∧ s.commands = front ++ [c'] ∧ Damaged c c' := by
  obtain ⟨-, c, -, -, command⟩ := old.concat
  obtain ⟨known, j, integer⟩ := integers_of_command command
  -- no hexadecimal number and no comment begins across the comma, so that both sides are rewritten
  -- by themselves
  have strict : strictText (x ++ y ++ [' ', ']']) = marked x ++ (marked y ++ [' ', ']']) := by
    obtain ⟨p, e, f, barrier, hexish, plain⟩ := exists_barrier around others before known blank_g
    obtain ⟨d, w', digits, number⟩ := head_of_toString j
    rw [← param.eq_toString integer] at digits
    have other : d ≠ 'x' ∧ d ≠ '/' := by
      constructor <;> (rintro rfl; exact number.elim (fun yes => absurd yes nofun) nofun)
    refine strictText_joined cut.front cut.back (begins.trans barrier) hexish plain ?_
    rw [ends, digits]
    exact blank_h.head ends_of_blank other (w' ++ (k ++ back))
  have text := cut.normalize strict
  obtain ⟨ws, rest, read, -⟩ := exists_items_of_parse accepted text
  obtain ⟨more, hback⟩ : ∃ more, back = ']' :: more := by
    cases around
    exact ⟨_, rfl⟩
  have whole : marked x ++ (marked y ++ [' ', ']']) ++ [' ', '\x7d'] = front ++ (t ++ (u ++ (g ++
      (h ++ (w ++ (k ++ ']' :: (more ++ [' ', ']', ' ', '\x7d']))))))) := by
    rw [begins, ends, hback]
    simp
  rw [whole] at read
  -- as they are read, nothing stands between them
  obtain ⟨ws, rest, read⟩ := around.reads_parts read
  obtain ⟨rfl, rfl, i, r, integer', joined⟩ :=
    adjacent_of_reads others before known blank_g blank_h param integer blank_k read
  have items := around.items (others.items joined blank_k)
  have body : marked x ++ (marked y ++ [' ', ']']) =
      front ++ (t ++ (u ++ w ++ k) ++ back) ++ [' ', ']'] := by
    rw [begins, ends]
    simp
  rw [body] at text
  obtain ⟨front, c, c', rfl, same, hc, hc'⟩ := old.last (readAs_of_items items text accepted)
  rw [before.eq_toString integer', param.eq_toString integer] at joined
  exact ⟨front, c, c', rfl, same, .of_joined integer' integer joined hc hc'⟩

/-- The code of the last command becomes another one when a comma in it goes. -/
theorem damaged_of_code {a b ds : List Char} (cut : Cut raw x y)
    (around : Around 123 front back bs delay) (blank_g : Blank g)
    (quotes : Quotes (a ++ ',' :: b) ds) (blank_h : Blank h)
    (begins : marked x = front ++ (g ++ '"' :: a)) (ends : marked y = b ++ '"' :: (h ++ back))
    (old : ReadAs (bs ++ [.list [delay, .list [.text (String.ofList ds)]]]) commands)
    (accepted : Script.parse raw = .ok s) :
    ∃ front c c', commands = front ++ [c] ∧ s.commands = front ++ [c'] ∧ Damaged c c' := by
  rw [← List.append_assoc] at begins
  have empty : Front Blank (Value.Text 123) g [] := .nil blank_g
  rcases strictText_string cut.front cut.back begins ends quotes.inside with
    ⟨m, inside, strict⟩ | ⟨q, e, k, inside, strict, line⟩
  · -- the string goes on to its end, and spells another code
    have text := cut.normalize strict
    obtain ⟨ws, rest, read, -⟩ := exists_items_of_parse accepted text
    have whole : front ++ g ++ '"' :: (m ++ '"' :: (h ++ back ++ [' ', ']'])) ++ [' ', '\x7d'] =
        front ++ (g ++ '"' :: (m ++ '"' :: (h ++ back ++ [' ', ']', ' ', '\x7d']))) := by
      simp
    rw [whole] at read
    obtain ⟨ws, rest, read⟩ := around.reads_parts read
    obtain ⟨q, ds', rest, same, quotes'⟩ := string_of_reads empty read
    obtain ⟨rfl, -⟩ := inside.ends quotes'.inside same
    have items := around.items (empty.items (Value.Text.leaf (.text quotes') 123) blank_h)
    have body : front ++ g ++ '"' :: (m ++ '"' :: (h ++ back ++ [' ', ']'])) =
        front ++ (g ++ ('"' :: (m ++ ['"']) ++ h) ++ back) ++ [' ', ']'] := by
      simp
    rw [body] at text
    obtain ⟨front, c, c', rfl, same, hc, hc'⟩ := old.last (readAs_of_items items text accepted)
    exact ⟨front, c, c', rfl, same, .of_code quotes.comma hc hc'⟩
  · -- the string does not end on its line
    obtain ⟨ws, rest, read, -⟩ := exists_items_of_parse accepted (cut.normalize strict)
    have whole : front ++ g ++ '"' :: (q ++ k) ++ [' ', '\x7d'] =
        front ++ (g ++ '"' :: (q ++ (k ++ [' ', '\x7d']))) := by
      simp
    rw [whole] at read
    obtain ⟨ws, rest, read⟩ := around.reads_parts read
    obtain ⟨m, ds', rest, same, quotes'⟩ := string_of_reads empty read
    refine absurd quotes' (inside.not_quotes (fun l r cut => ?_) same)
    rcases k with _ | ⟨c, k⟩
    · have quote : '"' ∈ [' ', '\x7d'] := by
        rw [show [' ', '\x7d'] = l ++ '"' :: r from cut]
        simp
      exact absurd quote (by decide)
    · obtain rfl := line c rfl
      rcases l with _ | ⟨d, l⟩
      · exact absurd (List.cons.inj cut).1 (by decide)
      · obtain ⟨rfl, -⟩ := List.cons.inj cut
        exact ⟨'\n', List.mem_cons_self, by decide⟩

/-- **A script that lacks the last separator is the same script or an error**, up to its last command:
that can come back with its last two parameters written together, if it has more than its code takes,
or with another code, if it has no parameters and a comma in its code. -/
theorem parse_without_separator {s' : Script} (uncommented : Uncommented raw.toList)
    (list : Value.ofText ('[' :: (rewritten (raw ++ ",").toList ++ [']'])) = .ok (.list vs))
    (h : Script.parse (raw ++ ",") = .ok s) (h' : Script.parse raw = .ok s') :
    s' = s ∨ ∃ front c c', s.commands = front ++ [c] ∧ s'.commands = front ++ [c'] ∧ Damaged c c' := by
  have separated : dropLastComma (raw ++ ",").toList = raw.toList := by
    rw [String.toList_append]
    exact (dropLastComma_split raw.toList (by decide)).trans (List.append_nil _)
  have whole := normalize_toList (raw ++ ",")
  rw [separated] at whole
  by_cases comma : ',' ∈ raw.toList
  · obtain ⟨x, y, cut⟩ := exists_cut uncommented comma
    rw [rewritten_eq, separated, strictText_of_uncommented uncommented] at list
    rw [strictText_marked uncommented] at whole
    have items := items_of_list h whole list
    have old := readAs_of_items items whole h
    rw [cut.whole, marked_barrier (by decide)] at items
    have plain : ',' ∉ marked y := mt mem_of_mem_marked cut.last
    generalize begins : marked x = a at items
    generalize ends : marked y = b at items plain
    cases lastComma_of_items items old plain with
    | delay tuples blank_g text blank_h blank_k =>
      exact (no_comma_behind_delay cut tuples blank_g text blank_h blank_k begins ends old h').elim
    | code around blank_g quotes blank_h =>
      exact .inr (damaged_of_code cut around blank_g quotes blank_h begins ends old h')
    | param around others before blank_g blank_h param blank_k =>
      exact .inr (damaged_of_param cut around others before blank_g blank_h param blank_k begins ends
        old h')
  · -- no comma goes
    have same : normalize raw = normalize (raw ++ ",") := by
      rw [← String.toList_inj, whole, normalize_toList, dropLastComma_of_not_mem comma]
    have parsed : Script.parse raw = Script.parse (raw ++ ",") := by
      rw [Script.parse, Script.parse, same]
    exact .inl (Except.ok.inj (h'.symm.trans (parsed.trans h)))

theorem parse_without_separator_joined :
    (Uncommented "[1, ['z', 1,2]]".toList ∧
      Value.ofText ('[' :: (rewritten ("[1, ['z', 1,2]]" ++ ",").toList ++ [']'])) =
        .ok (.list [.list [.number (.natural 1),
          .list [.text "z", .number (.natural 1), .number (.natural 2)]]]) ∧
      Script.parse ("[1, ['z', 1,2]]" ++ ",") = .ok ⟨[⟨1, .unknown "z", [1, 2]⟩]⟩ ∧
      Script.parse "[1, ['z', 1,2]]" = .ok ⟨[⟨1, .unknown "z", [12]⟩]⟩) ∧
      ((⟨[⟨1, .unknown "z", [12]⟩]⟩ : Script) = ⟨[⟨1, .unknown "z", [1, 2]⟩]⟩ ∨
        ∃ front c c', [⟨1, .unknown "z", [1, 2]⟩] = front ++ [c] ∧
          [⟨1, .unknown "z", [12]⟩] = front ++ [c'] ∧ Damaged c c') := by
  have uncommented : Uncommented "[1, ['z', 1,2]]".toList := by decide +kernel
  have list : Value.ofText ('[' :: (rewritten ("[1, ['z', 1,2]]" ++ ",").toList ++ [']'])) =
      .ok (.list [.list [.number (.natural 1),
        .list [.text "z", .number (.natural 1), .number (.natural 2)]]]) := by cbv
  have separated : Script.parse ("[1, ['z', 1,2]]" ++ ",") = .ok ⟨[⟨1, .unknown "z", [1, 2]⟩]⟩ := by cbv
  have joined : Script.parse "[1, ['z', 1,2]]" = .ok ⟨[⟨1, .unknown "z", [12]⟩]⟩ := by cbv
  exact ⟨⟨uncommented, list, separated, joined⟩,
    parse_without_separator uncommented list separated joined⟩

/-- Two scripts that are others with the last separator: two parameters become one, and a code loses
its comma. -/
theorem parse_with_separator_differs :
    (Uncommented "[1, ['z', 1,2]]".toList ∧
      Script.parse ("[1, ['z', 1,2]]" ++ ",") = .ok ⟨[⟨1, .unknown "z", [1, 2]⟩]⟩ ∧
      Script.parse "[1, ['z', 1,2]]" = .ok ⟨[⟨1, .unknown "z", [12]⟩]⟩) ∧
    (Uncommented "[1, ['a,b']]".toList ∧
      Script.parse ("[1, ['a,b']]" ++ ",") = .ok ⟨[⟨1, .unknown "a,b", []⟩]⟩ ∧
      Script.parse "[1, ['a,b']]" = .ok ⟨[⟨1, .unknown "ab", []⟩]⟩) :=
  ⟨⟨by decide +kernel, by cbv, by cbv⟩, by decide +kernel, by cbv, by cbv⟩

end Script

end Lightshow
